import FleetRegistry.Json.Basic
import FleetRegistry.Patch.Error

/-!
Patches that are merged into a document. A plain merge lets a null remove a member, goes into
objects and replaces everything else. A strategic merge also merges the elements of lists that are
told apart by one of their fields, and it obeys directives: an object may ask to replace its target
or to delete it.
-/
namespace FleetRegistry.Patch

open Json (Members)

mutual

def merge : Json → Json → Json
  | .obj patch, target => .obj (mergeAll patch (target.members?.getD []))
  | patch, _ => patch

def mergeAll : List (String × Json) → Members → Members
  | [], target => target
  | (name, value) :: rest, target =>
    match value with
    | .null => mergeAll rest (target.erase name)
    | value => mergeAll rest (target.set name (merge value ((target.find? name).getD .null)))

end

def directiveKey : String := "$patch"

def directive? (members : Members) : Option String :=
  (members.find? directiveKey).bind Json.text?

/-- Names that start with a dollar sign do not belong to documents. -/
def isReserved (name : String) : Bool := name.toList.head? = some '$'

mutual

/-- A value without the members whose names are reserved, at any depth. -/
def strip : Json → Json
  | .obj members => .obj (stripMembers members)
  | .arr items => .arr (stripItems items)
  | value => value

def stripMembers : List (String × Json) → List (String × Json)
  | [] => []
  | (name, value) :: rest =>
    if isReserved name then stripMembers rest else (name, strip value) :: stripMembers rest

def stripItems : List Json → List Json
  | [] => []
  | item :: rest => strip item :: stripItems rest

end

def asksToDelete (value : Json) : Bool :=
  value.members?.any fun members => directive? members = some "delete"

def cleanItems (items : List Json) : List Json :=
  stripItems (items.filter (!asksToDelete ·))

def positionOf? (key : String) (value : Json) (items : List Json) : Option Nat :=
  items.findIdx? fun item => (item.member? key).any (·.same value)

/-- The list of a document that a list of the patch is merged into element by element, with the
field that tells the elements apart. -/
def keyedTarget? (keys : List (String × String)) (name : String) (target : Members) :
    Option (String × List Json) := do
  let key ← keys.lookup name
  let items ← (target.find? name).bind Json.items?
  return (key, items)

mutual

/-- The strategic merge of an object into a document. -/
def strategic (keys : List (String × String)) : Json → Json → Except PatchError Json
  | .obj patch, target =>
    match directive? patch with
    | none => (strategicMembers keys patch (target.members?.getD [])).map .obj
    | some directive =>
      if directive = "replace" then .ok (.obj (stripMembers patch))
      else if directive = "delete" then
        (strategicMembers keys patch (target.members?.getD [])).map .obj
      else .error (.unknownDirective directive)
  | patch, _ => .ok (strip patch)

def strategicMembers (keys : List (String × String)) :
    List (String × Json) → Members → Except PatchError Members
  | [], target => .ok target
  | (name, value) :: rest, target =>
    if isReserved name then strategicMembers keys rest target
    else match value with
      | .null => strategicMembers keys rest (target.erase name)
      | .arr items =>
        match keyedTarget? keys name target with
        | none => strategicMembers keys rest (target.set name (.arr (cleanItems items)))
        | some (key, existing) =>
          match strategicItems keys key items existing with
          | .error error => .error error
          | .ok merged => strategicMembers keys rest (target.set name (.arr merged))
      | .obj child =>
        if directive? child = some "delete" then strategicMembers keys rest (target.erase name)
        else match strategic keys (.obj child) ((target.find? name).getD (.obj [])) with
          | .error error => .error error
          | .ok merged => strategicMembers keys rest (target.set name merged)
      | scalar => strategicMembers keys rest (target.set name scalar)

/-- Merges the elements of a list one after the other into elements of the same key. An element
without counterpart is put at the end. -/
def strategicItems (keys : List (String × String)) (key : String) :
    List Json → List Json → Except PatchError (List Json)
  | [], existing => .ok existing
  | item :: rest, existing =>
    match item with
    | .obj members =>
      match Members.find? key members with
      | none => .error (.elementWithoutKey key)
      | some value =>
        match positionOf? key value existing with
        | none =>
          if asksToDelete (.obj members) then strategicItems keys key rest existing
          else strategicItems keys key rest (existing ++ [strip (.obj members)])
        | some i =>
          if asksToDelete (.obj members) then strategicItems keys key rest (existing.eraseIdx i)
          else match strategic keys (.obj members) (existing.getD i .null) with
            | .error error => .error error
            | .ok merged => strategicItems keys key rest (existing.set i merged)
    | _ => .error (.elementNotObject key)

end

end FleetRegistry.Patch

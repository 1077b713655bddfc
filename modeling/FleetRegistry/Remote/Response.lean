import FleetRegistry.Json.Parser
import FleetRegistry.Json.Printer
import FleetRegistry.Remote.Request

/-!
What a server answers. Answers in the range of errors carry a status; all others carry what was
asked for. The body of a watch is a series of lines, each of them one event.
-/
namespace FleetRegistry

structure HttpResponse where
  status : Nat := 200
  body : String
  deriving DecidableEq, Repr

structure ServerStatus where
  code : Nat := 0
  reason : String := ""
  message : String := ""
  deriving DecidableEq, Repr

/-- A value with a default for an absent member; null is refused. -/
def Json.presentField {α : Type} (default : α) (decode : Json → Option α) (name : String)
    (members : Json.Members) : Option α :=
  match members.find? name with
  | none => some default
  | some value => decode value

namespace ServerStatus

def cause? (value : Json) : Option Unit := do
  let m ← value.members?
  let _ ← Json.presentField "" Json.text? "reason" m
  let _ ← Json.presentField "" Json.text? "message" m
  let _ ← Json.presentField "" Json.text? "field" m

/-- The details of a status, which only have to be well formed. -/
def details? (value : Json) : Option Unit := do
  let m ← value.members?
  let _ ← Json.presentField "" Json.text? "name" m
  let _ ← Json.presentField "" Json.text? "group" m
  let _ ← Json.presentField "" Json.text? "kind" m
  let _ ← Json.presentField "" Json.text? "uid" m
  let _ ← Json.presentField [] (Json.list? cause?) "causes" m
  let _ ← Json.presentField 0 (Json.natBelow? UInt32.size) "retryAfterSeconds" m

def summary? (value : Json) : Option Unit := do
  let text ← value.text?
  if text = "Success" ∨ text = "Failure" then return () else none

def ofJson? (value : Json) : Option ServerStatus := do
  let m ← value.members?
  let _ ← Json.optionalField summary? "status" m
  let _ ← Json.optionalField details? "details" m
  return {
    code := ← Json.presentField 0 (Json.natBelow? 65536) "code" m
    reason := ← Json.presentField "" Json.text? "reason" m
    message := ← Json.presentField "" Json.text? "message" m }

/-- The status in an answer. If there is none, the text of the answer is the message. -/
def ofResponse (response : HttpResponse) : ServerStatus :=
  match (Json.parse? response.body).bind ofJson? with
  | some status => status
  | none => ⟨response.status, "Failed to parse error data", response.body⟩

def error (k : Kind) (name : String) (status : ServerStatus) : RegistryError :=
  .ofStatus k.qualified name status.code status.reason status.message

end ServerStatus

namespace HttpResponse

/-- The text of a body: a text as it is, a list with each item on a line, anything else as JSON. -/
def bodyOf : Json → String
  | .str text => text
  | .arr items => String.join (items.map fun item => item.compact ++ "\n")
  | value => value.compact

/-- An answer that is given in writing; its status is a success if none is given. -/
def ofJson? (value : Json) : Option HttpResponse := do
  let m ← value.members?
  return {
    status := ← Json.defaultedField 200 (Json.natBelow? 65536) "status" m
    body := bodyOf ((m.find? "body").getD .null) }

def isError (response : HttpResponse) : Bool := 400 ≤ response.status && response.status < 600

/-- The body of an answer in lines; a last empty line does not count. -/
def lines (response : HttpResponse) : List String :=
  let pieces := Text.pieces '\n' response.body.toList
  let pieces := if pieces.getLast?.any (fun last => last.isEmpty || last = ['\r'])
    then pieces.dropLast else pieces
  pieces.map fun line =>
    String.ofList (if line.getLast? = some '\r' then line.dropLast else line)

end HttpResponse

namespace Remote

/-! ## Single values -/

structure PageMeta where
  resourceVersion : Option String := none
  continueToken : Option String := none

def PageMeta.ofJson? (value : Json) : Option PageMeta := do
  let m ← value.members?
  let _ ← Json.optionalField Json.text? "selfLink" m
  let _ ← Json.optionalField Json.int64? "remainingItemCount" m
  return {
    resourceVersion := ← Json.optionalField Json.text? "resourceVersion" m
    continueToken := ← Json.optionalField Json.text? "continue" m }

/-- The items of a page; null stands for none. -/
def items? (k : Kind) : Json → Option (List (Object k))
  | .null => some []
  | value => Json.list? (Object.ofJson? k) value

/-- A page. Items have to be there; metadata may be missing. -/
def page? (k : Kind) (value : Json) : Option (Page k) := do
  let m ← value.members?
  let pageMeta ← Json.presentField {} PageMeta.ofJson? "metadata" m
  return {
    items := ← Json.requiredField (items? k) "items" m
    resourceVersion := pageMeta.resourceVersion
    continueToken := pageMeta.continueToken.filter (!·.isEmpty) }

def isStatus (value : Json) : Bool := (value.member? "kind").bind Json.text? == some "Status"

/-- What became of an object according to the object that is given back: one that still waits for
its finalizers is pending. -/
def deletionOf {k : Kind} (o : Object k) : Deletion k :=
  if o.metadata.isDeleting && !o.metadata.finalizerList.isEmpty then .pending o else .deleted

/-- What became of an object. A status says that it is gone. -/
def deletion? (k : Kind) (value : Json) : Option (Deletion k) :=
  if isStatus value then (ServerStatus.ofJson? value).map fun _ => .deleted
  else (Object.ofJson? k value).map deletionOf

/-- That objects were deleted: a status, or the objects. -/
def collectionDeletion? (k : Kind) (value : Json) : Option Unit :=
  if isStatus value then (ServerStatus.ofJson? value).map fun _ => ()
  else (page? k value).map fun _ => ()

/-! ## Watches -/

def bookmark? (value : Json) : Option String := do
  let m ← value.members?
  let _ ← Json.requiredField Json.text? "apiVersion" m
  let _ ← Json.requiredField Json.text? "kind" m
  let data ← Json.requiredField Json.members? "metadata" m
  let _ ← Json.presentField StringMap.empty Json.stringMap? "annotations" data
  Json.requiredField Json.text? "resourceVersion" data

def eventOf? (k : Kind) (type object : Json) : Option (Outcome (WatchEvent k)) := do
  let type ← type.text?
  if type = "ADDED" then return .ok (.added (← Object.ofJson? k object))
  else if type = "MODIFIED" then return .ok (.modified (← Object.ofJson? k object))
  else if type = "DELETED" then return .ok (.deleted (← Object.ofJson? k object))
  else if type = "BOOKMARK" then return .ok (.bookmark (← bookmark? object))
  else if type = "ERROR" then return .error ((← ServerStatus.ofJson? object).error k "")
  else none

/-- The event that a value stands for, with names or as a pair. -/
def event? (k : Kind) : Json → Option (Outcome (WatchEvent k))
  | .arr [type, object] => eventOf? k type object
  | .obj members => do
    eventOf? k (← Json.Members.find? "type" members) (← Json.Members.find? "object" members)
  | _ => none

/-- What a value in a watch means that is no event: a status, or nothing. -/
def strayItem (k : Kind) (value : Json) : Outcome (WatchEvent k) :=
  match ServerStatus.ofJson? value with
  | some status => .error (status.error k "")
  | none => .error (.transport .undecodable)

/-- What a line of a watch means. A line that stops too early means nothing. -/
def item? (k : Kind) (line : String) : Option (Outcome (WatchEvent k)) :=
  match Json.read line.toList with
  | .error .cutShort => none
  | .error .malformed => some (.error (.transport .undecodable))
  | .ok value => some ((event? k value.canonical).getD (strayItem k value.canonical))

/-- What a watch delivers before it ends. -/
abbrev Stream (k : Kind) := List (Outcome (WatchEvent k))

def streamOf (k : Kind) (response : HttpResponse) : Stream k :=
  response.lines.filterMap (item? k)

/-! ## Answers -/

def subject {k : Kind} : Call k → String
  | .get name | .patch name _ _ | .delete name _ => name
  | .create object _ | .update _ object _ => object.anyName
  | .list _ | .watch _ | .deleteCollection .. => ""

def valueOf? {k : Kind} (call : Call k) (value : Json) : Option (Answer k (Stream k)) :=
  match call with
  | .list _ => (page? k value).map .page
  | .delete .. => (deletion? k value).map .deletion
  | .deleteCollection .. => (collectionDeletion? k value).map fun _ => .done
  | .get _ | .watch _ | .create .. | .update .. | .patch .. =>
    (Object.ofJson? k value).map .object

def answerOf {k : Kind} (call : Call k) (response : HttpResponse) :
    Outcome (Answer k (Stream k)) :=
  match call with
  | .watch _ => .ok (.stream (streamOf k response))
  | call =>
    if response.isError then .error ((ServerStatus.ofResponse response).error k (subject call))
    else match (Json.parse? response.body).bind (valueOf? call) with
      | some answer => .ok answer
      | none => .error (.transport .undecodable)

end Remote

end FleetRegistry

import FleetRegistry.Collection.StringMap
import FleetRegistry.Collection.StringSet
import FleetRegistry.Selector.Error

/-!
One requirement on labels: a key, how its value is compared, and the values to compare with. A
requirement about inequality also holds where the key is missing.
-/
namespace FleetRegistry

/-- How the value of a label is compared. -/
inductive LabelOperator where
  | equals
  | notEquals
  | isIn
  | notIn
  | exists_
  | doesNotExist
  deriving DecidableEq, Repr

def LabelOperator.name : LabelOperator → String
  | equals => "Equals"
  | notEquals => "NotEquals"
  | isIn => "In"
  | notIn => "NotIn"
  | exists_ => "Exists"
  | doesNotExist => "DoesNotExist"

/-- A requirement on the labels of an object. -/
structure Requirement where
  key : String
  operator : LabelOperator
  values : StringSet
  deriving DecidableEq

namespace Requirement

def arityFault? (key : String) (operator : LabelOperator) (size : Nat) : Option SelectorFault :=
  match operator with
  | .equals | .notEquals => if size ≠ 1 then some (.needsOneValue key) else none
  | .isIn | .notIn => if size = 0 then some (.needsValues key) else none
  | .exists_ | .doesNotExist => if size ≠ 0 then some (.needsNoValues key) else none

/-- The first value of a set that is no label value, with what is wrong with it. -/
def valueFault? : List String → Option SelectorError
  | [] => none
  | value :: rest =>
    match Name.valueFaults value.toList with
    | fault :: _ => some (.invalidValue value fault)
    | [] => valueFault? rest

/-- A requirement with a qualified key, as many values as the operator takes, and label values. -/
def make (key : String) (operator : LabelOperator) (values : List String) :
    Except SelectorError Requirement :=
  match Name.qualifiedFaults key.toList with
  | fault :: _ => .error (.invalidKey key fault)
  | [] =>
    let set := StringSet.ofList values
    match arityFault? key operator set.size with
    | some fault => .error (.malformed fault)
    | none =>
      match valueFault? set.elements with
      | some error => .error error
      | none => .ok ⟨key, operator, set⟩

def holds (r : Requirement) (labels : StringMap) : Bool :=
  match r.operator, labels.get? r.key with
  | .equals, value | .isIn, value => value.any r.values.contains
  | .notEquals, value | .notIn, value => !value.any r.values.contains
  | .exists_, value => value.isSome
  | .doesNotExist, value => value.isNone

def text (r : Requirement) : String :=
  let values := ",".intercalate r.values.elements
  match r.operator with
  | .equals => r.key ++ "=" ++ values
  | .notEquals => r.key ++ "!=" ++ values
  | .isIn => r.key ++ " in (" ++ values ++ ")"
  | .notIn => r.key ++ " notin (" ++ values ++ ")"
  | .exists_ => r.key
  | .doesNotExist => "!" ++ r.key

end Requirement

end FleetRegistry

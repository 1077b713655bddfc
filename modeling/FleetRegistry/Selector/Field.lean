import FleetRegistry.Collection.StringMap
import FleetRegistry.Selector.Error
import FleetRegistry.Text.Blank
import FleetRegistry.Text.Cut

/-!
Selectors on fields: comparisons that all have to hold. A field that is missing compares as the
empty text.
-/
namespace FleetRegistry

structure FieldRequirement where
  field : String
  negated : Bool
  value : String
  deriving DecidableEq

namespace FieldRequirement

def holds (r : FieldRequirement) (fields : StringMap) : Bool :=
  ((fields.get? r.field).getD "" == r.value) != r.negated

/-- The comparison as it is written in a selector. -/
def text (r : FieldRequirement) : String :=
  r.field ++ (if r.negated then "!=" else "=") ++ r.value

end FieldRequirement

/-- Comparisons that all have to hold. Without comparisons everything is selected. -/
structure FieldSelector where
  requirements : List FieldRequirement
  deriving DecidableEq

namespace FieldSelector

def everything : FieldSelector := ⟨[]⟩

def ofField (field value : String) : FieldSelector := ⟨[⟨field, false, value⟩]⟩

def holds (s : FieldSelector) (fields : StringMap) : Bool :=
  s.requirements.all (·.holds fields)

/-- The value that a field must have, if the selector gives one. -/
def pinned? (s : FieldSelector) (field : String) : Option String :=
  (s.requirements.find? fun r => r.field == field && !r.negated).map (·.value)

def text (s : FieldSelector) : String :=
  ",".intercalate (s.requirements.map FieldRequirement.text)

/-- Field, negation and value of a term. An inequality counts before an equality. -/
def cutComparison (term : List Char) : Option (List Char × Bool × List Char) :=
  match Text.cutFirstPair '!' '=' term with
  | some (field, value) => some (field, true, value)
  | none =>
    match Text.cutFirstPair '=' '=' term with
    | some (field, value) => some (field, false, value)
    | none => (Text.cutFirst '=' term).map fun (field, value) => (field, false, value)

/-- The comparison a term stands for. -/
def requirement (whole : String) (term : List Char) : Except SelectorFault FieldRequirement :=
  if term.isEmpty then .error (.emptyFieldTerm whole)
  else match cutComparison term with
    | none => .error (.missingComparison (String.ofList term))
    | some (field, negated, value) =>
      let field := Text.trim field
      if field.isEmpty then .error (.emptyField (String.ofList term))
      else .ok ⟨String.ofList field, negated, String.ofList (Text.trim value)⟩

/-- The selector a text stands for; blank text selects everything. -/
def parse (text : String) : Except SelectorError FieldSelector :=
  if Text.isBlankText text then .ok everything
  else
    let terms := (Text.pieces ',' text.toList).map Text.trim
    match terms.mapM (requirement text) with
    | .ok requirements => .ok ⟨requirements⟩
    | .error fault => .error (.malformed fault)

/-- The selector of an optional text; without text everything is selected. -/
def parseOptional (text : Option String) : Except SelectorError FieldSelector :=
  match text with
  | none => .ok everything
  | some text => parse text

end FieldSelector

end FleetRegistry

import FleetRegistry.Json.Decode
import FleetRegistry.Selector.Requirement
import FleetRegistry.Text.Blank
import FleetRegistry.Text.Cut

/-!
Selectors on labels: requirements that all have to hold. In their written form the requirements
stand between commas; commas between parentheses belong to a list of values.
-/
namespace FleetRegistry

/-- Requirements that all have to hold. Without requirements everything is selected. -/
structure LabelSelector where
  requirements : List Requirement
  deriving DecidableEq

namespace LabelSelector

def everything : LabelSelector := ⟨[]⟩

def and (s : LabelSelector) (r : Requirement) : LabelSelector := ⟨s.requirements ++ [r]⟩

def holds (s : LabelSelector) (labels : StringMap) : Bool :=
  s.requirements.all (·.holds labels)

def text (s : LabelSelector) : String := ",".intercalate (s.requirements.map Requirement.text)

def ofMap (map : StringMap) : Except SelectorError LabelSelector := do
  let requirements ← map.entries.mapM fun entry => Requirement.make entry.1 .equals [entry.2]
  return ⟨requirements⟩

/-- Splits at commas outside parentheses. The term being read is held in reverse. -/
def splitTerms (whole : List Char) (current : List Char) (depth : Nat) :
    List Char → Except SelectorFault (List (List Char))
  | [] =>
    if depth = 0 then .ok [current.reverse] else .error (.strayOpening (String.ofList whole))
  | c :: rest =>
    if c = '(' then splitTerms whole (c :: current) (depth + 1) rest
    else if c = ')' then
      match depth with
      | 0 => .error (.strayClosing (String.ofList whole))
      | depth + 1 => splitTerms whole (c :: current) depth rest
    else if c = ',' ∧ depth = 0 then
      (splitTerms whole [] depth rest).map (current.reverse :: ·)
    else splitTerms whole (c :: current) depth rest

/-- The terms of a selector without the blanks around them. A blank text has none; otherwise no
term is empty. -/
def terms (s : List Char) : Except SelectorFault (List (List Char)) := do
  let parts ← splitTerms s [] 0 s
  let parts := parts.map Text.trim
  if parts = [[]] then return []
  else match parts.findIdx? List.isEmpty with
    | some position => throw (.emptyTerm position (String.ofList s))
    | none => return parts

def listOperator? (word : List Char) : Option LabelOperator :=
  if word = ['i', 'n'] then some .isIn
  else if word = ['n', 'o', 't', 'i', 'n'] then some .notIn
  else none

/-- The text between the first opening and the last closing parenthesis, if nothing but blanks
follows the latter. -/
def closed? (inside : List Char) : Option (List Char) :=
  match Text.cutLast (· = ')') inside with
  | some (values, after) => if after.all Text.isBlank then some values else none
  | none => none

def listRequirement (term front inside : List Char) : Except SelectorError Requirement :=
  match closed? inside with
  | none => .error (.malformed (.missingClosing (String.ofList term)))
  | some values =>
    match Text.cutLast Text.isBlank (Text.trim front) with
    | none => .error (.malformed (.missingOperator (String.ofList term)))
    | some (key, word) =>
      match listOperator? word with
      | none => .error (.invalidOperator (String.ofList word))
      | some operator =>
        let values := ((Text.pieces ',' values).map Text.trim).filter (!·.isEmpty)
        Requirement.make (String.ofList (Text.trim key)) operator (values.map String.ofList)

def comparison (operator : LabelOperator) (key value : List Char) :
    Except SelectorError Requirement :=
  Requirement.make (String.ofList (Text.trim key)) operator [String.ofList (Text.trim value)]

/-- The requirement a term stands for. An exclamation mark in front excludes a key; an inequality
counts before an equality, and either before a list; what is left is a key that has to exist. -/
def requirement (term : List Char) : Except SelectorError Requirement :=
  match term with
  | '!' :: key => Requirement.make (String.ofList (Text.trim key)) .doesNotExist []
  | _ =>
    match Text.cutFirstPair '!' '=' term with
    | some (key, value) => comparison .notEquals key value
    | none =>
      match Text.cutFirstPair '=' '=' term with
      | some (key, value) => comparison .equals key value
      | none =>
        match Text.cutFirst '=' term with
        | some (key, value) => comparison .equals key value
        | none =>
          match Text.cutFirst '(' term with
          | some (front, inside) => listRequirement term front inside
          | none =>
            if term.any Text.isBlank then
              .error (.malformed (.strayBlank (String.ofList term)))
            else Requirement.make (String.ofList term) .exists_ []

def parse (text : String) : Except SelectorError LabelSelector := do
  let terms ← (terms text.toList).mapError SelectorError.malformed
  return ⟨← terms.mapM requirement⟩

/-- The selector of an optional text; without text everything is selected. -/
def parseOptional (text : Option String) : Except SelectorError LabelSelector :=
  match text with
  | none => .ok everything
  | some text => parse text

end LabelSelector

/-- One requirement of a structured selector, the operator by name. -/
structure SelectorExpression where
  key : String
  operator : String
  values : Option (List String)

structure StructuredSelector where
  matchLabels : Option StringMap
  matchExpressions : Option (List SelectorExpression)

namespace StructuredSelector

def SelectorExpression.ofJson? (value : Json) : Option SelectorExpression := do
  let m ← value.members?
  return {
    key := ← Json.defaultedField "" Json.text? "key" m
    operator := ← Json.defaultedField "" Json.text? "operator" m
    values := ← Json.optionalField (Json.list? Json.text?) "values" m }

def ofJson? (value : Json) : Option StructuredSelector := do
  let m ← value.members?
  return {
    matchLabels := ← Json.optionalField Json.stringMap? "matchLabels" m
    matchExpressions :=
      ← Json.optionalField (Json.list? SelectorExpression.ofJson?) "matchExpressions" m }

def operator? (name : String) : Option LabelOperator :=
  if name = "In" then some .isIn
  else if name = "NotIn" then some .notIn
  else if name = "Exists" then some .exists_
  else if name = "DoesNotExist" then some .doesNotExist
  else none

def requirement (e : SelectorExpression) : Except SelectorError Requirement :=
  match operator? e.operator with
  | none => .error (.invalidOperator e.operator)
  | some operator => Requirement.make e.key operator (e.values.getD [])

/-- The selector with the same requirements: first the labels, then the expressions. -/
def toSelector (s : StructuredSelector) : Except SelectorError LabelSelector := do
  let labels ← match s.matchLabels with
    | some map => LabelSelector.ofMap map
    | none => .ok .everything
  let others ← (s.matchExpressions.getD []).mapM requirement
  return ⟨labels.requirements ++ others⟩

end StructuredSelector

end FleetRegistry

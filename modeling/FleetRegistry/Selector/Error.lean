import FleetRegistry.Name.Rule
import FleetRegistry.Text.Quoted

/-!
Why a text or a structure is no selector.
-/
namespace FleetRegistry

inductive SelectorFault where
  | needsOneValue (key : String)
  | needsValues (key : String)
  | needsNoValues (key : String)
  | strayClosing (text : String)
  | strayOpening (text : String)
  | emptyTerm (position : Nat) (text : String)
  | missingClosing (term : String)
  | missingOperator (term : String)
  | strayBlank (term : String)
  | emptyFieldTerm (text : String)
  | missingComparison (term : String)
  | emptyField (term : String)
  deriving DecidableEq, Repr

def SelectorFault.message : SelectorFault → String
  | needsOneValue key =>
    "exact-match operators on " ++ Text.quote key ++ " require exactly one value"
  | needsValues key =>
    "set-based operators on " ++ Text.quote key ++ " require at least one value"
  | needsNoValues key =>
    "values must be empty for existence operators on " ++ Text.quote key
  | strayClosing text => "unbalanced ')' in " ++ Text.quote text
  | strayOpening text => "unbalanced '(' in " ++ Text.quote text
  | emptyTerm position text =>
    "empty requirement at position " ++ Nat.repr position ++ " in " ++ Text.quote text
  | missingClosing term => "expected ')' at end of " ++ Text.quote term
  | missingOperator term => "missing operator in " ++ Text.quote term
  | strayBlank term => "unexpected whitespace in " ++ Text.quote term
  | emptyFieldTerm text => "empty field requirement in " ++ Text.quote text
  | missingComparison term => "invalid field selector " ++ Text.quote term ++ ": no operator"
  | emptyField term => "invalid field selector " ++ Text.quote term ++ ": empty field"

inductive SelectorError where
  | malformed (fault : SelectorFault)
  | invalidKey (key : String) (fault : Name.Fault)
  | invalidValue (value : String) (fault : Name.Fault)
  | invalidOperator (operator : String)
  deriving DecidableEq, Repr

def SelectorError.message : SelectorError → String
  | malformed fault => "unable to parse requirement: " ++ fault.message
  | invalidKey key fault => "invalid label key " ++ Text.quote key ++ ": " ++ fault.message
  | invalidValue value fault =>
    "invalid label value " ++ Text.quote value ++ ": " ++ fault.message
  | invalidOperator operator => Text.quote operator ++ " is not a valid label selector operator"

end FleetRegistry

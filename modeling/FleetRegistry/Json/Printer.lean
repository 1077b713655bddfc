import FleetRegistry.Json.Basic
import FleetRegistry.Number.Shortest

/-!
Writing JSON text: in one line, or laid out with two blanks for each level. Members stand in the
order they have in the value.
-/
namespace FleetRegistry.Json

def fourHex (n : Nat) : List Char :=
  let digits := Nat.toDigits 16 n
  List.replicate (4 - digits.length) '0' ++ digits

/-- How a character stands in a string: quotes, backslashes and controls are escaped. -/
def escapeChar (c : Char) : List Char :=
  if c = '"' then ['\\', '"']
  else if c = '\\' then ['\\', '\\']
  else if c = '\n' then ['\\', 'n']
  else if c = '\r' then ['\\', 'r']
  else if c = '\t' then ['\\', 't']
  else if c.toNat = 8 then ['\\', 'b']
  else if c.toNat = 12 then ['\\', 'f']
  else if c.toNat < 0x20 then '\\' :: 'u' :: fourHex c.toNat
  else [c]

def quoted (s : String) : String :=
  String.ofList ('"' :: s.toList.flatMap escapeChar ++ ['"'])

/-- The text of a value that holds no other value. -/
def scalarText : Json → String
  | .null => "null"
  | .bool true => "true"
  | .bool false => "false"
  | .int value => toString value
  | .float value => value.pointedText
  | .str text => quoted text
  | .arr _ => "[]"
  | .obj _ => "\x7b\x7d"

mutual

def compact : Json → String
  | .arr items => "[" ++ compactItems items ++ "]"
  | .obj members => "\x7b" ++ compactMembers members ++ "\x7d"
  | value => scalarText value

def compactItems : List Json → String
  | [] => ""
  | [item] => compact item
  | item :: rest => compact item ++ "," ++ compactItems rest

def compactMembers : List (String × Json) → String
  | [] => ""
  | [(name, value)] => quoted name ++ ":" ++ compact value
  | (name, value) :: rest => quoted name ++ ":" ++ compact value ++ "," ++ compactMembers rest

end

def lineAt (level : Nat) : String :=
  String.ofList ('\n' :: List.replicate (2 * level) ' ')

mutual

def prettyAt (level : Nat) : Json → String
  | .arr [] => "[]"
  | .obj [] => "\x7b\x7d"
  | .arr items => "[" ++ prettyItems (level + 1) items ++ lineAt level ++ "]"
  | .obj members => "\x7b" ++ prettyMembers (level + 1) members ++ lineAt level ++ "\x7d"
  | value => scalarText value

def prettyItems (level : Nat) : List Json → String
  | [] => ""
  | [item] => lineAt level ++ prettyAt level item
  | item :: rest => lineAt level ++ prettyAt level item ++ "," ++ prettyItems level rest

def prettyMembers (level : Nat) : List (String × Json) → String
  | [] => ""
  | [(name, value)] => lineAt level ++ quoted name ++ ": " ++ prettyAt level value
  | (name, value) :: rest =>
    lineAt level ++ quoted name ++ ": " ++ prettyAt level value ++ "," ++ prettyMembers level rest

end

def pretty (value : Json) : String := prettyAt 0 value

end FleetRegistry.Json

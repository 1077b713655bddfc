import FleetRegistry.Text.Visible

/-!
Quoted text, as it stands inside messages: double quotes around it, a backslash before a quote or a
backslash, short names for the common controls, and hidden characters by number in braces.
-/
namespace FleetRegistry.Text

/-- How one character stands between quotes. -/
def quoteChar (c : Char) : List Char :=
  if c = '"' then ['\\', '"']
  else if c = '\\' then ['\\', '\\']
  else if c = '\n' then ['\\', 'n']
  else if c = '\r' then ['\\', 'r']
  else if c = '\t' then ['\\', 't']
  else if c.toNat = 0 then ['\\', '0']
  else if isHidden c then '\\' :: 'u' :: '\x7b' :: Nat.toDigits 16 c.toNat ++ ['\x7d']
  else [c]

def quote (s : String) : String :=
  String.ofList ('"' :: s.toList.flatMap quoteChar ++ ['"'])

def quoteAll (texts : List String) : String :=
  ", ".intercalate (texts.map quote)

def quoteList (texts : List String) : String :=
  "[" ++ quoteAll texts ++ "]"

end FleetRegistry.Text

import FleetRegistry.Text.Cut

/-!
Addresses of requests: a path and a query. An address is put together as one text, in which names
stand as they are given; reading that text shows whether it is an address at all, and where its
query begins.
-/
namespace FleetRegistry

/-- A path, and the pairs of a query in ascending order. -/
structure Address where
  path : String
  query : List String
  deriving DecidableEq, Repr

namespace Address

def lengthLimit : Nat := 65534

def hexDigit (n : Nat) : Char := (Nat.digitChar n).toUpper

/-- A byte in a query value: letters, digits and four marks stand for themselves, a blank becomes
a plus sign, and every other byte is given by its number. -/
def encodeByte (byte : UInt8) : List Char :=
  let c := Char.ofNat byte.toNat
  if c.isAlphanum || "*-._".toList.contains c then [c]
  else if c = ' ' then ['+']
  else ['%', hexDigit (byte.toNat / 16), hexDigit (byte.toNat % 16)]

def encode (text : String) : String :=
  String.ofList (text.toUTF8.toList.flatMap encodeByte)

def pair (name value : String) : String := encode name ++ "=" ++ encode value

def isPathChar (c : Char) : Bool :=
  0x20 < c.toNat && c != '<' && c != '>' && c != '\x60'

def isQueryChar (c : Char) : Bool :=
  0x20 < c.toNat && c != '<' && c != '>' && c != '"'

/-- The pairs of a query; empty pairs do not count. -/
def pairs (query : List Char) : List String :=
  (((Text.pieces '&' query).filter (!·.isEmpty)).map String.ofList).mergeSort

/-- The address that a text stands for. The query follows the first question mark; what follows a
number sign does not belong to the address. -/
def parse? (text : String) : Option Address :=
  if text.utf8ByteSize > lengthLimit then none
  else
    let shown := text.toList.takeWhile (· != '#')
    let path := shown.takeWhile (· != '?')
    let query := (shown.dropWhile (· != '?')).drop 1
    if path.all isPathChar && query.all isQueryChar then
      some ⟨String.ofList path, pairs query⟩
    else none

/-- The address of a path, with a query if there is to be one, even an empty one. -/
def make? (path : String) (query : Option (List (String × String))) : Option Address :=
  match query with
  | none => parse? path
  | some query =>
    parse? (path ++ "?" ++ String.join (query.map fun (name, value) => "&" ++ pair name value))

end Address

end FleetRegistry

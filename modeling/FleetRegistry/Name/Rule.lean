import FleetRegistry.Text.Cut

/-!
Rules for names: labels and subdomains of the domain name system, qualified names such as
`example.com/key`, and label values. A check lists every rule that a text breaks; an empty list
means the text is a name. Limits count bytes.
-/
namespace FleetRegistry.Name

inductive Fault where
  | tooLong (limit : Nat)
  | malformedLabel
  | malformedSubdomain
  | emptyPrefix
  /-- A fault of the part before the slash. -/
  | inPrefix (fault : Fault)
  | extraSlash
  | partTooLong (limit : Nat)
  | malformedPart
  | malformedValue
  deriving DecidableEq, Repr

def Fault.message : Fault → String
  | tooLong limit => "must be no more than " ++ Nat.repr limit ++ " characters"
  | malformedLabel =>
    "a lowercase RFC 1123 label must consist of lower case alphanumeric characters or '-', "
      ++ "and must start and end with an alphanumeric character"
  | malformedSubdomain =>
    "a lowercase RFC 1123 subdomain must consist of lower case alphanumeric characters, "
      ++ "'-' or '.', and must start and end with an alphanumeric character"
  | emptyPrefix => "prefix part must be non-empty"
  | inPrefix fault => "prefix part " ++ fault.message
  | extraSlash =>
    "a qualified name must consist of an optional DNS subdomain prefix and a name, "
      ++ "separated by '/'"
  | partTooLong limit => "name part must be no more than " ++ Nat.repr limit ++ " characters"
  | malformedPart =>
    "name part must consist of alphanumeric characters, '-', '_' or '.', "
      ++ "and must start and end with an alphanumeric character"
  | malformedValue =>
    "a valid label must be an empty string or consist of alphanumeric characters, "
      ++ "'-', '_' or '.', and must start and end with an alphanumeric character"

def labelLimit : Nat := 63

def subdomainLimit : Nat := 253

def partLimit : Nat := 63

def valueLimit : Nat := 63

def isLowerAlnum (c : Char) : Bool := c.isLower || c.isDigit

def isLabelChar (c : Char) : Bool := isLowerAlnum c || c = '-'

def isPartChar (c : Char) : Bool := c.isAlphanum || c = '-' || c = '_' || c = '.'

/-- A nonempty word of one class of characters whose two ends are in a smaller class. -/
def isWord (inner outer : Char → Bool) (s : List Char) : Bool :=
  s.all inner && s.head?.any outer && s.getLast?.any outer

def isLabel (s : List Char) : Bool := isWord isLabelChar isLowerAlnum s

/-- The shape of a subdomain: labels between single dots. -/
def isSubdomain (s : List Char) : Bool := (Text.pieces '.' s).all isLabel

def isPart (s : List Char) : Bool := isWord isPartChar Char.isAlphanum s

def byteLength (s : List Char) : Nat := s.foldr (fun c size => c.utf8Size + size) 0

def labelFaults (s : List Char) : List Fault :=
  (if byteLength s > labelLimit then [.tooLong labelLimit] else [])
    ++ (if isLabel s then [] else [.malformedLabel])

def subdomainFaults (s : List Char) : List Fault :=
  (if byteLength s > subdomainLimit then [.tooLong subdomainLimit] else [])
    ++ (if isSubdomain s then [] else [.malformedSubdomain])

def partFaults (s : List Char) : List Fault :=
  (if byteLength s > partLimit then [.partTooLong partLimit] else [])
    ++ (if isPart s then [] else [.malformedPart])

/-- The faults of a text as a qualified name: a part, alone or after a subdomain and a slash. -/
def qualifiedFaults (s : List Char) : List Fault :=
  match Text.cutFirst '/' s with
  | some (front, name) =>
    (if front.isEmpty then [.emptyPrefix] else (subdomainFaults front).map .inPrefix)
      ++ (if name.contains '/' then [.extraSlash] else partFaults name)
  | none => partFaults s

/-- The faults of a text as a label value; the empty text has none. -/
def valueFaults (s : List Char) : List Fault :=
  (if byteLength s > valueLimit then [.tooLong valueLimit] else [])
    ++ (if s.isEmpty || isPart s then [] else [.malformedValue])

end FleetRegistry.Name

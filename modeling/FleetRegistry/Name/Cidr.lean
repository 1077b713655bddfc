import FleetRegistry.Text.Cut
import FleetRegistry.Text.Digits
import FleetRegistry.Text.Quoted

/-!
Address ranges such as `10.0.0.0/8` or `fd00::/64`: an address of either family, a slash, and the
number of leading bits that the range fixes.
-/
namespace FleetRegistry.Cidr

inductive Family where
  | v4
  | v6
  deriving DecidableEq, Repr

def Family.width : Family → Nat
  | v4 => 32
  | v6 => 128

/-- Digits of one octet: up to three, no needless zero, at most 255. -/
def isOctet (s : List Char) : Bool :=
  match s with
  | ['0'] => true
  | '0' :: _ => false
  | _ => s.length ≤ 3 && (Text.digits? s).any (· ≤ 255)

def dropOctet? (s : List Char) : Option (List Char) :=
  let (digits, rest) := Text.takeDigits s
  if isOctet digits then some rest else none

def dropChar? (c : Char) : List Char → Option (List Char)
  | [] => none
  | d :: rest => if d = c then some rest else none

def dropV4? (s : List Char) : Option (List Char) := do
  let s ← dropOctet? s
  let s ← dropOctet? (← dropChar? '.' s)
  let s ← dropOctet? (← dropChar? '.' s)
  dropOctet? (← dropChar? '.' s)

def isHexDigit (c : Char) : Bool :=
  c.isDigit || ('a' ≤ c && c ≤ 'f') || ('A' ≤ c && c ≤ 'F')

/-- The rest of a text after a group of one to four hexadecimal digits. -/
def dropGroup? (s : List Char) : Option (List Char) :=
  let digits := s.takeWhile isHexDigit
  if digits.isEmpty || digits.length > 4 then none else some (s.dropWhile isHexDigit)

/-- Groups between colons, as they were read from the front of a text. -/
structure Groups where
  /-- How many groups there are; an embedded address of four octets counts as two. -/
  count : Nat
  /-- Whether the last two groups are written as four octets. -/
  embedded : Bool
  rest : List Char

/-- Reads groups as long as there are any, at most `room` more after `count`. Every group but the
first follows a colon. -/
def readGroups (count : Nat) : Nat → List Char → Groups
  | 0, s => ⟨count, false, s⟩
  | room + 1, s =>
    let start? := if count = 0 then some s else dropChar? ':' s
    match if room = 0 then none else start?.bind dropV4? with
    | some rest => ⟨count + 2, true, rest⟩
    | none =>
      match start?.bind dropGroup? with
      | some rest => readGroups (count + 1) room rest
      | none => ⟨count, false, s⟩

/-- The rest of a text after an address of eight groups, one run of which may be left out between
two colons. -/
def dropV6? (s : List Char) : Option (List Char) :=
  let front := readGroups 0 8 s
  if front.count = 8 then some front.rest
  else if front.embedded then none
  else match front.rest with
    | ':' :: ':' :: rest => some (readGroups 0 (7 - front.count) rest).rest
    | _ => none

/-- The family of an address, if the text is one. -/
def family? (s : List Char) : Option Family :=
  match dropV4? s with
  | some rest => if rest.isEmpty then some .v4 else none
  | none => if dropV6? s = some [] then some .v6 else none

inductive Fault where
  | noSlash
  | notAddress (text : String)
  | badLength (limit : Nat)
  deriving DecidableEq, Repr

def Fault.message : Fault → String
  | noSlash => "must be a valid CIDR value, (e.g. 10.9.8.0/24 or 2001:db8::/64)"
  | notAddress text => Text.quote text ++ " is not a valid IP address"
  | badLength limit => "prefix length must be between 0 and " ++ Nat.repr limit

/-- The number of fixed bits, written with an optional plus. -/
def length? (s : List Char) : Option Nat := Text.unsigned? 256 s

def fault? (s : List Char) : Option Fault :=
  match Text.cutFirst '/' s with
  | none => some .noSlash
  | some (address, length) =>
    match family? address with
    | none => some (.notAddress (String.ofList address))
    | some family =>
      if (length? length).any (· ≤ family.width) then none else some (.badLength family.width)

end FleetRegistry.Cidr

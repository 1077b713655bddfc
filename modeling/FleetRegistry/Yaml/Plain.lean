import FleetRegistry.Json.Parser
import FleetRegistry.Text.Digits

/-!
What a plain word means in YAML: null, a truth value, a number, or a text. The printer quotes every
text that would mean something else, so that it reads back as that text.
-/
namespace FleetRegistry.Yaml

inductive PlainValue where
  | null
  | bool (value : Bool)
  /-- An integer of at most 128 bits. -/
  | int (value : Int)
  | float (value : Number.Binary64)
  /-- An infinite number, or no number. -/
  | nonFinite
  | text

/-- A number written in the digits of a base. -/
def inBase? (base : Nat) : List Char → Option Nat
  | [] => none
  | s => s.foldlM (fun n c => ((Json.hexValue? c).filter (· < base)).map (n * base + ·)) 0

/-- A whole number without sign: decimal, or in another base after a mark. -/
def magnitude? : List Char → Option Nat
  | '0' :: 'x' :: s => inBase? 16 s
  | '0' :: 'o' :: s => inBase? 8 s
  | '0' :: 'b' :: s => inBase? 2 s
  | s => inBase? 10 s

def dropSign : List Char → List Char
  | '+' :: s | '-' :: s => s
  | s => s

/-- Digits that begin with a zero are a text, for they would lose it as a number. -/
def isZeroPadded (s : List Char) : Bool :=
  match dropSign s with
  | '0' :: d :: s => (d :: s).all Char.isDigit
  | _ => false

def integer? (s : List Char) : Option Int :=
  if isZeroPadded s then none
  else match s with
    | '-' :: s => ((magnitude? s).filter (· ≤ Nat.pow 2 127)).map fun n => -(n : Int)
    | _ => ((magnitude? (dropSign s)).filter (· < Nat.pow 2 128)).map Int.ofNat

/-- The digits of a decimal number around its point, and what follows them: the digits as a whole
number, how many of them stand after the point, and how many there are. -/
def mantissa (s : List Char) : (Nat × Nat × Nat) × List Char :=
  let (whole, rest) := Text.takeDigits s
  let (fraction, rest) := match rest with
    | '.' :: rest => Text.takeDigits rest
    | _ => ([], rest)
  let digits := whole ++ fraction
  (((Text.digits? digits).getD 0, fraction.length, digits.length), rest)

def exponent? : List Char → Option Int
  | [] => some 0
  | mark :: s =>
    if mark = 'e' ∨ mark = 'E' then
      (Text.digits? (dropSign s)).map fun n => if s.head? = some '-' then -(n : Int) else n
    else none

/-- `digits * 10 ^ exponent`, rounded to the nearest number; nothing where that is infinite. The
count of digits tells numbers that are certainly infinite or zero. -/
def nearest? (negative : Bool) (digits count : Nat) (exponent : Int) : Option Number.Binary64 :=
  let magnitude : Float :=
    if digits = 0 ∨ exponent + count < -400 then 0
    else if 400 < exponent ∧ 0 < digits then 1 / 0
    else Float.ofScientific digits (exponent < 0) exponent.natAbs
  if magnitude.isInf then none
  else some (.ofFloat (if negative then -magnitude else magnitude))

/-- The finite number that a word in decimal notation stands for. -/
def decimal? (s : List Char) : Option Number.Binary64 := do
  let ((digits, places, count), rest) := mantissa (dropSign s)
  if count = 0 then none
  else nearest? (s.head? = some '-') digits count ((← exponent? rest) - places)

def nullWords : List String := ["", "~", "null", "Null", "NULL"]

def boolWords : List (String × Bool) :=
  [("true", true), ("True", true), ("TRUE", true), ("false", false), ("False", false),
    ("FALSE", false)]

def nonFiniteWords : List String :=
  [".inf", ".Inf", ".INF", "+.inf", "+.Inf", "+.INF", "-.inf", "-.Inf", "-.INF",
    ".nan", ".NaN", ".NAN"]

def plainValue (word : String) : PlainValue :=
  if word ∈ nullWords then .null
  else match boolWords.lookup word with
    | some value => .bool value
    | none =>
      if word ∈ nonFiniteWords then .nonFinite
      else
        let s := word.toList
        match integer? s with
        | some value => .int value
        | none =>
          if isZeroPadded s then .text
          else match decimal? s with
            | some value => .float value
            | none => .text

end FleetRegistry.Yaml

import FleetRegistry.Number.Binary64

/-!
The shortest decimal of a binary number: the fewest digits that read back as the number, and of
those the nearest. A text form then decides where the point stands.

The reals that read back as a number form an interval around it. A decimal grid of `n` digits has a
point in that interval only if one of the number's two neighbours on the grid lies in it, so the
first grid with a hit gives the fewest digits.
-/
namespace FleetRegistry.Number

/-- `digits * 10 ^ exponent` in magnitude. -/
structure Decimal where
  digits : Nat
  exponent : Int
  deriving DecidableEq, Repr

structure Ratio where
  numerator : Nat
  denominator : Nat

namespace Ratio

/-- `n * 2 ^ e`. -/
def ofBinary (n : Nat) (e : Int) : Ratio :=
  if 0 ≤ e then ⟨n * Nat.pow 2 e.toNat, 1⟩ else ⟨n, Nat.pow 2 e.natAbs⟩

/-- `n * 10 ^ e`. -/
def ofDecimal (n : Nat) (e : Int) : Ratio :=
  if 0 ≤ e then ⟨n * Nat.pow 10 e.toNat, 1⟩ else ⟨n, Nat.pow 10 e.natAbs⟩

def lt (a b : Ratio) : Bool := a.numerator * b.denominator < b.numerator * a.denominator

def le (a b : Ratio) : Bool := a.numerator * b.denominator ≤ b.numerator * a.denominator

def distance (a b : Ratio) : Ratio :=
  let x := a.numerator * b.denominator
  let y := b.numerator * a.denominator
  ⟨if x ≤ y then y - x else x - y, a.denominator * b.denominator⟩

/-- The greatest multiple of `10 ^ e` that is not above the fraction, in units of `10 ^ e`. -/
def floorAt (a : Ratio) (e : Int) : Nat :=
  if 0 ≤ e then a.numerator / (a.denominator * Nat.pow 10 e.toNat)
  else a.numerator * Nat.pow 10 e.natAbs / a.denominator

/-- The position of the first digit of a fraction below one, counted from the point. -/
def leadingZeros (a : Ratio) (power : Nat) : Nat → Nat
  | 0 => power
  | fuel + 1 =>
    if a.denominator ≤ a.numerator * Nat.pow 10 power then power
    else leadingZeros a (power + 1) fuel

def magnitude (a : Ratio) : Int :=
  if a.denominator ≤ a.numerator then
    ((Nat.repr (a.numerator / a.denominator)).length : Int) - 1
  else -(leadingZeros a 1 400 : Nat)

end Ratio

namespace Binary64

/-- The interval of reals that read back as a number, and whether its ends belong to it. -/
structure Interval where
  low : Ratio
  high : Ratio
  closed : Bool

def Interval.holds (i : Interval) (a : Ratio) : Bool :=
  if i.closed then i.low.le a && a.le i.high else i.low.lt a && a.lt i.high

/-- Half of the gap to each neighbour; the gap below a power of two is half as wide. -/
def interval (x : Binary64) : Interval :=
  let (m, q) := x.decompose
  let narrow := x.fractionBits == 0 && x.exponentBits > 1
  { low := Ratio.ofBinary (if narrow then 4 * m - 1 else 4 * m - 2) (q - 2)
    high := Ratio.ofBinary (4 * m + 2) (q - 2)
    closed := m % 2 == 0 }

/-- The hit on the grid of `10 ^ e`, if there is one. -/
def hitAt? (value : Ratio) (interval : Interval) (e : Int) : Option Decimal :=
  let below := value.floorAt e
  let above := below + 1
  let lower := Ratio.ofDecimal below e
  let upper := Ratio.ofDecimal above e
  match interval.holds lower && below != 0, interval.holds upper with
  | true, true =>
    let down := value.distance lower
    let up := value.distance upper
    if down.lt up || (down.le up && below % 2 == 0) then some ⟨below, e⟩ else some ⟨above, e⟩
  | true, false => some ⟨below, e⟩
  | false, true => some ⟨above, e⟩
  | false, false => none

def searchGrids (value : Ratio) (interval : Interval) (e : Int) : Nat → Decimal
  | 0 => ⟨value.floorAt e, e⟩
  | fuel + 1 =>
    match hitAt? value interval e with
    | some hit => hit
    | none => searchGrids value interval (e - 1) fuel

def dropZeros (d : Decimal) : Nat → Decimal
  | 0 => d
  | fuel + 1 =>
    if d.digits != 0 && d.digits % 10 == 0 then dropZeros ⟨d.digits / 10, d.exponent + 1⟩ fuel
    else d

/-- The shortest decimal that reads back as the magnitude of a finite number. -/
def shortest (x : Binary64) : Decimal :=
  let (m, q) := x.decompose
  if m = 0 then ⟨0, 0⟩
  else
    let value := Ratio.ofBinary m q
    dropZeros (searchGrids value x.interval value.magnitude 20) 400

/-- The digits with the point where it belongs; a whole number has no point. -/
def positional (d : Decimal) : String :=
  let digits := Nat.repr d.digits
  if 0 ≤ d.exponent then digits ++ String.ofList (List.replicate d.exponent.toNat '0')
  else
    let places := d.exponent.natAbs
    let padded := String.ofList (List.replicate (places + 1 - digits.length) '0') ++ digits
    let cs := padded.toList
    String.ofList (cs.take (cs.length - places) ++ '.' :: cs.drop (cs.length - places))

/-- A number without exponent: `0.005`, `1`, `12`. -/
def plainText (x : Binary64) : String :=
  (if x.isNegative then "-" else "") ++ positional x.shortest

/-- A number that shows it is not an integer: `1.0`, `0.00001`, `1e16`, `1.5e300`. The point is
positional as long as it stands at most sixteen digits to the right of the first digit, and at most
four zeros to its left. -/
def pointedText (x : Binary64) : String :=
  let d := x.shortest
  let digits := Nat.repr d.digits
  let point : Int := digits.length + d.exponent
  let magnitude :=
    if d.digits = 0 then "0.0"
    else if -5 < point ∧ point ≤ 16 then
      if 0 ≤ d.exponent then positional d ++ ".0" else positional d
    else
      let cs := digits.toList
      let fraction := if cs.length = 1 then [] else '.' :: cs.drop 1
      String.ofList (cs.take 1 ++ fraction) ++ "e" ++ toString (point - 1)
  (if x.isNegative then "-" else "") ++ magnitude

end Binary64

end FleetRegistry.Number

/-!
Floating point numbers of 64 bits, kept by their bits so that values can be told apart and decided
equal. A finite nonzero number is `mantissa * 2 ^ exponent`; reading a decimal takes its leading
digits and scales them by a power of ten.
-/
namespace FleetRegistry.Number

/-- A number in the binary format of 64 bits. -/
structure Binary64 where
  bits : UInt64
  deriving DecidableEq, Repr, Inhabited

namespace Binary64

def ofFloat (value : Float) : Binary64 := ⟨value.toBits⟩

def toFloat (x : Binary64) : Float := Float.ofBits x.bits

/-- Numerical equality: the two zeros are equal, all other numbers only to themselves. -/
def same (x y : Binary64) : Bool :=
  x.bits == y.bits || (x.bits <<< 1 == 0 && y.bits <<< 1 == 0)

@[simp] theorem same_self (x : Binary64) : x.same x = true := by simp [same]

def isNegative (x : Binary64) : Bool := x.bits >>> 63 == 1

def exponentBits (x : Binary64) : Nat := ((x.bits >>> 52) &&& 0x7ff).toNat

def fractionBits (x : Binary64) : Nat := (x.bits &&& 0xfffffffffffff).toNat

/-- The magnitude as `mantissa * 2 ^ exponent`. -/
def decompose (x : Binary64) : Nat × Int :=
  if x.exponentBits = 0 then (x.fractionBits, -1074)
  else (x.fractionBits + Nat.pow 2 52, (x.exponentBits : Int) - 1075)

/-- Scales a float down by steps until the exponent can be applied at once. -/
def scaleDown (value : Float) (exponent : Nat) : Nat → Float
  | 0 => value
  | steps + 1 =>
    if exponent ≤ 308 then value / Float.ofScientific 1 false exponent
    else if value == 0 then value
    else scaleDown (value / Float.ofScientific 1 false 308) (exponent - 308) steps

/-- `significand * 10 ^ exponent`, the significand rounded first and then the result. Nothing is
returned where the magnitude is beyond the largest finite number. -/
def ofDecimal? (negative : Bool) (significand : Nat) (exponent : Int) : Option Binary64 :=
  let start := significand.toUInt64.toFloat
  let magnitude? : Option Float :=
    if exponent < 0 then some (scaleDown start exponent.natAbs (exponent.natAbs / 308 + 1))
    else if exponent ≤ 308 then
      let scaled := start * Float.ofScientific 1 false exponent.toNat
      if scaled.isInf then none else some scaled
    else if start == 0 then some start
    else none
  magnitude?.map fun magnitude => ofFloat (if negative then -magnitude else magnitude)

end Binary64

end FleetRegistry.Number

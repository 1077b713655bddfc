import FleetRegistry.Object.Meta

/-!
Names and identities that the registry makes up. The random part is given by the caller, so that
everything else is a function of its input.
-/
namespace FleetRegistry.Generated

/-- The greatest number of characters kept of a base. -/
def baseLimit : Nat := 58

def suffixLength : Nat := 5

/-- The characters of the random part: no vowels, and no digits that look like letters. -/
def alphabet : List Char := "bcdfghjklmnpqrstvwxz2456789".toList

def suffixOfBytes (bytes : List UInt8) : String :=
  String.ofList ((bytes.take suffixLength).map fun byte =>
    alphabet.getD (byte.toNat % alphabet.length) 'b')

/-- A name: as much of the base as leaves room for the random part in a label. -/
def name (base suffix : String) : String :=
  String.ofList (base.toList.take baseLimit) ++ suffix

def hexByte (byte : UInt8) : List Char :=
  [Nat.digitChar (byte.toNat / 16), Nat.digitChar (byte.toNat % 16)]

/-- An identity made of sixteen random bytes, of version four, in groups of digits. -/
def uidOfBytes (bytes : List UInt8) : String :=
  let marked := bytes.zipIdx.map fun (byte, i) =>
    if i = 6 then (byte &&& 0x0f) ||| 0x40
    else if i = 8 then (byte &&& 0x3f) ||| 0x80
    else byte
  let hex := (marked.take 16).flatMap hexByte
  "-".intercalate ([(0, 8), (8, 4), (12, 4), (16, 4), (20, 12)].map fun (start, count) =>
    String.ofList ((hex.drop start).take count))

end FleetRegistry.Generated

namespace FleetRegistry.ObjectMeta

def named (suffix : String) (m : ObjectMeta) : ObjectMeta :=
  if m.nameText.isEmpty then
    match m.generateName with
    | some base => if base.isEmpty then m else { m with name := some (Generated.name base suffix) }
    | none => m
  else m

end FleetRegistry.ObjectMeta

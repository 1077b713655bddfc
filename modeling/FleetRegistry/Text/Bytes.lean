/-!
Texts that need not be UTF-8: each byte as the character of its code.
-/
namespace FleetRegistry.Text

/-- A byte as the character of its code. -/
def charOf (byte : UInt8) : Char := Char.ofNat byte.toNat

/-- A character as a byte. -/
def byteOf (c : Char) : UInt8 := UInt8.ofNat c.toNat

/-- The text that bytes stand for, if they are UTF-8. -/
def ofBytes? (bytes : List UInt8) : Option String := String.fromUTF8? ⟨bytes.toArray⟩

end FleetRegistry.Text

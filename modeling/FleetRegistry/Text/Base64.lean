/-!
Bytes as text of sixty-four symbols, three bytes to four symbols. A short last group has fewer
symbols, and the bits of its last symbol that belong to no byte are zero; so every byte string has
one written form. In the padded form the last group is filled up with equals signs.
-/
namespace FleetRegistry.Text

structure Base64 where
  /-- The symbols of the values 62 and 63. -/
  symbol62 : Char
  symbol63 : Char
  /-- Whether the last group is filled up. -/
  padded : Bool

namespace Base64

/-- The form that can stand in an address, without padding. -/
def urlSafe : Base64 := ⟨'-', '_', false⟩

/-- The common form, with padding. -/
def standard : Base64 := ⟨'+', '/', true⟩

def symbol (form : Base64) (value : Nat) : Char :=
  if value < 26 then Char.ofNat ('A'.toNat + value)
  else if value < 52 then Char.ofNat ('a'.toNat + (value - 26))
  else if value < 62 then Char.ofNat ('0'.toNat + (value - 52))
  else if value = 62 then form.symbol62
  else form.symbol63

def value? (form : Base64) (code : Nat) : Option Nat :=
  if 'A'.toNat ≤ code ∧ code ≤ 'Z'.toNat then some (code - 'A'.toNat)
  else if 'a'.toNat ≤ code ∧ code ≤ 'z'.toNat then some (code - 'a'.toNat + 26)
  else if '0'.toNat ≤ code ∧ code ≤ '9'.toNat then some (code - '0'.toNat + 52)
  else if code = form.symbol62.toNat then some 62
  else if code = form.symbol63.toNat then some 63
  else none

def filling (form : Base64) (count : Nat) : List Char :=
  if form.padded then List.replicate count '=' else []

def encode (form : Base64) : List UInt8 → List Char
  | [] => []
  | [a] =>
    let n := a.toNat * 16
    form.symbol (n / 64) :: form.symbol (n % 64) :: form.filling 2
  | [a, b] =>
    let n := (a.toNat * 256 + b.toNat) * 4
    form.symbol (n / 4096) :: form.symbol (n / 64 % 64) :: form.symbol (n % 64) :: form.filling 1
  | a :: b :: c :: rest =>
    let n := (a.toNat * 256 + b.toNat) * 256 + c.toNat
    form.symbol (n / 262144) :: form.symbol (n / 4096 % 64) :: form.symbol (n / 64 % 64)
      :: form.symbol (n % 64) :: encode form rest

inductive Fault where
  /-- A byte that is no symbol, or a filling where none may stand. -/
  | badSymbol (code offset : Nat)
  /-- A last group of one symbol. -/
  | badLength (length : Nat)
  /-- A last symbol with bits that belong to no byte. -/
  | badLastSymbol (code offset : Nat)
  /-- Filling that is missing or that may not be there. -/
  | badPadding
  deriving DecidableEq, Repr

def Fault.message : Fault → String
  | badSymbol code offset =>
    "Invalid symbol " ++ Nat.repr code ++ ", offset " ++ Nat.repr offset ++ "."
  | badLength length => "Invalid input length: " ++ Nat.repr length
  | badLastSymbol code offset =>
    "Invalid last symbol " ++ Nat.repr code ++ ", offset " ++ Nat.repr offset ++ "."
  | badPadding => "Invalid padding"

structure Tail where
  /-- The symbols with their values, the latest first. -/
  symbols : List (Nat × Nat)
  filled : Nat
  firstFilling : Nat

/-- Reads the last group from an offset. Filling is admitted from the third place on, and nothing
but filling may follow it. -/
def readTail (form : Base64) (offset place : Nat) (tail : Tail) :
    List UInt8 → Except Fault Tail
  | [] => .ok tail
  | byte :: rest =>
    let code := byte.toNat
    if code = '='.toNat then
      if place < 2 then .error (.badSymbol code (offset + place))
      else
        let first := if tail.filled = 0 then place else tail.firstFilling
        readTail form offset (place + 1)
          { tail with filled := tail.filled + 1, firstFilling := first } rest
    else if tail.filled > 0 then .error (.badSymbol '='.toNat (offset + tail.firstFilling))
    else match form.value? code with
      | none => .error (.badSymbol code (offset + place))
      | some value =>
        readTail form offset (place + 1) { tail with symbols := (code, value) :: tail.symbols } rest

def tailBytes (form : Base64) (offset : Nat) (bytes : List UInt8) : Except Fault (List UInt8) := do
  let tail ← readTail form offset 0 ⟨[], 0, 0⟩ bytes
  let count := tail.symbols.length
  let bits : Nat := tail.symbols.foldr (fun symbol n => n * 64 + symbol.2) 0
  if bytes.isEmpty then return []
  else if count < 2 then throw (.badLength (offset + count))
  else if form.padded && (tail.filled + count) % 4 != 0 then throw .badPadding
  else if !form.padded && tail.filled > 0 then throw .badPadding
  else
    let lastCode := (tail.symbols.head?.map (·.1)).getD 0
    let lastOffset := offset + count - 1
    if count = 2 then
      if bits % 16 = 0 then return [UInt8.ofNat (bits / 16)]
      else throw (.badLastSymbol lastCode lastOffset)
    else if count = 3 then
      if bits % 4 = 0 then return [UInt8.ofNat (bits / 1024), UInt8.ofNat (bits / 4)]
      else throw (.badLastSymbol lastCode lastOffset)
    else return [UInt8.ofNat (bits / 65536), UInt8.ofNat (bits / 256), UInt8.ofNat bits]

def valueAt (form : Base64) (byte : UInt8) (offset : Nat) : Except Fault Nat :=
  match form.value? byte.toNat with
  | some value => .ok value
  | none => .error (.badSymbol byte.toNat offset)

/-- The bytes of all groups from an offset; a group of four that is followed by more symbols has
no filling. -/
def groupBytes (form : Base64) (offset : Nat) : List UInt8 → Except Fault (List UInt8)
  | a :: b :: c :: d :: e :: rest => do
    let a ← form.valueAt a offset
    let b ← form.valueAt b (offset + 1)
    let c ← form.valueAt c (offset + 2)
    let d ← form.valueAt d (offset + 3)
    let n := ((a * 64 + b) * 64 + c) * 64 + d
    let others ← groupBytes form (offset + 4) (e :: rest)
    return UInt8.ofNat (n / 65536) :: UInt8.ofNat (n / 256) :: UInt8.ofNat n :: others
  | last => form.tailBytes offset last

/-- The bytes a text stands for. A single symbol after full groups is looked at first. -/
def decode (form : Base64) (bytes : List UInt8) : Except Fault (List UInt8) :=
  match if bytes.length % 4 = 1 then bytes.getLast? else none with
  | some last =>
    if last.toNat ≠ '='.toNat ∧ form.value? last.toNat = none then
      .error (.badSymbol last.toNat (bytes.length - 1))
    else form.groupBytes 0 bytes
  | none => form.groupBytes 0 bytes

end Base64

end FleetRegistry.Text

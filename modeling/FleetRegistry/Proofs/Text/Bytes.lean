import FleetRegistry.Text.Bytes

/-!
Texts as lists of bytes. A text comes back from its bytes, and characters that fit into seven bits
are bytes of their own.
-/
namespace FleetRegistry.Text

theorem toList_loop (bytes : ByteArray) (i : Nat) (done : List UInt8) :
    ByteArray.toList.loop bytes i done = done.reverse ++ bytes.data.toList.drop i := by
  fun_induction ByteArray.toList.loop bytes i done with
  | case1 i done inside ih =>
    have here : bytes.get! i = bytes.data[i] := by
      cases bytes
      exact getElem!_pos _ i inside
    have next : bytes.data.toList.drop i = bytes.data[i] :: bytes.data.toList.drop (i + 1) :=
      List.drop_eq_getElem_cons inside
    rw [ih, next, here, List.reverse_cons, List.append_assoc, List.singleton_append]
  | case2 i done outside =>
    rw [List.drop_eq_nil_of_le (Nat.le_of_not_lt outside), List.append_nil]

theorem toList_data (bytes : ByteArray) : bytes.toList = bytes.data.toList := by
  rw [ByteArray.toList, toList_loop]
  rfl

theorem ofBytes?_bytes (text : String) : ofBytes? text.toUTF8.toList = some text := by
  rw [ofBytes?, toList_data, Array.toArray_toList]
  exact dif_pos text.isValidUTF8

/-! ## Characters of seven bits -/

theorem bytes_ofList {s : List Char} (ascii : ∀ c ∈ s, c.toNat ≤ 127) :
    (String.ofList s).toUTF8.toList = s.map byteOf := by
  have single : ∀ c ∈ s, String.utf8EncodeChar c = [byteOf c] := fun c mem => if_pos (ascii c mem)
  rw [toList_data, String.toUTF8, String.toByteArray_ofList, List.utf8Encode,
    List.data_toByteArray, List.flatMap_def, List.map_congr_left single, ← List.flatMap_def]
  exact List.map_eq_flatMap.symm

theorem charOf_byteOf {c : Char} (ascii : c.toNat ≤ 127) : charOf (byteOf c) = c := by
  have small : c.toNat % 256 = c.toNat := Nat.mod_eq_of_lt (by omega)
  rw [charOf, byteOf, UInt8.toNat_ofNat', small, Char.ofNat_toNat]

theorem chars_ofList {s : List Char} (ascii : ∀ c ∈ s, c.toNat ≤ 127) :
    (String.ofList s).toUTF8.toList.map charOf = s := by
  have back : ∀ c ∈ s, (charOf ∘ byteOf) c = c := fun c mem => charOf_byteOf (ascii c mem)
  rw [bytes_ofList ascii, List.map_map, List.map_congr_left back, List.map_id']

theorem ofBytes?_map {s : List Char} (ascii : ∀ c ∈ s, c.toNat ≤ 127) :
    ofBytes? (s.map byteOf) = some (String.ofList s) := by
  rw [← bytes_ofList ascii, ofBytes?_bytes]

end FleetRegistry.Text

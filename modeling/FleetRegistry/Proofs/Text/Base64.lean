import FleetRegistry.Error
import FleetRegistry.Proofs.Text.Bytes

/-!
Bytes come back from their symbols, and nothing but the symbols of some bytes is read. Writing and
reading are compared on the values of the symbols, group by group.
-/
namespace FleetRegistry.Text.Base64

def values : List UInt8 → List Nat
  | [] => []
  | [a] =>
    let n := a.toNat * 16
    [n / 64, n % 64]
  | [a, b] =>
    let n := (a.toNat * 256 + b.toNat) * 4
    [n / 4096, n / 64 % 64, n % 64]
  | a :: b :: c :: rest =>
    let n := (a.toNat * 256 + b.toNat) * 256 + c.toNat
    n / 262144 :: n / 4096 % 64 :: n / 64 % 64 :: n % 64 :: values rest

theorem encode_eq (bytes : List UInt8) :
    urlSafe.encode bytes = (values bytes).map urlSafe.symbol := by
  fun_induction values bytes with
  | case1 => rfl
  | case2 a => rfl
  | case3 a b => rfl
  | case4 a b c rest n ih => simp only [encode, List.map_cons, ih, n]

theorem values_lt (bytes : List UInt8) : ∀ v ∈ values bytes, v < 64 := by
  fun_induction values bytes with
  | case1 => nofun
  | case2 a n =>
    have := a.toNat_lt
    simp only [List.mem_cons, List.not_mem_nil, or_false, forall_eq_or_imp, forall_eq]
    omega
  | case3 a b n =>
    have := a.toNat_lt
    have := b.toNat_lt
    simp only [List.mem_cons, List.not_mem_nil, or_false, forall_eq_or_imp, forall_eq]
    omega
  | case4 a b c rest n ih =>
    have := a.toNat_lt
    have := b.toNat_lt
    have := c.toNat_lt
    simp only [List.mem_cons, forall_eq_or_imp]
    exact ⟨by omega, by omega, by omega, by omega, ih⟩

def alphabet : List Char :=
  "ABCDEFGHIJKLMNOPQRSTUVWXYZabcdefghijklmnopqrstuvwxyz0123456789-_".toList

theorem symbol_mem_alphabet {v : Nat} (h : v < 64) : urlSafe.symbol v ∈ alphabet := by
  have all : ∀ v < 64, urlSafe.symbol v ∈ alphabet := by decide +kernel
  exact all v h

theorem encode_subset (bytes : List UInt8) : urlSafe.encode bytes ⊆ alphabet := by
  rw [encode_eq]
  intro c mem
  obtain ⟨v, there, rfl⟩ := List.mem_map.1 mem
  exact symbol_mem_alphabet (values_lt bytes v there)

def symbolByte (v : Nat) : UInt8 := byteOf (urlSafe.symbol v)

theorem symbol_ascii {v : Nat} (h : v < 64) : (urlSafe.symbol v).toNat ≤ 127 := by
  have all : ∀ v < 64, (urlSafe.symbol v).toNat ≤ 127 := by decide
  exact all v h

theorem value?_symbolByte {v : Nat} (h : v < 64) :
    urlSafe.value? (symbolByte v).toNat = some v := by
  have all : ∀ v < 64, urlSafe.value? (symbolByte v).toNat = some v := by decide +kernel
  exact all v h

theorem symbolByte_ne_filling {v : Nat} (h : v < 64) : (symbolByte v).toNat ≠ '='.toNat := by
  have all : ∀ v < 64, (symbolByte v).toNat ≠ '='.toNat := by decide +kernel
  exact all v h

/-! ## Reading symbols -/

theorem readTail_symbols {vs : List Nat} (below : ∀ v ∈ vs, v < 64) (offset place : Nat)
    (done : List (Nat × Nat)) :
    urlSafe.readTail offset place ⟨done, 0, 0⟩ (vs.map symbolByte)
      = .ok ⟨(vs.map fun v => ((symbolByte v).toNat, v)).reverse ++ done, 0, 0⟩ := by
  induction vs generalizing place done with
  | nil => rfl
  | cons v rest ih =>
    have ⟨here, later⟩ := List.forall_mem_cons.1 below
    simp only [List.map_cons, readTail, symbolByte_ne_filling here, value?_symbolByte here,
      if_false, Nat.lt_irrefl, ih later]
    simp

theorem valueAt_symbol {v : Nat} (h : v < 64) (offset : Nat) :
    urlSafe.valueAt (symbolByte v) offset = .ok v := by
  simp only [valueAt, value?_symbolByte h]

/-! A last group of two, three or four symbols. -/

theorem tailBytes_two {v w : Nat} (below : ∀ x ∈ [v, w], x < 64) (offset : Nat) :
    urlSafe.tailBytes offset ([v, w].map symbolByte)
      = if (v * 64 + w) % 16 = 0 then .ok [UInt8.ofNat ((v * 64 + w) / 16)]
        else .error (.badLastSymbol (symbolByte w).toNat (offset + 1)) := by
  unfold tailBytes
  rw [readTail_symbols below]
  simp [bind, Except.bind, pure, Except.pure, urlSafe]
  rfl

theorem tailBytes_three {v w x : Nat} (below : ∀ y ∈ [v, w, x], y < 64) (offset : Nat) :
    urlSafe.tailBytes offset ([v, w, x].map symbolByte)
      = if ((v * 64 + w) * 64 + x) % 4 = 0 then
          .ok [UInt8.ofNat (((v * 64 + w) * 64 + x) / 1024),
            UInt8.ofNat (((v * 64 + w) * 64 + x) / 4)]
        else .error (.badLastSymbol (symbolByte x).toNat (offset + 2)) := by
  unfold tailBytes
  rw [readTail_symbols below]
  simp [bind, Except.bind, pure, Except.pure, urlSafe]
  rfl

theorem tailBytes_four {v w x y : Nat} (below : ∀ z ∈ [v, w, x, y], z < 64) (offset : Nat) :
    urlSafe.tailBytes offset ([v, w, x, y].map symbolByte)
      = .ok [UInt8.ofNat ((((v * 64 + w) * 64 + x) * 64 + y) / 65536),
        UInt8.ofNat ((((v * 64 + w) * 64 + x) * 64 + y) / 256),
        UInt8.ofNat (((v * 64 + w) * 64 + x) * 64 + y)] := by
  unfold tailBytes
  rw [readTail_symbols below]
  simp [bind, Except.bind, pure, Except.pure, urlSafe]

theorem values_ne_nil (a : UInt8) (rest : List UInt8) : values (a :: rest) ≠ [] := by
  match rest with
  | [] | [_] | _ :: _ :: _ => nofun

theorem ofNat_eq_iff {n : Nat} {byte : UInt8} : UInt8.ofNat n = byte ↔ n % 256 = byte.toNat := by
  rw [← UInt8.toNat_inj, UInt8.toNat_ofNat']

theorem groupBytes_values (bytes : List UInt8) (offset : Nat) :
    urlSafe.groupBytes offset ((values bytes).map symbolByte) = .ok bytes := by
  fun_induction values bytes generalizing offset with
  | case1 => rfl
  | case2 a n =>
    have := a.toNat_lt
    refine (tailBytes_two (values_lt [a]) offset).trans ((if_pos (by omega)).trans ?_)
    simp only [Except.ok.injEq, List.cons.injEq, ofNat_eq_iff, and_true]
    omega
  | case3 a b n =>
    have := a.toNat_lt
    have := b.toNat_lt
    refine (tailBytes_three (values_lt [a, b]) offset).trans ((if_pos (by omega)).trans ?_)
    simp only [Except.ok.injEq, List.cons.injEq, ofNat_eq_iff, and_true]
    omega
  | case4 a b c rest n ih =>
    have := a.toNat_lt
    have := b.toNat_lt
    have := c.toNat_lt
    cases rest with
    | nil =>
      refine (tailBytes_four (values_lt [a, b, c]) offset).trans ?_
      simp only [Except.ok.injEq, List.cons.injEq, ofNat_eq_iff, and_true]
      omega
    | cons d others =>
      obtain ⟨v, vs, eq⟩ := List.exists_cons_of_ne_nil (values_ne_nil d others)
      have read := ih (offset + 4)
      rw [eq, List.map_cons] at read
      have first : n / 262144 < 64 := by omega
      have within (m : Nat) : m % 64 < 64 := Nat.mod_lt m (by decide)
      simp only [eq, List.map_cons, groupBytes, valueAt_symbol first, valueAt_symbol (within _),
        read, bind, Except.bind, pure, Except.pure, Except.ok.injEq, List.cons.injEq, ofNat_eq_iff,
        and_true]
      omega

theorem symbols_ofList (bytes : List UInt8) :
    (String.ofList (urlSafe.encode bytes)).toUTF8.toList = (values bytes).map symbolByte := by
  rw [encode_eq, bytes_ofList, List.map_map]
  · rfl
  · simp only [List.mem_map, forall_exists_index, and_imp, forall_apply_eq_imp_iff₂]
    exact fun v mem => symbol_ascii (values_lt bytes v mem)

theorem decode_encode (bytes : List UInt8) :
    urlSafe.decode (String.ofList (urlSafe.encode bytes)).toUTF8.toList = .ok bytes := by
  have below := values_lt bytes
  rw [symbols_ofList]
  unfold decode
  split
  next last found =>
    obtain ⟨v, mem, rfl⟩ : ∃ v ∈ values bytes, symbolByte v = last := by
      split at found
      next => exact List.mem_map.1 (List.mem_of_getLast? found)
      next => cases found
    rw [if_neg (by simp [value?_symbolByte (below v mem)])]
    exact groupBytes_values bytes 0
  next => exact groupBytes_values bytes 0

/-! ## Nothing else is read -/

theorem value?_eq_some {byte : UInt8} {v : Nat} (found : urlSafe.value? byte.toNat = some v) :
    v < 64 ∧ byte = symbolByte v := by
  have all : ∀ n < 256, ∀ v ∈ urlSafe.value? n, v < 64 ∧ UInt8.ofNat n = symbolByte v := by
    decide +kernel
  have ⟨below, same⟩ := all byte.toNat byte.toNat_lt v found
  rw [UInt8.ofNat_toNat] at same
  exact ⟨below, same⟩

theorem valueAt_eq_ok {byte : UInt8} {offset v : Nat} (read : urlSafe.valueAt byte offset = .ok v) :
    v < 64 ∧ byte = symbolByte v := by
  unfold valueAt at read
  split at read
  next found =>
    cases read
    exact value?_eq_some found
  next => cases read

theorem readTail_filled {form : Base64} {bytes : List UInt8} {offset place : Nat}
    {start tail : Tail} (read : form.readTail offset place start bytes = .ok tail) :
    start.filled ≤ tail.filled := by
  induction bytes generalizing place start with
  | nil =>
    cases read
    exact Nat.le_refl _
  | cons byte rest ih =>
    simp only [readTail] at read
    split at read
    next =>
      split at read
      next => cases read
      next =>
        have grown := ih read
        exact Nat.le_of_succ_le grown
    next =>
      split at read
      next => cases read
      next =>
        split at read
        next => cases read
        next =>
          have kept := ih read
          exact kept

theorem readTail_eq_ok {bytes : List UInt8} {offset place : Nat} {done : List (Nat × Nat)}
    {tail : Tail} (read : urlSafe.readTail offset place ⟨done, 0, 0⟩ bytes = .ok tail)
    (unfilled : tail.filled = 0) : ∃ vs : List Nat, bytes = vs.map symbolByte ∧ ∀ v ∈ vs, v < 64 := by
  induction bytes generalizing place done with
  | nil => exact ⟨[], rfl, nofun⟩
  | cons byte rest ih =>
    simp only [readTail, Nat.lt_irrefl, if_false, if_true] at read
    split at read
    next =>
      split at read
      next => cases read
      next =>
        have filled : 0 + 1 ≤ tail.filled := readTail_filled read
        omega
    next =>
      split at read
      next => cases read
      next v found =>
        obtain ⟨below, rfl⟩ := value?_eq_some found
        obtain ⟨vs, rfl, later⟩ := ih read
        exact ⟨v :: vs, rfl, List.forall_mem_cons.2 ⟨below, later⟩⟩

theorem symbols_of_tailBytes {input bytes : List UInt8} {offset : Nat}
    (read : urlSafe.tailBytes offset input = .ok bytes) :
    ∃ vs : List Nat, input = vs.map symbolByte ∧ ∀ v ∈ vs, v < 64 := by
  cases input with
  | nil => exact ⟨[], rfl, nofun⟩
  | cons byte rest =>
    unfold tailBytes at read
    cases found : urlSafe.readTail offset 0 ⟨[], 0, 0⟩ (byte :: rest) with
    | error fault =>
      rw [found] at read
      cases read
    | ok tail =>
      by_cases unfilled : tail.filled = 0
      · exact readTail_eq_ok found unfilled
      · rw [found] at read
        have filled : 0 < tail.filled := Nat.pos_of_ne_zero unfilled
        simp [bind, Except.bind, urlSafe, filled] at read
        split at read <;> cases read

theorem tailBytes_eq_ok {input bytes : List UInt8} {offset : Nat} (short : input.length ≤ 4)
    (read : urlSafe.tailBytes offset input = .ok bytes) :
    input = (values bytes).map symbolByte := by
  obtain ⟨vs, rfl, below⟩ := symbols_of_tailBytes read
  refine congrArg (List.map symbolByte) ?_
  match vs with
  | [] =>
    cases read
    rfl
  | [v] =>
    unfold tailBytes at read
    rw [readTail_symbols below] at read
    cases read
  | [v, w] =>
    rw [tailBytes_two below] at read
    simp only [List.forall_mem_cons] at below
    split at read
    next exact =>
      cases read
      simp only [values, UInt8.toNat_ofNat', List.cons.injEq, and_true]
      omega
    next => cases read
  | [v, w, x] =>
    rw [tailBytes_three below] at read
    simp only [List.forall_mem_cons] at below
    split at read
    next exact =>
      cases read
      simp only [values, UInt8.toNat_ofNat', List.cons.injEq, and_true]
      omega
    next => cases read
  | [v, w, x, y] =>
    rw [tailBytes_four below] at read
    simp only [List.forall_mem_cons] at below
    cases read
    simp only [values, UInt8.toNat_ofNat', List.cons.injEq, and_true]
    omega
  | _ :: _ :: _ :: _ :: _ :: _ =>
    simp only [List.length_map, List.length_cons] at short
    omega

theorem groupBytes_eq_ok {input bytes : List UInt8} {offset : Nat}
    (read : urlSafe.groupBytes offset input = .ok bytes) :
    input = (values bytes).map symbolByte := by
  fun_induction Base64.groupBytes urlSafe offset input generalizing bytes with
  | case1 offset a b c d e rest ih =>
    obtain ⟨v, first, read⟩ := Outcome.bind_eq_ok.1 read
    obtain ⟨w, second, read⟩ := Outcome.bind_eq_ok.1 read
    obtain ⟨x, third, read⟩ := Outcome.bind_eq_ok.1 read
    obtain ⟨y, fourth, read⟩ := Outcome.bind_eq_ok.1 read
    obtain ⟨others, later, read⟩ := Outcome.bind_eq_ok.1 read
    cases read
    obtain ⟨_, rfl⟩ := valueAt_eq_ok first
    obtain ⟨_, rfl⟩ := valueAt_eq_ok second
    obtain ⟨_, rfl⟩ := valueAt_eq_ok third
    obtain ⟨_, rfl⟩ := valueAt_eq_ok fourth
    rw [ih later]
    simp only [← List.map_cons]
    congr 1
    simp only [values, UInt8.toNat_ofNat', List.cons.injEq, and_true]
    omega
  | case2 offset input few =>
    refine tailBytes_eq_ok ?_ read
    match input with
    | [] | [_] | [_, _] | [_, _, _] | [_, _, _, _] => simp
    | a :: b :: c :: d :: e :: rest => exact absurd rfl (few a b c d e rest)

theorem groupBytes_of_decode {input bytes : List UInt8}
    (read : urlSafe.decode input = .ok bytes) : urlSafe.groupBytes 0 input = .ok bytes := by
  unfold decode at read
  split at read
  next =>
    split at read
    next => cases read
    next => exact read
  next => exact read

/-- A text is read as some bytes exactly if it is made of the symbols of these bytes. -/
theorem decode_eq_ok_iff {text : String} {bytes : List UInt8} :
    urlSafe.decode text.toUTF8.toList = .ok bytes
      ↔ text = String.ofList (urlSafe.encode bytes) := by
  constructor
  · intro read
    have symbols := groupBytes_eq_ok (groupBytes_of_decode read)
    rw [← symbols_ofList] at symbols
    have same := congrArg ofBytes? symbols
    rw [ofBytes?_bytes, ofBytes?_bytes] at same
    exact Option.some.inj same
  · rintro rfl
    exact decode_encode bytes

end FleetRegistry.Text.Base64

import FleetRegistry.Json.Basic

/-!
Values in canonical form: the members of every object in ascending order of names, each name once.
Bringing a value into this form a second time changes nothing. Canonical values that equal each
other are the same, so they can be compared.
-/
namespace FleetRegistry.Json

/-! ## Comparing values -/

mutual

def beq : Json → Json → Bool
  | .null, .null => true
  | .bool x, .bool y => x == y
  | .int x, .int y => x == y
  | .float x, .float y => x == y
  | .str x, .str y => x == y
  | .arr xs, .arr ys => beqItems xs ys
  | .obj xs, .obj ys => beqMembers xs ys
  | _, _ => false

def beqItems : List Json → List Json → Bool
  | [], [] => true
  | x :: xs, y :: ys => beq x y && beqItems xs ys
  | _, _ => false

def beqMembers : List (String × Json) → List (String × Json) → Bool
  | [], [] => true
  | (name, x) :: xs, (other, y) :: ys => name == other && beq x y && beqMembers xs ys
  | _, _ => false

end

mutual

theorem beq_iff_eq (x y : Json) : beq x y = true ↔ x = y := by
  cases x <;> cases y <;> simp [beq]
  case arr.arr xs ys => exact beqItems_iff_eq xs ys
  case obj.obj xs ys => exact beqMembers_iff_eq xs ys

theorem beqItems_iff_eq (xs ys : List Json) : beqItems xs ys = true ↔ xs = ys := by
  match xs, ys with
  | [], [] => simp [beqItems]
  | [], _ :: _ | _ :: _, [] => simp [beqItems]
  | x :: xs, y :: ys => simp [beqItems, beq_iff_eq x y, beqItems_iff_eq xs ys]

theorem beqMembers_iff_eq (xs ys : List (String × Json)) :
    beqMembers xs ys = true ↔ xs = ys := by
  match xs, ys with
  | [], [] => simp [beqMembers]
  | [], _ :: _ | _ :: _, [] => simp [beqMembers]
  | (name, x) :: xs, (other, y) :: ys =>
    simp [beqMembers, beq_iff_eq x y, beqMembers_iff_eq xs ys]

end

instance : DecidableEq Json := fun x y => decidable_of_iff _ (beq_iff_eq x y)

/-! ## Members in order -/

namespace Members

variable {name : String} {value : Json} {members : Members} {member : String × Json}

theorem mem_insertSorted (mem : member ∈ insertSorted name value members) :
    member = (name, value) ∨ member ∈ members := by
  induction members with
  | nil => exact .inl (List.mem_singleton.1 mem)
  | cons head rest ih =>
    obtain ⟨other, old⟩ := head
    unfold insertSorted at mem
    split at mem
    · exact List.mem_cons.1 mem
    · split at mem
      · exact (List.mem_cons.1 mem).imp id (List.mem_cons_of_mem _)
      · rcases List.mem_cons.1 mem with rfl | mem
        · exact .inr List.mem_cons_self
        · exact (ih mem).imp id (List.mem_cons_of_mem _)

theorem insertSorted_ascending (ascending : members.Pairwise (·.1 < ·.1)) :
    (insertSorted name value members).Pairwise (·.1 < ·.1) := by
  induction members with
  | nil => exact List.pairwise_singleton _ _
  | cons head rest ih =>
    obtain ⟨other, old⟩ := head
    have ⟨below, tail⟩ := List.pairwise_cons.1 ascending
    unfold insertSorted
    split
    next lt =>
      refine List.pairwise_cons.2 ⟨fun member mem => ?_, ascending⟩
      rcases List.mem_cons.1 mem with rfl | mem
      · exact lt
      · exact String.lt_trans lt (below member mem)
    next notLt =>
      split
      next same =>
        subst same
        exact List.pairwise_cons.2 ⟨below, tail⟩
      next ne =>
        refine List.pairwise_cons.2 ⟨fun member mem => ?_, ih tail⟩
        rcases mem_insertSorted mem with rfl | mem
        · exact Std.lt_of_le_of_ne (Std.not_lt.1 notLt) (Ne.symm ne)
        · exact below member mem

theorem insertSorted_eq_append (above : ∀ member ∈ members, member.1 < name) :
    insertSorted name value members = members ++ [(name, value)] := by
  induction members with
  | nil => rfl
  | cons head rest ih =>
    have lt : head.1 < name := above head List.mem_cons_self
    have ne : name ≠ head.1 := fun same => String.lt_irrefl _ (same ▸ lt)
    simp [insertSorted, String.lt_asymm lt, ne,
      ih fun member mem => above member (List.mem_cons_of_mem _ mem)]

/-- Sorting invents no member. -/
theorem mem_of_mem_sorted (mem : member ∈ sorted members) : member ∈ members := by
  suffices general : ∀ (todo done : Members),
      member ∈ todo.foldl (fun done member => insertSorted member.1 member.2 done) done →
      member ∈ todo ∨ member ∈ done by
    simpa using general members [] mem
  intro todo
  induction todo with
  | nil => exact fun done mem => .inr mem
  | cons first rest ih =>
    intro done mem
    rcases ih _ mem with mem | mem
    · exact .inl (List.mem_cons_of_mem _ mem)
    · rcases mem_insertSorted mem with rfl | mem
      · exact .inl List.mem_cons_self
      · exact .inr mem

theorem sorted_ascending (members : Members) : (sorted members).Pairwise (·.1 < ·.1) := by
  suffices general : ∀ (todo done : Members), done.Pairwise (·.1 < ·.1) →
      (todo.foldl (fun done member => insertSorted member.1 member.2 done) done).Pairwise
        (·.1 < ·.1) from general members [] .nil
  intro todo
  induction todo with
  | nil => exact fun done ascending => ascending
  | cons first rest ih => exact fun done ascending => ih _ (insertSorted_ascending ascending)

/-- Members that are already in order are taken as they stand. -/
theorem sorted_eq_self (ascending : members.Pairwise (·.1 < ·.1)) : sorted members = members := by
  suffices general : ∀ (todo done : Members), (done ++ todo).Pairwise (·.1 < ·.1) →
      todo.foldl (fun done member => insertSorted member.1 member.2 done) done = done ++ todo from
    general members [] ascending
  intro todo
  induction todo with
  | nil => simp
  | cons first rest ih =>
    intro done ordered
    have step : insertSorted first.1 first.2 done = done ++ [first] :=
      insertSorted_eq_append fun earlier mem =>
        (List.pairwise_append.1 ordered).2.2 earlier mem first List.mem_cons_self
    rw [List.foldl_cons, step, ih _ (by simpa using ordered)]
    simp

end Members

/-! ## Canonical values -/

theorem canonicalItems_eq_map (items : List Json) : canonicalItems items = items.map canonical := by
  induction items with
  | nil => rfl
  | cons item rest ih => rw [canonicalItems, ih, List.map_cons]

theorem canonicalMembers_eq_map (members : Members) :
    canonicalMembers members = members.map fun member => (member.1, member.2.canonical) := by
  induction members with
  | nil => rfl
  | cons member rest ih => rw [canonicalMembers, ih, List.map_cons]

/-- Members with canonical values are canonical once they are in order. -/
theorem canonical_sorted {members : Members}
    (values : ∀ member ∈ members, member.2.canonical = member.2) :
    (Json.obj members.sorted).canonical = .obj members.sorted := by
  have kept : canonicalMembers members.sorted = members.sorted := by
    rw [canonicalMembers_eq_map]
    refine (List.map_congr_left fun member mem => ?_).trans (List.map_id _)
    rw [values member (Members.mem_of_mem_sorted mem)]
    rfl
  rw [canonical, kept, Members.sorted_eq_self (Members.sorted_ascending members)]

mutual

/-- The canonical form of a value is canonical. -/
theorem canonical_canonical : (value : Json) → value.canonical.canonical = value.canonical
  | .null | .bool _ | .int _ | .float _ | .str _ => rfl
  | .arr items => by
    simp only [canonical, canonicalItems_eq_map]
    refine congrArg Json.arr ((List.map_map ..).trans (List.map_congr_left fun item mem => ?_))
    exact canonicalItems_canonical items item mem
  | .obj members => by
    rw [canonical, canonicalMembers_eq_map]
    refine canonical_sorted fun member mem => ?_
    obtain ⟨given, listed, rfl⟩ := List.mem_map.1 mem
    exact canonicalMembers_canonical members given listed

theorem canonicalItems_canonical (items : List Json) :
    ∀ item ∈ items, item.canonical.canonical = item.canonical := by
  match items with
  | [] => exact fun _ mem => nomatch mem
  | first :: rest =>
    exact List.forall_mem_cons.2 ⟨canonical_canonical first, canonicalItems_canonical rest⟩

theorem canonicalMembers_canonical (members : List (String × Json)) :
    ∀ member ∈ members, member.2.canonical.canonical = member.2.canonical := by
  match members with
  | [] => exact fun _ mem => nomatch mem
  | (_, value) :: rest =>
    exact List.forall_mem_cons.2 ⟨canonical_canonical value, canonicalMembers_canonical rest⟩

end

theorem canonical_eq_null {value : Json} : value.canonical = .null ↔ value = .null := by
  cases value <;> simp [canonical]

end FleetRegistry.Json

import FleetRegistry.Metrics.Basic

/-!
Families of samples. A family has each combination of label values once, in ascending order; a
change of the sample under one combination leaves all others as they are.
-/
namespace FleetRegistry.Family

variable {α : Type} {labels other : List String} {start : α} {f : α → α} {family : Family α}

theorem sample?_cons (sample : List String × α) (rest : Family α) :
    sample? labels (sample :: rest)
      = if sample.1 = labels then some sample.2 else sample? labels rest := by
  unfold sample?
  by_cases same : sample.1 = labels <;> simp [same]

/-- The combinations in the order in which they are kept. -/
def Ascending (family : Family α) : Prop := family.Pairwise (·.1 < ·.1)

theorem eq_or_mem_of_mem_update {sample : List String × α}
    (mem : sample ∈ family.update labels start f) :
    sample.1 = labels ∨ ∃ old ∈ family, old.1 = sample.1 := by
  induction family with
  | nil => exact .inl (List.mem_singleton.1 mem ▸ rfl)
  | cons head rest ih =>
    unfold update at mem
    split at mem
    next same =>
      rcases List.mem_cons.1 mem with rfl | mem
      · exact .inl same.symm
      · exact .inr ⟨sample, List.mem_cons_of_mem _ mem, rfl⟩
    next =>
      split at mem
      · rcases List.mem_cons.1 mem with rfl | mem
        · exact .inl rfl
        · exact .inr ⟨sample, mem, rfl⟩
      · rcases List.mem_cons.1 mem with rfl | mem
        · exact .inr ⟨_, List.mem_cons_self, rfl⟩
        · exact (ih mem).imp id fun ⟨old, mem, eq⟩ => ⟨old, List.mem_cons_of_mem _ mem, eq⟩

theorem Ascending.update (ascending : family.Ascending) :
    (family.update labels start f).Ascending := by
  induction family with
  | nil => exact List.pairwise_singleton _ _
  | cons head rest ih =>
    have ⟨below, tail⟩ := List.pairwise_cons.1 ascending
    unfold Family.update
    split
    next => exact List.pairwise_cons.2 ⟨below, tail⟩
    next ne =>
      split
      next lt =>
        refine List.pairwise_cons.2 ⟨fun sample mem => ?_, ascending⟩
        rcases List.mem_cons.1 mem with rfl | mem
        · exact lt
        · exact List.lt_trans lt (below sample mem)
      next notLt =>
        refine List.pairwise_cons.2 ⟨fun sample mem => ?_, ih tail⟩
        rcases eq_or_mem_of_mem_update mem with eq | ⟨old, mem, eq⟩
        · exact eq ▸ Std.lt_of_le_of_ne (Std.not_lt.1 notLt) (Ne.symm ne)
        · exact eq ▸ below old mem

theorem sample?_eq_none_of_below (below : ∀ sample ∈ family, labels < sample.1) :
    family.sample? labels = none := by
  simp only [sample?, Option.map_eq_none_iff, List.find?_eq_none, decide_eq_true_eq]
  exact fun sample mem same => List.lt_irrefl _ (same ▸ below sample mem)

theorem sample?_update_self (ascending : family.Ascending) :
    (family.update labels start f).sample? labels
      = some (f ((family.sample? labels).getD start)) := by
  induction family with
  | nil => simp [update, sample?]
  | cons head rest ih =>
    have ⟨below, tail⟩ := List.pairwise_cons.1 ascending
    unfold update
    split
    next same => simp [sample?_cons, same]
    next ne =>
      split
      next lt =>
        have none : sample? labels (head :: rest) = none := by
          refine sample?_eq_none_of_below fun sample mem => ?_
          rcases List.mem_cons.1 mem with rfl | mem
          · exact lt
          · exact List.lt_trans lt (below sample mem)
        rw [sample?_cons, if_pos rfl, none, Option.getD_none]
      next => rw [sample?_cons, sample?_cons, if_neg (Ne.symm ne), if_neg (Ne.symm ne), ih tail]

theorem sample?_update_of_ne (ne : other ≠ labels) :
    (family.update labels start f).sample? other = family.sample? other := by
  induction family with
  | nil => simp [update, sample?, ne.symm]
  | cons head rest ih =>
    unfold update
    split
    next same => simp [sample?_cons, ← same, ne.symm]
    next =>
      split
      next => rw [sample?_cons, if_neg ne.symm]
      next => rw [sample?_cons, sample?_cons, ih]

theorem getD_sample?_update (ascending : family.Ascending) :
    ((family.update labels start f).sample? other).getD start
      = if labels = other then f ((family.sample? other).getD start)
        else (family.sample? other).getD start := by
  split
  next same => rw [← same, sample?_update_self ascending, Option.getD_some]
  next ne => rw [sample?_update_of_ne (Ne.symm ne)]

/-! ## Counts -/

/-- What a family counts under all combinations of some form. -/
def total (form : List String → Bool) : Family Nat → Nat
  | [] => 0
  | sample :: rest => (if form sample.1 then sample.2 else 0) + total form rest

theorem total_update (form : List String → Bool) (family : Family Nat) :
    total form (family.update labels 0 (· + 1))
      = total form family + if form labels then 1 else 0 := by
  induction family with
  | nil => by_cases fits : form labels <;> simp [update, total, fits]
  | cons head rest ih =>
    unfold update
    split
    next same =>
      rw [total, total, ← same]
      by_cases fits : form labels <;> simp [fits, Nat.add_right_comm]
    next =>
      split
      next => rw [total, Nat.add_comm]
      next => rw [total, total, ih, Nat.add_assoc]

end FleetRegistry.Family

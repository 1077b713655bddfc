import FleetRegistry.Schema.Pattern
import Mathlib.Logic.Basic

/-!
What patterns describe. The matcher, which reads a text character by character, accepts exactly the
texts that a pattern describes. Each way to build a pattern has its law, so that the texts of a
large pattern come from those of its parts.
-/
namespace FleetRegistry.Schema.Pattern

variable {p q : Pattern} {s : List Char}

/-! ## The texts of each pattern -/

theorem describes_empty : Describes .empty s ↔ s = [] := by
  constructor
  · rintro ⟨⟩
    rfl
  · rintro rfl
    exact .empty

theorem describes_oneOf {ranges : List CharRange} :
    Describes (.oneOf ranges) s ↔ ∃ c, inRanges ranges c = true ∧ s = [c] := by
  constructor
  · intro h
    cases h with
    | @oneOf _ c mem => exact ⟨c, mem, rfl⟩
  · rintro ⟨c, mem, rfl⟩
    exact .oneOf mem

theorem describes_char {c : Char} : Describes (.char c) s ↔ s = [c] := by
  constructor
  · rintro ⟨⟩
    rfl
  · rintro rfl
    exact .char c

theorem describes_followedBy : Describes (.followedBy p q) s
    ↔ ∃ front back, Describes p front ∧ Describes q back ∧ s = front ++ back := by
  constructor
  · intro h
    cases h with
    | followedBy first second => exact ⟨_, _, first, second, rfl⟩
  · rintro ⟨front, back, first, second, rfl⟩
    exact .followedBy first second

theorem describes_either : Describes (.either p q) s ↔ Describes p s ∨ Describes q s := by
  constructor
  · intro h
    cases h with
    | left first => exact .inl first
    | right second => exact .inr second
  · rintro (first | second)
    · exact .left first
    · exact .right second

theorem describes_optional : Describes (.optional p) s ↔ s = [] ∨ Describes p s := by
  constructor
  · intro h
    cases h with
    | absent => exact .inl rfl
    | present first => exact .inr first
  · rintro (rfl | first)
    · exact .absent p
    · exact .present first

theorem describes_repeated : Describes (.repeated p) s
    ↔ ∃ parts : List (List Char), (∀ part ∈ parts, Describes p part) ∧ s = parts.flatten := by
  constructor
  · intro h
    generalize eq : Pattern.repeated p = whole at h
    induction h with
    | none => exact ⟨[], List.forall_mem_nil _, rfl⟩
    | more first _ _ ih =>
      cases eq
      obtain ⟨parts, all, rfl⟩ := ih rfl
      exact ⟨_ :: parts, List.forall_mem_cons.2 ⟨first, all⟩, rfl⟩
    | _ => cases eq
  · rintro ⟨parts, all, rfl⟩
    induction parts with
    | nil => exact .none p
    | cons part rest ih =>
      have ⟨first, later⟩ := List.forall_mem_cons.1 all
      exact .more first (ih later)

/-! ## The matcher -/

theorem acceptsEmpty_iff (p : Pattern) : p.acceptsEmpty = true ↔ Describes p [] := by
  induction p with
  | never => exact iff_of_false Bool.false_ne_true nofun
  | empty => exact iff_of_true rfl .empty
  | oneOf ranges => simp [acceptsEmpty, describes_oneOf]
  | char c => simp [acceptsEmpty, describes_char]
  | followedBy p q ihp ihq =>
    rw [acceptsEmpty, Bool.and_eq_true, ihp, ihq, describes_followedBy]
    constructor
    · rintro ⟨first, second⟩
      exact ⟨[], [], first, second, rfl⟩
    · rintro ⟨front, back, first, second, eq⟩
      obtain ⟨rfl, rfl⟩ := List.append_eq_nil_iff.1 eq.symm
      exact ⟨first, second⟩
  | either p q ihp ihq => rw [acceptsEmpty, Bool.or_eq_true, ihp, ihq, describes_either]
  | optional p => exact iff_of_true rfl (.absent p)
  | repeated p => exact iff_of_true rfl (.none p)

theorem describes_repeated_cons {c : Char} : Describes (.repeated p) (c :: s)
    ↔ ∃ front back, Describes p (c :: front) ∧ Describes (.repeated p) back
      ∧ s = front ++ back := by
  constructor
  · intro h
    obtain ⟨parts, all, eq⟩ := describes_repeated.1 h
    induction parts with
    | nil => cases eq
    | cons part rest ih =>
      have ⟨first, later⟩ := List.forall_mem_cons.1 all
      cases part with
      | nil => exact ih later eq
      | cons d front =>
        obtain ⟨rfl, rfl⟩ := List.cons.inj eq
        exact ⟨front, rest.flatten, first, describes_repeated.2 ⟨rest, later, rfl⟩, rfl⟩
  · rintro ⟨front, back, first, rest, rfl⟩
    exact .more first rest

theorem describes_after (p : Pattern) (c : Char) (s : List Char) :
    Describes (p.after c) s ↔ Describes p (c :: s) := by
  induction p generalizing s with
  | never => exact iff_of_false nofun nofun
  | empty => exact iff_of_false nofun nofun
  | oneOf ranges =>
    rw [after, describes_oneOf]
    split
    next mem =>
      rw [describes_empty]
      constructor
      · rintro rfl
        exact ⟨c, mem, rfl⟩
      · rintro ⟨_, -, eq⟩
        exact (List.cons.inj eq).2
    next out =>
      refine iff_of_false nofun ?_
      rintro ⟨d, mem, eq⟩
      exact out ((List.cons.inj eq).1 ▸ mem)
  | char d =>
    rw [after, describes_char]
    split
    next same => simp [describes_empty, same]
    next other => exact iff_of_false nofun (by simp [other])
  | followedBy p q ihp ihq =>
    have split : Describes (.followedBy p q) (c :: s)
        ↔ Describes (.followedBy (p.after c) q) s ∨ (Describes p [] ∧ Describes (q.after c) s) := by
      simp only [describes_followedBy, ihp, ihq]
      constructor
      · rintro ⟨front, back, first, second, eq⟩
        cases front with
        | nil => exact .inr ⟨first, eq ▸ second⟩
        | cons d front =>
          obtain ⟨rfl, rfl⟩ := List.cons.inj eq
          exact .inl ⟨front, back, first, second, rfl⟩
      · rintro (⟨front, back, first, second, rfl⟩ | ⟨first, second⟩)
        · exact ⟨c :: front, back, first, second, rfl⟩
        · exact ⟨[], c :: s, first, second, rfl⟩
    rw [after, split, ← acceptsEmpty_iff]
    split
    next skips => simp [describes_either, skips]
    next reads => simp [reads]
  | either p q ihp ihq => rw [after, describes_either, describes_either, ihp, ihq]
  | optional p ih => simp [after, describes_optional, ih]
  | repeated p ih =>
    rw [after, describes_repeated_cons, describes_followedBy]
    simp only [ih]

/-- The matcher accepts what the pattern describes. -/
theorem holds_iff (p : Pattern) (s : List Char) : p.holds s = true ↔ Describes p s := by
  induction s generalizing p with
  | nil => exact acceptsEmpty_iff p
  | cons c rest ih => rw [holds, ih, describes_after]

end FleetRegistry.Schema.Pattern

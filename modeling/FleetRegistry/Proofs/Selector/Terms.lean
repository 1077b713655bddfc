import FleetRegistry.Error
import FleetRegistry.Proofs.Text.Cuts
import FleetRegistry.Selector.Label
import Mathlib.Data.List.Forall2

/-!
The terms of a selector. They stand between the commas outside parentheses, and each is read by
itself: a selector is read exactly if every term of its text is.
-/
namespace FleetRegistry

theorem Outcome.mapM_eq_ok {ε α β : Type} {f : α → Except ε β} {inputs : List α}
    {results : List β} :
    inputs.mapM f = .ok results ↔ List.Forall₂ (fun a b => f a = .ok b) inputs results := by
  induction inputs generalizing results with
  | nil => cases results <;> simp [pure, Except.pure]
  | cons a inputs ih =>
    rw [List.mapM_cons]
    cases first : f a with
    | error => cases results <;> simp [bind, Except.bind, first]
    | ok b =>
      cases later : inputs.mapM f with
      | error => cases results <;> simp [bind, Except.bind, first, ← ih, later]
      | ok others =>
        cases results <;> simp [bind, pure, Except.bind, Except.pure, first, ← ih, later]

theorem forall_mem_of_forall₂ {α β : Type} {R : α → β → Prop} {p : β → Prop} {inputs : List α}
    {results : List β} (read : List.Forall₂ R inputs results)
    (each : ∀ a ∈ inputs, ∀ b, R a b → p b) : ∀ b ∈ results, p b := by
  induction read with
  | nil => exact nofun
  | cons first _ ih =>
    have ⟨here, later⟩ := List.forall_mem_cons.1 each
    exact List.forall_mem_cons.2 ⟨here _ first, ih later⟩

theorem Outcome.mapError_eq_ok {ε ε' α : Type} {outcome : Except ε α} {f : ε → ε'} {a : α} :
    outcome.mapError f = .ok a ↔ outcome = .ok a := by
  cases outcome <;> simp [Except.mapError]

namespace LabelSelector

/-! ## Texts that are not split -/

def Unsplit (term : List Char) : Prop :=
  ∀ whole current rest,
    splitTerms whole current 0 (term ++ rest) = splitTerms whole (term.reverse ++ current) 0 rest

def Uncut (s : List Char) : Prop := ∀ c ∈ s, c ≠ '(' ∧ c ≠ ')' ∧ c ≠ ','

theorem Uncut.unsplit {s : List Char} (uncut : Uncut s) : Unsplit s := by
  intro whole current rest
  induction s generalizing current with
  | nil => rfl
  | cons c s ih =>
    obtain ⟨⟨opening, closing, comma⟩, uncut⟩ := List.forall_mem_cons.1 uncut
    simp [splitTerms, opening, closing, comma, ih uncut]

theorem Unsplit.append {s t : List Char} (first : Unsplit s) (second : Unsplit t) :
    Unsplit (s ++ t) := by
  intro whole current rest
  rw [List.append_assoc, first, second, List.reverse_append, List.append_assoc]

theorem unsplit_parentheses {inside : List Char} (flat : ∀ c ∈ inside, c ≠ '(' ∧ c ≠ ')') :
    Unsplit ('(' :: inside ++ [')']) := by
  have within (whole current rest : List Char) :
      splitTerms whole current 1 (inside ++ ')' :: rest)
        = splitTerms whole (')' :: (inside.reverse ++ current)) 0 rest := by
    induction inside generalizing current with
    | nil => simp [splitTerms]
    | cons c inside ih =>
      obtain ⟨⟨opening, closing⟩, flat⟩ := List.forall_mem_cons.1 flat
      simp [splitTerms, opening, closing, ih flat]
  intro whole current rest
  simp [splitTerms, within]

theorem splitTerms_intercalate {texts : List (List Char)} (unsplit : ∀ text ∈ texts, Unsplit text)
    (some : texts ≠ []) (whole : List Char) :
    splitTerms whole [] 0 ([','].intercalate texts) = .ok texts := by
  induction texts with
  | nil => exact absurd rfl some
  | cons text others ih =>
    have ⟨first, later⟩ := List.forall_mem_cons.1 unsplit
    cases others with
    | nil =>
      have split := first whole [] []
      rw [List.append_nil, List.append_nil] at split
      rw [List.intercalate_singleton, split, splitTerms, if_pos rfl, List.reverse_reverse]
    | cons next others =>
      have tail := ih later (List.cons_ne_nil next others)
      rw [List.intercalate_cons_cons, List.append_assoc, first]
      simp [splitTerms, tail, Except.map]

theorem intercalate_splitTerms {whole current s : List Char} {depth : Nat}
    {parts : List (List Char)} (split : splitTerms whole current depth s = .ok parts) :
    [','].intercalate parts = current.reverse ++ s := by
  fun_induction splitTerms whole current depth s generalizing parts with
  | case1 => cases split; simp
  | case2 => cases split
  | case3 current depth rest ih => simpa using ih split
  | case4 => cases split
  | case5 current rest depth other ih => simpa using ih split
  | case6 current depth c rest notOpening notClosing comma ih =>
    cases later : splitTerms whole [] depth rest with
    | error fault => simp [later, Except.map] at split
    | ok others =>
      rw [later] at split
      obtain rfl := Except.ok.inj split
      have joined : [','].intercalate others = rest := ih later
      obtain ⟨rfl, rfl⟩ := comma
      cases others with
      | nil =>
        -- Even an empty rest is a piece.
        obtain rfl : rest = [] := joined.symm
        simp [splitTerms] at later
      | cons next others => rw [List.intercalate_cons_cons, joined, List.append_assoc]; rfl
  | case7 current depth c rest notOpening notClosing inside ih => simpa using ih split

/-! ## Reading term by term -/

theorem terms_eq_ok {s : List Char} {out : List (List Char)} :
    terms s = .ok out
      ↔ ∃ parts, splitTerms s [] 0 s = .ok parts
        ∧ (parts.map Text.trim = [[]] ∧ out = [] ∨ parts.map Text.trim = out ∧ [] ∉ out) := by
  unfold terms
  refine Outcome.bind_eq_ok.trans (exists_congr fun parts => and_congr_right fun _ => ?_)
  by_cases blank : parts.map Text.trim = [[]]
  · simp only [blank, ↓reduceIte, true_and]
    constructor
    · exact fun none => .inl (Except.ok.inj none).symm
    · rintro (rfl | ⟨rfl, some⟩)
      · rfl
      · exact absurd (List.mem_singleton_self _) some
  · simp only [blank, ↓reduceIte, false_and, false_or]
    cases empty : (parts.map Text.trim).findIdx? List.isEmpty with
    | none =>
      have some : [] ∉ parts.map Text.trim := fun mem => by
        simpa using List.findIdx?_eq_none_iff.1 empty [] mem
      constructor
      · exact fun same => Except.ok.inj same ▸ ⟨rfl, some⟩
      · exact fun same => congrArg Except.ok same.1
    | some position =>
      refine iff_of_false nofun ?_
      rintro ⟨rfl, some⟩
      have found : (parts.map Text.trim).any List.isEmpty := by
        rw [← List.findIdx?_isSome, empty]
        rfl
      exact some (by simpa using found)

theorem requirement_nil (r : Requirement) : requirement [] ≠ .ok r := nofun

theorem parse_eq_ok {text : String} {s : LabelSelector} :
    parse text = .ok s
      ↔ Text.Blank text.toList ∧ s = everything
        ∨ ∃ parts, splitTerms text.toList [] 0 text.toList = .ok parts
          ∧ List.Forall₂ (fun part r => requirement (Text.trim part) = .ok r)
            parts s.requirements := by
  have read : parse text = .ok s
      ↔ ∃ out, terms text.toList = .ok out
        ∧ List.Forall₂ (fun term r => requirement term = .ok r) out s.requirements := by
    refine Outcome.bind_eq_ok.trans (exists_congr fun out => and_congr Outcome.mapError_eq_ok ?_)
    refine Outcome.bind_eq_ok.trans ?_
    simp only [Outcome.mapM_eq_ok]
    constructor
    · rintro ⟨requirements, read, eq⟩
      cases eq
      exact read
    · exact fun read => ⟨s.requirements, read, rfl⟩
  rw [read]
  constructor
  · rintro ⟨out, eq, read⟩
    obtain ⟨parts, split, ⟨blank, rfl⟩ | ⟨rfl, -⟩⟩ := terms_eq_ok.1 eq
    · left
      obtain ⟨part, rfl, none⟩ := List.map_eq_singleton_iff.1 blank
      have whole := intercalate_splitTerms split
      rw [List.intercalate_singleton, List.reverse_nil, List.nil_append] at whole
      refine ⟨whole ▸ Text.trim_eq_nil.1 none, ?_⟩
      exact congrArg LabelSelector.mk (List.forall₂_nil_left_iff.1 read)
    · exact .inr ⟨parts, split, List.forall₂_map_left_iff.1 read⟩
  · rintro (⟨blank, rfl⟩ | ⟨parts, split, read⟩)
    · have uncut : Uncut text.toList := fun c mem => by
        refine ⟨?_, ?_, ?_⟩ <;> rintro rfl <;> exact absurd (blank _ mem) (by decide)
      have split := splitTerms_intercalate
        (fun _ mem => List.mem_singleton.1 mem ▸ uncut.unsplit) (List.cons_ne_nil text.toList [])
        text.toList
      rw [List.intercalate_singleton] at split
      have none : [text.toList].map Text.trim = [[]] := by simp [Text.trim_eq_nil.2 blank]
      exact ⟨[], terms_eq_ok.2 ⟨_, split, .inl ⟨none, rfl⟩⟩, .nil⟩
    · refine ⟨parts.map Text.trim, terms_eq_ok.2 ⟨parts, split, .inr ⟨rfl, ?_⟩⟩,
        List.forall₂_map_left_iff.2 read⟩
      intro mem
      obtain ⟨part, mem, none⟩ := List.mem_map.1 mem
      have nonblank (part : List Char) (r : Requirement)
          (read : requirement (Text.trim part) = .ok r) :
          Text.trim part ≠ [] ∧ requirement (Text.trim part) = .ok r :=
        ⟨fun none => requirement_nil r (none ▸ read), read⟩
      exact ((List.forall₂_and_left _ _).1 (read.imp nonblank)).1 part mem none

end LabelSelector

end FleetRegistry

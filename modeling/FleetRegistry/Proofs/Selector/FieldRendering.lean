import FleetRegistry.Proofs.Selector.Terms
import FleetRegistry.Selector.Field

/-!
Field selectors and their written form. An inequality is always read back as it was. An equality
has a single equals sign between its field and its value, so it is read back exactly if that sign
is the first place where the text can be cut: fields and values that were read may themselves hold
equals signs and exclamation marks, and nothing marks these as text.
-/
namespace FleetRegistry

open Text

namespace FieldRequirement

/-- What is true of every comparison that was read from a text. -/
structure Proper (r : FieldRequirement) : Prop where
  named : r.field.toList ≠ []
  field_trimmed : trim r.field.toList = r.field.toList
  value_trimmed : trim r.value.toList = r.value.toList
  field_whole : ',' ∉ r.field.toList
  value_whole : ',' ∉ r.value.toList
  field_apart : NoPair '!' '=' r.field.toList
  /-- Behind an equality stands no inequality, which would have counted before it. -/
  value_apart : r.negated = false → NoPair '!' '=' r.value.toList

/-- The written form can be cut at its own sign only. -/
def Legible (r : FieldRequirement) : Prop :=
  r.negated = true
    ∨ '=' ∉ r.field.toList ∧ r.field.toList.getLast? ≠ some '!'
      ∧ NoPair '=' '=' ('=' :: r.value.toList)

instance (r : FieldRequirement) : Decidable r.Legible :=
  inferInstanceAs (Decidable (_ ∨ _))

def sign (r : FieldRequirement) : List Char := if r.negated then ['!', '='] else ['=']

theorem toList_text (r : FieldRequirement) :
    r.text.toList = r.field.toList ++ r.sign ++ r.value.toList := by
  unfold text sign
  split <;> simp

theorem Proper.whole {r : FieldRequirement} (proper : r.Proper) : ',' ∉ r.text.toList := by
  have sign : ',' ∉ r.sign := by
    unfold sign
    split <;> decide
  rw [toList_text]
  simp [proper.field_whole, proper.value_whole, sign]

theorem Proper.text_trimmed {r : FieldRequirement} (proper : r.Proper) :
    trim r.text.toList = r.text.toList := by
  have field := (trim_eq_self_iff.1 proper.field_trimmed).1
  have value := (trim_eq_self_iff.1 proper.value_trimmed).2
  have ⟨front, eq⟩ : ∃ front, r.sign = front ++ ['='] := by
    unfold sign
    split
    · exact ⟨['!'], rfl⟩
    · exact ⟨[], rfl⟩
  rw [toList_text, trim_eq_self_iff]
  constructor
  · intro c head
    rw [List.append_assoc, List.head?_append_of_ne_nil _ proper.named] at head
    exact field c head
  · intro c last
    cases written : r.value.toList with
    | nil =>
      rw [written, List.append_nil, eq, ← List.append_assoc, List.getLast?_concat] at last
      cases last
      decide
    | cons d rest =>
      rw [written, List.getLast?_append_of_ne_nil _ (List.cons_ne_nil d rest)] at last
      exact value c (written ▸ last)

end FieldRequirement

namespace FieldSelector

/-! ## Reading a comparison -/

theorem cutComparison_eq_some {term field value : List Char} {negated : Bool} :
    cutComparison term = some (field, negated, value)
      ↔ negated = true ∧ term = field ++ '!' :: '=' :: value ∧ NoPair '!' '=' (field ++ ['!'])
        ∨ negated = false ∧ NoPair '!' '=' term
          ∧ (term = field ++ '=' :: '=' :: value ∧ NoPair '=' '=' (field ++ ['='])
            ∨ NoPair '=' '=' term ∧ term = field ++ '=' :: value ∧ '=' ∉ field) := by
  rw [← cutFirstPair_eq_some, ← cutFirstPair_eq_some, ← cutFirst_eq_some,
    ← cutFirstPair_eq_none, ← cutFirstPair_eq_none]
  unfold cutComparison
  cases unequal : cutFirstPair '!' '=' term with
  | some parts => simp [Prod.ext_iff, and_left_comm, eq_comm]
  | none =>
    cases doubled : cutFirstPair '=' '=' term with
    | some parts => simp [Prod.ext_iff, and_left_comm, eq_comm]
    | none =>
      cases cutFirst '=' term with
      | some parts => simp [Prod.ext_iff, and_left_comm, eq_comm]
      | none => simp

theorem requirement_eq_ok {whole : String} {term : List Char} {r : FieldRequirement} :
    requirement whole term = .ok r
      ↔ ∃ field value, cutComparison term = some (field, r.negated, value) ∧ trim field ≠ []
        ∧ r.field.toList = trim field ∧ r.value.toList = trim value := by
  unfold requirement
  split
  next none =>
    refine iff_of_false nofun ?_
    rintro ⟨field, value, cut, -⟩
    rw [List.isEmpty_iff.1 none] at cut
    cases cut
  next =>
    split
    next none => simp [none]
    next field negated value cut =>
      simp only [cut, Option.some.injEq, Prod.mk.injEq]
      split
      next none =>
        refine iff_of_false nofun ?_
        rintro ⟨_, _, ⟨rfl, -, -⟩, some, -⟩
        exact some (List.isEmpty_iff.1 none)
      next some =>
        constructor
        · intro eq
          cases eq
          exact ⟨field, value, ⟨rfl, rfl, rfl⟩, by simpa using some, by simp, by simp⟩
        · rintro ⟨_, _, ⟨rfl, rfl, rfl⟩, -, eq, eq'⟩
          rw [← eq, ← eq', String.ofList_toList, String.ofList_toList]

theorem proper_of_requirement {whole : String} {term : List Char} {r : FieldRequirement}
    (one : ',' ∉ term) (read : requirement whole term = .ok r) : r.Proper := by
  obtain ⟨field, value, cut, named, eq, eq'⟩ := requirement_eq_ok.1 read
  have kept {part : List Char} (within : part <:+: term) : ',' ∉ trim part := fun mem =>
    one (within.subset ((trim_within part).subset mem))
  have ⟨field_within, value_within, field_apart, value_apart⟩ :
      field <:+: term ∧ value <:+: term ∧ NoPair '!' '=' field
        ∧ (r.negated = false → NoPair '!' '=' value) := by
    obtain ⟨negated, rfl, apart⟩ | ⟨-, apart, ⟨rfl, -⟩ | ⟨-, rfl, -⟩⟩ := cutComparison_eq_some.1 cut
    · exact ⟨⟨[], _, rfl⟩, ⟨field ++ ['!', '='], [], by simp⟩, apart.within ⟨[], ['!'], rfl⟩,
        fun equal => absurd equal (by simp [negated])⟩
    · have field_within : field <:+: field ++ '=' :: '=' :: value := ⟨[], _, rfl⟩
      have value_within : value <:+: field ++ '=' :: '=' :: value :=
        ⟨field ++ ['=', '='], [], by simp⟩
      exact ⟨field_within, value_within, apart.within field_within,
        fun _ => apart.within value_within⟩
    · have field_within : field <:+: field ++ '=' :: value := ⟨[], _, rfl⟩
      have value_within : value <:+: field ++ '=' :: value := ⟨field ++ ['='], [], by simp⟩
      exact ⟨field_within, value_within, apart.within field_within,
        fun _ => apart.within value_within⟩
  exact {
    named := by rwa [eq]
    field_trimmed := by rw [eq, trim_trim]
    value_trimmed := by rw [eq', trim_trim]
    field_whole := by rw [eq]; exact kept field_within
    value_whole := by rw [eq']; exact kept value_within
    field_apart := by rw [eq]; exact field_apart.within (trim_within field)
    value_apart := fun equal => by rw [eq']; exact (value_apart equal).within (trim_within value) }

theorem requirement_text_iff {whole : String} {r : FieldRequirement} (proper : r.Proper) :
    requirement whole r.text.toList = .ok r ↔ r.Legible := by
  have named : trim r.field.toList ≠ [] := by
    rw [proper.field_trimmed]
    exact proper.named
  have own_cut
      (cut : cutComparison r.text.toList = some (r.field.toList, r.negated, r.value.toList)) :
      requirement whole r.text.toList = .ok r :=
    requirement_eq_ok.2
      ⟨_, _, cut, named, proper.field_trimmed.symm, proper.value_trimmed.symm⟩
  have written := r.toList_text
  cases negated : r.negated with
  | true =>
    simp only [FieldRequirement.sign, negated, ↓reduceIte, List.append_assoc] at written
    refine iff_of_true (own_cut ?_) (.inl negated)
    refine cutComparison_eq_some.2 (.inl ⟨negated, written, ?_⟩)
    exact noPair_append.2 ⟨proper.field_apart, .singleton _, by simp⟩
  | false =>
    simp only [FieldRequirement.sign, negated, Bool.false_eq_true, ↓reduceIte, List.append_assoc,
      List.singleton_append] at written
    constructor
    · intro read
      right
      obtain ⟨field, value, cut, -, eq, eq'⟩ := requirement_eq_ok.1 read
      rcases cutComparison_eq_some.1 cut with ⟨unequal, -⟩ | ⟨-, apart, doubled | ⟨once, single⟩⟩
      · rw [negated] at unequal
        cases unequal
      · -- A doubled sign leaves too few characters for the field and the value.
        have lengths := congrArg List.length (written.symm.trans doubled.1)
        simp only [List.length_append, List.length_cons] at lengths
        have shorter : r.field.toList.length ≤ field.length := eq ▸ length_trim_le field
        have shorter' : r.value.toList.length ≤ value.length := eq' ▸ length_trim_le value
        omega
      · have none : '=' ∉ r.field.toList := fun mem =>
          single.2 ((trim_within field).subset (eq ▸ mem))
        rw [written] at apart once
        refine ⟨none, fun last => ?_, (noPair_append.1 once).2.1⟩
        exact (noPair_append.1 apart).2.2 ⟨last, rfl⟩
    · rintro (unequal | ⟨none, last, once⟩)
      · rw [negated] at unequal
        cases unequal
      · refine own_cut (cutComparison_eq_some.2 (.inr ⟨negated, ?_, .inr ⟨?_, written, none⟩⟩))
        · have value := proper.value_apart negated
          rw [written]
          exact noPair_append.2
            ⟨proper.field_apart, noPair_cons.2 ⟨by simp, value⟩, fun pair => last pair.1⟩
        · rw [written]
          refine noPair_append.2 ⟨.of_not_mem none, once, fun pair => none ?_⟩
          exact List.mem_of_getLast? pair.1

/-! ## Reading a selector -/

theorem parse_eq_ok {text : String} {s : FieldSelector} :
    parse text = .ok s
      ↔ Blank text.toList ∧ s = everything
        ∨ List.Forall₂ (fun part r => requirement text (trim part) = .ok r)
            (pieces ',' text.toList) s.requirements := by
  have blank_iff : isBlankText text = true ↔ Blank text.toList := List.all_eq_true
  unfold parse
  split
  next blank =>
    have blank := blank_iff.1 blank
    have one : ',' ∉ text.toList := fun mem => absurd (blank _ mem) (by decide)
    rw [pieces_of_not_mem one, List.forall₂_cons_left_iff]
    simp only [trim_eq_nil.2 blank]
    constructor
    · exact fun same => .inl ⟨blank, (Except.ok.inj same).symm⟩
    · rintro (⟨-, rfl⟩ | ⟨r, rest, read, -⟩)
      · rfl
      · cases read
  next some =>
    have read_iff : List.Forall₂ (fun part r => requirement text (trim part) = .ok r)
          (pieces ',' text.toList) s.requirements
        ↔ ((pieces ',' text.toList).map trim).mapM (requirement text) = .ok s.requirements := by
      rw [Outcome.mapM_eq_ok, List.forall₂_map_left_iff]
    rw [blank_iff] at some
    rw [read_iff]
    dsimp only
    split
    next requirements read =>
      cases s
      simp [some, read]
    next fault read => simp [some, read]

/-- A selector that was read is read back from its written form exactly if all its comparisons are
legible. -/
theorem reads_back_iff {text : String} {s : FieldSelector} (accepted : parse text = .ok s) :
    parse s.text = .ok s ↔ ∀ r ∈ s.requirements, r.Legible := by
  rcases parse_eq_ok.1 accepted with ⟨-, rfl⟩ | read
  · exact iff_of_true rfl nofun
  have proper : ∀ r ∈ s.requirements, r.Proper :=
    forall_mem_of_forall₂ read fun part mem r read =>
      proper_of_requirement
        (fun comma => not_mem_of_mem_pieces mem ((trim_within part).subset comma)) read
  cases written : s.requirements with
  | nil =>
    obtain ⟨requirements⟩ := s
    obtain rfl : requirements = [] := written
    exact iff_of_true rfl nofun
  | cons first others =>
    have split : pieces ',' s.text.toList = s.requirements.map (·.text.toList) := by
      rw [FieldSelector.text, String.toList_intercalate, List.map_map]
      refine pieces_intercalate ?_ (by simp [written])
      exact List.forall_mem_map.2 fun r mem => (proper r mem).whole
    have some : s ≠ everything := fun none => by
      rw [none] at written
      cases written
    rw [parse_eq_ok, split, List.forall₂_map_left_iff, List.forall₂_same, ← written]
    constructor
    · rintro (⟨-, none⟩ | read) r mem
      · exact absurd none some
      · have again := read r mem
        rw [(proper r mem).text_trimmed] at again
        exact (requirement_text_iff (proper r mem)).1 again
    · refine fun legible => .inr fun r mem => ?_
      rw [(proper r mem).text_trimmed]
      exact (requirement_text_iff (proper r mem)).2 (legible r mem)

theorem reads_back_iff_inequality :
    let s : FieldSelector := ⟨[⟨"metadata.name", false, "x"⟩, ⟨"spec.note", true, "y==z"⟩]⟩
    parse " metadata.name == x , spec.note!=y==z" = .ok s ∧ parse s.text = .ok s := by
  intro s
  have accepted : parse " metadata.name == x , spec.note!=y==z" = .ok s := by decide +kernel
  exact ⟨accepted, (reads_back_iff accepted).2 (by decide +kernel)⟩

/-- A value that begins with an equals sign loses it on the way, a field may end at an earlier
sign or become negated, and a field that is an equals sign makes a text that is refused. -/
theorem written_equals_signs :
    parse "a===b" = .ok (ofField "a" "=b") ∧ parse (ofField "a" "=b").text = .ok (ofField "a" "b")
      ∧ parse "a=b==c" = .ok (ofField "a=b" "c")
      ∧ parse (ofField "a=b" "c").text = .ok (ofField "a" "b=c")
      ∧ parse "a! =b" = .ok (ofField "a!" "b")
      ∧ parse (ofField "a!" "b").text = .ok ⟨[⟨"a", true, "b"⟩]⟩
      ∧ parse "= ==b" = .ok (ofField "=" "b")
      ∧ parse (ofField "=" "b").text = .error (.malformed (.emptyField "==b")) := by
  decide +kernel

end FieldSelector

end FleetRegistry

import FleetRegistry.Proofs.Selector.Spelling

/-!
Label selectors and the text they are written as. The text of a requirement is one of its
spellings, so what was read from a text is read back. A requirement made otherwise may list the
empty value, which reads as an entry left out: it comes back without that value, and not at all if
it lists nothing else.
-/
namespace FleetRegistry

open Text

namespace StringSet

def without (set : StringSet) (text : String) : StringSet :=
  ⟨set.elements.filter (· ≠ text), set.ascending.filter _⟩

@[simp] theorem mem_without {set : StringSet} {text other : String} :
    other ∈ set.without text ↔ other ∈ set ∧ other ≠ text := by
  change other ∈ set.elements.filter (· ≠ text) ↔ other ∈ set.elements ∧ _
  simp

end StringSet

namespace Requirement

/-- The requirement without the empty value in its list. -/
def withoutEmpty (r : Requirement) : Requirement :=
  match r.operator with
  | .isIn | .notIn => { r with values := r.values.without "" }
  | _ => r

def Readable (r : Requirement) : Prop :=
  r.operator = .isIn ∨ r.operator = .notIn → ∃ value ∈ r.values, value ≠ ""

variable {r : Requirement}

@[simp] theorem withoutEmpty_operator : r.withoutEmpty.operator = r.operator := by
  unfold withoutEmpty
  split <;> rfl

theorem withoutEmpty_of_list (lists : r.operator = .isIn ∨ r.operator = .notIn) :
    r.withoutEmpty = { r with values := r.values.without "" } := by
  unfold withoutEmpty
  rcases lists with eq | eq <;> rw [eq]

theorem withoutEmpty_of_not_list (other : ¬(r.operator = .isIn ∨ r.operator = .notIn)) :
    r.withoutEmpty = r := by
  unfold withoutEmpty
  split <;> simp_all

theorem withoutEmpty_eq_self_iff : r.withoutEmpty = r ↔ r.Full := by
  by_cases lists : r.operator = .isIn ∨ r.operator = .notIn
  · rw [withoutEmpty_of_list lists]
    constructor
    · intro same _ mem
      have values : r.values.without "" = r.values := congrArg Requirement.values same
      rw [← values] at mem
      exact (StringSet.mem_without.1 mem).2 rfl
    · intro full
      have values : r.values.without "" = r.values := StringSet.ext_mem fun value => by
        refine StringSet.mem_without.trans (and_iff_left_of_imp ?_)
        rintro mem rfl
        exact full lists mem
      rw [values]
  · exact iff_of_true (withoutEmpty_of_not_list lists) fun other => absurd other lists

theorem full_withoutEmpty (r : Requirement) : r.withoutEmpty.Full := by
  intro lists
  rw [withoutEmpty_operator] at lists
  rw [withoutEmpty_of_list lists]
  simp

theorem Made.withoutEmpty_iff (made : r.Made) : r.withoutEmpty.Made ↔ r.Readable := by
  constructor
  · intro made' lists
    have some := made'.some_value (by rwa [withoutEmpty_operator])
    obtain ⟨value, mem⟩ := List.exists_mem_of_ne_nil _ some
    rw [withoutEmpty_of_list lists] at mem
    exact ⟨value, StringSet.mem_without.1 mem⟩
  · intro readable
    by_cases lists : r.operator = .isIn ∨ r.operator = .notIn
    · have ⟨sound, _, valid⟩ := made_iff.1 made
      obtain ⟨value, here⟩ := readable lists
      have some : (r.values.without "").elements ≠ [] :=
        List.ne_nil_of_mem (StringSet.mem_without.2 here)
      rw [withoutEmpty_of_list lists]
      refine made_iff.2 ⟨sound, ?_, fun value mem => valid value (StringSet.mem_without.1 mem).1⟩
      rcases lists with eq | eq <;> simp [arityFault?, eq, StringSet.size, some]
    · rwa [withoutEmpty_of_not_list lists]

theorem Made.readable (made : r.Made) (full : r.Full) : r.Readable :=
  made.withoutEmpty_iff.1 ((withoutEmpty_eq_self_iff.2 full).symm ▸ made)

/-! ## The text of a requirement -/

theorem lists_elements (r : Requirement) : r.Lists (r.values.elements.map String.toList) := by
  constructor
  · intro entry mem
    obtain ⟨value, value_mem, rfl⟩ := List.mem_map.1 mem
    exact .inr ⟨value, value_mem, .refl _⟩
  · exact fun value mem => ⟨_, List.mem_map_of_mem mem, .refl _⟩

theorem toList_text_of_list (lists : r.operator = .isIn ∨ r.operator = .notIn) :
    ∃ word ∈ r.operator.words, r.text.toList = r.key.toList ++ [' '] ++ word ++ [' ']
      ++ ('(' :: [','].intercalate (r.values.elements.map String.toList) ++ [')']) := by
  rcases lists with eq | eq
  · exact ⟨['i', 'n'], by simp [eq, LabelOperator.words], by simp [text, eq]⟩
  · exact ⟨['n', 'o', 't', 'i', 'n'], by simp [eq, LabelOperator.words], by simp [text, eq]⟩

theorem toList_text_of_comparison (compares : r.operator = .equals ∨ r.operator = .notEquals) :
    ∃ sign ∈ r.operator.signs,
      r.text.toList = r.key.toList ++ sign ++ (",".intercalate r.values.elements).toList := by
  rcases compares with eq | eq
  · exact ⟨['='], by simp [eq, LabelOperator.signs], by simp [text, eq]⟩
  · exact ⟨['!', '='], by simp [eq, LabelOperator.signs], by simp [text, eq]⟩

theorem blank_space : Blank [' '] := List.forall_mem_singleton.2 rfl

theorem Made.spelled_text (made : r.Made) : r.Spelled r.text.toList := by
  have comparison (compares : r.operator = .equals ∨ r.operator = .notEquals) :
      r.Spelled r.text.toList := by
    obtain ⟨sign, mem, written⟩ := toList_text_of_comparison compares
    obtain ⟨value, one⟩ := made.one_value compares
    rw [written, one, String.intercalate_singleton]
    exact .comparison one mem (.refl _) (.refl _)
  have list (lists : r.operator = .isIn ∨ r.operator = .notIn) : r.Spelled r.text.toList := by
    obtain ⟨word, mem, written⟩ := toList_text_of_list lists
    rw [written]
    exact .list (lists_elements r) mem (.refl _) blank_space (List.cons_ne_nil ' ' []) blank_space
  cases eq : r.operator with
  | equals => exact comparison (.inl eq)
  | notEquals => exact comparison (.inr eq)
  | isIn => exact list (.inl eq)
  | notIn => exact list (.inr eq)
  | exists_ =>
    have written : r.text = r.key := by simp [text, eq]
    rw [written]
    exact .exists_ eq
  | doesNotExist =>
    have written : r.text.toList = '!' :: r.key.toList := by simp [text, eq]
    rw [written]
    exact .doesNotExist eq (.refl _)

theorem Lists.withoutEmpty {entries : List (List Char)} (lists : r.Lists entries) :
    Lists { r with values := r.values.without "" } entries := by
  refine ⟨fun entry mem => ?_, fun value mem => lists.2 value (StringSet.mem_without.1 mem).1⟩
  rcases lists.1 entry mem with blank | ⟨value, value_mem, padded⟩
  · exact .inl blank
  · by_cases none : value = ""
    · subst none
      exact .inl (trim_eq_nil.1 padded.trim_eq)
    · exact .inr ⟨value, StringSet.mem_without.2 ⟨value_mem, none⟩, padded⟩

theorem Spelled.withoutEmpty {s : List Char} (spelled : r.Spelled s) :
    r.withoutEmpty.Spelled s := by
  by_cases list : r.operator = .isIn ∨ r.operator = .notIn
  · rw [withoutEmpty_of_list list]
    induction spelled with
    | comparison one operator => rcases list with eq | eq <;> rw [eq] at operator <;> cases operator
    | list lists operator key blank apart blank' =>
      exact .list lists.withoutEmpty operator key blank apart blank'
    | exists_ operator => exact .exists_ operator
    | doesNotExist operator key => exact .doesNotExist operator key
    | padded spelled padded ih => exact ih.padded padded
  · rwa [withoutEmpty_of_not_list list]

theorem Made.text_not_blank (made : r.Made) : ¬Blank r.text.toList := by
  intro blank
  have ⟨named, chars⟩ := made.key_chars
  obtain ⟨c, mem⟩ := List.exists_mem_of_ne_nil _ named
  have within : c ∈ r.text.toList := by
    unfold text
    split <;> simp [mem]
  have plain := Name.not_blank_of_keyChar (chars c mem)
  rw [blank c within] at plain
  cases plain

theorem Made.requirement_text_iff (made : r.Made) {r' : Requirement} :
    LabelSelector.requirement (trim r.text.toList) = .ok r' ↔ r.Readable ∧ r' = r.withoutEmpty := by
  have reads (readable : r.Readable) :
      LabelSelector.requirement (trim r.text.toList) = .ok r.withoutEmpty :=
    LabelSelector.requirement_of_spelled (made.withoutEmpty_iff.2 readable) (full_withoutEmpty r)
      made.spelled_text.withoutEmpty
  constructor
  · intro read
    have readable : r.Readable := by
      intro lists
      obtain ⟨word, mem, written⟩ := toList_text_of_list lists
      rw [written,
        LabelSelector.requirement_of_list made (lists_elements r) mem (.refl _) blank_space
        (List.cons_ne_nil ' ' []) blank_space] at read
      obtain ⟨rfl, -⟩ := make_eq_ok.1 read
      obtain ⟨value, shown⟩ :=
        List.exists_mem_of_ne_nil _ (Made.some_value ⟨_, _, _, read⟩ lists)
      exact ⟨value, (LabelSelector.mem_listed made (lists_elements r) value).1
        (StringSet.mem_ofList.1 shown)⟩
    exact ⟨readable, Except.ok.inj (read.symm.trans (reads readable))⟩
  · rintro ⟨readable, rfl⟩
    exact reads readable

end Requirement

namespace LabelSelector

/-! ## The text of a selector -/

/-- The selector without the empty values in its lists. -/
def withoutEmpty (s : LabelSelector) : LabelSelector := ⟨s.requirements.map (·.withoutEmpty)⟩

variable {s : LabelSelector}

theorem toList_text (s : LabelSelector) :
    s.text.toList = [','].intercalate (s.requirements.map (·.text.toList)) := by
  rw [text, String.toList_intercalate, List.map_map]
  rfl

theorem spelled_text (made : ∀ r ∈ s.requirements, r.Made) : s.Spelled s.text.toList := by
  refine .inr ⟨s.requirements.map (·.text.toList), ?_, ?_⟩
  · exact List.forall₂_map_right_iff.2 (List.forall₂_same.2 fun r mem => (made r mem).spelled_text)
  · exact toList_text s

/-- Every spelling of a selector is read as that selector and nothing else is; the text of a
selector that was read is such a spelling. -/
theorem text_syntax (s : LabelSelector) (text : String) :
    (parse text = .ok s
        ↔ (∀ r ∈ s.requirements, r.Made ∧ r.Full) ∧ s.Spelled text.toList)
      ∧ (parse text = .ok s → parse s.text = .ok s) := by
  refine ⟨parse_iff_spelled, fun read => ?_⟩
  have sound := (parse_iff_spelled.1 read).1
  exact parse_iff_spelled.2 ⟨sound, spelled_text fun r mem => (sound r mem).1⟩

theorem text_not_blank (made : ∀ r ∈ s.requirements, r.Made) (some : s.requirements ≠ []) :
    ¬Blank s.text.toList := by
  intro blank
  obtain ⟨r, mem⟩ := List.exists_mem_of_ne_nil _ some
  refine (made r mem).text_not_blank fun c within => blank c ?_
  rw [toList_text]
  exact mem_intercalate_of_mem (List.mem_map_of_mem mem) within

theorem eq_withoutEmpty_iff {s' : LabelSelector} :
    s' = s.withoutEmpty
      ↔ List.Forall₂ (fun r r' => r' = r.withoutEmpty) s.requirements s'.requirements := by
  have selected : s' = s.withoutEmpty
      ↔ s.requirements.map (·.withoutEmpty) = s'.requirements := by
    cases s'
    simp [withoutEmpty, eq_comm]
  rw [selected, ← List.forall₂_eq_eq_eq, List.forall₂_map_left_iff]
  simp only [eq_comm]

theorem text_syntax_padded :
    let text := " env  in( b ,, a,b ) ,! canary,\ttier == x,zone"
    let s : LabelSelector := ⟨[⟨"env", .isIn, .ofList ["a", "b"]⟩, ⟨"canary", .doesNotExist, .empty⟩,
      ⟨"tier", .equals, .ofList ["x"]⟩, ⟨"zone", .exists_, .empty⟩]⟩
    parse text = .ok s ∧ s.Spelled text.toList ∧ s.text = "env in (a,b),!canary,tier=x,zone"
      ∧ parse s.text = .ok s := by
  intro text s
  have accepted : parse text = .ok s := by decide +kernel
  have ⟨spellings, read_back⟩ := text_syntax s text
  exact ⟨accepted, (spellings.1 accepted).2, by decide +kernel, read_back accepted⟩

theorem parse_text_eq_ok (made : ∀ r ∈ s.requirements, r.Made) {s' : LabelSelector} :
    parse s.text = .ok s' ↔ (∀ r ∈ s.requirements, r.Readable) ∧ s' = s.withoutEmpty := by
  by_cases none : s.requirements = []
  · obtain ⟨requirements⟩ := s
    obtain rfl : requirements = [] := none
    constructor
    · exact fun read => ⟨nofun, (Except.ok.inj read).symm⟩
    · exact fun ⟨_, same⟩ => congrArg Except.ok same.symm
  · have unsplit : ∀ term ∈ s.requirements.map (·.text.toList), Unsplit term :=
      List.forall_mem_map.2 fun r mem => unsplit_of_spelled (made r mem) (made r mem).spelled_text
    have split := splitTerms_intercalate unsplit (by simpa using none) s.text.toList
    rw [← toList_text] at split
    rw [parse_eq_ok, split]
    simp only [text_not_blank made none, false_and, false_or, Except.ok.injEq, exists_eq_left',
      List.forall₂_map_left_iff]
    rw [eq_withoutEmpty_iff, ← List.forall₂_and_left]
    constructor
    · intro read
      exact ((List.forall₂_and_left _ _).2 ⟨made, read⟩).imp fun r r' read =>
        read.1.requirement_text_iff.1 read.2
    · intro read
      exact ((List.forall₂_and_left _ _).2 ⟨made, read⟩).imp fun r r' read =>
        read.1.requirement_text_iff.2 read.2

theorem eq_withoutEmpty_self_iff : s = s.withoutEmpty ↔ ∀ r ∈ s.requirements, r.Full := by
  rw [eq_withoutEmpty_iff, List.forall₂_same]
  exact forall₂_congr fun r _ => eq_comm.trans Requirement.withoutEmpty_eq_self_iff

end LabelSelector

/-! ## The labels that are matched -/

theorem Requirement.withoutEmpty_holds_iff {r : Requirement} {labels : StringMap} :
    r.withoutEmpty.holds labels = r.holds labels ↔ r.Full ∨ labels.get? r.key ≠ some "" := by
  by_cases list : r.operator = .isIn ∨ r.operator = .notIn
  · have full_iff : r.Full ↔ "" ∉ r.values := by simp [Full, list]
    have contains (value : String) :
        (r.values.without "").contains value = r.values.contains value
          ↔ "" ∉ r.values ∨ value ≠ "" := by
      rw [Bool.eq_iff_iff, StringSet.contains_iff, StringSet.contains_iff, StringSet.mem_without]
      by_cases empty : value = ""
      · subst empty
        simp
      · simp [empty]
    rw [withoutEmpty_of_list list, full_iff]
    unfold holds
    cases found : labels.get? r.key with
    | none => rcases list with eq | eq <;> simp [eq]
    | some value =>
      have := contains value
      rcases list with eq | eq <;> simpa [eq]
  · have full : r.Full := fun other => absurd other list
    rw [withoutEmpty_of_not_list list]
    exact iff_of_true rfl (.inl full)

namespace LabelSelector

variable {s : LabelSelector}

theorem withoutEmpty_holds {labels : StringMap}
    (other : ∀ r ∈ s.requirements, r.Full ∨ labels.get? r.key ≠ some "") :
    s.withoutEmpty.holds labels = s.holds labels := by
  unfold holds withoutEmpty
  rw [List.all_map, Bool.eq_iff_iff, List.all_eq_true, List.all_eq_true]
  refine forall₂_congr fun r mem => ?_
  rw [Function.comp_apply, Requirement.withoutEmpty_holds_iff.2 (other r mem)]

end LabelSelector

namespace StructuredSelector

theorem made_of_mapM {α : Type} {read : α → Except SelectorError Requirement} {inputs : List α}
    {requirements : List Requirement} (all : inputs.mapM read = .ok requirements)
    (each : ∀ input r, read input = .ok r → r.Made) : ∀ r ∈ requirements, r.Made :=
  forall_mem_of_forall₂ (Outcome.mapM_eq_ok.1 all) fun input _ => each input

theorem made_of_ofMap {map : StringMap} {s : LabelSelector}
    (accepted : LabelSelector.ofMap map = .ok s) : ∀ r ∈ s.requirements, r.Made := by
  obtain ⟨requirements, read, accepted⟩ := Outcome.bind_eq_ok.1 accepted
  cases accepted
  exact made_of_mapM read fun entry r made => ⟨_, _, _, made⟩

theorem made_of_requirement {expression : SelectorExpression} {r : Requirement}
    (accepted : requirement expression = .ok r) : r.Made := by
  unfold requirement at accepted
  split at accepted
  · cases accepted
  · exact ⟨_, _, _, accepted⟩

theorem made_of_toSelector {structured : StructuredSelector} {s : LabelSelector}
    (accepted : structured.toSelector = .ok s) : ∀ r ∈ s.requirements, r.Made := by
  have together {labels others : List Requirement} (labels_made : ∀ r ∈ labels, r.Made)
      (read : (structured.matchExpressions.getD []).mapM requirement = .ok others) :
      ∀ r ∈ labels ++ others, r.Made :=
    List.forall_mem_append.2 ⟨labels_made, made_of_mapM read fun _ _ => made_of_requirement⟩
  unfold toSelector at accepted
  dsimp only at accepted
  split at accepted
  next map given =>
    obtain ⟨labels, read, accepted⟩ := Outcome.bind_eq_ok.1 accepted
    obtain ⟨others, read', accepted⟩ := Outcome.bind_eq_ok.1 accepted
    cases accepted
    exact together (made_of_ofMap read) read'
  next =>
    obtain ⟨labels, everything, accepted⟩ := Outcome.bind_eq_ok.1 accepted
    cases everything
    obtain ⟨others, read', accepted⟩ := Outcome.bind_eq_ok.1 accepted
    cases accepted
    exact together nofun read'

/-- The text of a structured selector is read unless a list holds nothing but the empty value, and
what is read lacks the empty values of its lists. So it is the selector that was written exactly
if no list holds the empty value, and matches the same labels as long as these are not empty where
a list holds it. -/
theorem rendering_of_structured {structured : StructuredSelector} {s : LabelSelector}
    (accepted : structured.toSelector = .ok s) :
    ((∃ s', LabelSelector.parse s.text = .ok s') ↔ ∀ r ∈ s.requirements, r.Readable)
      ∧ (LabelSelector.parse s.text = .ok s ↔ ∀ r ∈ s.requirements, r.Full)
      ∧ ∀ s', LabelSelector.parse s.text = .ok s' →
        s' = s.withoutEmpty
        ∧ ∀ labels, (∀ r ∈ s.requirements, r.Full ∨ labels.get? r.key ≠ some "") →
          s'.holds labels = s.holds labels := by
  have made := made_of_toSelector accepted
  have read {s' : LabelSelector} : LabelSelector.parse s.text = .ok s'
      ↔ (∀ r ∈ s.requirements, r.Readable) ∧ s' = s.withoutEmpty :=
    LabelSelector.parse_text_eq_ok made
  refine ⟨?_, ?_, ?_⟩
  · constructor
    · exact fun ⟨s', parsed⟩ => (read.1 parsed).1
    · exact fun readable => ⟨_, read.2 ⟨readable, rfl⟩⟩
  · rw [read, LabelSelector.eq_withoutEmpty_self_iff]
    refine and_iff_right_of_imp fun full r mem => ?_
    exact (made r mem).readable (full r mem)
  · intro s' parsed
    obtain ⟨-, rfl⟩ := read.1 parsed
    exact ⟨rfl, fun labels => LabelSelector.withoutEmpty_holds⟩

theorem rendering_of_structured_labelled :
    let structured : StructuredSelector :=
      ⟨some (.ofList [("zone", ""), ("tier", "x")]), some [⟨"env", "NotIn", some ["b", "a"]⟩]⟩
    let s : LabelSelector :=
      ⟨[⟨"tier", .equals, .ofList ["x"]⟩, ⟨"zone", .equals, .ofList [""]⟩,
        ⟨"env", .notIn, .ofList ["a", "b"]⟩]⟩
    structured.toSelector = .ok s ∧ s.text = "tier=x,zone=,env notin (a,b)"
      ∧ LabelSelector.parse s.text = .ok s := by
  intro structured s
  have accepted : structured.toSelector = .ok s := by decide +kernel
  have full : ∀ r ∈ s.requirements, r.Full := by decide +kernel
  exact ⟨accepted, by decide +kernel, (rendering_of_structured accepted).2.1.2 full⟩

/-- A list that also holds the empty value comes back without it and no longer matches a label
that is empty; one that holds nothing else is refused. -/
theorem written_empty_values :
    let listing (values : List String) : StructuredSelector :=
      ⟨none, some [⟨"env", "In", some values⟩]⟩
    let selector (values : List String) : LabelSelector := ⟨[⟨"env", .isIn, .ofList values⟩]⟩
    let labels := StringMap.ofList [("env", "")]
    (listing ["", "a"]).toSelector = .ok (selector ["", "a"])
      ∧ (selector ["", "a"]).text = "env in (,a)"
      ∧ LabelSelector.parse "env in (,a)" = .ok (selector ["a"])
      ∧ (selector ["", "a"]).holds labels = true ∧ (selector ["a"]).holds labels = false
      ∧ (listing [""]).toSelector = .ok (selector [""])
      ∧ (selector [""]).text = "env in ()"
      ∧ LabelSelector.parse "env in ()" = .error (.malformed (.needsValues "env")) := by
  decide +kernel

end StructuredSelector

end FleetRegistry

import FleetRegistry.Proofs.Selector.Requirements
import FleetRegistry.Proofs.Selector.Terms

/-!
The written forms of label selectors. A requirement can be spelled in many ways: with blanks
around everything, with either sign of equality, with its values in any order, repeated and between
empty entries. Every spelling is read as the requirements it spells, and nothing else is read.
-/
namespace FleetRegistry

open Text

namespace LabelOperator

def signs : LabelOperator → List (List Char)
  | equals => [['='], ['=', '=']]
  | notEquals => [['!', '=']]
  | _ => []

/-- The words that stand between a key and a list of values. -/
def words : LabelOperator → List (List Char)
  | isIn => [['i', 'n']]
  | notIn => [['n', 'o', 't', 'i', 'n']]
  | _ => []

end LabelOperator

namespace Requirement

/-- Entries that list exactly the values, in any order: each entry is blank or a value with any
blanks around it. -/
def Lists (r : Requirement) (entries : List (List Char)) : Prop :=
  (∀ entry ∈ entries, Blank entry ∨ ∃ value ∈ r.values, Padded value.toList entry)
    ∧ ∀ value ∈ r.values, ∃ entry ∈ entries, Padded value.toList entry

inductive Spelled (r : Requirement) : List Char → Prop
  | comparison {value : String} {sign front back : List Char} (one : r.values.elements = [value])
      (operator : sign ∈ r.operator.signs) (key : Padded r.key.toList front)
      (padded : Padded value.toList back) : Spelled r (front ++ sign ++ back)
  | list {front gap word gap' : List Char} {entries : List (List Char)} (lists : r.Lists entries)
      (operator : word ∈ r.operator.words) (key : Padded r.key.toList front) (blank : Blank gap)
      (apart : gap ≠ []) (blank' : Blank gap') :
      Spelled r (front ++ gap ++ word ++ gap' ++ ('(' :: [','].intercalate entries ++ [')']))
  | exists_ (operator : r.operator = .exists_) : Spelled r r.key.toList
  | doesNotExist {back : List Char} (operator : r.operator = .doesNotExist)
      (key : Padded r.key.toList back) : Spelled r ('!' :: back)
  | padded {term text : List Char} (spelled : Spelled r term) (padded : Padded term text) :
      Spelled r text

/-- A list of values holds no empty one; the empty entries of a written list do not count. -/
def Full (r : Requirement) : Prop :=
  r.operator = .isIn ∨ r.operator = .notIn → "" ∉ r.values

instance (r : Requirement) : Decidable r.Full := inferInstanceAs (Decidable (_ → _))

end Requirement

namespace LabelSelector

/-- The texts that a selector can be written as: its requirements between commas, or any blanks if
there are none. -/
def Spelled (s : LabelSelector) (text : List Char) : Prop :=
  s.requirements = [] ∧ Blank text
    ∨ ∃ terms, List.Forall₂ Requirement.Spelled s.requirements terms
      ∧ text = [','].intercalate terms

end LabelSelector

/-! ## A spelling is one term -/

section

variable {r : Requirement} {s : List Char}

theorem not_mem_of_unmarked {c : Char} (unmarked : ∀ c ∈ s, Name.isMark c = false)
    (mark : Name.isMark c = true) : c ∉ s := by
  intro mem
  rw [unmarked c mem] at mark
  cases mark

theorem Requirement.mem_of_elements {value : String} (one : r.values.elements = [value]) :
    value ∈ r.values := by
  change value ∈ r.values.elements
  rw [one]
  exact List.mem_singleton_self value

namespace Requirement

variable (made : r.Made)

include made

theorem Made.padded_key : Padded r.key.toList s ↔ trim s = r.key.toList :=
  padded_iff (Name.trim_of_keyChars made.key_chars.2)

theorem Made.padded_value {value : String} (mem : value ∈ r.values) :
    Padded value.toList s ↔ trim s = value.toList :=
  padded_iff (Name.trim_of_keyChars (made.value_chars mem))

theorem Made.unmarked_key (key : Padded r.key.toList s) : ∀ c ∈ s, Name.isMark c = false :=
  Name.unmarked_of_padded made.key_chars.2 key

theorem Made.unmarked_value {value : String} (mem : value ∈ r.values)
    (padded : Padded value.toList s) : ∀ c ∈ s, Name.isMark c = false :=
  Name.unmarked_of_padded (made.value_chars mem) padded

theorem Made.unmarked_entry {entries : List (List Char)} (lists : r.Lists entries) :
    ∀ entry ∈ entries, ∀ c ∈ entry, Name.isMark c = false := by
  intro entry mem
  rcases lists.1 entry mem with blank | ⟨value, value_mem, padded⟩
  · exact Name.unmarked_of_blank blank
  · exact made.unmarked_value value_mem padded

end Requirement

namespace LabelSelector

theorem Unsplit.of_unmarked (unmarked : ∀ c ∈ s, Name.isMark c = false) : Unsplit s := by
  apply Uncut.unsplit
  intro c mem
  have := unmarked c mem
  refine ⟨?_, ?_, ?_⟩ <;> rintro rfl <;> cases this

theorem unmarked_word {operator : LabelOperator} {word : List Char} (mem : word ∈ operator.words) :
    ∀ c ∈ word, Name.isMark c = false := by
  have all : operator.words.all (·.all (!Name.isMark ·)) = true := by cases operator <;> rfl
  simpa using List.all_eq_true.1 all word mem

theorem unsplit_sign {operator : LabelOperator} {sign : List Char}
    (mem : sign ∈ operator.signs) : Unsplit sign := by
  apply Uncut.unsplit
  cases operator <;>
    simp only [LabelOperator.signs, List.mem_cons, List.not_mem_nil, or_false] at mem
  · rcases mem with rfl | rfl <;> simp [Uncut]
  · subst mem
    simp [Uncut]

theorem unsplit_of_spelled {text : List Char} (made : r.Made) (spelled : r.Spelled text) :
    Unsplit text := by
  induction spelled with
  | comparison one operator key padded =>
    have value := made.unmarked_value (Requirement.mem_of_elements one) padded
    exact ((Unsplit.of_unmarked (made.unmarked_key key)).append (unsplit_sign operator)).append
      (.of_unmarked value)
  | @list front gap word gap' entries lists operator key blank apart blank' =>
    have flat : ∀ c ∈ [','].intercalate entries, c ≠ '(' ∧ c ≠ ')' := by
      intro c mem
      rcases mem_intercalate mem with comma | ⟨entry, entry_mem, mem⟩
      · rw [List.mem_singleton.1 comma]
        decide
      · have unmarked := made.unmarked_entry lists entry entry_mem c mem
        constructor <;> rintro rfl <;> cases unmarked
    have key := Unsplit.of_unmarked (made.unmarked_key key)
    have gap := Unsplit.of_unmarked (Name.unmarked_of_blank blank)
    have gap' := Unsplit.of_unmarked (Name.unmarked_of_blank blank')
    have word := Unsplit.of_unmarked (unmarked_word operator)
    exact (((key.append gap).append word).append gap').append (unsplit_parentheses flat)
  | exists_ => exact .of_unmarked (made.unmarked_key (.refl _))
  | doesNotExist operator key =>
    have mark : Unsplit ['!'] := Uncut.unsplit (by simp [Uncut])
    exact mark.append (.of_unmarked (made.unmarked_key key))
  | padded spelled padded ih =>
    obtain ⟨front, back, blank, blank', rfl⟩ := padded
    have front := Unsplit.of_unmarked (Name.unmarked_of_blank blank)
    have back := Unsplit.of_unmarked (Name.unmarked_of_blank blank')
    exact (front.append ih).append back

/-! ## Reading a term -/

variable {term front back : List Char}

theorem requirement_comparison {operator : LabelOperator} {sign : List Char}
    (mem : sign ∈ operator.signs) (nonempty : front ≠ [])
    (front_unmarked : ∀ c ∈ front, Name.isMark c = false)
    (back_unmarked : ∀ c ∈ back, Name.isMark c = false) :
    requirement (front ++ sign ++ back) = comparison operator front back := by
  have equals : '=' ∉ front := not_mem_of_unmarked front_unmarked rfl
  have exclamation : '!' ∉ front := not_mem_of_unmarked front_unmarked rfl
  have equals' : '=' ∉ back := not_mem_of_unmarked back_unmarked rfl
  have exclamation' : '!' ∉ back := not_mem_of_unmarked back_unmarked rfl
  have first : ∀ key, front ++ sign ++ back ≠ '!' :: key := by
    intro key eq
    obtain ⟨c, rest, rfl⟩ := List.exists_cons_of_ne_nil nonempty
    exact exclamation ((List.cons.inj eq).1 ▸ List.mem_cons_self)
  generalize written : front ++ sign ++ back = term at first
  unfold requirement
  split
  next key => exact absurd rfl (first key)
  next =>
    cases operator <;>
      simp only [LabelOperator.signs, List.mem_cons, List.not_mem_nil, or_false] at mem
    case notEquals =>
      subst mem
      have cut : cutFirstPair '!' '=' term = some (front, back) :=
        cutFirstPair_eq_some.2 ⟨by simp [← written], .of_second_not_mem (by simp [equals])⟩
      rw [cut]
    case equals =>
      have notUnequal : cutFirstPair '!' '=' term = none := by
        have absent : '!' ∉ term := by
          rw [← written]
          rcases mem with rfl | rfl <;> simp [exclamation, exclamation']
        exact cutFirstPair_eq_none.2 (.of_not_mem absent)
      rw [notUnequal]
      rcases mem with rfl | rfl
      · have notDoubled : cutFirstPair '=' '=' term = none := by
          rw [← written, List.append_assoc, cutFirstPair_eq_none]
          refine noPair_append.2 ⟨.of_not_mem equals, noPair_cons.2 ⟨?_, .of_not_mem equals'⟩, ?_⟩
          · exact fun pair => equals' (List.mem_of_mem_head? pair.2)
          · exact fun pair => equals (List.mem_of_getLast? pair.1)
        have cut : cutFirst '=' term = some (front, back) :=
          cutFirst_eq_some.2 ⟨by simp [← written], equals⟩
        rw [notDoubled, cut]
      · have cut : cutFirstPair '=' '=' term = some (front, back) := by
          refine cutFirstPair_eq_some.2 ⟨by simp [← written], ?_⟩
          refine noPair_append.2 ⟨.of_not_mem equals, .singleton _, ?_⟩
          exact fun pair => equals (List.mem_of_getLast? pair.1)
        rw [cut]

theorem requirement_of_parenthesis {inside : List Char} (equals : '=' ∉ term)
    (exclamation : '!' ∉ term) (cut : cutFirst '(' term = some (front, inside)) :
    requirement term = listRequirement term front inside := by
  have unequal : cutFirstPair '!' '=' term = none :=
    cutFirstPair_eq_none.2 (.of_not_mem exclamation)
  have doubled : cutFirstPair '=' '=' term = none := cutFirstPair_eq_none.2 (.of_not_mem equals)
  unfold requirement
  split
  next => exact absurd List.mem_cons_self exclamation
  next => simp only [unequal, doubled, cutFirst_eq_none.2 equals, cut]

theorem requirement_key {key : String} (chars : ∀ c ∈ key.toList, Name.isKeyChar c = true) :
    requirement key.toList = Requirement.make key .exists_ [] := by
  have unmarked := Name.unmarked_of_padded chars (.refl _)
  have equals : '=' ∉ key.toList := not_mem_of_unmarked unmarked rfl
  have exclamation : '!' ∉ key.toList := not_mem_of_unmarked unmarked rfl
  have opening : '(' ∉ key.toList := not_mem_of_unmarked unmarked rfl
  have unequal : cutFirstPair '!' '=' key.toList = none :=
    cutFirstPair_eq_none.2 (.of_not_mem exclamation)
  have doubled : cutFirstPair '=' '=' key.toList = none :=
    cutFirstPair_eq_none.2 (.of_not_mem equals)
  have blanks : ¬key.toList.any isBlank = true := by
    rw [List.any_eq_true]
    rintro ⟨c, mem, blank⟩
    rw [Name.not_blank_of_keyChar (chars c mem)] at blank
    cases blank
  unfold requirement
  split
  next eq => exact absurd (eq ▸ List.mem_cons_self) exclamation
  next =>
    simp only [unequal, doubled, cutFirst_eq_none.2 equals, cutFirst_eq_none.2 opening,
      if_neg blanks, String.ofList_toList]

/-- The values between the commas of a list, without its empty entries. -/
def listed (inside : List Char) : List String :=
  (((pieces ',' inside).map trim).filter (!·.isEmpty)).map String.ofList

theorem mem_listed_iff {inside : List Char} {value : String} :
    value ∈ listed inside
      ↔ ∃ entry ∈ pieces ',' inside, trim entry ≠ [] ∧ value.toList = trim entry := by
  simp only [listed, List.mem_map, List.mem_filter]
  constructor
  · rintro ⟨_, ⟨⟨entry, mem, rfl⟩, shown⟩, rfl⟩
    exact ⟨entry, mem, by simpa using shown, String.toList_ofList⟩
  · rintro ⟨entry, mem, shown, eq⟩
    exact ⟨_, ⟨⟨entry, mem, rfl⟩, by simpa using shown⟩, by rw [← eq, String.ofList_toList]⟩

theorem listOperator?_eq_some {word : List Char} {operator : LabelOperator} :
    listOperator? word = some operator ↔ word ∈ operator.words := by
  unfold listOperator?
  split
  next eq => cases operator <;> simp [LabelOperator.words, eq]
  next =>
    split
    next eq => cases operator <;> simp [LabelOperator.words, eq]
    next => cases operator <;> simp_all [LabelOperator.words]

theorem closed?_eq_some {inside values : List Char} :
    closed? inside = some values ↔ ∃ after, Blank after ∧ inside = values ++ ')' :: after := by
  have flat {after : List Char} (blank : Blank after) : ∀ c ∈ after, decide (c = ')') = false := by
    intro c mem
    refine decide_eq_false ?_
    rintro rfl
    cases blank _ mem
  constructor
  · intro closed
    unfold closed? at closed
    split at closed
    next cut =>
      obtain ⟨c, rfl, eq, -⟩ : ∃ c, c = ')' ∧ _ := by simpa using cutLast_eq_some.1 cut
      split at closed
      next blank =>
        cases closed
        exact ⟨_, List.all_eq_true.1 blank, eq⟩
      next => cases closed
    next => cases closed
  · rintro ⟨after, blank, rfl⟩
    have cut : cutLast (· = ')') (values ++ ')' :: after) = some (values, after) :=
      cutLast_eq_some.2 ⟨')', by simp, rfl, flat blank⟩
    rw [closed?, cut]
    exact if_pos (List.all_eq_true.2 blank)

/-- A list has its key in front of the last blank before the parenthesis, a word behind that, and
its values between the parentheses. -/
structure ListParts (front inside : List Char) (operator : LabelOperator)
    (key values : List Char) : Prop where
  closed : ∃ after, Blank after ∧ inside = values ++ ')' :: after
  cut : ∃ blank word, isBlank blank = true ∧ trim front = key ++ blank :: word
    ∧ (∀ c ∈ word, isBlank c = false) ∧ word ∈ operator.words

theorem ListParts.requirement {inside key values : List Char} {operator : LabelOperator}
    (parts : ListParts front inside operator key values) :
    listRequirement term front inside
      = Requirement.make (String.ofList (trim key)) operator (listed values) := by
  obtain ⟨blank, word, is_blank, eq, word_plain, named⟩ := parts.cut
  unfold listRequirement
  rw [closed?_eq_some.2 parts.closed, cutLast_eq_some.2 ⟨blank, is_blank, eq, word_plain⟩]
  dsimp only
  rw [listOperator?_eq_some.2 named]
  rfl

theorem parts_of_listRequirement {inside : List Char}
    (read : listRequirement term front inside = .ok r) :
    ∃ operator key values, ListParts front inside operator key values
      ∧ Requirement.make (String.ofList (trim key)) operator (listed values) = .ok r := by
  unfold listRequirement at read
  split at read
  next => cases read
  next values closed =>
    split at read
    next => cases read
    next key word cut =>
      obtain ⟨blank, is_blank, eq, word_plain⟩ := cutLast_eq_some.1 cut
      split at read
      next => cases read
      next operator named =>
        have parts : ListParts front inside operator key values :=
          ⟨closed?_eq_some.1 closed,
            blank, word, is_blank, eq, word_plain, listOperator?_eq_some.1 named⟩
        exact ⟨operator, key, values, parts, read⟩

/-! ## Every spelling is read -/

theorem word_plain {operator : LabelOperator} {word : List Char} (mem : word ∈ operator.words) :
    word ≠ [] ∧ ∀ c ∈ word, isBlank c = false := by
  have all : operator.words.all (fun word => !word.isEmpty && word.all (!isBlank ·)) = true := by
    cases operator <;> rfl
  simpa using List.all_eq_true.1 all word mem

theorem isList_of_word {operator : LabelOperator} {word : List Char}
    (mem : word ∈ operator.words) : operator = .isIn ∨ operator = .notIn := by
  cases operator <;> simp_all [LabelOperator.words]

theorem sign_plain {operator : LabelOperator} {sign : List Char} (mem : sign ∈ operator.signs) :
    sign ≠ [] ∧ trim sign = sign := by
  cases operator <;>
    simp only [LabelOperator.signs, List.mem_cons, List.not_mem_nil, or_false] at mem
  · rcases mem with rfl | rfl <;> decide
  · subst mem
    decide

theorem mem_listed {entries : List (List Char)} (made : r.Made) (lists : r.Lists entries)
    (value : String) :
    value ∈ listed ([','].intercalate entries) ↔ value ∈ r.values ∧ value ≠ "" := by
  by_cases nonempty : entries = []
  · subst nonempty
    refine iff_of_false (List.not_mem_nil (a := value)) ?_
    rintro ⟨mem, -⟩
    obtain ⟨entry, none, -⟩ := lists.2 value mem
    cases none
  have whole : ∀ entry ∈ entries, ',' ∉ entry := fun entry mem =>
    not_mem_of_unmarked (made.unmarked_entry lists entry mem) rfl
  rw [mem_listed_iff, pieces_intercalate whole nonempty]
  constructor
  · rintro ⟨entry, mem, shown, eq⟩
    rcases lists.1 entry mem with blank | ⟨value', value_mem, padded⟩
    · exact absurd (trim_eq_nil.2 blank) shown
    · obtain rfl : value = value' :=
        String.toList_inj.1 (eq.trans ((made.padded_value value_mem).1 padded))
      refine ⟨value_mem, ?_⟩
      rintro rfl
      exact shown eq.symm
  · rintro ⟨mem, some⟩
    obtain ⟨entry, entry_mem, padded⟩ := lists.2 value mem
    have eq := (made.padded_value mem).1 padded
    refine ⟨entry, entry_mem, ?_, eq.symm⟩
    rw [eq]
    simpa using some

theorem trim_list (inside : List Char) :
    trim ('(' :: inside ++ [')']) = '(' :: inside ++ [')'] := by
  refine trim_eq_self_iff.2 ⟨?_, ?_⟩
  · intro c head
    cases head
    rfl
  · intro c last
    rw [List.getLast?_concat] at last
    cases last
    rfl

theorem cut_of_head {gap word gap' : List Char} (made : r.Made)
    (operator : word ∈ r.operator.words) (key : Padded r.key.toList front) (blank : Blank gap)
    (apart : gap ≠ []) (blank' : Blank gap') :
    ∃ before c, trim (front ++ gap ++ word ++ gap') = before ++ c :: word ∧ isBlank c = true
      ∧ trim before = r.key.toList := by
  have ⟨named, key_chars⟩ := made.key_chars
  have ⟨word_some, word_plain⟩ := word_plain operator
  obtain ⟨gap, c, rfl⟩ : ∃ front c, gap = front ++ [c] := by
    simpa using (List.eq_nil_or_concat gap).resolve_left apart
  obtain ⟨lead, behind, blank_lead, blank_behind, rfl⟩ := key
  have ⟨blank_gap, blank_c⟩ := List.forall_mem_append.1 blank
  have blank_behind : Blank (behind ++ gap) := List.forall_mem_append.2 ⟨blank_behind, blank_gap⟩
  refine ⟨r.key.toList ++ (behind ++ gap), c, ?_, blank_c c (List.mem_singleton_self c), ?_⟩
  · refine (padded_iff ?_).1 ⟨lead, gap', blank_lead, blank', by simp⟩
    refine trim_eq_self_iff.2 ⟨fun d first => ?_, fun d last => ?_⟩
    · rw [List.append_assoc, List.head?_append_of_ne_nil _ named] at first
      exact Name.not_blank_of_keyChar (key_chars d (List.mem_of_mem_head? first))
    · rw [List.getLast?_append_of_ne_nil _ (List.cons_ne_nil c word),
        List.getLast?_cons_of_ne_nil word_some] at last
      exact word_plain d (List.mem_of_getLast? last)
  · rw [trim_append_right blank_behind, Name.trim_of_keyChars key_chars]

theorem requirement_of_list {gap word gap' : List Char} {entries : List (List Char)}
    (made : r.Made) (lists : r.Lists entries) (operator : word ∈ r.operator.words)
    (key : Padded r.key.toList front) (blank : Blank gap) (apart : gap ≠ []) (blank' : Blank gap') :
    requirement (trim (front ++ gap ++ word ++ gap' ++ ('(' :: [','].intercalate entries ++ [')'])))
      = Requirement.make r.key r.operator (listed ([','].intercalate entries)) := by
  have ⟨before, c, head_eq, blank_c, before_eq⟩ := cut_of_head made operator key blank apart blank'
  have head_unmarked : ∀ c ∈ front ++ gap ++ word ++ gap', Name.isMark c = false := by
    simp only [List.forall_mem_append]
    exact ⟨⟨⟨made.unmarked_key key, Name.unmarked_of_blank blank⟩, unmarked_word operator⟩,
      Name.unmarked_of_blank blank'⟩
  have inside_marks {c : Char} (mark : Name.isMark c = true) (other : c ≠ ',') :
      c ∉ [','].intercalate entries := by
    intro mem
    rcases mem_intercalate mem with comma | ⟨entry, entry_mem, mem⟩
    · exact other (List.mem_singleton.1 comma)
    · exact not_mem_of_unmarked (made.unmarked_entry lists entry entry_mem) mark mem
  generalize [','].intercalate entries = inside at inside_marks ⊢
  generalize front ++ gap ++ word ++ gap' = head at head_eq head_unmarked ⊢
  have lead_unmarked : ∀ c ∈ trimStart head, Name.isMark c = false := fun c mem =>
    head_unmarked c ((List.dropWhile_sublist _).subset mem)
  have trimmed : trim (head ++ ('(' :: inside ++ [')']))
      = trimStart head ++ '(' :: (inside ++ [')']) := by
    have := trim_append_append (trim_list inside) (by simp) head []
    simpa [trimEnd] using this
  have absent {d : Char} (mark : Name.isMark d = true) (others : d ∉ ['(', ')', ',']) :
      d ∉ trimStart head ++ '(' :: (inside ++ [')']) := by
    have front := not_mem_of_unmarked lead_unmarked mark
    simp only [List.mem_cons, List.not_mem_nil, or_false, not_or] at others
    simp [front, others, inside_marks mark others.2.2]
  have cut : cutFirst '(' (trimStart head ++ '(' :: (inside ++ [')']))
      = some (trimStart head, inside ++ [')']) :=
    cutFirst_append (not_mem_of_unmarked lead_unmarked rfl) _
  have parts : ListParts (trimStart head) (inside ++ [')']) r.operator before inside :=
    ⟨⟨[], List.forall_mem_nil _, rfl⟩, c, word, blank_c, (trim_trimStart head).trans head_eq,
      (word_plain operator).2, operator⟩
  rw [trimmed, requirement_of_parenthesis (absent rfl (by decide)) (absent rfl (by decide)) cut,
    parts.requirement, before_eq, String.ofList_toList]

theorem requirement_of_spelled {text : List Char} (made : r.Made) (full : r.Full)
    (spelled : r.Spelled text) : requirement (trim text) = .ok r := by
  have ⟨named, key_chars⟩ := made.key_chars
  have no_values (existence : r.operator = .exists_ ∨ r.operator = .doesNotExist) (value : String) :
      value ∈ [] ↔ value ∈ r.values := by
    change _ ↔ value ∈ r.values.elements
    rw [made.no_value existence]
  induction spelled with
  | @comparison value sign front back one operator key padded =>
    have mem := Requirement.mem_of_elements one
    have ⟨sign_some, sign_trimmed⟩ := sign_plain operator
    have key : trim (trimStart front) = r.key.toList :=
      (trim_trimStart front).trans (made.padded_key.1 key)
    have value_eq : trim (trimEnd back) = value.toList :=
      (trim_trimEnd back).trans ((made.padded_value mem).1 padded)
    have nonempty : trimStart front ≠ [] := by
      intro none
      rw [none] at key
      exact named key.symm
    rw [trim_append_append sign_trimmed sign_some, requirement_comparison operator nonempty
      (made.unmarked_key (made.padded_key.2 key))
      (made.unmarked_value mem ((made.padded_value mem).2 value_eq)), comparison, key, value_eq,
      String.ofList_toList, String.ofList_toList]
    refine made.make fun other => ?_
    change _ ↔ other ∈ r.values.elements
    rw [one]
  | list lists operator key blank apart blank' =>
    have full := full (isList_of_word operator)
    rw [requirement_of_list made lists operator key blank apart blank']
    refine made.make fun value => (mem_listed made lists value).trans (and_iff_left_of_imp ?_)
    rintro mem rfl
    exact full mem
  | exists_ operator =>
    rw [Name.trim_of_keyChars key_chars, requirement_key key_chars, ← operator]
    exact made.make (no_values (.inl operator))
  | @doesNotExist back operator key =>
    have mark : trim ['!'] = ['!'] := rfl
    have exclamation : trim ('!' :: back) = '!' :: trimEnd back :=
      trim_append_append mark (List.cons_ne_nil '!' []) [] back
    rw [exclamation, requirement, trim_trimEnd, made.padded_key.1 key, String.ofList_toList,
      ← operator]
    exact made.make (no_values (.inr operator))
  | padded spelled padded ih => rw [padded.trim_eq, ih]

/-! ## Nothing else is read -/

theorem requirement_cases (read : requirement term = .ok r) :
    (∃ key, term = '!' :: key
        ∧ Requirement.make (String.ofList (trim key)) .doesNotExist [] = .ok r)
      ∨ (∃ operator sign front back, sign ∈ LabelOperator.signs operator
        ∧ term = front ++ sign ++ back ∧ comparison operator front back = .ok r)
      ∨ (∃ front inside, term = front ++ '(' :: inside ∧ listRequirement term front inside = .ok r)
      ∨ Requirement.make (String.ofList term) .exists_ [] = .ok r := by
  unfold requirement at read
  split at read
  next key => exact .inl ⟨key, rfl, read⟩
  next =>
    right
    split at read
    next front back cut =>
      have eq := (cutFirstPair_eq_some.1 cut).1
      exact .inl ⟨.notEquals, ['!', '='], front, back, by decide, by simp [eq], read⟩
    next =>
      split at read
      next front back cut =>
        have eq := (cutFirstPair_eq_some.1 cut).1
        exact .inl ⟨.equals, ['=', '='], front, back, by decide, by simp [eq], read⟩
      next =>
        split at read
        next front back cut =>
          have eq := (cutFirst_eq_some.1 cut).1
          exact .inl ⟨.equals, ['='], front, back, by decide, by simp [eq], read⟩
        next =>
          right
          split at read
          next front inside cut => exact .inl ⟨front, inside, (cutFirst_eq_some.1 cut).1, read⟩
          next =>
            split at read
            next => cases read
            next => exact .inr read

theorem spelled_of_listRequirement {inside : List Char}
    (read : listRequirement term front inside = .ok r) :
    r.Made ∧ r.Full ∧ r.Spelled (front ++ '(' :: inside) := by
  obtain ⟨operator, key, values, parts, made⟩ := parts_of_listRequirement read
  obtain ⟨after, blank_after, rfl⟩ := parts.closed
  obtain ⟨c, word, blank, eq, word_plain, operator⟩ := parts.cut
  obtain ⟨eq_r, -⟩ := Requirement.make_eq_ok.1 made
  have key_eq : r.key.toList = trim key := by rw [eq_r, String.toList_ofList]
  have operator : word ∈ r.operator.words := by rwa [eq_r]
  have mem_values (value : String) : value ∈ r.values ↔ value ∈ listed values := by
    rw [eq_r]
    exact StringSet.mem_ofList
  have lists : r.Lists (pieces ',' values) := by
    refine ⟨fun entry mem => ?_, fun value mem => ?_⟩
    · by_cases shown : trim entry = []
      · exact .inl (trim_eq_nil.1 shown)
      · refine .inr ⟨String.ofList (trim entry), (mem_values _).2 (mem_listed_iff.2
          ⟨entry, mem, shown, String.toList_ofList⟩), ?_⟩
        rw [String.toList_ofList]
        exact padded_trim entry
    · obtain ⟨entry, entry_mem, -, eq⟩ := mem_listed_iff.1 ((mem_values value).1 mem)
      exact ⟨entry, entry_mem, eq ▸ padded_trim entry⟩
  refine ⟨⟨_, _, _, made⟩, fun _ none => ?_, ?_⟩
  · obtain ⟨entry, -, shown, eq⟩ := mem_listed_iff.1 ((mem_values "").1 none)
    exact shown eq.symm
  · obtain ⟨lead, gap', blank_lead, blank', front_eq⟩ := padded_trim front
    have key_padded : Padded r.key.toList (lead ++ key) := by
      rw [key_eq, ← trim_append_left blank_lead key]
      exact padded_trim _
    have spelled := Requirement.Spelled.list lists operator key_padded
      (List.forall_mem_singleton.2 blank) (List.cons_ne_nil c []) blank'
    rw [intercalate_pieces] at spelled
    refine spelled.padded ⟨[], after, List.forall_mem_nil _, blank_after, ?_⟩
    rw [front_eq, eq]
    simp

theorem spelled_of_requirement (read : requirement term = .ok r) :
    r.Made ∧ r.Full ∧ r.Spelled term := by
  rcases requirement_cases read with
    ⟨key, rfl, made⟩ | ⟨operator, sign, front, back, mem, rfl, made⟩
    | ⟨front, inside, rfl, list⟩ | made
  · obtain ⟨rfl, -⟩ := Requirement.make_eq_ok.1 made
    refine ⟨⟨_, _, _, made⟩, nofun, .doesNotExist rfl ?_⟩
    rw [String.toList_ofList]
    exact padded_trim key
  · obtain ⟨rfl, -⟩ := Requirement.make_eq_ok.1 made
    have value : Padded (String.ofList (trim back)).toList back := by
      rw [String.toList_ofList]
      exact padded_trim back
    refine ⟨⟨_, _, _, made⟩, ?_, .comparison rfl mem ?_ value⟩
    · rintro (rfl | rfl) <;> cases mem
    · rw [String.toList_ofList]
      exact padded_trim front
  · exact spelled_of_listRequirement list
  · obtain ⟨rfl, -⟩ := Requirement.make_eq_ok.1 made
    refine ⟨⟨_, _, _, made⟩, nofun, ?_⟩
    have spelled :=
      Requirement.Spelled.exists_ (r := ⟨String.ofList term, .exists_, .ofList []⟩) rfl
    rwa [String.toList_ofList] at spelled

/-- A text is read as a selector exactly if it spells it: with requirements that can be made, and
without empty values in lists. -/
theorem parse_iff_spelled {text : String} {s : LabelSelector} :
    parse text = .ok s
      ↔ (∀ r ∈ s.requirements, r.Made ∧ r.Full) ∧ s.Spelled text.toList := by
  rw [parse_eq_ok]
  constructor
  · rintro (⟨blank, rfl⟩ | ⟨parts, split, read⟩)
    · exact ⟨nofun, .inl ⟨rfl, blank⟩⟩
    · constructor
      · refine forall_mem_of_forall₂ read fun part _ r read => ?_
        have ⟨made, full, _⟩ := spelled_of_requirement read
        exact ⟨made, full⟩
      · refine .inr ⟨parts, ?_, ?_⟩
        · refine List.Forall₂.flip (read.imp fun part r read => ?_)
          exact (spelled_of_requirement read).2.2.padded (padded_trim part)
        · simpa using (intercalate_splitTerms split).symm
  · rintro ⟨all, ⟨none, blank⟩ | ⟨terms, spelled, eq⟩⟩
    · exact .inl ⟨blank, congrArg LabelSelector.mk none⟩
    · by_cases nonempty : terms = []
      · subst nonempty
        refine .inl ⟨?_, congrArg LabelSelector.mk (List.forall₂_nil_right_iff.1 spelled)⟩
        rw [eq]
        exact List.forall_mem_nil _
      · have each := (List.forall₂_and_left _ _).2 ⟨all, spelled⟩
        refine .inr ⟨terms, ?_, ?_⟩
        · rw [eq]
          refine splitTerms_intercalate ?_ nonempty _
          exact forall_mem_of_forall₂ each fun r _ term spelled =>
            unsplit_of_spelled spelled.1.1 spelled.2
        · exact (each.imp fun r term spelled =>
            requirement_of_spelled spelled.1.1 spelled.1.2 spelled.2).flip

end LabelSelector

end

end FleetRegistry

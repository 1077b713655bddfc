import FleetRegistry.Text.Blank
import FleetRegistry.Text.Cut
import Mathlib.Data.List.Chain
import Mathlib.Data.List.DropRight
import Mathlib.Data.List.TakeDrop
import Mathlib.Data.List.TakeWhile

/-!
Where text is cut. A cut at the first separator is told by what stands in front of it, one at the
last separator by what stands behind it, one at the end of a class of characters by both. Joined
texts come apart at their separators, and blanks around a text are trimmed away.
-/
namespace FleetRegistry.Text

variable {s before after : List Char}

/-! ## At one character -/

section

variable {separator : Char}

theorem cutFirst_append (whole : separator ∉ before) (after : List Char) :
    cutFirst separator (before ++ separator :: after) = some (before, after) := by
  induction before with
  | nil => simp [cutFirst]
  | cons c before ih =>
    obtain ⟨other, whole⟩ := List.ne_and_not_mem_of_not_mem_cons whole
    rw [List.cons_append, cutFirst, if_neg other.symm, ih whole]
    rfl

theorem cutFirst_eq_none : cutFirst separator s = none ↔ separator ∉ s := by
  induction s with
  | nil => simp [cutFirst]
  | cons c rest ih =>
    by_cases same : c = separator
    · simp [cutFirst, same]
    · simp [cutFirst, same, ih, Ne.symm same]

theorem cutFirst_eq_some :
    cutFirst separator s = some (before, after)
      ↔ s = before ++ separator :: after ∧ separator ∉ before := by
  constructor
  · exact fun cut => ⟨eq_of_cutFirst cut, not_mem_of_cutFirst cut⟩
  · rintro ⟨rfl, whole⟩
    exact cutFirst_append whole after

theorem cutLast_eq_some {isSeparator : Char → Bool} :
    cutLast isSeparator s = some (before, after)
      ↔ ∃ c, isSeparator c = true ∧ s = before ++ c :: after
        ∧ ∀ x ∈ after, isSeparator x = false := by
  -- Read from the end: what is behind the cut, the separator, and what is in front of it.
  have reversed (c : Char) :
      s = before ++ c :: after ↔ s.reverse = after.reverse ++ c :: before.reverse := by
    rw [← List.reverse_inj]
    simp
  have members (x : Char) : x ∈ after ↔ x ∈ after.reverse := List.mem_reverse.symm
  simp only [reversed, members]
  unfold cutLast
  rw [List.span_eq_takeWhile_dropWhile]
  constructor
  · intro cut
    have parts := List.takeWhile_append_dropWhile (p := (!isSeparator ·)) (l := s.reverse)
    have stops := List.head?_dropWhile_not (!isSeparator ·) s.reverse
    have passes (x : Char) (mem : x ∈ s.reverse.takeWhile (!isSeparator ·)) :
        isSeparator x = false := by simpa using List.mem_takeWhile_imp mem
    split at cut
    next => cases cut
    next behind c front eq =>
      have ⟨left, right⟩ := Prod.mk.inj eq
      rw [left] at passes
      rw [left, right] at parts
      rw [right] at stops
      cases cut
      exact ⟨c, by simpa using stops, by simpa using parts.symm, by simpa using passes⟩
  · rintro ⟨c, separates, eq, whole⟩
    have passes : ∀ x ∈ after.reverse, (!isSeparator x) = true := by simpa using whole
    rw [eq, List.takeWhile_append_of_pos passes, List.dropWhile_append_of_pos passes]
    simp [separates]

/-! ## At all places of one character -/

theorem pieces_eq_splitOn (separator : Char) (s : List Char) :
    pieces separator s = s.splitOn separator := by
  induction s with
  | nil => rfl
  | cons c rest ih =>
    have some := pieces_ne_nil separator rest
    rw [pieces, List.splitOn_cons_eq_if_modifyHead, ← ih]
    by_cases same : c = separator
    · simp [same]
    · cases eq : pieces separator rest with
      | nil => exact absurd eq some
      | cons piece others => simp [same]

theorem pieces_intercalate {texts : List (List Char)} (whole : ∀ text ∈ texts, separator ∉ text)
    (some : texts ≠ []) : pieces separator ([separator].intercalate texts) = texts := by
  rw [pieces_eq_splitOn]
  exact List.splitOn_intercalate separator whole some

theorem intercalate_pieces (separator : Char) (s : List Char) :
    [separator].intercalate (pieces separator s) = s := by
  rw [pieces_eq_splitOn]
  exact List.intercalate_splitOn separator

theorem intercalate_eq_append_flatMap (separator : Char) (first : List Char)
    (others : List (List Char)) :
    [separator].intercalate (first :: others) = first ++ others.flatMap (separator :: ·) := by
  induction others generalizing first with
  | nil => simp
  | cons next others ih => simp [List.intercalate_cons_cons, ih]

theorem mem_intercalate {c : Char} {between : List Char} {texts : List (List Char)}
    (mem : c ∈ between.intercalate texts) : c ∈ between ∨ ∃ text ∈ texts, c ∈ text := by
  induction texts with
  | nil => cases mem
  | cons text others ih =>
    cases others with
    | nil => exact .inr ⟨text, List.mem_singleton_self text, by simpa using mem⟩
    | cons next others =>
      rw [List.intercalate_cons_cons, List.mem_append, List.mem_append] at mem
      rcases mem with (mem | mem) | mem
      · exact .inr ⟨text, List.mem_cons_self, mem⟩
      · exact .inl mem
      · exact (ih mem).imp_right fun ⟨other, here, mem⟩ => ⟨other, List.mem_cons_of_mem _ here, mem⟩

theorem mem_intercalate_of_mem {c : Char} {text between : List Char} {texts : List (List Char)}
    (here : text ∈ texts) (mem : c ∈ text) : c ∈ between.intercalate texts := by
  induction texts with
  | nil => cases here
  | cons first others ih =>
    cases others with
    | nil =>
      rw [List.mem_singleton.1 here] at mem
      rwa [List.intercalate_singleton]
    | cons next others =>
      rw [List.intercalate_cons_cons]
      rcases List.mem_cons.1 here with rfl | here
      · exact List.mem_append_left _ (List.mem_append_left _ mem)
      · exact List.mem_append_right _ (ih here)

theorem not_mem_of_mem_pieces {piece : List Char} (mem : piece ∈ pieces separator s) :
    separator ∉ piece := by
  induction s generalizing piece with
  | nil => simp_all [pieces]
  | cons c rest ih =>
    unfold pieces at mem
    split at mem
    next =>
      rcases List.mem_cons.1 mem with rfl | mem
      · exact List.not_mem_nil
      · exact ih mem
    next other =>
      split at mem
      next none => exact absurd none (pieces_ne_nil separator rest)
      next first others eq =>
        rw [eq] at ih
        rcases List.mem_cons.1 mem with rfl | mem
        · have := ih List.mem_cons_self
          simp [this, Ne.symm other]
        · exact ih (List.mem_cons_of_mem _ mem)

end

/-! ## At two characters -/

section

variable {first second : Char}

def NoPair (first second : Char) (s : List Char) : Prop :=
  s.IsChain fun c d => ¬(c = first ∧ d = second)

instance (first second : Char) (s : List Char) : Decidable (NoPair first second s) :=
  inferInstanceAs (Decidable (List.IsChain ..))

theorem noPair_cons {c : Char} :
    NoPair first second (c :: s)
      ↔ ¬(c = first ∧ s.head? = some second) ∧ NoPair first second s := by
  rw [NoPair, List.isChain_cons]
  refine and_congr_left fun _ => ?_
  constructor
  · rintro apart ⟨same, head⟩
    exact apart second head ⟨same, rfl⟩
  · rintro apart d head ⟨same, rfl⟩
    exact apart ⟨same, head⟩

theorem noPair_append {front back : List Char} :
    NoPair first second (front ++ back) ↔ NoPair first second front ∧ NoPair first second back
      ∧ ¬(front.getLast? = some first ∧ back.head? = some second) := by
  rw [NoPair, List.isChain_append]
  refine and_congr_right fun _ => and_congr_right fun _ => ?_
  constructor
  · rintro apart ⟨last, head⟩
    exact apart first last second head ⟨rfl, rfl⟩
  · rintro apart c last d head ⟨rfl, rfl⟩
    exact apart ⟨last, head⟩

theorem NoPair.of_not_mem (absent : first ∉ s) : NoPair first second s := by
  induction s with
  | nil => exact .nil
  | cons c rest ih =>
    have ⟨other, absent⟩ := List.ne_and_not_mem_of_not_mem_cons absent
    exact noPair_cons.2 ⟨fun pair => other pair.1.symm, ih absent⟩

theorem NoPair.of_second_not_mem (absent : second ∉ s) : NoPair first second s := by
  induction s with
  | nil => exact .nil
  | cons c rest ih =>
    have ⟨_, later⟩ := List.ne_and_not_mem_of_not_mem_cons absent
    refine noPair_cons.2 ⟨fun pair => later ?_, ih later⟩
    exact List.mem_of_mem_head? pair.2

theorem NoPair.within {part : List Char} (apart : NoPair first second s) (within : part <:+: s) :
    NoPair first second part := by
  obtain ⟨front, back, rfl⟩ := within
  exact (noPair_append.1 (noPair_append.1 apart).1).2.1

theorem cutFirstPair_eq_none : cutFirstPair first second s = none ↔ NoPair first second s := by
  fun_induction cutFirstPair first second s with
  | case1 => exact iff_of_true rfl .nil
  | case2 c => exact iff_of_true rfl (.singleton c)
  | case3 c d rest pair =>
    exact iff_of_false nofun fun apart => (noPair_cons.1 apart).1 (by simp [pair])
  | case4 c d rest other ih =>
    rw [Option.map_eq_none_iff, ih, noPair_cons (c := c)]
    simp [other]

theorem cutFirstPair_eq_some :
    cutFirstPair first second s = some (before, after)
      ↔ s = before ++ first :: second :: after ∧ NoPair first second (before ++ [first]) := by
  fun_induction cutFirstPair first second s generalizing before with
  | case1 => simp
  | case2 c => cases before <;> simp
  | case3 c d rest pair =>
    obtain ⟨rfl, rfl⟩ := pair
    cases before with
    | nil => simp [NoPair, eq_comm]
    | cons x more =>
      -- A pair further back would leave the one in front uncut.
      refine iff_of_false nofun ?_
      rintro ⟨eq, apart⟩
      obtain ⟨rfl, tail⟩ := List.cons.inj eq
      refine (noPair_cons.1 apart).1 ⟨rfl, ?_⟩
      cases more with
      | nil => exact congrArg List.head? tail.symm
      | cons y more => exact congrArg List.head? tail.symm
  | case4 c d rest other ih =>
    cases before with
    | nil =>
      refine iff_of_false (by simp) ?_
      rintro ⟨eq, -⟩
      have ⟨here, eq⟩ := List.cons.inj eq
      exact other ⟨here, (List.cons.inj eq).1⟩
    | cons x more =>
      have inside : cutFirstPair first second (d :: rest) = some (more, after)
          ↔ d :: rest = more ++ first :: second :: after
            ∧ NoPair first second (more ++ [first]) := ih
      constructor
      · intro cut
        obtain ⟨parts, found, eq⟩ := Option.map_eq_some_iff.1 cut
        cases eq
        have ⟨eq, apart⟩ := inside.1 found
        refine ⟨congrArg (c :: ·) eq, noPair_cons.2 ⟨?_, apart⟩⟩
        -- What follows the character is the same with and without what is behind the cut.
        have head : (parts.1 ++ [first]).head? = some d := by
          have := congrArg List.head? eq
          cases before : parts.1 <;> simp_all
        rintro ⟨here, next⟩
        exact other ⟨here, Option.some.inj (head.symm.trans next)⟩
      · rintro ⟨eq, apart⟩
        have ⟨here, eq⟩ := List.cons.inj eq
        rw [inside.2 ⟨eq, (noPair_cons.1 apart).2⟩, here]
        rfl

end

/-! ## At the end of a class -/

def Stops (p : Char → Bool) (s : List Char) : Prop := ∀ c ∈ s.head?, p c = false

theorem stops_nil (p : Char → Bool) : Stops p [] := nofun

theorem stops_cons {p : Char → Bool} {c : Char} {rest : List Char} :
    Stops p (c :: rest) ↔ p c = false := by
  simp [Stops]

theorem takeWhile_dropWhile_iff {p : Char → Bool} {front rest : List Char} :
    s.takeWhile p = front ∧ s.dropWhile p = rest
      ↔ s = front ++ rest ∧ (∀ c ∈ front, p c = true) ∧ Stops p rest := by
  constructor
  · rintro ⟨rfl, rfl⟩
    refine ⟨List.takeWhile_append_dropWhile.symm, fun c mem => List.mem_takeWhile_imp mem,
      fun c head => ?_⟩
    have stops := List.head?_dropWhile_not p s
    rw [Option.mem_def.1 head] at stops
    exact stops
  · rintro ⟨rfl, inside, stops⟩
    rw [List.takeWhile_append_of_pos inside, List.dropWhile_append_of_pos inside]
    cases rest with
    | nil => simp
    | cons c rest => simp [stops_cons.1 stops]

/-! ## Blanks around a text -/

def Blank (s : List Char) : Prop := ∀ c ∈ s, isBlank c = true

def Padded (core s : List Char) : Prop :=
  ∃ front back, Blank front ∧ Blank back ∧ s = front ++ core ++ back

theorem Padded.refl (core : List Char) : Padded core core :=
  ⟨[], [], List.forall_mem_nil _, List.forall_mem_nil _, by simp⟩

theorem trim_append_left {front : List Char} (blank : Blank front) (s : List Char) :
    trim (front ++ s) = trim s := by
  unfold trim trimStart
  rw [List.dropWhile_append_of_pos blank]

theorem trim_append_right {back : List Char} (blank : Blank back) (s : List Char) :
    trim (s ++ back) = trim s := by
  have cut (front : List Char) : (front ++ back).rdropWhile isBlank = front.rdropWhile isBlank := by
    have blank (c : Char) (mem : c ∈ back.reverse) : isBlank c = true :=
      blank c (List.mem_reverse.1 mem)
    rw [List.rdropWhile, List.reverse_append, List.dropWhile_append_of_pos blank]
    rfl
  change ((s ++ back).dropWhile isBlank).rdropWhile isBlank
    = (s.dropWhile isBlank).rdropWhile isBlank
  rw [List.dropWhile_append]
  split
  next gone =>
    rw [List.isEmpty_iff.1 gone, List.dropWhile_eq_nil_iff.2 blank]
  next => exact cut _

theorem Padded.trim_eq {core : List Char} (padded : Padded core s) : trim s = trim core := by
  obtain ⟨front, back, blank, blank', rfl⟩ := padded
  rw [trim_append_right blank', trim_append_left blank]

theorem padded_trim (s : List Char) : Padded (trim s) s := by
  refine ⟨s.takeWhile isBlank, (s.dropWhile isBlank).rtakeWhile isBlank,
    fun c mem => List.mem_takeWhile_imp mem, fun c mem => List.mem_rtakeWhile_imp mem, ?_⟩
  rw [List.append_assoc]
  have back : trim s ++ (s.dropWhile isBlank).rtakeWhile isBlank = s.dropWhile isBlank :=
    List.rdropWhile_append_rtakeWhile
  rw [back, List.takeWhile_append_dropWhile]

@[simp] theorem trim_trim (s : List Char) : trim (trim s) = trim s :=
  (padded_trim s).trim_eq.symm

theorem trim_eq_nil : trim s = [] ↔ Blank s := by
  constructor
  · intro none
    obtain ⟨front, back, blank, blank', eq⟩ := padded_trim s
    rw [none, List.append_nil] at eq
    rw [eq]
    exact List.forall_mem_append.2 ⟨blank, blank'⟩
  · intro blank
    have := trim_append_left blank []
    rwa [List.append_nil] at this

theorem length_trim_le (s : List Char) : (trim s).length ≤ s.length := by
  obtain ⟨front, back, -, -, eq⟩ := padded_trim s
  have lengths := congrArg List.length eq
  simp only [List.length_append] at lengths
  omega

theorem trim_within (s : List Char) : trim s <:+: s := by
  obtain ⟨front, back, -, -, eq⟩ := padded_trim s
  exact ⟨front, back, eq.symm⟩

theorem trim_eq_self_iff :
    trim s = s ↔ (∀ c ∈ s.head?, isBlank c = false) ∧ (∀ c ∈ s.getLast?, isBlank c = false) := by
  constructor
  · intro same
    -- A blank at an end would make the trimmed text shorter.
    constructor
    · intro c head
      obtain ⟨rest, rfl⟩ := List.head?_eq_some_iff.1 head
      refine Bool.eq_false_iff.2 fun blank => ?_
      have cut : trim ([c] ++ rest) = trim rest :=
        trim_append_left (List.forall_mem_singleton.2 blank) rest
      have shorter := length_trim_le rest
      rw [← cut, List.singleton_append, same, List.length_cons] at shorter
      omega
    · intro c last
      obtain ⟨front, rfl⟩ := List.getLast?_eq_some_iff.1 last
      refine Bool.eq_false_iff.2 fun blank => ?_
      have cut : trim (front ++ [c]) = trim front :=
        trim_append_right (List.forall_mem_singleton.2 blank) front
      have shorter := length_trim_le front
      rw [← cut, same, List.length_append, List.length_singleton] at shorter
      omega
  · rintro ⟨starts, ends⟩
    have front : s.dropWhile isBlank = s := by
      cases s with
      | nil => rfl
      | cons c rest => simp [starts c rfl]
    change (s.dropWhile isBlank).rdropWhile isBlank = s
    rw [front, List.rdropWhile_eq_self_iff]
    intro some
    simp [ends _ (List.getLast?_eq_some_getLast some)]

theorem padded_iff {core : List Char} (trimmed : trim core = core) :
    Padded core s ↔ trim s = core := by
  constructor
  · exact fun padded => padded.trim_eq.trans trimmed
  · rintro rfl
    exact padded_trim s

theorem trimStart_append {back : List Char} (starts : ∀ c ∈ back.head?, isBlank c = false)
    (front : List Char) : trimStart (front ++ back) = trimStart front ++ back := by
  have stays : back.dropWhile isBlank = back := by
    cases back with
    | nil => rfl
    | cons c rest => simp [starts c rfl]
  unfold trimStart
  rw [List.dropWhile_append]
  split
  next gone => rw [List.isEmpty_iff.1 gone, stays, List.nil_append]
  next => rfl

theorem trimEnd_append {front : List Char} (ends : ∀ c ∈ front.getLast?, isBlank c = false)
    (back : List Char) : trimEnd (front ++ back) = front ++ trimEnd back := by
  have starts : ∀ c ∈ front.reverse.head?, isBlank c = false := by simpa using ends
  have reversed := trimStart_append starts back.reverse
  unfold trimEnd
  rw [List.reverse_append]
  exact (congrArg List.reverse reversed).trans (by simp [trimStart])

theorem trim_append_append {middle : List Char} (trimmed : trim middle = middle)
    (nonempty : middle ≠ []) (front back : List Char) :
    trim (front ++ middle ++ back) = trimStart front ++ middle ++ trimEnd back := by
  have ⟨starts, ends⟩ := trim_eq_self_iff.1 trimmed
  have starts : ∀ c ∈ (middle ++ back).head?, isBlank c = false := by
    rwa [List.head?_append_of_ne_nil _ nonempty]
  have ends : ∀ c ∈ (trimStart front ++ middle).getLast?, isBlank c = false := by
    rwa [List.getLast?_append_of_ne_nil _ nonempty]
  rw [trim, List.append_assoc, trimStart_append starts, ← List.append_assoc, trimEnd_append ends]

@[simp] theorem trim_trimStart (s : List Char) : trim (trimStart s) = trim s := by
  rw [trim, trimStart, trimStart, List.dropWhile_idempotent]
  rfl

@[simp] theorem trim_trimEnd (s : List Char) : trim (trimEnd s) = trim s := by
  have back : Blank (s.rtakeWhile isBlank) := fun c mem => List.mem_rtakeWhile_imp mem
  have whole : trimEnd s ++ s.rtakeWhile isBlank = s := List.rdropWhile_append_rtakeWhile
  rw [← trim_append_right back (trimEnd s), whole]

end FleetRegistry.Text

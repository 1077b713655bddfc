/-!
Cutting text at separators. A cut removes the separator and keeps everything else, so joining the
pieces again gives the text back.
-/
namespace FleetRegistry.Text

def cutFirst (separator : Char) : List Char → Option (List Char × List Char)
  | [] => none
  | c :: rest =>
    if c = separator then some ([], rest)
    else (cutFirst separator rest).map fun parts => (c :: parts.1, parts.2)

theorem eq_of_cutFirst {separator : Char} {s before after : List Char}
    (cut : cutFirst separator s = some (before, after)) : s = before ++ separator :: after := by
  induction s generalizing before with
  | nil => simp [cutFirst] at cut
  | cons c rest ih =>
    unfold cutFirst at cut
    split at cut
    next h => cases cut; simp [h]
    next =>
      obtain ⟨parts, found, eq⟩ := Option.map_eq_some_iff.1 cut
      cases eq
      simp [ih found]

theorem not_mem_of_cutFirst {separator : Char} {s before after : List Char}
    (cut : cutFirst separator s = some (before, after)) : separator ∉ before := by
  induction s generalizing before with
  | nil => simp [cutFirst] at cut
  | cons c rest ih =>
    unfold cutFirst at cut
    split at cut
    next => cases cut; simp
    next h =>
      obtain ⟨parts, found, eq⟩ := Option.map_eq_some_iff.1 cut
      cases eq
      have := ih found
      simp_all [eq_comm]

/-- The text before and after the first place where two separators follow each other. -/
def cutFirstPair (first second : Char) : List Char → Option (List Char × List Char)
  | [] => none
  | [_] => none
  | c :: d :: rest =>
    if c = first ∧ d = second then some ([], rest)
    else (cutFirstPair first second (d :: rest)).map fun parts => (c :: parts.1, parts.2)

/-- The text before and after the last character of a class, and that character. -/
def cutLast (isSeparator : Char → Bool) (s : List Char) : Option (List Char × List Char) :=
  match s.reverse.span (!isSeparator ·) with
  | (_, []) => none
  | (after, _ :: before) => some (before.reverse, after.reverse)

/-- All pieces between separators; one piece more than there are separators. -/
def pieces (separator : Char) : List Char → List (List Char)
  | [] => [[]]
  | c :: rest =>
    if c = separator then [] :: pieces separator rest
    else match pieces separator rest with
      | [] => [[c]]
      | piece :: others => (c :: piece) :: others

theorem pieces_ne_nil (separator : Char) (s : List Char) : pieces separator s ≠ [] := by
  cases s with
  | nil => simp [pieces]
  | cons c rest =>
    unfold pieces
    split
    · simp
    · split <;> simp

variable {separator : Char}

theorem pieces_of_not_mem {s : List Char} (whole : separator ∉ s) : pieces separator s = [s] := by
  induction s with
  | nil => rfl
  | cons c rest ih =>
    have ⟨other, whole⟩ := List.ne_and_not_mem_of_not_mem_cons whole
    rw [pieces, if_neg other.symm, ih whole]

theorem pieces_append {s : List Char} (whole : separator ∉ s) (rest : List Char) :
    pieces separator (s ++ separator :: rest) = s :: pieces separator rest := by
  induction s with
  | nil => rw [List.nil_append, pieces, if_pos rfl]
  | cons c s ih =>
    have ⟨other, whole⟩ := List.ne_and_not_mem_of_not_mem_cons whole
    rw [List.cons_append, pieces, if_neg other.symm, ih whole]

/-- Pieces behind separators come apart again, with nothing in front of the first separator. -/
theorem pieces_flatMap {texts : List (List Char)} (whole : ∀ s ∈ texts, separator ∉ s) :
    pieces separator (texts.flatMap (separator :: ·)) = [] :: texts := by
  induction texts with
  | nil => rfl
  | cons s others ih =>
    have ⟨first, later⟩ := List.forall_mem_cons.1 whole
    rw [List.flatMap_cons, List.cons_append, pieces, if_pos rfl]
    cases others with
    | nil => rw [List.flatMap_nil, List.append_nil, pieces_of_not_mem first]
    | cons next others =>
      have next_eq := ih later
      rw [List.flatMap_cons, List.cons_append, pieces, if_pos rfl, List.cons.injEq] at next_eq
      rw [List.flatMap_cons, List.cons_append, pieces_append first, next_eq.2]

end FleetRegistry.Text

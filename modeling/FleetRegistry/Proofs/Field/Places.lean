import FleetRegistry.Field.Error
import FleetRegistry.Proofs.Text.Cuts
import FleetRegistry.Text.Digits

/-!
Where violations are. The violations of one part of an object are those whose field is that part or
lies below it. Different members of an object have no field in common, and neither have different
elements of a list, so the violations of a part can be told from those of all others.
-/
namespace FleetRegistry

namespace FieldPath

/-! ## Fields at a path and below it -/

/-- Whether a path goes on with this character to something below it. -/
def opensStep (c : Char) : Bool := c = '.' || c = '['

/-- Whether a field is the one at a path or lies below it. -/
def covers (path : FieldPath) (field : String) : Bool :=
  path.text.toList.isPrefixOf field.toList
    && (field.toList.drop path.text.length).head?.all opensStep

def Below (lower upper : FieldPath) : Prop :=
  ∀ field, lower.covers field = true → upper.covers field = true

def Apart (path other : FieldPath) : Prop :=
  ∀ field, path.covers field = true → other.covers field = false

variable {path lower other : FieldPath} {field name : String} {i j : Nat}

theorem covers_iff : path.covers field = true
    ↔ ∃ below : List Char, field.toList = path.text.toList ++ below
      ∧ below.head?.all opensStep = true := by
  rw [covers, Bool.and_eq_true, List.isPrefixOf_iff_prefix]
  constructor
  · rintro ⟨⟨below, eq⟩, opens⟩
    exact ⟨below, eq.symm, by simpa [← eq, ← String.length_toList] using opens⟩
  · rintro ⟨below, eq, opens⟩
    exact ⟨⟨below, eq.symm⟩, by simpa [eq, ← String.length_toList] using opens⟩

@[simp] theorem covers_self : path.covers path.text = true :=
  covers_iff.2 ⟨[], by simp⟩

theorem Below.trans {top : FieldPath} (below : lower.Below path) (above : path.Below top) :
    lower.Below top :=
  fun field covered => above field (below field covered)

theorem Apart.symm (apart : path.Apart other) : other.Apart path := by
  intro field covered
  by_contra both
  rw [Bool.not_eq_false] at both
  rw [apart field both] at covered
  exact Bool.false_ne_true covered

theorem Apart.below (apart : path.Apart other) (below : lower.Below path) : lower.Apart other :=
  fun field covered => apart field (below field covered)

theorem Apart.above (apart : path.Apart other) (below : lower.Below other) : path.Apart lower :=
  (apart.symm.below below).symm

/-! ## Steps of a path -/

theorem below_of_text {step : List Char} (eq : lower.text.toList = path.text.toList ++ step)
    (opens : step.head?.any opensStep = true) : lower.Below path := by
  intro field covered
  obtain ⟨rest, field_eq, -⟩ := covers_iff.1 covered
  refine covers_iff.2 ⟨step ++ rest, by rw [field_eq, eq, List.append_assoc], ?_⟩
  cases step with
  | nil => cases opens
  | cons c step => simpa using opens

theorem toList_index : (path.index i).text.toList
    = path.text.toList ++ '[' :: ((Nat.repr i).toList ++ [']']) := by
  simp [index]

theorem toList_child (inner : path.text ≠ "") :
    (path.child name).text.toList = path.text.toList ++ '.' :: name.toList := by
  simp [child, inner]

theorem index_below (path : FieldPath) (i : Nat) : (path.index i).Below path :=
  below_of_text toList_index rfl

theorem child_below (inner : path.text ≠ "") (name : String) : (path.child name).Below path :=
  below_of_text (toList_child inner) rfl

theorem toList_key : (path.key name).text.toList
    = path.text.toList ++ '[' :: (name.toList ++ [']']) := by
  simp [key]

theorem key_below (path : FieldPath) (name : String) : (path.key name).Below path :=
  below_of_text toList_key rfl

theorem index_text_ne (path : FieldPath) (i : Nat) : (path.index i).text ≠ "" := by
  simp [index]

theorem child_text_ne (path : FieldPath) (name : String) (named : name ≠ "") :
    (path.child name).text ≠ "" := by
  unfold child
  split
  · exact named
  · simp

theorem index_apart (path : FieldPath) (ne : i ≠ j) : (path.index i).Apart (path.index j) := by
  intro field here
  by_contra there
  obtain ⟨below, eq, -⟩ := covers_iff.1 here
  obtain ⟨below', eq', -⟩ := covers_iff.1 (Bool.not_eq_false _ ▸ there)
  simp only [toList_index, List.append_assoc, List.cons_append, List.nil_append] at eq eq'
  have same := List.append_cancel_left (eq.symm.trans eq')
  have whole (n : Nat) : ']' ∉ (Nat.repr n).toList := by
    rw [Nat.toList_repr]
    intro mem
    have digit := Nat.isDigit_of_mem_toDigits (by decide) (by decide) mem
    exact absurd digit (by decide)
  have cut := congrArg (Text.cutFirst ']') (List.cons.inj same).2
  rw [Text.cutFirst_append (whole i), Text.cutFirst_append (whole j)] at cut
  have digits := congrArg Text.digits? (Prod.mk.inj (Option.some.inj cut)).1
  rw [Text.digits?_repr, Text.digits?_repr] at digits
  exact ne (Option.some.inj digits)

def isStep (name : String) : Bool := name.toList.all (!opensStep ·)

theorem exists_front (path : FieldPath) : ∃ front : List Char, ∀ name : String,
    (path.child name).text.toList = front ++ name.toList := by
  by_cases outer : path.text = ""
  · exact ⟨[], fun name => by simp [child, outer]⟩
  · exact ⟨path.text.toList ++ ['.'], fun name => by simp [toList_child outer]⟩

theorem child_apart {name' : String} (path : FieldPath) (step : isStep name = true)
    (step' : isStep name' = true) (ne : name ≠ name') :
    (path.child name).Apart (path.child name') := by
  have first {name : String} {below : List Char} (step : isStep name = true)
      (opens : below.head?.all opensStep = true) :
      (name.toList ++ below).takeWhile (!opensStep ·) = name.toList := by
    rw [List.takeWhile_append_of_pos (List.all_eq_true.1 step)]
    cases below with
    | nil => simp
    | cons c below => simpa using opens
  intro field here
  by_contra there
  obtain ⟨front, text⟩ := exists_front path
  obtain ⟨below, eq, opens⟩ := covers_iff.1 here
  obtain ⟨below', eq', opens'⟩ := covers_iff.1 (Bool.not_eq_false _ ▸ there)
  rw [text, List.append_assoc] at eq eq'
  have same := congrArg (List.takeWhile (!opensStep ·))
    (List.append_cancel_left (eq.symm.trans eq'))
  rw [first step opens, first step' opens'] at same
  exact ne (String.toList_injective same)

end FieldPath

/-! ## The violations of a part -/

namespace FieldErrors

def within (errors : FieldErrors) (path : FieldPath) : FieldErrors :=
  errors.filter fun error => path.covers error.field

/-- One violation where something is wrong, and none elsewhere. -/
def given (wrong : Prop) [Decidable wrong] (error : FieldError) : FieldErrors :=
  if wrong then [error] else []

def Inside (errors : FieldErrors) (path : FieldPath) : Prop :=
  ∀ error ∈ errors, path.covers error.field = true

variable {errors more : FieldErrors} {path other : FieldPath}

theorem within_append : (errors ++ more).within path = errors.within path ++ more.within path :=
  List.filter_append _ _

theorem Inside.within (inside : errors.Inside path) : errors.within path = errors :=
  List.filter_eq_self.2 inside

theorem Inside.within_apart (inside : errors.Inside path) (apart : path.Apart other) :
    errors.within other = [] := by
  rw [FieldErrors.within, List.filter_eq_nil_iff]
  exact fun error mem covered => Bool.false_ne_true (apart _ (inside error mem) ▸ covered)

theorem Inside.below {upper : FieldPath} (inside : errors.Inside path) (below : path.Below upper) :
    errors.Inside upper :=
  fun error mem => below _ (inside error mem)

theorem inside_nil : Inside [] path := nofun

theorem Inside.append (inside : errors.Inside path) (also : more.Inside path) :
    (errors ++ more).Inside path :=
  fun error mem => (List.mem_append.1 mem).elim (inside error) (also error)

theorem inside_given {wrong : Prop} [Decidable wrong] {error : FieldError}
    (field : error.field = path.text) : (given wrong error).Inside path := by
  unfold given
  split
  · exact List.forall_mem_singleton.2 (field ▸ FieldPath.covers_self)
  · exact inside_nil

theorem inside_map {α : Type} {list : List α} {each : α → FieldError}
    (field : ∀ a, (each a).field = path.text) : Inside (list.map each) path := by
  intro error mem
  obtain ⟨a, -, rfl⟩ := List.mem_map.1 mem
  exact field a ▸ FieldPath.covers_self

theorem inside_flatMap {α : Type} {list : List α} {each : α → FieldErrors}
    (inside : ∀ a ∈ list, (each a).Inside path) : Inside (list.flatMap each) path := by
  intro error mem
  obtain ⟨a, here, mem⟩ := List.mem_flatMap.1 mem
  exact inside a here error mem

theorem within_below {part : FieldErrors} (all : errors.within path = part) {lower : FieldPath}
    (below : lower.Below path) : errors.within lower = part.within lower := by
  simp only [← all, FieldErrors.within, List.filter_filter]
  refine List.filter_congr fun error _ => ?_
  rw [eq_comm, Bool.and_eq_left_iff_imp]
  exact below _

theorem within_part {parts : List (FieldPath × FieldErrors)}
    (inside : ∀ part ∈ parts, part.2.Inside part.1)
    (apart : parts.Pairwise fun part next => part.1.Apart next.1)
    {part : FieldPath × FieldErrors} (mem : part ∈ parts) :
    within (parts.flatMap (·.2)) part.1 = part.2 := by
  induction parts with
  | nil => cases mem
  | cons first rest ih =>
    have ⟨first_inside, rest_inside⟩ := List.forall_mem_cons.1 inside
    have ⟨first_apart, rest_apart⟩ := List.pairwise_cons.1 apart
    rw [List.flatMap_cons, within_append]
    rcases List.mem_cons.1 mem with rfl | later
    · have others : within (rest.flatMap (·.2)) part.1 = [] := by
        rw [FieldErrors.within, List.filter_flatMap, List.flatMap_eq_nil_iff]
        exact fun next mem => (rest_inside next mem).within_apart (first_apart next mem).symm
      rw [first_inside.within, others, List.append_nil]
    · rw [first_inside.within_apart (first_apart part later), List.nil_append,
        ih rest_inside rest_apart later]

/-! ## The elements of a list -/

variable {α : Type} {check : α × Nat → FieldErrors} {list : List α}

theorem inside_elements (inside : ∀ entry, (check entry).Inside (path.index entry.2)) :
    Inside (list.zipIdx.flatMap check) path :=
  inside_flatMap fun entry _ => (inside entry).below (path.index_below _)

theorem within_element (inside : ∀ entry, (check entry).Inside (path.index entry.2)) (i : Nat) :
    within (list.zipIdx.flatMap check) (path.index i)
      = (list[i]?.map fun element => check (element, i)).getD [] := by
  induction list using List.reverseRecOn with
  | nil => rfl
  | append_singleton list last ih =>
    rw [List.zipIdx_append, List.flatMap_append, within_append, ih]
    simp only [List.zipIdx_singleton, Nat.zero_add, List.flatMap_singleton]
    rcases Nat.lt_trichotomy i list.length with before | rfl | behind
    · rw [(inside _).within_apart (path.index_apart (Nat.ne_of_gt before)), List.append_nil,
        List.getElem?_append_left before]
    · rw [(inside _).within, List.getElem?_eq_none (Nat.le_refl _), List.getElem?_concat_length]
      rfl
    · rw [(inside _).within_apart (path.index_apart (Nat.ne_of_lt behind)), List.append_nil,
        List.getElem?_eq_none (Nat.le_of_lt behind), List.getElem?_eq_none
        (by simpa using Nat.succ_le_of_lt behind)]

theorem elements_eq (inside : ∀ entry, (check entry).Inside (path.index entry.2)) :
    list.zipIdx.flatMap check = (List.range list.length).flatMap fun i =>
      within (list.zipIdx.flatMap check) (path.index i) := by
  simp only [within_element inside]
  rw [List.flatMap_def, List.flatMap_def]
  refine congrArg List.flatten (List.ext_getElem (by simp) fun i here _ => ?_)
  have bound : i < list.length := by simpa using here
  simp [List.getElem?_eq_getElem bound]

end FieldErrors

end FleetRegistry

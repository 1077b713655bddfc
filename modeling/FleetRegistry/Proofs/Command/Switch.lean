import FleetRegistry.Command.Basic
import FleetRegistry.Error
import Mathlib.Tactic.SplitIfs

/-!
The switch by which a command is only tried. It counts at every level of a command line, wherever
it stands in front of a word that ends the options. Every line that can be read can be read with it,
and nothing else is then read differently.
-/
namespace FleetRegistry

namespace Command

def dryRunFlag : Flag := { name := "dry-run", parameter := .switch }

/-- Whether a command and those below it know nothing but the switch by its name, and are not called
like it. -/
inductive Grammar.Tries : Grammar → Prop
  | command {flags : List Flag} {required : List String} {arguments : Nat}
    {deeper : List (String × String × Grammar)}
    (only : ∀ flag ∈ flags, flag.name = "dry-run" → flag = dryRunFlag)
    (otherwise : ∀ entry ∈ deeper, entry.1 ≠ "--dry-run" ∧ entry.1 ≠ "--")
    (below : ∀ entry ∈ deeper, Tries entry.2.2) : Tries (.command flags required arguments deeper)

theorem tries_asking {flags : List Flag} (others : ∀ flag ∈ flags, flag.name ≠ "dry-run")
    (required : List String) (arguments : Nat) : (asking flags required arguments).Tries := by
  refine .command ?_ (List.forall_mem_nil _) (List.forall_mem_nil _)
  rw [List.forall_mem_append]
  exact ⟨by decide, fun flag mem named => (others flag mem named).elim⟩

theorem tries_actionGrammar : actionGrammar.Tries := by
  refine .command (by decide) ?_ ?_
  · rw [List.forall_mem_map]
    simp
  · rw [List.forall_mem_map]
    simp only [List.mem_cons, List.not_mem_nil, or_false, forall_eq_or_imp, forall_eq]
    refine ⟨?_, ?_, ?_, ?_, ?_, ?_, ?_⟩ <;> exact tries_asking (by decide) _ _

theorem tries_grammar : grammar.Tries := by
  refine .command (by decide) ?_ ?_
  · rw [List.forall_mem_map]
    simp [kindNames]
  · rw [List.forall_mem_map]
    exact fun _ _ => tries_actionGrammar

namespace Level

def tried (level : Level) : Bool := (level.options.lookup "dry-run").isSome

/-- Whether an option that is not taken in yet is another one. -/
def Waits (level : Level) : Prop :=
  ∀ flag value, level.pending = some (flag, value) → flag.name ≠ "dry-run"

variable {level level' : Level} {flag : Flag}

theorem take_tried {value : String} (taken : level.take flag value = .ok level') :
    level'.tried = (level.tried || flag.name = "dry-run") ∧ level'.pending = level.pending
      ∧ level'.argumentsOnly = level.argumentsOnly := by
  unfold take at taken
  split_ifs at taken
  cases taken
  have last : (List.lookup "dry-run" [(flag.name, value)]).isSome
      = decide (flag.name = "dry-run") := by
    by_cases named : flag.name = "dry-run"
    · simp [named]
    · rw [List.lookup_cons, beq_false_of_ne (Ne.symm named)]
      simp [named]
  refine ⟨?_, rfl, rfl⟩
  rw [tried, List.lookup_append, Option.isSome_or, last]
  rfl

theorem settle_tried (waits : level.Waits) (settled : level.settle = .ok level') :
    level'.tried = level.tried ∧ level'.pending = none
      ∧ level'.argumentsOnly = level.argumentsOnly := by
  unfold settle at settled
  split at settled
  next settles =>
    cases settled
    exact ⟨rfl, settles, rfl⟩
  next => cases settled
  next flag value pending =>
    have ⟨tried, settled, only⟩ := take_tried settled
    refine ⟨tried.trans ?_, settled, only⟩
    rw [decide_eq_false (waits flag _ pending), Bool.or_false]
    rfl

/-- What a word makes of a level: it is noted whether it is the switch. -/
structure Reads (level level' : Level) (switched : Prop) : Prop where
  tried : level'.tried = true ↔ level.tried = true ∨ switched
  waits : level'.Waits
  only : level'.argumentsOnly = level.argumentsOnly

theorem waits_of_none (settles : level.pending = none) : level.Waits := by
  intro flag value pending
  rw [settles] at pending
  cases pending

theorem settle_take_reads (waits : level.Waits) {value : String}
    (begun : (level.settle.bind fun level => level.take flag value) = .ok level') :
    Reads level level' (flag.name = "dry-run") := by
  obtain ⟨settled, first, taken⟩ := Outcome.bind_eq_ok.1 begun
  have ⟨tried, settles, only⟩ := settle_tried waits first
  have ⟨tried', keeps, only'⟩ := take_tried taken
  refine ⟨?_, waits_of_none (keeps.trans settles), only'.trans only⟩
  rw [tried', tried, Bool.or_eq_true, decide_eq_true_iff]

theorem begin_reads (waits : level.Waits) (sole : flag.name = "dry-run" → flag = dryRunFlag)
    {value : Option String} (begun : level.begin flag value = .ok level') :
    Reads level level' (flag.name = "dry-run") := by
  unfold begin at begun
  split at begun
  next => cases begun
  next => exact settle_take_reads waits begun
  next => exact settle_take_reads waits begun
  next waiting =>
    -- The option waits for its value, so it is not the switch.
    have other : flag.name ≠ "dry-run" := fun named => waiting (sole named ▸ rfl)
    obtain ⟨settled, first, begun⟩ := Outcome.bind_eq_ok.1 begun
    cases begun
    have ⟨tried, _, only⟩ := settle_tried waits first
    refine ⟨?_, ?_, only⟩
    · rw [or_iff_left other, ← tried]
      rfl
    · intro flag' value pending
      cases pending
      exact other

variable {g : Grammar}

theorem sole_of_tries (tries : g.Tries) {flag : Flag} (mem : flag ∈ helpFlag :: g.flags)
    (named : flag.name = "dry-run") : flag = dryRunFlag := by
  cases tries with
  | command only =>
    rcases List.mem_cons.1 mem with rfl | mem
    · exact absurd named (by decide)
    · exact only flag mem named

theorem long_reads (tries : g.Tries) (waits : level.Waits) {word : List Char}
    (read : level.long g word = .ok level') :
    Reads level level' (String.ofList word = "dry-run") := by
  unfold long at read
  dsimp only at read
  split at read
  next flag found =>
    have named : flag.name = String.ofList (word.takeWhile (· ≠ '=')) := by
      simpa using List.find?_some found
    have sole := sole_of_tries tries (List.mem_of_find?_eq_some found)
    have reads := begin_reads waits sole read
    have whole : flag.name = "dry-run" ↔ String.ofList word = "dry-run" := by
      constructor
      · intro switch
        rw [sole switch] at read
        -- A switch with a value is refused, so the word ends with its name.
        cases rest : word.dropWhile (· ≠ '=') with
        | cons _ value =>
          rw [rest] at read
          cases read
        | nil =>
          have all := List.takeWhile_append_dropWhile (p := (· ≠ '=')) (l := word)
          rw [rest, List.append_nil] at all
          rw [← all, ← named, switch]
      · intro whole
        have letters : word = "dry-run".toList := by rw [← whole, String.toList_ofList]
        rw [named, letters]
        decide
    exact ⟨by rw [reads.tried, whole], reads.waits, reads.only⟩
  next => cases read

theorem short_begins (g : Grammar) (letter : Char) (rest : List Char) :
    (∀ level : Level, level.short g letter rest = .error .unknownArgument) ∨
      ∃ flag value, g.flagByLetter? letter = some flag
        ∧ ∀ level : Level, level.short g letter rest = level.begin flag value := by
  unfold short
  cases g.flagByLetter? letter with
  | none => exact .inl fun _ => rfl
  | some flag =>
    dsimp only
    split_ifs
    · exact .inr ⟨flag, none, rfl, fun _ => rfl⟩
    · split <;> exact .inr ⟨flag, _, rfl, fun _ => rfl⟩

theorem short_reads (tries : g.Tries) (waits : level.Waits) {letter : Char} {rest : List Char}
    (read : level.short g letter rest = .ok level') : Reads level level' False := by
  rcases short_begins g letter rest with unknown | ⟨flag, value, found, begins⟩
  · rw [unknown] at read
    cases read
  · rw [begins] at read
    have lettered : flag.letter = some letter := by simpa using List.find?_some found
    have sole := sole_of_tries tries (List.mem_of_find?_eq_some found)
    have other : flag.name ≠ "dry-run" := fun named => by
      rw [sole named] at lettered
      cases lettered
    have reads := begin_reads waits sole read
    exact ⟨by rw [reads.tried, or_iff_left other, or_false], reads.waits, reads.only⟩

theorem argument_reads (waits : level.Waits) {word : String}
    (read : level.argument g word = .ok level') : Reads level level' False := by
  unfold argument at read
  split at read
  next =>
    obtain ⟨settled, first, read⟩ := Outcome.bind_eq_ok.1 read
    cases read
    have ⟨tried, settles, only⟩ := settle_tried waits first
    refine ⟨?_, waits_of_none settles, only⟩
    rw [or_false, ← tried]
    rfl
  next => split at read <;> cases read

theorem word_reads (tries : g.Tries) (waits : level.Waits) (among : level.argumentsOnly = false)
    {word : String} (read : level.word g word = .ok level') :
    level'.Waits ∧ (level'.tried = true ↔ level.tried = true ∨ word = "--dry-run")
      ∧ (level'.argumentsOnly = true ↔ word = "--") := by
  have goesOn {switched : Prop} (reads : Reads level level' switched)
      (switch : switched ↔ word = "--dry-run") (inside : word ≠ "--") :
      level'.Waits ∧ (level'.tried = true ↔ level.tried = true ∨ word = "--dry-run")
        ∧ (level'.argumentsOnly = true ↔ word = "--") :=
    ⟨reads.waits, by rw [reads.tried, switch], iff_of_false (by simp [reads.only, among]) inside⟩
  unfold Level.word at read
  rw [if_neg (by simp [among])] at read
  dsimp only at read
  split at read
  next ends =>
    cases read
    have word_eq : word = "--" := String.toList_inj.1 ends
    subst word_eq
    exact ⟨waits, by rw [or_iff_left (by decide)]; rfl, iff_of_true rfl rfl⟩
  next rest more starts =>
    refine goesOn (long_reads tries waits read) ⟨fun switch => ?_, fun switch => ?_⟩ fun ends => ?_
    · rw [← String.toList_inj, starts, ← String.toList_ofList (l := rest), switch]
      decide
    · rw [switch] at starts
      cases starts
      decide
    · rw [ends] at starts
      cases starts
      exact more rfl
  next letter rest _ single starts =>
    refine goesOn (short_reads tries waits read) ⟨False.elim, fun switch => ?_⟩ fun ends => ?_
    · rw [switch] at starts
      cases starts
      exact single rfl
    · rw [ends] at starts
      cases starts
      exact single rfl
  next ends dashes _ =>
    have plain : Reads level level' False := by
      split at read
      next flag pending =>
        cases read
        refine ⟨(or_iff_left id).symm, ?_, rfl⟩
        intro flag' value pending'
        cases pending'
        exact waits flag none pending
      next => exact argument_reads waits read
    refine goesOn plain ⟨False.elim, fun switch => ?_⟩ fun word_eq => ?_
    · exact dashes "dry-run".toList (by rw [switch]; decide)
    · exact ends (by rw [word_eq]; decide)

theorem finish_tried (waits : level.Waits) (finished : level.finish g = .ok level') :
    level'.tried = level.tried := by
  obtain ⟨settled, first, finished⟩ := Outcome.bind_eq_ok.1 finished
  have ⟨tried, _, _⟩ := settle_tried waits first
  split_ifs at finished
  cases finished
  exact tried

end Level

theorem isSet_cons (entry : String × Level) (levels : Invocation) :
    Invocation.isSet "dry-run" (entry :: levels) = true
      ↔ entry.2.tried = true ∨ levels.isSet "dry-run" = true := by
  simp only [Invocation.isSet, Invocation.option?, List.findSome?_isSome_iff, List.mem_reverse,
    List.mem_cons, or_and_right, exists_or, exists_eq_left, Level.tried]

theorem below_tries {g below : Grammar} {word nameBelow : String} (tries : g.Tries)
    (found : g.find? word = some (nameBelow, below)) :
    below.Tries ∧ word ≠ "--dry-run" ∧ word ≠ "--" := by
  cases tries with
  | command _ otherwise belows =>
    obtain ⟨front, back, split, -⟩ := List.lookup_eq_some_iff.1 found
    have mem : (word, nameBelow, below) ∈ front ++ (word, nameBelow, below) :: back :=
      List.mem_append_right front List.mem_cons_self
    rw [← split] at mem
    exact ⟨belows _ mem, otherwise _ mem⟩

theorem finish_of_readLevels {name : String} {g : Grammar} {level : Level} {levels : Invocation}
    (read : readLevels name g level [] = .ok levels) :
    ∃ last, level.finish g = .ok last ∧ levels = [(name, last)] := by
  rw [readLevels] at read
  cases finished : level.finish g with
  | error fault =>
    rw [finished] at read
    cases read
  | ok last =>
    rw [finished] at read
    cases read
    exact ⟨last, rfl, rfl⟩

/-- The switch is read exactly where it stands in front of the word that ends the options. -/
theorem readLevels_isSet {words : List String} {name : String} {g : Grammar} {level : Level}
    {levels : Invocation} (tries : g.Tries) (waits : level.Waits)
    (read : readLevels name g level words = .ok levels) :
    levels.isSet "dry-run" = true ↔ level.tried = true
      ∨ level.argumentsOnly = false ∧ "--dry-run" ∈ words.takeWhile (· ≠ "--") := by
  induction words generalizing name g level levels with
  | nil =>
    obtain ⟨last, finished, rfl⟩ := finish_of_readLevels read
    rw [isSet_cons, Level.finish_tried waits finished]
    simp [Invocation.isSet, Invocation.option?]
  | cons word rest ih =>
    have onward (read : ((level.word g word).bind fun level => readLevels name g level rest)
        = .ok levels) : levels.isSet "dry-run" = true ↔ level.tried = true
          ∨ level.argumentsOnly = false ∧ "--dry-run" ∈ (word :: rest).takeWhile (· ≠ "--") := by
      obtain ⟨next, first, later⟩ := Outcome.bind_eq_ok.1 read
      cases among : level.argumentsOnly with
      | true =>
        have argument : level.argument g word = .ok next := by
          rw [← first, Level.word, if_pos among]
        have reads := Level.argument_reads waits argument
        rw [ih tries reads.waits later, reads.tried, reads.only, among]
        simp
      | false =>
        have ⟨waits', tried, ends⟩ := Level.word_reads tries waits among first
        rw [ih tries waits' later, tried, ← Bool.not_eq_true, ends]
        by_cases word_eq : word = "--"
        · simp [word_eq]
        · simp [word_eq, or_assoc, @eq_comm _ "--dry-run" word]
    rw [readLevels] at read
    split at read
    next => exact onward read
    next stays =>
      split at read
      next => cases read
      next =>
        split at read
        next nameBelow below found =>
          obtain ⟨deeper, first, read⟩ := Outcome.bind_eq_ok.1 read
          obtain ⟨settled, settles, read⟩ := Outcome.bind_eq_ok.1 read
          cases read
          have ⟨tries', other, inside⟩ := below_tries tries found
          have ⟨tried, _, _⟩ := Level.settle_tried waits settles
          have among : level.argumentsOnly = false := by simp_all
          rw [isSet_cons, tried, ih tries' (Level.waits_of_none rfl) first, among]
          simp [Level.tried, inside, Ne.symm other]
        next => exact onward read

/-! ## Lines with the switch in front -/

namespace Level

def switched (level : Level) : Level :=
  { level with options := ("dry-run", "") :: level.options }

def Steady (step : Level → Except UsageFault Level) : Prop :=
  ∀ level level', step level = .ok level' → level'.tried = false →
    level.tried = false ∧ step level.switched = .ok level'.switched

namespace Steady

theorem bind {first next : Level → Except UsageFault Level} (h : Steady first) (h' : Steady next) :
    Steady fun level => (first level).bind next := by
  intro level level' read untried
  obtain ⟨between, before, after⟩ := Outcome.bind_eq_ok.1 read
  have ⟨untried, after⟩ := h' between level' after untried
  have ⟨untried, before⟩ := h level between before untried
  exact ⟨untried, Outcome.bind_eq_ok.2 ⟨_, before, after⟩⟩

theorem take (flag : Flag) (value : String) : Steady (Level.take flag value) := by
  intro level level' taken untried
  have ⟨tried, _, _⟩ := take_tried taken
  rw [untried, eq_comm, Bool.or_eq_false_iff, decide_eq_false_iff_not] at tried
  refine ⟨tried.1, ?_⟩
  have same : level.switched.options.lookup flag.name = level.options.lookup flag.name := by
    rw [switched, List.lookup_cons, beq_false_of_ne tried.2]
  unfold Level.take at taken ⊢
  rw [same]
  split_ifs at taken ⊢
  cases taken
  rfl

theorem settle : Steady Level.settle := by
  intro level level' settled untried
  cases pending : level.pending with
  | none =>
    simp only [Level.settle, pending] at settled
    cases settled
    refine ⟨untried, ?_⟩
    simp only [Level.settle, switched, pending]
  | some entry =>
    obtain ⟨flag, _ | value⟩ := entry
    · simp only [Level.settle, pending, reduceCtorEq] at settled
    · simp only [Level.settle, pending] at settled
      have ⟨untried, settled⟩ := take flag value _ _ settled untried
      refine ⟨untried, ?_⟩
      simp only [Level.settle, switched, pending]
      exact settled

theorem begin (flag : Flag) (value : Option String) : Steady (Level.begin flag value) := by
  intro level level' begun untried
  unfold Level.begin at begun ⊢
  split at begun
  next => cases begun
  next => exact settle.bind (take flag "") _ _ begun untried
  next => exact settle.bind (take flag _) _ _ begun untried
  next =>
    obtain ⟨settled, first, begun⟩ := Outcome.bind_eq_ok.1 begun
    cases begun
    have ⟨untried, first⟩ := settle _ _ first untried
    exact ⟨untried, Outcome.bind_eq_ok.2 ⟨_, first, rfl⟩⟩

variable (g : Grammar)

theorem long (word : List Char) : Steady (Level.long g word) := by
  intro level level' read untried
  unfold Level.long at read ⊢
  dsimp only at read ⊢
  split at read
  next flag found => exact begin flag _ _ _ read untried
  next => cases read

theorem short (letter : Char) (rest : List Char) : Steady (Level.short g letter rest) := by
  intro level level' read untried
  rcases short_begins g letter rest with unknown | ⟨flag, value, -, begins⟩
  · rw [unknown] at read
    cases read
  · rw [begins] at read ⊢
    exact begin flag value _ _ read untried

theorem argument (word : String) : Steady (Level.argument g word) := by
  intro level level' read untried
  unfold Level.argument at read ⊢
  split at read
  next room =>
    obtain ⟨settled, first, read⟩ := Outcome.bind_eq_ok.1 read
    cases read
    have ⟨untried, first⟩ := settle _ _ first untried
    refine ⟨untried, ?_⟩
    rw [if_pos (show level.switched.arguments.length < _ from room)]
    exact Outcome.bind_eq_ok.2 ⟨_, first, rfl⟩
  next => split at read <;> cases read

theorem word (word : String) : Steady (Level.word g word) := by
  intro level level' read untried
  unfold Level.word at read ⊢
  cases among : level.argumentsOnly with
  | true =>
    rw [if_pos among] at read
    rw [if_pos (show level.switched.argumentsOnly = true from among)]
    exact argument g word _ _ read untried
  | false =>
    rw [if_neg (by simp [among])] at read
    rw [if_neg (by simp [switched, among])]
    dsimp only at read ⊢
    split at read
    next =>
      cases read
      exact ⟨untried, rfl⟩
    next => exact long g _ _ _ read untried
    next => exact short g _ _ _ _ read untried
    next =>
      rw [show level.switched.pending = level.pending from rfl]
      rcases pending : level.pending with _ | ⟨flag, _ | value⟩
      · rw [pending] at read
        exact argument g word _ _ read untried
      · rw [pending] at read
        cases read
        exact ⟨untried, rfl⟩
      · rw [pending] at read
        exact argument g word _ _ read untried

theorem finish : Steady (Level.finish g) := by
  intro level level' finished untried
  obtain ⟨settled, first, finished⟩ := Outcome.bind_eq_ok.1 finished
  split_ifs at finished with group missing given
  cases finished
  have ⟨untried, first⟩ := settle _ _ first untried
  refine ⟨untried, Outcome.bind_eq_ok.2 ⟨_, first, ?_⟩⟩
  rw [Bool.not_eq_true', Bool.not_eq_false, List.all_eq_true] at given
  have given :
      (g.required.all fun name => (level'.switched.options.lookup name).isSome) = true := by
    rw [List.all_eq_true]
    intro name mem
    rw [switched, List.lookup_cons]
    split
    · rfl
    · exact given name mem
  rw [if_neg group, if_neg (show ¬ level'.switched.arguments.length < _ from missing), given]
  rfl

end Steady

end Level

theorem readLevels_switched {words : List String} {name : String} {g : Grammar} {level : Level}
    {levels : Invocation} (read : readLevels name g level words = .ok levels)
    (untried : ¬ levels.isSet "dry-run" = true) :
    ∃ last deeper, levels = (name, last) :: deeper ∧ level.tried = false
      ∧ readLevels name g level.switched words = .ok ((name, last.switched) :: deeper) := by
  induction words generalizing level with
  | nil =>
    obtain ⟨last, finished, rfl⟩ := finish_of_readLevels read
    rw [isSet_cons, not_or, Bool.not_eq_true] at untried
    have ⟨untried, finished⟩ := Level.Steady.finish g level last finished untried.1
    refine ⟨last, [], rfl, untried, ?_⟩
    rw [readLevels, finished]
    rfl
  | cons word rest ih =>
    have onward (read : ((level.word g word).bind fun level => readLevels name g level rest)
        = .ok levels) :
        ∃ last deeper, levels = (name, last) :: deeper ∧ level.tried = false
          ∧ ((level.switched.word g word).bind fun level => readLevels name g level rest)
            = .ok ((name, last.switched) :: deeper) := by
      obtain ⟨next, first, later⟩ := Outcome.bind_eq_ok.1 read
      obtain ⟨last, deeper, eq, untried, later⟩ := ih later
      have ⟨untried, first⟩ := Level.Steady.word g word level next first untried
      exact ⟨last, deeper, eq, untried, Outcome.bind_eq_ok.2 ⟨_, first, later⟩⟩
    have same : (level.switched.argumentsOnly || level.switched.awaitsValue)
        = (level.argumentsOnly || level.awaitsValue) := rfl
    rw [readLevels] at read ⊢
    rw [same]
    split at read
    next stays =>
      rw [if_pos stays]
      exact onward read
    next moves =>
      rw [if_neg moves]
      split at read
      next => cases read
      next asks =>
        rw [if_neg asks]
        split at read
        next nameBelow below found =>
          obtain ⟨deeper, first, read⟩ := Outcome.bind_eq_ok.1 read
          obtain ⟨settled, settles, read⟩ := Outcome.bind_eq_ok.1 read
          cases read
          rw [isSet_cons, not_or, Bool.not_eq_true] at untried
          have ⟨untried, settles⟩ := Level.Steady.settle level settled settles untried.1
          exact ⟨settled, deeper, rfl, untried,
            Outcome.bind_eq_ok.2 ⟨_, first, Outcome.bind_eq_ok.2 ⟨_, settles, rfl⟩⟩⟩
        next => exact onward read

theorem option?_switched {option : String} (other : option ≠ "dry-run") (name : String)
    (level : Level) (deeper : Invocation) :
    Invocation.option? option ((name, level.switched) :: deeper)
      = Invocation.option? option ((name, level) :: deeper) := by
  have same : level.switched.options.lookup option = level.options.lookup option := by
    rw [Level.switched, List.lookup_cons, beq_false_of_ne other]
  simp only [Invocation.option?, List.reverse_cons, List.findSome?_append, List.findSome?_cons,
    same]

theorem arguments_switched (name : String) (level : Level) (deeper : Invocation) :
    Invocation.arguments ((name, level.switched) :: deeper)
      = Invocation.arguments ((name, level) :: deeper) := by
  cases deeper <;> rfl

theorem action_switched (action name : String) (level : Level) (deeper : Invocation) :
    Command.action action ((name, level.switched) :: deeper)
      = Command.action action ((name, level) :: deeper) := by
  simp (disch := decide) only [Command.action, selection, choice?, Invocation.isSet,
    option?_switched, arguments_switched]

end Command

namespace CommandLine

theorem ofWords_dryRun {words : List String} {line : CommandLine}
    (read : ofWords words = .ok line) :
    line.dryRun = true ↔ "--dry-run" ∈ words.takeWhile (· ≠ "--") := by
  obtain ⟨levels, first, read⟩ := Outcome.bind_eq_ok.1 read
  have switch := Command.readLevels_isSet Command.tries_grammar
    (Command.Level.waits_of_none rfl) first
  split at read
  next =>
    cases read
    exact switch.trans ⟨fun either => either.elim nofun And.right, fun mem => .inr ⟨rfl, mem⟩⟩
  next => cases read

theorem ofWords_switched {words : List String} {line : CommandLine}
    (read : ofWords words = .ok line) (untried : line.dryRun = false) :
    ofWords ("--dry-run" :: words) = .ok { line with dryRun := true } := by
  obtain ⟨levels, first, read⟩ := Outcome.bind_eq_ok.1 read
  split at read
  next root kind action path =>
    cases read
    obtain ⟨last, deeper, rfl, -, first⟩ :=
      Command.readLevels_switched first (Bool.eq_false_iff.1 untried)
    refine Outcome.bind_eq_ok.2 ⟨_, first, ?_⟩
    have switch : Command.Invocation.isSet "dry-run" (("", last.switched) :: deeper) = true :=
      (Command.isSet_cons _ _).2 (.inl rfl)
    have path : Command.Invocation.path (("", last.switched) :: deeper) = [root, kind, action] := path
    rw [path]
    simp (disch := decide) only [Command.choice?, Command.option?_switched, Command.action_switched,
      switch]
    rfl
  next => cases read

end CommandLine

end FleetRegistry

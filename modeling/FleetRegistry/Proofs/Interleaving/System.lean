import FleetRegistry.Proofs.Interleaving.Held

/-!
Calls that take their steps in any order over one store. Whatever the order, the store has a journal
in which everything stood that a call has read, and every write is based on what its call read last.
-/
namespace FleetRegistry

variable {k : Kind}

/-- A call in progress: the objects that it has read, the latest first, and what it still has to do.
What it has read does not outlast a failed reading, a look at the store or a write. -/
structure Process (k : Kind) where
  reads : List (Object k) := []
  rest : Steps k (Answer k (Watch k))

structure System (ι : Type) (k : Kind) where
  store : Store k
  processes : ι → Process k
  /-- The calls whose write succeeded, in the order of their writes. -/
  written : List ι := []

/-- The key of the object that a call is about to replace or remove. -/
def Process.replaces? (p : Process k) : Option ObjectKey :=
  match p.rest with
  | .write w _ => w.replaces?
  | _ => none

theorem Process.exists_of_replaces? {p : Process k} {key : ObjectKey}
    (h : p.replaces? = some key) :
    ∃ w next, p.rest = .write w next ∧ w.replaces? = some key := by
  unfold replaces? at h
  split at h
  next w next rest => exact ⟨w, next, rest, h⟩
  next => cases h

def Request.steps (policy : WritePolicy) (r : Request k) : Steps k (Answer k (Watch k)) :=
  Registry.callSteps policy r.ambient r.ns r.call

def Request.perform (policy : WritePolicy) (r : Request k) (s : Store k) :
    Outcome (Answer k (Watch k)) × Store k :=
  Registry.perform policy r.ambient r.ns r.call s

@[simp] theorem Request.run_steps (policy : WritePolicy) (r : Request k) (s : Store k) :
    (r.steps policy).run s = r.perform policy s := Registry.run_callSteps ..

namespace System

variable {ι : Type}

def start (policy : WritePolicy) (s : Store k) (calls : ι → Request k) : System ι k where
  store := s
  processes i := { rest := (calls i).steps policy }

/-- Calls that begin on the store that other calls have left. -/
def following (policy : WritePolicy) (requests : List (Request k)) (calls : ι → Request k) :
    System ι k := start policy (Registry.after policy (.empty k) requests) calls

variable [DecidableEq ι]

def resume (S : System ι k) (i : ι) (p : Process k) : System ι k :=
  { S with processes := Function.update S.processes i p }

def step (S : System ι k) (i : ι) : System ι k :=
  let p := S.processes i
  match p.rest with
  | .done _ => S
  | .read ns name next =>
    match S.store.get ns name with
    | .ok o => S.resume i ⟨o :: p.reads, next (.ok o)⟩
    | .error error => S.resume i ⟨[], next (.error error)⟩
  | .look next => S.resume i ⟨[], next S.store⟩
  | .write w next =>
    match w.apply S.store with
    | (.ok o, s) =>
      { S.resume i ⟨[], next (.ok o)⟩ with store := s, written := S.written ++ [i] }
    | (.error error, s) => { S.resume i ⟨[], next (.error error)⟩ with store := s }

def run (S : System ι k) (schedule : List ι) : System ι k := schedule.foldl step S

variable {S : System ι k} {i : ι}

@[simp] theorem run_nil (S : System ι k) : S.run [] = S := rfl

@[simp] theorem run_cons (S : System ι k) (i : ι) (rest : List ι) :
    S.run (i :: rest) = (S.step i).run rest := rfl

theorem run_append (S : System ι k) (first rest : List ι) :
    S.run (first ++ rest) = (S.run first).run rest := List.foldl_append

@[simp] theorem resume_processes_self (S : System ι k) (i : ι) (p : Process k) :
    (S.resume i p).processes i = p := Function.update_self ..

theorem resume_processes_of_ne (S : System ι k) {i j : ι} (other : j ≠ i) (p : Process k) :
    (S.resume i p).processes j = S.processes j := Function.update_of_ne other _ _

inductive Takes (S : System ι k) (i : ι) : System ι k → Prop
  | finished {outcome} (rest : (S.processes i).rest = .done outcome) : Takes S i S
  | found {ns name next o} (rest : (S.processes i).rest = .read ns name next)
    (there : S.store.get ns name = .ok o) :
    Takes S i (S.resume i ⟨o :: (S.processes i).reads, next (.ok o)⟩)
  | missed {ns name next error} (rest : (S.processes i).rest = .read ns name next)
    (absent : S.store.get ns name = .error error) :
    Takes S i (S.resume i ⟨[], next (.error error)⟩)
  | looked {next} (rest : (S.processes i).rest = .look next) :
    Takes S i (S.resume i ⟨[], next S.store⟩)
  | wrote {w next o s} (rest : (S.processes i).rest = .write w next)
    (ok : w.apply S.store = (.ok o, s)) :
    Takes S i { S.resume i ⟨[], next (.ok o)⟩ with store := s, written := S.written ++ [i] }
  | refused {w next error s} (rest : (S.processes i).rest = .write w next)
    (failed : w.apply S.store = (.error error, s)) :
    Takes S i { S.resume i ⟨[], next (.error error)⟩ with store := s }

theorem takes_step (S : System ι k) (i : ι) : S.Takes i (S.step i) := by
  unfold step
  simp only
  split
  next rest => exact .finished rest
  next rest =>
    split
    next there => exact .found rest there
    next absent => exact .missed rest absent
  next rest => exact .looked rest
  next rest =>
    split
    next ok => exact .wrote rest ok
    next failed => exact .refused rest failed

theorem step_of_done {outcome : Outcome (Answer k (Watch k))}
    (rest : (S.processes i).rest = .done outcome) : S.step i = S := by
  simp only [step, rest]

theorem step_of_refused {w : Store.Write k}
    {next : Outcome (Object k) → Steps k (Answer k (Watch k))}
    (rest : (S.processes i).rest = .write w next) {error : RegistryError}
    (failed : w.apply S.store = (.error error, S.store)) :
    S.step i = S.resume i ⟨[], next (.error error)⟩ := by
  simp only [step, rest, failed]
  rfl

theorem Takes.mem_written {S' : System ι k} {j : ι} (h : S.Takes j S')
    (written : i ∈ S'.written) : i ∈ S.written ∨ j = i ∧
      ∃ w next o, (S.processes i).rest = .write w next ∧ (w.apply S.store).1 = .ok o := by
  cases h with
  | finished | found | missed | looked | refused => exact .inl written
  | @wrote w next o s rest ok =>
    rcases List.mem_append.1 written with before | now
    · exact .inl before
    · obtain rfl := List.mem_singleton.1 now
      exact .inr ⟨rfl, w, next, o, rest, by rw [ok]⟩

theorem Takes.processes_of_ne {S' : System ι k} (h : S.Takes i S') {j : ι} (other : j ≠ i) :
    S'.processes j = S.processes j := by
  cases h with
  | finished => rfl
  | found | missed | looked | wrote | refused => exact S.resume_processes_of_ne other _

theorem run_processes_of_not_mem (S : System ι k) {j : ι} {schedule : List ι}
    (waits : j ∉ schedule) : (S.run schedule).processes j = S.processes j := by
  induction schedule generalizing S with
  | nil => rfl
  | cons i rest ih =>
    rw [List.mem_cons, not_or] at waits
    rw [run_cons, ih _ waits.2, (S.takes_step i).processes_of_ne waits.1]

/-! ## What holds in every order -/

/-- What holds of a call in progress, on a store with a journal. -/
structure SoundProcess (log : List (Event k)) (p : Process k) : Prop where
  guarded : p.rest.Guarded p.reads.head?
  held : ∀ o ∈ p.reads, Event.Held log o

/-- What holds of calls in progress at all times. -/
structure Sound (S : System ι k) (log : List (Event k)) : Prop where
  remembers : S.store.Remembers log
  named : S.store.Named
  process : ∀ i, SoundProcess log (S.processes i)

theorem SoundProcess.append {log : List (Event k)} {p : Process k} (h : SoundProcess log p)
    (more : List (Event k)) : SoundProcess (log ++ more) p :=
  ⟨h.guarded, fun o mem => (h.held o mem).append more⟩

/-- One call goes on, and the store may take an event. -/
theorem Sound.resume {log more : List (Event k)} (h : S.Sound log) {p : Process k} {s : Store k}
    {written : List ι} (remembers : s.Remembers (log ++ more)) (named : s.Named)
    (sound : SoundProcess (log ++ more) p) :
    Sound { S.resume i p with store := s, written } (log ++ more) := by
  refine ⟨remembers, named, fun j => ?_⟩
  by_cases same : j = i
  · subst same
    simpa using sound
  · simp only [S.resume_processes_of_ne same]
    exact (h.process j).append more

theorem Sound.step {log : List (Event k)} (h : S.Sound log) (i : ι) :
    ∃ more, (S.step i).Sound (log ++ more) := by
  have ⟨guarded, held⟩ := h.process i
  have taken := S.takes_step i
  generalize S.step i = S' at taken
  have here : S.store.Remembers (log ++ []) := by simpa using h.remembers
  cases taken with
  | finished => exact ⟨[], by simpa using h⟩
  | @found _ _ _ o rest there =>
    rw [rest] at guarded
    rw [Store.get_eq_ok] at there
    have named := h.named _ _ there
    rw [h.remembers.view] at there
    have next := guarded (.ok o) fun _ same => by
      cases same
      exact ⟨Event.key_of_replay there, named⟩
    refine ⟨[], h.resume here h.named ⟨next, fun x mem => ?_⟩⟩
    rw [List.append_nil]
    rcases List.mem_cons.1 mem with rfl | mem
    · exact Event.held_of_replay there
    · exact held x mem
  | @missed _ _ _ error rest absent =>
    rw [rest] at guarded
    have next := guarded (.error error) fun _ same => by cases same
    exact ⟨[], h.resume here h.named ⟨next, fun _ mem => absurd mem List.not_mem_nil⟩⟩
  | looked rest =>
    rw [rest] at guarded
    exact ⟨[], h.resume here h.named ⟨guarded S.store, fun _ mem => absurd mem List.not_mem_nil⟩⟩
  | @wrote _ _ o _ rest ok =>
    rw [rest] at guarded
    have named := h.named.apply h.remembers guarded.1
    rcases h.remembers.apply _ with ⟨_, eq⟩ | ⟨e, _, remembers⟩
    · rw [eq] at ok
      cases ok
    · rw [ok] at remembers named
      exact ⟨[e], h.resume remembers named
        ⟨guarded.2 (.ok o), fun _ mem => absurd mem List.not_mem_nil⟩⟩
  | @refused _ _ error _ rest failed =>
    rw [rest] at guarded
    rcases h.remembers.apply _ with ⟨_, eq⟩ | ⟨_, eq, _⟩
    · rw [eq] at failed
      cases failed
      exact ⟨[], h.resume here h.named
        ⟨guarded.2 (.error error), fun _ mem => absurd mem List.not_mem_nil⟩⟩
    · rw [failed] at eq
      cases eq

theorem Sound.run {log : List (Event k)} (h : S.Sound log) (schedule : List ι) :
    ∃ more, (S.run schedule).Sound (log ++ more) := by
  induction schedule generalizing S log with
  | nil => exact ⟨[], by simpa using h⟩
  | cons i rest ih =>
    obtain ⟨more, next⟩ := h.step i
    obtain ⟨later, last⟩ := ih next
    exact ⟨more ++ later, by simpa using last⟩

omit [DecidableEq ι] in
theorem sound_following (policy : WritePolicy) (requests : List (Request k))
    (calls : ι → Request k) : ∃ log, (following policy requests calls).Sound log := by
  obtain ⟨log, remembers, named⟩ := Registry.after_named policy requests
  exact ⟨log, remembers, named, fun i =>
    ⟨Registry.callSteps_guarded _ _ _ _, fun o mem => absurd mem List.not_mem_nil⟩⟩

end System

end FleetRegistry

import FleetRegistry.Proofs.Interleaving.System

/-!
Between a reading and a write. A call that is about to replace or remove an object has read it
last. If the object stays as it is until the call writes, the write succeeds; if it is changed or
removed at any time before, the write fails, changes nothing, and ends the call.
-/
namespace FleetRegistry

variable {k : Kind}

def Process.Within (n : Nat) (p : Process k) : Prop :=
  ∃ m, p.reads.length + m ≤ n ∧ p.rest.Within m

namespace System

variable {ι : Type} [DecidableEq ι] {S : System ι k} {log : List (Event k)} {i : ι}

theorem run_process {P : Process k → Prop} (S : System ι k) (i : ι) (h : P (S.processes i))
    (own : ∀ S' : System ι k, P (S'.processes i) → P ((S'.step i).processes i))
    (schedule : List ι) : P ((S.run schedule).processes i) := by
  induction schedule generalizing S with
  | nil => exact h
  | cons j rest ih =>
    refine ih _ ?_
    by_cases same : i = j
    · subst same
      exact own S h
    · rw [(S.takes_step j).processes_of_ne same]
      exact h

theorem within_step {n : Nat} (h : (S.processes i).Within n) :
    ((S.step i).processes i).Within n := by
  obtain ⟨m, bound, within⟩ := h
  have taken := S.takes_step i
  generalize S.step i = S' at taken
  cases taken with
  | finished => exact ⟨m, bound, within⟩
  | @found _ _ _ o rest =>
    rw [rest] at within
    cases m with
    | zero => exact within.elim
    | succ m =>
      refine ⟨m, ?_, by simpa using within (.ok o)⟩
      simp only [resume_processes_self, List.length_cons]
      omega
  | @missed _ _ _ error rest =>
    rw [rest] at within
    cases m with
    | zero => exact within.elim
    | succ m =>
      refine ⟨m, ?_, by simpa using within (.error error)⟩
      simp only [resume_processes_self, List.length_nil]
      omega
  | looked rest =>
    rw [rest] at within
    exact within.elim
  | @wrote _ _ o _ rest =>
    rw [rest] at within
    obtain ⟨a, eq⟩ := within.2 o
    exact ⟨m, by simp; omega, by simp [eq, Steps.Within]⟩
  | @refused _ _ error _ rest =>
    rw [rest] at within
    exact ⟨m, by simp; omega, by simp [within.1 error, Steps.Within]⟩

theorem within_run {n : Nat} {policy : WritePolicy} {s : Store k} {calls : ι → Request k} {i : ι}
    (h : ((calls i).steps policy).Within n) (schedule : List ι) :
    (((start policy s calls).run schedule).processes i).Within n := by
  refine run_process _ i ⟨n, ?_, h⟩ (fun _ => within_step) schedule
  simp [start]

omit [DecidableEq ι] in
theorem Sound.waiting (h : S.Sound log) {w : Store.Write k}
    {next : Outcome (Object k) → Steps k (Answer k (Watch k))}
    (rest : (S.processes i).rest = .write w next) {key : ObjectKey}
    (replaces : w.replaces? = some key) :
    ∃ old, (S.processes i).reads.head? = some old ∧ w.BasedOn (some old)
      ∧ Event.Held log old := by
  have ⟨guarded, held⟩ := h.process i
  rw [rest] at guarded
  have ⟨based, _⟩ := guarded
  have read : ∃ old, (S.processes i).reads.head? = some old := by
    cases w with
    | create => cases replaces
    | update =>
      obtain ⟨_, old, eq, _⟩ := based
      exact ⟨old, eq⟩
    | delete =>
      obtain ⟨old, eq, _⟩ := based
      exact ⟨old, eq⟩
  obtain ⟨old, eq⟩ := read
  exact ⟨old, eq, eq ▸ based, held old (List.mem_of_head? eq)⟩

omit [DecidableEq ι] in
theorem Sound.there_of_wrote (h : S.Sound log) {w : Store.Write k}
    {next : Outcome (Object k) → Steps k (Answer k (Watch k))}
    (rest : (S.processes i).rest = .write w next) {old o : Object k}
    (read : (S.processes i).reads.head? = some old) (ok : (w.apply S.store).1 = .ok o) :
    w.replaces? = some old.key ∧ S.store.view old.key = some old := by
  have ⟨guarded, held⟩ := h.process i
  rw [rest, read] at guarded
  have ⟨based, _⟩ := guarded
  have replaces : ∃ key, w.replaces? = some key := by
    cases w with
    | create => cases based.2
    | update => exact ⟨_, rfl⟩
    | delete => exact ⟨_, rfl⟩
  obtain ⟨key, replaces⟩ := replaces
  obtain ⟨rfl, ⟨there, -⟩ | ⟨-, error, failed, -⟩⟩ :=
    h.remembers.write_based based replaces (held old (List.mem_of_head? read))
  · exact ⟨replaces, there⟩
  · rw [failed] at ok
    cases ok

theorem Sound.there_between (h : S.Sound log) {old : Object k} (held : Event.Held log old)
    {schedule between : List ι} (inside : between <+: schedule)
    (there : (S.run schedule).store.view old.key = some old) :
    (S.run between).store.view old.key = some old := by
  obtain ⟨later, rfl⟩ := inside
  obtain ⟨first, middle⟩ := h.run between
  obtain ⟨second, last⟩ := middle.run later
  have legal := last.remembers.legal
  rw [run_append, last.remembers.view] at there
  rw [List.append_assoc] at legal there
  rw [middle.remembers.view]
  exact (held.unchanged legal there rfl).2 first (List.prefix_append first second)

theorem Sound.write_after (h : S.Sound log) {w : Store.Write k}
    {next : Outcome (Object k) → Steps k (Answer k (Watch k))}
    (rest : (S.processes i).rest = .write w next) {key : ObjectKey}
    (replaces : w.replaces? = some key) (schedule : List ι) :
    ∃ old, (S.processes i).reads.head? = some old ∧ old.key = key ∧
      ((∃ stored, (w.apply (S.run schedule).store).1 = .ok stored) →
        ∀ between, between <+: schedule → (S.run between).store.view key = some old) ∧
      ∀ between, between <+: schedule → (S.run between).store.view key ≠ some old →
        ∃ error, w.apply (S.run schedule).store = (.error error, (S.run schedule).store)
          ∧ if ((S.run schedule).store.view key).isNone then error.isNotFound
            else error.isConflict := by
  obtain ⟨old, head, based, held⟩ := h.waiting rest replaces
  obtain ⟨more, after⟩ := h.run schedule
  have ⟨same, outcome⟩ := after.remembers.write_based based replaces (held.append more)
  subst same
  refine ⟨old, head, rfl, ?_, ?_⟩
  · rintro ⟨stored, ok⟩ between inside
    rcases outcome with ⟨there, -⟩ | ⟨-, error, failed, -⟩
    · exact h.there_between held inside there
    · rw [failed] at ok
      cases ok
  · intro between inside gone
    rcases outcome with ⟨there, -⟩ | ⟨-, failed⟩
    · exact absurd (h.there_between held inside there) gone
    · exact failed

end System

end FleetRegistry

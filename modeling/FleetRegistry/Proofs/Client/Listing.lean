import FleetRegistry.Client.Listing

/-!
Listing page by page, over any way to list one page. Pages are gathered exactly if they form a chain
that comes to an end: one list is asked for after the other, each for the same objects and with the
token of the page before it, until a page has no token or a list fails.
-/
namespace FleetRegistry.Lister

variable {k : Kind} {State : Type} {list : Lister k State} {options : ListOptions}
  {state after : State} {page : Page k} {pages : List (Page k)} {error : Option RegistryError}
  {token : String} {n : Nat}

/-- Pages of which each leads to the next, from some options on. At the end the last one has no
token, or the list that it leads to fails. -/
inductive Chain (list : Lister k State) :
    ListOptions → State → List (Page k) → Option RegistryError → State → Prop
  | ends {options : ListOptions} {state after : State} {page : Page k}
    (answered : list options state = (.ok page, after)) (last : page.continueToken = none) :
    Chain list options state [page] none after
  | fails {options : ListOptions} {state after : State} {error : RegistryError}
    (refused : list options state = (.error error, after)) :
    Chain list options state [] (some error) after
  | goesOn {options : ListOptions} {state next after : State} {page : Page k} {token : String}
    {pages : List (Page k)} {error : Option RegistryError}
    (answered : list options state = (.ok page, next)) (leads : page.continueToken = some token)
    (rest : Chain list { options with continueToken := some token } next pages error after) :
    Chain list options state (page :: pages) error after

/-- What is asked for along a chain: what the caller wants, and what the token of each page leads
to. -/
def asked (options : ListOptions) (pages : List (Page k)) : List ListOptions :=
  options :: pages.filterMap fun page => page.continueToken.map fun token =>
    { options with continueToken := some token }

theorem asked_single (last : page.continueToken = none) : asked options [page] = [options] := by
  simp [asked, last]

theorem asked_cons (leads : page.continueToken = some token) : asked options (page :: pages)
    = options :: asked { options with continueToken := some token } pages := by
  simp [asked, leads]

/-- What a chain of pages comes to: all objects in the order of the pages, or the error. -/
def gathered (pages : List (Page k)) : Option RegistryError → Outcome (List (Object k))
  | none => .ok (pages.flatMap (·.items))
  | some error => .error error

theorem gathered_cons (page : Page k) (pages : List (Page k)) (error : Option RegistryError) :
    gathered (page :: pages) error = (gathered pages error).map (page.items ++ ·) := by
  cases error <;> rfl

theorem Chain.pages_eq (chain : Chain list options state pages error after)
    (enough : (asked options pages).length ≤ n) :
    list.pages n options state = (some (gathered pages error), after) := by
  induction chain generalizing n with
  | ends answered last =>
    cases n with
    | zero => cases enough
    | succ n => simp [Lister.pages, answered, last, gathered]
  | fails refused =>
    cases n with
    | zero => cases enough
    | succ n => simp [Lister.pages, refused, gathered]
  | goesOn answered leads rest ih =>
    cases n with
    | zero => cases enough
    | succ n =>
      rw [asked_cons leads] at enough
      have rest := ih (Nat.le_of_succ_le_succ enough)
      simp only [Lister.pages, answered, leads, rest, gathered_cons, Option.map_some]

theorem exists_chain_of_pages {outcome : Outcome (List (Object k))}
    (done : list.pages n options state = (some outcome, after)) :
    ∃ pages error, Chain list options state pages error after
      ∧ (asked options pages).length ≤ n ∧ outcome = gathered pages error := by
  induction n generalizing options state outcome with
  | zero => cases done
  | succ n ih =>
    rw [Lister.pages] at done
    split at done
    next error next refused =>
      cases done
      exact ⟨[], some error, .fails refused, Nat.le_add_left 1 n, rfl⟩
    next page next answered =>
      split at done
      next last =>
        cases done
        refine ⟨[page], none, .ends answered last, ?_, by simp [gathered]⟩
        rw [asked_single last]
        exact Nat.le_add_left 1 n
      next token leads =>
        obtain ⟨later, rfl⟩ := Prod.mk.inj done
        obtain ⟨rest, got, rfl⟩ := Option.map_eq_some_iff.1 later
        obtain ⟨pages, error, chain, few, rfl⟩ := ih (Prod.ext got rfl)
        exact ⟨page :: pages, error, .goesOn answered leads chain,
          asked_cons leads ▸ Nat.succ_le_succ few, (gathered_cons page pages error).symm⟩

/-- There is an outcome exactly if a chain of so many lists comes to it. -/
theorem pages_eq_some_iff {outcome : Outcome (List (Object k))} :
    list.pages n options state = (some outcome, after) ↔
      ∃ pages error, Chain list options state pages error after
        ∧ (asked options pages).length ≤ n ∧ outcome = gathered pages error :=
  ⟨exists_chain_of_pages, fun ⟨_, _, chain, enough, same⟩ => same ▸ chain.pages_eq enough⟩

/-! ## What is asked for -/

/-- A lister that also writes down what it is asked for. -/
def recorded (list : Lister k State) : Lister k (State × List ListOptions) :=
  fun options (state, log) =>
    let (outcome, state) := list options state
    (outcome, (state, log ++ [options]))

theorem recorded_eq {answer : Outcome (Page k)} (answered : list options state = (answer, after))
    (log : List ListOptions) :
    list.recorded options (state, log) = (answer, (after, log ++ [options])) := by
  rw [recorded, answered]

theorem Chain.recorded (chain : Chain list options state pages error after)
    (log : List ListOptions) :
    Chain list.recorded options (state, log) pages error (after, log ++ asked options pages) := by
  induction chain generalizing log with
  | ends answered last =>
    rw [asked_single last]
    exact .ends (recorded_eq answered log) last
  | fails refused => exact .fails (recorded_eq refused log)
  | @goesOn options _ _ _ _ _ _ _ answered leads rest ih =>
    rw [asked_cons leads, List.append_cons]
    exact .goesOn (recorded_eq answered log) leads (ih _)

end FleetRegistry.Lister

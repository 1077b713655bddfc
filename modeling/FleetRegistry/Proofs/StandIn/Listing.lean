import FleetRegistry.Proofs.Client.Listing
import FleetRegistry.Proofs.Store.Paging
import FleetRegistry.Client.StandIn
import Mathlib.Algebra.Order.Floor.Div

/-!
Listing page by page over a stand-in that nobody writes to in between. Its tokens stay good, each
page takes up where the one before it ended, and the list comes to an end after as many pages as the
objects fill. So it is the same as one list without a limit.
-/
namespace FleetRegistry

variable {k : Kind}

theorem Selection.ofListOptions_page (o : ListOptions) (limit : Option Nat)
    (token : Option String) : ofListOptions { o with limit, continueToken := token }
      = (ofListOptions o).map fun selection =>
        { selection with
          limit := limit.filter (· > 0)
          continueToken := token.filter (!·.isEmpty) } := by
  unfold ofListOptions
  cases selectors o.labelSelector o.fieldSelector <;> rfl

namespace StandIn

/-! ## Lists of a stand-in -/

/-- The lists of a client of a stand-in, each with what it finds around it. -/
def lister (around : StandIn → Ambient) (ns : String) : Lister k StandIn := fun options s =>
  let (outcome, after) := s.serve (around s) ns (.list options : Call k)
  (outcome.map fun answer => answer.page?.getD {}, after)

/-- A stand-in after so many lists: they have been written down. -/
def listed (k : Kind) (ns : String) (n : Nat) (s : StandIn) : StandIn :=
  let call : Call k := .list {}
  { s with actions := s.actions ++ List.replicate n (.ofCall (boundTo k ns) call) }

variable {around : StandIn → Ambient} {ns : String} {options : ListOptions} {s : StandIn}

@[simp] theorem store_listed (ns : String) (n : Nat) : (s.listed k ns n).store k = s.store k := by
  cases k <;> rfl

theorem listed_succ (n : Nat) : (s.listed k ns 1).listed k ns n = s.listed k ns (n + 1) := by
  simp [listed, List.replicate_succ]

theorem serve_list (quiet : s.reactors = []) (ambient : Ambient) (options : ListOptions) :
    s.serve ambient ns (.list options : Call k)
      = (((Selection.ofListOptions options).bind ((s.store k).list (boundTo k ns))).map .page,
        s.listed k ns 1) := by
  obtain ⟨config, clusters, records, actions, reactors⟩ := s
  obtain rfl : reactors = [] := quiet
  cases k <;> rfl

theorem lister_eq (quiet : s.reactors = []) : lister around ns options s
    = ((Selection.ofListOptions options).bind ((s.store k).list (boundTo k ns)),
      s.listed k ns 1) := by
  rw [lister, serve_list quiet]
  cases (Selection.ofListOptions options).bind ((s.store k).list (boundTo k ns)) <;> rfl

variable {selection : Selection}

theorem lister_of_unread (quiet : s.reactors = []) {error : RegistryError}
    (unread : Selection.ofListOptions options = .error error) (limit : Option Nat)
    (token : Option String) : lister around ns { options with limit, continueToken := token } s
      = ((.error error : Outcome (Page k)), s.listed k ns 1) := by
  rw [lister_eq quiet, Selection.ofListOptions_page, unread]
  rfl

theorem lister_of_read (quiet : s.reactors = [])
    (read : Selection.ofListOptions options = .ok selection) (limit : Option Nat)
    (token : Option String) : lister around ns { options with limit, continueToken := token } s
      = ((s.store k).list (boundTo k ns)
          { selection with
            limit := limit.filter (· > 0)
            continueToken := token.filter (!·.isEmpty) },
        s.listed k ns 1) := by
  rw [lister_eq quiet, Selection.ofListOptions_page, read]
  rfl

/-! ## How many lists it takes -/

/-- How many pages so many objects fill. There is one page at least, and without a size only one. -/
def pagesFor (pageSize n : Nat) : Nat := max 1 (n ⌈/⌉ pageSize)

variable {pageSize n : Nat}

theorem pagesFor_of_fits (fits : 0 < pageSize → n ≤ pageSize) : pagesFor pageSize n = 1 := by
  rcases Nat.eq_zero_or_pos pageSize with rfl | positive
  · simp [pagesFor]
  · refine Nat.max_eq_left ((ceilDiv_le_iff_le_mul positive).2 ?_)
    simpa using fits positive

theorem pagesFor_of_more (positive : 0 < pageSize) (more : pageSize < n) :
    pagesFor pageSize n = pagesFor pageSize (n - pageSize) + 1 := by
  have next : n ⌈/⌉ pageSize = (n - pageSize) ⌈/⌉ pageSize + 1 := by
    rw [Nat.ceilDiv_eq_add_pred_div, Nat.ceilDiv_eq_add_pred_div, ← Nat.add_div_right _ positive]
    congr 1
    omega
  have some : 1 ≤ (n - pageSize) ⌈/⌉ pageSize := by
    rw [Nat.ceilDiv_eq_add_pred_div, Nat.one_le_div_iff positive]
    omega
  rw [pagesFor, pagesFor, next, Nat.max_eq_right some, Nat.max_eq_right (Nat.le_succ_of_le some)]

def listsFor (pageSize : Nat) : Outcome (List (Object k)) → Nat
  | .ok items => pagesFor pageSize items.length
  | .error _ => 1

/-! ## All pages -/

def Gathers (around : StandIn → Ambient) (ns : String) (options : ListOptions) (s : StandIn)
    (lists : Nat) (outcome : Outcome (List (Object k))) : Prop :=
  ∃ pages error, (lister around ns).Chain options s pages error (s.listed k ns lists)
    ∧ (Lister.asked options pages).length = lists ∧ Lister.gathered pages error = outcome

namespace Gathers

variable {page : Page k}

theorem fails {error : RegistryError}
    (refused : lister around ns options s = ((.error error : Outcome (Page k)), s.listed k ns 1)) :
    Gathers around ns options s 1 (.error error : Outcome (List (Object k))) :=
  ⟨[], some error, .fails refused, rfl, rfl⟩

theorem ends (answered : lister around ns options s = (.ok page, s.listed k ns 1))
    (last : page.continueToken = none) : Gathers around ns options s 1 (.ok page.items) :=
  ⟨[page], none, .ends answered last, congrArg List.length (Lister.asked_single last),
    congrArg _ (List.flatMap_singleton _ _)⟩

theorem goesOn {token : String} {lists : Nat} {outcome : Outcome (List (Object k))}
    (answered : lister around ns options s = (.ok page, s.listed k ns 1))
    (leads : page.continueToken = some token)
    (rest : Gathers around ns { options with continueToken := some token } (s.listed k ns 1) lists
      outcome) :
    Gathers around ns options s (lists + 1) (outcome.map (page.items ++ ·)) := by
  obtain ⟨pages, error, chain, asked, rfl⟩ := rest
  rw [listed_succ] at chain
  refine ⟨page :: pages, error, .goesOn answered leads chain, ?_, Lister.gathered_cons _ _ _⟩
  rw [Lister.asked_cons leads, List.length_cons, asked]

end Gathers

theorem gathers_selected {store : Store k} (h : store.Counted)
    (small : store.revision < ContinueToken.numberLimit) (stored : s.store k = store)
    (quiet : s.reactors = []) (read : Selection.ofListOptions options = .ok selection)
    {token : Option String} {start : Nat}
    (starts : store.startPlace (token.filter (!·.isEmpty)) = .ok start)
    {found : List (Nat × Object k)}
    (selected : store.selected (boundTo k ns) selection start = found) :
    Gathers around ns { options with limit := some pageSize, continueToken := token } s
      (pagesFor pageSize found.length) (.ok (found.map (·.2))) := by
  -- Each page leaves fewer objects to be shown.
  induction count : found.length using Nat.strong_induction_on
    generalizing s token start found with
  | _ n ih =>
    subst count
    let asks : Selection :=
      { selection with
        limit := (some pageSize).filter (· > 0)
        continueToken := token.filter (!·.isEmpty) }
    have selected : store.selected (boundTo k ns) asks start = found := selected
    have sized : asks.limit = (some pageSize).filter (· > 0) := rfl
    obtain ⟨page, given, shows⟩ := Store.list_of_size starts selected sized
    have answered : lister around ns { options with limit := some pageSize, continueToken := token }
        s = (.ok page, s.listed k ns 1) := by
      rw [lister_of_read quiet read, stored]
      exact Prod.ext given rfl
    obtain ⟨fits, items, last⟩ | ⟨shown, entry, rest, positive, rfl, full, items, leads⟩ := shows
    · rw [pagesFor_of_fits fits, ← items]
      exact .ends answered last
    · have mem : entry ∈ store.selected (boundTo k ns) asks start :=
        selected ▸ List.mem_append_right _ List.mem_cons_self
      have own := h.startPlace_own small (Store.mem_selected_from.1 mem).2.1
      have left : (shown ++ entry :: rest).length - pageSize = (entry :: rest).length := by
        rw [List.length_append, full, Nat.add_sub_cancel_left]
      have more : pageSize < (shown ++ entry :: rest).length := by
        rw [List.length_append, full, List.length_cons]
        omega
      have later := ih _ (left ▸ Nat.sub_lt_self positive more.le) ((store_listed ns 1).trans stored)
        quiet own (h.indexed.selected_rest selected) rfl
      have gathers := Gathers.goesOn answered leads later
      rw [items] at gathers
      rw [pagesFor_of_more positive more, left, List.map_append]
      exact gathers

def whole (around : StandIn → Ambient) (ns : String) (options : ListOptions) (s : StandIn) :
    Outcome (List (Object k)) :=
  (lister around ns { options with limit := none } s).1.map (·.items)

theorem whole_of_answer {answer : Outcome (Page k)}
    (answered : lister around ns { options with limit := none } s = (answer, s.listed k ns 1)) :
    whole around ns options s = answer.map (·.items) := by
  rw [whole, answered]

theorem gathers_whole_of_refused {error : RegistryError} (refused : ∀ limit,
    lister around ns { options with limit } s
      = ((.error error : Outcome (Page k)), s.listed k ns 1)) (pageSize : Nat) :
    let outcome : Outcome (List (Object k)) := whole around ns options s
    Gathers around ns { options with limit := some pageSize } s (listsFor pageSize outcome)
      outcome := by
  intro outcome
  rw [show outcome = .error error from whole_of_answer (refused none)]
  exact .fails (refused (some pageSize))

theorem gathers_whole (h : (s.store k).Counted)
    (small : (s.store k).revision < ContinueToken.numberLimit) (quiet : s.reactors = [])
    (around : StandIn → Ambient) (ns : String) (options : ListOptions) (pageSize : Nat) :
    let outcome : Outcome (List (Object k)) := whole around ns options s
    Gathers around ns { options with limit := some pageSize } s (listsFor pageSize outcome)
      outcome := by
  cases read : Selection.ofListOptions options with
  | error error =>
    exact gathers_whole_of_refused (fun limit => lister_of_unread quiet read limit _) pageSize
  | ok selection =>
    let asks (limit : Option Nat) : Selection :=
      { selection with
        limit := limit.filter (· > 0)
        continueToken := options.continueToken.filter (!·.isEmpty) }
    have answered (limit : Option Nat) : lister around ns { options with limit } s
        = ((s.store k).list (boundTo k ns) (asks limit), s.listed k ns 1) :=
      lister_of_read quiet read limit options.continueToken
    cases starts : (s.store k).startPlace (asks none).continueToken with
    | error error =>
      have refused (limit : Option Nat) :
          (s.store k).list (boundTo k ns) (asks limit) = .error error :=
        Store.list_of_refused starts
      exact gathers_whole_of_refused (fun limit => refused limit ▸ answered limit) pageSize
    | ok start =>
      intro outcome
      obtain ⟨page, given, items, -⟩ :=
        Store.list_of_fits starts rfl fun limit limited => nomatch limited
      have all : outcome = .ok page.items := whole_of_answer (given ▸ answered none)
      rw [all, items, listsFor, List.length_map]
      exact gathers_selected h small rfl quiet read starts rfl

/-- Pages that form a chain are all asked for, one after the other and each with the token of the
page before it, and are gathered in order, or up to the first error. Over a stand-in without
reactors this comes to what one list without a limit comes to, whatever was written before, and
takes as many lists as the objects fill pages. -/
theorem all_eq_whole (k : Kind) :
    (∀ (State : Type) (list : Lister k State) (options : ListOptions) (pageSize : Nat)
      (state after : State) (pages : List (Page k)) (error : Option RegistryError),
      list.Chain { options with limit := some pageSize } state pages error after →
      let lists := Lister.asked { options with limit := some pageSize } pages
      ∀ maxPages, lists.length ≤ maxPages →
        list.all maxPages pageSize options state = (some (Lister.gathered pages error), after)
          ∧ ∀ log, list.recorded.all maxPages pageSize options (state, log)
            = (some (Lister.gathered pages error), (after, log ++ lists)))
      ∧ ∀ (around : StandIn → Ambient) (ns : String) (options : ListOptions) (pageSize : Nat)
        (s : StandIn) (writes : List (Store.Write k)),
        s.reactors = [] → s.store k = (Store.empty k).after writes →
        (s.store k).revision < ContinueToken.numberLimit →
        let outcome : Outcome (List (Object k)) := whole around ns options s
        ∀ maxPages, listsFor pageSize outcome ≤ maxPages →
          (lister around ns).all maxPages pageSize options s
            = (some outcome, s.listed k ns (listsFor pageSize outcome)) := by
  constructor
  · intro State list options pageSize state after pages error chain lists maxPages enough
    exact ⟨chain.pages_eq enough, fun log => (chain.recorded log).pages_eq enough⟩
  · intro around ns options pageSize s writes quiet written small outcome maxPages enough
    have counted : (s.store k).Counted := written ▸ Store.counted_after writes
    obtain ⟨pages, error, chain, asked, same⟩ :=
      gathers_whole counted small quiet around ns options pageSize
    rw [← asked] at enough
    exact (chain.pages_eq enough).trans (congrArg (some ·, _) same)

/-- A list that fails on its second page, and one of three clusters, two a page. -/
theorem all_eq_whole_two_pages :
    let scripted : Lister .cluster (List (Outcome (Page .cluster))) := fun _ answers =>
      (answers.headD (.ok {}), answers.tail)
    let first : Page .cluster := { items := [.bareCluster "a"], continueToken := some "more" }
    let asks (token : String) : ListOptions :=
      { labelSelector := some "tier", limit := some 1, continueToken := some token }
    let writes : List (Store.Write .cluster) :=
      ["a", "b", "c"].map fun name => .create .plain (.bareCluster name)
    let s : StandIn := { clusters := (Store.empty .cluster).after writes }
    let client : Lister .cluster StandIn := lister (fun _ => .plain) ""
    let outcome : Outcome (List (Object .cluster)) := whole (fun _ => .plain) "" {} s
    scripted.recorded.all 2 1 { labelSelector := some "tier", continueToken := some "own" }
        ([.ok first, .error .serialization], [])
      = (some (.error .serialization), ([], [asks "own", asks "more"]))
      ∧ client.all 2 2 {} s = (some outcome, s.listed .cluster "" 2)
      ∧ outcome.toOption.map (·.map (·.anyName)) = some ["a", "b", "c"] := by
  intro scripted first asks writes s client outcome
  have ⟨chains, stand⟩ := all_eq_whole .cluster
  have two : listsFor 2 outcome = 2 := by decide +kernel
  have pages := stand (fun _ => .plain) "" {} 2 s writes rfl rfl (by decide +kernel) 2 two.le
  rw [two] at pages
  have chain : scripted.Chain (asks "own") [.ok first, .error .serialization] [first]
      (some .serialization) [] := .goesOn rfl rfl (.fails rfl)
  exact ⟨(chains _ scripted { labelSelector := some "tier", continueToken := some "own" } 1 _ _ _ _
    chain 2 (by decide)).2 [], pages, by decide +kernel⟩

end StandIn

end FleetRegistry

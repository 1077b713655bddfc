import FleetRegistry.Command.Run
import FleetRegistry.Proofs.Command.Switch
import FleetRegistry.Proofs.Remote.DryRuns

/-!
Commands that are only tried. The switch of a command line becomes a setting of the client; the
calls that a command makes say nothing of it themselves.
-/
namespace FleetRegistry

namespace Command

def Asks (server server' : Remote) : Prop :=
  ∃ turns : List Remote.Turn, server' = server.after turns ∧ ∀ t ∈ turns, t.call.dryRun = false

namespace Asks

theorem refl (server : Remote) : Asks server server := ⟨[], rfl, List.forall_mem_nil _⟩

theorem trans {a b c : Remote} (first : Asks a b) (next : Asks b c) : Asks a c := by
  obtain ⟨turns, rfl, own⟩ := first
  obtain ⟨turns', rfl, own'⟩ := next
  exact ⟨turns ++ turns', (List.foldl_append ..).symm, List.forall_mem_append.2 ⟨own, own'⟩⟩

theorem single {k : Kind} (ns : String) {call : Call k} (own : call.dryRun = false)
    (server : Remote) : Asks server (server.serve 0 ns call).2 :=
  ⟨[⟨k, 0, ns, call⟩], rfl, List.forall_mem_singleton.2 own⟩

theorem pages {k : Kind} {list : Lister k Remote}
    (each : ∀ options server, Asks server (list options server).2) (n : Nat)
    (options : ListOptions) (server : Remote) : Asks server (list.pages n options server).2 := by
  induction n generalizing options server with
  | zero => exact refl server
  | succ n ih =>
    unfold Lister.pages
    have first := each options server
    generalize list options server = result at first
    rcases result with ⟨_ | page, server'⟩
    · exact first
    · dsimp only
      split
      next => exact first
      next => exact first.trans (ih _ server')

end Asks

theorem call?_dryRun {k : Kind} {files : String → Option String} {action : Action}
    {call : Call k} (made : action.call? k files = .ok call) : call.dryRun = false := by
  cases action with
  | list | get | delete | deleteAll | watch =>
    cases made
    rfl
  | create file =>
    unfold Action.call? at made
    dsimp only at made
    split at made
    next => cases made
    next =>
      split at made <;> cases made
      rfl
  | patch name document type status =>
    unfold Action.call? at made
    dsimp only at made
    split at made <;> cases made
    rfl

theorem run_asks {k : Kind} (files : String → Option String) (form : OutputForm) (ns : String)
    (action : Action) (server : Remote) : Asks server (action.run k files form ns server).2 := by
  unfold Action.run
  dsimp only
  split
  next selection =>
    generalize listed : Lister.all _ _ _ _ _ = result
    have asks : Asks server result.2 :=
      listed ▸ Asks.pages (fun options server => Asks.single ns rfl server) _ _ _
    rcases result with ⟨_ | _ | items, server'⟩ <;> exact asks
  next =>
    split
    next => exact .refl server
    next call made =>
      have asks := Asks.single ns (call?_dryRun made) server
      generalize server.serve 0 ns call = result at asks
      rcases result with ⟨_ | answer, server'⟩ <;> exact asks

end Command

/-- What is to be tried only reaches the server. A client sends the requests of its calls and no
others. If a write is sent with the query that the client wants, which it is unless a word in its
path ends that too early, it asks for a dry run exactly if it says so itself or the settings of the
client do. Every command line can be given the switch. It gives the client that setting exactly if
it has the switch among its options, and its calls say nothing themselves. -/
theorem dryRun_reaches_requests :
    (∀ (r : Remote) (turns : List Remote.Turn),
      (r.after turns).exchange.sent = r.exchange.sent ++ turns.filterMap (·.request? r.config)
      ∧ ∀ t ∈ turns, ∀ request, t.request? r.config = some request → request.method ≠ .get →
        ((∀ word ∈ t.words, Address.IsPlain word) → t.Rendered r.config request)
        ∧ (t.Rendered r.config request →
          (request.AsksDryRun ↔ r.config.dryRun = true ∨ t.call.dryRun = true)))
    ∧ ∀ (words : List String) (line : CommandLine), CommandLine.ofWords words = .ok line →
      (line.dryRun = false →
        CommandLine.ofWords ("--dry-run" :: words) = .ok { line with dryRun := true })
      ∧ ∀ (lookup files : String → Option String) (exchange : Exchange),
        let server : Remote := { config := line.config lookup, exchange }
        (server.config.dryRun = true ↔ "--dry-run" ∈ words.takeWhile (· ≠ "--"))
        ∧ ∃ turns : List Remote.Turn, (line.run files server).2 = server.after turns
          ∧ ∀ t ∈ turns, ∀ request, t.request? server.config = some request →
            request.method ≠ .get → t.Rendered server.config request →
            (request.AsksDryRun ↔ "--dry-run" ∈ words.takeWhile (· ≠ "--")) := by
  constructor
  · intro r turns
    refine ⟨(r.after_sent turns).2, fun t _ request sent method => ?_⟩
    have how := Remote.sent_of_request? sent
    exact ⟨how.rendered, how.asksDryRun_iff (how.isWrite_iff.2 method)⟩
  · intro words line read
    refine ⟨line.ofWords_switched read, fun lookup files exchange => ?_⟩
    intro server
    have switch : server.config.dryRun = true ↔ _ := line.ofWords_dryRun read
    refine ⟨switch, ?_⟩
    obtain ⟨turns, run, own⟩ :=
      Command.run_asks (k := line.kind) files line.output server.config.ns line.action server
    refine ⟨turns, run, fun t mem request sent method rendered => ?_⟩
    have how := Remote.sent_of_request? sent
    rw [how.asksDryRun_iff (how.isWrite_iff.2 method) rendered, own t mem, switch]
    simp

def patchOf (name : String) : Remote.Turn :=
  ⟨.cluster, 0, "", .patch name { type := .merge, document := .obj [] } {}⟩

/-- A patch that does not say so itself is tried by one client and not by another one, and a command
line with the switch behind its last argument makes the first one. -/
theorem dryRun_reaches_requests_patch :
    (∃ request, (patchOf "a").request? { dryRun := true } = some request ∧ request.AsksDryRun)
    ∧ (∃ request, (patchOf "a").request? {} = some request ∧ ¬ request.AsksDryRun)
    ∧ ∃ line, CommandLine.ofWords ["clusters", "delete", "a", "--dry-run"] = .ok line
      ∧ (line.config fun _ => none).dryRun = true := by
  have ⟨calls, commands⟩ := dryRun_reaches_requests
  have asks (config : ClientConfig)
      (patches : ((patchOf "a").request? config).map (·.method) = some .patch) :
      ∃ request, (patchOf "a").request? config = some request
        ∧ (request.AsksDryRun ↔ config.dryRun = true) := by
    obtain ⟨request, sent, method⟩ := Option.map_eq_some_iff.1 patches
    have ⟨_, each⟩ := calls { config, exchange := { responses := [] } } [patchOf "a"]
    have ⟨rendered, tried⟩ := each _ (List.mem_singleton_self _) request sent (by simp [method])
    have plain : ∀ word ∈ (patchOf "a").words, Address.IsPlain word := by
      unfold Address.IsPlain
      decide
    refine ⟨request, sent, (tried (rendered plain)).trans (or_iff_left ?_)⟩
    decide
  refine ⟨?_, ?_, ?_⟩
  · obtain ⟨request, sent, tried⟩ := asks { dryRun := true } (by decide +kernel)
    exact ⟨request, sent, tried.2 rfl⟩
  · obtain ⟨request, sent, tried⟩ := asks {} (by decide +kernel)
    exact ⟨request, sent, mt tried.1 (by decide)⟩
  · have reads : (CommandLine.ofWords ["clusters", "delete", "a", "--dry-run"]).isOk = true := by
      decide +kernel
    cases read : CommandLine.ofWords ["clusters", "delete", "a", "--dry-run"] with
    | error fault =>
      rw [read] at reads
      cases reads
    | ok line =>
      have ⟨_, runs⟩ := commands _ line read
      have ⟨switch, _⟩ := runs (fun _ => none) (fun _ => none) { responses := [] }
      exact ⟨line, rfl, switch.2 (by decide)⟩

/-- A name that ends the path takes the query with it, and goes to an object of another name. -/
example : ((patchOf "a#").request? { dryRun := true }).map (·.address)
    = some ⟨"/apis/clusterregistry.k8s.io/v1alpha1/clusters/a", []⟩ := by
  decide +kernel

end FleetRegistry

import FleetRegistry.Proofs.Json.Fields
import FleetRegistry.Proofs.Remote.Queries
import FleetRegistry.Remote.Client
import Mathlib.Tactic.Tauto

/-!
Dry runs asked of a server. A client puts what it wants tried only into the query of a write, or
into the body of a deletion. Its settings count for every write, whatever the call says of itself.
-/
namespace FleetRegistry

def HttpRequest.AsksDryRun (request : HttpRequest) : Prop :=
  match request.method with
  | .delete => request.body.bind (·.member? "dryRun") = some (.arr [.str "All"])
  | .get | .post | .put | .patch => "dryRun=All" ∈ request.address.query

def Call.isWrite {k : Kind} : Call k → Bool
  | get _ | list _ | watch _ => false
  | create .. | update .. | patch .. | delete .. | deleteCollection .. => true

namespace Remote

/-! ## What a client sends -/

/-- A call to the client of a namespace, and how long it takes. -/
structure Turn where
  kind : Kind
  elapsed : Nat
  ns : String
  call : Call kind

namespace Turn

def space (t : Turn) : Option String := if t.kind.namespaced then some t.ns else none

/-- The request that a client with some settings sends for a call, if it sends one. -/
def request? (config : ClientConfig) (t : Turn) : Option HttpRequest :=
  (requestOf config t.space t.call).toOption

/-- The query that a client wants sent with a write, unless that has its options in its body. -/
def query? (config : ClientConfig) (t : Turn) : Option (List (String × String)) :=
  match t.call with
  | .create _ options | .update _ _ options | .patch _ _ options =>
    (writeQuery config options).toOption
  | .get _ | .list _ | .watch _ | .delete .. | .deleteCollection .. => none

/-- Whether the query that a client wants sent is the one that is sent. -/
def Rendered (config : ClientConfig) (t : Turn) (request : HttpRequest) : Prop :=
  ∀ fields, t.query? config = some fields →
    ∀ p, p ∈ request.address.query ↔ ∃ field ∈ fields, p = Address.pair field.1 field.2

/-- The words of a call that stand in the path of its request. -/
def words (t : Turn) : List String :=
  t.space.toList ++ match t.call with
    | .update _ o _ => [o.anyName]
    | .patch name document _ => name :: document.subresource.toList
    | .get name | .delete name _ => [name]
    | .create .. | .list _ | .watch _ | .deleteCollection .. => []

end Turn

def after (r : Remote) (turns : List Turn) : Remote :=
  turns.foldl (fun r t => (r.serve t.elapsed t.ns t.call).2) r

theorem serve_sent (r : Remote) (t : Turn) :
    (r.serve t.elapsed t.ns t.call).2.config = r.config
      ∧ (r.serve t.elapsed t.ns t.call).2.exchange.sent
        = r.exchange.sent ++ (t.request? r.config).toList := by
  refine ⟨rfl, ?_⟩
  show (perform r.config t.space t.call r.exchange).2.sent = _
  unfold perform Turn.request?
  cases requestOf r.config t.space t.call with
  | error error => exact (List.append_nil _).symm
  | ok request =>
    unfold Exchange.send
    cases r.exchange.responses <;> rfl

theorem after_sent (r : Remote) (turns : List Turn) :
    (r.after turns).config = r.config
      ∧ (r.after turns).exchange.sent
        = r.exchange.sent ++ turns.filterMap (·.request? r.config) := by
  induction turns generalizing r with
  | nil => exact ⟨rfl, (List.append_nil _).symm⟩
  | cons t rest ih =>
    have ⟨config, sent⟩ := serve_sent r t
    have ⟨config', sent'⟩ := ih (r.serve t.elapsed t.ns t.call).2
    refine ⟨config'.trans config, ?_⟩
    show ((r.serve t.elapsed t.ns t.call).2.after rest).exchange.sent = _
    rw [sent', sent, config, List.append_assoc, List.filterMap_cons]
    cases t.request? r.config <;> rfl

/-! ## Options in a query -/

theorem pair_dryRun : Address.pair "dryRun" "All" = "dryRun=All" := by decide +kernel

theorem pair_fieldManager_ne (manager : String) :
    "dryRun=All" ≠ Address.pair "fieldManager" manager := by
  have front : Address.encode "fieldManager" = "fieldManager" := by decide +kernel
  intro same
  have heads := congrArg (·.toList.head?) same
  simp [Address.pair, front] at heads

theorem asksDryRun_iff {config : ClientConfig} {dryRun : Bool} :
    asksDryRun config dryRun = true ↔ config.dryRun = true ∨ dryRun = true := by
  rw [asksDryRun, Bool.or_eq_true, or_comm]

theorem writeQuery_dryRun {config : ClientConfig} {options : WriteOptions}
    {fields : List (String × String)} (given : writeQuery config options = .ok fields) :
    (∃ field ∈ fields, "dryRun=All" = Address.pair field.1 field.2)
      ↔ config.dryRun = true ∨ options.dryRun = true := by
  unfold writeQuery at given
  dsimp only at given
  split at given
  next => cases given
  next =>
    cases given
    rw [← asksDryRun_iff]
    cases asksDryRun config options.dryRun <;> simp [queryOf, pair_dryRun, pair_fieldManager_ne]

/-! ## Options in a body -/

theorem deleteBody_dryRun (config : ClientConfig) (options : DeleteOptions) :
    (deleteBody config options).member? "dryRun" = some (.arr [.str "All"])
      ↔ config.dryRun = true ∨ options.dryRun = true := by
  have found : (deleteBody config options).member? "dryRun"
      = if asksDryRun config options.dryRun then some (.arr [.str "All"]) else none :=
    Json.find?_presentMembers rfl
  rw [found, ← asksDryRun_iff]
  cases asksDryRun config options.dryRun <;> simp

theorem collectionBody?_member (config : ClientConfig) (options : DeleteOptions) (name : String) :
    (collectionBody? config options).bind (·.member? name)
      = (deleteBody config options).member? name := by
  unfold collectionBody?
  split
  next empty =>
    rw [empty]
    rfl
  next => rfl

/-! ## The request of a call -/

theorem addressOf_eq_ok {path : String} {query : Option (List (String × String))}
    {address : Address} :
    addressOf path query = .ok address ↔ Address.make? path query = some address := by
  unfold addressOf
  cases Address.make? path query <;> simp

theorem isPlain_append {a b : String} :
    Address.IsPlain (a ++ b) ↔ Address.IsPlain a ∧ Address.IsPlain b := by
  simp only [Address.IsPlain, String.toList_append, List.mem_append]
  tauto

theorem isPlain_collectionPath (k : Kind) {ns : Option String}
    (plain : ∀ word ∈ ns.toList, Address.IsPlain word) :
    Address.IsPlain (collectionPath k ns) := by
  have fixed : Address.IsPlain ("/apis/" ++ k.group ++ "/" ++ k.version ++ "/")
      ∧ Address.IsPlain k.plural := by
    cases k <;> unfold Address.IsPlain <;> decide +kernel
  unfold collectionPath
  refine isPlain_append.2 ⟨isPlain_append.2 ⟨fixed.1, ?_⟩, fixed.2⟩
  cases ns with
  | none => exact ⟨nofun, nofun⟩
  | some ns =>
    have front : Address.IsPlain "namespaces/" ∧ Address.IsPlain "/" := by
      unfold Address.IsPlain
      decide
    exact isPlain_append.2 ⟨isPlain_append.2 ⟨front.1, plain ns (by simp)⟩, front.2⟩

theorem isPlain_objectPath (k : Kind) {ns part : Option String} {name path : String}
    (there : objectPath k ns name part = .ok path)
    (plain : ∀ word ∈ ns.toList ++ name :: part.toList, Address.IsPlain word) :
    Address.IsPlain path := by
  have slash : Address.IsPlain "/" := by
    unfold Address.IsPlain
    decide
  unfold objectPath at there
  split at there
  next => cases there
  next =>
    cases there
    have front : Address.IsPlain (collectionPath k ns) :=
      isPlain_collectionPath k fun word mem => plain word (List.mem_append_left _ mem)
    have name := plain name (by simp)
    refine isPlain_append.2 ⟨isPlain_append.2 ⟨isPlain_append.2 ⟨front, slash⟩, name⟩, ?_⟩
    cases part with
    | none => exact ⟨nofun, nofun⟩
    | some part => exact isPlain_append.2 ⟨slash, plain part (by simp)⟩

/-- How a call is sent: to be read, with its options in the query, or with its options in the
body. -/
inductive Sent (config : ClientConfig) (t : Turn) (request : HttpRequest) : Prop
  | reads (isWrite : t.call.isWrite = false) (method : request.method = .get)
    (query : t.query? config = none)
  | queried {options : WriteOptions} {fields : List (String × String)} {path : String}
    (isWrite : t.call.isWrite = true) (dryRun : t.call.dryRun = options.dryRun)
    (method : request.method = .post ∨ request.method = .put ∨ request.method = .patch)
    (query : t.query? config = some fields) (given : writeQuery config options = .ok fields)
    (made : Address.make? path (some fields) = some request.address)
    (plain : (∀ word ∈ t.words, Address.IsPlain word) → Address.IsPlain path)
  | deletes {options : DeleteOptions} (isWrite : t.call.isWrite = true)
    (dryRun : t.call.dryRun = options.dryRun) (method : request.method = .delete)
    (query : t.query? config = none)
    (body : request.body.bind (·.member? "dryRun") = (deleteBody config options).member? "dryRun")

theorem sent_of_request? {config : ClientConfig} {t : Turn} {request : HttpRequest}
    (sent : t.request? config = some request) : Sent config t request := by
  obtain ⟨k, elapsed, ns, call⟩ := t
  have sent : requestOf config (Turn.space ⟨k, elapsed, ns, call⟩) call = .ok request :=
    Outcome.toOption_eq_some.1 sent
  cases call with
  | get name =>
    obtain ⟨path, -, sent⟩ := Outcome.bind_eq_ok.1 sent
    obtain ⟨address, -, sent⟩ := Outcome.bind_eq_ok.1 sent
    cases sent
    exact .reads rfl rfl rfl
  | list options | watch options =>
    obtain ⟨address, -, sent⟩ := Outcome.bind_eq_ok.1 sent
    cases sent
    exact .reads rfl rfl rfl
  | create o options =>
    obtain ⟨fields, given, sent⟩ := Outcome.bind_eq_ok.1 sent
    obtain ⟨address, made, sent⟩ := Outcome.bind_eq_ok.1 sent
    cases sent
    exact .queried rfl rfl (.inl rfl) (Outcome.toOption_eq_some.2 given) given
      (addressOf_eq_ok.1 made) fun plain => isPlain_collectionPath k fun word mem =>
        plain word (List.mem_append_left _ mem)
  | update side o options =>
    obtain ⟨path, there, sent⟩ := Outcome.bind_eq_ok.1 sent
    obtain ⟨fields, given, sent⟩ := Outcome.bind_eq_ok.1 sent
    obtain ⟨address, made, sent⟩ := Outcome.bind_eq_ok.1 sent
    cases sent
    refine .queried rfl rfl (.inr (.inl rfl)) (Outcome.toOption_eq_some.2 given) given
      (addressOf_eq_ok.1 made) fun plain => isPlain_objectPath k there fun word mem => ?_
    rcases List.mem_append.1 mem with inSpace | mem
    · exact plain word (List.mem_append_left _ inSpace)
    · rcases List.mem_cons.1 mem with rfl | part
      · exact plain _ (by simp [Turn.words])
      · have status : word = statusSubresource := by
          cases side <;> simp_all
        rw [status]
        exact ⟨by decide, by decide⟩
  | patch name document options =>
    obtain ⟨body, -, sent⟩ := Outcome.bind_eq_ok.1 sent
    obtain ⟨path, there, sent⟩ := Outcome.bind_eq_ok.1 sent
    obtain ⟨fields, given, sent⟩ := Outcome.bind_eq_ok.1 sent
    obtain ⟨address, made, sent⟩ := Outcome.bind_eq_ok.1 sent
    cases sent
    exact .queried rfl rfl (.inr (.inr rfl)) (Outcome.toOption_eq_some.2 given) given
      (addressOf_eq_ok.1 made) fun plain => isPlain_objectPath k there plain
  | delete name options =>
    obtain ⟨path, -, sent⟩ := Outcome.bind_eq_ok.1 sent
    obtain ⟨address, -, sent⟩ := Outcome.bind_eq_ok.1 sent
    cases sent
    exact .deletes rfl rfl rfl rfl rfl
  | deleteCollection selection options =>
    obtain ⟨address, -, sent⟩ := Outcome.bind_eq_ok.1 sent
    cases sent
    exact .deletes rfl rfl rfl rfl (collectionBody?_member config options "dryRun")

namespace Sent

variable {config : ClientConfig} {t : Turn} {request : HttpRequest}

theorem isWrite_iff (sent : Sent config t request) :
    t.call.isWrite = true ↔ request.method ≠ .get := by
  cases sent with
  | reads isWrite method => simp [isWrite, method]
  | queried isWrite _ method =>
    rcases method with method | method | method <;> simp [isWrite, method]
  | deletes isWrite _ method => simp [isWrite, method]

theorem rendered (sent : Sent config t request)
    (plain : ∀ word ∈ t.words, Address.IsPlain word) : t.Rendered config request := by
  intro fields wanted p
  cases sent with
  | reads _ _ query | deletes _ _ _ query => cases query.symm.trans wanted
  | queried _ _ _ query _ made whole =>
    cases query.symm.trans wanted
    exact Address.mem_query_of_make? made (whole plain)

theorem asksDryRun_iff (sent : Sent config t request) (isWrite : t.call.isWrite = true)
    (rendered : t.Rendered config request) :
    request.AsksDryRun ↔ config.dryRun = true ∨ t.call.dryRun = true := by
  unfold HttpRequest.AsksDryRun
  cases sent with
  | reads reads => cases isWrite.symm.trans reads
  | queried _ dryRun method query given =>
    rw [dryRun, ← writeQuery_dryRun given, ← rendered _ query]
    rcases method with method | method | method <;> rw [method]
  | deletes _ dryRun method _ body => rw [method, dryRun, ← deleteBody_dryRun, ← body]

end Sent

end Remote

end FleetRegistry

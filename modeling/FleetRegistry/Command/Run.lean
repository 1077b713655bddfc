import FleetRegistry.Client.Listing
import FleetRegistry.Command.Basic
import FleetRegistry.Json.Printer
import FleetRegistry.Object.Shape
import FleetRegistry.Remote.Client
import FleetRegistry.Text.Quoted
import FleetRegistry.Yaml.Printer

/-!
Running a command against a server: which call it makes, and what it prints of the answer. A command
that fails keeps what was printed before.
-/
namespace FleetRegistry

namespace Command

inductive Failure where
  | registry (error : RegistryError)
  | unreadableFile (name : String)
  | malformedFile (name : String)
  | malformedPatch

/-- What a failure that comes from the command line itself says; failures of the registry speak for
themselves. -/
def Failure.message : Failure → String
  | registry error => error.message
  | unreadableFile name => "failed to read " ++ name
  | malformedFile name => "failed to parse " ++ name
  | malformedPatch => "patch is not valid JSON or YAML"

structure Report where
  printed : String := ""
  failure : Option Failure := none

namespace Report

def line (text : String) : Report := { printed := text ++ "\n" }

def fail (failure : Failure) : Report := { failure := some failure }

def andThen (first second : Report) : Report :=
  { printed := first.printed ++ second.printed, failure := second.failure }

end Report

def OutputForm.render {k : Kind} (form : OutputForm) (object : Object k) : String :=
  match form with
  | yaml => "---\n" ++ Yaml.document object.toJson
  | json => object.toJson.pretty
  | name => object.anyName

/-- A change as it is printed: its name, and the object. -/
def OutputForm.renderChange {k : Kind} (form : OutputForm) (name : String) (object : Object k) :
    String :=
  match form with
  | .name => name ++ "\t" ++ object.anyName
  | form => "# " ++ name ++ "\n" ++ form.render object

/-- Prints the changes of a stream up to its first error. Marks without a change are not shown. -/
def printStream {k : Kind} (form : OutputForm) : Remote.Stream k → Report
  | [] => {}
  | .error error :: _ => .fail (.registry error)
  | .ok event :: rest =>
    match event.object? with
    | none => printStream form rest
    | some object =>
      (Report.line (form.renderChange event.name.toUpper object)).andThen (printStream form rest)

def deletionText {k : Kind} (name : String) : Deletion k → String
  | .deleted => name ++ " deleted"
  | .pending object =>
    name ++ " marked for deletion, waiting on finalizers "
      ++ Text.quoteList object.metadata.finalizerList

def printAnswer {k : Kind} (form : OutputForm) (action : Action) :
    Answer k (Remote.Stream k) → Report
  | .object object => .line (form.render object)
  | .page page => { printed := String.join (page.items.map fun o => form.render o ++ "\n") }
  | .stream stream => printStream form stream
  | .deletion deletion =>
    match action with
    | .delete name _ => .line (deletionText name deletion)
    | _ => {}
  | .done => .line "collection deleted"

/-- The call that an action makes. Files are looked up by their names. A list is no single call. -/
def Action.call? (k : Kind) (files : String → Option String) :
    Action → Except Failure (Call k)
  | .list selection => .ok (.list selection)
  | .get name => .ok (.get name)
  | .create file =>
    match files file with
    | none => .error (.unreadableFile file)
    | some text =>
      match Object.ofYaml? k text with
      | none => .error (.malformedFile file)
      | some object => .ok (.create object {})
  | .patch name document type status =>
    match Yaml.json? document with
    | none => .error .malformedPatch
    | some document =>
      let subresource := if status then some statusSubresource else none
      .ok (.patch name { type, document, subresource } {})
  | .delete name cascade => .ok (.delete name { propagationPolicy := cascade })
  | .deleteAll selection => .ok (.deleteCollection selection {})
  | .watch options => .ok (.watch options)

/-- Runs an action on the objects of a kind. A list goes on page by page until the last; no server
gives more pages than it has answers. -/
def Action.run (k : Kind) (files : String → Option String) (form : OutputForm) (ns : String)
    (action : Action) (server : Remote) : Report × Remote :=
  let ask (call : Call k) := Remote.serve 0 ns call
  match action with
  | .list selection =>
    let lister : Lister k Remote := fun options server =>
      let (outcome, server) := ask (.list options) server
      (outcome.map fun answer => answer.page?.getD {}, server)
    let maxPages := server.exchange.responses.length + 1
    match lister.all maxPages server.config.pageSize selection server with
    | (some (.ok items), server) => (printAnswer form action (.page { items }), server)
    | (some (.error error), server) => (.fail (.registry error), server)
    | (none, server) => ({}, server)
  | action =>
    match action.call? k files with
    | .error failure => (.fail failure, server)
    | .ok call =>
      match ask call server with
      | (.ok answer, server) => (printAnswer form action answer, server)
      | (.error error, server) => (.fail (.registry error), server)

end Command

def CommandLine.run (files : String → Option String) (line : CommandLine) (server : Remote) :
    Command.Report × Remote :=
  line.action.run line.kind files line.output server.config.ns server

end FleetRegistry

import FleetRegistry.Client.Config
import FleetRegistry.Command.Arguments
import FleetRegistry.Object.Kind
import FleetRegistry.Request.Options

/-!
The commands of the registry: what can be asked on a command line about the objects of a kind, how
it is written, and the settings that go with it.
-/
namespace FleetRegistry

namespace Command

inductive OutputForm where
  | yaml
  | json
  | name
  deriving DecidableEq, Repr

inductive Action where
  | list (selection : ListOptions)
  | get (name : String)
  | create (file : String)
  /-- Patches an object, or its observed side. -/
  | patch (name document : String) (type : PatchType) (status : Bool)
  | delete (name : String) (cascade : Option PropagationPolicy)
  | deleteAll (selection : ListOptions)
  | watch (options : WatchOptions)
  deriving DecidableEq

def outputForms : List (String × OutputForm) :=
  [("yaml", .yaml), ("json", .json), ("name", .name)]

def patchTypes : List (String × PatchType) :=
  [("json", .operations), ("merge", .merge), ("strategic", .strategic)]

def cascades : List (String × PropagationPolicy) :=
  [("orphan", .orphan), ("background", .background), ("foreground", .foreground)]

def choices {α : Type} (table : List (String × α)) : Parameter := .oneOf (table.map (·.1))

def sharedFlags : List Flag := [
  { name := "namespace", letter := some 'n' },
  { name := "field-manager" },
  { name := "dry-run", parameter := .switch },
  { name := "output", letter := some 'o', parameter := choices outputForms }]

def selectionFlags : List Flag :=
  [{ name := "selector", letter := some 'l' }, { name := "field-selector" }]

/-- A command that asks for something. -/
def asking (flags : List Flag) (required : List String) (arguments : Nat) : Grammar :=
  .command (sharedFlags ++ flags) required arguments []

def actionGrammar : Grammar :=
  .command sharedFlags [] 0 <| [
    ("list", asking selectionFlags [] 0),
    ("get", asking [] [] 1),
    ("create",
      asking [{ name := "filename", letter := some 'f', parameter := .nonEmptyText }]
        ["filename"] 0),
    ("patch",
      asking [
        { name := "patch", letter := some 'p' },
        { name := "type", parameter := choices patchTypes },
        { name := "status", parameter := .switch }] ["patch"] 1),
    ("delete", asking [{ name := "cascade", parameter := choices cascades }] [] 1),
    ("delete-all", asking selectionFlags [] 0),
    ("watch", asking (selectionFlags ++ [{ name := "resource-version" }]) [] 0)].map
      fun (name, grammar) => (name, name, grammar)

/-- The names under which a kind is asked about, the first of which is the usual one. -/
def kindNames : List (String × Kind) :=
  [("clusters", .cluster), ("cluster", .cluster), ("dns-records", .dnsRecord),
    ("mcsdr", .dnsRecord)]

def grammar : Grammar :=
  .command (versionFlag :: sharedFlags) [] 0
    (kindNames.map fun (name, _) => (name, name, actionGrammar))

def choice? {α : Type} (name : String) (table : List (String × α)) (levels : Invocation) :
    Option α :=
  (levels.option? name).bind (List.lookup · table)

def selection (levels : Invocation) : ListOptions :=
  { labelSelector := levels.option? "selector"
    fieldSelector := levels.option? "field-selector" }

def action (name : String) (levels : Invocation) : Action :=
  let object := (levels.arguments.head?).getD ""
  match name with
  | "list" => .list (selection levels)
  | "get" => .get object
  | "create" => .create ((levels.option? "filename").getD "")
  | "patch" =>
    .patch object ((levels.option? "patch").getD "")
      ((choice? "type" patchTypes levels).getD .merge) (levels.isSet "status")
  | "delete" => .delete object (choice? "cascade" cascades levels)
  | "delete-all" => .deleteAll (selection levels)
  | _ =>
    let { labelSelector, fieldSelector, .. } := selection levels
    .watch { labelSelector, fieldSelector, resourceVersion := levels.option? "resource-version" }

end Command

/-- A command line: what is asked about which kind, how the answer is printed, and the settings
that it gives. -/
structure CommandLine where
  kind : Kind
  action : Command.Action
  output : Command.OutputForm := .yaml
  ns : Option String := none
  fieldManager : Option String := none
  dryRun : Bool := false
  deriving DecidableEq

namespace CommandLine

def ofWords (words : List String) : Except Command.UsageFault CommandLine := do
  let levels ← Command.readLevels "" Command.grammar {} words
  match levels.path with
  | [_, kind, action] => return {
      kind := (Command.kindNames.lookup kind).getD .cluster
      action := Command.action action levels
      output := (Command.choice? "output" Command.outputForms levels).getD .yaml
      ns := levels.option? "namespace"
      fieldManager := levels.option? "field-manager"
      dryRun := levels.isSet "dry-run" }
  | _ => .error .missingCommand

/-- The settings of the client: variables, overridden by what the command line gives. A namespace
or a field manager that a variable sets counts as given, even where it is empty. -/
def config (lookup : String → Option String) (line : CommandLine) : ClientConfig :=
  let base := ClientConfig.ofVariables lookup
  { base with
    ns := (line.ns <|> lookup ClientConfig.namespaceVariable).getD base.ns
    fieldManager :=
      (line.fieldManager <|> lookup ClientConfig.managerVariable).getD base.fieldManager
    dryRun := line.dryRun }

end CommandLine

end FleetRegistry

import FleetRegistry.Client.Config
import FleetRegistry.Remote.Address
import FleetRegistry.Request.Call

/-!
Calls as requests to a server. Settings of the client fill in what a call leaves open: it writes in
the name of its field manager, and its dry runs make every write one.
-/
namespace FleetRegistry

inductive HttpMethod where
  | get
  | post
  | put
  | patch
  | delete
  deriving DecidableEq, Repr

def HttpMethod.name : HttpMethod → String
  | get => "GET"
  | post => "POST"
  | put => "PUT"
  | patch => "PATCH"
  | delete => "DELETE"

structure HttpRequest where
  method : HttpMethod
  address : Address
  contentType : Option String := none
  body : Option Json := none

def HttpRequest.toJson (request : HttpRequest) : Json := .obj [
  ("method", .str request.method.name),
  ("path", .str request.address.path),
  ("query", .ofStrings request.address.query),
  ("contentType", .ofText? request.contentType),
  ("body", request.body.getD .null)]

/-- The options of a list as a server is told them: empty ones are left out. -/
def ListOptions.effective (o : ListOptions) : ListOptions where
  labelSelector := o.labelSelector.filter (!·.isEmpty)
  fieldSelector := o.fieldSelector.filter (!·.isEmpty)
  resourceVersion := none
  limit := o.limit.filter (· > 0)
  continueToken := o.continueToken.filter (!·.isEmpty)

/-- The longest time, in seconds, for which a server keeps a watch open. -/
def watchTimeoutLimit : Nat := 290

/-- The options of a watch as a server is told them: empty ones are left out, and no watch is to
be kept open for longer than a server does. -/
def WatchOptions.effective (o : WatchOptions) : WatchOptions where
  labelSelector := o.labelSelector.filter (!·.isEmpty)
  fieldSelector := o.fieldSelector.filter (!·.isEmpty)
  resourceVersion := o.resourceVersion.filter (!·.isEmpty)
  timeoutSeconds := o.timeoutSeconds.map (min · watchTimeoutLimit)

def queryOf (fields : List (String × Option String)) : List (String × String) :=
  fields.filterMap fun field => field.2.map (field.1, ·)

namespace Remote

def jsonContent : String := "application/json"

def collectionPath (k : Kind) (ns : Option String) : String :=
  "/apis/" ++ k.group ++ "/" ++ k.version ++ "/"
    ++ ((ns.map fun ns => "namespaces/" ++ ns ++ "/").getD "") ++ k.plural

/-- The path of an object or of one of its parts. An object needs a name. -/
def objectPath (k : Kind) (ns : Option String) (name : String) (part : Option String) :
    Outcome String :=
  if name.isEmpty then .error (.transport .unaddressable)
  else .ok (collectionPath k ns ++ "/" ++ name ++ ((part.map ("/" ++ ·)).getD ""))

def addressOf (path : String) (query : Option (List (String × String))) : Outcome Address :=
  match Address.make? path query with
  | some address => .ok address
  | none => .error (.transport .unaddressable)

def managerLimit : Nat := 128

/-- Whether a write is only to be tried. -/
def asksDryRun (config : ClientConfig) (dryRun : Bool) : Bool := dryRun || config.dryRun

def writeQuery (config : ClientConfig) (options : WriteOptions) :
    Outcome (List (String × String)) :=
  let manager := options.fieldManager.getD config.fieldManager
  if manager.utf8ByteSize > managerLimit then .error (.transport .tooLongManager)
  else .ok (queryOf [
    ("dryRun", if asksDryRun config options.dryRun then some "All" else none),
    ("fieldManager", some manager)])

def listQuery (options : ListOptions) : List (String × String) :=
  let o := options.effective
  queryOf [("labelSelector", o.labelSelector), ("fieldSelector", o.fieldSelector),
    ("limit", o.limit.map Nat.repr), ("continue", o.continueToken)]

/-- The query of a deletion of many objects. It is about all pages. -/
def collectionQuery (options : ListOptions) : List (String × String) :=
  let o := options.effective
  queryOf [("labelSelector", o.labelSelector), ("fieldSelector", o.fieldSelector)]

/-- The query of a watch. A watch of no version begins with what is there. -/
def watchQuery (options : WatchOptions) : List (String × String) :=
  let o := options.effective
  queryOf [("labelSelector", o.labelSelector), ("fieldSelector", o.fieldSelector),
    ("watch", some "true"), ("allowWatchBookmarks", some "true"),
    ("timeoutSeconds", some (Nat.repr (o.timeoutSeconds.getD watchTimeoutLimit))),
    ("resourceVersion", some (o.resourceVersion.getD "0"))]

def deleteBody (config : ClientConfig) (options : DeleteOptions) : Json := .ofFields [
  ("dryRun",
    if asksDryRun config options.dryRun then some (.arr [.str "All"]) else none),
  ("gracePeriodSeconds", options.gracePeriodSeconds.map fun n => .int n),
  ("propagationPolicy", options.propagationPolicy.map fun p => .str p.name),
  ("preconditions", options.preconditions.map Preconditions.toJson)]

/-- The options of a deletion of many objects, if there are any. -/
def collectionBody? (config : ClientConfig) (options : DeleteOptions) : Option Json :=
  match deleteBody config options with
  | .obj [] => none
  | body => some body

/-- The document of a patch as it is sent. Of an operation only the parts that count are sent; a
list that holds something else is refused here. -/
def patchBody (patch : PatchRequest) : Outcome Json :=
  match patch.type with
  | .operations =>
    match Patch.operations patch.document with
    | .ok operations => .ok (.arr (operations.map Patch.Operation.toJson))
    | .error error => .error (.badRequest (.patch error))
  | .merge | .strategic => .ok patch.document

/-- The request that a call makes in a namespace. -/
def requestOf {k : Kind} (config : ClientConfig) (ns : Option String) (call : Call k) :
    Outcome HttpRequest := do
  match call with
  | .get name => do
    let path ← objectPath k ns name none
    return { method := .get, address := ← addressOf path none }
  | .list options =>
    return {
      method := .get
      address := ← addressOf (collectionPath k ns) (some (listQuery options)) }
  | .watch options =>
    return {
      method := .get
      address := ← addressOf (collectionPath k ns) (some (watchQuery options)) }
  | .create object options => do
    let query ← writeQuery config options
    return {
      method := .post
      address := ← addressOf (collectionPath k ns) (some query)
      contentType := some jsonContent
      body := some object.toJson }
  | .update side object options => do
    let part := if side = .status then some statusSubresource else none
    let path ← objectPath k ns object.anyName part
    let query ← writeQuery config options
    return {
      method := .put
      address := ← addressOf path (some query)
      contentType := some jsonContent
      body := some object.toJson }
  | .patch name patch options => do
    let body ← patchBody patch
    let path ← objectPath k ns name patch.subresource
    let query ← writeQuery config options
    return {
      method := .patch
      address := ← addressOf path (some query)
      contentType := some patch.type.contentType
      body := some body }
  | .delete name options => do
    let path ← objectPath k ns name none
    return {
      method := .delete
      address := ← addressOf path (some [])
      contentType := some jsonContent
      body := some (deleteBody config options) }
  | .deleteCollection selection options => do
    return {
      method := .delete
      address := ← addressOf (collectionPath k ns) (some (collectionQuery selection))
      contentType := some jsonContent
      body := collectionBody? config options }

end Remote

end FleetRegistry

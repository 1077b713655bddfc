import FleetRegistry.Error
import FleetRegistry.Json.Decode
import FleetRegistry.Json.Outline
import FleetRegistry.Json.Printer

/-!
Continue tokens: where the next page of a list begins, and the version of the store at which that
was found out. To a client a token is a word without meaning. It is the text of a JSON object in
sixty-four symbols; members under other names are passed over.
-/
namespace FleetRegistry

structure ContinueToken where
  revision : Nat
  start : Nat
  deriving DecidableEq, Repr

namespace ContinueToken

def formatVersion : String := "meta.k8s.io/v1"

/-- Numbers in tokens are below this bound. -/
def numberLimit : Nat := UInt64.size

def toJson (t : ContinueToken) : Json := .obj [
  ("v", .str formatVersion), ("rv", .int t.revision), ("start", .int t.start)]

def encode (t : ContinueToken) : String :=
  String.ofList (Text.Base64.urlSafe.encode t.toJson.compact.toUTF8.toList)

/-- A member with its name read and its value as it is written. -/
def named? (member : List Char × List Char) : Option (String × List Char) :=
  (Json.readPart? member.1).bind fun name => name.text?.map (·, member.2)

/-- The one value under a name; a repeated name has none. -/
def single? (name : String) (members : List (String × List Char)) : Option Json :=
  match members.filter (·.1 = name) with
  | [(_, value)] => Json.readPart? value
  | _ => none

/-- Format version, revision and start, by name or in this order. -/
def parts? : Json.Outline → Option (Json × Json × Json)
  | .members members => do
    let named ← members.mapM named?
    return (← single? "v" named, ← single? "rv" named, ← single? "start" named)
  | .items [version, revision, start] => do
    return (← Json.readPart? version, ← Json.readPart? revision, ← Json.readPart? start)
  | _ => none

/-- The format version that a value has, and its token. -/
def ofOutline? (outline : Json.Outline) : Option (String × ContinueToken) := do
  let (version, revision, start) ← parts? outline
  return (← version.text?,
    { revision := ← Json.natBelow? numberLimit revision
      start := ← Json.natBelow? numberLimit start })

def decode (text : String) : Except TokenFault ContinueToken :=
  match Text.Base64.urlSafe.decode text.toUTF8.toList with
  | .error fault => .error (.notBase64 fault)
  | .ok bytes =>
    match (Json.outline? bytes).bind ofOutline? with
    | none => .error .notToken
    | some (version, token) =>
      if version = formatVersion then .ok token else .error (.unsupportedVersion version)

end ContinueToken

end FleetRegistry

import ResourceClient.Json.Printer
import ResourceClient.Json.Record
import ResourceClient.Path
import ResourceClient.Text.Quoted

/-!
Everything that can go wrong, by cause, and the wording of each. A fault is a plain value: one that
ends a shared request is handed to everybody who waits for it.
-/
namespace ResourceClient

structure BackendError where
  name : String
  location : String
  description : String
  deriving DecidableEq, Inhabited, Repr

namespace BackendError

/-- Stands for a body that is no error envelope. -/
def unknown : BackendError := ⟨"unknown", "unknown", "unknown"⟩

def ofDraft? (d : Draft) : Option BackendError := do
  let [name, location, description] ← d.fields? ["name", "location", "description"] | none
  let read := Draft.required Draft.text?
  return ⟨← read name, ← read location, ← read description⟩

def envelope? (d : Draft) : Option (List BackendError) := do
  let [status, errors] ← d.fields? ["status", "errors"] | none
  let _ ← Draft.orDefault "" Draft.text? status
  Draft.required (Draft.list? ofDraft?) errors

def ofBody (body : Json) : List BackendError := (envelope? body.toDraft).getD [unknown]

def summary (e : BackendError) : String :=
  if e.location = "internal" then "Internal Error" else e.description

def line (e : BackendError) : String := e.name ++ " (" ++ e.location ++ "): " ++ e.description

end BackendError

inductive ImportFault where
  | notObject (wire : Json)
  | noContentType
  | unknownType (contentType : String)
  | noPath
  | notString (what : String) (value : Json)
  | badPath (what : String) (text : String)
  | sheetNotObject (sheet : String)
  | notReference (sheet field : String) (value : Json)
  | dataNotObject (value : Json)
  | badReport
  | badElement (value : Json)
  | unknownMode (text : String)
  | badBatch (value : Json)
  | batchLength (results operations : Nat)
  | missingResult
  | stated (text : String)
  deriving Inhabited

def ImportFault.message : ImportFault → String
  | .notObject wire => "resource is not an object: " ++ wire.render
  | .noContentType => "resource has no content_type"
  | .unknownType contentType => "unknown content type: " ++ contentType
  | .noPath => "resource has no path"
  | .notString what value => what ++ " is not a string: " ++ value.render
  | .badPath what text => what ++ " is not a valid path: " ++ text
  | .sheetNotObject sheet => "sheet " ++ sheet ++ " is not an object"
  | .notReference sheet field value =>
    "reference field " ++ sheet ++ "." ++ field ++ " holds a non-path value: " ++ value.render
  | .dataNotObject value => "data is not an object: " ++ value.render
  | .badReport => "malformed updated_resources"
  | .badElement value => "bad pool element: " ++ value.render
  | .unknownMode text => "unknown elements mode: " ++ text
  | .badBatch value => "batch response is neither array nor object: " ++ value.render
  | .batchLength results operations =>
    "batch returned " ++ results.repr ++ " results for " ++ operations.repr ++ " operations"
  | .missingResult => "batch result missing"
  | .stated text => text

inductive ExportFault where
  | unknownType (contentType : String)
  | missingField (sheet field : String)
  | noParent (path : Path)
  | stated (text : String)
  deriving DecidableEq, Inhabited

def ExportFault.message : ExportFault → String
  | .unknownType contentType => "unknown content type: " ++ contentType
  | .missingField sheet field => "missing create-mandatory field " ++ sheet ++ "." ++ field
  | .noParent path => "cannot post " ++ path.toString ++ " without a parent"
  | .stated text => text

inductive ConfigFault where
  | noAttempts
  | badJitter (jitter : Binary64)
  | stated (text : String)
  deriving DecidableEq, Inhabited

def ConfigFault.message : ConfigFault → String
  | .noAttempts => "no_fork_max_attempts must be at least 1"
  | .badJitter jitter =>
    "no_fork_jitter must be in [0, 1), got " ++ jitter.render Binary64.plainLayout
  | .stated text => text

inductive Fault where
  | placeholderPath (method path : String)
  | backend (errors : List BackendError)
  | importing (cause : ImportFault)
  | exporting (cause : ExportFault)
  | cyclic (paths : List String)
  | retriesSpent (path : String) (attempts : Nat)
  | closed
  | noSingleHead (path : String) (heads : List String)
  | tooDeep (path : String) (depth : Nat)
  | invalidPath (text : String)
  | transport (text : String)
  | schemaRefused (url : String) (status : Nat)
  | malformed (text : String)
  | config (cause : ConfigFault)
  deriving Inhabited

namespace Fault

def message : Fault → String
  | .placeholderPath method path => "attempt to http-" ++ method ++ " preliminary path: " ++ path
  | .backend errors => "backend error: " ++ "; ".intercalate (errors.map BackendError.line)
  | .importing cause => "import error: " ++ cause.message
  | .exporting cause => "export error: " ++ cause.message
  | .cyclic paths => "cyclic reference among preliminary paths: " ++ ", ".intercalate paths
  | .retriesSpent path attempts =>
    "tried to post new version of " ++ path ++ " " ++ attempts.repr ++ " times, giving up"
  | .closed => "transaction already committed"
  | .noSingleHead path heads => "cannot handle LAST tag of " ++ path ++ ": " ++ Quoted.list heads
  | .tooDeep path depth => "ancestor lookup from " ++ path ++ " exceeded depth " ++ depth.repr
  | .invalidPath text => "invalid path: " ++ text
  | .transport text => "HTTP error: " ++ text
  | .schemaRefused url status =>
    "HTTP error: meta api request to " ++ url ++ " failed with status " ++ status.repr
  | .malformed text => "JSON error: " ++ text
  | .config cause => "Configuration error: " ++ cause.message

def unreadable : Fault := .malformed "not of the expected form"

def backendErrors? : Fault → Option (List BackendError)
  | .backend errors => some errors
  | _ => none

/-- The field that a fork rejection points at. -/
def namesLadder (name : String) : Bool :=
  ("data.".toList.isPrefixOf name.toList &&
      ".IVersionable.follows".toList.isSuffixOf name.toList) ||
    name = "root_versions" || name = "root_version"

/-- The single rejection that a version posted beside another one gets. -/
def isForkConflict : Fault → Bool
  | .backend [e] =>
    namesLadder e.name && e.location = "body" &&
      "No fork allowed".toList.isPrefixOf e.description.toList
  | _ => false

def isMisuse : Fault → Bool
  | .placeholderPath .. | .closed | .invalidPath _ => true
  | _ => false

end Fault

end ResourceClient

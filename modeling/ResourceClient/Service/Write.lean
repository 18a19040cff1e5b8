import ResourceClient.Service.Read
import ResourceClient.Wire.Export

/-!
Writes. What the server says it touched is dropped from the cache before the answer is imported, so
a write whose answer is no resource still invalidates.
-/
namespace ResourceClient

namespace Client

def readReport (body : Json) : Except Fault Report :=
  match body.field? "updated_resources" with
  | none => .ok {}
  | some value =>
    match Report.ofJson? value with
    | some report => .ok report
    | none => .error .unreadable

/-- Reported addresses may be relative to the backend. -/
def forgetTouched (report : Report) (posted : List String) (c : Client) : Client :=
  c.mapCache (LiveCache.forgetTouched (report.map c.url) posted)

def finishWrite (url : String) (body : Json) (c : Client) : Except Fault Resource × Client :=
  match readReport body with
  | .error fault => (.error fault, c)
  | .ok report =>
    let posted := url :: ((body.stringField? "path").map c.url).toList
    (c.forgetTouched report posted).importWire none body

def finishDelete (url : String) (body : Json) (c : Client) : Except Fault Unit × Client :=
  match readReport body with
  | .error fault => (.error fault, c)
  | .ok report => (.ok (), c.forgetTouched report [url])

/-- A new local resource, with placeholders for what the server will assign. -/
def newResource (contentType : String) (c : Client) : Except Fault Resource × Client :=
  if !c.schema.knows contentType then (.error (.exporting (.unknownType contentType)), c)
  else
    let (path, c) := c.drawName
    if c.schema.isItem contentType then
      let (first, c) := c.drawName
      (.ok { contentType, path, firstVersion := some first }, c)
    else (.ok { contentType, path }, c)

end Client

namespace Service

open ResourceClient.Action

structure WriteOptions where
  noExport : Bool := false
  keepMetadata : Bool := false
  deriving DecidableEq, Inhabited

def writeBody (schema : Schema) (resource : Resource) (options : WriteOptions) (creating : Bool) :
    Except Fault Json :=
  if options.noExport then .ok (Wire.unfiltered resource)
  else Wire.exportResource schema { keepMetadata := options.keepMetadata, creating } resource

def putWith (path : Path) (resource : Resource) (options : WriteOptions) : Action Resource := do
  let address ← need (requireReal "put" path)
  let c ← look
  let body ← need (writeBody c.schema resource options false)
  let response ← putRaw (c.url address) body
  let answer ← need response.successBody
  attempt (Client.finishWrite (c.url address) answer)

def put (path : Path) (resource : Resource) : Action Resource := putWith path resource {}

def postWith (parent : Path) (resource : Resource) (options : WriteOptions) : Action Resource := do
  let address ← need (requireReal "post" parent)
  let c ← look
  let body ← need (writeBody c.schema resource options true)
  let response ← postRaw (c.url address) body
  let answer ← need response.successBody
  attempt (Client.finishWrite (c.url address) answer)

def post (parent : Path) (resource : Resource) : Action Resource := postWith parent resource {}

def delete (path : Path) : Action Unit := do
  let address ← need (requireReal "delete" path)
  let c ← look
  let response ← exchange (c.signed { method := .delete, url := c.url address })
  let answer ← need response.successBody
  attempt (Client.finishDelete (c.url address) answer)

def hide (path : Path) (contentType : String) : Action Resource :=
  putWith path
    { contentType, path, data := [(Known.metadata, [("hidden", .bool true)])] }
    { keepMetadata := true }

end Service

end ResourceClient

import ResourceClient.Json.Reader
import ResourceClient.Json.Record

/-!
Frames of the push channel. A frame is checked as a whole before it is matched, but its repeated
keys still count against it.
-/
namespace ResourceClient

inductive PushAction where
  | subscribe | unsubscribe
  deriving DecidableEq, Inhabited, Repr

def PushAction.name : PushAction → String
  | .subscribe => "subscribe"
  | .unsubscribe => "unsubscribe"

def PushAction.ofName? : String → Option PushAction
  | "subscribe" => some .subscribe
  | "unsubscribe" => some .unsubscribe
  | _ => none

/-- A name, or the object that has `null` under it. -/
def PushAction.ofDraft? : Draft → Option PushAction
  | .string (some s) => ofName? s
  | .object [(some s, .null)] => ofName? s
  | _ => none

structure PushRequest where
  action : PushAction
  resource : String
  deriving DecidableEq, Inhabited, Repr

def PushRequest.ofDraft? (d : Draft) : Option PushRequest := do
  let [action, resource] ← d.fields? ["action", "resource"] | none
  return ⟨← Draft.required PushAction.ofDraft? action, ← Draft.required Draft.text? resource⟩

structure PushEvent where
  event : String
  resource : String
  child : Option String := none
  version : Option String := none
  deriving DecidableEq, Inhabited, Repr

namespace PushEvent

def ofDraft? (d : Draft) : Option PushEvent := do
  let [event, resource, child, version] ←
    d.fields? ["event", "resource", "child", "version"] | none
  let optional := Draft.orDefault none (Draft.optional? Draft.text?)
  return ⟨← Draft.required Draft.text? event, ← Draft.required Draft.text? resource,
    ← optional child, ← optional version⟩

/-- Confirmations, errors and junk are no events. -/
def ofText? (text : String) : Option PushEvent := do
  let d ← Json.draft? (Json.bytesOf text)
  let _ ← d.value? Draft.depthLimit
  ofDraft? d

def addresses (e : PushEvent) : List String := e.resource :: e.child.toList ++ e.version.toList

end PushEvent

end ResourceClient

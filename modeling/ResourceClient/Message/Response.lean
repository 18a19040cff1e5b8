import ResourceClient.Fault
import ResourceClient.Json.Reader
import ResourceClient.Message.Request
import ResourceClient.Report

namespace ResourceClient

def isSuccessStatus (status : Nat) : Bool := 200 ≤ status && status < 300

structure Response where
  status : Nat := 200
  headers : Table String := []
  body : List UInt8 := []
  deriving DecidableEq, Inhabited

namespace Response

def ofJson (status : Nat) (value : Json) : Response :=
  { status, headers := [("content-type", "application/json")], body := Json.bytesOf value.render }

def withHeader (name value : String) (r : Response) : Response :=
  { r with headers := Table.insert name value r.headers }

def isSuccess (r : Response) : Bool := isSuccessStatus r.status

def text? (r : Response) : Option String := Json.textOf? r.body

def json (r : Response) : Except Fault Json :=
  match Json.read? r.body with
  | some value => .ok value
  | none => .error .unreadable

def rejection (r : Response) : Fault :=
  match Json.read? r.body with
  | some body => .backend (BackendError.ofBody body)
  | none => .backend [.unknown]

/-- The body of a success; an empty one is `null`. -/
def successBody (r : Response) : Except Fault Json :=
  if !r.isSuccess then .error r.rejection
  else if r.body.isEmpty then .ok .null
  else r.json

end Response

/-- What a resource allows, from an OPTIONS response: a method is allowed if it is a key. -/
structure Allowance where
  body : Json
  deriving Inhabited

def Allowance.allows (a : Allowance) (method : String) : Bool := (a.body.field? method).isSome

structure BatchResult where
  code : Nat
  body : Json := .null
  deriving Inhabited

namespace BatchResult

def isSuccess (r : BatchResult) : Bool := isSuccessStatus r.code

def ofJson? (value : Json) : Option BatchResult := do
  let [code, body] ← value.record? ["code", "body"] | none
  return { code := ← (← code).toDraft.nat? UInt16.size, body := body.getD .null }

end BatchResult

/-- The answer to a batch: a bare list of results, or the results with a report on all of them. -/
structure BatchResponse where
  results : List BatchResult := []
  report : Option Report := none
  deriving Inhabited

namespace BatchResponse

def results? : Json → Option (List BatchResult)
  | .array items => items.mapM BatchResult.ofJson?
  | _ => none

def report? : Option Json → Option (Option Report)
  | none | some .null => some none
  | some value => (Report.ofJson? value).map some

def ofObject? (value : Json) : Option BatchResponse := do
  return {
    results := ← results? (← value.field? "responses")
    report := ← report? (value.field? "updated_resources") }

def ofJson (value : Json) : Except Fault BatchResponse :=
  match value with
  | .array _ =>
    match results? value with
    | some results => .ok { results }
    | none => .error .unreadable
  | .object _ =>
    match ofObject? value with
    | some batch => .ok batch
    | none => .error .unreadable
  | other => .error (.importing (.badBatch other))

/-- The batch stops at its first failure, so the last result holds the rejection. -/
def rejection (results : List BatchResult) : Fault :=
  match results.getLast? with
  | some last => .backend (BackendError.ofBody last.body)
  | none => .backend [.unknown]

end BatchResponse

end ResourceClient

import ResourceClient.Json
import ResourceClient.Table

namespace ResourceClient

inductive Method where
  | get | put | post | delete | options
  deriving DecidableEq, Inhabited, Repr

def Method.name : Method → String
  | .get => "GET"
  | .put => "PUT"
  | .post => "POST"
  | .delete => "DELETE"
  | .options => "OPTIONS"

/-- Header names differ only by more than ASCII case; the first in key order counts. -/
def header? (headers : Table String) (name : String) : Option String :=
  (headers.find? fun p => p.1.toList.map Char.toLower = name.toList.map Char.toLower).map (·.2)

structure Request where
  method : Method
  url : String
  params : Table String := []
  headers : Table String := []
  body : Option Json := none
  deriving Inhabited

def Request.withParam (key value : String) (r : Request) : Request :=
  { r with params := Table.insert key value r.params }

def Request.withHeader (key value : String) (r : Request) : Request :=
  { r with headers := Table.insert key value r.headers }

structure Credentials where
  user : String
  token : String
  deriving DecidableEq, Inhabited, Repr

def Request.signed (credentials : Option Credentials) (r : Request) : Request :=
  match credentials with
  | some c => (r.withHeader "X-User-Path" c.user).withHeader "X-User-Token" c.token
  | none => r

end ResourceClient

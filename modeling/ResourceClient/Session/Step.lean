import ResourceClient.Service.Batch
import ResourceClient.Service.Ladder

namespace ResourceClient

structure Route where
  method : String
  url : String
  answer : Except Fault Response
  deriving Inhabited

/-- What an ancestor has to be or to have; either suffices. -/
structure Wanted where
  contentType : Option String := none
  sheet : Option String := none
  deriving Inhabited

def Wanted.accepts (w : Wanted) (r : Resource) : Bool :=
  w.contentType = some r.contentType ||
    (w.sheet.map fun name => (r.sheet? name).isSome).getD false

inductive TransactionStep where
  | get (path : Path)
  | put (path : Path) (resource : Resource)
  | post (parent : Path) (resource : Resource)
  deriving Inhabited

inductive Step where
  | route (route : Route)
  | get (path : Path) (params : Table String) (options : Service.GetOptions)
  | getRaw (address : String) (params : Table String)
  | putRaw (address : String) (body : Json)
  | postRaw (address : String) (body : Json)
  | options (path : Path)
  | resolve (target : Path ⊕ Resource)
  | ancestor (path : Path) (wanted : Wanted)
  | newest (item : Path)
  | fetchSchema (types : List String)
  | put (path : Path) (resource : Resource) (options : Service.WriteOptions)
  | post (parent : Path) (resource : Resource) (options : Service.WriteOptions)
  | delete (path : Path)
  | hide (path : Path) (contentType : String)
  | deepPost (resources : List Resource)
  | postVersion (old : Path) (resource : Resource) (rootVersions : Option (List Path))
  | newResource (contentType : String)
  | nextName
  | url (address : String)
  | setCredentials (credentials : Option Credentials)
  | beginTransaction (name : String)
  | record (name : String) (step : TransactionStep)
  | inspectTransaction (name : String)
  | commit (name : String)
  | transact (steps : List TransactionStep)
  | memoize (address subkey : String) (opening : List Reaction) (script : Script)
  | react (reaction : Reaction)
  | forgetTouched (report : Except Fault Report) (posted : List String)
  | newCache (name : String)
  | cloneCache (name source : String)
  | dropCache (name : String)
  | setConnected (connected : Bool)
  | frame (text : String)
  | pump (signals : List Client.Signal)
  | observe (name address : String) (reactions : List Reaction)
  | observeLoss (name : String) (reactions : List Reaction)
  | endRegistration (name : String)
  | release (name : String)
  | inspectHub (address : String)
  | start (name : String) (step : Step)
  | finish (name : String)
  | abandon (name : String)
  | skip
  deriving Inhabited

inductive Reply where
  | nothing
  | flag (value : Bool)
  | count (value : Nat)
  | text (value : String)
  | resource (value : Resource)
  | resources (values : List Resource)
  | response (value : Response)
  | allowance (value : Allowance)
  | found (value : Option Resource)
  | schema (resources : Nat) (known : List (Bool × Bool))
  | version (value : Service.VersionPost)
  | operation (handle : OperationHandle)
  | posted (handle : PostHandle)
  | transaction (value : Transaction)
  | transacted (handles : List Reply) (results : List Resource)
  | pumped (connected : Bool)
  | hub (connected : Bool) (lossListeners subscribers : Nat) (description : String)
  | fault (value : Fault)
  deriving Inhabited

def Reply.ofExcept (reply : α → Reply) : Except Fault α → Reply
  | .ok value => reply value
  | .error cause => .fault cause

end ResourceClient

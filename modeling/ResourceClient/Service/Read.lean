import ResourceClient.Address.Query
import ResourceClient.Client.World

/-! Reads. A plain read is shared through the cache under its URL and its parameters. -/
namespace ResourceClient.Service

open ResourceClient.Action

def requireReal (verb : String) (path : Path) : Except Fault String :=
  match path with
  | .real address => .ok address
  | .placeholder _ => .error (.placeholderPath verb path.toString)

def getRaw (address : String) (params : Table String) : Action Response := do
  let c ← look
  let request ← need (c.rawRequest .get "get" address)
  exchange { request with params }

def putRaw (address : String) (body : Json) : Action Response := do
  let c ← look
  let request ← need (c.rawRequest .put "put" address)
  exchange { request with body := some body }

def postRaw (address : String) (body : Json) : Action Response := do
  let c ← look
  let request ← need (c.rawRequest .post "post" address)
  exchange { request with body := some body }

def fetch (plan : Fetch) : Action Resource := do
  let c ← look
  let request ← need (c.fetchRequest plan)
  ExceptT.mk do
    let answer ← Flow.exchange request
    Flow.act (Client.absorb plan answer)

structure GetOptions where
  /-- Ask for listed elements with their content, and cache them. -/
  warmup : Bool := false
  /-- Neither look into the cache nor keep the answer. -/
  bypass : Bool := false
  deriving DecidableEq, Inhabited

def requestedMode (params : Table String) : Except Fault ElementsMode :=
  match Table.get? params "elements" with
  | some text => ElementsMode.read text
  | none => .ok .paths

def fetchPlan (url : String) (params : Table String) (warmup : Bool) : Except Fault Fetch :=
  if warmup then do
    let mode ← requestedMode params
    return {
      url
      params := Table.insert "elements" ElementsMode.content.name params
      listing := some mode }
  else .ok { url, params }

def getWith (path : Path) (params : Table String) (options : GetOptions) : Action Resource := do
  let address ← need (requireReal "get" path)
  let url := (← look).url address
  let plan ← need (fetchPlan url params options.warmup)
  if options.bypass then fetch plan
  else
    match ← act (Client.memoize url (Query.render params) (.fetch plan) []) with
    | .shared ticket => join ticket
    | .own => fetch plan

def get (path : Path) : Action Resource := getWith path [] {}

/-- Which methods the backend allows. Never cached. -/
def options (path : Path) : Action Allowance := do
  let address ← need (requireReal "options" path)
  let c ← look
  let response ← exchange (c.signed { method := .options, url := c.url address })
  return ⟨← need response.successBody⟩

def resolve : Path ⊕ Resource → Action Resource
  | .inl path => get path
  | .inr resource => pure resource

/-- Reads upwards from `current`; `some none` once the root was read without a match, `none` if the
steps run out first. -/
def climb {m : Type → Type} [Monad m] (read : String → m Resource) (wanted : Resource → Bool) :
    Nat → String → m (Option (Option Resource))
  | 0, _ => pure none
  | steps + 1, current => do
    let resource ← read current
    if wanted resource then return some (some resource)
    else if Address.isRoot current then return some none
    else climb read wanted steps (Address.parent current)

def ancestor (path : Path) (wanted : Resource → Bool) : Action (Option Resource) := do
  let start ← need (requireReal "get" path)
  let depth := (← look).config.maxAncestorDepth
  match ← climb (fun address => get (.real address)) wanted depth start with
  | some found => return found
  | none => fail (.tooDeep start depth)

/-- The schema that the backend publishes; asked for without credentials. -/
def fetchSchema : Action Schema := do
  let url := Address.join (← look).config.restUrl "meta_api/"
  let response ← exchange { method := .get, url }
  if !response.isSuccess then fail (.schemaRefused url response.status)
  else
    match (Json.draft? response.body).bind Schema.ofDraft? with
    | some schema => return schema
    | none => fail .unreadable

end ResourceClient.Service

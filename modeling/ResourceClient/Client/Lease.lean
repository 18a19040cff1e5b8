import ResourceClient.Client.Agenda
import ResourceClient.Message.Response

/-!
Shared reads. A read of a slot is answered by the flight that has the slot; only if nobody has it is
a new one started, and if the slot was filled while it was being made, first in wins.
-/
namespace ResourceClient

/-- How a read goes on: with a flight that others may share, or on its own. -/
inductive Lease where
  | shared (ticket : Ticket)
  | own
  deriving DecidableEq, Inhabited, Repr

namespace Client

def reserve (key subkey : String) (c : Client) : Client :=
  { c with
    reservation := (c.cache.entryAt? key).map fun e =>
      { key, since := e.since, subkey } }

/-- Puts the flight into the reserved slot, or finds who has it; an entry that is gone keeps
nothing. -/
def claim (ticket : Ticket) (c : Client) : Ticket × Client :=
  let free := { c with reservation := none }
  match c.reservation with
  | none => (ticket, free)
  | some r =>
    match r.holder with
    | some holder => (holder, free)
    | none =>
      match c.cache.entryAt? r.key with
      | some e =>
        if e.since = r.since then (ticket, free.mapCache (LiveCache.fill r.key r.subkey ticket))
        else (ticket, free)
      | none => (ticket, free)

/-- `opening` is what starting the read does at once; without a trusted cache every read starts. -/
def memoize (address subkey : String) (job : Job) (opening : List Call) (c : Client) :
    Lease × Client :=
  if !c.cache.isLive then (.own, c.settle opening)
  else
    let key := Address.key address
    let c := c.mapCache (LiveCache.ensure key)
    match c.cache.slot? key subkey with
    | some ticket => (.shared ticket, c)
    | none =>
      let (ticket, cache) := c.cache.addFlight (.running key subkey job)
      let (ticket, c) := (({ c with cache }.reserve key subkey).settle opening).claim ticket
      (.shared ticket, c)

def seed (s : Wire.Seed) : Client → Client := mapCache (LiveCache.put s.address "" s.resource)

def importWire (listing : Option ElementsMode) (wire : Json) (c : Client) :
    Except Fault Resource × Client :=
  match listing with
  | none =>
    let (result, names) := Wire.importResource c.schema wire c.names
    (result, { c with names })
  | some mode =>
    let read := Wire.importListing c.schema mode wire c.names
    (read.result, read.seeds.foldl (fun c s => c.seed s) { c with names := read.names })

def absorb (plan : Fetch) (answer : Except Fault Response) (c : Client) :
    Except Fault Resource × Client :=
  match answer.bind Response.successBody with
  | .error fault => (.error fault, c)
  | .ok wire => c.importWire plan.listing wire

def rawRequest (c : Client) (method : Method) (verb address : String) :
    Except Fault Request :=
  if startsWithSentinel address then .error (.placeholderPath verb address)
  else .ok (c.signed { method, url := c.url address })

def fetchRequest (c : Client) (plan : Fetch) : Except Fault Request :=
  (c.rawRequest .get "get" plan.url).map fun r => { r with params := plan.params }

end Client

end ResourceClient

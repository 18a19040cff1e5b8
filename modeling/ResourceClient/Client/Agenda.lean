import ResourceClient.Client.State

/-!
Notifications and what they set off. Calls run one at a time, and what one sets off is done with
before the next begins. Only the nesting is limited, so any number of listeners is served.
-/
namespace ResourceClient

inductive Call where
  | note (line : String)
  | react (reaction : Reaction)
  | notify (listener : Listener) (key : String)
  | lost (listener : Listener)
  deriving Inhabited

namespace Client

def announcement (c : Client) (address : String) : List Call :=
  (c.hub.listeners address).map fun l => .notify l (Address.key address)

def react (reaction : Reaction) (c : Client) : List Call × Client :=
  match reaction with
  | .put address subkey resource => ([], c.mapCache (LiveCache.put address subkey resource))
  | .forget address => ([], c.mapCache (LiveCache.forget address))
  | .forgetAll => ([], c.mapCache LiveCache.forgetAll)
  | .release name => ([], c.release name)
  | .announce address => (c.announcement address, c)
  | .setConnected connected =>
    let (lost, hub) := c.hub.setConnected connected
    (lost.map .lost, c.mapHub fun _ => hub)

def perform (call : Call) (c : Client) : List Call × Client :=
  match call with
  | .note line => ([], c.note line)
  | .react reaction => c.react reaction
  | .notify (.entry key) _ => ([], c.mapCache (LiveCache.forgetKey key))
  | .notify (.observer name reactions) key =>
    (reactions.map .react, c.note (name ++ " " ++ key))
  | .notify _ _ => ([], c)
  | .lost .cache => ([], c.mapCache LiveCache.forgetAll)
  | .lost (.observer name reactions) => (reactions.map .react, c.note (name ++ " disconnected"))
  | .lost _ => ([], c)

def observeReservation (c : Client) : Client :=
  { c with
    reservation := c.reservation.map fun r =>
      match c.cache.entryAt? r.key with
      | some e => if e.since = r.since then { r with holder := Table.get? e.slots r.subkey } else r
      | none => r }

/-- Runs calls in turn, nested no deeper than `depth`. -/
def settleWithin : Nat → List Call → Client → Client
  | 0, _, c => c
  | depth + 1, calls, c =>
    calls.foldl
      (fun c call =>
        let (more, c) := c.perform call
        settleWithin depth more c.observeReservation)
      c

/-- Listeners that call each other in a circle never come to an end; nobody installs such. -/
def nestingLimit : Nat := 1000

def settle (calls : List Call) (c : Client) : Client := settleWithin nestingLimit calls c

def announce (address : String) (c : Client) : Client := c.settle [.react (.announce address)]

def setConnected (connected : Bool) (c : Client) : Client :=
  c.settle [.react (.setConnected connected)]

/-- A frame of the push channel; what is no event is ignored. -/
def receive (text : String) (c : Client) : Client :=
  match PushEvent.ofText? text with
  | some event => c.settle (event.addresses.map fun address => .react (.announce address))
  | none => c

inductive Signal where
  | connected
  | disconnected
  | frame (text : String)
  deriving Inhabited

def signal (s : Signal) (c : Client) : Client :=
  match s with
  | .connected => c.setConnected true
  | .disconnected => c.setConnected false
  | .frame text => c.receive text

/-- A stream of signals that ends counts as a loss of the connection. -/
def pump (signals : List Signal) (c : Client) : Client :=
  (signals.foldl (fun c s => c.signal s) c).setConnected false

def observe (name address : String) (reactions : List Reaction) (c : Client) : Client :=
  let (id, hub) := c.hub.register address (.observer name reactions)
  (c.mapHub fun _ => hub).keepHandle name (.subscription id)

def observeLoss (name : String) (reactions : List Reaction) (c : Client) : Client :=
  let (id, hub) := c.hub.onLoss (.observer name reactions)
  (c.mapHub fun _ => hub).keepHandle name (.loss id)

end Client

end ResourceClient

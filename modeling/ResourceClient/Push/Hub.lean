import ResourceClient.Address
import ResourceClient.Push.Frame

/-!
The push hub: who listens to which key, and what the server has to be told about it. Listeners are
values, so a notification is a list of them taken when it starts, and whatever they do while it runs
is a later operation on the hub.
-/
namespace ResourceClient

structure Subscription (α : Type u) where
  id : Nat
  key : String
  listener : α
  deriving Inhabited

structure Hub (α : Type u) where
  connected : Bool := false
  subscriptions : List (Subscription α) := []
  lossListeners : List (Nat × α) := []
  nextId : Nat := 0
  outbox : List PushRequest := []
  deriving Inhabited

namespace Hub

variable {α : Type u}

def send (action : PushAction) (key : String) (hub : Hub α) : Hub α :=
  if hub.connected then { hub with outbox := hub.outbox ++ [⟨action, key⟩] } else hub

def isSubscribed (hub : Hub α) (key : String) : Bool := hub.subscriptions.any (·.key = key)

/-- The first registration of a key subscribes it. -/
def register (address : String) (listener : α) (hub : Hub α) : Nat × Hub α :=
  let key := Address.key address
  let registered : Hub α :=
    { hub with
      subscriptions := hub.subscriptions ++ [⟨hub.nextId, key, listener⟩]
      nextId := hub.nextId + 1 }
  (hub.nextId, if hub.isSubscribed key then registered else registered.send .subscribe key)

/-- The last registration of a key to end unsubscribes it. -/
def unregister (id : Nat) (hub : Hub α) : Hub α :=
  match hub.subscriptions.find? (·.id = id) with
  | none => hub
  | some ended =>
    let rest : Hub α := { hub with subscriptions := hub.subscriptions.filter (·.id ≠ id) }
    if rest.isSubscribed ended.key then rest else rest.send .unsubscribe ended.key

def onLoss (listener : α) (hub : Hub α) : Nat × Hub α :=
  (hub.nextId,
    { hub with
      lossListeners := hub.lossListeners ++ [(hub.nextId, listener)]
      nextId := hub.nextId + 1 })

def endOnLoss (id : Nat) (hub : Hub α) : Hub α :=
  { hub with lossListeners := hub.lossListeners.filter (·.1 ≠ id) }

def keys (hub : Hub α) : List String := (hub.subscriptions.map (·.key)).eraseDups

def describe (hub : Hub α) : String :=
  "PushHub \x7b connected: " ++ toString hub.connected ++ ", paths: " ++ hub.keys.length.repr ++
    " \x7d"

/-- A new connection starts with the subscriptions that are live; answers the listeners that a lost
one calls. -/
def setConnected (connected : Bool) (hub : Hub α) : List α × Hub α :=
  let next : Hub α := { hub with connected }
  if connected && !hub.connected then ([], hub.keys.foldl (fun h key => h.send .subscribe key) next)
  else if !connected && hub.connected then (hub.lossListeners.map (·.2), next)
  else ([], next)

def listeners (hub : Hub α) (address : String) : List α :=
  (hub.subscriptions.filter (·.key = Address.key address)).map (·.listener)

def subscriberCount (hub : Hub α) (address : String) : Nat := (hub.listeners address).length

@[simp] theorem subscriptions_send (action : PushAction) (key : String) (hub : Hub α) :
    (hub.send action key).subscriptions = hub.subscriptions := by
  unfold send
  split <;> rfl

@[simp] theorem connected_send (action : PushAction) (key : String) (hub : Hub α) :
    (hub.send action key).connected = hub.connected := by
  unfold send
  split <;> rfl

@[simp] theorem subscriptions_register (address : String) (listener : α) (hub : Hub α) :
    (hub.register address listener).2.subscriptions =
      hub.subscriptions ++ [⟨hub.nextId, Address.key address, listener⟩] := by
  dsimp only [register]
  split <;> simp

@[simp] theorem subscriptions_unregister (id : Nat) (hub : Hub α) :
    (hub.unregister id).subscriptions = hub.subscriptions.filter (·.id ≠ id) := by
  unfold unregister
  split
  · next h =>
    rw [List.find?_eq_none] at h
    exact (List.filter_eq_self.2 fun s hs => by simpa using h s hs).symm
  · dsimp only
    split <;> simp

theorem isSubscribed_iff (hub : Hub α) (key : String) :
    hub.isSubscribed key ↔ ∃ s ∈ hub.subscriptions, s.key = key := by
  simp [isSubscribed]

def takeOutbox (hub : Hub α) : List PushRequest × Hub α := (hub.outbox, { hub with outbox := [] })

end Hub

end ResourceClient

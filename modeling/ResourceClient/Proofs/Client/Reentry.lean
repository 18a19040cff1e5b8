import ResourceClient.Proofs.Client.History
import ResourceClient.Proofs.Push.Outbox

/-!
Listeners that act while they are called. What they set off is done call by call, each on the hub
as the one before has left it; so however deeply calls are nested, to the hub they are a plain
sequence, and what holds of every sequence holds in the middle of a notification too.
-/
namespace ResourceClient

namespace Hub

variable {α : Type u} {hub next later : Hub α}

def Reaches (hub later : Hub α) : Prop := ∃ calls, later = hub.takeAll calls

theorem Reaches.refl (hub : Hub α) : hub.Reaches hub := ⟨[], rfl⟩

theorem Reaches.trans (h : hub.Reaches next) (hlater : next.Reaches later) : hub.Reaches later := by
  obtain ⟨calls, rfl⟩ := h
  obtain ⟨more, rfl⟩ := hlater
  exact ⟨calls ++ more, (takeAll_append hub calls more).symm⟩

theorem reaches_take (hub : Hub α) (call : HubCall α) : hub.Reaches (hub.take call) := ⟨[call], rfl⟩

end Hub

open Hub

namespace LiveCache

variable (c : LiveCache) (key address subkey : String)

theorem reaches_ensure : c.hub.Reaches (c.ensure key).hub := by
  unfold ensure
  split
  · exact Reaches.refl c.hub
  · dsimp only
    split
    · exact Reaches.refl c.hub
    · exact reaches_take c.hub (.register key (.entry key))

theorem reaches_put (resource : Resource) : c.hub.Reaches (c.put address subkey resource).hub := by
  unfold put
  split
  · exact reaches_ensure c _
  · exact Reaches.refl c.hub

theorem reaches_forgetKey : c.hub.Reaches (c.forgetKey key).hub := by
  unfold forgetKey
  split
  · exact Reaches.refl c.hub
  · dsimp only
    split
    · exact reaches_take c.hub (.unregister _)
    · exact Reaches.refl c.hub

theorem reaches_forgetAll : c.hub.Reaches c.forgetAll.hub := by
  unfold forgetAll
  generalize c.entries = entries
  induction entries generalizing c with
  | nil => exact Reaches.refl c.hub
  | cons e rest ih => exact (reaches_forgetKey c e.key).trans (ih (c.forgetKey e.key))

end LiveCache

namespace Client

variable (c : Client)

theorem reaches_endHandle (handle : Handle) : c.hub.Reaches (c.endHandle handle).hub := by
  cases handle with
  | subscription id => exact reaches_take c.hub (.unregister id)
  | loss id => exact reaches_take c.hub (.endOnLoss id)
  | ended => exact Reaches.refl c.hub

theorem reaches_release (name : String) : c.hub.Reaches (c.release name).hub := by
  unfold release
  split
  · exact reaches_endHandle { c with handles := Table.erase name c.handles } _
  · exact Reaches.refl c.hub

theorem reaches_react (reaction : Reaction) : c.hub.Reaches (c.react reaction).2.hub := by
  cases reaction with
  | put address subkey resource => exact LiveCache.reaches_put c.cache address subkey resource
  | forget address => exact LiveCache.reaches_forgetKey c.cache _
  | forgetAll => exact LiveCache.reaches_forgetAll c.cache
  | release name => exact reaches_release c name
  | announce address => exact reaches_take c.hub (.announce address)
  | setConnected connected => exact reaches_take c.hub (.setConnected connected)

theorem reaches_perform (call : Call) : c.hub.Reaches (c.perform call).2.hub := by
  cases call with
  | note line => exact Reaches.refl c.hub
  | react reaction => exact reaches_react c reaction
  | notify listener key =>
    cases listener with
    | entry own => exact LiveCache.reaches_forgetKey c.cache own
    | _ => exact Reaches.refl c.hub
  | lost listener =>
    cases listener with
    | cache => exact LiveCache.reaches_forgetAll c.cache
    | _ => exact Reaches.refl c.hub

theorem reaches_settle (calls : List Call) : c.hub.Reaches (c.settle calls).hub :=
  settle_rel (R := fun c d => c.hub.Reaches d.hub) (fun c => Reaches.refl c.hub) Reaches.trans
    (fun call c => reaches_perform c call) calls c

end Client

/-- What is done from outside to a hub whose listeners act when they are called. -/
inductive HubEvent where
  | observe (name address : String) (reactions : List Reaction)
  | observeLoss (name : String) (reactions : List Reaction)
  | act (reaction : Reaction)
  | receive (text : String)

namespace Client

def serve (c : Client) : HubEvent → Client
  | .observe name address reactions => c.observe name address reactions
  | .observeLoss name reactions => c.observeLoss name reactions
  | .act reaction => c.settle [.react reaction]
  | .receive text => c.receive text

theorem reaches_keepHandle (c : Client) (name : String) (handle : Handle) :
    c.hub.Reaches (c.keepHandle name handle).hub :=
  reaches_release c name

theorem reaches_serve (c : Client) (e : HubEvent) : c.hub.Reaches (c.serve e).hub := by
  cases e with
  | observe name address reactions =>
    exact (reaches_take c.hub (.register address (.observer name reactions))).trans
      (reaches_keepHandle _ name _)
  | observeLoss name reactions =>
    exact (reaches_take c.hub (.onLoss (.observer name reactions))).trans
      (reaches_keepHandle _ name _)
  | act reaction => exact reaches_settle c _
  | receive text =>
    change c.hub.Reaches (c.receive text).hub
    unfold receive
    split
    · exact reaches_settle c _
    · exact Reaches.refl c.hub

end Client

namespace Client

def serveAll (c : Client) (events : List HubEvent) : Client := events.foldl serve c

/-- Each event is a sequence of calls on the hub that the events before it have left. -/
theorem exists_calls {c : Client} {calls : List (HubCall Listener)} (h : c.hub = takeAll {} calls)
    (events : List HubEvent) :
    ∃ parts : List (List (HubCall Listener)), parts.length = events.length ∧
      ∀ n, (c.serveAll (events.take n)).hub = takeAll {} (calls ++ (parts.take n).flatten) := by
  induction events generalizing c calls with
  | nil => exact ⟨[], rfl, fun n => by simpa [serveAll] using h⟩
  | cons e rest ih =>
    obtain ⟨first, hfirst⟩ := reaches_serve c e
    rw [h, ← takeAll_append] at hfirst
    obtain ⟨parts, hlength, hparts⟩ := ih hfirst
    refine ⟨first :: parts, congrArg (· + 1) hlength, fun n => ?_⟩
    cases n with
    | zero => simpa [serveAll] using h
    | succ n => simpa [serveAll] using hparts n

theorem hub_opened (config : Config) (schema : Schema) (connected : Bool) :
    (opened config schema connected).hub =
      takeAll {} [.setConnected connected, .onLoss .cache] := by
  cases connected <;> rfl

/-- Whatever is called in whatever order, from outside or by listeners while they are called, the
server is kept in step. -/
theorem mirrored_serveAll {α : Type u} :
    (∀ calls : List (HubCall α), Mirrored calls) ∧
      ∀ config schema connected (events : List HubEvent),
        ∃ parts : List (List (HubCall Listener)), parts.length = events.length ∧
          ∀ n, ((opened config schema connected).serveAll (events.take n)).hub =
            takeAll {} ([.setConnected connected, .onLoss .cache] ++ (parts.take n).flatten) :=
  ⟨mirrored, fun config schema connected events =>
    exists_calls (hub_opened config schema connected) events⟩

end Client

end ResourceClient

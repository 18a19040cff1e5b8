import Mathlib.Data.List.Induction
import ResourceClient.Proofs.Client.Quiet

/-!
Who is told. A registration is live from the time it is made until its handle ends it, whoever else
registers or ends a registration for the same address or with the same callback. The hub keeps its
own lists; they hold the live registrations and nothing else, so an announced change calls those of
its address and a lost connection those that wait for one, each once and in the order in which they
were made.
-/
namespace ResourceClient

inductive Interest where
  | change (address : String)
  | loss
  deriving DecidableEq, Repr

/-- A use of a hub whose callbacks only write. -/
inductive HubUse where
  | listen (interest : Interest) (name : String)
  /-- Ends the registration of that number, in the order in which they are made. It may have ended
  before. -/
  | finish (number : Nat)
  | announce (address : String)
  | setConnected (connected : Bool)
  deriving DecidableEq, Repr

/-- A registration as its maker knows it. -/
structure Registration where
  number : Nat
  interest : Interest
  name : String
  deriving DecidableEq, Repr

namespace Registration

variable (r : Registration)

def hears (address : String) : Bool :=
  match r.interest with
  | .change other => Address.key other = Address.key address
  | .loss => false

def listener : Listener := .observer r.name []

def handle : Handle :=
  match r.interest with
  | .change _ => .subscription r.number
  | .loss => .loss r.number

def subscription? : Option (Subscription Listener) :=
  match r.interest with
  | .change address => some ⟨r.number, Address.key address, r.listener⟩
  | .loss => none

def lossListener? : Option (Nat × Listener) :=
  match r.interest with
  | .change _ => none
  | .loss => some (r.number, r.listener)

end Registration

namespace HubUse

def ends (number : Nat) : HubUse → Bool
  | .finish ended => ended = number
  | _ => false

def registration? (number : Nat) : HubUse → Option Registration
  | .listen interest name => some ⟨number, interest, name⟩
  | _ => none

def connection? : HubUse → Option Bool
  | .setConnected connected => some connected
  | _ => none

def made (uses : List HubUse) : Nat := (uses.filterMap (registration? 0)).length

/-- The registrations that nothing ends after they are made, the first of them being number `n`. -/
def liveFrom : Nat → List HubUse → List Registration
  | _, [] => []
  | n, .listen interest name :: later =>
    if later.any (ends n) then liveFrom (n + 1) later
    else ⟨n, interest, name⟩ :: liveFrom (n + 1) later
  | n, _ :: later => liveFrom n later

def live (uses : List HubUse) : List Registration := liveFrom 0 uses

def isUp (uses : List HubUse) : Bool := (uses.filterMap connection?).getLast?.getD false

def hearing (uses : List HubUse) (address : String) : List Registration :=
  (live uses).filter (·.hears address)

/-- Those who are told of the loss, if the connection is there and is now lost. -/
def losing (uses : List HubUse) (connected : Bool) : List Registration :=
  if isUp uses && !connected then (live uses).filter (·.interest = .loss) else []

def lines (uses : List HubUse) : HubUse → List String
  | .announce address => (hearing uses address).map fun r => r.name ++ " " ++ Address.key address
  | .setConnected connected => (losing uses connected).map fun r => r.name ++ " disconnected"
  | _ => []

variable (uses : List HubUse) (use : HubUse)

theorem made_concat : made (uses ++ [use]) = made uses + (use.registration? 0).toList.length := by
  cases use <;> simp [made, registration?]

theorem liveFrom_concat (n : Nat) :
    liveFrom n (uses ++ [use]) =
      (liveFrom n uses).filter (fun r => !use.ends r.number) ++
        (use.registration? (n + made uses)).toList := by
  induction uses generalizing n with
  | nil => cases use <;> simp [liveFrom, made, registration?]
  | cons first rest ih =>
    cases first with
    | listen interest name =>
      have hmade : n + made (.listen interest name :: rest) = n + 1 + made rest := by
        simp only [made, registration?, List.filterMap_cons, List.length_cons]
        omega
      rw [List.cons_append, liveFrom, liveFrom, List.any_append, ih, hmade]
      cases hrest : rest.any (ends n) with
      | true => simp
      | false => cases huse : use.ends n <;> simp [huse]
    | _ => exact ih n

theorem live_concat :
    live (uses ++ [use]) =
      (live uses).filter (fun r => !use.ends r.number) ++
        (use.registration? (made uses)).toList := by
  rw [live, live, liveFrom_concat, Nat.zero_add]

theorem live_listen (interest : Interest) (name : String) :
    live (uses ++ [.listen interest name]) = live uses ++ [⟨made uses, interest, name⟩] := by
  simp [live_concat, ends, registration?]

theorem live_finish (number : Nat) :
    live (uses ++ [.finish number]) = (live uses).filter (·.number ≠ number) := by
  rw [live_concat]
  simp [ends, registration?, eq_comm]

theorem live_announce (address : String) : live (uses ++ [.announce address]) = live uses := by
  simp [live_concat, ends, registration?]

theorem live_setConnected (connected : Bool) :
    live (uses ++ [.setConnected connected]) = live uses := by
  simp [live_concat, ends, registration?]

theorem isUp_concat : isUp (uses ++ [use]) = use.connection?.getD (isUp uses) := by
  cases use <;> simp [isUp, connection?]

theorem number_of_mem_liveFrom {n : Nat} {r : Registration} (h : r ∈ liveFrom n uses) :
    n ≤ r.number := by
  induction uses generalizing n with
  | nil => exact absurd h List.not_mem_nil
  | cons first rest ih =>
    cases first with
    | listen interest name =>
      rw [liveFrom] at h
      split at h
      · exact Nat.le_of_succ_le (ih h)
      · rcases List.mem_cons.1 h with rfl | h
        · exact Nat.le_refl _
        · exact Nat.le_of_succ_le (ih h)
    | _ => exact ih h

theorem pairwise_liveFrom (n : Nat) :
    (liveFrom n uses).Pairwise fun r s => r.number < s.number := by
  induction uses generalizing n with
  | nil => exact .nil
  | cons first rest ih =>
    cases first with
    | listen interest name =>
      rw [liveFrom]
      split
      · exact ih _
      · exact .cons (fun r hr => number_of_mem_liveFrom rest hr) (ih _)
    | _ => exact ih n

end HubUse

/-- A hub, and the handles that its users have, in the order in which they got them. -/
structure Switchboard where
  client : Client := {}
  handles : List Handle := []

namespace Switchboard

open HubUse

def keep (x : Switchboard) (handle : Nat → Handle) (registered : Nat × Hub Listener) :
    Switchboard where
  client := x.client.mapHub fun _ => registered.2
  handles := x.handles ++ [handle registered.1]

def use (x : Switchboard) : HubUse → Switchboard
  | .listen (.change address) name =>
    x.keep .subscription (x.client.hub.register address (.observer name []))
  | .listen .loss name => x.keep .loss (x.client.hub.onLoss (.observer name []))
  | .finish number =>
    -- A handle ends its registration once.
    { client := x.client.endHandle (x.handles[number]?.getD .ended)
      handles := x.handles.set number .ended }
  | .announce address => { x with client := x.client.announce address }
  | .setConnected connected => { x with client := x.client.setConnected connected }

def useAll (x : Switchboard) (uses : List HubUse) : Switchboard := uses.foldl use x

variable {x : Switchboard} {uses : List HubUse}

theorem useAll_concat (x : Switchboard) (uses : List HubUse) (u : HubUse) :
    x.useAll (uses ++ [u]) = (x.useAll uses).use u := by
  rw [useAll, useAll, List.foldl_concat]

/-- The hub holds the live registrations, under their numbers; a handle that has not ended yet ends
a live one. -/
structure Holds (uses : List HubUse) (x : Switchboard) : Prop where
  connected : x.client.hub.connected = isUp uses
  subscriptions : x.client.hub.subscriptions = (live uses).filterMap Registration.subscription?
  losses : x.client.hub.lossListeners = (live uses).filterMap Registration.lossListener?
  next : x.client.hub.nextId = made uses
  length : x.handles.length = made uses
  handled : ∀ r ∈ live uses, x.handles[r.number]? = some r.handle
  idle : ∀ number handle, x.handles[number]? = some handle →
    handle = .ended ∨ ∃ r ∈ live uses, r.number = number
  free : x.client.reservation = none

theorem filter_filterMap_of_number {β : Type} {f : Registration → Option β} {id : β → Nat}
    (hid : ∀ r b, f r = some b → id b = r.number) (live : List Registration) (number : Nat) :
    (live.filterMap f).filter (id · ≠ number) = (live.filter (·.number ≠ number)).filterMap f := by
  rw [List.filter_filterMap, List.filterMap_filter]
  congr 1
  funext r
  cases hr : f r with
  | none => simp
  | some b => simp [hid r b hr, Option.filter_some]

theorem map_filterMap_of_listener {β : Type} {f : Registration → Option β} {g : β → Listener}
    {p : Registration → Bool} (h : ∀ r, (f r).map g = if p r then some r.listener else none)
    (live : List Registration) :
    (live.filterMap f).map g = (live.filter p).map Registration.listener := by
  rw [List.map_filterMap, ← List.filterMap_eq_map, List.filterMap_filter]
  congr 1
  funext r
  exact h r

theorem isQuiet_of_mem_map (rs : List Registration) :
    ∀ l ∈ rs.map Registration.listener, l.IsQuiet := by
  intro l hl
  obtain ⟨r, -, rfl⟩ := List.mem_map.1 hl
  rfl

theorem foldl_onCache_map {call : Registration → Call} (hcall : ∀ r, (call r).onCache = id)
    (rs : List Registration) (cache : LiveCache) :
    (rs.map call).foldl (fun cache call => call.onCache cache) cache = cache := by
  refine LiveCache.foldl_onCache (f := id) (fun _ => rfl) _ (fun called hmem => ?_) _ (.inr rfl)
  obtain ⟨r, -, rfl⟩ := List.mem_map.1 hmem
  exact .inl (hcall r)

namespace Holds

variable (h : x.Holds uses)
include h

theorem listeners (address : String) :
    x.client.hub.listeners address = (hearing uses address).map Registration.listener := by
  rw [Hub.listeners, h.subscriptions, List.filter_filterMap, hearing]
  apply map_filterMap_of_listener
  rintro ⟨number, interest, name⟩
  cases interest with
  | loss => rfl
  | change other =>
    by_cases hkey : Address.key other = Address.key address <;>
      simp [Registration.subscription?, Registration.hears, hkey, Option.filter_some,
        Registration.listener]

theorem announcement (address : String) :
    x.client.announcement address =
      (hearing uses address).map fun r => .notify r.listener (Address.key address) := by
  rw [Client.announcement, h.listeners, List.map_map]
  rfl

theorem lossListeners :
    x.client.hub.lossListeners.map (·.2) =
      ((live uses).filter (·.interest = .loss)).map Registration.listener := by
  rw [h.losses]
  apply map_filterMap_of_listener
  rintro ⟨number, interest, name⟩
  cases interest <;> rfl

theorem fst_setConnected (connected : Bool) :
    (x.client.hub.setConnected connected).1 =
      (losing uses connected).map Registration.listener := by
  rw [Hub.fst_setConnected, h.lossListeners, h.connected, losing]
  cases connected <;> cases isUp uses <;> rfl

theorem announce (address : String) :
    x.client.announce address =
      { x.client with journal := x.client.journal ++ lines uses (.announce address) } := by
  have hquiet : ∀ l ∈ x.client.hub.listeners address, l.IsQuiet := by
    rw [h.listeners]
    exact isQuiet_of_mem_map _
  have hcache : (x.client.announcement address).foldl (fun cache call => call.onCache cache)
      x.client.cache = x.client.cache := by
    rw [h.announcement]
    exact foldl_onCache_map (fun _ => rfl) _ _
  have hlines : (x.client.announcement address).flatMap Call.lines =
      lines uses (.announce address) := by
    rw [h.announcement, List.flatMap_map, lines, ← List.flatMap_pure_eq_map]
    rfl
  rw [Client.announce_of_isQuiet hquiet h.free, hcache, hlines]

theorem setConnected (connected : Bool) :
    x.client.setConnected connected =
      { x.client with
        cache := { x.client.cache with hub := (x.client.hub.setConnected connected).2 }
        journal := x.client.journal ++ lines uses (.setConnected connected) } := by
  have hquiet : ∀ l ∈ (x.client.hub.setConnected connected).1, l.IsQuiet := by
    rw [h.fst_setConnected]
    exact isQuiet_of_mem_map _
  have hcache (cache : LiveCache) : ((x.client.hub.setConnected connected).1.map Call.lost).foldl
      (fun cache call => call.onCache cache) cache = cache := by
    rw [h.fst_setConnected, List.map_map]
    exact foldl_onCache_map (fun _ => rfl) _ _
  have hlines : ((x.client.hub.setConnected connected).1.map Call.lost).flatMap Call.lines =
      lines uses (.setConnected connected) := by
    rw [h.fst_setConnected, List.map_map, List.flatMap_map, lines, ← List.flatMap_pure_eq_map]
    rfl
  rw [Client.setConnected_of_isQuiet hquiet h.free, hcache, hlines]

theorem handle_of_mem_subscriptions {s : Subscription Listener}
    (hs : s ∈ x.client.hub.subscriptions) : x.handles[s.id]? = some (.subscription s.id) := by
  rw [h.subscriptions] at hs
  obtain ⟨⟨number, interest, name⟩, hr, hsome⟩ := List.mem_filterMap.1 hs
  cases interest with
  | change address =>
    obtain rfl := Option.some.inj hsome
    exact h.handled _ hr
  | loss => cases hsome

theorem handle_of_mem_losses {p : Nat × Listener} (hp : p ∈ x.client.hub.lossListeners) :
    x.handles[p.1]? = some (.loss p.1) := by
  rw [h.losses] at hp
  obtain ⟨⟨number, interest, name⟩, hr, hsome⟩ := List.mem_filterMap.1 hp
  cases interest with
  | change address => cases hsome
  | loss =>
    obtain rfl := Option.some.inj hsome
    exact h.handled _ hr

theorem eq_of_handle {number : Nat} {handle : Handle} (hhandle : x.handles[number]? = some handle) :
    handle = .ended ∨ handle = .subscription number ∨ handle = .loss number := by
  rcases h.idle number handle hhandle with rfl | ⟨⟨number, interest, name⟩, hr, rfl⟩
  · exact .inl rfl
  · obtain rfl := Option.some.inj (hhandle.symm.trans (h.handled _ hr))
    cases interest with
    | change address => exact .inr (.inl rfl)
    | loss => exact .inr (.inr rfl)

theorem subscriptions_endHandle (number : Nat) :
    (x.client.endHandle (x.handles[number]?.getD .ended)).hub.subscriptions =
      x.client.hub.subscriptions.filter (·.id ≠ number) := by
  have hother (hne : x.handles[number]? ≠ some (.subscription number)) :
      x.client.hub.subscriptions.filter (·.id ≠ number) = x.client.hub.subscriptions := by
    refine List.filter_eq_self.2 fun s hs => decide_eq_true ?_
    rintro rfl
    exact hne (h.handle_of_mem_subscriptions hs)
  cases hhandle : x.handles[number]? with
  | none => exact (hother (by simp [hhandle])).symm
  | some handle =>
    rcases h.eq_of_handle hhandle with rfl | rfl | rfl
    · exact (hother (by simp [hhandle])).symm
    · exact Hub.subscriptions_unregister number _
    · exact (hother (by simp [hhandle])).symm

theorem losses_endHandle (number : Nat) :
    (x.client.endHandle (x.handles[number]?.getD .ended)).hub.lossListeners =
      x.client.hub.lossListeners.filter (·.1 ≠ number) := by
  have hother (hne : x.handles[number]? ≠ some (.loss number)) :
      x.client.hub.lossListeners.filter (·.1 ≠ number) = x.client.hub.lossListeners := by
    refine List.filter_eq_self.2 fun p hp => decide_eq_true ?_
    rintro rfl
    exact hne (h.handle_of_mem_losses hp)
  cases hhandle : x.handles[number]? with
  | none => exact (hother (by simp [hhandle])).symm
  | some handle =>
    rcases h.eq_of_handle hhandle with rfl | rfl | rfl
    · exact (hother (by simp [hhandle])).symm
    · exact (Hub.lossListeners_unregister _ _).trans (hother (by simp [hhandle])).symm
    · rfl

end Holds

theorem endHandle_rest (handle : Handle) (c : Client) :
    (c.endHandle handle).hub.connected = c.hub.connected ∧
      (c.endHandle handle).hub.nextId = c.hub.nextId ∧
      (c.endHandle handle).reservation = c.reservation ∧
      (c.endHandle handle).journal = c.journal := by
  cases handle with
  | subscription id => exact ⟨Hub.connected_unregister _ id, Hub.nextId_unregister _ id, rfl, rfl⟩
  | loss id => exact ⟨rfl, rfl, rfl, rfl⟩
  | ended => exact ⟨rfl, rfl, rfl, rfl⟩

namespace Holds

theorem start : Holds [] {} where
  connected := rfl
  subscriptions := rfl
  losses := rfl
  next := rfl
  length := rfl
  handled := fun _ hr => absurd hr List.not_mem_nil
  idle := fun number handle hhandle => by simp at hhandle
  free := rfl

variable (h : x.Holds uses)
include h

theorem number_lt {r : Registration} (hr : r ∈ live uses) : r.number < made uses := by
  rw [← h.length]
  exact (List.getElem?_eq_some_iff.1 (h.handled r hr)).1

theorem keep {interest : Interest} {name : String} {handle : Nat → Handle}
    {registered : Nat × Hub Listener} {r : Registration} (hr : r = ⟨made uses, interest, name⟩)
    (hhandle : handle registered.1 = r.handle)
    (hconnected : registered.2.connected = x.client.hub.connected)
    (hsubscriptions : registered.2.subscriptions =
      x.client.hub.subscriptions ++ [r].filterMap Registration.subscription?)
    (hlosses : registered.2.lossListeners =
      x.client.hub.lossListeners ++ [r].filterMap Registration.lossListener?)
    (hnext : registered.2.nextId = x.client.hub.nextId + 1) :
    (x.keep handle registered).Holds (uses ++ [.listen interest name]) := by
  have hmade : made (uses ++ [.listen interest name]) = made uses + 1 := made_concat uses _
  have hlive : live (uses ++ [.listen interest name]) = live uses ++ [r] :=
    hr ▸ live_listen uses interest name
  have hnumber : r.number = x.handles.length := hr ▸ h.length.symm
  constructor
  · exact hconnected.trans (h.connected.trans (isUp_concat uses (.listen interest name)).symm)
  · rw [hlive, List.filterMap_append, ← h.subscriptions]
    exact hsubscriptions
  · rw [hlive, List.filterMap_append, ← h.losses]
    exact hlosses
  · rw [hmade, ← h.next]
    exact hnext
  · rw [hmade, ← h.length]
    exact List.length_append
  · rw [hlive]
    intro s hs
    dsimp only [Switchboard.keep]
    rcases List.mem_append.1 hs with hs | hs
    · rw [List.getElem?_append_left (h.length ▸ h.number_lt hs)]
      exact h.handled s hs
    · rw [List.mem_singleton.1 hs, hnumber, List.getElem?_concat_length, hhandle]
  · rw [hlive]
    intro number kept hkept
    dsimp only [Switchboard.keep] at hkept
    rcases Nat.lt_or_ge number x.handles.length with hlt | hge
    · rw [List.getElem?_append_left hlt] at hkept
      refine (h.idle number kept hkept).imp_right ?_
      rintro ⟨s, hs, rfl⟩
      exact ⟨s, List.mem_append_left _ hs, rfl⟩
    · have hlt := (List.getElem?_eq_some_iff.1 hkept).1
      rw [List.length_append, List.length_singleton] at hlt
      refine .inr ⟨r, List.mem_append_right _ List.mem_cons_self, ?_⟩
      omega
  · exact h.free

theorem listen (interest : Interest) (name : String) :
    (x.use (.listen interest name)).Holds (uses ++ [.listen interest name]) := by
  cases interest with
  | change address =>
    refine h.keep rfl ?_ ?_ ?_ ?_ ?_
    · exact congrArg Handle.subscription h.next
    · exact Hub.connected_register ..
    · rw [Hub.subscriptions_register, h.next]
      rfl
    · exact (Hub.lossListeners_register ..).trans (List.append_nil _).symm
    · exact Hub.nextId_register ..
  | loss =>
    refine h.keep rfl ?_ rfl ?_ ?_ rfl
    · exact congrArg Handle.loss h.next
    · exact (List.append_nil _).symm
    · rw [Hub.onLoss, h.next]
      rfl

theorem finish (number : Nat) :
    (x.use (.finish number)).Holds (uses ++ [.finish number]) := by
  obtain ⟨hconnected, hnext, hfree, -⟩ :=
    endHandle_rest (x.handles[number]?.getD .ended) x.client
  have hmade : made (uses ++ [.finish number]) = made uses := made_concat uses _
  constructor
  · exact hconnected.trans (h.connected.trans (isUp_concat uses (.finish number)).symm)
  · rw [live_finish, ← filter_filterMap_of_number, ← h.subscriptions]
    · exact h.subscriptions_endHandle number
    · rintro ⟨number, interest, name⟩ s hs
      cases interest <;> cases hs
      rfl
  · rw [live_finish, ← filter_filterMap_of_number, ← h.losses]
    · exact h.losses_endHandle number
    · rintro ⟨number, interest, name⟩ p hp
      cases interest <;> cases hp
      rfl
  · rw [hmade, ← h.next]
    exact hnext
  · rw [hmade, ← h.length]
    exact List.length_set
  · rw [live_finish]
    intro r hr
    obtain ⟨hr, hne⟩ := List.mem_filter.1 hr
    dsimp only [use]
    rw [List.getElem?_set_ne (Ne.symm (of_decide_eq_true hne))]
    exact h.handled r hr
  · rw [live_finish]
    intro other kept hkept
    dsimp only [use] at hkept
    by_cases hother : number = other
    · subst hother
      rw [List.getElem?_set_self'] at hkept
      obtain ⟨-, -, rfl⟩ := Option.map_eq_some_iff.1 hkept
      exact .inl rfl
    · rw [List.getElem?_set_ne hother] at hkept
      refine (h.idle other kept hkept).imp_right ?_
      rintro ⟨r, hr, rfl⟩
      exact ⟨r, List.mem_filter.2 ⟨hr, decide_eq_true (Ne.symm hother)⟩, rfl⟩
  · exact hfree.trans h.free

theorem stay {u : HubUse} {c : Client} (hlive : live (uses ++ [u]) = live uses)
    (hmade : made (uses ++ [u]) = made uses) (hconnected : c.hub.connected = isUp (uses ++ [u]))
    (hsubscriptions : c.hub.subscriptions = x.client.hub.subscriptions)
    (hlosses : c.hub.lossListeners = x.client.hub.lossListeners)
    (hnext : c.hub.nextId = x.client.hub.nextId) (hfree : c.reservation = none) :
    Holds (uses ++ [u]) { x with client := c } where
  connected := hconnected
  subscriptions := hlive ▸ hsubscriptions.trans h.subscriptions
  losses := hlive ▸ hlosses.trans h.losses
  next := hmade ▸ hnext.trans h.next
  length := hmade ▸ h.length
  handled := hlive ▸ h.handled
  idle := hlive ▸ h.idle
  free := hfree

theorem use (u : HubUse) : (x.use u).Holds (uses ++ [u]) := by
  cases u with
  | listen interest name => exact h.listen interest name
  | finish number => exact h.finish number
  | announce address =>
    have hconnected := isUp_concat uses (.announce address)
    rw [Switchboard.use, h.announce]
    exact h.stay (live_announce uses address) (made_concat uses _)
      (h.connected.trans hconnected.symm) rfl rfl rfl h.free
  | setConnected connected =>
    have hconnected := isUp_concat uses (.setConnected connected)
    rw [Switchboard.use, h.setConnected]
    exact h.stay (live_setConnected uses connected) (made_concat uses _)
      ((Hub.connected_setConnected ..).trans hconnected.symm) (Hub.subscriptions_setConnected ..)
      (Hub.lossListeners_setConnected ..) (Hub.nextId_setConnected ..) h.free

theorem journal_use (u : HubUse) :
    (x.use u).client.journal = x.client.journal ++ lines uses u := by
  cases u with
  | listen interest name => cases interest <;> exact (List.append_nil _).symm
  | finish number => exact (endHandle_rest _ _).2.2.2.trans (List.append_nil _).symm
  | announce address => rw [Switchboard.use, h.announce]
  | setConnected connected => rw [Switchboard.use, h.setConnected]

end Holds

/-- What the hub does for its users is told by the live registrations alone. -/
structure Serves (uses : List HubUse) (x : Switchboard) : Prop where
  connected : x.client.hub.connected = isUp uses
  counted : ∀ address, x.client.hub.subscriberCount address = (hearing uses address).length
  announced : ∀ address, x.client.announcement address =
    (hearing uses address).map fun r => .notify r.listener (Address.key address)
  lost : ∀ connected, (x.client.hub.setConnected connected).1 =
    (losing uses connected).map Registration.listener
  written : ∀ u, (x.use u).client.journal = x.client.journal ++ lines uses u
  ended : ∀ number,
    (∀ address, (x.use (.finish number)).client.hub.listeners address =
      ((hearing uses address).filter (·.number ≠ number)).map Registration.listener) ∧
    (x.use (.finish number)).client.hub.lossListeners.map (·.2) =
      (((live uses).filter (·.interest = .loss)).filter (·.number ≠ number)).map
        Registration.listener
  ordered : (live uses).Pairwise fun r s => r.number < s.number

theorem Holds.serves (h : x.Holds uses) : x.Serves uses where
  connected := h.connected
  counted address := by rw [Hub.subscriberCount, h.listeners, List.length_map]
  announced := h.announcement
  lost := h.fst_setConnected
  written := h.journal_use
  ended number := by
    have hlive := live_finish uses number
    constructor
    · intro address
      rw [(h.use (.finish number)).listeners, hearing, hlive, List.filter_comm, hearing]
    · rw [(h.use (.finish number)).lossListeners, hlive, List.filter_comm]
  ordered := pairwise_liveFrom uses 0

theorem holds_useAll (uses : List HubUse) : (useAll {} uses).Holds uses := by
  induction uses using List.reverseRecOn with
  | nil => exact .start
  | append_singleton uses u ih =>
    rw [useAll_concat]
    exact ih.use u

theorem serves_useAll (uses : List HubUse) : (useAll {} uses).Serves uses :=
  (holds_useAll uses).serves

/-- Two registrations alike; the first one ends twice. -/
example :
    let x := useAll {} [.listen (.change "/a") "n", .listen (.change "/a/") "n", .finish 0,
      .finish 0, .announce "/a//"]
    x.client.journal = ["n /a/"] ∧ x.client.hub.subscriberCount "/a" = 1 := by
  decide +kernel

end Switchboard

end ResourceClient

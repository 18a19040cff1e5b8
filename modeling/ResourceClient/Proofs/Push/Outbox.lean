import Mathlib.Data.Finset.Erase
import Mathlib.Data.Finset.Insert
import Mathlib.Data.List.Chain
import Mathlib.Data.List.Induction
import Mathlib.Data.List.Nodup
import ResourceClient.Proofs.Push.Registrations

/-!
What the server is told. Within one connection the requests for a key take turns, beginning with a
subscription, and the last of them says whether the key has a live registration. A server that does
as it is told therefore subscribes exactly the live keys.
-/
namespace ResourceClient

namespace PushRequest

def apply (subscribed : Finset String) (r : PushRequest) : Finset String :=
  match r.action with
  | .subscribe => insert r.resource subscribed
  | .unsubscribe => subscribed.erase r.resource

/-- The subscriptions of a server that begins with none. -/
def replay (sent : List PushRequest) : Finset String := sent.foldl apply ∅

def actionsOn (key : String) (sent : List PushRequest) : List PushAction :=
  (sent.filter (·.resource = key)).map (·.action)

/-- The first subscribes, and no two of a kind follow each other. -/
structure TakeTurns (actions : List PushAction) : Prop where
  first : ∀ a ∈ actions.head?, a = .subscribe
  turns : actions.IsChain (· ≠ ·)

variable (key other : String) (action : PushAction) (sent : List PushRequest)

theorem actionsOn_concat :
    actionsOn key (sent ++ [⟨action, other⟩]) =
      actionsOn key sent ++ if other = key then [action] else [] := by
  by_cases h : other = key <;> simp [actionsOn, h]

theorem mem_replay_iff :
    key ∈ replay sent ↔ (actionsOn key sent).getLast? = some .subscribe := by
  induction sent using List.reverseRecOn with
  | nil => simp [replay, actionsOn]
  | append_singleton sent last ih =>
    obtain ⟨action, other⟩ := last
    rw [replay, List.foldl_append, ← replay, List.foldl_cons, List.foldl_nil, actionsOn_concat]
    by_cases h : other = key
    · cases action <;> simp [apply, h]
    · cases action <;> simp [apply, h, Ne.symm h, ih]

theorem TakeTurns.concat {actions : List PushAction} (h : TakeTurns actions) {action : PushAction}
    (hnext : actions.getLast? = some .subscribe ↔ action = .unsubscribe) :
    TakeTurns (actions ++ [action]) where
  first := by
    intro a ha
    cases actions with
    | nil =>
      obtain rfl : action = a := by simpa using ha
      cases action with
      | subscribe => rfl
      | unsubscribe => exact absurd (hnext.2 rfl) (by simp)
    | cons b rest => exact h.first a (by simpa using ha)
  turns := by
    refine List.isChain_append.2 ⟨h.turns, List.isChain_singleton action, ?_⟩
    intro last hlast next hnextEq
    obtain rfl : action = next := by simpa using hnextEq
    rw [Option.mem_def.1 hlast, Option.some.injEq] at hnext
    rintro rfl
    cases last <;> simp at hnext

end PushRequest

open PushRequest

inductive HubCall (α : Type u) where
  | register (address : String) (listener : α)
  | unregister (id : Nat)
  | onLoss (listener : α)
  | endOnLoss (id : Nat)
  | announce (address : String)
  | setConnected (connected : Bool)

namespace Hub

variable {α : Type u}

/-- What a call does to the hub by itself. Whoever it calls makes calls of their own. -/
def take (hub : Hub α) : HubCall α → Hub α
  | .register address listener => (hub.register address listener).2
  | .unregister id => hub.unregister id
  | .onLoss listener => (hub.onLoss listener).2
  | .endOnLoss id => hub.endOnLoss id
  | .announce _ => hub
  | .setConnected connected => (hub.setConnected connected).2

def takeAll (hub : Hub α) (calls : List (HubCall α)) : Hub α := calls.foldl take hub

structure Orderly (hub : Hub α) : Prop where
  ids : (hub.subscriptions.map (·.id)).Nodup
  younger : ∀ s ∈ hub.subscriptions, s.id < hub.nextId
  normal : ∀ s ∈ hub.subscriptions, Address.key s.key = s.key

/-- The requests of this connection agree with the registrations. -/
structure Told (hub : Hub α) (sent : List PushRequest) : Prop where
  turns : ∀ key, TakeTurns (actionsOn key sent)
  last : ∀ key, (actionsOn key sent).getLast? = some .subscribe ↔ hub.isSubscribed key = true

variable {hub later : Hub α} {sent : List PushRequest}

theorem orderly_empty : ({} : Hub α).Orderly where
  ids := List.nodup_nil
  younger := fun _ h => absurd h List.not_mem_nil
  normal := fun _ h => absurd h List.not_mem_nil

theorem Orderly.congr (h : hub.Orderly) (hsubs : later.subscriptions = hub.subscriptions)
    (hnext : hub.nextId ≤ later.nextId) : later.Orderly where
  ids := hsubs ▸ h.ids
  younger := fun s hs => Nat.lt_of_lt_of_le (h.younger s (hsubs ▸ hs)) hnext
  normal := hsubs ▸ h.normal

theorem Orderly.register (h : hub.Orderly) (address : String) (listener : α) :
    (hub.register address listener).2.Orderly where
  ids := by
    rw [subscriptions_register, List.map_append, List.map_singleton]
    refine List.nodup_append.2 ⟨h.ids, List.nodup_singleton _, ?_⟩
    intro id hid next hnext heq
    obtain ⟨s, hs, rfl⟩ := List.mem_map.1 hid
    obtain rfl := List.mem_singleton.1 hnext
    exact absurd heq (Nat.ne_of_lt (h.younger s hs))
  younger := by
    intro s hs
    rw [subscriptions_register, List.mem_append, List.mem_singleton] at hs
    rw [nextId_register]
    rcases hs with hs | rfl
    · exact Nat.lt_succ_of_lt (h.younger s hs)
    · exact Nat.lt_succ_self _
  normal := by
    intro s hs
    rw [subscriptions_register, List.mem_append, List.mem_singleton] at hs
    rcases hs with hs | rfl
    · exact h.normal s hs
    · exact Address.key_key address

theorem Orderly.unregister (h : hub.Orderly) (id : Nat) : (hub.unregister id).Orderly where
  ids := by
    rw [subscriptions_unregister]
    exact h.ids.sublist (List.filter_sublist.map _)
  younger := by
    intro s hs
    rw [subscriptions_unregister] at hs
    rw [nextId_unregister]
    exact h.younger s (List.mem_of_mem_filter hs)
  normal := by
    intro s hs
    rw [subscriptions_unregister] at hs
    exact h.normal s (List.mem_of_mem_filter hs)

theorem Orderly.take (h : hub.Orderly) (call : HubCall α) : (hub.take call).Orderly := by
  cases call with
  | register address listener => exact h.register address listener
  | unregister id => exact h.unregister id
  | onLoss listener => exact h.congr rfl (Nat.le_succ _)
  | endOnLoss id => exact h.congr rfl (Nat.le_refl _)
  | announce address => exact h
  | setConnected connected =>
    exact h.congr (subscriptions_setConnected hub connected)
      (Nat.le_of_eq (nextId_setConnected hub connected).symm)

theorem Orderly.takeAll (h : hub.Orderly) (calls : List (HubCall α)) :
    (hub.takeAll calls).Orderly := by
  induction calls generalizing hub with
  | nil => exact h
  | cons call rest ih => exact ih (h.take call)

theorem outbox_send (action : PushAction) (key : String) :
    (hub.send action key).outbox =
      hub.outbox ++ if hub.connected = true then [⟨action, key⟩] else [] := by
  unfold send
  split <;> simp

theorem isSubscribed_congr (h : later.subscriptions = hub.subscriptions) (key : String) :
    later.isSubscribed key = hub.isSubscribed key := by
  unfold isSubscribed
  rw [h]

theorem isSubscribed_register (address : String) (listener : α) (key : String) :
    (hub.register address listener).2.isSubscribed key =
      (hub.isSubscribed key || Address.key address = key) := by
  simp [isSubscribed]

theorem Orderly.isSubscribed_unregister (h : hub.Orderly) {ended : Subscription α}
    (hended : ended ∈ hub.subscriptions) {key : String} (hkey : key ≠ ended.key) :
    (hub.unregister ended.id).isSubscribed key = hub.isSubscribed key := by
  rw [Bool.eq_iff_iff, isSubscribed_iff, isSubscribed_iff, subscriptions_unregister]
  constructor
  · rintro ⟨s, hs, hskey⟩
    exact ⟨s, List.mem_of_mem_filter hs, hskey⟩
  · rintro ⟨s, hs, rfl⟩
    refine ⟨s, List.mem_filter.2 ⟨hs, decide_eq_true fun hid => hkey ?_⟩, rfl⟩
    rw [List.inj_on_of_nodup_map h.ids hs hended hid]

theorem Told.congr (h : hub.Told sent)
    (hsame : ∀ key, later.isSubscribed key = hub.isSubscribed key) : later.Told sent where
  turns := h.turns
  last := fun key => by rw [hsame, h.last]

/-- A request is sent when the registrations of its key come or go, and for nothing else. -/
theorem Told.concat (h : hub.Told sent) {action : PushAction} {key : String}
    (hbefore : hub.isSubscribed key = true ↔ action = .unsubscribe)
    (hafter : later.isSubscribed key = true ↔ action = .subscribe)
    (hrest : ∀ other, other ≠ key → later.isSubscribed other = hub.isSubscribed other) :
    later.Told (sent ++ [⟨action, key⟩]) where
  turns := by
    intro other
    rw [actionsOn_concat]
    split
    · next hkey =>
      subst hkey
      exact (h.turns key).concat ((h.last key).trans hbefore)
    · rw [List.append_nil]
      exact h.turns other
  last := by
    intro other
    rw [actionsOn_concat]
    split
    · next hkey =>
      subst hkey
      rw [hafter, List.getLast?_concat, Option.some.injEq]
    · next hkey => rw [List.append_nil, h.last, hrest other (Ne.symm hkey)]

theorem Told.register (h : hub.Told sent) (hconnected : hub.connected = true) (address : String)
    (listener : α) :
    ∃ new, (hub.register address listener).2.outbox = hub.outbox ++ new ∧
      (hub.register address listener).2.Told (sent ++ new) := by
  by_cases hsub : hub.isSubscribed (Address.key address) = true
  · refine ⟨[], ?_, ?_⟩
    · simp [Hub.register, hsub]
    · rw [List.append_nil]
      refine h.congr fun key => ?_
      rw [isSubscribed_register]
      by_cases hkey : Address.key address = key
      · rw [← hkey, hsub, Bool.true_or]
      · rw [decide_eq_false hkey, Bool.or_false]
  · refine ⟨[⟨.subscribe, Address.key address⟩], ?_, h.concat ?_ ?_ ?_⟩
    · simp [Hub.register, hsub, outbox_send, hconnected]
    · simp [hsub]
    · simp [isSubscribed_register]
    · intro other hother
      rw [isSubscribed_register, decide_eq_false (Ne.symm hother), Bool.or_false]

theorem Told.unregister (h : hub.Told sent) (ho : hub.Orderly) (hconnected : hub.connected = true)
    (id : Nat) :
    ∃ new, (hub.unregister id).outbox = hub.outbox ++ new ∧
      (hub.unregister id).Told (sent ++ new) := by
  cases hfind : hub.subscriptions.find? (·.id = id) with
  | none =>
    refine ⟨[], ?_, ?_⟩
    · simp [Hub.unregister, hfind]
    · simpa [Hub.unregister, hfind] using h
  | some ended =>
    have hended : ended ∈ hub.subscriptions := List.mem_of_find?_eq_some hfind
    obtain rfl : ended.id = id := by simpa using List.find?_some hfind
    have hlive : hub.isSubscribed ended.key = true :=
      (isSubscribed_iff hub ended.key).2 ⟨ended, hended, rfl⟩
    have hothers : ∀ key, key ≠ ended.key →
        (hub.unregister ended.id).isSubscribed key = hub.isSubscribed key :=
      fun _ => ho.isSubscribed_unregister hended
    have hrest :
        ({ hub with subscriptions := hub.subscriptions.filter (·.id ≠ ended.id) } :
          Hub α).isSubscribed ended.key =
        (hub.unregister ended.id).isSubscribed ended.key :=
      isSubscribed_congr (subscriptions_unregister ended.id hub).symm ended.key
    by_cases hsub : (hub.unregister ended.id).isSubscribed ended.key = true
    · refine ⟨[], ?_, ?_⟩
      · simp only [Hub.unregister, hfind]
        rw [if_pos (hrest.trans hsub), List.append_nil]
      · rw [List.append_nil]
        refine h.congr fun key => ?_
        by_cases hkey : key = ended.key
        · rw [hkey, hsub, hlive]
        · exact hothers key hkey
    · refine ⟨[⟨.unsubscribe, ended.key⟩], ?_, h.concat ?_ ?_ hothers⟩
      · simp only [Hub.unregister, hfind]
        rw [if_neg (hrest ▸ hsub), outbox_send, if_pos hconnected]
      · simp [hlive]
      · simp [hsub]

private theorem nodup_eraseDups (l : List String) : l.eraseDups.Nodup := by
  cases l with
  | nil => exact List.nodup_nil
  | cons a rest =>
    rw [List.eraseDups_cons, List.nodup_cons]
    refine ⟨?_, nodup_eraseDups _⟩
    simp
termination_by l.length
decreasing_by
  exact Nat.lt_succ_of_le (List.length_filter_le (fun b => !b == a) rest)

theorem nodup_keys (hub : Hub α) : hub.keys.Nodup := nodup_eraseDups _

theorem mem_keys (key : String) : key ∈ hub.keys ↔ hub.isSubscribed key = true := by
  rw [keys, List.mem_eraseDups, isSubscribed_iff, List.mem_map]

theorem actionsOn_subscribe {keys : List String} (h : keys.Nodup) (key : String) :
    actionsOn key (keys.map fun key => ⟨.subscribe, key⟩) =
      if key ∈ keys then [.subscribe] else [] := by
  induction keys using List.reverseRecOn with
  | nil => rfl
  | append_singleton keys last ih =>
    obtain ⟨hkeys, -, hlast⟩ := List.nodup_append.1 h
    rw [List.map_append, List.map_singleton, actionsOn_concat, ih hkeys]
    by_cases hkey : last = key
    · subst hkey
      have hnew : last ∉ keys := fun hmem => hlast last hmem last (List.mem_singleton_self _) rfl
      simp [hnew]
    · simp [hkey, Ne.symm hkey]

theorem outbox_foldl_subscribe (hconnected : hub.connected = true) (keys : List String) :
    (keys.foldl (fun h key => h.send .subscribe key) hub).outbox =
      hub.outbox ++ keys.map fun key => ⟨.subscribe, key⟩ := by
  induction keys generalizing hub with
  | nil => simp
  | cons key rest ih =>
    rw [List.foldl_cons, ih (by rw [connected_send, hconnected]), outbox_send, if_pos hconnected]
    simp

theorem told_connect (hlost : hub.connected = false) :
    ∃ new, (hub.setConnected true).2.outbox = hub.outbox ++ new ∧
      (hub.setConnected true).2.Told new := by
  refine ⟨hub.keys.map fun key => ⟨.subscribe, key⟩, ?_, ?_, ?_⟩
  · simp only [setConnected, hlost]
    exact outbox_foldl_subscribe rfl hub.keys
  · intro key
    rw [actionsOn_subscribe hub.nodup_keys]
    split
    · exact ⟨by simp, List.isChain_singleton _⟩
    · exact ⟨by simp, List.isChain_nil⟩
  · intro key
    rw [actionsOn_subscribe hub.nodup_keys, isSubscribed_congr (subscriptions_setConnected _ _),
      ← mem_keys]
    split <;> simp [*]

theorem Told.take (h : hub.Told sent) (ho : hub.Orderly) (hconnected : hub.connected = true)
    {call : HubCall α} (hkept : (hub.take call).connected = true) :
    ∃ new, (hub.take call).outbox = hub.outbox ++ new ∧ (hub.take call).Told (sent ++ new) := by
  have hsilent : ∀ {later : Hub α}, later.outbox = hub.outbox →
      later.subscriptions = hub.subscriptions →
      ∃ new, later.outbox = hub.outbox ++ new ∧ later.Told (sent ++ new) := by
    intro later houtbox hsubs
    refine ⟨[], by rw [houtbox, List.append_nil], ?_⟩
    rw [List.append_nil]
    exact h.congr (isSubscribed_congr hsubs)
  cases call with
  | register address listener => exact h.register hconnected address listener
  | unregister id => exact h.unregister ho hconnected id
  | onLoss listener => exact hsilent rfl rfl
  | endOnLoss id => exact hsilent rfl rfl
  | announce address => exact hsilent rfl rfl
  | setConnected connected =>
    obtain rfl : connected = true := by simpa [Hub.take] using hkept
    refine hsilent ?_ (subscriptions_setConnected hub true)
    simp [Hub.take, setConnected, hconnected]

theorem outbox_take_of_lost {call : HubCall α} (hlost : (hub.take call).connected = false) :
    (hub.take call).outbox = hub.outbox := by
  cases call with
  | register address listener =>
    have hbefore : hub.connected = false := by simpa [take] using hlost
    simp only [take, register]
    split
    · rfl
    · simp [outbox_send, hbefore]
  | unregister id =>
    have hbefore : hub.connected = false := by simpa [take] using hlost
    simp only [take, unregister]
    split
    · rfl
    · split
      · rfl
      · simp [outbox_send, hbefore]
  | onLoss listener => rfl
  | endOnLoss id => rfl
  | announce address => rfl
  | setConnected connected =>
    obtain rfl : connected = false := by simpa [take] using hlost
    simp only [take, setConnected, Bool.false_and, Bool.false_eq_true, if_false]
    split <;> rfl

theorem eq_connect_of_take {call : HubCall α} (hlost : hub.connected = false)
    (hconnected : (hub.take call).connected = true) : call = .setConnected true := by
  cases call with
  | setConnected connected => simpa [take] using hconnected
  | register address listener => simp [take, hlost] at hconnected
  | unregister id => simp [take, hlost] at hconnected
  | onLoss listener => simp [take, onLoss, hlost] at hconnected
  | endOnLoss id => simp [take, endOnLoss, hlost] at hconnected
  | announce address => simp [take, hlost] at hconnected

theorem Orderly.isSubscribed_iff_count (h : hub.Orderly) (key : String) :
    hub.isSubscribed key = true ↔ Address.key key = key ∧ 0 < hub.subscriberCount key := by
  rw [isSubscribed_iff, subscriberCount, listeners, List.length_map, List.length_pos_iff_exists_mem]
  constructor
  · rintro ⟨s, hs, rfl⟩
    have hkey := h.normal s hs
    exact ⟨hkey, s, List.mem_filter.2 ⟨hs, by rw [hkey]; simp⟩⟩
  · rintro ⟨hkey, s, hs⟩
    rw [hkey] at hs
    obtain ⟨hs, hskey⟩ := List.mem_filter.1 hs
    exact ⟨s, hs, of_decide_eq_true hskey⟩

theorem takeAll_append (hub : Hub α) (calls more : List (HubCall α)) :
    hub.takeAll (calls ++ more) = (hub.takeAll calls).takeAll more :=
  List.foldl_append

theorem takeAll_concat (hub : Hub α) (calls : List (HubCall α)) (call : HubCall α) :
    hub.takeAll (calls ++ [call]) = (hub.takeAll calls).take call :=
  takeAll_append hub calls [call]

/-- The connection came with the call after `before`, and is there ever since. -/
structure ConnectedSince (calls before since : List (HubCall α)) : Prop where
  split : calls = before ++ .setConnected true :: since
  lost : (takeAll {} before).connected = false
  kept : ∀ part, part <+: since →
    (takeAll {} (before ++ .setConnected true :: part)).connected = true

theorem ConnectedSince.concat {calls before since : List (HubCall α)}
    (h : ConnectedSince calls before since) {call : HubCall α}
    (hkept : (takeAll {} (calls ++ [call])).connected = true) :
    ConnectedSince (calls ++ [call]) before (since ++ [call]) where
  split := by rw [h.split, List.append_assoc, List.cons_append]
  lost := h.lost
  kept := by
    intro part hpart
    rcases List.prefix_concat_iff.1 hpart with rfl | hpart
    · rwa [h.split, List.append_assoc, List.cons_append] at hkept
    · exact h.kept part hpart

theorem exists_told (calls : List (HubCall α)) (hconnected : (takeAll {} calls).connected = true) :
    ∃ before since sent, ConnectedSince calls before since ∧
      (takeAll {} calls).outbox = (takeAll {} before).outbox ++ sent ∧
      (takeAll {} calls).Told sent := by
  induction calls using List.reverseRecOn with
  | nil => exact absurd hconnected Bool.false_ne_true
  | append_singleton calls call ih =>
    have ho : (takeAll {} calls).Orderly := orderly_empty.takeAll calls
    rw [takeAll_concat] at hconnected ⊢
    cases hbefore : (takeAll {} calls).connected with
    | false =>
      obtain rfl := eq_connect_of_take hbefore hconnected
      obtain ⟨new, houtbox, htold⟩ := told_connect hbefore
      refine ⟨calls, [], new, ⟨rfl, hbefore, ?_⟩, houtbox, htold⟩
      intro part hpart
      rw [List.prefix_nil.1 hpart, takeAll_concat]
      exact hconnected
    | true =>
      obtain ⟨before, since, sent, hsince, houtbox, htold⟩ := ih hbefore
      obtain ⟨new, hnew, htold⟩ := htold.take ho hbefore hconnected
      refine ⟨before, since ++ [call], sent ++ new, hsince.concat ?_, ?_, htold⟩
      · rwa [takeAll_concat]
      · rw [hnew, houtbox, List.append_assoc]

/-- The requests that a sequence of calls sends keep the server in step with the registrations. -/
structure Mirrored (calls : List (HubCall α)) : Prop where
  told : (takeAll {} calls).connected = true →
    ∃ before since sent, ConnectedSince calls before since ∧
      (takeAll {} calls).outbox = (takeAll {} before).outbox ++ sent ∧
      (∀ key, key ∈ replay sent ↔
        Address.key key = key ∧ 0 < (takeAll {} calls).subscriberCount key) ∧
      ∀ key, TakeTurns (actionsOn key sent)
  silent : ∀ earlier call, calls = earlier ++ [call] → (takeAll {} calls).connected = false →
    (takeAll {} calls).outbox = (takeAll {} earlier).outbox

theorem mirrored (calls : List (HubCall α)) : Mirrored calls where
  told := by
    intro hconnected
    obtain ⟨before, since, sent, hsince, houtbox, htold⟩ := exists_told calls hconnected
    refine ⟨before, since, sent, hsince, houtbox, fun key => ?_, htold.turns⟩
    rw [mem_replay_iff, htold.last, (orderly_empty.takeAll calls).isSubscribed_iff_count]
  silent := by
    rintro earlier call rfl hlost
    rw [takeAll_concat] at hlost ⊢
    exact outbox_take_of_lost hlost

end Hub

end ResourceClient

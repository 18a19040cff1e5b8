import Mathlib.Data.List.Basic
import Mathlib.Data.List.Nodup
import Mathlib.Data.List.Perm.Lattice
import ResourceClient.Proofs.Address.Urls
import ResourceClient.Proofs.Cache.Occupancy

/-!
A cache that can be trusted. Its keys are in the one form that the hub knows, each is registered
once or, if it is exempt, not at all; no slot keeps a failure, and nothing is kept while the
channel is down.
-/
namespace ResourceClient.LiveCache

def registrationsOf (c : LiveCache) (key : String) : List (Subscription Listener) :=
  c.hub.subscriptions.filter fun s => s.listener.isEntry && s.key = key

structure Consistent (c : LiveCache) (exempt : List String) : Prop where
  unique : (c.entries.map (·.key)).Nodup
  slashed : ∀ e ∈ c.entries, ∃ stem, e.key.toList = stem ++ ['/'] ∧ stem.getLast? ≠ some '/'
  registered : ∀ key, (c.registrationsOf key).length =
    if (c.entryAt? key).isSome ∧ key ∉ exempt then 1 else 0
  /-- A notification for the registration drops the entry. -/
  owned : ∀ key, ∀ s ∈ c.registrationsOf key, s.listener = .entry key
  healthy : ∀ key subkey ticket fault, c.slot? key subkey = some ticket →
    c.flights[ticket]? ≠ some (.landed (.error fault))
  emptyOffline : c.hub.connected = false → c.entries = []

structure EmptyOffline (c : LiveCache) : Prop where
  nothing : c.hub.connected = false → c.entries = []

variable {c : LiveCache}

theorem isLive_of_disconnected (h : c.hub.connected = false) : c.isLive = false := by
  rw [isLive, h, Bool.and_false]

theorem connected_undergo (c : LiveCache) (e : CacheEvent)
    (h : ∀ connected, e ≠ .setConnected connected) :
    (c.undergo e).hub.connected = c.hub.connected := by
  cases e with
  | memoize address subkey job lines =>
    unfold undergo
    dsimp only
    split
    · exact connected_ensure c _
    · rfl
  | advance ticket job =>
    unfold undergo advance
    dsimp only
    split <;> rfl
  | resolve ticket outcome =>
    unfold undergo resolve
    dsimp only
    split
    · exact connected_land c _ _ _ _
    · rfl
  | put address subkey resource => exact connected_put c _ _ _
  | forget address => exact connected_forgetKey c _
  | forgetTouched report posted => exact connected_forgetTouched c _ _
  | forgetAll => exact connected_forgetAll c
  | announce address => exact connected_notify c _
  | receive text => exact foldl_frame c (·.hub.connected) _ connected_notify _
  | setConnected connected => exact absurd rfl (h connected)

theorem slot?_of_nil (h : c.entries = []) (key subkey : String) : c.slot? key subkey = none := by
  rw [slot?, entryAt?, h]
  rfl

theorem forgetKey_of_nil (h : c.entries = []) (key : String) : c.forgetKey key = c := by
  apply forgetKey_of_none
  rw [entryAt?, h, List.find?_nil]

theorem notify_of_nil (h : c.entries = []) (address : String) : c.notify address = c := by
  unfold notify
  split
  · rfl
  · exact forgetKey_of_nil h _

theorem entries_empty_of_nil (h : c.entries = []) (key subkey : String) :
    (c.empty key subkey).entries = [] := by
  rw [empty, updateEntry, h, List.map_nil]

theorem entries_fill_of_nil (h : c.entries = []) (key subkey : String) (ticket : Ticket) :
    (c.fill key subkey ticket).entries = [] := by
  rw [fill, updateEntry, h, List.map_nil]

theorem entries_land_of_nil (h : c.entries = []) (ticket : Ticket) (key subkey : String)
    (outcome : Except Fault Resource) : (c.land ticket key subkey outcome).entries = [] := by
  unfold land
  cases outcome with
  | ok resource => exact h
  | error fault =>
    dsimp only
    split
    · apply entries_empty_of_nil
      exact h
    · exact h

theorem entries_setConnection_of_nil (h : c.entries = []) (connected : Bool) :
    (c.setConnection connected).entries = [] := by
  unfold setConnection
  dsimp only
  split
  · exact entries_forgetAll _
  · exact h

theorem entries_undergo_of_disconnected (hdown : c.hub.connected = false) (h : c.entries = [])
    (e : CacheEvent) : (c.undergo e).entries = [] := by
  have hlive := isLive_of_disconnected hdown
  cases e with
  | memoize address subkey job lines => simpa [hlive] using h
  | advance ticket job =>
    unfold undergo advance
    dsimp only
    split <;> exact h
  | resolve ticket outcome =>
    unfold undergo resolve
    dsimp only
    split
    · exact entries_land_of_nil h _ _ _ _
    · exact h
  | put address subkey resource => simpa [put, hlive] using h
  | forget address => rwa [undergo, forget, forgetKey_of_nil h]
  | forgetTouched report posted =>
    rw [undergo, forgetTouched, List.foldl_fixed' fun address => forgetKey_of_nil h _, h]
  | forgetAll => exact entries_forgetAll c
  | announce address => rwa [undergo, notify_of_nil h]
  | receive text => rw [undergo, List.foldl_fixed' (notify_of_nil h), h]
  | setConnected connected => exact entries_setConnection_of_nil h connected

theorem EmptyOffline.of_connected (h : c.hub.connected = true) : c.EmptyOffline where
  nothing := fun hdown => Bool.noConfusion (h.symm.trans hdown)

theorem EmptyOffline.fill (h : c.EmptyOffline) (key subkey : String) (ticket : Ticket) :
    (c.fill key subkey ticket).EmptyOffline where
  nothing := fun hdown => entries_fill_of_nil (h.nothing hdown) key subkey ticket

theorem connected_setConnection (c : LiveCache) (connected : Bool) :
    (c.setConnection connected).hub.connected = connected := by
  unfold setConnection
  dsimp only
  split
  · exact (connected_forgetAll _).trans (Hub.connected_setConnected ..)
  · exact Hub.connected_setConnected ..

theorem EmptyOffline.setConnection (h : c.EmptyOffline) (connected : Bool) :
    (c.setConnection connected).EmptyOffline where
  nothing := by
    intro hdown
    rw [connected_setConnection] at hdown
    cases hbefore : c.hub.connected with
    | false => exact entries_setConnection_of_nil (h.nothing hbefore) connected
    | true =>
      rw [LiveCache.setConnection, if_pos ⟨hdown, hbefore⟩]
      exact entries_forgetAll _

theorem EmptyOffline.undergo (h : c.EmptyOffline) (e : CacheEvent) :
    (c.undergo e).EmptyOffline := by
  by_cases hset : ∃ connected, e = .setConnected connected
  · obtain ⟨connected, rfl⟩ := hset
    exact h.setConnection connected
  · refine ⟨fun hdown => ?_⟩
    rw [connected_undergo c e fun connected he => hset ⟨connected, he⟩] at hdown
    exact entries_undergo_of_disconnected hdown (h.nothing hdown) e

theorem InSync.mem_registrationsOf (h : c.InSync) {key : String} {s : Subscription Listener} :
    s ∈ c.registrationsOf key ↔
      ∃ binding ∈ c.bindings, binding.1 = key ∧ subscriptionOf? binding = some s := by
  rw [registrationsOf, List.mem_filter, Bool.and_eq_true, decide_eq_true_iff, ← and_assoc,
    h.mirrored]
  constructor
  · rintro ⟨⟨binding, hbinding, hs⟩, hkey⟩
    obtain ⟨id, hid, rfl⟩ := Option.map_eq_some_iff.1 hs
    exact ⟨binding, hbinding, hkey, hs⟩
  · rintro ⟨binding, hbinding, rfl, hs⟩
    obtain ⟨id, hid, rfl⟩ := Option.map_eq_some_iff.1 hs
    exact ⟨⟨binding, hbinding, hs⟩, rfl⟩

theorem InSync.registrationsOf_of_mem (h : c.InSync) {binding : String × Option Nat}
    (hbinding : binding ∈ c.bindings) :
    c.registrationsOf binding.1 = (subscriptionOf? binding).toList := by
  have hmem : ∀ s, s ∈ c.registrationsOf binding.1 ↔ s ∈ (subscriptionOf? binding).toList := by
    intro s
    rw [h.mem_registrationsOf, Option.mem_toList]
    constructor
    · rintro ⟨other, hother, hkey, hs⟩
      rwa [h.eq_of_key hother hbinding hkey] at hs
    · intro hs
      exact ⟨binding, hbinding, rfl, hs⟩
  have hnodup : (c.registrationsOf binding.1).Nodup := (List.Nodup.of_map _ h.ids).filter _
  cases hs : subscriptionOf? binding with
  | none => exact List.eq_nil_iff_forall_not_mem.2 fun s => by simp [hmem, hs]
  | some s =>
    rw [hs] at hmem
    exact List.perm_singleton.1
      ((List.perm_ext_iff_of_nodup hnodup (List.nodup_singleton s)).2 hmem)

theorem InSync.length_registrationsOf (h : c.InSync) (key : String) :
    (c.registrationsOf key).length = if (c.entryAt? key).isSome ∧ key ∉ c.exempt then 1 else 0 := by
  cases hentry : c.entryAt? key with
  | none =>
    have hno : c.registrationsOf key = [] := by
      refine List.eq_nil_iff_forall_not_mem.2 fun s hs => ?_
      obtain ⟨binding, hbinding, hkey, -⟩ := h.mem_registrationsOf.1 hs
      exact (entryAt?_eq_none_iff key c).1 hentry (List.mem_map.2 ⟨binding, hbinding, hkey⟩)
    simp [hno]
  | some e =>
    obtain rfl := key_of_entryAt? hentry
    have hbinding : (e.key, e.registration) ∈ c.bindings :=
      List.mem_map.2 ⟨e, mem_of_entryAt? hentry, rfl⟩
    rw [h.registrationsOf_of_mem hbinding]
    by_cases hexempt : e.key ∈ c.exempt
    · have hnone : e.registration = none := (h.exempted _ hbinding).2 hexempt
      simp [subscriptionOf?, hnone, hexempt]
    · obtain ⟨id, hid⟩ := Option.ne_none_iff_exists'.1 fun hnone =>
        hexempt ((h.exempted _ hbinding).1 hnone)
      simp only at hid
      simp [subscriptionOf?, hid, hexempt]

theorem consistent (hsync : c.InSync) (hserving : c.Serving) (hoffline : c.EmptyOffline) :
    c.Consistent c.exempt where
  unique := by simpa [bindings, Function.comp_def] using hsync.keys
  slashed := by
    intro e he
    have hkey : Address.key e.key = e.key :=
      hsync.normal (e.key, e.registration) (List.mem_map.2 ⟨e, he, rfl⟩)
    refine ⟨Address.trimEnd e.key.toList, ?_, Address.getLast?_trimEnd _⟩
    rw [← Address.keyChars, ← Address.toList_key, hkey]
  registered := hsync.length_registrationsOf
  owned := by
    intro key s hs
    obtain ⟨binding, -, rfl, hbinding⟩ := hsync.mem_registrationsOf.1 hs
    obtain ⟨id, -, rfl⟩ := Option.map_eq_some_iff.1 hbinding
    rfl
  healthy := by
    intro key subkey ticket fault hslot hfailed
    rcases hserving.serves hslot with ⟨job, hrunning⟩ | ⟨resource, hlanded⟩
    · simp [hfailed] at hrunning
    · simp [hfailed] at hlanded
  emptyOffline := hoffline.nothing

end ResourceClient.LiveCache

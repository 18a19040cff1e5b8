import Mathlib.Data.List.Nodup
import ResourceClient.Proofs.Cache.Slots
import ResourceClient.Proofs.Push.Registrations

/-!
The cache and the hub agree on who listens. Each entry of a key that is notified about has exactly
one registration, and no registration outlives its entry. Every operation of the cache keeps this,
so it need not be checked at run time.
-/
namespace ResourceClient

def Listener.isEntry : Listener → Bool
  | .entry _ => true
  | _ => false

/-- It does nothing to a cache that does not own it. -/
def Listener.IsQuiet : Listener → Prop
  | .observer _ reactions => reactions = []
  | _ => True

instance : DecidablePred Listener.IsQuiet
  | .observer _ reactions => inferInstanceAs (Decidable (reactions = []))
  | .entry _ | .cache | .spare => isTrue trivial

namespace LiveCache

/-- All that the hub has to do with: the keys of the entries, and their registrations. -/
def bindings (c : LiveCache) : List (String × Option Nat) :=
  c.entries.map fun e => (e.key, e.registration)

def subscriptionOf? (binding : String × Option Nat) : Option (Subscription Listener) :=
  binding.2.map fun id => ⟨id, binding.1, .entry binding.1⟩

structure InSync (c : LiveCache) : Prop where
  attached : c.attached = true
  keys : (c.bindings.map (·.1)).Nodup
  normal : ∀ binding ∈ c.bindings, Address.key binding.1 = binding.1
  exempted : ∀ binding ∈ c.bindings, binding.2 = none ↔ binding.1 ∈ c.exempt
  mirrored : ∀ s, s ∈ c.hub.subscriptions ∧ s.listener.isEntry = true ↔
    ∃ binding ∈ c.bindings, subscriptionOf? binding = some s
  ids : (c.hub.subscriptions.map (·.id)).Nodup
  younger : ∀ s ∈ c.hub.subscriptions, s.id < c.hub.nextId
  quiet : ∀ s ∈ c.hub.subscriptions, s.listener.IsQuiet
  listening : .cache ∈ c.hub.lossListeners.map (·.2)
  quietOnLoss : ∀ l ∈ c.hub.lossListeners, l.2.IsQuiet

theorem InSync.isLive {c : LiveCache} (h : c.InSync) (hconnected : c.hub.connected = true) :
    c.isLive = true := by
  rw [LiveCache.isLive, h.attached, hconnected, Bool.and_self]

variable {c d : LiveCache} (key subkey : String) (ticket : Ticket)

theorem bindings_updateEntry (f : Entry → Entry) (hkey : ∀ e, (f e).key = e.key)
    (hregistration : ∀ e, (f e).registration = e.registration) :
    (c.updateEntry key f).bindings = c.bindings := by
  simp only [bindings, updateEntry, List.map_map]
  apply List.map_congr_left
  intro e _
  dsimp only [Function.comp_apply]
  split
  · rw [hkey, hregistration]
  · rfl

theorem bindings_forgetKey (c : LiveCache) :
    (c.forgetKey key).bindings = c.bindings.filter (·.1 ≠ key) := by
  unfold forgetKey bindings
  split
  · next hnone =>
    refine (List.filter_eq_self.2 fun binding hbinding => ?_).symm
    obtain ⟨e, he, rfl⟩ := List.mem_map.1 hbinding
    simpa using List.find?_eq_none.1 hnone e he
  · simp only [List.filter_map]
    rfl

theorem entryAt?_eq_none_iff (c : LiveCache) :
    c.entryAt? key = none ↔ key ∉ c.bindings.map (·.1) := by
  simp [entryAt?, bindings, List.find?_eq_none]

theorem InSync.congr (h : c.InSync) (hbindings : d.bindings = c.bindings) (hhub : d.hub = c.hub)
    (hexempt : d.exempt = c.exempt) (hattached : d.attached = c.attached) : d.InSync where
  attached := hattached ▸ h.attached
  keys := hbindings ▸ h.keys
  normal := hbindings ▸ h.normal
  exempted := by rw [hbindings, hexempt]; exact h.exempted
  mirrored := by rw [hbindings, hhub]; exact h.mirrored
  ids := hhub ▸ h.ids
  younger := hhub ▸ h.younger
  quiet := hhub ▸ h.quiet
  listening := hhub ▸ h.listening
  quietOnLoss := hhub ▸ h.quietOnLoss

theorem InSync.fill (h : c.InSync) : (c.fill key subkey ticket).InSync :=
  h.congr (bindings_updateEntry key _ (fun _ => rfl) (fun _ => rfl)) rfl rfl rfl

theorem InSync.empty (h : c.InSync) : (c.empty key subkey).InSync :=
  h.congr (bindings_updateEntry key _ (fun _ => rfl) (fun _ => rfl)) rfl rfl rfl

theorem InSync.addFlight (h : c.InSync) (flight : Flight) : (c.addFlight flight).2.InSync :=
  h.congr rfl rfl rfl rfl

theorem InSync.setFlight (h : c.InSync) (flight : Flight) : (c.setFlight ticket flight).InSync :=
  h.congr rfl rfl rfl rfl

theorem InSync.land (h : c.InSync) (outcome : Except Fault Resource) :
    (c.land ticket key subkey outcome).InSync := by
  unfold LiveCache.land
  cases outcome with
  | ok resource => exact h.setFlight ticket _
  | error fault =>
    dsimp only
    split
    · exact (h.setFlight ticket _).empty key subkey
    · exact h.setFlight ticket _

theorem InSync.eq_of_id (h : c.InSync) {s t : Subscription Listener}
    (hs : s ∈ c.hub.subscriptions) (ht : t ∈ c.hub.subscriptions) (hid : s.id = t.id) : s = t :=
  List.inj_on_of_nodup_map h.ids hs ht hid

theorem InSync.eq_of_key (h : c.InSync) {s t : String × Option Nat} (hs : s ∈ c.bindings)
    (ht : t ∈ c.bindings) (hkey : s.1 = t.1) : s = t :=
  List.inj_on_of_nodup_map h.keys hs ht hkey

theorem ensure_of_isSome (h : (c.entryAt? key).isSome = true) : c.ensure key = c := by
  obtain ⟨e, he⟩ := Option.isSome_iff_exists.1 h
  simp only [LiveCache.ensure, he]

theorem ensure_of_exempt (hnone : c.entryAt? key = none) (hexempt : key ∈ c.exempt) :
    c.ensure key =
      { c with
        entries := c.entries ++ [{ key, since := c.flights.length, registration := none }] } := by
  simp only [LiveCache.ensure, hnone]
  rw [if_pos (List.contains_iff_mem.2 hexempt)]

theorem ensure_of_not_exempt (hnone : c.entryAt? key = none) (hexempt : key ∉ c.exempt) :
    c.ensure key =
      { c with
        hub := (c.hub.register key (.entry key)).2
        entries := c.entries ++
          [{ key, since := c.flights.length, registration := some c.hub.nextId }] } := by
  simp only [LiveCache.ensure, hnone]
  rw [if_neg fun h => hexempt (List.contains_iff_mem.1 h)]
  rfl

private theorem nodup_snoc {α : Type} {l : List α} {a : α} (h : l.Nodup) (ha : a ∉ l) :
    (l ++ [a]).Nodup := by
  rw [List.nodup_append]
  refine ⟨h, List.nodup_singleton a, ?_⟩
  rintro b hb _ hmem rfl
  exact ha (List.mem_singleton.1 hmem ▸ hb)

theorem InSync.grow (h : c.InSync) (binding : String × Option Nat)
    (hbindings : d.bindings = c.bindings ++ [binding]) (hfresh : binding.1 ∉ c.bindings.map (·.1))
    (hkey : Address.key binding.1 = binding.1) (hbinding : binding.2 = none ↔ binding.1 ∈ c.exempt)
    (hname : ∀ id ∈ binding.2, id = c.hub.nextId)
    (hsubscriptions : d.hub.subscriptions = c.hub.subscriptions ++ (subscriptionOf? binding).toList)
    (hnext : d.hub.nextId = c.hub.nextId + binding.2.toList.length)
    (hloss : d.hub.lossListeners = c.hub.lossListeners) (hexempt : d.exempt = c.exempt)
    (hattached : d.attached = c.attached) : d.InSync := by
  have hnew : ∀ s, subscriptionOf? binding = some s →
      s.id = c.hub.nextId ∧ d.hub.nextId = c.hub.nextId + 1 ∧ s.listener = .entry binding.1 := by
    intro s hs
    obtain ⟨id, hid, rfl⟩ := Option.map_eq_some_iff.1 hs
    exact ⟨hname id hid, by simp [hnext, hid], rfl⟩
  have hle : c.hub.nextId ≤ d.hub.nextId := by omega
  refine {
    attached := hattached ▸ h.attached, keys := ?_, normal := ?_, exempted := ?_, mirrored := ?_
    ids := ?_, younger := ?_, quiet := ?_, listening := hloss ▸ h.listening
    quietOnLoss := hloss ▸ h.quietOnLoss }
  · rw [hbindings, List.map_append]
    exact nodup_snoc h.keys hfresh
  · rw [hbindings]
    intro t ht
    rcases List.mem_append.1 ht with ht | ht
    · exact h.normal t ht
    · exact List.mem_singleton.1 ht ▸ hkey
  · rw [hbindings, hexempt]
    intro t ht
    rcases List.mem_append.1 ht with ht | ht
    · exact h.exempted t ht
    · exact List.mem_singleton.1 ht ▸ hbinding
  · intro s
    rw [hbindings, hsubscriptions]
    simp only [List.mem_append, List.mem_singleton, or_and_right, h.mirrored, exists_or,
      Option.mem_toList, exists_eq_left]
    refine or_congr Iff.rfl ⟨And.left, fun hs => ⟨hs, ?_⟩⟩
    rw [(hnew s hs).2.2]
    rfl
  · rw [hsubscriptions]
    cases hs : subscriptionOf? binding with
    | none => simpa using h.ids
    | some s =>
      rw [Option.toList_some, List.map_append]
      refine nodup_snoc h.ids fun hmem => ?_
      obtain ⟨t, ht, hid⟩ := List.mem_map.1 hmem
      have hyounger := h.younger t ht
      have hnamed : t.id = c.hub.nextId := hid.trans (hnew s hs).1
      omega
  · rw [hsubscriptions]
    intro s hs
    rcases List.mem_append.1 hs with hs | hs
    · exact Nat.lt_of_lt_of_le (h.younger s hs) hle
    · obtain ⟨hid, hsucc, -⟩ := hnew s (Option.mem_toList.1 hs)
      omega
  · rw [hsubscriptions]
    intro s hs
    rcases List.mem_append.1 hs with hs | hs
    · exact h.quiet s hs
    · rw [(hnew s (Option.mem_toList.1 hs)).2.2]
      trivial

theorem InSync.ensure (h : c.InSync) (hkey : Address.key key = key) :
    (c.ensure key).InSync := by
  cases hentry : c.entryAt? key with
  | some e =>
    have hsome : (c.entryAt? key).isSome = true := by rw [hentry]; rfl
    rw [ensure_of_isSome key hsome]
    exact h
  | none =>
    have hfresh := (entryAt?_eq_none_iff key c).1 hentry
    by_cases hexempt : key ∈ c.exempt
    · rw [ensure_of_exempt key hentry hexempt]
      exact h.grow (key, none) (by simp [bindings]) hfresh hkey (by simpa using hexempt)
        (by simp) (by simp [subscriptionOf?]) rfl rfl rfl rfl
    · rw [ensure_of_not_exempt key hentry hexempt]
      exact h.grow (key, some c.hub.nextId) (by simp [bindings]) hfresh hkey
        (by simpa using hexempt) (by simp) (by simp [subscriptionOf?, hkey]) (by simp) (by simp)
        rfl rfl

theorem InSync.shrink (h : c.InSync) {binding : String × Option Nat} (hmem : binding ∈ c.bindings)
    (hbindings : d.bindings = c.bindings.filter (·.1 ≠ binding.1))
    (hsubscriptions : d.hub.subscriptions =
      c.hub.subscriptions.filter fun s => some s.id ≠ binding.2)
    (hnext : d.hub.nextId = c.hub.nextId)
    (hloss : d.hub.lossListeners = c.hub.lossListeners)
    (hexempt : d.exempt = c.exempt) (hattached : d.attached = c.attached) : d.InSync := by
  have hsub : ∀ {t}, t ∈ d.bindings → t ∈ c.bindings ∧ t.1 ≠ binding.1 := fun ht =>
    (List.mem_filter.1 (hbindings ▸ ht)).imp_right of_decide_eq_true
  have hkept : ∀ {s}, s ∈ d.hub.subscriptions → s ∈ c.hub.subscriptions ∧ some s.id ≠ binding.2 :=
    fun hs => (List.mem_filter.1 (hsubscriptions ▸ hs)).imp_right of_decide_eq_true
  refine {
    attached := hattached ▸ h.attached
    keys := ?_
    normal := fun t ht => h.normal t (hsub ht).1
    exempted := fun t ht => hexempt ▸ h.exempted t (hsub ht).1
    mirrored := fun s => ⟨?_, ?_⟩
    ids := ?_
    younger := fun s hs => hnext ▸ h.younger s (hkept hs).1
    quiet := fun s hs => h.quiet s (hkept hs).1
    listening := hloss ▸ h.listening
    quietOnLoss := hloss ▸ h.quietOnLoss }
  · rw [hbindings]
    exact h.keys.sublist (List.filter_sublist.map _)
  · rintro ⟨hs, hentry⟩
    obtain ⟨t, ht, hts⟩ := (h.mirrored s).1 ⟨(hkept hs).1, hentry⟩
    refine ⟨t, ?_, hts⟩
    rw [hbindings, List.mem_filter]
    refine ⟨ht, decide_eq_true fun hkey => (hkept hs).2 ?_⟩
    obtain rfl := h.eq_of_key ht hmem hkey
    obtain ⟨id, hid, rfl⟩ := Option.map_eq_some_iff.1 hts
    exact hid.symm
  · rintro ⟨t, ht, hts⟩
    obtain ⟨hs, hentry⟩ := (h.mirrored s).2 ⟨t, (hsub ht).1, hts⟩
    refine ⟨?_, hentry⟩
    rw [hsubscriptions, List.mem_filter]
    refine ⟨hs, decide_eq_true fun hid => (hsub ht).2 ?_⟩
    -- Both bindings would have the one registration of that name.
    have hended : subscriptionOf? binding = some ⟨s.id, binding.1, .entry binding.1⟩ := by
      simp [subscriptionOf?, ← hid]
    have hsame := h.eq_of_id hs ((h.mirrored _).2 ⟨binding, hmem, hended⟩).1 rfl
    obtain ⟨_, -, rfl⟩ := Option.map_eq_some_iff.1 hts
    exact congrArg Subscription.key hsame
  · rw [hsubscriptions]
    exact h.ids.sublist (List.filter_sublist.map _)

theorem forgetKey_of_none (h : c.entryAt? key = none) : c.forgetKey key = c := by
  simp only [forgetKey, h]

theorem InSync.forgetKey (h : c.InSync) : (c.forgetKey key).InSync := by
  cases hentry : c.entryAt? key with
  | none =>
    rw [forgetKey_of_none key hentry]
    exact h
  | some e =>
    obtain rfl := key_of_entryAt? hentry
    have hmem : (e.key, e.registration) ∈ c.bindings :=
      List.mem_map.2 ⟨e, mem_of_entryAt? hentry, rfl⟩
    have hbindings := bindings_forgetKey e.key c
    cases hregistration : e.registration with
    | none =>
      rw [hregistration] at hmem
      have hhub : (c.forgetKey e.key).hub = c.hub := by
        simp only [LiveCache.forgetKey, hentry, hregistration]
      refine h.shrink hmem hbindings ?_ (by rw [hhub]) (by rw [hhub]) ?_ ?_
      · rw [hhub]
        exact (List.filter_eq_self.2 fun _ _ => by simp).symm
      all_goals simp only [LiveCache.forgetKey, hentry]
    | some id =>
      rw [hregistration] at hmem
      have hhub : (c.forgetKey e.key).hub = c.hub.unregister id := by
        simp only [LiveCache.forgetKey, hentry, hregistration]
      refine h.shrink hmem hbindings ?_ (by simp [hhub]) (by simp [hhub]) ?_ ?_
      · simp [hhub]
      all_goals simp only [LiveCache.forgetKey, hentry]

theorem InSync.foldl_forgetKey (h : c.InSync) (entries : List Entry) :
    (entries.foldl (fun c e => c.forgetKey e.key) c).InSync := by
  induction entries generalizing c with
  | nil => exact h
  | cons e rest ih => exact ih (h.forgetKey e.key)

theorem InSync.forgetAll (h : c.InSync) : c.forgetAll.InSync := h.foldl_forgetKey c.entries

theorem InSync.forgetTouched (h : c.InSync) (report : Report) (posted : List String) :
    (c.forgetTouched report posted).InSync := by
  unfold LiveCache.forgetTouched
  induction touched report posted generalizing c with
  | nil => exact h
  | cons address rest ih => exact ih (h.forgetKey (Address.key address))

theorem InSync.put (h : c.InSync) (address : String) (resource : Resource) :
    (c.put address subkey resource).InSync := by
  unfold LiveCache.put
  split
  · exact ((h.ensure _ (Address.key_key address)).addFlight _).fill _ _ _
  · exact h

theorem InSync.quiet_of_mem_listeners (h : c.InSync) {address : String} {listener : Listener}
    (hmem : listener ∈ c.hub.listeners address) : listener.IsQuiet := by
  obtain ⟨s, hs, rfl⟩ := List.mem_map.1 hmem
  exact h.quiet s (List.mem_filter.1 hs).1

theorem InSync.key_of_mem_listeners (h : c.InSync) {address : String}
    (hmem : .entry key ∈ c.hub.listeners address) :
    key = Address.key address ∧ key ∉ c.exempt := by
  obtain ⟨s, hs, hlistener⟩ := List.mem_map.1 hmem
  obtain ⟨hs, hkey⟩ := List.mem_filter.1 hs
  have hentry : s.listener.isEntry = true := by rw [hlistener]; rfl
  obtain ⟨binding, hbinding, hsub⟩ := (h.mirrored s).1 ⟨hs, hentry⟩
  obtain ⟨id, hid, rfl⟩ := Option.map_eq_some_iff.1 hsub
  obtain rfl : binding.1 = key := Listener.entry.inj hlistener
  refine ⟨of_decide_eq_true hkey, fun hexempt => ?_⟩
  simp [(h.exempted binding hbinding).2 hexempt] at hid

theorem InSync.mem_listeners (h : c.InSync) {address : String}
    (hentry : (c.entryAt? (Address.key address)).isSome = true)
    (hexempt : Address.key address ∉ c.exempt) :
    .entry (Address.key address) ∈ c.hub.listeners address := by
  obtain ⟨e, he⟩ := Option.isSome_iff_exists.1 hentry
  have hkey := key_of_entryAt? he
  have hbinding : (Address.key address, e.registration) ∈ c.bindings :=
    List.mem_map.2 ⟨e, mem_of_entryAt? he, by rw [hkey]⟩
  cases hregistration : e.registration with
  | none => exact absurd ((h.exempted _ hbinding).1 hregistration) hexempt
  | some id =>
    rw [hregistration] at hbinding
    obtain ⟨hs, -⟩ := (h.mirrored ⟨id, Address.key address, .entry (Address.key address)⟩).2
      ⟨_, hbinding, rfl⟩
    exact List.mem_map.2 ⟨_, List.mem_filter.2 ⟨hs, by simp⟩, rfl⟩

end LiveCache

end ResourceClient

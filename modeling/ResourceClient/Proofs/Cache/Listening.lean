import ResourceClient.Proofs.Cache.Forgetting

/-!
What a cache listens for, whoever else listens on the hub. A listener that drops an entry is
registered for the key of that entry, and only what is exempt goes without one; so an announced
change drops the entries of its key and leaves the listeners from outside where they are.
-/
namespace ResourceClient.LiveCache

/-- Whoever would drop an entry hears of the key of that entry, and no entry goes unheard but those
that are exempt. -/
structure Listens (c : LiveCache) : Prop where
  heard : ∀ binding ∈ c.bindings, binding.2 = none → binding.1 ∈ c.exempt
  own : ∀ s ∈ c.hub.subscriptions, ∀ key, s.listener = .entry key → s.key = key ∧ key ∉ c.exempt

namespace Listens

variable {c d : LiveCache} (key subkey : String) (ticket : Ticket)

theorem mono (h : c.Listens) (hbindings : d.bindings ⊆ c.bindings)
    (hsubscriptions : d.hub.subscriptions ⊆ c.hub.subscriptions) (hexempt : d.exempt = c.exempt) :
    d.Listens where
  heard := by
    intro binding hbinding
    rw [hexempt]
    exact h.heard binding (hbindings hbinding)
  own := by
    intro s hs
    rw [hexempt]
    exact h.own s (hsubscriptions hs)

theorem of_eq (h : c.Listens) (hbindings : d.bindings = c.bindings)
    (hsubscriptions : d.hub.subscriptions = c.hub.subscriptions) (hexempt : d.exempt = c.exempt) :
    d.Listens :=
  h.mono (hbindings ▸ List.Subset.refl _) (hsubscriptions ▸ List.Subset.refl _) hexempt

theorem foldl {α : Type} {f : LiveCache → α → LiveCache}
    (hf : ∀ {c : LiveCache} a, c.Listens → (f c a).Listens) (h : c.Listens) (l : List α) :
    (l.foldl f c).Listens := by
  induction l generalizing c with
  | nil => exact h
  | cons a rest ih => exact ih (hf a h)

theorem fill (h : c.Listens) : (c.fill key subkey ticket).Listens :=
  h.of_eq (bindings_updateEntry key _ (fun _ => rfl) fun _ => rfl) rfl rfl

theorem empty (h : c.Listens) : (c.empty key subkey).Listens :=
  h.of_eq (bindings_updateEntry key _ (fun _ => rfl) fun _ => rfl) rfl rfl

theorem addFlight (h : c.Listens) (flight : Flight) : (c.addFlight flight).2.Listens :=
  h.of_eq rfl rfl rfl

theorem setFlight (h : c.Listens) (flight : Flight) : (c.setFlight ticket flight).Listens :=
  h.of_eq rfl rfl rfl

theorem land (h : c.Listens) (outcome : Except Fault Resource) :
    (c.land ticket key subkey outcome).Listens := by
  unfold LiveCache.land
  cases outcome with
  | ok resource => exact h.setFlight ticket _
  | error fault =>
    dsimp only
    split
    · exact (h.setFlight ticket _).empty key subkey
    · exact h.setFlight ticket _

theorem register (h : c.Listens) {address : String} {listener : Listener}
    (hown : ∀ key, listener = .entry key → Address.key address = key ∧ key ∉ c.exempt) :
    LiveCache.Listens { c with hub := (c.hub.register address listener).2 } where
  heard := h.heard
  own := by
    intro s hs
    rw [Hub.subscriptions_register] at hs
    rcases List.mem_append.1 hs with hs | hs
    · exact h.own s hs
    · rw [List.mem_singleton.1 hs]
      exact hown

theorem addEntry (h : c.Listens) {e : Entry} (hheard : e.registration = none → e.key ∈ c.exempt) :
    LiveCache.Listens { c with entries := c.entries ++ [e] } where
  heard := by
    intro binding hbinding
    rw [bindings_concat] at hbinding
    rcases List.mem_append.1 hbinding with hbinding | hbinding
    · exact h.heard binding hbinding
    · rw [List.mem_singleton.1 hbinding]
      exact hheard
  own := h.own

theorem ensure (h : c.Listens) (hkey : Address.key key = key) : (c.ensure key).Listens := by
  cases hentry : c.entryAt? key with
  | some e =>
    have hsome : (c.entryAt? key).isSome = true := by rw [hentry]; rfl
    rw [ensure_of_isSome key hsome]
    exact h
  | none =>
    by_cases hexempt : key ∈ c.exempt
    · rw [ensure_of_exempt key hentry hexempt]
      exact h.addEntry fun _ => hexempt
    · rw [ensure_of_not_exempt key hentry hexempt]
      have hregistered : LiveCache.Listens
          { c with hub := (c.hub.register key (.entry key)).2 } := by
        apply h.register
        rintro _ ⟨⟩
        exact ⟨hkey, hexempt⟩
      exact hregistered.addEntry nofun

theorem put (h : c.Listens) (address : String) (resource : Resource) :
    (c.put address subkey resource).Listens := by
  unfold LiveCache.put
  split
  · exact ((h.ensure _ (Address.key_key address)).addFlight _).fill _ _ _
  · exact h

theorem unregister (h : c.Listens) (id : Nat) :
    LiveCache.Listens { c with hub := c.hub.unregister id } where
  heard := h.heard
  own := by
    intro s hs
    rw [Hub.subscriptions_unregister] at hs
    exact h.own s (List.mem_of_mem_filter hs)

theorem forgetKey (h : c.Listens) : (c.forgetKey key).Listens := by
  apply h.mono
  · rw [bindings_forgetKey]
    exact List.filter_subset_self _
  · unfold LiveCache.forgetKey
    split
    · exact List.Subset.refl _
    · dsimp only
      split
      · rw [Hub.subscriptions_unregister]
        exact List.filter_subset_self _
      · exact List.Subset.refl _
  · exact exempt_forgetKey c key

theorem forgetAll (h : c.Listens) : c.forgetAll.Listens :=
  foldl (f := fun c (e : Entry) => c.forgetKey e.key) (fun e h => h.forgetKey e.key) h c.entries

theorem forgetTouched (h : c.Listens) (report : Report) (posted : List String) :
    (c.forgetTouched report posted).Listens :=
  foldl (f := fun c address => c.forget address) (fun _ h => h.forgetKey _) h
    (touched report posted)

theorem setConnected (h : c.Listens) (connected : Bool) :
    LiveCache.Listens { c with hub := (c.hub.setConnected connected).2 } :=
  h.of_eq rfl (Hub.subscriptions_setConnected ..) rfl

theorem advance (h : c.Listens) (job : Job) : (c.advance ticket job).Listens := by
  unfold LiveCache.advance
  split
  · exact h.setFlight ticket _
  · exact h

theorem resolve (h : c.Listens) (outcome : Except Fault Resource) :
    (c.resolve ticket outcome).Listens := by
  unfold LiveCache.resolve
  split
  · exact h.land _ _ _ _
  · exact h

theorem notify (h : c.Listens) (address : String) : (c.notify address).Listens := by
  unfold LiveCache.notify
  split
  · exact h
  · exact h.forgetKey _

theorem key_of_mem_listeners (h : c.Listens) {address : String}
    (hmem : .entry key ∈ c.hub.listeners address) :
    key = Address.key address ∧ key ∉ c.exempt := by
  obtain ⟨s, hs, hlistener⟩ := List.mem_map.1 hmem
  obtain ⟨hs, hkey⟩ := List.mem_filter.1 hs
  obtain ⟨rfl, hexempt⟩ := h.own s hs key hlistener
  exact ⟨of_decide_eq_true hkey, hexempt⟩

theorem mem_listeners (h : c.Listens) (hregistered : c.Registered) {address : String}
    (hentry : (c.entryAt? (Address.key address)).isSome = true)
    (hexempt : Address.key address ∉ c.exempt) :
    .entry (Address.key address) ∈ c.hub.listeners address := by
  obtain ⟨e, he⟩ := Option.isSome_iff_exists.1 hentry
  have hbinding : (e.key, e.registration) ∈ c.bindings :=
    List.mem_map.2 ⟨e, mem_of_entryAt? he, rfl⟩
  rw [key_of_entryAt? he] at hbinding
  cases hregistration : e.registration with
  | none =>
    rw [hregistration] at hbinding
    exact absurd (h.heard _ hbinding rfl) hexempt
  | some id =>
    rw [hregistration] at hbinding
    have hheld := hregistered.held _ hbinding _ rfl
    exact List.mem_map.2 ⟨_, List.mem_filter.2 ⟨hheld, decide_eq_true rfl⟩, rfl⟩

end Listens

variable {c d : LiveCache} {gone : String → Bool}

theorem preserves_notify (address : String) : c.Preserves (c.notify address) := by
  unfold notify
  split
  · exact .refl c
  · exact preserves_forgetKey _

theorem forgets_notify (h : c.Registered) (address : String) :
    Forgets (fun key => key = Address.key address ∧ key ∉ c.exempt) c (c.notify address) := by
  unfold notify
  split
  · next hexempt =>
    apply forgets_nothing
    intro e _
    apply decide_eq_false
    rintro ⟨hkey, hnot⟩
    exact hnot (hkey ▸ hexempt)
  · next hexempt =>
    apply (forgets_forgetKey h (Address.key address)).congr
    intro key
    apply decide_eq_decide.2
    constructor
    · rintro rfl
      exact ⟨rfl, hexempt⟩
    · exact And.left

theorem forgets_foldl_notify (h : c.Registered) (addresses : List String) :
    Forgets (fun key => key ∈ addresses.map Address.key ∧ key ∉ c.exempt) c
      (addresses.foldl (fun c address => c.notify address) c) := by
  induction addresses generalizing c with
  | nil => exact forgets_nothing fun e _ => by simp
  | cons address rest ih =>
    have hfirst := forgets_notify h address
    have hrest := ih ((preserves_notify address).registered h)
    rw [exempt_notify] at hrest
    exact (hfirst.trans hrest h).congr fun key => by simp [or_and_right]

theorem Registered.outlasts_of_other (h : c.Registered) {s : Subscription Listener}
    (hs : s ∈ c.hub.subscriptions) (hother : s.listener.isEntry = false) :
    c.outlasts gone s = true := by
  rw [outlasts_iff]
  intro e he _ hid
  have hheld := h.held (e.key, e.registration) (List.mem_map.2 ⟨e, he, rfl⟩)
    ⟨s.id, e.key, .entry e.key⟩ (by rw [subscriptionOf?, hid]; rfl)
  rw [List.inj_on_of_nodup_map h.ids hs hheld rfl] at hother
  cases hother

theorem Forgets.others (h : Forgets gone c d) (hregistered : c.Registered) :
    d.hub.subscriptions.filter (fun s => !s.listener.isEntry) =
      c.hub.subscriptions.filter fun s => !s.listener.isEntry := by
  rw [h.subscriptions, List.filter_filter]
  apply List.filter_congr
  intro s hs
  rw [Bool.and_eq_left_iff_imp, Bool.not_eq_true']
  exact hregistered.outlasts_of_other hs

end ResourceClient.LiveCache

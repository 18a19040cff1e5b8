import ResourceClient.Proofs.Cache.Events

/-!
Entries and their registrations, whoever else listens on the hub. An entry that names a registration
has it, and nobody but the cache ends it: what others hold goes by other names. Operations of the
cache keep this, and so does whatever others do with names of their own.
-/
namespace ResourceClient.LiveCache

structure Registered (c : LiveCache) : Prop where
  keys : (c.bindings.map (·.1)).Nodup
  held : ∀ binding ∈ c.bindings, ∀ s, subscriptionOf? binding = some s → s ∈ c.hub.subscriptions
  ids : (c.hub.subscriptions.map (·.id)).Nodup
  younger : ∀ s ∈ c.hub.subscriptions, s.id < c.hub.nextId

/-- It names no registration of an entry, and never will. -/
structure Foreign (c : LiveCache) (id : Nat) : Prop where
  drawn : id < c.hub.nextId
  free : ∀ binding ∈ c.bindings, binding.2 ≠ some id

/-- What goes on between them costs no entry its registration, and takes up no name that another
one has. -/
structure Preserves (c d : LiveCache) : Prop where
  registered : c.Registered → d.Registered
  foreign : ∀ {id}, c.Foreign id → d.Foreign id

namespace Preserves

variable {c d e : LiveCache}

theorem refl (c : LiveCache) : c.Preserves c := ⟨id, id⟩

theorem trans (h : c.Preserves d) (h' : d.Preserves e) : c.Preserves e :=
  ⟨h'.registered ∘ h.registered, h'.foreign ∘ h.foreign⟩

theorem foldl {α : Type} {f : LiveCache → α → LiveCache}
    (hf : ∀ (c : LiveCache) a, c.Preserves (f c a))
    (l : List α) (c : LiveCache) : c.Preserves (l.foldl f c) := by
  induction l generalizing c with
  | nil => exact refl c
  | cons a rest ih => exact (hf c a).trans (ih (f c a))

theorem of_eq (hbindings : d.bindings = c.bindings)
    (hsubscriptions : d.hub.subscriptions = c.hub.subscriptions)
    (hnext : c.hub.nextId ≤ d.hub.nextId) : c.Preserves d where
  registered := by
    intro h
    constructor
    · rw [hbindings]
      exact h.keys
    · rw [hbindings, hsubscriptions]
      exact h.held
    · rw [hsubscriptions]
      exact h.ids
    · rw [hsubscriptions]
      intro s hs
      exact Nat.lt_of_lt_of_le (h.younger s hs) hnext
  foreign := by
    intro id h
    constructor
    · exact Nat.lt_of_lt_of_le h.drawn hnext
    · rw [hbindings]
      exact h.free

end Preserves

variable {c : LiveCache} (key subkey : String) (ticket : Ticket)

theorem preserves_fill : c.Preserves (c.fill key subkey ticket) :=
  .of_eq (bindings_updateEntry key _ (fun _ => rfl) fun _ => rfl) rfl (Nat.le_refl _)

theorem preserves_empty : c.Preserves (c.empty key subkey) :=
  .of_eq (bindings_updateEntry key _ (fun _ => rfl) fun _ => rfl) rfl (Nat.le_refl _)

theorem preserves_addFlight (flight : Flight) : c.Preserves (c.addFlight flight).2 :=
  .of_eq rfl rfl (Nat.le_refl _)

theorem preserves_setFlight (flight : Flight) : c.Preserves (c.setFlight ticket flight) :=
  .of_eq rfl rfl (Nat.le_refl _)

theorem preserves_land (outcome : Except Fault Resource) :
    c.Preserves (c.land ticket key subkey outcome) := by
  unfold land
  cases outcome with
  | ok resource => exact preserves_setFlight ticket _
  | error fault =>
    dsimp only
    split
    · exact (preserves_setFlight ticket _).trans (preserves_empty key subkey)
    · exact preserves_setFlight ticket _

theorem preserves_setConnected (connected : Bool) :
    c.Preserves { c with hub := (c.hub.setConnected connected).2 } :=
  .of_eq rfl (Hub.subscriptions_setConnected ..) (Nat.le_of_eq (Hub.nextId_setConnected ..).symm)

theorem preserves_onLoss (listener : Listener) :
    c.Preserves { c with hub := (c.hub.onLoss listener).2 } :=
  .of_eq rfl rfl (Nat.le_succ _)

theorem preserves_endOnLoss (id : Nat) : c.Preserves { c with hub := c.hub.endOnLoss id } :=
  .of_eq rfl rfl (Nat.le_refl _)

theorem Registered.not_mem_ids (h : c.Registered) :
    c.hub.nextId ∉ c.hub.subscriptions.map (·.id) := by
  intro hmem
  obtain ⟨s, hs, hid⟩ := List.mem_map.1 hmem
  have hyounger := h.younger s hs
  omega

theorem preserves_register (address : String) (listener : Listener) :
    c.Preserves { c with hub := (c.hub.register address listener).2 } where
  registered := by
    intro h
    constructor
    · exact h.keys
    · intro binding hbinding s hs
      rw [Hub.subscriptions_register]
      exact List.mem_append_left _ (h.held binding hbinding s hs)
    · rw [Hub.subscriptions_register, List.map_append, List.map_singleton, ← List.concat_eq_append]
      exact List.Nodup.concat h.not_mem_ids h.ids
    · intro s hs
      rw [Hub.subscriptions_register] at hs
      rw [Hub.nextId_register]
      rcases List.mem_append.1 hs with hs | hs
      · exact Nat.lt_succ_of_lt (h.younger s hs)
      · rw [List.mem_singleton.1 hs]
        exact Nat.lt_succ_self _
  foreign := by
    intro id h
    constructor
    · rw [Hub.nextId_register]
      exact Nat.lt_succ_of_lt h.drawn
    · exact h.free

theorem Registered.foreign_register (h : c.Registered) (address : String) (listener : Listener) :
    LiveCache.Foreign { c with hub := (c.hub.register address listener).2 } c.hub.nextId where
  drawn := by
    rw [Hub.nextId_register]
    exact Nat.lt_succ_self _
  free := by
    intro binding hbinding hid
    have hsubscription :
      subscriptionOf? binding = some ⟨c.hub.nextId, binding.1, .entry binding.1⟩ := by
      rw [subscriptionOf?, hid, Option.map_some]
    have hyounger := h.younger _ (h.held binding hbinding _ hsubscription)
    exact Nat.lt_irrefl _ hyounger

theorem bindings_concat (e : Entry) :
    LiveCache.bindings { c with entries := c.entries ++ [e] } =
      c.bindings ++ [(e.key, e.registration)] := by
  rw [bindings, List.map_append]
  rfl

theorem Registered.addEntry (h : c.Registered) {e : Entry} (hfresh : c.entryAt? e.key = none)
    (hheld : ∀ s, subscriptionOf? (e.key, e.registration) = some s → s ∈ c.hub.subscriptions) :
    LiveCache.Registered { c with entries := c.entries ++ [e] } where
  keys := by
    rw [bindings_concat, List.map_append, List.map_singleton, ← List.concat_eq_append]
    exact List.Nodup.concat ((entryAt?_eq_none_iff e.key c).1 hfresh) h.keys
  held := by
    intro binding hbinding s hs
    rw [bindings_concat] at hbinding
    rcases List.mem_append.1 hbinding with hbinding | hbinding
    · exact h.held binding hbinding s hs
    · rw [List.mem_singleton.1 hbinding] at hs
      exact hheld s hs
  ids := h.ids
  younger := h.younger

theorem Foreign.addEntry {id : Nat} (h : c.Foreign id) {e : Entry}
    (hother : e.registration ≠ some id) :
    LiveCache.Foreign { c with entries := c.entries ++ [e] } id where
  drawn := h.drawn
  free := by
    intro binding hbinding
    rw [bindings_concat] at hbinding
    rcases List.mem_append.1 hbinding with hbinding | hbinding
    · exact h.free binding hbinding
    · rw [List.mem_singleton.1 hbinding]
      exact hother

theorem preserves_ensure (hkey : Address.key key = key) : c.Preserves (c.ensure key) := by
  cases hentry : c.entryAt? key with
  | some e =>
    have hsome : (c.entryAt? key).isSome = true := by rw [hentry]; rfl
    rw [ensure_of_isSome key hsome]
    exact .refl c
  | none =>
    by_cases hexempt : key ∈ c.exempt
    · rw [ensure_of_exempt key hentry hexempt]
      exact ⟨fun h => h.addEntry hentry nofun, fun h => h.addEntry nofun⟩
    · rw [ensure_of_not_exempt key hentry hexempt]
      have hregister := preserves_register (c := c) key (.entry key)
      constructor
      · intro h
        apply (hregister.registered h).addEntry
        · exact hentry
        intro s hs
        rw [Hub.subscriptions_register, hkey, ← Option.some.inj hs]
        exact List.mem_append_right _ (List.mem_singleton_self _)
      · intro id h
        apply (hregister.foreign h).addEntry
        intro hid
        exact absurd h.drawn (by rw [← Option.some.inj hid]; exact Nat.lt_irrefl _)

theorem preserves_put (address : String) (resource : Resource) :
    c.Preserves (c.put address subkey resource) := by
  unfold put
  split
  · exact ((preserves_ensure _ (Address.key_key address)).trans (preserves_addFlight _)).trans
      (preserves_fill _ _ _)
  · exact .refl c

theorem Registered.unregister (h : c.Registered) {id : Nat}
    (hfree : ∀ binding ∈ c.bindings, binding.2 ≠ some id) :
    LiveCache.Registered { c with hub := c.hub.unregister id } where
  keys := h.keys
  held := by
    intro binding hbinding s hs
    rw [Hub.subscriptions_unregister, List.mem_filter]
    refine ⟨h.held binding hbinding s hs, decide_eq_true fun hid => hfree binding hbinding ?_⟩
    obtain ⟨own, hown, rfl⟩ := Option.map_eq_some_iff.1 hs
    rw [hown, ← hid]
  ids := by
    rw [Hub.subscriptions_unregister]
    exact h.ids.sublist (List.filter_sublist.map _)
  younger := by
    intro s hs
    rw [Hub.subscriptions_unregister] at hs
    rw [Hub.nextId_unregister]
    exact h.younger s (List.mem_of_mem_filter hs)

theorem preserves_unregister {id : Nat} (h : c.Foreign id) :
    c.Preserves { c with hub := c.hub.unregister id } where
  registered := fun hregistered => hregistered.unregister h.free
  foreign := by
    intro other hother
    constructor
    · rw [Hub.nextId_unregister]
      exact hother.drawn
    · exact hother.free

theorem Registered.eq_of_registration (h : c.Registered) {binding other : String × Option Nat}
    (hbinding : binding ∈ c.bindings) (hother : other ∈ c.bindings) {id : Nat}
    (hid : binding.2 = some id)
    (hsame : other.2 = some id) : binding = other := by
  have hfirst := h.held binding hbinding ⟨id, binding.1, .entry binding.1⟩
    (by rw [subscriptionOf?, hid]; rfl)
  have hsecond := h.held other hother ⟨id, other.1, .entry other.1⟩
    (by rw [subscriptionOf?, hsame]; rfl)
  have hkey := congrArg Subscription.key (List.inj_on_of_nodup_map h.ids hfirst hsecond rfl)
  exact List.inj_on_of_nodup_map h.keys hbinding hother hkey

theorem bindings_filter (p : String → Bool) :
    LiveCache.bindings { c with entries := c.entries.filter fun e => p e.key } =
      c.bindings.filter fun binding => p binding.1 := by
  rw [bindings, bindings, List.filter_map]
  rfl

theorem Registered.filter (h : c.Registered) (p : String → Bool) :
    LiveCache.Registered { c with entries := c.entries.filter fun e => p e.key } where
  keys := by
    rw [bindings_filter]
    exact h.keys.sublist (List.filter_sublist.map _)
  held := by
    intro binding hbinding
    rw [bindings_filter] at hbinding
    exact h.held binding (List.mem_of_mem_filter hbinding)
  ids := h.ids
  younger := h.younger

theorem Foreign.filter {id : Nat} (h : c.Foreign id) (p : String → Bool) :
    LiveCache.Foreign { c with entries := c.entries.filter fun e => p e.key } id where
  drawn := h.drawn
  free := by
    intro binding hbinding
    rw [bindings_filter] at hbinding
    exact h.free binding (List.mem_of_mem_filter hbinding)

theorem preserves_forgetKey : c.Preserves (c.forgetKey key) := by
  unfold forgetKey
  split
  · exact .refl c
  · next e hentry =>
    split
    · next id hid =>
      constructor
      · intro h
        apply (h.filter fun other => other ≠ key).unregister
        intro binding hbinding hsame
        rw [bindings_filter fun other => other ≠ key] at hbinding
        obtain ⟨hbinding, hother⟩ := List.mem_filter.1 hbinding
        have hown : (e.key, e.registration) ∈ c.bindings :=
          List.mem_map.2 ⟨e, mem_of_entryAt? hentry, rfl⟩
        have heq := h.eq_of_registration hown hbinding hid hsame
        rw [← heq, key_of_entryAt? hentry] at hother
        exact of_decide_eq_true hother rfl
      · intro other hother
        obtain ⟨hdrawn, hfree⟩ := hother.filter fun other => other ≠ key
        constructor
        · rw [Hub.nextId_unregister]
          exact hdrawn
        · exact hfree
    · constructor
      · intro h
        exact h.filter fun other => other ≠ key
      · intro other hother
        exact hother.filter fun other => other ≠ key

theorem preserves_forgetAll : c.Preserves c.forgetAll :=
  .foldl (f := fun c (e : Entry) => c.forgetKey e.key) (fun _ e => preserves_forgetKey e.key)
    c.entries c

theorem preserves_forgetTouched (report : Report) (posted : List String) :
    c.Preserves (c.forgetTouched report posted) :=
  .foldl (f := fun c address => c.forget address)
    (fun _ address => preserves_forgetKey (Address.key address)) (touched report posted) c

theorem preserves_advance (job : Job) : c.Preserves (c.advance ticket job) := by
  unfold advance
  split
  · exact preserves_setFlight ticket _
  · exact .refl c

theorem preserves_resolve (outcome : Except Fault Resource) :
    c.Preserves (c.resolve ticket outcome) := by
  unfold resolve
  split
  · exact preserves_land _ _ _ _
  · exact .refl c

end ResourceClient.LiveCache

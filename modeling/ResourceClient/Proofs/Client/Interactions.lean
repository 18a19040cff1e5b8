import ResourceClient.Proofs.Cache.Forgetting
import ResourceClient.Proofs.Client.Producers
import ResourceClient.Proofs.Client.Reentry

/-!
A cache in a client that others listen in. Whatever is done to the client, by callers, by
producers or by listeners while they are called, no entry loses its registration but with itself;
so a write is forgotten exactly, at any time.
-/
namespace ResourceClient.Client

open LiveCache

/-- What others hold is no entry's. -/
structure Registered (c : Client) : Prop where
  cache : c.cache.Registered
  handles : ∀ name id, Table.get? c.handles name = some (.subscription id) → c.cache.Foreign id

variable {c d : Client}

theorem Registered.of_preserves (h : c.Registered) (hpreserves : c.cache.Preserves d.cache)
    (hhandles : d.handles = c.handles) : d.Registered where
  cache := hpreserves.registered h.cache
  handles := by
    intro name id hid
    rw [hhandles] at hid
    exact hpreserves.foreign (h.handles name id hid)

theorem Registered.mapCache (h : c.Registered) {f : LiveCache → LiveCache}
    (hf : c.cache.Preserves (f c.cache)) :
    (c.mapCache f).Registered :=
  h.of_preserves hf rfl

theorem Registered.erase (h : c.Registered) (name : String) :
    Client.Registered { c with handles := Table.erase name c.handles } where
  cache := h.cache
  handles := by
    intro other id hid
    rw [Table.get?_erase] at hid
    split at hid
    · cases hid
    · exact h.handles other id hid

theorem Registered.endHandle (h : c.Registered) {handle : Handle}
    (hforeign : ∀ id, handle = .subscription id → c.cache.Foreign id) :
    (c.endHandle handle).Registered := by
  cases handle with
  | subscription id => exact h.of_preserves (preserves_unregister (hforeign id rfl)) rfl
  | loss id => exact h.of_preserves (preserves_endOnLoss id) rfl
  | ended => exact h

theorem Registered.release (h : c.Registered) (name : String) : (c.release name).Registered := by
  unfold Client.release
  split
  · next handle hhandle =>
    apply (h.erase name).endHandle
    rintro id rfl
    exact h.handles name id hhandle
  · exact h

theorem preserves_release (h : c.Registered) (name : String) :
    c.cache.Preserves (c.release name).cache := by
  unfold Client.release
  split
  · next handle hhandle =>
    cases handle with
    | subscription id => exact preserves_unregister (h.handles name id hhandle)
    | loss id => exact preserves_endOnLoss id
    | ended => exact .refl c.cache
  · exact .refl c.cache

theorem Registered.keepHandle (h : c.Registered) (name : String) {handle : Handle}
    (hforeign : ∀ id, handle = .subscription id → c.cache.Foreign id) :
    (c.keepHandle name handle).Registered where
  cache := (h.release name).cache
  handles := by
    intro other id hid
    have hid : Table.get? (Table.insert name handle (c.release name).handles) other =
        some (.subscription id) := hid
    rw [Table.get?_insert] at hid
    split at hid
    · exact (preserves_release h name).foreign (hforeign id (Option.some.inj hid))
    · exact (h.release name).handles other id hid

theorem Registered.observe (h : c.Registered) (name address : String) (reactions : List Reaction) :
    (c.observe name address reactions).Registered := by
  have hregistered : (c.mapHub fun _ =>
      (c.hub.register address (.observer name reactions)).2).Registered :=
    h.of_preserves (preserves_register address _) rfl
  apply hregistered.keepHandle
  intro id hid
  cases hid
  exact h.cache.foreign_register address _

theorem Registered.observeLoss (h : c.Registered) (name : String) (reactions : List Reaction) :
    (c.observeLoss name reactions).Registered := by
  have hlistening : (c.mapHub fun _ => (c.hub.onLoss (.observer name reactions)).2).Registered :=
    h.of_preserves (preserves_onLoss _) rfl
  exact hlistening.keepHandle name nofun

theorem Registered.observeReservation (h : c.Registered) : c.observeReservation.Registered :=
  ⟨h.cache, h.handles⟩

theorem Registered.perform (h : c.Registered) (call : Call) : (c.perform call).2.Registered := by
  cases call with
  | note line => exact ⟨h.cache, h.handles⟩
  | react reaction =>
    cases reaction with
    | put address subkey resource => exact h.mapCache (preserves_put subkey address resource)
    | forget address => exact h.mapCache (preserves_forgetKey _)
    | forgetAll => exact h.mapCache preserves_forgetAll
    | release name => exact h.release name
    | announce address => exact h
    | setConnected connected => exact h.of_preserves (preserves_setConnected connected) rfl
  | notify listener key =>
    cases listener with
    | entry own => exact h.mapCache (preserves_forgetKey own)
    | observer name reactions => exact ⟨h.cache, h.handles⟩
    | _ => exact h
  | lost listener =>
    cases listener with
    | cache => exact h.mapCache preserves_forgetAll
    | observer name reactions => exact ⟨h.cache, h.handles⟩
    | _ => exact h

theorem Registered.settle (h : c.Registered) (calls : List Call) : (c.settle calls).Registered :=
  settle_rel (R := fun c d => c.Registered → d.Registered) (fun _ => id)
    (fun hfirst hthen => hthen ∘ hfirst)
    (fun call _ h => (Registered.perform h call).observeReservation) calls c h

theorem Registered.receive (h : c.Registered) (text : String) : (c.receive text).Registered := by
  unfold Client.receive
  split
  · exact h.settle _
  · exact h

theorem Registered.claim (h : c.Registered) (ticket : Ticket) : (c.claim ticket).2.Registered := by
  have hfree : Client.Registered { c with reservation := none } := ⟨h.cache, h.handles⟩
  unfold Client.claim
  dsimp only
  split
  · exact hfree
  · split
    · exact hfree
    · split
      · split
        · exact hfree.mapCache (preserves_fill _ _ _)
        · exact hfree
      · exact hfree

theorem Registered.memoize (h : c.Registered) (address subkey : String) (job : Job)
    (opening : List Call) :
    (c.memoize address subkey job opening).2.Registered := by
  unfold Client.memoize
  split
  · exact h.settle opening
  · have hensured := h.mapCache (preserves_ensure _ (Address.key_key address))
    dsimp only
    split
    · exact hensured
    · apply Registered.claim
      apply Registered.settle
      have hadded := hensured.mapCache
        (f := fun c => (c.addFlight (.running (Address.key address) subkey job)).2)
          (preserves_addFlight _)
      exact ⟨hadded.cache, hadded.handles⟩

theorem Registered.use (h : c.Registered) (u : CacheUse) : (c.use u).Registered := by
  cases u with
  | memoize address subkey job lines reactions => exact h.memoize address subkey job _
  | event e =>
    cases e with
    | memoize address subkey job lines => exact h.memoize address subkey job _
    | advance ticket job => exact h.mapCache (preserves_advance ticket job)
    | resolve ticket outcome => exact h.mapCache (preserves_resolve ticket outcome)
    | put address subkey resource => exact h.mapCache (preserves_put subkey address resource)
    | forget address => exact h.mapCache (preserves_forgetKey _)
    | forgetTouched report posted => exact h.mapCache (preserves_forgetTouched report posted)
    | forgetAll => exact h.mapCache preserves_forgetAll
    | announce address => exact h.settle _
    | receive text => exact h.receive text
    | setConnected connected => exact h.settle _

theorem Registered.serve (h : c.Registered) (e : HubEvent) : (c.serve e).Registered := by
  cases e with
  | observe name address reactions => exact h.observe name address reactions
  | observeLoss name reactions => exact h.observeLoss name reactions
  | act reaction => exact h.settle _
  | receive text => exact h.receive text

def interact (c : Client) : CacheUse ⊕ HubEvent → Client
  | .inl u => c.use u
  | .inr e => c.serve e

def interactAll (c : Client) (interactions : List (CacheUse ⊕ HubEvent)) : Client :=
  interactions.foldl interact c

theorem Registered.interactAll (h : c.Registered) (interactions : List (CacheUse ⊕ HubEvent)) :
    (c.interactAll interactions).Registered := by
  induction interactions generalizing c with
  | nil => exact h
  | cons interaction rest ih =>
    cases interaction with
    | inl u => exact ih (h.use u)
    | inr e => exact ih (h.serve e)

theorem registered_opened (config : Config) (schema : Schema) (connected : Bool) :
    (opened config schema connected).Registered where
  cache := ⟨List.nodup_nil, nofun, List.nodup_nil, nofun⟩
  handles := nofun

/-- At any time a write is forgotten exactly: the entries of the keys that it touches go with their
registrations, and nothing else does. In which order or how often its paths are named makes no
difference, and neither does it whether two writes are forgotten one after the other or as one. -/
theorem forgets_interactAll (config : Config) (schema : Schema) (connected : Bool)
    (interactions : List (CacheUse ⊕ HubEvent)) (report : Report) (posted : List String) :
    let c := ((opened config schema connected).interactAll interactions).cache
    Forgets (report.touches posted) c (c.forgetTouched report posted) ∧
      (∀ (other : Report) (later : List String), report.SameMembers other →
        (∀ path, path ∈ posted ↔ path ∈ later) →
        c.forgetTouched report posted = c.forgetTouched other later) ∧
      ∀ (other : Report) (later : List String),
        Agrees ((c.forgetTouched report posted).forgetTouched other later)
            (c.forgetTouched (report.extend other) (posted ++ later)) ∧
          Agrees ((c.forgetTouched other later).forgetTouched report posted)
            (c.forgetTouched (report.extend other) (posted ++ later)) := by
  intro c
  have hregistered : c.Registered :=
    ((registered_opened config schema connected).interactAll interactions).cache
  have hforgets := forgets_forgetTouched hregistered report posted
  refine ⟨hforgets, ?_, ?_⟩
  · intro other later hreport hposted
    rw [LiveCache.forgetTouched, LiveCache.forgetTouched, touched_congr hreport hposted]
  · intro other later
    constructor
    · apply agrees_of_touches hregistered
      intro key
      exact (touches_extend report other posted later key).symm
    · apply agrees_of_touches hregistered
      intro key
      rw [Bool.or_comm, touches_extend]

end ResourceClient.Client

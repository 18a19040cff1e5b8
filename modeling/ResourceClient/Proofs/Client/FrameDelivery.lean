import ResourceClient.Proofs.Cache.Listening
import ResourceClient.Proofs.Client.Interactions
import ResourceClient.Proofs.Push.Frames

/-!
Frames in a client that others listen in. Whatever has been done to the client, a frame that tells
of a change calls those who listen for the addresses that it names, one address after the other; if
they only write what they hear, the entries of these addresses go and nothing else is touched. No
other frame is heard at all.
-/
namespace ResourceClient

def Listener.line? (key : String) : Listener → Option String
  | .observer name _ => some (name ++ " " ++ key)
  | _ => none

namespace Client

open LiveCache

variable {c d : Client} {address text : String} {event : PushEvent}

theorem listens_release (h : c.cache.Listens) (name : String) : (c.release name).cache.Listens := by
  unfold release
  split
  · next handle _ =>
    cases handle with
    | subscription id => exact h.unregister id
    | loss id => exact h.of_eq rfl rfl rfl
    | ended => exact h
  · exact h

theorem listens_perform (h : c.cache.Listens) (call : Call) : (c.perform call).2.cache.Listens := by
  cases call with
  | note line => exact h
  | react reaction =>
    cases reaction with
    | put address subkey resource => exact h.put subkey address resource
    | forget address => exact h.forgetKey _
    | forgetAll => exact h.forgetAll
    | release name => exact listens_release h name
    | announce address => exact h
    | setConnected connected => exact h.setConnected connected
  | notify listener key =>
    cases listener with
    | entry own => exact h.forgetKey own
    | _ => exact h
  | lost listener =>
    cases listener with
    | cache => exact h.forgetAll
    | _ => exact h

theorem listens_settle (h : c.cache.Listens) (calls : List Call) :
    (c.settle calls).cache.Listens :=
  settle_rel (R := fun c d => c.cache.Listens → d.cache.Listens) (fun _ => id)
    (fun hfirst hthen => hthen ∘ hfirst) (fun call _ h => listens_perform h call) calls c h

theorem listens_claim (h : c.cache.Listens) (ticket : Ticket) :
    (c.claim ticket).2.cache.Listens := by
  unfold claim
  dsimp only
  split
  · exact h
  · split
    · exact h
    · split
      · split
        · exact h.fill _ _ _
        · exact h
      · exact h

theorem listens_memoize (h : c.cache.Listens) (address subkey : String) (job : Job)
    (opening : List Call) : (c.memoize address subkey job opening).2.cache.Listens := by
  unfold memoize
  split
  · exact listens_settle h opening
  · have hensured := h.ensure _ (Address.key_key address)
    dsimp only
    split
    · exact hensured
    · apply listens_claim
      apply listens_settle
      exact hensured.addFlight _

theorem listens_receive (h : c.cache.Listens) (text : String) : (c.receive text).cache.Listens := by
  unfold receive
  split
  · exact listens_settle h _
  · exact h

theorem listens_use (h : c.cache.Listens) (u : CacheUse) : (c.use u).cache.Listens := by
  cases u with
  | memoize address subkey job lines reactions => exact listens_memoize h address subkey job _
  | event e =>
    cases e with
    | memoize address subkey job lines => exact listens_memoize h address subkey job _
    | advance ticket job => exact h.advance ticket job
    | resolve ticket outcome => exact h.resolve ticket outcome
    | put address subkey resource => exact h.put subkey address resource
    | forget address => exact h.forgetKey _
    | forgetTouched report posted => exact h.forgetTouched report posted
    | forgetAll => exact h.forgetAll
    | announce address => exact listens_settle h _
    | receive text => exact listens_receive h text
    | setConnected connected => exact listens_settle h _

theorem listens_serve (h : c.cache.Listens) (e : HubEvent) : (c.serve e).cache.Listens := by
  cases e with
  | observe name address reactions =>
    have hregistered : (c.mapHub fun _ =>
        (c.hub.register address (.observer name reactions)).2).cache.Listens := h.register nofun
    exact listens_release hregistered name
  | observeLoss name reactions =>
    have hlistening : (c.mapHub fun _ =>
        (c.hub.onLoss (.observer name reactions)).2).cache.Listens := h.of_eq rfl rfl rfl
    exact listens_release hlistening name
  | act reaction => exact listens_settle h _
  | receive text => exact listens_receive h text

theorem reservation_release (c : Client) (name : String) :
    (c.release name).reservation = c.reservation := by
  unfold release
  split
  · exact reservation_endHandle _ _
  · rfl

theorem reservation_receive (h : c.reservation = none) (text : String) :
    (c.receive text).reservation = none := by
  unfold receive
  split
  · exact reservation_settle h _
  · exact h

theorem reservation_use (h : c.reservation = none) (u : CacheUse) :
    (c.use u).reservation = none := by
  cases u with
  | memoize address subkey job lines reactions => exact reservation_memoize h address subkey job _
  | event e =>
    cases e with
    | memoize address subkey job lines => exact reservation_memoize h address subkey job _
    | announce address => exact reservation_settle h _
    | receive text => exact reservation_receive h text
    | setConnected connected => exact reservation_settle h _
    | _ => exact h

theorem reservation_serve (h : c.reservation = none) (e : HubEvent) :
    (c.serve e).reservation = none := by
  cases e with
  | observe name address reactions => exact (reservation_release _ name).trans h
  | observeLoss name reactions => exact (reservation_release _ name).trans h
  | act reaction => exact reservation_settle h _
  | receive text => exact reservation_receive h text

structure Ready (c : Client) : Prop where
  registered : c.Registered
  listens : c.cache.Listens
  free : c.reservation = none

theorem Ready.interactAll (h : c.Ready) (interactions : List (CacheUse ⊕ HubEvent)) :
    (c.interactAll interactions).Ready := by
  induction interactions generalizing c with
  | nil => exact h
  | cons interaction rest ih =>
    cases interaction with
    | inl u => exact ih ⟨h.registered.use u, listens_use h.listens u, reservation_use h.free u⟩
    | inr e =>
      exact ih ⟨h.registered.serve e, listens_serve h.listens e, reservation_serve h.free e⟩

theorem ready_opened (config : Config) (schema : Schema) (connected : Bool) :
    (opened config schema connected).Ready where
  registered := registered_opened config schema connected
  listens := ⟨nofun, nofun⟩
  free := rfl

def call (listener : Listener) (key : String) (c : Client) : Client :=
  settleWithin (nestingLimit - 1) [.notify listener key] c

/-- Who is called is settled when the address is announced. -/
def dispatch (address : String) (c : Client) : Client :=
  (c.hub.listeners address).foldl (fun c l => c.call l (Address.key address)) c

theorem settleWithin_eq_foldl (depth : Nat) (calls : List Call) (c : Client) :
    settleWithin (depth + 1) calls c =
      calls.foldl (fun c call => settleWithin (depth + 1) [call] c) c := by
  induction calls generalizing c with
  | nil => rfl
  | cons call rest ih =>
    rw [settleWithin_cons, ih, List.foldl_cons, settleWithin_cons depth call [], settleWithin_nil]

theorem announce_eq_dispatch (h : c.reservation = none) (address : String) :
    c.announce address = c.dispatch address := by
  rw [announce, settle_singleton, perform, react, observeReservation_of_none h,
    settleWithin_eq_foldl, announcement, List.foldl_map]
  rfl

theorem foldl_announce_eq_dispatch (h : c.reservation = none) (addresses : List String) :
    addresses.foldl (fun c address => c.announce address) c =
      addresses.foldl (fun c address => c.dispatch address) c := by
  induction addresses generalizing c with
  | nil => rfl
  | cons address rest ih =>
    rw [List.foldl_cons, List.foldl_cons, ← announce_eq_dispatch h]
    exact ih (reservation_settle h _)

/-- What those who listen from outside write when they are told of an address. -/
def notices (c : Client) (address : String) : List String :=
  (c.hub.listeners address).filterMap (Listener.line? (Address.key address))

theorem lines_notify (l : Listener) (key : String) :
    (Call.notify l key).lines = (l.line? key).toList := by
  cases l <;> rfl

theorem lines_announcement (c : Client) (address : String) :
    (c.announcement address).flatMap Call.lines = c.notices address := by
  rw [announcement, notices, List.filterMap_eq_flatMap_toList, List.flatMap_map]
  simp only [lines_notify]

theorem notices_eq (c : Client) (address : String) :
    c.notices address =
      ((c.hub.subscriptions.filter fun s => !s.listener.isEntry).filter
        (·.key = Address.key address)).filterMap
          fun s => s.listener.line? (Address.key address) := by
  have hline : ∀ s : Subscription Listener, s.listener.isEntry = true →
      s.listener.line? (Address.key address) = none := by
    rintro ⟨id, key, listener⟩ hentry
    cases listener <;> first | rfl | cases hentry
  rw [notices, Hub.listeners, List.filterMap_map, List.filter_comm]
  induction c.hub.subscriptions.filter (·.key = Address.key address) with
  | nil => rfl
  | cons s rest ih =>
    rw [List.filter_cons, List.filterMap_cons, ih]
    cases hentry : s.listener.isEntry with
    | false => rfl
    | true => simp [hline s hentry]

theorem notices_congr (h : d.hub.subscriptions.filter (fun s => !s.listener.isEntry) =
    c.hub.subscriptions.filter fun s => !s.listener.isEntry) : d.notices = c.notices := by
  funext address
  rw [notices_eq, notices_eq, h]

theorem Ready.announce (h : c.Ready) (hquiet : ∀ l ∈ c.hub.listeners address, l.IsQuiet) :
    c.announce address =
      { c with
        cache := c.cache.notify address
        journal := c.journal ++ c.notices address } := by
  have hhear : (c.announcement address).foldl (fun cache call => call.onCache cache) c.cache =
      c.cache.notify address :=
    foldl_listeners_of (fun key hl => h.listens.key_of_mem_listeners key hl)
      (h.listens.mem_listeners h.registered.cache)
  rw [announce_of_isQuiet hquiet h.free, lines_announcement, hhear]

theorem Ready.foldl_announce (h : c.Ready) (addresses : List String)
    (hquiet : ∀ s ∈ c.hub.subscriptions, s.key ∈ addresses.map Address.key → s.listener.IsQuiet) :
    addresses.foldl (fun c address => c.announce address) c =
      { c with
        cache := addresses.foldl (fun cache address => cache.notify address) c.cache
        journal := c.journal ++ addresses.flatMap c.notices } := by
  induction addresses generalizing c with
  | nil => simp
  | cons address rest ih =>
    have hfirst : ∀ l ∈ c.hub.listeners address, l.IsQuiet := by
      intro l hl
      obtain ⟨s, hs, rfl⟩ := List.mem_map.1 hl
      obtain ⟨hs, hkey⟩ := List.mem_filter.1 hs
      apply hquiet s hs
      exact List.mem_map.2 ⟨address, List.mem_cons_self, (of_decide_eq_true hkey).symm⟩
    rw [List.foldl_cons, h.announce hfirst]
    have hforgets := forgets_notify h.registered.cache address
    have hothers := hforgets.others h.registered.cache
    -- The first address costs the cache its own listeners only.
    have hnotices : notices { c with
        cache := c.cache.notify address, journal := c.journal ++ c.notices address } = c.notices :=
      notices_congr hothers
    have hregistered : Client.Registered { c with
        cache := c.cache.notify address, journal := c.journal ++ c.notices address } :=
      h.registered.of_preserves (preserves_notify address) rfl
    rw [ih ⟨hregistered, h.listens.notify address, h.free⟩, hnotices]
    · simp
    · intro s hs hkey
      have hs : s ∈ c.hub.subscriptions := by
        have hs : s ∈ (c.cache.notify address).hub.subscriptions := hs
        rw [hforgets.subscriptions] at hs
        exact List.mem_of_mem_filter hs
      exact hquiet s hs (List.mem_cons_of_mem _ hkey)

/-- From `c` to `d` an event is made known. -/
structure Delivers (event : PushEvent) (c d : Client) : Prop where
  called : d = event.addresses.foldl (fun c address => c.dispatch address) c
  alone : (∀ s ∈ c.hub.subscriptions, s.key ∈ event.keys → s.listener.IsQuiet) →
    d = { c with cache := d.cache, journal := c.journal ++ event.addresses.flatMap c.notices } ∧
      Forgets (fun key => key ∈ event.keys ∧ key ∉ c.cache.exempt) c.cache d.cache ∧
      ∀ key subkey,
        d.cache.entryAt? key =
            (if key ∈ event.keys ∧ key ∉ c.cache.exempt then none else c.cache.entryAt? key) ∧
          d.cache.slot? key subkey =
            if key ∈ event.keys ∧ key ∉ c.cache.exempt then none else c.cache.slot? key subkey

theorem Ready.delivers (h : c.Ready) (hevent : PushEvent.ofText? text = some event) :
    Delivers event c (c.receive text) := by
  have hreceive : c.receive text =
      event.addresses.foldl (fun c address => c.announce address) c := by
    rw [receive_eq, hevent]
  constructor
  · rw [hreceive, foldl_announce_eq_dispatch h.free]
  · intro hquiet
    rw [hreceive, h.foldl_announce event.addresses hquiet]
    refine ⟨rfl, forgets_foldl_notify h.registered.cache event.addresses, fun key subkey => ?_⟩
    exact ⟨entryAt?_foldl_notify c.cache key event.addresses,
      slot?_foldl_notify c.cache key subkey event.addresses⟩

/-- After any interactions, a frame that tells of a change announces its addresses in turn, and any
other frame changes nothing. -/
theorem receive_interactAll (config : Config) (schema : Schema) (connected : Bool)
    (interactions : List (CacheUse ⊕ HubEvent)) (text : String) :
    let c := (opened config schema connected).interactAll interactions
    (∀ event : PushEvent, event.Tells text → Delivers event c (c.receive text)) ∧
      ((∀ event : PushEvent, ¬ event.Tells text) → c.receive text = c) := by
  intro c
  have hready : c.Ready := (ready_opened config schema connected).interactAll interactions
  constructor
  · intro event htells
    exact hready.delivers (PushEvent.ofText?_eq_some_iff.2 htells)
  · intro hnone
    rw [receive_eq]
    cases hevent : PushEvent.ofText? text with
    | none => rfl
    | some event => exact absurd (PushEvent.ofText?_eq_some_iff.1 hevent) (hnone event)

/-- The resource and its child are one address here, and somebody listens for another who would
forget everything. An error frame is heard by nobody. -/
theorem receive_interactAll_of_place :
    let page : Resource := { contentType := "page", path := .real "/a/" }
    let interactions : List (CacheUse ⊕ HubEvent) :=
      [.inr (.observe "x" "/a" []), .inr (.observe "y" "/b" [.forgetAll]),
        .inl (.event (.put "/a" "" page)), .inl (.event (.put "/b/" "" page))]
    let c := (opened {} {} true).interactAll interactions
    let d := c.receive "[\"modified\", \"/a\", \"/a//\"]"
    d.journal = ["x /a/", "x /a/"] ∧ d.cache.entryAt? "/a/" = none ∧
      (d.cache.entryAt? "/b/").isSome = true ∧
      c.receive "\x7b\"error\": \"a\", \"details\": \"b\"\x7d" = c := by
  intro page interactions c d
  obtain ⟨hfirst, -⟩ :=
    receive_interactAll {} {} true interactions "[\"modified\", \"/a\", \"/a//\"]"
  obtain ⟨-, hother⟩ :=
    receive_interactAll {} {} true interactions "\x7b\"error\": \"a\", \"details\": \"b\"\x7d"
  have htells : PushEvent.Tells "[\"modified\", \"/a\", \"/a//\"]"
      ⟨"modified", "/a", some "/a//", none⟩ := PushEvent.ofText?_eq_some_iff.1 (by decide +kernel)
  have hquiet : ∀ s ∈ c.hub.subscriptions, s.key ∈ ["/a/", "/a/"] → s.listener.IsQuiet := by
    decide +kernel
  have hnone : PushEvent.ofText? "\x7b\"error\": \"a\", \"details\": \"b\"\x7d" = none := by
    decide +kernel
  obtain ⟨hd, -, hcache⟩ := (hfirst _ htells).alone hquiet
  refine ⟨?_, ?_, ?_, ?_⟩
  · exact (congrArg Client.journal hd).trans (by decide +kernel)
  · exact (hcache "/a/" "").1.trans (if_pos (by decide +kernel))
  · rw [(hcache "/b/" "").1, if_neg (by decide +kernel)]
    decide +kernel
  · apply hother
    intro event hevent
    rw [PushEvent.ofText?_eq_some_iff.2 hevent] at hnone
    cases hnone

end Client

end ResourceClient

import ResourceClient.Proofs.Cache.Consistency
import ResourceClient.Proofs.Client.History

/-!
Reads whose producers use the cache while they are called. Nothing holds the slot meanwhile, it is
only watched; so what a producer does is done as if nobody were reading, and the new flight gets the
slot of the entry it was started for or none.
-/
namespace ResourceClient

namespace LiveCache

def undergoAll (c : LiveCache) (events : List CacheEvent) : LiveCache :=
  events.foldl (fun c e => c.undergo e) c

structure WellFormed (c : LiveCache) (exempt : List String) : Prop where
  inSync : c.InSync
  serving : c.Serving
  emptyOffline : c.EmptyOffline
  exempt : c.exempt = exempt

variable {c : LiveCache} {exempt : List String}

theorem WellFormed.consistent (h : c.WellFormed exempt) : c.Consistent exempt :=
  h.exempt ▸ LiveCache.consistent h.inSync h.serving h.emptyOffline

theorem WellFormed.undergo (h : c.WellFormed exempt) (e : CacheEvent) :
    (c.undergo e).WellFormed exempt where
  inSync := h.inSync.undergo e
  serving := h.serving.undergo e
  emptyOffline := h.emptyOffline.undergo e
  exempt := (exempt_undergo c e).trans h.exempt

theorem WellFormed.undergoAll (h : c.WellFormed exempt) (events : List CacheEvent) :
    (c.undergoAll events).WellFormed exempt := by
  induction events generalizing c with
  | nil => exact h
  | cons e rest ih => exact ih (h.undergo e)

theorem WellFormed.ensure (h : c.WellFormed exempt) (hlive : c.isLive = true) (address : String) :
    (c.ensure (Address.key address)).WellFormed exempt where
  inSync := h.inSync.ensure _ (Address.key_key address)
  serving := ⟨fun {key subkey ticket} hslot => by
    rw [slot?_ensure] at hslot
    rw [flights_ensure]
    exact h.serving.serves hslot⟩
  emptyOffline := EmptyOffline.of_connected (by
    rw [isLive, Bool.and_eq_true] at hlive
    exact (connected_ensure c _).trans hlive.2)
  exempt := (exempt_ensure c _).trans h.exempt

theorem WellFormed.addFlight (h : c.WellFormed exempt) (flight : Flight) :
    (c.addFlight flight).2.WellFormed exempt where
  inSync := h.inSync.addFlight flight
  serving := ⟨fun {key subkey ticket} hslot => by
    have hkept : ∀ {f}, c.flights[ticket]? = some f → (c.flights ++ [flight])[ticket]? = some f :=
      fun hf => (List.getElem?_append_left (List.getElem?_eq_some_iff.1 hf).1).trans hf
    rcases h.serving.serves hslot with ⟨job, hrunning⟩ | ⟨resource, hlanded⟩
    · exact .inl ⟨job, hkept hrunning⟩
    · exact .inr ⟨resource, hkept hlanded⟩⟩
  emptyOffline := ⟨h.emptyOffline.nothing⟩
  exempt := h.exempt

theorem WellFormed.fill (h : c.WellFormed exempt) {key subkey : String} {ticket : Ticket}
    {job : Job}
    (hrunning : c.flights[ticket]? = some (.running key subkey job)) :
    (c.fill key subkey ticket).WellFormed exempt where
  inSync := h.inSync.fill key subkey ticket
  serving := ⟨fun {other sub holder} hslot => by
    rw [slot?_fill_eq_ite] at hslot
    rw [flights_fill]
    split at hslot
    · next hsame =>
      obtain ⟨rfl, rfl, -⟩ := hsame
      obtain rfl := Option.some.inj hslot
      exact .inl ⟨job, hrunning⟩
    · exact h.serving.serves hslot⟩
  emptyOffline := h.emptyOffline.fill key subkey ticket
  exempt := h.exempt

end LiveCache

/-- What a reaction does to a cache that nobody else listens beside. -/
def Reaction.event? : Reaction → Option CacheEvent
  | .put address subkey resource => some (.put address subkey resource)
  | .forget address => some (.forget address)
  | .forgetAll => some .forgetAll
  | .release _ => none
  | .announce address => some (.announce address)
  | .setConnected connected => some (.setConnected connected)

theorem LiveCache.running_undergoAll {c : LiveCache} {ticket : Ticket} {key subkey : String}
    {job : Job} (h : c.flights[ticket]? = some (.running key subkey job))
    (reactions : List Reaction) :
    ∃ job, (c.undergoAll (reactions.filterMap Reaction.event?)).flights[ticket]? =
      some (.running key subkey job) := by
  induction reactions generalizing c job with
  | nil => exact ⟨job, h⟩
  | cons reaction rest ih =>
    rw [List.filterMap_cons]
    cases hevent : reaction.event? with
    | none => exact ih h
    | some e =>
      rcases running_undergo c e key subkey ticket h with ⟨job, hrunning⟩ | ⟨outcome, rfl, -⟩
      · exact ih hrunning
      · cases reaction <;> simp [Reaction.event?] at hevent

namespace Client

variable {c : Client}

def unreserved (c : Client) : Client := { c with reservation := none }

theorem release_unreserved (c : Client) (name : String) :
    c.unreserved.release name = (c.release name).unreserved := by
  have hhandles : c.unreserved.handles = c.handles := rfl
  rw [release, release, hhandles]
  cases Table.get? c.handles name with
  | none => rfl
  | some handle => cases handle <;> rfl

theorem perform_unreserved (c : Client) (call : Call) :
    c.unreserved.perform call = ((c.perform call).1, (c.perform call).2.unreserved) := by
  cases call with
  | note line => rfl
  | react reaction =>
    cases reaction with
    | release name => simp only [perform, react, release_unreserved]
    | _ => rfl
  | notify listener key => cases listener <;> rfl
  | lost listener => cases listener <;> rfl

theorem settleWithin_unreserved (depth : Nat) (calls : List Call) (c : Client) :
    settleWithin depth calls c.unreserved = (settleWithin depth calls c).unreserved := by
  induction depth generalizing calls c with
  | zero => rfl
  | succ depth ihDepth =>
    induction calls generalizing c with
    | nil => rfl
    | cons call rest ihRest =>
      rw [settleWithin_cons, settleWithin_cons, perform_unreserved, ← ihRest, ← ihDepth]
      rfl

theorem cache_settle_unreserved (calls : List Call) (c : Client) :
    (c.settle calls).cache = (c.unreserved.settle calls).cache := by
  rw [settle, settle, settleWithin_unreserved]
  rfl

theorem reservation_settle (hfree : c.reservation = none) (calls : List Call) :
    (c.settle calls).reservation = none := by
  have hsame : c.unreserved = c := by
    obtain ⟨⟩ := c
    obtain rfl := hfree
    rfl
  rw [← hsame, settle, settleWithin_unreserved]
  rfl

/-- It stays with its slot, whoever gets it. -/
def Reserves (c : Client) (r : Reservation) : Prop :=
  ∃ holder, c.reservation = some { r with holder }

theorem reservation_endHandle (handle : Handle) (c : Client) :
    (c.endHandle handle).reservation = c.reservation := by
  cases handle <;> rfl

theorem reservation_perform (call : Call) (c : Client) :
    (c.perform call).2.reservation = c.reservation := by
  cases call with
  | note line => rfl
  | react reaction =>
    cases reaction with
    | release name =>
      unfold perform react release
      dsimp only
      split
      · exact reservation_endHandle _ _
      · rfl
    | _ => rfl
  | notify listener key => cases listener <;> rfl
  | lost listener => cases listener <;> rfl

theorem Reserves.observe {r : Reservation} (h : c.Reserves r) :
    c.observeReservation.Reserves r := by
  obtain ⟨holder, hreserved⟩ := h
  unfold observeReservation
  rw [hreserved]
  dsimp only [Option.map_some]
  split
  · split
    · exact ⟨_, rfl⟩
    · exact ⟨holder, rfl⟩
  · exact ⟨holder, rfl⟩

theorem Reserves.settle {r : Reservation} (h : c.Reserves r) (calls : List Call) :
    (c.settle calls).Reserves r := by
  refine settle_rel (R := fun c d => c.Reserves r → d.Reserves r) (fun _ => id)
    (fun hfirst hthen => hthen ∘ hfirst) (fun call c h => Reserves.observe ?_) calls c h
  unfold Reserves
  rwa [reservation_perform]

theorem cache_claim {r : Reservation} (h : c.Reserves r) (ticket : Ticket) :
    (c.claim ticket).2.cache = c.cache ∨
      (c.claim ticket).2.cache = c.cache.fill r.key r.subkey ticket := by
  obtain ⟨holder, hreserved⟩ := h
  unfold claim
  rw [hreserved]
  dsimp only
  split
  · exact .inl rfl
  · split
    · split
      · exact .inr rfl
      · exact .inl rfl
    · exact .inl rfl

theorem reservation_claim (c : Client) (ticket : Ticket) :
    (c.claim ticket).2.reservation = none := by
  unfold claim
  dsimp only
  split
  · rfl
  · split
    · rfl
    · split
      · split <;> rfl
      · rfl

theorem handles_perform (h : c.handles = []) (call : Call) : (c.perform call).2.handles = [] := by
  cases call with
  | note line => exact h
  | react reaction =>
    cases reaction with
    | release name =>
      unfold perform react release
      rw [h]
      exact h
    | _ => exact h
  | notify listener key => cases listener <;> exact h
  | lost listener => cases listener <;> exact h

theorem handles_settle (h : c.handles = []) (calls : List Call) : (c.settle calls).handles = [] :=
  settle_rel (R := fun c d => c.handles = [] → d.handles = []) (fun _ => id)
    (fun hfirst hthen => hthen ∘ hfirst) (fun call _ h => handles_perform h call) calls c h

theorem handles_claim (c : Client) (ticket : Ticket) :
    (c.claim ticket).2.handles = c.handles := by
  unfold claim
  dsimp only
  split
  · rfl
  · split
    · rfl
    · split
      · split <;> rfl
      · rfl

theorem handles_memoize (h : c.handles = []) (address subkey : String) (job : Job)
    (opening : List Call) : (c.memoize address subkey job opening).2.handles = [] := by
  unfold memoize
  split
  · exact handles_settle h opening
  · dsimp only
    split
    · exact h
    · rw [handles_claim]
      apply handles_settle
      exact h

theorem handles_occur (h : c.handles = []) (e : CacheEvent) : (c.occur e).handles = [] := by
  cases e with
  | memoize address subkey job lines => exact handles_memoize h address subkey job _
  | announce address => exact handles_settle h _
  | receive text =>
    unfold occur receive
    dsimp only
    split
    · exact handles_settle h _
    · exact h
  | setConnected connected => exact handles_settle h _
  | _ => exact h

theorem settle_reaction (h : c.cache.InSync) (hfree : c.reservation = none)
    (hunheld : c.handles = []) (reaction : Reaction) :
    (c.settle [.react reaction]).cache = c.cache.undergoAll reaction.event?.toList := by
  cases reaction with
  | announce address => exact congrArg Client.cache (announce_eq h hfree address)
  | setConnected connected => exact congrArg Client.cache (setConnected_eq h hfree connected)
  | release name =>
    have hrelease : c.release name = c := by
      unfold release
      rw [hunheld]
      rfl
    rw [settle_singleton, perform, react, hrelease, settleWithin_nil]
    rfl
  | _ => rfl

theorem settle_reactions {exempt : List String} (h : c.cache.WellFormed exempt)
    (hfree : c.reservation = none) (hunheld : c.handles = []) (reactions : List Reaction) :
    (c.settle (reactions.map .react)).cache =
      c.cache.undergoAll (reactions.filterMap Reaction.event?) := by
  induction reactions generalizing c with
  | nil => rfl
  | cons reaction rest ih =>
    have hfirst := settle_reaction h.inSync hfree hunheld reaction
    rw [List.map_cons, settle_cons, ih (hfirst ▸ h.undergoAll _) (reservation_settle hfree _)
      (handles_settle hunheld _), hfirst, List.filterMap_cons]
    cases reaction.event? <;> rfl

def producing (lines : List String) (reactions : List Reaction) : List Call :=
  lines.map .note ++ reactions.map .react

theorem settle_append (calls more : List Call) (c : Client) :
    c.settle (calls ++ more) = (c.settle calls).settle more := by
  induction calls generalizing c with
  | nil => rfl
  | cons call rest ih => rw [List.cons_append, settle_cons, ih, ← settle_cons]

theorem settle_producing {exempt : List String} (h : c.cache.WellFormed exempt)
    (hunheld : c.handles = []) (lines : List String) (reactions : List Reaction) :
    (c.settle (producing lines reactions)).cache =
      c.cache.undergoAll (reactions.filterMap Reaction.event?) := by
  have hfree : c.unreserved.reservation = none := rfl
  rw [cache_settle_unreserved, producing, settle_append,
    settle_notes lines (observeReservation_of_none hfree)]
  apply settle_reactions
  · exact h
  · exact hfree
  · exact hunheld

theorem reserves_reserve {key : String} (hentry : (c.cache.entryAt? key).isSome = true)
    (subkey : String) :
    ∃ r, (c.reserve key subkey).Reserves r ∧ r.key = key ∧ r.subkey = subkey := by
  obtain ⟨e, he⟩ := Option.isSome_iff_exists.1 hentry
  refine ⟨{ key, since := e.since, subkey }, ⟨none, ?_⟩, rfl, rfl⟩
  rw [reserve, he, Option.map_some]

theorem wellFormed_claim {exempt : List String} (h : c.cache.WellFormed exempt) {r : Reservation}
    (hreserved : c.Reserves r) {ticket : Ticket} {job : Job}
    (hrunning : c.cache.flights[ticket]? = some (.running r.key r.subkey job)) :
    (c.claim ticket).2.cache.WellFormed exempt := by
  rcases cache_claim hreserved ticket with hkept | hfilled
  · rw [hkept]
    exact h
  · rw [hfilled]
    exact h.fill hrunning

theorem wellFormed_produce {exempt : List String} (h : c.cache.WellFormed exempt)
    (hunheld : c.handles = []) {key : String} (hentry : (c.cache.entryAt? key).isSome = true)
    {subkey : String} {ticket : Ticket} {job : Job}
    (hrunning : c.cache.flights[ticket]? = some (.running key subkey job)) (lines : List String)
    (reactions : List Reaction) :
    (((c.reserve key subkey).settle (producing lines reactions)).claim ticket).2.cache.WellFormed
      exempt := by
  obtain ⟨r, hreserved, rfl, rfl⟩ := reserves_reserve hentry subkey
  have hdone : ((c.reserve r.key r.subkey).settle (producing lines reactions)).cache =
      c.cache.undergoAll (reactions.filterMap Reaction.event?) :=
    settle_producing (c := c.reserve r.key r.subkey) h hunheld lines reactions
  obtain ⟨job, hstill⟩ := LiveCache.running_undergoAll hrunning reactions
  rw [← hdone] at hstill
  exact wellFormed_claim (hdone ▸ h.undergoAll _) (hreserved.settle _) hstill

theorem wellFormed_memoize {exempt : List String} (h : c.cache.WellFormed exempt)
    (hunheld : c.handles = []) (address subkey : String) (job : Job) (lines : List String)
    (reactions : List Reaction) :
    (c.memoize address subkey job (producing lines reactions)).2.cache.WellFormed exempt := by
  unfold memoize
  split
  · dsimp only
    rw [settle_producing h hunheld]
    exact h.undergoAll _
  · next hlive =>
    have hensured := h.ensure (by simpa using hlive) address
    dsimp only
    split
    · exact hensured
    · apply wellFormed_produce
      · exact hensured.addFlight _
      · exact hunheld
      · exact LiveCache.entryAt?_ensure_self (Address.key address) c.cache
      · exact List.getElem?_concat_length

end Client

/-- A use of the cache, by a caller or by a producer that it calls. -/
inductive CacheUse where
  | event (e : CacheEvent)
  | memoize (address subkey : String) (job : Job) (lines : List String) (reactions : List Reaction)

namespace Client

variable {c : Client}

def use (c : Client) : CacheUse → Client
  | .event e => c.occur e
  | .memoize address subkey job lines reactions =>
    (c.memoize address subkey job (producing lines reactions)).2

def useAll (c : Client) (uses : List CacheUse) : Client := uses.foldl use c

structure Idle (c : Client) (exempt : List String) : Prop where
  wellFormed : c.cache.WellFormed exempt
  free : c.reservation = none
  unheld : c.handles = []

theorem reservation_memoize (hfree : c.reservation = none) (address subkey : String) (job : Job)
    (opening : List Call) : (c.memoize address subkey job opening).2.reservation = none := by
  unfold memoize
  split
  · exact reservation_settle hfree opening
  · dsimp only
    split
    · exact hfree
    · exact reservation_claim _ _

theorem Idle.steady {exempt : List String} (h : c.Idle exempt) : c.Steady :=
  ⟨h.wellFormed.inSync, h.wellFormed.serving, h.free⟩

theorem Idle.use {exempt : List String} (h : c.Idle exempt) (u : CacheUse) :
    (c.use u).Idle exempt := by
  cases u with
  | event e =>
    obtain ⟨hcache, hfree⟩ := h.steady.occur_eq e
    exact ⟨hcache ▸ h.wellFormed.undergo e, hfree, handles_occur h.unheld e⟩
  | memoize address subkey job lines reactions =>
    exact ⟨wellFormed_memoize h.wellFormed h.unheld address subkey job lines reactions,
      reservation_memoize h.free address subkey job _,
      handles_memoize h.unheld address subkey job _⟩

theorem Idle.useAll {exempt : List String} (h : c.Idle exempt) (uses : List CacheUse) :
    (c.useAll uses).Idle exempt := by
  induction uses generalizing c with
  | nil => exact h
  | cons u rest ih => exact ih (h.use u)

theorem idle_opened (config : Config) (schema : Schema) (connected : Bool) :
    (opened config schema connected).Idle config.nonResourceUrls where
  wellFormed := {
    inSync := (steady_opened config schema connected).inSync
    serving := (steady_opened config schema connected).serving
    emptyOffline := ⟨fun _ => rfl⟩
    exempt := rfl }
  free := rfl
  unheld := rfl

/-- However a cache is used, from outside or by the producers of its reads, it stays consistent. -/
theorem consistent_useAll (config : Config) (schema : Schema) (connected : Bool)
    (uses : List CacheUse) :
    ((opened config schema connected).useAll uses).cache.Consistent config.nonResourceUrls := by
  have hidle : ((opened config schema connected).useAll uses).Idle config.nonResourceUrls :=
    (idle_opened config schema connected).useAll uses
  exact hidle.wellFormed.consistent

end Client

end ResourceClient

import Mathlib.Data.List.Induction
import ResourceClient.Proofs.Cache.Occupancy
import ResourceClient.Proofs.Client.Quiet

/-!
Histories of a client whose producers and listeners leave the cache alone. Its cache then
undergoes one event after the other, whatever order they come in, and whatever is in a slot was
put there by an event that nothing has undone since.
-/
namespace ResourceClient.Client

/-- What an event does to the client. A producer only writes its lines. -/
def occur (e : CacheEvent) (c : Client) : Client :=
  match e with
  | .memoize address subkey job lines => (c.memoize address subkey job (lines.map .note)).2
  | .advance ticket job => c.mapCache (LiveCache.advance ticket job)
  | .resolve ticket outcome => c.mapCache (LiveCache.resolve ticket outcome)
  | .put address subkey resource => c.mapCache (LiveCache.put address subkey resource)
  | .forget address => c.mapCache (LiveCache.forget address)
  | .forgetTouched report posted => c.mapCache (LiveCache.forgetTouched report posted)
  | .forgetAll => c.mapCache LiveCache.forgetAll
  | .announce address => c.announce address
  | .receive text => c.receive text
  | .setConnected connected => c.setConnected connected

def follow (events : List CacheEvent) (c : Client) : Client := events.foldl (fun c e => c.occur e) c

def opened (config : Config) (schema : Schema) (connected : Bool) : Client :=
  { config, schema, cache := LiveCache.onHub { connected } config.nonResourceUrls }

structure Steady (c : Client) : Prop where
  inSync : c.cache.InSync
  serving : c.cache.Serving
  /-- Nobody is in the middle of starting a read. -/
  free : c.reservation = none

variable {c : Client} (address subkey : String) (job : Job) (lines : List String)

@[simp] theorem follow_nil (c : Client) : c.follow [] = c := rfl

theorem follow_append (events more : List CacheEvent) (c : Client) :
    c.follow (events ++ more) = (c.follow events).follow more :=
  List.foldl_append

theorem follow_concat (events : List CacheEvent) (e : CacheEvent) (c : Client) :
    c.follow (events ++ [e]) = (c.follow events).occur e :=
  follow_append events [e] c

theorem memoize_of_not_live (hlive : c.cache.isLive = false) (hfree : c.reservation = none) :
    c.memoize address subkey job (lines.map .note) =
      (.own, { c with journal := c.journal ++ lines }) := by
  unfold memoize
  rw [hlive, settle_notes lines (observeReservation_of_none hfree)]
  rfl

theorem memoize_of_slot? (hlive : c.cache.isLive = true) {ticket : Ticket}
    (hslot : c.cache.slot? (Address.key address) subkey = some ticket) :
    c.memoize address subkey job (lines.map .note) = (.shared ticket, c) := by
  have hensure : c.mapCache (LiveCache.ensure (Address.key address)) = c := by
    unfold mapCache
    rw [LiveCache.ensure_of_isSome _ (LiveCache.entryAt?_isSome_of_slot? hslot)]
  unfold memoize
  dsimp only
  rw [hlive, hensure, hslot]
  rfl

theorem claim_settle_reserve {d : Client} {key : String} {e : Entry}
    (hentry : d.cache.entryAt? key = some e) (hslot : d.cache.slot? key subkey = none)
    (ticket : Ticket) :
    ((d.reserve key subkey).settle (lines.map .note)).claim ticket =
      (ticket,
        { d with
          cache := d.cache.fill key subkey ticket
          journal := d.journal ++ lines
          reservation := none }) := by
  have hempty : Table.get? e.slots subkey = none := by
    simpa [LiveCache.slot?, hentry] using hslot
  have hreserve : d.reserve key subkey =
      { d with reservation := some { key, since := e.since, subkey } } := by
    simp only [reserve, hentry, Option.map_some]
  have hobserve : (d.reserve key subkey).observeReservation = d.reserve key subkey := by
    rw [hreserve]
    simp only [observeReservation, Option.map_some, hentry, if_true, hempty]
  rw [settle_notes lines hobserve, hreserve]
  simp only [claim, hentry, if_true, mapCache]

theorem memoize_of_none (hlive : c.cache.isLive = true)
    (hslot : c.cache.slot? (Address.key address) subkey = none) :
    c.memoize address subkey job (lines.map .note) =
      (.shared c.cache.flights.length,
        { c with
          cache := c.cache.start (Address.key address) subkey job
          journal := c.journal ++ lines
          reservation := none }) := by
  have hensured :
      (c.cache.ensure (Address.key address)).slot? (Address.key address) subkey = none :=
    by rw [LiveCache.slot?_ensure, hslot]
  obtain ⟨e, hentry⟩ := Option.isSome_iff_exists.1
    (LiveCache.entryAt?_ensure_self (Address.key address) c.cache)
  have hclaim := claim_settle_reserve subkey lines
    (d := { c with cache := ((c.cache.ensure (Address.key address)).addFlight
      (.running (Address.key address) subkey job)).2 })
    hentry hensured c.cache.flights.length
  simp only [LiveCache.addFlight, LiveCache.flights_ensure] at hclaim
  unfold memoize
  simp only [hlive, mapCache, hensured, LiveCache.addFlight, LiveCache.flights_ensure, hclaim]
  simp [LiveCache.start, LiveCache.addFlight]

theorem memoize_of_empty (hlive : c.cache.isLive = true) (hfree : c.reservation = none)
    (hslot : c.cache.slot? (Address.key address) subkey = none) :
    c.memoize address subkey job (lines.map .note) =
      (.shared c.cache.flights.length,
        { c with
          cache := c.cache.start (Address.key address) subkey job
          journal := c.journal ++ lines }) := by
  rw [memoize_of_none address subkey job lines hlive hslot, ← hfree]

theorem foldl_announce (addresses : List String) (h : c.cache.InSync)
    (hfree : c.reservation = none) :
    (addresses.foldl (fun c address => c.announce address) c).cache =
        addresses.foldl (fun c address => c.notify address) c.cache ∧
      (addresses.foldl (fun c address => c.announce address) c).reservation = none := by
  induction addresses generalizing c with
  | nil => exact ⟨rfl, hfree⟩
  | cons address rest ih =>
    rw [List.foldl_cons, List.foldl_cons, announce_eq h hfree]
    exact ih (h.notify address) hfree

theorem Steady.receive (h : c.Steady) (text : String) :
    (c.receive text).cache = c.cache.undergo (.receive text) ∧
      (c.receive text).reservation = none := by
  rw [receive_eq, LiveCache.undergo]
  unfold LiveCache.addressesIn
  cases PushEvent.ofText? text with
  | none => exact ⟨rfl, h.free⟩
  | some event => exact foldl_announce event.addresses h.inSync h.free

theorem Steady.memoize (h : c.Steady) :
    (c.memoize address subkey job (lines.map .note)).2.cache =
        c.cache.undergo (.memoize address subkey job lines) ∧
      (c.memoize address subkey job (lines.map .note)).2.reservation = none := by
  rw [LiveCache.undergo]
  by_cases hlive : c.cache.isLive = true
  · cases hslot : c.cache.slot? (Address.key address) subkey with
    | none =>
      rw [memoize_of_empty _ _ _ _ hlive h.free hslot]
      exact ⟨by simp [hlive], h.free⟩
    | some ticket =>
      rw [memoize_of_slot? _ _ _ _ hlive hslot]
      exact ⟨by simp, h.free⟩
  · rw [memoize_of_not_live _ _ _ _ (by simpa using hlive) h.free]
    exact ⟨by simp [hlive], h.free⟩

theorem Steady.occur_eq (h : c.Steady) (e : CacheEvent) :
    (c.occur e).cache = c.cache.undergo e ∧ (c.occur e).reservation = none := by
  cases e with
  | memoize address subkey job lines => exact h.memoize address subkey job lines
  | announce address =>
    rw [occur, announce_eq h.inSync h.free]
    exact ⟨rfl, h.free⟩
  | receive text => exact h.receive text
  | setConnected connected =>
    rw [occur, setConnected_eq h.inSync h.free]
    exact ⟨rfl, h.free⟩
  | _ => exact ⟨rfl, h.free⟩

theorem Steady.occur (h : c.Steady) (e : CacheEvent) : (c.occur e).Steady where
  inSync := (h.occur_eq e).1 ▸ h.inSync.undergo e
  serving := (h.occur_eq e).1 ▸ h.serving.undergo e
  free := (h.occur_eq e).2

theorem Steady.follow (h : c.Steady) (events : List CacheEvent) : (c.follow events).Steady := by
  induction events generalizing c with
  | nil => exact h
  | cons e rest ih => exact ih (h.occur e)

theorem steady_opened (config : Config) (schema : Schema) (connected : Bool) :
    (opened config schema connected).Steady where
  inSync := {
    attached := rfl
    keys := List.nodup_nil
    normal := fun _ h => absurd h List.not_mem_nil
    exempted := fun _ h => absurd h List.not_mem_nil
    mirrored := fun s => by simp [opened, LiveCache.onHub, Hub.onLoss, LiveCache.bindings]
    ids := List.nodup_nil
    younger := fun _ h => absurd h List.not_mem_nil
    quiet := fun _ h => absurd h List.not_mem_nil
    listening := by simp [opened, LiveCache.onHub, Hub.onLoss]
    quietOnLoss := by simp [opened, LiveCache.onHub, Hub.onLoss, Listener.IsQuiet] }
  serving := ⟨fun {key subkey ticket} h => by
    simp [opened, LiveCache.onHub, LiveCache.slot?, LiveCache.entryAt?] at h⟩
  free := rfl

theorem Steady.length_le_follow (h : c.Steady) (events : List CacheEvent) :
    c.cache.flights.length ≤ (c.follow events).cache.flights.length := by
  induction events generalizing c with
  | nil => exact Nat.le_refl _
  | cons e rest ih =>
    have hstep : c.cache.flights.length ≤ (c.occur e).cache.flights.length := by
      rw [(h.occur_eq e).1, LiveCache.length_undergo]
      exact Nat.le_add_right _ _
    exact Nat.le_trans hstep (ih (h.occur e))

theorem Steady.slot?_occur (h : c.Steady) (e : CacheEvent) (key subkey : String) :
    (c.occur e).cache.slot? key subkey =
      if e.Fills c.cache key subkey then some c.cache.flights.length
      else if e.Empties c.cache key subkey then none
      else c.cache.slot? key subkey := by
  rw [(h.occur_eq e).1]
  exact LiveCache.slot?_undergo c.cache e key subkey h.serving

theorem Steady.exists_fills (h : c.Steady) {key subkey : String}
    (hempty : c.cache.slot? key subkey = none) {events : List CacheEvent} {ticket : Ticket}
    (hslot : (c.follow events).cache.slot? key subkey = some ticket) :
    ∃ before e since, events = before ++ e :: since ∧
      e.Fills (c.follow before).cache key subkey ∧
      (c.follow before).cache.flights.length = ticket ∧
      ∀ earlier d later, since = earlier ++ d :: later →
        ¬ d.Empties (c.follow (before ++ e :: earlier)).cache key subkey := by
  induction events using List.reverseRecOn with
  | nil => rw [follow_nil, hempty] at hslot; simp at hslot
  | append_singleton events last ih =>
    rw [follow_concat, (h.follow events).slot?_occur] at hslot
    split at hslot
    · next hfills =>
      refine ⟨events, last, [], rfl, hfills, by simpa using hslot, ?_⟩
      intro earlier d later hsplit
      simp at hsplit
    · split at hslot
      · simp at hslot
      · next hkept =>
        obtain ⟨before, e, since, rfl, hfills, hticket, hsince⟩ := ih hslot
        refine ⟨before, e, since ++ [last], by simp, hfills, hticket, ?_⟩
        intro earlier d later hsplit
        rcases List.eq_nil_or_concat later with rfl | ⟨later, final, rfl⟩
        · obtain ⟨rfl, hlast⟩ := List.append_inj' hsplit rfl
          obtain rfl : last = d := by simpa using hlast
          exact hkept
        · rw [List.concat_eq_append, ← List.cons_append, ← List.append_assoc] at hsplit
          exact hsince earlier d later (List.append_inj' hsplit rfl).1

theorem Steady.exists_empties (h : c.Steady) {key subkey : String} {events : List CacheEvent}
    (htaken : c.cache.slot? key subkey ≠ none)
    (hempty : (c.follow events).cache.slot? key subkey = none) :
    ∃ before d since, events = before ++ d :: since ∧
      d.Empties (c.follow before).cache key subkey := by
  induction events generalizing c with
  | nil => exact absurd hempty htaken
  | cons e rest ih =>
    by_cases hnext : (c.occur e).cache.slot? key subkey = none
    · refine ⟨[], e, rest, rfl, ?_⟩
      rw [h.slot?_occur] at hnext
      split at hnext
      · simp at hnext
      · split at hnext
        · assumption
        · exact absurd hnext htaken
    · obtain ⟨before, d, since, rfl, hd⟩ := ih (h.occur e) hnext hempty
      exact ⟨e :: before, d, since, rfl, hd⟩

end ResourceClient.Client

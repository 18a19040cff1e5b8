import ResourceClient.Proofs.Cache.Events

/-!
Who has a slot, and how flights end, one event at a time. A slot only ever changes hands through a
new flight, which has the next ticket; a flight keeps its ticket for ever, and stays as it is once
it has landed.
-/
namespace ResourceClient

@[simp] def CacheEvent.newFlights (e : CacheEvent) (c : LiveCache) : List Flight :=
  match e with
  | .memoize address subkey job _ =>
    if c.isLive ∧ c.slot? (Address.key address) subkey = none then
      [.running (Address.key address) subkey job]
    else []
  | .put _ _ resource => if c.isLive then [.landed (.ok resource)] else []
  | _ => []

namespace LiveCache

variable (c : LiveCache) (e : CacheEvent) (key subkey other sub : String) (ticket : Ticket)

@[simp] theorem flights_start (job : Job) :
    (c.start key subkey job).flights = c.flights ++ [.running key subkey job] := by
  simp [start, addFlight]

@[simp] theorem flights_notify (address : String) : (c.notify address).flights = c.flights := by
  unfold notify
  split
  · rfl
  · exact flights_forgetKey c _

theorem flights_foldl_notify (addresses : List String) :
    (addresses.foldl (fun c address => c.notify address) c).flights = c.flights := by
  induction addresses generalizing c with
  | nil => rfl
  | cons address rest ih => rw [List.foldl_cons, ih, flights_notify]

@[simp] theorem flights_setConnection (connected : Bool) :
    (c.setConnection connected).flights = c.flights := by
  unfold setConnection
  dsimp only
  split
  · exact flights_forgetAll _
  · rfl

theorem isRunning_iff :
    c.isRunning ticket = true ↔
      ∃ key subkey job, c.flights[ticket]? = some (.running key subkey job) := by
  unfold isRunning
  split
  · next h => simp [h]
  · next h => simpa using fun key subkey job => h key subkey job

theorem flights_resolve (outcome : Except Fault Resource) :
    (c.resolve ticket outcome).flights =
      if c.isRunning ticket then c.flights.set ticket (.landed outcome) else c.flights := by
  unfold resolve isRunning
  split
  · exact flights_land c _ _ ticket outcome
  · rfl

theorem flights_advance (job : Job) :
    (c.advance ticket job).flights = c.flights ∨
      ∃ key subkey old, c.flights[ticket]? = some (.running key subkey old) ∧
        (c.advance ticket job).flights = c.flights.set ticket (.running key subkey job) := by
  unfold advance
  split
  · next h => exact .inr ⟨_, _, _, h, rfl⟩
  · exact .inl rfl

theorem flights_undergo (h : ∀ ticket job, e ≠ .advance ticket job)
    (h' : ∀ ticket outcome, e ≠ .resolve ticket outcome) :
    (c.undergo e).flights = c.flights ++ e.newFlights c := by
  cases e with
  | memoize address sub job lines =>
    unfold undergo CacheEvent.newFlights
    dsimp only
    split
    · exact flights_start c _ _ job
    · exact (List.append_nil _).symm
  | advance ticket job => exact absurd rfl (h ticket job)
  | resolve ticket outcome => exact absurd rfl (h' ticket outcome)
  | put address sub resource =>
    unfold undergo CacheEvent.newFlights
    dsimp only
    rw [flights_put]
    split
    · rfl
    · exact (List.append_nil _).symm
  | forget address => simp [undergo, forget, CacheEvent.newFlights]
  | forgetTouched report posted => simp [undergo, CacheEvent.newFlights]
  | forgetAll => simp [undergo, CacheEvent.newFlights]
  | announce address => simp [undergo, CacheEvent.newFlights]
  | receive text => simp [undergo, flights_foldl_notify, CacheEvent.newFlights]
  | setConnected connected => simp [undergo, CacheEvent.newFlights]

theorem length_undergo :
    (c.undergo e).flights.length = c.flights.length + (e.newFlights c).length := by
  cases e with
  | advance ticket job =>
    have hboards : (CacheEvent.advance ticket job).newFlights c = [] := rfl
    rw [hboards]
    rcases flights_advance c ticket job with h | ⟨_, _, _, -, h⟩ <;> simp [undergo, h]
  | resolve ticket outcome =>
    have hboards : (CacheEvent.resolve ticket outcome).newFlights c = [] := rfl
    rw [hboards]
    simp only [undergo, flights_resolve]
    split <;> simp
  | _ => rw [flights_undergo, List.length_append] <;> intros <;> exact CacheEvent.noConfusion

theorem getElem?_snoc_iff {α : Type} {l : List α} {last value : α} {i : Nat} :
    (l ++ [last])[i]? = some value ↔ l[i]? = some value ∨ (i = l.length ∧ value = last) := by
  rw [List.getElem?_append]
  split
  · next hlt => simp [Nat.ne_of_lt hlt]
  · next hle =>
    rw [List.getElem?_eq_none (Nat.le_of_not_lt hle), List.getElem?_singleton]
    have hsub : i - l.length = 0 ↔ i = l.length := by omega
    simp [hsub, eq_comm]

theorem landed_undergo_iff (outcome : Except Fault Resource) :
    (c.undergo e).flights[ticket]? = some (.landed outcome) ↔
      c.flights[ticket]? = some (.landed outcome) ∨ e.Yields c ticket outcome := by
  cases e with
  | memoize address sub job lines =>
    rw [flights_undergo c _ (by simp) (by simp)]
    unfold CacheEvent.newFlights CacheEvent.Yields
    dsimp only
    split
    · simp [getElem?_snoc_iff]
    · simp
  | put address sub resource =>
    rw [flights_undergo c _ (by simp) (by simp)]
    unfold CacheEvent.newFlights CacheEvent.Yields
    dsimp only
    split
    · next hlive => simp [getElem?_snoc_iff, hlive]
    · next hlive => simp [hlive]
  | advance other job =>
    have hyields : ¬ (CacheEvent.advance other job).Yields c ticket outcome := id
    simp only [hyields, or_false, undergo]
    rcases flights_advance c other job with h | ⟨_, _, _, hrunning, h⟩
    · rw [h]
    · rw [h, List.getElem?_set]
      split
      · next heq =>
        subst heq
        rw [hrunning]
        split <;> simp
      · rfl
  | resolve other result =>
    simp only [undergo, flights_resolve, CacheEvent.Yields]
    split
    · next hrunning =>
      obtain ⟨_, _, _, hrunning'⟩ := (isRunning_iff c other).1 hrunning
      rw [List.getElem?_set]
      split
      · next heq =>
        subst heq
        have hlt := (List.getElem?_eq_some_iff.1 hrunning').1
        rw [hrunning', if_pos hlt]
        simp [hrunning, eq_comm]
      · next hne => simp [Ne.symm hne]
    · next hrunning =>
      refine ⟨.inl, ?_⟩
      rintro (h | ⟨-, -, h⟩)
      · exact h
      · exact absurd h hrunning
  | _ =>
    rw [flights_undergo c _ (by simp) (by simp)]
    simp [CacheEvent.newFlights, CacheEvent.Yields]

theorem running_undergo {job : Job} (h : c.flights[ticket]? = some (.running key subkey job)) :
    (∃ job, (c.undergo e).flights[ticket]? = some (.running key subkey job)) ∨
      ∃ outcome, e = .resolve ticket outcome ∧
        (c.undergo e).flights[ticket]? = some (.landed outcome) := by
  have hlt := (List.getElem?_eq_some_iff.1 h).1
  cases e with
  | advance other new =>
    refine .inl ?_
    simp only [undergo]
    rcases flights_advance c other new with hsame | ⟨_, _, _, hrunning, hset⟩
    · exact ⟨job, hsame ▸ h⟩
    · rw [hset, List.getElem?_set]
      split
      · next heq =>
        subst heq
        obtain ⟨rfl, rfl, -⟩ : _ ∧ _ ∧ _ := by simpa using h.symm.trans hrunning
        exact ⟨new, by simp [hlt]⟩
      · exact ⟨job, h⟩
  | resolve other outcome =>
    simp only [undergo, flights_resolve]
    by_cases heq : other = ticket
    · subst heq
      have hrunning := (isRunning_iff c other).2 ⟨_, _, _, h⟩
      exact .inr ⟨outcome, rfl, by simp [hrunning, hlt]⟩
    · refine .inl ⟨job, ?_⟩
      split
      · rw [List.getElem?_set_ne heq, h]
      · exact h
  | _ =>
    refine .inl ⟨job, ?_⟩
    rw [flights_undergo c _ (by simp) (by simp), List.getElem?_append_left hlt, h]

theorem slot?_start (job : Job) :
    (c.start key subkey job).slot? other sub =
      if other = key ∧ sub = subkey then some c.flights.length else c.slot? other sub := by
  unfold start
  have hsome : ((c.ensure key).addFlight (.running key subkey job)).2.entryAt? key |>.isSome :=
    entryAt?_ensure_self key c
  rw [slot?_fill_eq_ite, hsome]
  simp

theorem entryAt?_notify (address : String) :
    (c.notify address).entryAt? other =
      if other = Address.key address ∧ other ∉ c.exempt then none else c.entryAt? other := by
  unfold notify
  split
  · next hexempt =>
    rw [if_neg]
    rintro ⟨rfl, hnot⟩
    exact hnot hexempt
  · next hexempt =>
    rw [forget, entryAt?_forgetKey]
    by_cases hkey : other = Address.key address
    · simp [hkey, hexempt]
    · simp [hkey]

theorem entryAt?_foldl_notify (addresses : List String) :
    (addresses.foldl (fun c address => c.notify address) c).entryAt? other =
      if other ∈ addresses.map Address.key ∧ other ∉ c.exempt then none else c.entryAt? other := by
  induction addresses generalizing c with
  | nil => rfl
  | cons address rest ih =>
    rw [List.foldl_cons, ih, entryAt?_notify, exempt_notify]
    by_cases hexempt : other ∈ c.exempt
    · simp [hexempt]
    · by_cases hkey : other = Address.key address
      · subst hkey
        simp [hexempt]
      · simp [hexempt, hkey]

theorem slot?_notify (address : String) :
    (c.notify address).slot? other sub =
      if other = Address.key address ∧ other ∉ c.exempt then none else c.slot? other sub := by
  unfold slot?
  rw [entryAt?_notify]
  split <;> rfl

theorem slot?_foldl_notify (addresses : List String) :
    (addresses.foldl (fun c address => c.notify address) c).slot? other sub =
      if other ∈ addresses.map Address.key ∧ other ∉ c.exempt then none else c.slot? other sub := by
  unfold slot?
  rw [entryAt?_foldl_notify]
  split <;> rfl

theorem slot?_setConnection (connected : Bool) :
    (c.setConnection connected).slot? other sub =
      if connected = false ∧ c.hub.connected = true then none else c.slot? other sub := by
  unfold setConnection
  dsimp only
  split
  · exact slot?_forgetAll _ other sub
  · exact congrFun (congrFun (slot?_congr rfl) other) sub

/-- Every slot has a flight of its own, which is on its way or has come back with a resource. -/
structure Serving (c : LiveCache) : Prop where
  serves : ∀ {key subkey ticket}, c.slot? key subkey = some ticket →
    (∃ job, c.flights[ticket]? = some (.running key subkey job)) ∨
      ∃ resource, c.flights[ticket]? = some (.landed (.ok resource))

theorem slot?_resolve (h : c.Serving) (outcome : Except Fault Resource) :
    (c.resolve ticket outcome).slot? other sub =
      if c.slot? other sub = some ticket ∧ outcome.isOk = false ∧ c.isRunning ticket then none
      else c.slot? other sub := by
  unfold resolve isRunning
  cases hflight : c.flights[ticket]? with
  | none => simp
  | some flight =>
    cases flight with
    | landed result => simp
    | running key subkey job =>
      dsimp only
      rw [slot?_land]
      have hown : c.slot? other sub = some ticket → other = key ∧ sub = subkey := by
        intro hslot
        rcases h.serves hslot with ⟨_, hrunning⟩ | ⟨_, hlanded⟩
        · rw [hflight] at hrunning
          obtain ⟨rfl, rfl, -⟩ : _ ∧ _ ∧ _ := by simpa using hrunning
          exact ⟨rfl, rfl⟩
        · rw [hflight] at hlanded
          simp at hlanded
      by_cases hkey : other = key ∧ sub = subkey
      · obtain ⟨rfl, rfl⟩ := hkey
        simp [and_comm]
      · have hnot : c.slot? other sub ≠ some ticket := fun hslot => hkey (hown hslot)
        rw [if_neg fun hall => hkey ⟨hall.2.1, hall.2.2.1⟩, if_neg fun hall => hnot hall.1]

theorem slot?_undergo (h : c.Serving) :
    (c.undergo e).slot? key subkey =
      if e.Fills c key subkey then some c.flights.length
      else if e.Empties c key subkey then none
      else c.slot? key subkey := by
  cases e with
  | memoize address sub job lines =>
    by_cases hkey : key = Address.key address ∧ subkey = sub
    · obtain ⟨rfl, rfl⟩ := hkey
      by_cases hopen : c.isLive ∧ c.slot? (Address.key address) subkey = none
      · simp [slot?_start, hopen]
      · simp [hopen]
    · have hnot : ¬ (c.isLive = true ∧ key = Address.key address ∧ subkey = sub ∧
          c.slot? key subkey = none) := fun hall => hkey ⟨hall.2.1, hall.2.2.1⟩
      simp only [undergo, CacheEvent.Fills, CacheEvent.Starts, CacheEvent.Puts, hnot]
      split
      · simp [slot?_start, hkey]
      · simp
  | put address sub resource => simp [slot?_put]
  | forget address => simp [forget, slot?_forgetKey]
  | forgetTouched report posted => simp [slot?_forgetTouched]
  | forgetAll => simp
  | announce address => simp [slot?_notify]
  | receive text => simp [slot?_foldl_notify]
  | setConnected connected => simp [slot?_setConnection]
  | advance ticket job =>
    have hslot : (c.advance ticket job).slot? key subkey = c.slot? key subkey := by
      unfold advance
      split <;> rfl
    simp [hslot]
  | resolve ticket outcome =>
    rw [undergo, slot?_resolve c key subkey ticket h]
    have hempties : (CacheEvent.resolve ticket outcome).Empties c key subkey ↔
        c.slot? key subkey = some ticket ∧ outcome.isOk = false ∧ c.isRunning ticket := by
      simp
    simp only [hempties]
    simp

theorem flight_of_fills (h : e.Fills c key subkey) :
    (∃ job, (c.undergo e).flights[c.flights.length]? = some (.running key subkey job)) ∨
      ∃ resource, (c.undergo e).flights[c.flights.length]? = some (.landed (.ok resource)) := by
  rcases h with h | h
  · cases e with
    | memoize address sub job lines =>
      obtain ⟨hlive, rfl, rfl, hempty⟩ := h
      exact .inl ⟨job, by simp [hlive, hempty]⟩
    | _ => exact h.elim
  · cases e with
    | put address sub resource =>
      obtain ⟨hlive, -, -⟩ := h
      exact .inr ⟨resource, by simp [flights_put, hlive]⟩
    | _ => exact h.elim

theorem Serving.undergo {c : LiveCache} (h : c.Serving) (e : CacheEvent) :
    (c.undergo e).Serving where
  serves {key subkey ticket} hslot := by
    rw [slot?_undergo c e key subkey h] at hslot
    split at hslot
    · next hfills =>
      obtain rfl : c.flights.length = ticket := by simpa using hslot
      exact flight_of_fills c e key subkey hfills
    · next hfills =>
      split at hslot
      · simp at hslot
      · next hempties =>
        rcases h.serves hslot with ⟨job, hrunning⟩ | ⟨resource, hlanded⟩
        · rcases running_undergo c e key subkey ticket hrunning with hjob | ⟨outcome, rfl, hlanded⟩
          · exact .inl hjob
          · cases outcome with
            | ok resource => exact .inr ⟨resource, hlanded⟩
            | error fault =>
              have hruns := (isRunning_iff c ticket).2 ⟨_, _, _, hrunning⟩
              exact absurd (.inr ⟨ticket, hslot, rfl, rfl, hruns⟩) hempties
        · exact .inr ⟨resource, (landed_undergo_iff c e ticket _).2 (.inl hlanded)⟩

theorem flight_foldl_put (seeds : List Wire.Seed) {c : LiveCache} {ticket : Ticket}
    {flight : Flight} (h : c.flights[ticket]? = some flight) :
    (seeds.foldl (fun d s => d.put s.address "" s.resource) c).flights[ticket]? = some flight := by
  induction seeds generalizing c with
  | nil => exact h
  | cons s rest ih =>
    apply ih
    have hlt := (List.getElem?_eq_some_iff.1 h).1
    rw [flights_put]
    split
    · rw [List.getElem?_append_left hlt, h]
    · exact h

/-- A read of the slot is answered with the resource. -/
def Holds (c : LiveCache) (key subkey : String) (r : Resource) : Prop :=
  ∃ ticket, c.slot? key subkey = some ticket ∧ c.flights[ticket]? = some (.landed (.ok r))

theorem isLive_put (c : LiveCache) (address subkey : String) (resource : Resource) :
    (c.put address subkey resource).isLive = c.isLive := by
  have hensure : (c.ensure (Address.key address)).attached = c.attached := by
    unfold ensure
    split <;> rfl
  have hattached : (c.put address subkey resource).attached = c.attached := by
    unfold put
    split
    · exact hensure
    · rfl
  unfold isLive
  rw [hattached, connected_put]

namespace Holds

variable {c : LiveCache} {key subkey : String} {r : Resource}

theorem of_put (hlive : c.isLive = true) (address : String) :
    (c.put address subkey r).Holds (Address.key address) subkey r := by
  refine ⟨c.flights.length, ?_, ?_⟩
  · rw [slot?_put, if_pos ⟨hlive, rfl, rfl⟩]
  · rw [flights_put, if_pos hlive]
    simp

theorem put (h : c.Holds key subkey r) {address : String} (hother : Address.key address ≠ key)
    (resource : Resource) : (c.put address "" resource).Holds key subkey r := by
  obtain ⟨ticket, hslot, hflight⟩ := h
  refine ⟨ticket, ?_, flight_foldl_put [⟨address, resource⟩] hflight⟩
  rw [slot?_put, if_neg fun hself => hother hself.2.1.symm]
  exact hslot

theorem land (h : c.Holds key subkey r) {ticket : Ticket} {k sub : String} {job : Job}
    (hrunning : c.flights[ticket]? = some (.running k sub job)) (outcome : Except Fault Resource) :
    (c.land ticket k sub outcome).Holds key subkey r := by
  obtain ⟨holder, hslot, hflight⟩ := h
  have hne : ticket ≠ holder := by
    rintro rfl
    cases hrunning.symm.trans hflight
  refine ⟨holder, ?_, ?_⟩
  · rw [slot?_land, if_neg]
    · exact hslot
    · rintro ⟨-, rfl, rfl, hself⟩
      exact hne (Option.some.inj (hself.symm.trans hslot))
  · rw [flights_land, List.getElem?_set_ne hne]
    exact hflight

theorem foldl_put (h : c.Holds key "" r) (seeds : List Wire.Seed)
    (hothers : ∀ s ∈ seeds, Address.key s.address ≠ key) :
    (seeds.foldl (fun d s => d.put s.address "" s.resource) c).Holds key "" r := by
  induction seeds generalizing c with
  | nil => exact h
  | cons s rest ih =>
    have hput := h.put (hothers s List.mem_cons_self) s.resource
    exact ih hput fun t ht => hothers t (List.mem_cons_of_mem _ ht)

theorem of_putAll (hlive : c.isLive = true) (before after : List Wire.Seed) (s : Wire.Seed)
    (hlast : ∀ t ∈ after, Address.key t.address ≠ Address.key s.address) :
    ((before ++ s :: after).foldl (fun d s => d.put s.address "" s.resource) c).Holds
      (Address.key s.address) "" s.resource := by
  induction before generalizing c with
  | nil => exact (of_put hlive s.address).foldl_put after hlast
  | cons t rest ih => exact ih ((isLive_put ..).trans hlive)

end Holds

end LiveCache

end ResourceClient

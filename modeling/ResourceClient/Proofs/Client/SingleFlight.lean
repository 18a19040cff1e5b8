import ResourceClient.Proofs.Client.Polls

/-!
One request for all who read a slot together. A read starts a request exactly if the slot is empty;
else it joins the flight in the slot, whose outcome is settled once and is the same for everybody.
-/
namespace ResourceClient.Client

open CacheEvent

variable {c : Client} {key subkey : String} {ticket : Ticket}

theorem Steady.landed_follow_iff (h : c.Steady) (events : List CacheEvent)
    (outcome : Except Fault Resource) :
    (c.follow events).cache.flights[ticket]? = some (.landed outcome) ↔
      c.cache.flights[ticket]? = some (.landed outcome) ∨
        ∃ before e since, events = before ++ e :: since ∧
          e.Yields (c.follow before).cache ticket outcome := by
  induction events generalizing c with
  | nil => simp
  | cons e rest ih =>
    have hstep : (c.follow (e :: rest)) = (c.occur e).follow rest := rfl
    rw [hstep, ih (h.occur e), (h.occur_eq e).1, LiveCache.landed_undergo_iff, or_assoc]
    refine or_congr Iff.rfl ⟨?_, ?_⟩
    · rintro (hyields | ⟨before, d, since, rfl, hyields⟩)
      · exact ⟨[], e, rest, rfl, hyields⟩
      · exact ⟨e :: before, d, since, rfl, hyields⟩
    · rintro ⟨before, d, since, hsplit, hyields⟩
      cases before with
      | nil =>
        obtain ⟨rfl, rfl⟩ : e = d ∧ rest = since := by simpa using hsplit
        exact .inl hyields
      | cons first before =>
        obtain ⟨rfl, rfl⟩ : e = first ∧ rest = before ++ d :: since := by simpa using hsplit
        exact .inr ⟨before, d, since, rfl, hyields⟩

theorem Steady.resolve_error (h : c.Steady) (hrunning : c.cache.isRunning ticket = true)
    (fault : Fault) :
    (c.occur (.resolve ticket (.error fault))).cache.flights[ticket]? =
        some (.landed (.error fault)) ∧
      ∀ key subkey, (c.occur (.resolve ticket (.error fault))).cache.slot? key subkey =
        if c.cache.slot? key subkey = some ticket then none else c.cache.slot? key subkey := by
  refine ⟨?_, fun key subkey => ?_⟩
  · rw [(h.occur_eq _).1, LiveCache.landed_undergo_iff]
    exact .inr ⟨rfl, rfl, hrunning⟩
  · have hoccur : (c.occur (.resolve ticket (.error fault))).cache =
        c.cache.resolve ticket (.error fault) := rfl
    rw [hoccur, LiveCache.slot?_resolve c.cache key subkey ticket h.serving]
    simp [hrunning, Except.isOk, Except.toBool]

/-- How a client shares its reads after a history. -/
structure SharesReads (start : Client) (events : List CacheEvent) : Prop where
  starts : ∀ (address subkey : String) (job : Job) (lines : List String),
    let c := start.follow events
    let answer := c.memoize address subkey job (lines.map .note)
    c.cache.isLive = true → c.cache.slot? (Address.key address) subkey = none →
      answer.1 = .shared c.cache.flights.length ∧ answer.2.journal = c.journal ++ lines ∧
        answer.2.cache.flights =
          c.cache.flights ++ [.running (Address.key address) subkey job] ∧
        answer.2.cache.slot? (Address.key address) subkey = some c.cache.flights.length
  joins : ∀ (address subkey : String) (job : Job) (lines : List String) (ticket : Ticket),
    let c := start.follow events
    c.cache.isLive = true → c.cache.slot? (Address.key address) subkey = some ticket →
      c.memoize address subkey job (lines.map .note) = (.shared ticket, c)
  alone : ∀ (address subkey : String) (job : Job) (lines : List String),
    let c := start.follow events
    c.cache.isLive = false →
      c.memoize address subkey job (lines.map .note) =
        (.own, { c with journal := c.journal ++ lines })
  owned : ∀ key subkey ticket,
    (start.follow events).cache.slot? key subkey = some ticket →
      ∃ before e since, events = before ++ e :: since ∧
        e.Fills (start.follow before).cache key subkey ∧
        (start.follow before).cache.flights.length = ticket
  settles : ∀ ticket outcome,
    (start.follow events).cache.flights[ticket]? = some (.landed outcome) ↔
      ∃ before e since, events = before ++ e :: since ∧
        e.Yields (start.follow before).cache ticket outcome
  reaches : ∀ {σ : Type} (net : Network σ) (w : World σ) ticket outcome,
    w.client = start.follow events →
      w.client.cache.flights[ticket]? = some (.landed outcome) →
      (Flow.join ticket).poll net w = (.done outcome, w)
  /-- Whoever gets an outcome gets that of the flight, as the history goes on. -/
  agrees : ∀ {σ : Type} (net : Network σ) (w : World σ) ticket outcome,
    let answer := (Flow.join ticket).poll net w
    w.client = start.follow events →
      (∀ key subkey job, w.flight? ticket = some (.running key subkey job) → job.IsPlain) →
      answer.1 = .done outcome →
      ∃ more, answer.2.client.cache = (start.follow (events ++ more)).cache ∧
        answer.2.client.cache.flights[ticket]? = some (.landed outcome)
  fails : ∀ ticket fault,
    let c := start.follow events
    let failed := c.occur (.resolve ticket (.error fault))
    c.cache.isRunning ticket = true →
      failed.cache.flights[ticket]? = some (.landed (.error fault)) ∧
        ∀ key subkey, failed.cache.slot? key subkey =
          if c.cache.slot? key subkey = some ticket then none else c.cache.slot? key subkey
  /-- Between two requests for a slot it was emptied. -/
  once : ∀ key subkey before first between second since,
    events = before ++ first :: (between ++ second :: since) →
      first.Starts (start.follow before).cache key subkey →
      second.Starts (start.follow (before ++ first :: between)).cache key subkey →
      ∃ earlier d later, between = earlier ++ d :: later ∧
        d.Empties (start.follow (before ++ first :: earlier)).cache key subkey

theorem empty_of_starts {e : CacheEvent} {cache : LiveCache} (h : e.Starts cache key subkey) :
    cache.slot? key subkey = none := by
  cases e with
  | memoize address sub job lines => exact h.2.2.2
  | _ => exact h.elim

theorem Steady.exists_empties_of_starts (h : c.Steady) {first second : CacheEvent}
    {between : List CacheEvent} (hfirst : first.Starts c.cache key subkey)
    (hsecond : second.Starts (c.follow (first :: between)).cache key subkey) :
    ∃ earlier d later, between = earlier ++ d :: later ∧
      d.Empties (c.follow (first :: earlier)).cache key subkey := by
  have htaken : (c.occur first).cache.slot? key subkey ≠ none := by
    rw [h.slot?_occur, if_pos (.inl hfirst)]
    simp
  exact (h.occur first).exists_empties htaken (empty_of_starts hsecond)

theorem sharesReads_opened (config : Config) (schema : Schema) (connected : Bool)
    (events : List CacheEvent) : SharesReads (opened config schema connected) events := by
  have hstart : (opened config schema connected).Steady := steady_opened config schema connected
  have hnow := hstart.follow events
  refine {
    starts := ?_, joins := ?_, alone := ?_, owned := ?_, settles := ?_, reaches := ?_, agrees := ?_
    fails := ?_, once := ?_ }
  · intro address subkey job lines c answer hlive hslot
    have hanswer : answer = _ := memoize_of_empty address subkey job lines hlive hnow.free hslot
    rw [hanswer]
    refine ⟨rfl, rfl, LiveCache.flights_start _ _ _ job, ?_⟩
    rw [LiveCache.slot?_start, if_pos ⟨rfl, rfl⟩]
  · intro address subkey job lines ticket c hlive hslot
    exact memoize_of_slot? address subkey job lines hlive hslot
  · intro address subkey job lines c hlive
    exact memoize_of_not_live address subkey job lines hlive hnow.free
  · intro key subkey ticket hslot
    obtain ⟨before, e, since, hsplit, hfills, hticket, -⟩ := hstart.exists_fills rfl hslot
    exact ⟨before, e, since, hsplit, hfills, hticket⟩
  · intro ticket outcome
    rw [hstart.landed_follow_iff]
    simp [opened, LiveCache.onHub]
  · intro σ net w ticket outcome _ hlanded
    exact Flow.poll_join_of_landed net hlanded
  · intro σ net w ticket outcome answer hclient hplain hdone
    obtain ⟨hlanded, hworld⟩ := Flow.landed_of_poll_join net hdone
    obtain ⟨more, hmore⟩ := World.exists_cache_drive net hplain
    refine ⟨more, ?_, hlanded⟩
    rw [follow_append, ← hclient, ← hmore, ← hworld]
  · intro ticket fault c failed hrunning
    exact hnow.resolve_error hrunning fault
  · rintro key subkey before first between second since rfl hfirst hsecond
    rw [follow_append] at hsecond
    obtain ⟨earlier, d, later, hsplit, hempties⟩ :=
      (hstart.follow before).exists_empties_of_starts hfirst hsecond
    refine ⟨earlier, d, later, hsplit, ?_⟩
    rw [follow_append]
    exact hempties

end ResourceClient.Client

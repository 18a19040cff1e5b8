import ResourceClient.Proofs.Client.History

namespace ResourceClient.Client

open CacheEvent

variable {c : Client} {key subkey : String} {events : List CacheEvent} {ticket : Ticket}

theorem not_fills_of_drops {e : CacheEvent} {cache : LiveCache} (h : e.Drops cache key) :
    ¬ e.Fills cache key subkey := by
  rintro (hstarts | hputs)
  · cases e <;> first | exact h | exact hstarts
  · cases e <;> first | exact h | exact hputs

theorem Steady.slot?_of_drops (h : c.Steady) {e : CacheEvent} (he : e.Drops c.cache key) :
    (c.occur e).cache.slot? key subkey = none := by
  rw [h.slot?_occur, if_neg (not_fills_of_drops he), if_pos (.inl he)]

theorem Steady.length_le_of_drops (h : c.Steady) {before since : List CacheEvent} {d : CacheEvent}
    (hd : d.Drops (c.follow before).cache key)
    (hslot : (c.follow (before ++ d :: since)).cache.slot? key subkey = some ticket) :
    (c.follow before).cache.flights.length ≤ ticket := by
  have hbefore := h.follow before
  rw [follow_append] at hslot
  obtain ⟨earlier, e, later, -, -, hticket, -⟩ :=
    (hbefore.occur d).exists_fills (hbefore.slot?_of_drops hd) hslot
  have hdropped := hbefore.length_le_follow [d]
  have hfilled := (hbefore.occur d).length_le_follow earlier
  rw [← hticket]
  exact Nat.le_trans hdropped hfilled

/-- A read that a slot answers gets what was started or put after the last invalidation of its key,
and no read at all gets what was on its way during one. -/
theorem memoize_fresh (config : Config) (schema : Schema) (connected : Bool)
    (events : List CacheEvent) (address subkey : String) (job : Job) (lines : List String)
    {ticket : Ticket}
    (hlease : (((opened config schema connected).follow events).memoize address subkey job
      (lines.map .note)).1 = .shared ticket) :
    let c := opened config schema connected
    let key := Address.key address
    ((c.follow events).cache.slot? key subkey ≠ none →
      ∃ before e since, events = before ++ e :: since ∧
        e.Fills (c.follow before).cache key subkey ∧
        (c.follow before).cache.flights.length = ticket ∧
        ∀ earlier d later, since = earlier ++ d :: later →
          ¬ d.Drops (c.follow (before ++ e :: earlier)).cache key) ∧
    ∀ before d since, events = before ++ d :: since →
      d.Drops (c.follow before).cache key → (c.follow before).cache.flights.length ≤ ticket := by
  intro c key
  have hsteady : c.Steady := steady_opened config schema connected
  have hnow := hsteady.follow events
  by_cases hlive : (c.follow events).cache.isLive = true
  · cases hslot : (c.follow events).cache.slot? key subkey with
    | none =>
      rw [memoize_of_empty address subkey job lines hlive hnow.free hslot] at hlease
      obtain rfl := Lease.shared.inj hlease
      refine ⟨fun h => absurd rfl h, ?_⟩
      rintro before d since rfl -
      rw [follow_append]
      exact (hsteady.follow before).length_le_follow (d :: since)
    | some holder =>
      rw [memoize_of_slot? address subkey job lines hlive hslot] at hlease
      obtain rfl := Lease.shared.inj hlease
      refine ⟨fun _ => ?_, ?_⟩
      · obtain ⟨before, e, since, hsplit, hfills, hticket, hsince⟩ :=
          hsteady.exists_fills rfl hslot
        refine ⟨before, e, since, hsplit, hfills, hticket, ?_⟩
        intro earlier d later hlater hdrops
        exact hsince earlier d later hlater (.inl hdrops)
      · rintro before d since rfl hdrops
        exact hsteady.length_le_of_drops hdrops hslot
  · rw [memoize_of_not_live address subkey job lines (by simpa using hlive) hnow.free] at hlease
    simp at hlease

/-- A read after a change gets a flight of its own, and the one after it shares that. -/
theorem memoize_fresh_after_forget :
    let job : Job := .script { label := "read", outcome := .error .unreadable }
    let c := opened {} {} true
    ((c.follow [.memoize "/a/" "" job [], .forget "/a", .memoize "/a" "" job []]).memoize
        "/a/" "" job []).1 = .shared 1 ∧
      (c.follow [.memoize "/a/" "" job []]).cache.flights.length ≤ 1 := by
  intro job c
  have hlease : ((c.follow [.memoize "/a/" "" job [], .forget "/a",
      .memoize "/a" "" job []]).memoize "/a/" "" job []).1 = .shared 1 := by decide +kernel
  have hfresh := memoize_fresh {} {} true _ "/a/" "" job [] hlease
  exact ⟨hlease, hfresh.2 [.memoize "/a/" "" job []] (.forget "/a") [_] rfl (by decide +kernel)⟩

end ResourceClient.Client

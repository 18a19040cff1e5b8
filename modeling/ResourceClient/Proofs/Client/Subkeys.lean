import ResourceClient.Proofs.Address.Queries
import ResourceClient.Proofs.Client.History

/-!
Slots of their own. No two slots hold one flight, whatever has happened to the cache, and the subkey
of a read tells all of its parameters; so reads of one address share an answer only if they ask for
the same.
-/
namespace ResourceClient

namespace LiveCache

structure Apart (c : LiveCache) : Prop where
  same : ∀ {key subkey other sub ticket}, c.slot? key subkey = some ticket →
    c.slot? other sub = some ticket → key = other ∧ subkey = sub

variable {c : LiveCache} {key subkey other sub : String} {ticket : Ticket}

theorem Serving.lt_length (h : c.Serving) (hslot : c.slot? key subkey = some ticket) :
    ticket < c.flights.length := by
  rcases h.serves hslot with ⟨job, hrunning⟩ | ⟨resource, hlanded⟩
  · exact (List.getElem?_eq_some_iff.1 hrunning).1
  · exact (List.getElem?_eq_some_iff.1 hlanded).1

theorem fills_same {e : CacheEvent} (h : e.Fills c key subkey) (h' : e.Fills c other sub) :
    key = other ∧ subkey = sub := by
  cases e with
  | memoize address _ _ _ =>
    obtain ⟨-, rfl, rfl, -⟩ | h := h
    · obtain ⟨-, rfl, rfl, -⟩ | h' := h'
      · exact ⟨rfl, rfl⟩
      · exact h'.elim
    · exact h.elim
  | put address _ _ =>
    obtain h | ⟨-, rfl, rfl⟩ := h
    · exact h.elim
    · obtain h' | ⟨-, rfl, rfl⟩ := h'
      · exact h'.elim
      · exact ⟨rfl, rfl⟩
  | _ => exact (or_self_iff.1 h).elim

theorem Serving.slot?_of_undergo (h : c.Serving) {e : CacheEvent}
    (hslot : (c.undergo e).slot? key subkey = some ticket) :
    (e.Fills c key subkey ∧ ticket = c.flights.length) ∨ c.slot? key subkey = some ticket := by
  rw [slot?_undergo c e key subkey h] at hslot
  split at hslot
  · next hfills => exact .inl ⟨hfills, (Option.some.inj hslot).symm⟩
  · split at hslot
    · cases hslot
    · exact .inr hslot

theorem Apart.undergo (h : c.Apart) (hserving : c.Serving) (e : CacheEvent) :
    (c.undergo e).Apart where
  same {key subkey other sub ticket} hslot hother := by
    rcases hserving.slot?_of_undergo hslot with ⟨hfills, rfl⟩ | hslot
    · rcases hserving.slot?_of_undergo hother with ⟨hfills', -⟩ | hother
      · exact fills_same hfills hfills'
      · exact absurd (hserving.lt_length hother) (Nat.lt_irrefl _)
    · rcases hserving.slot?_of_undergo hother with ⟨-, rfl⟩ | hother
      · exact absurd (hserving.lt_length hslot) (Nat.lt_irrefl _)
      · exact h.same hslot hother

end LiveCache

namespace Client

theorem Steady.apart_follow {c : Client} (h : c.Steady) (hapart : c.cache.Apart)
    (events : List CacheEvent) : (c.follow events).cache.Apart := by
  induction events generalizing c with
  | nil => exact hapart
  | cons e rest ih =>
    refine ih (h.occur e) ?_
    rw [(h.occur_eq e).1]
    exact hapart.undergo h.serving e

theorem apart_opened (config : Config) (schema : Schema) (connected : Bool) :
    (opened config schema connected).cache.Apart where
  same hslot := by cases hslot

/-- Different parameters have different subkeys, and no slot in common. -/
theorem subkeys_tell_apart (config : Config) (schema : Schema) (connected : Bool)
    (events : List CacheEvent) (params other : Table String) :
    let cache := ((opened config schema connected).follow events).cache
    (Query.render params = Query.render other ↔ params = other) ∧
      ∀ key elsewhere, (∃ ticket, cache.slot? key (Query.render params) = some ticket ∧
          cache.slot? elsewhere (Query.render other) = some ticket) ↔
        key = elsewhere ∧ params = other ∧
          (cache.slot? key (Query.render params)).isSome = true := by
  intro cache
  refine ⟨⟨Query.render_inj, fun h => h ▸ rfl⟩, fun key elsewhere => ⟨?_, ?_⟩⟩
  · rintro ⟨ticket, hslot, hother⟩
    have hapart : cache.Apart :=
      (steady_opened config schema connected).apart_follow
        (apart_opened config schema connected) events
    obtain ⟨hkey, hsubkey⟩ := hapart.same hslot hother
    exact ⟨hkey, Query.render_inj hsubkey, Option.isSome_of_eq_some hslot⟩
  · rintro ⟨rfl, rfl, htaken⟩
    obtain ⟨ticket, hslot⟩ := Option.isSome_iff_exists.1 htaken
    exact ⟨ticket, hslot, hslot⟩

end Client

end ResourceClient

import ResourceClient.Proofs.Client.History
import ResourceClient.Proofs.Client.RelyGuarantee

/-!
A poll of a flight is a short history of the cache: the flight makes progress, or the elements
that came with its answer are put and then it lands. Whoever waits for it gets the outcome it
landed with.
-/
namespace ResourceClient

/-- A read that does nothing else when it comes to its end. -/
def Job.IsPlain : Job → Prop
  | .fetch _ => True
  | .answer .. => True
  | .script course => course.late = []

def Wire.Seed.event (s : Wire.Seed) : CacheEvent := .put s.address "" s.resource

namespace Client

theorem cache_settle_note (line : String) (c : Client) :
    (c.settle [.note line]).cache = c.cache := by
  rw [settle_singleton, perform, settleWithin_nil]
  rfl

def seedsIn (plan : Fetch) (answer : Except Fault Response) (c : Client) : List Wire.Seed :=
  match answer.bind Response.successBody, plan.listing with
  | .ok wire, some mode => (Wire.importListing c.schema mode wire c.names).seeds
  | _, _ => []

theorem foldl_seed (seeds : List Wire.Seed) (c : Client) :
    seeds.foldl (fun c s => c.seed s) c =
      { c with cache := seeds.foldl (fun d s => d.put s.address "" s.resource) c.cache } := by
  induction seeds generalizing c with
  | nil => rfl
  | cons s rest ih => exact ih (c.seed s)

theorem exists_absorb (plan : Fetch) (answer : Except Fault Response) (c : Client) :
    ∃ names, (c.absorb plan answer).2 =
      { c with
        names
        cache := (c.seedsIn plan answer).foldl (fun d s => d.put s.address "" s.resource)
          c.cache } := by
  unfold absorb seedsIn
  cases answer.bind Response.successBody with
  | error fault => exact ⟨c.names, rfl⟩
  | ok wire =>
    dsimp only
    unfold importWire
    cases plan.listing with
    | none => exact ⟨_, rfl⟩
    | some mode => exact ⟨_, foldl_seed _ _⟩

theorem snd_absorb {plan : Fetch} (hplain : plan.listing = none) (answer : Except Fault Response)
    (c : Client) : ∃ names, (c.absorb plan answer).2 = { c with names } := by
  obtain ⟨names, habsorb⟩ := c.exists_absorb plan answer
  have hseeds : c.seedsIn plan answer = [] := by
    unfold seedsIn
    rw [hplain]
    cases answer.bind Response.successBody <;> rfl
  rw [hseeds] at habsorb
  exact ⟨names, habsorb⟩

theorem cache_follow_seeds (seeds : List Wire.Seed) (c : Client) :
    (c.follow (seeds.map Wire.Seed.event)).cache =
      seeds.foldl (fun d s => d.put s.address "" s.resource) c.cache := by
  induction seeds generalizing c with
  | nil => rfl
  | cons s rest ih => exact ih (c.occur s.event)

end Client

theorem LiveCache.resolve_of_running {c : LiveCache} {ticket : Ticket} {key subkey : String}
    {job : Job} (h : c.flights[ticket]? = some (.running key subkey job))
    (outcome : Except Fault Resource) :
    c.resolve ticket outcome = c.land ticket key subkey outcome := by
  simp only [resolve, h]

theorem LiveCache.advance_of_running {c : LiveCache} {ticket : Ticket} {key subkey : String}
    {job : Job} (h : c.flights[ticket]? = some (.running key subkey job)) (next : Job) :
    c.advance ticket next = c.setFlight ticket (.running key subkey next) := by
  simp only [advance, h]

namespace World

variable {σ : Type} (net : Network σ) {w : World σ} {ticket : Ticket} {key subkey : String}

/-- What a poll does to the cache is a history of it. -/
theorem exists_cache_driveJob {job : Job} (hplain : job.IsPlain)
    (hrunning : w.flight? ticket = some (.running key subkey job)) :
    ∃ events, (w.driveJob net ticket key subkey job).client.cache =
      (w.client.follow events).cache := by
  have hflight : w.client.cache.flights[ticket]? = some (.running key subkey job) := hrunning
  cases job with
  | fetch plan =>
    cases hrequest : w.client.fetchRequest plan with
    | error fault =>
      refine ⟨[.resolve ticket (.error fault)], ?_⟩
      simp only [driveJob, hrequest]
      exact (LiveCache.resolve_of_running hflight (.error fault)).symm
    | ok request =>
      refine ⟨[.advance ticket (.answer plan request)], ?_⟩
      simp only [driveJob, hrequest]
      exact (LiveCache.advance_of_running hflight _).symm
  | answer plan request =>
    obtain ⟨names, habsorb⟩ := w.client.exists_absorb plan (net.answer request w.remote).1
    have hcache := congrArg Client.cache habsorb
    refine ⟨(w.client.seedsIn plan (net.answer request w.remote).1).map Wire.Seed.event ++
      [.resolve ticket (w.client.absorb plan (net.answer request w.remote).1).1], ?_⟩
    have hstill := LiveCache.flight_foldl_put
      (w.client.seedsIn plan (net.answer request w.remote).1) hflight
    rw [Client.follow_concat, Client.occur, Client.mapCache]
    dsimp only
    rw [Client.cache_follow_seeds, LiveCache.resolve_of_running hstill]
    dsimp only at hcache
    rw [← hcache]
    rfl
  | script course =>
    have hlate : course.late = [] := hplain
    cases hpending : course.pending with
    | zero =>
      refine ⟨[.resolve ticket course.outcome], ?_⟩
      have hconclude : (w.conclude course).client.cache = w.client.cache := by
        rw [conclude, hlate]
        exact Client.cache_settle_note _ w.client
      simp only [driveJob, hpending]
      refine Eq.trans ?_ (LiveCache.resolve_of_running hflight _).symm
      exact congrArg (LiveCache.land ticket key subkey course.outcome) hconclude
    | succ n =>
      refine ⟨[.advance ticket (.script { course with pending := n })], ?_⟩
      simp only [driveJob, hpending]
      exact (LiveCache.advance_of_running hflight _).symm

def takenIn (plan : Fetch) (request : Request) (w : World σ) : World σ :=
  { (w.fetchAnswer net request).2 with
    client := (w.client.absorb plan (w.fetchAnswer net request).1).2 }

section

variable (plan : Fetch) (request : Request)

theorem exists_takenIn : ∃ names, (w.takenIn net plan request).client =
    { w.client with
      names
      cache := (w.client.seedsIn plan (w.fetchAnswer net request).1).foldl
        (fun d s => d.put s.address "" s.resource) w.client.cache } :=
  w.client.exists_absorb plan (w.fetchAnswer net request).1

theorem cache_takenIn : (w.takenIn net plan request).client.cache =
    (w.client.seedsIn plan (w.fetchAnswer net request).1).foldl
      (fun d s => d.put s.address "" s.resource) w.client.cache := by
  obtain ⟨names, htaken⟩ := w.exists_takenIn net plan request
  rw [htaken]

end

variable {plan : Fetch} {request : Request}

theorem drive_of_answer
    (hrunning : w.flight? ticket = some (.running key subkey (.answer plan request))) :
    w.drive net ticket = (w.takenIn net plan request).land ticket key subkey
      (w.client.absorb plan (w.fetchAnswer net request).1).1 := by
  simp only [drive, hrunning]
  rfl

theorem driveWhen_cases (arrived : Request → Bool) (ticket : Ticket)
    (hawaiting : ∀ {key subkey job}, w.flight? ticket = some (.running key subkey job) →
      ∃ plan request, job = .answer plan request) :
    w.driveWhen net arrived ticket = w ∨
      ∃ key subkey plan request,
        w.flight? ticket = some (.running key subkey (.answer plan request)) ∧
        w.driveWhen net arrived ticket = (w.takenIn net plan request).land ticket key subkey
          (w.client.absorb plan (w.fetchAnswer net request).1).1 := by
  unfold driveWhen
  split
  · next key subkey plan request hrunning =>
    split
    · exact .inr ⟨key, subkey, plan, request, hrunning, rfl⟩
    · exact .inl rfl
  · next hnot =>
    left
    unfold drive
    split
    · next key subkey job hrunning =>
      obtain ⟨plan, request, rfl⟩ := hawaiting hrunning
      exact absurd hrunning (hnot key subkey plan request)
    · rfl

theorem holds_of_takenIn (hlive : w.client.cache.isLive = true) {before after : List Wire.Seed}
    {s : Wire.Seed}
    (hseeds : w.client.seedsIn plan (w.fetchAnswer net request).1 = before ++ s :: after)
    (hlast : ∀ t ∈ after, Address.key t.address ≠ Address.key s.address) :
    (w.takenIn net plan request).client.cache.Holds (Address.key s.address) "" s.resource := by
  rw [cache_takenIn, hseeds]
  exact LiveCache.Holds.of_putAll hlive before after s hlast

theorem holds_of_drive (hlive : w.client.cache.isLive = true)
    (hrunning : w.flight? ticket = some (.running key subkey (.answer plan request)))
    {before after : List Wire.Seed} {s : Wire.Seed}
    (hseeds : w.client.seedsIn plan (w.fetchAnswer net request).1 = before ++ s :: after)
    (hlast : ∀ t ∈ after, Address.key t.address ≠ Address.key s.address) :
    (w.drive net ticket).client.cache.Holds (Address.key s.address) "" s.resource := by
  have hstill : (w.takenIn net plan request).client.cache.flights[ticket]? =
      some (.running key subkey (.answer plan request)) := by
    rw [cache_takenIn]
    exact LiveCache.flight_foldl_put _ hrunning
  rw [drive_of_answer net hrunning]
  exact (holds_of_takenIn net hlive hseeds hlast).land hstill _

theorem exists_cache_drive
    (hplain : ∀ key subkey job, w.flight? ticket = some (.running key subkey job) → job.IsPlain) :
    ∃ events, (w.drive net ticket).client.cache = (w.client.follow events).cache := by
  unfold drive
  split
  · next key subkey job hrunning =>
    exact exists_cache_driveJob net (hplain key subkey job hrunning) hrunning
  · exact ⟨[], rfl⟩

end World

namespace Flow

variable {σ : Type} (net : Network σ) {w : World σ} {ticket : Ticket}

theorem poll_join_of_landed {outcome : Except Fault Resource}
    (h : w.client.cache.flights[ticket]? = some (.landed outcome)) :
    (join ticket).poll net w = (.done outcome, w) := by
  have hflight : w.flight? ticket = some (.landed outcome) := h
  have hdrive : w.drive net ticket = w := by simp only [World.drive, hflight]
  simp only [join, poll, hdrive, World.outcome?, hflight, Option.bind_some, Flight.outcome?]

theorem landed_of_poll_join {outcome : Except Fault Resource}
    (h : ((join ticket).poll net w).1 = .done outcome) :
    ((join ticket).poll net w).2.client.cache.flights[ticket]? = some (.landed outcome) ∧
      ((join ticket).poll net w).2 = w.drive net ticket := by
  simp only [join, poll] at h ⊢
  cases hflight : (w.drive net ticket).flight? ticket with
  | none => simp [World.outcome?, hflight] at h
  | some flight =>
    cases flight with
    | running key subkey job => simp [World.outcome?, hflight, Flight.outcome?] at h
    | landed result =>
      have houtcome : (w.drive net ticket).outcome? ticket = some result := by
        simp [World.outcome?, hflight, Flight.outcome?]
      rw [houtcome] at h ⊢
      obtain rfl : result = outcome := by simpa [poll] using h
      exact ⟨hflight, rfl⟩

end Flow

end ResourceClient

import ResourceClient.Proofs.Client.History
import ResourceClient.Proofs.Client.RelyGuarantee
import ResourceClient.Service.Read

/-!
How calls begin. Before it first has to wait, a call either fails, and nobody outside has seen
anything of it, or hands one request to the network. What follows is left open, so there is one rule
for each step that a call is made of.
-/
namespace ResourceClient

variable {σ α β : Type} (net : Network σ) (arrived : Request → Bool)

namespace World

/-- Nobody outside sees a difference. -/
structure Unseen (w v : World σ) : Prop where
  trace : v.trace = w.trace
  remote : v.remote = w.remote

/-- The request has been handed over, and nothing else has been seen. -/
structure Asks (w v : World σ) (request : Request) : Prop where
  trace : v.trace = w.trace ++ [.requested request]
  remote : v.remote = w.remote

variable {w v u : World σ}

theorem Unseen.refl (w : World σ) : w.Unseen w := ⟨rfl, rfl⟩

theorem Unseen.trans (h : w.Unseen v) (h' : v.Unseen u) : w.Unseen u :=
  ⟨h'.trace.trans h.trace, h'.remote.trans h.remote⟩

variable (address subkey : String) (plan : Fetch) (w)

def readStarted : World σ :=
  { w with client := { w.client with
      cache := w.client.cache.start (Address.key address) subkey (.fetch plan)
      reservation := none } }

def readRequested (request : Request) : World σ :=
  ((w.readStarted address subkey plan).record (.requested request)).setJob
    w.client.cache.flights.length (Address.key address) subkey (.answer plan request)

theorem flights_readStarted :
    (w.readStarted address subkey plan).client.cache.flights =
      w.client.cache.flights ++ [.running (Address.key address) subkey (.fetch plan)] :=
  LiveCache.flights_start w.client.cache (Address.key address) subkey (.fetch plan)

theorem flight?_readStarted :
    (w.readStarted address subkey plan).flight? w.client.cache.flights.length =
      some (.running (Address.key address) subkey (.fetch plan)) := by
  unfold flight?
  rw [flights_readStarted]
  simp

theorem slot?_readStarted (other sub : String) :
    (w.readStarted address subkey plan).client.cache.slot? other sub =
      if other = Address.key address ∧ sub = subkey then some w.client.cache.flights.length
      else w.client.cache.slot? other sub :=
  LiveCache.slot?_start w.client.cache (Address.key address) subkey other sub (.fetch plan)

theorem slot?_land_readStarted (fault : Fault) (other sub : String) :
    ((w.readStarted address subkey plan).land w.client.cache.flights.length (Address.key address)
      subkey (.error fault)).client.cache.slot? other sub =
      if other = Address.key address ∧ sub = subkey then none
      else w.client.cache.slot? other sub := by
  refine (LiveCache.slot?_land (w.readStarted address subkey plan).client.cache
    (Address.key address)
    subkey other sub w.client.cache.flights.length (.error fault)).trans ?_
  by_cases hsame : other = Address.key address ∧ sub = subkey
  · simp [slot?_readStarted, hsame, Except.isOk, Except.toBool]
  · rw [if_neg hsame, if_neg fun hall => hsame ⟨hall.2.1, hall.2.2.1⟩, slot?_readStarted,
      if_neg hsame]

theorem flights_land_readStarted (fault : Fault) :
    ((w.readStarted address subkey plan).land w.client.cache.flights.length (Address.key address)
      subkey (.error fault)).client.cache.flights =
      w.client.cache.flights ++ [.landed (.error fault)] := by
  refine (LiveCache.flights_land _ _ _ _ _).trans ?_
  rw [flights_readStarted]
  simp

theorem driveWhen_readStarted :
    (w.readStarted address subkey plan).driveWhen net arrived w.client.cache.flights.length =
      match w.client.fetchRequest plan with
      | .error fault =>
        (w.readStarted address subkey plan).land w.client.cache.flights.length (Address.key address)
          subkey (.error fault)
      | .ok request => w.readRequested address subkey plan request := by
  have hflight := w.flight?_readStarted address subkey plan
  have hrequest : (w.readStarted address subkey plan).client.fetchRequest plan =
      w.client.fetchRequest plan := rfl
  simp only [driveWhen, drive, hflight, driveJob, hrequest]
  cases w.client.fetchRequest plan <;> rfl

theorem flights_readRequested (request : Request) :
    (w.readRequested address subkey plan request).client.cache.flights =
      w.client.cache.flights ++ [.running (Address.key address) subkey (.answer plan request)] := by
  have hset : (w.readRequested address subkey plan request).client.cache.flights =
      (w.readStarted address subkey plan).client.cache.flights.set w.client.cache.flights.length
        (.running (Address.key address) subkey (.answer plan request)) := rfl
  rw [hset, flights_readStarted]
  simp

theorem flight?_readRequested (request : Request) :
    (w.readRequested address subkey plan request).flight? w.client.cache.flights.length =
      some (.running (Address.key address) subkey (.answer plan request)) := by
  unfold flight?
  rw [flights_readRequested]
  simp

theorem slot?_readRequested (request : Request) (other sub : String) :
    (w.readRequested address subkey plan request).client.cache.slot? other sub =
      if other = Address.key address ∧ sub = subkey then some w.client.cache.flights.length
      else w.client.cache.slot? other sub :=
  w.slot?_readStarted address subkey plan other sub

theorem asks_readRequested (request : Request) :
    w.Asks (w.readRequested address subkey plan request) request := ⟨rfl, rfl⟩

variable {w}

theorem outcome?_of_landed {ticket : Ticket} {outcome : Except Fault Resource}
    (h : w.flight? ticket = some (.landed outcome)) : w.outcome? ticket = some outcome := by
  simp only [outcome?, h, Option.bind_some, Flight.outcome?]

theorem outcome?_of_running {ticket : Ticket} {key sub : String} {job : Job}
    (h : w.flight? ticket = some (.running key sub job)) : w.outcome? ticket = none := by
  simp only [outcome?, h, Option.bind_some, Flight.outcome?]

theorem driveWhen_of_landed {ticket : Ticket} {outcome : Except Fault Resource}
    (h : w.flight? ticket = some (.landed outcome)) : w.driveWhen net arrived ticket = w := by
  simp only [driveWhen, drive, h]

theorem flight?_land {ticket : Ticket} {flight : Flight} (h : w.flight? ticket = some flight)
    (key sub : String) (outcome : Except Fault Resource) :
    (w.land ticket key sub outcome).flight? ticket = some (.landed outcome) := by
  have hlt := (List.getElem?_eq_some_iff.1 h).1
  change (w.client.cache.land ticket key sub outcome).flights[ticket]? = _
  rw [LiveCache.flights_land]
  exact List.getElem?_set_self hlt

end World

namespace Client

theorem fetchRequest_eq_ok {c : Client} {plan : Fetch} {request : Request}
    (h : c.fetchRequest plan = .ok request) :
    request.method = .get ∧ request.url = c.url plan.url ∧ request.params = plan.params := by
  unfold fetchRequest rawRequest at h
  split at h
  · cases h
  · cases h
    exact ⟨c.method_signed _, c.url_signed _, rfl⟩

variable (address subkey : String) (plan : Fetch) (c : Client)

/-- A read shares the flight in its slot, starts one there, or fetches on its own. -/
theorem memoize_fetch :
    c.memoize address subkey (.fetch plan) [] =
      if c.cache.isLive then
        match c.cache.slot? (Address.key address) subkey with
        | some ticket => (.shared ticket, c)
        | none =>
          (.shared c.cache.flights.length,
            { c with
              cache := c.cache.start (Address.key address) subkey (.fetch plan)
              reservation := none })
      else (.own, c) := by
  split
  · next hlive =>
    cases hslot : c.cache.slot? (Address.key address) subkey with
    | some ticket => exact memoize_of_slot? address subkey (.fetch plan) [] hlive hslot
    | none => simpa using memoize_of_none address subkey (.fetch plan) [] hlive hslot
  · next hlive =>
    have hsettle : c.settle [] = c := settleWithin_nil nestingLimit c
    unfold memoize
    rw [hsettle]
    simp [hlive]

end Client

namespace Action

open World

/-- How the action begins, whatever comes after it. -/
def Begins (x : Action α) (w : World σ) (opening : Except Fault Request) : Prop :=
  ∀ (γ : Type) (k : Except Fault α → Flow γ),
    match opening with
    | .error fault => ∃ v, w.Unseen v ∧
        (x.run.bind k).turn net arrived w = (k (.error fault)).turn net arrived v
    | .ok request => w.Asks ((x.run.bind k).turn net arrived w).2 request

variable {net arrived} {x : Action α} {w v : World σ} {opening : Except Fault Request}

theorem run_bind_bind {γ : Type} (x : Action α) (k : α → Action β) (l : Except Fault β → Flow γ) :
    (x >>= k).run.bind l = x.run.bind fun result => (ExceptT.bindCont k result).bind l :=
  Flow.bind_assoc x.run (ExceptT.bindCont k) l

theorem run_outcome_bind {γ : Type} (x : Action α) (k : Except Fault α → Action β)
    (l : Except Fault β → Flow γ) :
    (outcome x >>= k).run.bind l = x.run.bind fun result => (k result).run.bind l := by
  rw [run_bind_bind]
  exact Flow.bind_assoc x.run (fun result => Flow.done (Except.ok result)) _

theorem Begins.bind (h : x.Begins net arrived w opening) (k : α → Action β) :
    (x >>= k).Begins net arrived w opening := by
  intro γ l
  rw [run_bind_bind]
  have hnext := h γ fun result => (ExceptT.bindCont k result).bind l
  cases opening with
  | error fault => exact hnext
  | ok request => exact hnext

theorem Begins.outcome_bind (h : x.Begins net arrived w opening) {k : Except Fault α → Action β}
    (hk : ∀ fault v, opening = .error fault →
      (k (.error fault)).Begins net arrived v (.error fault)) :
    (outcome x >>= k).Begins net arrived w opening := by
  intro γ l
  rw [run_outcome_bind]
  have hnext := h γ fun result => (k result).run.bind l
  cases opening with
  | ok request => exact hnext
  | error fault =>
    obtain ⟨v, hv, hturn⟩ := hnext
    obtain ⟨u, hu, hlast⟩ := hk fault v rfl γ l
    exact ⟨u, hv.trans hu, hturn.trans hlast⟩

theorem begins_fail (fault : Fault) (w : World σ) :
    (fail fault : Action α).Begins net arrived w (.error fault) :=
  fun _ _ => ⟨w, .refl w, rfl⟩

theorem begins_need_bind {result : Except Fault α} {k : α → Action β}
    {next : α → Except Fault Request}
    (h : ∀ value, result = .ok value → (k value).Begins net arrived w (next value)) :
    (need result >>= k).Begins net arrived w (result >>= next) := by
  cases result with
  | error fault => exact begins_fail fault w
  | ok value => exact h value rfl

theorem begins_look_bind {k : Client → Action β}
    (h : (k w.client).Begins net arrived w opening) :
    (look >>= k).Begins net arrived w opening := h

theorem begins_exchange (request : Request) (w : World σ) :
    (exchange request).Begins net arrived w (.ok request) :=
  fun _ _ => ⟨rfl, rfl⟩

end Action

namespace Service

open ResourceClient.Action World

variable {net arrived} {w : World σ} (address subkey : String) (plan : Fetch)

theorem turn_fetch {α : Type} (k : Except Fault Resource → Flow α) :
    ((fetch plan).run.bind k).turn net arrived w =
      match w.client.fetchRequest plan with
      | .error fault => (k (.error fault)).turn net arrived w
      | .ok request =>
        (.sent request fun answer => (Flow.act (Client.absorb plan answer)).bind k,
          w.record (.requested request)) := by
  change ((need (w.client.fetchRequest plan) >>= fun request => ExceptT.mk do
    let answer ← Flow.exchange request
    Flow.act (Client.absorb plan answer)).run.bind k).turn net arrived w = _
  cases w.client.fetchRequest plan <;> rfl

theorem begins_fetch : (fetch plan).Begins net arrived w (w.client.fetchRequest plan) := by
  intro γ k
  rw [turn_fetch]
  cases w.client.fetchRequest plan with
  | error fault => exact ⟨w, .refl w, rfl⟩
  | ok request => exact ⟨rfl, rfl⟩

def fetchShared : Action Resource := do
  match ← act (Client.memoize address subkey (.fetch plan) []) with
  | .shared ticket => join ticket
  | .own => fetch plan

variable {α : Type} (k : Except Fault Resource → Flow α) {address subkey}

theorem turn_fetchShared_of_not_live (hlive : w.client.cache.isLive = false) :
    ((fetchShared address subkey plan).run.bind k).turn net arrived w =
      ((fetch plan).run.bind k).turn net arrived w := by
  have hlease := Client.memoize_fetch address subkey plan w.client
  rw [hlive, if_neg Bool.false_ne_true] at hlease
  change ((match (w.client.memoize address subkey (.fetch plan) []).1 with
      | .shared ticket => join ticket
      | .own => fetch plan).run.bind k).turn net arrived
        { w with client := (w.client.memoize address subkey (.fetch plan) []).2 } = _
  rw [hlease]

theorem turn_fetchShared_of_slot? (hlive : w.client.cache.isLive = true) {ticket : Ticket}
    (hslot : w.client.cache.slot? (Address.key address) subkey = some ticket) :
    ((fetchShared address subkey plan).run.bind k).turn net arrived w =
      ((join ticket).run.bind k).turn net arrived w := by
  have hlease := Client.memoize_fetch address subkey plan w.client
  rw [hlive, if_pos rfl, hslot] at hlease
  change ((match (w.client.memoize address subkey (.fetch plan) []).1 with
      | .shared ticket => join ticket
      | .own => fetch plan).run.bind k).turn net arrived
        { w with client := (w.client.memoize address subkey (.fetch plan) []).2 } = _
  rw [hlease]

theorem turn_fetchShared_of_empty (hlive : w.client.cache.isLive = true)
    (hslot : w.client.cache.slot? (Address.key address) subkey = none) :
    ((fetchShared address subkey plan).run.bind k).turn net arrived w =
      match w.client.fetchRequest plan with
      | .error fault =>
        (k (.error fault)).turn net arrived
          ((w.readStarted address subkey plan).land w.client.cache.flights.length
            (Address.key address) subkey (.error fault))
      | .ok request =>
        (.await w.client.cache.flights.length k, w.readRequested address subkey plan request) := by
  have hlease := Client.memoize_fetch address subkey plan w.client
  rw [hlive, if_pos rfl, hslot] at hlease
  change ((match (w.client.memoize address subkey (.fetch plan) []).1 with
      | .shared ticket => join ticket
      | .own => fetch plan).run.bind k).turn net arrived
        { w with client := (w.client.memoize address subkey (.fetch plan) []).2 } = _
  rw [hlease]
  change (Flow.await w.client.cache.flights.length k).turn net arrived
    (w.readStarted address subkey plan) = _
  rw [Flow.turn, driveWhen_readStarted]
  cases w.client.fetchRequest plan with
  | error fault =>
    dsimp only
    rw [outcome?_of_landed (flight?_land (w.flight?_readStarted address subkey plan) _ _ _)]
  | ok request =>
    dsimp only
    rw [outcome?_of_running (w.flight?_readRequested address subkey plan request)]

theorem turn_join_of_landed {ticket : Ticket} {outcome : Except Fault Resource}
    (h : w.flight? ticket = some (.landed outcome)) :
    ((join ticket).run.bind k).turn net arrived w = (k outcome).turn net arrived w := by
  change (Flow.await ticket k).turn net arrived w = _
  rw [Flow.turn, driveWhen_of_landed net arrived h, outcome?_of_landed h]

theorem begins_fetchShared
    (hempty : w.client.cache.isLive = true →
      w.client.cache.slot? (Address.key address) subkey = none) :
    (fetchShared address subkey plan).Begins net arrived w (w.client.fetchRequest plan) := by
  intro γ k
  cases hlive : w.client.cache.isLive with
  | false =>
    rw [turn_fetchShared_of_not_live plan k hlive]
    exact begins_fetch plan γ k
  | true =>
    rw [turn_fetchShared_of_empty plan k hlive (hempty hlive)]
    cases w.client.fetchRequest plan with
    | error fault =>
      exact ⟨(w.readStarted address subkey plan).land w.client.cache.flights.length
        (Address.key address) subkey (.error fault), ⟨rfl, rfl⟩, rfl⟩
    | ok request => exact w.asks_readRequested address subkey plan request

end Service

end ResourceClient

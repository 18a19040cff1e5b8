import ResourceClient.Proofs.Client.Polls
import ResourceClient.Proofs.Client.Producers
import ResourceClient.Proofs.Service.Attempts
import ResourceClient.Proofs.Wire.Imports

/-!
One read from its start to its end, with nothing in between. What it would give if nothing were
cached is settled by the server and by what the client signs with; a read through the cache gives
the same if what its slot has is that.
-/
namespace ResourceClient

def Network.IsStill {σ : Type} (net : Network σ) : Prop :=
  ∀ request remote, request.method = .get → (net.answer request remote).2 = remote

namespace LiveCache

/-- The trace in the cache of a read that found its slot empty, and came to its end. -/
def readThrough (key subkey : String) (job : Job) (outcome : Except Fault Resource)
    (c : LiveCache) : LiveCache :=
  (c.start key subkey job).land c.flights.length key subkey outcome

variable {c : LiveCache} {address key subkey other sub : String} {job : Job}
  {outcome : Except Fault Resource}

theorem slot?_readThrough :
    (c.readThrough key subkey job outcome).slot? other sub =
      if other = key ∧ sub = subkey then
        if outcome.isOk then some c.flights.length else none
      else c.slot? other sub := by
  unfold readThrough
  simp only [slot?_land, slot?_start]
  by_cases hself : other = key ∧ sub = subkey
  · cases hok : outcome.isOk <;> simp [hself]
  · rw [if_neg fun h => hself ⟨h.2.1, h.2.2.1⟩, if_neg hself, if_neg hself]

theorem flights_readThrough :
    (c.readThrough key subkey job outcome).flights = c.flights ++ [.landed outcome] := by
  unfold readThrough
  rw [flights_land, flights_start]
  simp

theorem WellFormed.readThrough {exempt : List String} (h : c.WellFormed exempt)
    (hlive : c.isLive = true) (hslot : c.slot? (Address.key address) subkey = none) :
    (c.readThrough (Address.key address) subkey job outcome).WellFormed exempt := by
  have hstart : c.undergo (.memoize address subkey job []) =
      c.start (Address.key address) subkey job := by
    unfold LiveCache.undergo
    exact if_pos ⟨hlive, hslot⟩
  have hrunning : (c.start (Address.key address) subkey job).flights[c.flights.length]? =
      some (.running (Address.key address) subkey job) := by
    rw [flights_start]
    exact List.getElem?_concat_length
  have hended := (h.undergo (.memoize address subkey job [])).undergo
    (.resolve c.flights.length outcome)
  rw [hstart, LiveCache.undergo, resolve_of_running hrunning] at hended
  exact hended

theorem landed_land {ticket : Ticket} {flight : Flight} (h : c.flights[ticket]? = some flight) :
    (c.land ticket key subkey outcome).flights[ticket]? = some (.landed outcome) := by
  rw [flights_land]
  exact List.getElem?_set_self (List.getElem?_eq_some_iff.1 h).1

theorem land_setFlight (ticket : Ticket) (flight : Flight) :
    (c.setFlight ticket flight).land ticket key subkey outcome =
      c.land ticket key subkey outcome := by
  have hset : (c.setFlight ticket flight).setFlight ticket (.landed outcome) =
      c.setFlight ticket (.landed outcome) := by
    simp [setFlight]
  unfold land
  rw [hset]

end LiveCache

namespace Client

variable {c : Client} {plan : Fetch}

def readRequest (c : Client) (address : String) (params : Table String) : Request :=
  { c.signed { method := .get, url := c.url (c.url address) } with params }

theorem fetchRequest_read (c : Client) (address : String) (params : Table String) :
    c.fetchRequest { url := c.url address, params } =
      if startsWithSentinel (c.url address) then
        .error (.placeholderPath "get" (c.url address))
      else .ok (c.readRequest address params) := by
  unfold fetchRequest rawRequest
  split <;> rfl

theorem eq_readRequest {address : String} {params : Table String} {request : Request}
    (h : c.fetchRequest { url := c.url address, params } = .ok request) :
    request = c.readRequest address params := by
  rw [Client.fetchRequest_read] at h
  split at h
  · cases h
  · exact (Except.ok.inj h).symm

theorem Alike.fetchRequest {d : Client} (h : c.Alike d) (plan : Fetch) :
    d.fetchRequest plan = c.fetchRequest plan := by
  unfold Client.fetchRequest rawRequest
  rw [h.url, h.signed]

theorem method_readRequest (c : Client) (address : String) (params : Table String) :
    (c.readRequest address params).method = .get :=
  c.method_signed _

theorem url_readRequest (c : Client) (address : String) (params : Table String) :
    (c.readRequest address params).url = c.url (c.url address) :=
  c.url_signed _

theorem readRequest_url (c : Client) (address other : String) (params : Table String) :
    c.readRequest other params =
      { c.readRequest address params with url := c.url (c.url other) } := by
  unfold readRequest signed Request.signed
  cases c.credentials <;> rfl

theorem method_of_fetchRequest {request : Request} (h : c.fetchRequest plan = .ok request) :
    request.method = .get := by
  obtain ⟨raw, hraw, rfl⟩ := exists_of_map_eq_ok h
  rw [rawRequest_eq_ok hraw]
  exact c.method_signed _

theorem fst_absorb (hplain : plan.listing = none) (answer : Except Fault Response) (c : Client) :
    (c.absorb plan answer).1 =
      answer >>= Response.successBody >>= fun wire =>
        (Wire.importResource c.schema wire c.names).1 := by
  unfold absorb
  change _ = answer.bind Response.successBody >>= _
  cases answer.bind Response.successBody with
  | error fault => rfl
  | ok wire =>
    dsimp only
    rw [hplain]
    rfl

end Client

namespace World

variable {σ : Type} (net : Network σ) {v w : World σ} {plan : Fetch}

/-- What a read gives that goes past the cache. -/
def fresh (w : World σ) (plan : Fetch) : Except Fault Resource :=
  w.client.fetchRequest plan >>= fun request =>
    (w.client.absorb plan (net.answer request w.remote).1).1

theorem fresh_eq (hplain : plan.listing = none) :
    w.fresh net plan =
      w.client.fetchRequest plan >>= fun request =>
        (net.answer request w.remote).1 >>= Response.successBody >>= fun wire =>
          (Wire.importResource w.client.schema wire w.client.names).1 := by
  unfold fresh
  simp only [Client.fst_absorb hplain]

/-- After a read only names may have been drawn and requests have gone out. -/
def HasRead (w after : World σ) (cache : LiveCache) : Prop :=
  ∃ names trace, after = { w with client := { w.client with names, cache }, trace }

theorem HasRead.landed {after : World σ} {cache : LiveCache} {ticket : Ticket}
    {key subkey : String} {outcome : Except Fault Resource} {flight : Flight}
    (h : w.HasRead after (cache.land ticket key subkey outcome))
    (hflight : cache.flights[ticket]? = some flight) :
    after.client.cache.flights[ticket]? = some (.landed outcome) := by
  obtain ⟨_, _, rfl⟩ := h
  exact LiveCache.landed_land hflight

theorem HasRead.trans {v after : World σ} {cache later : LiveCache} (h : w.HasRead v cache)
    (h' : v.HasRead after later) : w.HasRead after later := by
  obtain ⟨_, _, rfl⟩ := h
  obtain ⟨names, trace, rfl⟩ := h'
  exact ⟨names, trace, rfl⟩

theorem HasRead.alike {cache : LiveCache} (h : w.HasRead v cache) : w.client.Alike v.client := by
  obtain ⟨_, _, rfl⟩ := h
  exact ⟨rfl, rfl, rfl⟩

theorem HasRead.idle {cache : LiveCache} {exempt : List String} (h : w.HasRead v cache)
    (hidle : w.client.Idle exempt) (hwellFormed : cache.WellFormed exempt) :
    v.client.Idle exempt := by
  obtain ⟨_, _, rfl⟩ := h
  exact ⟨hwellFormed, hidle.free, hidle.unheld⟩

theorem HasRead.remote {cache : LiveCache} (h : w.HasRead v cache) : v.remote = w.remote := by
  obtain ⟨_, _, rfl⟩ := h
  rfl

theorem HasRead.cache {cache : LiveCache} (h : w.HasRead v cache) : v.client.cache = cache := by
  obtain ⟨_, _, rfl⟩ := h
  rfl

theorem fetchAnswer_of_isStill (hstill : net.IsStill) {request : Request}
    (hget : request.method = .get) (w : World σ) :
    w.fetchAnswer net request = ((net.answer request w.remote).1, w) := by
  unfold fetchAnswer
  dsimp only
  rw [hstill request w.remote hget]

theorem drive_of_running {ticket : Ticket} {key subkey : String} {job : Job}
    (h : w.client.cache.flights[ticket]? = some (.running key subkey job)) :
    w.drive net ticket = w.driveJob net ticket key subkey job := by
  have hflight : w.flight? ticket = some (.running key subkey job) := h
  simp only [drive, hflight]

theorem driveAmid_of_landed (meanwhile : World σ → World σ) (polls : Nat) {ticket : Ticket}
    {outcome : Except Fault Resource}
    (h : (w.drive net ticket).client.cache.flights[ticket]? = some (.landed outcome)) :
    w.driveAmid net meanwhile (polls + 1) ticket = w.drive net ticket := by
  have hflight : (w.drive net ticket).flight? ticket = some (.landed outcome) := h
  simp only [driveAmid, outcome?, hflight, Option.bind_some, Flight.outcome?, Option.isSome_some,
    if_true]

theorem driveAmid_of_running (meanwhile : World σ → World σ) (polls : Nat) {ticket : Ticket}
    {key subkey : String} {job : Job}
    (h : (w.drive net ticket).client.cache.flights[ticket]? = some (.running key subkey job)) :
    w.driveAmid net meanwhile (polls + 1) ticket =
      (meanwhile (w.drive net ticket)).driveAmid net meanwhile polls ticket := by
  have hflight : (w.drive net ticket).flight? ticket = some (.running key subkey job) := h
  simp only [driveAmid, outcome?, hflight, Option.bind_some, Flight.outcome?, Option.isSome_none,
    Bool.false_eq_true, if_false]

theorem drive_answer (hstill : net.IsStill) (hplain : plan.listing = none) {request : Request}
    (hget : request.method = .get) {ticket : Ticket} {key subkey : String}
    (h : w.client.cache.flights[ticket]? = some (.running key subkey (.answer plan request))) :
    w.HasRead (w.drive net ticket)
      (w.client.cache.land ticket key subkey
        (w.client.absorb plan (net.answer request w.remote).1).1) := by
  obtain ⟨names, hnames⟩ := w.client.snd_absorb hplain (net.answer request w.remote).1
  refine ⟨names, w.trace, ?_⟩
  rw [drive_of_running net h, driveJob, fetchAnswer_of_isStill net hstill hget]
  dsimp only
  rw [hnames]
  rfl

/-- The request goes out with the first poll, and with the second the answer is taken in. -/
theorem driveAmid_fetch (hstill : net.IsStill) (hplain : plan.listing = none) {ticket : Ticket}
    {key subkey : String}
    (h : w.client.cache.flights[ticket]? = some (.running key subkey (.fetch plan))) :
    w.HasRead (w.driveAmid net id 2 ticket)
      (w.client.cache.land ticket key subkey (w.fresh net plan)) := by
  have hdrive := drive_of_running net h
  unfold fresh
  cases hrequest : w.client.fetchRequest plan with
  | error fault =>
    simp only [driveJob, hrequest] at hdrive
    have hended : w.HasRead (w.drive net ticket)
        (w.client.cache.land ticket key subkey (.error fault)) := by
      rw [hdrive]
      exact ⟨w.client.names, w.trace, rfl⟩
    rw [driveAmid_of_landed net id 1 (hended.landed h)]
    exact hended
  | ok request =>
    simp only [driveJob, hrequest] at hdrive
    have hout : (w.drive net ticket).client.cache.flights[ticket]? =
        some (.running key subkey (.answer plan request)) := by
      rw [hdrive]
      exact List.getElem?_set_self (List.getElem?_eq_some_iff.1 h).1
    have hsent : w.HasRead (w.drive net ticket)
        (w.client.cache.setFlight ticket (.running key subkey (.answer plan request))) := by
      rw [hdrive]
      exact ⟨w.client.names, w.trace ++ [.requested request], rfl⟩
    have hanswered := drive_answer net hstill hplain (Client.method_of_fetchRequest hrequest) hout
    rw [driveAmid_of_running net id 1 hout, id,
      driveAmid_of_landed net id 0 (hanswered.landed hout)]
    have hended := hsent.trans hanswered
    rw [hdrive] at hended ⊢
    rw [Client.fst_absorb hplain] at hended
    change w.HasRead _ (w.client.cache.land ticket key subkey
      (w.client.absorb plan (net.answer request w.remote).1).1)
    rw [Client.fst_absorb hplain, ← LiveCache.land_setFlight ticket]
    exact hended

end World

namespace Flow

variable {σ : Type} (net : Network σ) {w : World σ} {plan : Fetch}

theorem runAmid_join_of_landed (meanwhile : World σ → World σ) {ticket : Ticket}
    {outcome : Except Fault Resource}
    (h : w.client.cache.flights[ticket]? = some (.landed outcome)) :
    (join ticket).runAmid net meanwhile w = (outcome, w) := by
  have hflight : w.flight? ticket = some (.landed outcome) := h
  have hdrive : w.drive net ticket = w := by
    simp only [World.drive, hflight]
  have houtcome : w.outcome? ticket = some outcome := by
    simp only [World.outcome?, hflight, Option.bind_some, Flight.outcome?]
  have hamid : w.driveAmid net meanwhile (w.remaining ticket) ticket = w := by
    unfold World.remaining
    rw [hflight]
    simp only [World.driveAmid, hdrive, houtcome, Option.isSome_some, if_true]
  simp only [join, runAmid, hamid, houtcome, Option.getD_some]

theorem runAmid_join_of_running (hstill : net.IsStill) (hplain : plan.listing = none)
    {ticket : Ticket} {key subkey : String}
    (h : w.client.cache.flights[ticket]? = some (.running key subkey (.fetch plan))) :
    ∃ after, (join ticket).runAmid net id w = (w.fresh net plan, after) ∧
      w.HasRead after (w.client.cache.land ticket key subkey (w.fresh net plan)) := by
  have hflight : w.flight? ticket = some (.running key subkey (.fetch plan)) := h
  have hremaining : w.remaining ticket = 2 := by
    unfold World.remaining
    rw [hflight]
  have hended := World.driveAmid_fetch net hstill hplain h
  have hlanded : (w.driveAmid net id 2 ticket).flight? ticket =
      some (.landed (w.fresh net plan)) :=
    hended.landed h
  refine ⟨w.driveAmid net id 2 ticket, ?_, hended⟩
  simp only [join, runAmid, hremaining, World.outcome?, hlanded, Option.bind_some,
    Flight.outcome?, Option.getD_some]

theorem runAmid_join_of_start (hstill : net.IsStill) (hplain : plan.listing = none)
    (key subkey : String) :
    ∃ after,
      (join w.client.cache.flights.length).runAmid net id
          (w.mapClient (Client.mapCache (LiveCache.start key subkey (.fetch plan)))) =
        (w.fresh net plan, after) ∧
      w.HasRead after
        (w.client.cache.readThrough key subkey (.fetch plan) (w.fresh net plan)) := by
  generalize hthere : w.mapClient (Client.mapCache (LiveCache.start key subkey (.fetch plan))) =
    there
  have hcache : there.client.cache = w.client.cache.start key subkey (.fetch plan) := by
    rw [← hthere]
    rfl
  have hfresh : there.fresh net plan = w.fresh net plan := by
    rw [World.fresh_eq net hplain, World.fresh_eq net hplain, ← hthere]
    rfl
  have hstarted : w.HasRead there there.client.cache := by
    rw [← hthere]
    exact ⟨w.client.names, w.trace, rfl⟩
  have hrunning : there.client.cache.flights[w.client.cache.flights.length]? =
      some (.running key subkey (.fetch plan)) := by
    rw [hcache, LiveCache.flights_start]
    exact List.getElem?_concat_length
  obtain ⟨after, hjoin, hended⟩ := runAmid_join_of_running net hstill hplain hrunning
  rw [hfresh] at hjoin hended
  rw [hcache] at hended
  exact ⟨after, hjoin, hstarted.trans hended⟩

end Flow

namespace Service

open ResourceClient.Action

variable {σ : Type} (net : Network σ) {w : World σ} {plan : Fetch}

theorem runAmid_fetch_of_isStill (hstill : net.IsStill) (hplain : plan.listing = none) :
    ∃ after, (fetch plan).runAmid net id w = (w.fresh net plan, after) ∧
      w.HasRead after w.client.cache := by
  rw [runAmid_fetch]
  unfold World.fresh
  cases hrequest : w.client.fetchRequest plan with
  | error fault => exact ⟨w, rfl, w.client.names, w.trace, rfl⟩
  | ok request =>
    have hexchange : w.exchangeAmid net id request =
        ((net.answer request w.remote).1, w.record (.requested request)) :=
      World.fetchAnswer_of_isStill net hstill (Client.method_of_fetchRequest hrequest) _
    obtain ⟨names, hnames⟩ := w.client.snd_absorb hplain (net.answer request w.remote).1
    dsimp only
    rw [hexchange]
    refine ⟨_, rfl, names, w.trace ++ [.requested request], ?_⟩
    exact congrArg (fun c => { w.record (.requested request) with client := c }) hnames

theorem runAmid_getWith (meanwhile : World σ → World σ) (address : String)
    (params : Table String) (bypass : Bool) :
    (getWith (.real address) params { bypass }).runAmid net meanwhile w =
      if bypass then (fetch { url := w.client.url address, params }).runAmid net meanwhile w
      else
        match w.client.memoize (w.client.url address) (Query.render params)
            (.fetch { url := w.client.url address, params }) [] with
        | (.shared ticket, c) => (Flow.join ticket).runAmid net meanwhile { w with client := c }
        | (.own, c) =>
          (fetch { url := w.client.url address, params }).runAmid net meanwhile
            { w with client := c } := by
  unfold getWith
  simp only [requireReal, fetchPlan, runAmid_bind, runAmid_need, runAmid_look, Bool.false_eq_true,
    if_false]
  cases bypass with
  | true => rfl
  | false =>
    simp only [Bool.false_eq_true, if_false, runAmid_bind, runAmid_act]
    generalize w.client.memoize (w.client.url address) (Query.render params)
      (.fetch { url := w.client.url address, params }) [] = memoized
    obtain ⟨_ | _, c⟩ := memoized <;> rfl

/-- A read gives what it would give without the cache, if its slot holds nothing else. It leaves the
cache as it was, or with its own outcome in a slot that was empty. -/
theorem exists_runAmid_getWith (hstill : net.IsStill) (hfree : w.client.reservation = none)
    (address : String) (params : Table String) (bypass : Bool) :
    let plan : Fetch := { url := w.client.url address, params }
    let key := Address.key (w.client.url address)
    let subkey := Query.render params
    (∀ ticket, w.client.cache.slot? key subkey = some ticket →
      w.client.cache.flights[ticket]? = some (.landed (w.fresh net plan))) →
    ∃ after cache,
      (getWith (.real address) params { bypass }).runAmid net id w = (w.fresh net plan, after) ∧
      w.HasRead after cache ∧
      (cache = w.client.cache ∨
        w.client.cache.isLive = true ∧ w.client.cache.slot? key subkey = none ∧
          cache = w.client.cache.readThrough key subkey (.fetch plan) (w.fresh net plan)) := by
  intro plan key subkey hheld
  have hplain : plan.listing = none := rfl
  obtain ⟨alone, halone, hread⟩ := runAmid_fetch_of_isStill net (w := w) hstill hplain
  rw [runAmid_getWith]
  cases bypass with
  | true => exact ⟨alone, w.client.cache, halone, hread, .inl rfl⟩
  | false =>
    rw [if_neg Bool.false_ne_true]
    by_cases hlive : w.client.cache.isLive = true
    · cases hslot : w.client.cache.slot? key subkey with
      | some ticket =>
        have hmemoize := Client.memoize_of_slot? (w.client.url address) subkey (.fetch plan) []
          hlive hslot
        refine ⟨w, w.client.cache, ?_, ⟨w.client.names, w.trace, rfl⟩, .inl rfl⟩
        rw [List.map_nil] at hmemoize
        rw [hmemoize]
        exact Flow.runAmid_join_of_landed net id (hheld ticket hslot)
      | none =>
        have hmemoize := Client.memoize_of_empty (w.client.url address) subkey (.fetch plan) []
          hlive hfree hslot
        rw [List.map_nil, List.append_nil] at hmemoize
        rw [hmemoize]
        obtain ⟨after, hjoin, hended⟩ := Flow.runAmid_join_of_start net hstill hplain key subkey
        exact ⟨after, _, hjoin, hended, .inr ⟨hlive, rfl, rfl⟩⟩
    · have hmemoize := Client.memoize_of_not_live (w.client.url address) subkey (.fetch plan) []
        (by simpa using hlive) hfree
      rw [List.map_nil, List.append_nil] at hmemoize
      rw [hmemoize]
      exact ⟨alone, w.client.cache, halone, hread, .inl rfl⟩

end Service

end ResourceClient

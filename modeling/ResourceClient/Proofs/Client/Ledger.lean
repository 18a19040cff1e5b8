import ResourceClient.Proofs.Client.Polls
import ResourceClient.Proofs.Client.Shrinking
import ResourceClient.Proofs.Client.RelyGuarantee
import ResourceClient.Service.Read

/-!
Whose answers the cache holds. All that was answered is kept account of, together with how much of
it was answered before the user last changed. A slot is attributed to a user if what it holds or
waits for was asked for in the name of that user; the one way to get anything else into it is an
element of an answer that came after the user had changed.
-/
namespace ResourceClient

structure Exchange where
  request : Request
  answer : Except Fault Response

/-- A remote side that keeps account of its answers. -/
structure Ledger (σ : Type) where
  remote : σ
  log : List Exchange := []
  since : Nat := 0

def Network.recorded {σ : Type} (net : Network σ) : Network (Ledger σ) where
  answer request l :=
    let (answer, remote) := net.answer request l.remote
    (answer, { l with remote, log := l.log ++ [⟨request, answer⟩] })

def headersOf (credentials : Option Credentials) : Table String :=
  (Request.signed credentials { method := .get, url := "" }).headers

theorem headers_fetchRequest {c : Client} {plan : Fetch} {request : Request}
    (h : c.fetchRequest plan = .ok request) : request.headers = headersOf c.credentials := by
  unfold Client.fetchRequest Client.rawRequest at h
  split at h
  · cases h
  · cases h
    unfold Client.signed headersOf Request.signed
    cases c.credentials <;> rfl

namespace Fetch

/-- What a get fetches, warming up or not. -/
def Planned (plan : Fetch) : Prop :=
  ∃ url params warmup, Service.fetchPlan url params warmup = .ok plan

def Sends (plan : Fetch) (request : Request) : Prop :=
  plan.Planned ∧ ∃ c : Client, c.fetchRequest plan = .ok request

end Fetch

namespace Exchange

/-- Taken in as a whole, the answer gives the resource. -/
def Yields (e : Exchange) (r : Resource) : Prop :=
  ∃ (plan : Fetch) (c : Client), plan.Sends e.request ∧ (c.absorb plan e.answer).1 = .ok r

def Lists (e : Exchange) (r : Resource) : Prop :=
  ∃ (plan : Fetch) (c : Client), plan.Sends e.request ∧
    ∃ s ∈ c.seedsIn plan e.answer, s.resource = r

end Exchange

/-- The resource comes from an answer to a request in the name of `credentials`, or else it is an
element of an answer that came when these were in force, to a request in another name. -/
def Sourced (log : List Exchange) (credentials : Option Credentials) (since : Nat) (r : Resource) :
    Prop :=
  ∃ (i : Nat) (e : Exchange), log[i]? = some e ∧
    ((e.request.headers = headersOf credentials ∧ (e.Yields r ∨ e.Lists r)) ∨
      (since ≤ i ∧ e.request.headers ≠ headersOf credentials ∧ e.Lists r))

theorem Sourced.mono {log more : List Exchange} {credentials : Option Credentials} {since : Nat}
    {r : Resource} (h : Sourced log credentials since r) (hmore : log <+: more) :
    Sourced more credentials since r := by
  obtain ⟨i, e, hi, hsource⟩ := h
  obtain ⟨rest, rfl⟩ := hmore
  have hlt := (List.getElem?_eq_some_iff.1 hi).1
  exact ⟨i, e, by rw [List.getElem?_append_left hlt, hi], hsource⟩

theorem sourced_of_lists {log : List Exchange} {credentials : Option Credentials} {since i : Nat}
    {e : Exchange} {r : Resource} (hi : log[i]? = some e) (hsince : since ≤ i) (h : e.Lists r) :
    Sourced log credentials since r := by
  by_cases hheaders : e.request.headers = headersOf credentials
  · exact ⟨i, e, hi, .inl ⟨hheaders, .inr h⟩⟩
  · exact ⟨i, e, hi, .inr ⟨hsince, hheaders, h⟩⟩

variable {σ : Type} {w v : World (Ledger σ)} {credentials : Option Credentials} {since : Nat}
  {ticket : Ticket}

/-- The flight was started in the name of `credentials`, or it was put with a resource that is
accounted for. -/
def Attributed (w : World (Ledger σ)) (credentials : Option Credentials) (since : Nat)
    (ticket : Ticket) : Prop :=
  (∃ key subkey plan request,
    w.flight? ticket = some (.running key subkey (.answer plan request)) ∧
      request.headers = headersOf credentials) ∨
  ∃ outcome, w.flight? ticket = some (.landed outcome) ∧
    ∀ r, outcome = .ok r → Sourced w.remote.log credentials since r

/-- How the world may change while a call waits: more is answered, and a flight may land with what
its own request was answered. -/
structure Succeeds (w v : World (Ledger σ)) : Prop where
  log : w.remote.log <+: v.remote.log
  flights : ∀ ticket flight, w.flight? ticket = some flight →
    v.flight? ticket = some flight ∨
      ∃ key subkey plan request outcome, flight = .running key subkey (.answer plan request) ∧
        v.flight? ticket = some (.landed outcome) ∧
        ∀ r, outcome = .ok r → ∃ e ∈ v.remote.log, e.request = request ∧ e.Yields r

theorem Succeeds.refl (w : World (Ledger σ)) : Succeeds w w :=
  ⟨List.prefix_refl _, fun _ _ h => .inl h⟩

theorem Succeeds.trans {u : World (Ledger σ)} (h : Succeeds w v) (h' : Succeeds v u) :
    Succeeds w u where
  log := h.log.trans h'.log
  flights := by
    intro ticket flight hflight
    rcases h.flights ticket flight hflight with hsame | ⟨k, s, plan, request, outcome, hrunning,
      hlanded, hyields⟩
    · exact h'.flights ticket flight hsame
    · refine .inr ⟨k, s, plan, request, outcome, hrunning, ?_, ?_⟩
      · rcases h'.flights ticket _ hlanded with hsame | ⟨_, _, _, _, _, hnot, -⟩
        · exact hsame
        · cases hnot
      · intro r hr
        obtain ⟨e, he, hrequest, hr⟩ := hyields r hr
        exact ⟨e, h'.log.subset he, hrequest, hr⟩

theorem Attributed.mono (h : Attributed w credentials since ticket) (hv : Succeeds w v) :
    Attributed v credentials since ticket := by
  rcases h with ⟨k, s, plan, request, hrunning, hheaders⟩ | ⟨outcome, hlanded, hsourced⟩
  · rcases hv.flights ticket _ hrunning with hsame | ⟨_, _, _, _, outcome, heq, hlanded, hyields⟩
    · exact .inl ⟨k, s, plan, request, hsame, hheaders⟩
    · obtain ⟨rfl, rfl, rfl, rfl⟩ : _ ∧ _ ∧ _ ∧ _ := by simpa using heq
      refine .inr ⟨outcome, hlanded, fun r hr => ?_⟩
      obtain ⟨e, he, rfl, hr⟩ := hyields r hr
      obtain ⟨i, hi⟩ := List.mem_iff_getElem?.1 he
      exact ⟨i, e, hi, .inl ⟨hheaders, .inl hr⟩⟩
  · rcases hv.flights ticket _ hlanded with hsame | ⟨_, _, _, _, _, hnot, -⟩
    · exact .inr ⟨outcome, hsame, fun r hr => (hsourced r hr).mono hv.log⟩
    · cases hnot

/-- What holds of the client whenever nobody is in the middle of a turn. -/
structure Guarded (w : World (Ledger σ)) : Prop where
  inSync : w.client.cache.InSync
  connected : w.client.cache.hub.connected = true
  free : w.client.reservation = none
  awaiting : ∀ {ticket key subkey job}, w.flight? ticket = some (.running key subkey job) →
    ∃ plan request, job = .answer plan request ∧ plan.Sends request
  attributed : ∀ {key subkey ticket}, w.client.cache.slot? key subkey = some ticket →
    Attributed w w.client.credentials w.remote.since ticket
  within : w.remote.since ≤ w.remote.log.length

theorem Guarded.isLive (h : Guarded w) : w.client.cache.isLive = true :=
  h.inSync.isLive h.connected

theorem Guarded.step (h : Guarded w) (hv : Succeeds w v) (hsync : v.client.cache.InSync)
    (hconnected : v.client.cache.hub.connected = true) (hfree : v.client.reservation = none)
    (hawaiting : ∀ {ticket key subkey job}, v.flight? ticket = some (.running key subkey job) →
      ∃ plan request, job = .answer plan request ∧ plan.Sends request)
    (hcredentials : v.client.credentials = w.client.credentials)
    (hsince : v.remote.since = w.remote.since)
    (hslots : ∀ {key subkey ticket}, v.client.cache.slot? key subkey = some ticket →
      w.client.cache.slot? key subkey = some ticket ∨
        Attributed v w.client.credentials w.remote.since ticket) : Guarded v where
  inSync := hsync
  connected := hconnected
  free := hfree
  awaiting := hawaiting
  attributed := by
    intro key subkey ticket hslot
    rw [hcredentials, hsince]
    rcases hslots hslot with hold | hnew
    · exact (h.attributed hold).mono hv
    · exact hnew
  within := hsince ▸ Nat.le_trans h.within hv.log.length_le

end ResourceClient

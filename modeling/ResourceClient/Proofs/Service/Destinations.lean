import ResourceClient.Proofs.Service.Placeholders
import ResourceClient.Proofs.Service.Transactions

/-!
Where requests go. A visit resolves its path once or twice, depending on how it is written, so two
visits of one path agree on their URL only if resolving twice makes no difference. The cache goes by
what has been resolved once.
-/
namespace ResourceClient

theorem Client.exists_rawRequest {c : Client} {address : String}
    (h : startsWithSentinel address = false) (method : Method) (verb : String) :
    ∃ raw, c.rawRequest method verb address = .ok raw ∧ raw.url = c.url address := by
  refine ⟨c.signed { method, url := c.url address }, ?_, c.url_signed _⟩
  unfold rawRequest
  rw [h]
  rfl

def Happening.url? : Happening → Option String
  | .requested request => some request.url
  | .rested _ => none

def TransactionStep.path : TransactionStep → Path
  | .get path | .put path _ | .post path _ => path

theorem Recorded.target {c : Client} {drawn : List Path} {index : Nat} {step : TransactionStep}
    {reply : Reply} {o : BatchOperation} (h : Recorded c drawn index step reply o) :
    o.target = Transaction.target c step.path := by
  cases h with
  | get path => rfl
  | put path hbody => rfl
  | post hindex hcreates => exact hcreates.target

namespace Service

open World

namespace Visit

/-- The path of a visit that sends one request about it. -/
def place? : Visit → Option String
  | .get path .. | .options path => path.real?
  | .getRaw address _ | .putRaw address _ | .postRaw address _ => some address
  | .write call => call.target.real?
  | _ => none

/-- Its path is put under the base once only. -/
def resolvesOnce : Visit → Bool
  | .getRaw .. | .putRaw .. | .postRaw .. | .options _ | .write (.delete _) => true
  | _ => false

def prepared (visit : Visit) (c : Client) : Bool :=
  match visit with
  | .get path params how => (fetchPlan (c.url path.toString) params how.warmup).isOk
  | .write (.put _ resource how) => (writeBody c.schema resource how false).isOk
  | .write (.post _ resource how) => (writeBody c.schema resource how true).isOk
  | _ => true

variable {c : Client} {p : String} {visit : Visit}

theorem exists_request_of_once (hplace : visit.place? = some p)
    (honce : visit.resolvesOnce = true) (hp : startsWithSentinel p = false) :
    ∃ request, visit.request c = .ok request ∧ request.url = c.url p := by
  cases visit with
  | getRaw address params =>
    obtain rfl := Option.some.inj hplace
    obtain ⟨raw, hraw, hurl⟩ := Client.exists_rawRequest (c := c) hp .get "get"
    exact ⟨{ raw with params }, by simp only [request, hraw]; rfl, hurl⟩
  | putRaw address body =>
    obtain rfl := Option.some.inj hplace
    obtain ⟨raw, hraw, hurl⟩ := Client.exists_rawRequest (c := c) hp .put "put"
    exact ⟨{ raw with body := some body }, by simp only [request, hraw]; rfl, hurl⟩
  | postRaw address body =>
    obtain rfl := Option.some.inj hplace
    obtain ⟨raw, hraw, hurl⟩ := Client.exists_rawRequest (c := c) hp .post "post"
    exact ⟨{ raw with body := some body }, by simp only [request, hraw]; rfl, hurl⟩
  | options path =>
    cases path with
    | real address =>
      obtain rfl := Option.some.inj hplace
      exact ⟨_, rfl, c.url_signed _⟩
    | placeholder number => cases hplace
  | write call =>
    cases call with
    | delete path =>
      cases path with
      | real address =>
        obtain rfl := Option.some.inj hplace
        exact ⟨_, rfl, c.url_signed _⟩
      | placeholder number => cases hplace
    | put path resource options => cases honce
    | post parent resource options => cases honce
  | _ => cases honce

theorem exists_raw_of_body (body : Except Fault Json) (method : Method) (verb : String)
    {url : String} :
    ∃ (finish : Except Fault (Request → Request)) (m : Method) (v : String),
      finish.isOk = body.isOk ∧ (∀ f, finish = .ok f → ∀ raw, (f raw).url = raw.url) ∧
      (do
        let body ← body
        let raw ← c.rawRequest method verb url
        return { raw with body := some body }) =
          finish >>= fun f => (c.rawRequest m v url).map f := by
  refine ⟨body.map fun body raw => { raw with body := some body }, method, verb, ?_, ?_, ?_⟩
  · cases body <;> rfl
  · intro f hf raw
    obtain ⟨value, -, rfl⟩ := exists_of_map_eq_ok hf
    rfl
  · cases body with
    | error fault => rfl
    | ok value =>
      change (c.rawRequest method verb url >>= fun raw => pure { raw with body := some value }) =
        (c.rawRequest method verb url).map fun raw => { raw with body := some value }
      cases c.rawRequest method verb url <;> rfl

theorem exists_raw_of_twice (hplace : visit.place? = some p) (htwice : visit.resolvesOnce = false) :
    ∃ (finish : Except Fault (Request → Request)) (method : Method) (verb : String),
      finish.isOk = visit.prepared c ∧
      (∀ f, finish = .ok f → ∀ raw, (f raw).url = raw.url) ∧
      visit.request c = finish >>= fun f => (c.rawRequest method verb (c.url p)).map f := by
  cases visit with
  | get path params options =>
    cases path with
    | real address =>
      obtain rfl := Option.some.inj hplace
      refine ⟨(fetchPlan (c.url address) params options.warmup).map
        fun plan raw => { raw with params := plan.params }, .get, "get", ?_, ?_, ?_⟩
      · change _ = (fetchPlan (c.url address) params options.warmup).isOk
        cases fetchPlan (c.url address) params options.warmup <;> rfl
      · intro f hf raw
        obtain ⟨plan, -, rfl⟩ := exists_of_map_eq_ok hf
        rfl
      · change fetchPlan (c.url address) params options.warmup >>= c.fetchRequest = _
        cases hplan : fetchPlan (c.url address) params options.warmup with
        | error fault => rfl
        | ok plan =>
          change c.fetchRequest plan = _
          rw [Client.fetchRequest, url_of_fetchPlan hplan]
          rfl
    | placeholder number => cases hplace
  | write call =>
    cases call with
    | put path resource options =>
      cases path with
      | real address =>
        obtain rfl := Option.some.inj hplace
        exact exists_raw_of_body (writeBody c.schema resource options false) .put "put"
      | placeholder number => cases hplace
    | post parent resource options =>
      cases parent with
      | real address =>
        obtain rfl := Option.some.inj hplace
        exact exists_raw_of_body (writeBody c.schema resource options true) .post "post"
      | placeholder number => cases hplace
    | delete path => cases htwice
  | getRaw address params => cases htwice
  | putRaw address body => cases htwice
  | postRaw address body => cases htwice
  | options path => cases htwice
  | _ => cases hplace

theorem exists_request_of_twice (hplace : visit.place? = some p)
    (htwice : visit.resolvesOnce = false) (hprepared : visit.prepared c = true)
    (hurl : startsWithSentinel (c.url p) = false) :
    ∃ request, visit.request c = .ok request ∧ request.url = c.url (c.url p) := by
  obtain ⟨finish, method, verb, hfinish, hkeeps, hrequest⟩ :=
    exists_raw_of_twice (c := c) hplace htwice
  obtain ⟨raw, hraw, hsent⟩ := Client.exists_rawRequest (c := c) hurl method verb
  cases finish with
  | error fault => cases hfinish.trans hprepared
  | ok f =>
    rw [hraw] at hrequest
    exact ⟨f raw, hrequest, (hkeeps f rfl raw).trans hsent⟩

theorem toOption_request_of_twice (hplace : visit.place? = some p)
    (htwice : visit.resolvesOnce = false) (hurl : startsWithSentinel (c.url p) = true) :
    (visit.request c).toOption = none := by
  obtain ⟨finish, method, verb, -, -, hrequest⟩ := exists_raw_of_twice (c := c) hplace htwice
  rw [hrequest]
  refine toOption_bind_of_none fun f _ => ?_
  rw [c.rawRequest_of_startsWithSentinel hurl]
  rfl

end Visit

variable {σ : Type}

/-- The URLs of all requests that visits and transactions send about one path. -/
structure Routed (net : Network σ) (w : World σ) (p : String) : Prop where
  once : ∀ (visit : Visit) arrived, visit.place? = some p → visit.resolvesOnce = true →
    ∃ request, request.url = w.client.url p ∧
      w.Asks (visit.flow.turn net arrived w).2 request
  twice : ∀ (visit : Visit) arrived, visit.place? = some p → visit.resolvesOnce = false →
    visit.prepared w.client = true → visit.shared? w.client = none →
    startsWithSentinel (w.client.url p) = false →
      ∃ request, request.url = w.client.url (w.client.url p) ∧
        w.Asks (visit.flow.turn net arrived w).2 request
  refused : ∀ (visit : Visit) arrived, visit.place? = some p → visit.resolvesOnce = false →
    visit.shared? w.client = none → startsWithSentinel (w.client.url p) = true →
      ∃ fault after, visit.flow.turn net arrived w = (.done (.fault fault), after) ∧
        w.Unseen after
  recorded : ∀ step operations reply, step.path = .real p →
    (Session.recordOn step { operations } w.client).1 = .ok reply →
      ∃ o, o.target = w.client.url p ∧
        (Session.recordOn step { operations } w.client).2.1 = { operations := operations ++ [o] }
  found : ∀ params (options : GetOptions) plan ticket outcome arrived,
    options.bypass = false → w.client.cache.isLive = true →
    fetchPlan (w.client.url p) params options.warmup = .ok plan →
    w.client.cache.slot? (Address.key (w.client.url p)) (Query.render params) = some ticket →
    w.flight? ticket = some (.landed outcome) →
      (Visit.get (.real p) params options).flow.turn net arrived w =
        (.done (.ofExcept .resource outcome), w)
  taken : ∀ params (options : GetOptions) plan request arrived,
    options.bypass = false → w.client.cache.isLive = true →
    fetchPlan (w.client.url p) params options.warmup = .ok plan →
    w.client.cache.slot? (Address.key (w.client.url p)) (Query.render params) = none →
    w.client.fetchRequest plan = .ok request →
      ∀ key subkey, ((Visit.get (.real p) params options).flow.turn net arrived
          w).2.client.cache.slot? key subkey =
        if key = Address.key (w.client.url p) ∧ subkey = Query.render params then
          some w.client.cache.flights.length
        else w.client.cache.slot? key subkey
  forgotten : ∀ (write : Write) meanwhile request response, write.target = .real p →
    write.request w.client = .ok request →
    (w.exchangeAmid net meanwhile request).1 = .ok response → response.isSuccess = true →
    response.Accounts →
      (write.after net meanwhile w).client.cache.entryAt? (Address.key (w.client.url p)) = none

variable (net : Network σ) (w : World σ) {p : String}

theorem Routed.of_unmarked (hp : startsWithSentinel p = false) : Routed net w p where
  once := by
    intro visit arrived hplace honce
    obtain ⟨request, hrequest, hurl⟩ := Visit.exists_request_of_once hplace honce hp
    have hshared : visit.shared? w.client = none := by
      cases visit <;> first | rfl | cases honce
    have hopens : visit.flow.Opens net arrived w _ := visit.opens_flow hshared
    rw [hrequest] at hopens
    exact ⟨request, hurl, hopens⟩
  twice := by
    intro visit arrived hplace htwice hprepared hshared hurl
    obtain ⟨request, hrequest, hsent⟩ :=
      Visit.exists_request_of_twice hplace htwice hprepared hurl
    have hopens : visit.flow.Opens net arrived w _ := visit.opens_flow hshared
    rw [hrequest] at hopens
    exact ⟨request, hsent, hopens⟩
  refused := by
    intro visit arrived hplace htwice hshared hurl
    have hopens : visit.flow.Opens net arrived w _ := visit.opens_flow hshared
    exact hopens.refused (Visit.toOption_request_of_twice hplace htwice hurl)
  recorded := by
    intro step operations reply hpath hreply
    obtain ⟨o, hrecorded, hpush⟩ := Session.recordOn_eq_ok hreply
    refine ⟨o, ?_, hpush⟩
    rw [hrecorded.target, hpath]
    rfl
  found := by
    intro params options plan ticket outcome arrived hbypass hlive hplan hslot hlanded
    change (Session.replyTo .resource (getWith (.real p) params options)).turn net arrived w = _
    unfold Session.replyTo
    rw [turn_getWith p _ hplan, hbypass, if_neg Bool.false_ne_true,
      turn_fetchShared_of_slot? plan _ hlive hslot, turn_join_of_landed _ hlanded]
    rfl
  taken := by
    intro params options plan request arrived hbypass hlive hplan hslot hrequest key subkey
    change ((Session.replyTo .resource (getWith (.real p) params options)).turn net arrived
      w).2.client.cache.slot? key subkey = _
    unfold Session.replyTo
    rw [turn_getWith p _ hplan, hbypass, if_neg Bool.false_ne_true,
      turn_fetchShared_of_empty plan _ hlive hslot, hrequest]
    exact w.slot?_readRequested _ _ plan request key subkey
  forgotten := by
    intro write meanwhile request response htarget hrequest hanswer hsuccess haccounts
    rw [write.after_eq net meanwhile w htarget hrequest, hanswer]
    exact (write.entryAt?_settle_of_accounts _ hsuccess haccounts _).1

/-- Everything goes to the URL of the path, except for gets, puts and posts that resolve it once
more; these agree unless the base starts with a slash, and are refused under a base that is written
with the sentinel. -/
theorem routed (hp : startsWithSentinel p = false) :
    let url := w.client.url p
    Routed net w p ∧
      (w.client.url url = url ↔
        (p.toList.head? = some '/' → w.client.config.base.head? ≠ some '/')) ∧
      (startsWithSentinel url = true ↔
        p.toList.head? = some '/' ∧ w.client.config.base.head? = some Path.sentinel) :=
  ⟨.of_unmarked net w hp, Config.url_url_iff, Config.startsWithSentinel_url hp⟩

theorem routed_of_slash :
    let w : World Unit := { client := Client.opened {} {} true, remote := () }
    startsWithSentinel "/a/" = false ∧ Routed Visit.noContent w "/a/" ∧
      w.client.url (w.client.url "/a/") = w.client.url "/a/" := by
  intro w
  have hunmarked : startsWithSentinel "/a/" = false := by decide
  have hrouted := routed Visit.noContent w hunmarked
  exact ⟨hunmarked, hrouted.1, hrouted.2.1.2 fun _ => by decide +kernel⟩

/-- Under a base without a host, a path is read from elsewhere than it is deleted from. -/
theorem get_and_delete_disagree :
    let w : World Unit := { client := Client.opened { restUrl := "/api" } {} true, remote := () }
    let asked (visit : Visit) : List String :=
      (visit.flow.turn Visit.noContent (fun _ => true) w).2.trace.filterMap Happening.url?
    startsWithSentinel "/a/" = false ∧ w.client.url "/a/" = "/api/a/" ∧
      asked (.write (.delete (.real "/a/"))) = ["/api/a/"] ∧
      asked (.get (.real "/a/") [] {}) = ["/api/api/a/"] := by
  decide +kernel

end Service

end ResourceClient

import ResourceClient.Proofs.Client.FirstRequests
import ResourceClient.Proofs.Service.Attempts
import ResourceClient.Session.Run

/-!
Visits are the calls about one path. Each begins with one request at most, which its arguments and
the client decide on, unless it is a read that finds its slot taken and shares what is there.
-/
namespace ResourceClient

open ResourceClient.Action World

variable {σ : Type} {net : Network σ} {arrived : Request → Bool} {w : World σ}

/-- How a call begins: with a failure, at once and unseen, or with a request. -/
def Flow.Opens (net : Network σ) (arrived : Request → Bool) (f : Flow Reply) (w : World σ)
    (opening : Except Fault Request) : Prop :=
  match opening with
  | .error fault => ∃ v, w.Unseen v ∧ f.turn net arrived w = (.done (.fault fault), v)
  | .ok request => w.Asks (f.turn net arrived w).2 request

theorem Flow.Opens.refused {f : Flow Reply} {opening : Except Fault Request}
    (h : f.Opens net arrived w opening) (hnone : opening.toOption = none) :
    ∃ fault after, f.turn net arrived w = (.done (.fault fault), after) ∧ w.Unseen after := by
  cases opening with
  | ok request => cases hnone
  | error fault =>
    obtain ⟨after, hunseen, hturn⟩ := h
    exact ⟨fault, after, hturn, hunseen⟩

theorem Flow.Opens.asks {f : Flow Reply} {opening : Except Fault Request} {request : Request}
    (h : f.Opens net arrived w opening) (hsome : opening.toOption = some request) :
    w.Asks (f.turn net arrived w).2 request := by
  cases opening with
  | ok other =>
    obtain rfl := Option.some.inj hsome
    exact h
  | error fault => cases hsome

theorem Action.Begins.replyTo {α : Type} {x : Action α} {opening : Except Fault Request}
    (h : x.Begins net arrived w opening) (reply : α → Reply) :
    (Session.replyTo reply x).Opens net arrived w opening := by
  have hturn := h Reply fun outcome => .done (.ofExcept reply outcome)
  cases opening with
  | error fault => exact hturn
  | ok request => exact hturn

namespace Service

variable (path : Path) (params : Table String) (options : GetOptions) (address : String)
  (body : Json)

theorem eq_real_of_requireReal {verb address : String} {path : Path}
    (h : requireReal verb path = .ok address) : path = .real address := by
  cases path with
  | real other => exact congrArg Path.real (Except.ok.inj h)
  | placeholder number => cases h

def getRequest (c : Client) : Except Fault Request := do
  let address ← requireReal "get" path
  let plan ← fetchPlan (c.url address) params options.warmup
  c.fetchRequest plan

theorem getRequest_plain {c : Client} {address : String}
    (h : startsWithSentinel (c.url address) = false) (params : Table String) (bypass : Bool) :
    getRequest (.real address) params { bypass } c =
      .ok (c.signed { method := .get, url := c.url (c.url address), params }) := by
  change (c.rawRequest .get "get" (c.url address)).map _ = _
  rw [Client.rawRequest, h, if_neg Bool.false_ne_true]
  change Except.ok _ = _
  unfold Client.signed Request.signed
  cases c.credentials <;> rfl

def sharedFlight? (c : Client) : Option Ticket :=
  match path with
  | .placeholder _ => none
  | .real address =>
    if options.bypass || !c.cache.isLive then none
    else c.cache.slot? (Address.key (c.url address)) (Query.render params)

variable {path params options}

theorem begins_getWith (h : sharedFlight? path params options w.client = none) :
    (getWith path params options).Begins net arrived w
      (getRequest path params options w.client) := by
  refine begins_need_bind fun address haddress => begins_look_bind ?_
  refine begins_need_bind fun plan _ => ?_
  split
  · exact begins_fetch plan
  · next hbypass =>
    refine begins_fetchShared plan fun hlive => ?_
    obtain rfl := eq_real_of_requireReal haddress
    simpa [sharedFlight?, hbypass, hlive] using h

theorem url_of_fetchPlan {url : String} {params : Table String} {warmup : Bool} {plan : Fetch}
    (h : fetchPlan url params warmup = .ok plan) : plan.url = url := by
  unfold fetchPlan at h
  split at h
  · obtain ⟨mode, -, rfl⟩ := exists_of_map_eq_ok h
    rfl
  · exact congrArg Fetch.url (Except.ok.inj h).symm

theorem turn_getWith {α : Type} (k : Except Fault Resource → Flow α) {plan : Fetch}
    (hplan : fetchPlan (w.client.url address) params options.warmup = .ok plan) :
    ((getWith (.real address) params options).run.bind k).turn net arrived w =
      if options.bypass then ((fetch plan).run.bind k).turn net arrived w
      else
        ((fetchShared (w.client.url address) (Query.render params) plan).run.bind k).turn net
          arrived w := by
  change ((need (fetchPlan (w.client.url address) params options.warmup) >>= fun plan =>
    if options.bypass then fetch plan
    else fetchShared (w.client.url address) (Query.render params) plan).run.bind k).turn net
      arrived w = _
  rw [hplan]
  cases options.bypass <;> rfl

theorem turn_get_of_holds {r : Resource} (hlive : w.client.cache.isLive = true)
    (hholds : w.client.cache.Holds (Address.key (w.client.url address)) "" r) :
    (Session.replyTo .resource (getWith (.real address) [] {})).turn net arrived w =
      (.done (.resource r), w) := by
  obtain ⟨ticket, hslot, hlanded⟩ := hholds
  have hquery : Query.render [] = "" := rfl
  rw [← hquery] at hslot
  have hplan : fetchPlan (w.client.url address) [] false =
      .ok { url := w.client.url address, params := [] } := rfl
  unfold Session.replyTo
  rw [turn_getWith address _ hplan, if_neg Bool.false_ne_true,
    turn_fetchShared_of_slot? _ _ hlive hslot, turn_join_of_landed _ hlanded]
  rfl

variable (params) in
theorem begins_getRaw :
    (getRaw address params).Begins net arrived w (do
      let request ← w.client.rawRequest .get "get" address
      return { request with params }) :=
  begins_look_bind <| begins_need_bind fun _ _ => begins_exchange _ w

theorem begins_putRaw :
    (putRaw address body).Begins net arrived w (do
      let request ← w.client.rawRequest .put "put" address
      return { request with body := some body }) :=
  begins_look_bind <| begins_need_bind fun _ _ => begins_exchange _ w

theorem begins_postRaw :
    (postRaw address body).Begins net arrived w (do
      let request ← w.client.rawRequest .post "post" address
      return { request with body := some body }) :=
  begins_look_bind <| begins_need_bind fun _ _ => begins_exchange _ w

namespace Write

variable (path) (resource : Resource) (options : WriteOptions)

theorem begins_putWith :
    (putWith path resource options).Begins net arrived w
      ((Write.put path resource options).request w.client) := by
  refine begins_need_bind fun address _ => begins_look_bind <| begins_need_bind fun body _ => ?_
  exact (begins_putRaw _ body).bind _

theorem begins_postWith :
    (postWith path resource options).Begins net arrived w
      ((Write.post path resource options).request w.client) := by
  refine begins_need_bind fun address _ => begins_look_bind <| begins_need_bind fun body _ => ?_
  exact (begins_postRaw _ body).bind _

theorem begins_delete :
    (Service.delete path).Begins net arrived w ((Write.delete path).request w.client) :=
  begins_need_bind fun _ _ => begins_look_bind <| (begins_exchange _ w).bind _

theorem not_isForkConflict_request (parent : String) (c : Client) :
    FailsOnly (·.isForkConflict = false)
      ((Write.post (.real parent) resource {}).request c) := by
  refine FailsOnly.bind (.ok parent) fun address => ?_
  refine FailsOnly.bind ?_ fun body => ?_
  · refine (Wire.failsOnly_exportResource { creating := true } resource).imp fun fault hkind => ?_
    cases fault <;> first | rfl | cases hkind
  · exact (Client.not_isForkConflict_rawRequest _ _ _).bind fun _ => .ok _

def flow : Write → Flow Reply
  | .put path resource options => Session.replyTo .resource (putWith path resource options)
  | .post parent resource options => Session.replyTo .resource (postWith parent resource options)
  | .delete path => Session.replyTo (fun _ => .text "deleted") (Service.delete path)

theorem opens_flow (write : Write) :
    write.flow.Opens net arrived w (write.request w.client) := by
  cases write with
  | put path resource options => exact (begins_putWith path resource options).replyTo _
  | post parent resource options => exact (begins_postWith parent resource options).replyTo _
  | delete path => exact (begins_delete path).replyTo _

end Write

theorem begins_options :
    (Service.options path).Begins net arrived w (do
      let address ← requireReal "options" path
      return w.client.signed { method := .options, url := w.client.url address }) :=
  begins_need_bind fun _ _ => begins_look_bind <| (begins_exchange _ w).bind _

theorem begins_ancestor (wanted : Resource → Bool)
    (h : sharedFlight? path [] {} w.client = none) :
    (ancestor path wanted).Begins net arrived w (do
      let start ← requireReal "get" path
      if w.client.config.maxAncestorDepth = 0 then .error (.tooDeep start 0)
      else getRequest path [] {} w.client) := by
  refine begins_need_bind fun start hstart => begins_look_bind ?_
  obtain rfl := eq_real_of_requireReal hstart
  cases w.client.config.maxAncestorDepth with
  | zero => exact begins_fail (.tooDeep start 0) w
  | succ depth =>
    rw [if_neg (Nat.succ_ne_zero depth)]
    exact ((begins_getWith h).bind _).bind _

theorem begins_newest :
    (newest path).Begins net arrived w (do
      let address ← requireReal "get" path
      getRequest (.real (Address.join address Known.last)) [] { bypass := true } w.client) :=
  begins_need_bind fun _ _ => (begins_getWith rfl).bind _

def firstVersion (old : Path) (resource : Resource) (rootVersions : Option (List Path)) :
    Resource :=
  { resource with rootVersions := rootVersions.getD resource.rootVersions }.setFollows old

theorem begins_postVersion (resource : Resource) (rootVersions : Option (List Path)) :
    (postVersion path resource rootVersions).Begins net arrived w (do
      let address ← requireReal "post" path
      (Write.post (.real (Address.parent address)) (firstVersion path resource rootVersions)
        {}).request w.client) := by
  refine begins_need_bind fun address _ => begins_look_bind ?_
  refine (Write.begins_postWith _ _ {}).outcome_bind fun fault v hfault => ?_
  have hfork := Write.not_isForkConflict_request _ _ w.client fault hfault
  simp only [hfork]
  exact begins_fail fault v

inductive Visit where
  | get (path : Path) (params : Table String) (options : GetOptions)
  | getRaw (address : String) (params : Table String)
  | putRaw (address : String) (body : Json)
  | postRaw (address : String) (body : Json)
  | write (call : Write)
  | hide (path : Path) (contentType : String)
  | options (path : Path)
  | resolve (path : Path)
  | ancestor (path : Path) (wanted : Resource → Bool)
  | newest (item : Path)
  | postVersion (old : Path) (resource : Resource) (rootVersions : Option (List Path))

namespace Visit

def flow : Visit → Flow Reply
  | .get path params options => Session.replyTo .resource (getWith path params options)
  | .getRaw address params => Session.replyTo .response (Service.getRaw address params)
  | .putRaw address body => Session.replyTo .response (Service.putRaw address body)
  | .postRaw address body => Session.replyTo .response (Service.postRaw address body)
  | .write call => call.flow
  | .hide path contentType => Session.replyTo .resource (Service.hide path contentType)
  | .options path => Session.replyTo .allowance (Service.options path)
  | .resolve path => Session.replyTo .resource (Service.resolve (.inl path))
  | .ancestor path wanted => Session.replyTo .found (Service.ancestor path wanted)
  | .newest item => Session.replyTo (fun p => .text p.toString) (Service.newest item)
  | .postVersion old resource rootVersions =>
    Session.replyTo .version (Service.postVersion old resource rootVersions)

def written : Visit → String
  | .getRaw address _ | .putRaw address _ | .postRaw address _ => address
  | .write call => call.target.toString
  | .get path .. | .hide path _ | .options path | .resolve path | .ancestor path _
  | .newest path | .postVersion path .. => path.toString

def request (visit : Visit) (c : Client) : Except Fault Request :=
  match visit with
  | .get path params options => getRequest path params options c
  | .getRaw address params => do
    let request ← c.rawRequest .get "get" address
    return { request with params }
  | .putRaw address body => do
    let request ← c.rawRequest .put "put" address
    return { request with body := some body }
  | .postRaw address body => do
    let request ← c.rawRequest .post "post" address
    return { request with body := some body }
  | .write call => call.request c
  | .hide path contentType =>
    (Write.put path { contentType, path, data := [(Known.metadata, [("hidden", .bool true)])] }
      { keepMetadata := true }).request c
  | .options path => do
    let address ← requireReal "options" path
    return c.signed { method := .options, url := c.url address }
  | .resolve path => getRequest path [] {} c
  | .ancestor path _ => do
    let start ← requireReal "get" path
    if c.config.maxAncestorDepth = 0 then .error (.tooDeep start 0) else getRequest path [] {} c
  | .newest item => do
    let address ← requireReal "get" item
    getRequest (.real (Address.join address Known.last)) [] { bypass := true } c
  | .postVersion old resource rootVersions => do
    let address ← requireReal "post" old
    (Write.post (.real (Address.parent address)) (firstVersion old resource rootVersions)
      {}).request c

def shared? (visit : Visit) (c : Client) : Option Ticket :=
  match visit with
  | .get path params options => sharedFlight? path params options c
  | .resolve path | .ancestor path _ => sharedFlight? path [] {} c
  | _ => none

/-- A visit that shares nothing begins as its arguments say. -/
theorem opens_flow (visit : Visit) (h : visit.shared? w.client = none) :
    visit.flow.Opens net arrived w (visit.request w.client) := by
  cases visit with
  | get path params options => exact (begins_getWith h).replyTo _
  | getRaw address params => exact (begins_getRaw params address).replyTo _
  | putRaw address body => exact (begins_putRaw address body).replyTo _
  | postRaw address body => exact (begins_postRaw address body).replyTo _
  | write call => exact call.opens_flow
  | hide path contentType => exact (Write.begins_putWith path _ _).replyTo _
  | options path => exact begins_options.replyTo _
  | resolve path => exact (begins_getWith h).replyTo _
  | ancestor path wanted => exact (begins_ancestor wanted h).replyTo _
  | newest item => exact begins_newest.replyTo _
  | postVersion old resource rootVersions =>
    exact (begins_postVersion resource rootVersions).replyTo _

end Visit

/-- A call that is one flow. -/
inductive Operation where
  | visit (call : Visit)
  | batch (operations : List BatchOperation)
  | deepPost (resources : List Resource)

def Operation.flow : Operation → Flow Reply
  | .visit call => call.flow
  | .batch operations => Session.replyTo .resources (sendBatch operations)
  | .deepPost resources => Session.replyTo .resources (Service.deepPost resources)

def Operation.isOther : Operation → Bool
  | .visit (.get ..) | .visit (.write _) => false
  | _ => true

end Service

end ResourceClient

import ResourceClient.Proofs.Client.Polls
import ResourceClient.Proofs.Client.Shrinking
import ResourceClient.Proofs.Client.RelyGuarantee
import ResourceClient.Proofs.Service.Visits
import ResourceClient.Service.Batch
import ResourceClient.Service.Ladder

/-!
Calls keep a rely-guarantee pair if it is stable under what every call does: to record an event,
to fetch an answer, and to leave the cache with no more than before. That plain reads keep it is
assumed, and shown for each pair on its own.
-/
namespace ResourceClient

open Service

namespace Client

/-- Nothing is left of what was at the URL, nor of its parent. -/
def HasForgotten (url : String) (c : Client) : Prop :=
  c.cache.entryAt? (Address.key url) = none ∧
    c.cache.entryAt? (Address.key (Address.parent url)) = none

variable {url : String} {body : Json} {c : Client}

theorem hasForgotten_finishWrite (h : (c.finishWrite url body).1.isOk = true) :
    (c.finishWrite url body).2.HasForgotten url := by
  unfold finishWrite at h ⊢
  cases hreport : readReport body with
  | error fault =>
    rw [hreport] at h
    cases h
  | ok report => exact LiveCache.entryAt?_forgetTouched_of_posted c.cache List.mem_cons_self

theorem hasForgotten_finishDelete (h : (c.finishDelete url body).1.isOk = true) :
    (c.finishDelete url body).2.HasForgotten url := by
  unfold finishDelete at h ⊢
  cases hreport : readReport body with
  | error fault =>
    rw [hreport] at h
    cases h
  | ok report => exact LiveCache.entryAt?_forgetTouched_of_posted c.cache List.mem_cons_self

end Client

namespace RelyGuarantee

variable {σ α β : Type} {net : Network σ} (a : RelyGuarantee net)

structure Stable : Prop where
  record : ∀ {w} happening, a.holds w →
    a.holds (w.record happening) ∧ a.leads w (w.record happening)
  fetchAnswer : ∀ {w} request, a.holds w →
    a.holds (w.fetchAnswer net request).2 ∧ a.leads w (w.fetchAnswer net request).2
  shrink : ∀ {w d}, a.holds w → w.client.Shrinks d →
    a.holds { w with client := d } ∧ a.leads w { w with client := d }

/-- Whenever it is begun, the call keeps the pair, and it ends with such a result. -/
structure Ensures (result : Except Fault α → World σ → Prop) (x : Action α) : Prop where
  keeps : ∀ start w, a.holds w → a.leads start w → a.Keeps (a.Ends result) x.run start w

def PreservedBy (x : Action α) : Prop := a.Ensures (fun _ _ => True) x

variable {a} {result : Except Fault α → World σ → Prop}

theorem Ensures.imp {result' : Except Fault α → World σ → Prop} {x : Action α}
    (hx : a.Ensures result x) (h : ∀ outcome w, result outcome w → result' outcome w) :
    a.Ensures result' x := by
  refine ⟨fun start w hholds hleads => Keeps.imp a ?_ (hx.keeps start w hholds hleads)⟩
  rintro start outcome w ⟨hholds, hleads, hresult⟩
  exact ⟨hholds, hleads, h outcome w hresult⟩

theorem Ensures.preservedBy {x : Action α} (hx : a.Ensures result x) : a.PreservedBy x :=
  hx.imp fun _ _ _ => trivial

theorem Ensures.bind {x : Action β} {k : β → Action α} (hx : a.PreservedBy x)
    (hfault : ∀ fault w, result (.error fault) w) (hk : ∀ value, a.Ensures result (k value)) :
    a.Ensures result (x >>= k) := by
  refine ⟨fun start w hholds hleads => keeps_action_bind ?_⟩
  refine Keeps.imp a ?_ (hx.keeps start w hholds hleads)
  rintro start outcome w ⟨hholds, hleads, -⟩
  cases outcome with
  | error fault => exact ⟨hholds, hleads, hfault fault w⟩
  | ok value => exact (hk value).keeps start w hholds hleads

theorem Ensures.look_bind {k : Client → Action α}
    (h : ∀ {v}, a.holds v → a.Ensures result (k v.client)) :
    a.Ensures result (Action.look >>= k) :=
  ⟨fun start w hholds hleads => (h hholds).keeps start w hholds hleads⟩

theorem Ensures.need_bind {value : Except Fault β} {k : β → Action α}
    (hfault : ∀ fault w, result (.error fault) w)
    (h : ∀ {v}, value = .ok v → a.Ensures result (k v)) :
    a.Ensures result (Action.need value >>= k) := by
  cases value with
  | error fault => exact ⟨fun _ w hholds hleads => ⟨hholds, hleads, hfault fault w⟩⟩
  | ok v => exact h rfl

theorem Stable.attempt (h : a.Stable) {step : Client → Except Fault α × Client}
    (hstep : ∀ c : Client, c.Shrinks (step c).2)
    (hresult : ∀ w : World σ,
      result (step w.client).1 { w with client := (step w.client).2 }) :
    a.Ensures result (Action.attempt step) := by
  refine ⟨fun start w hholds hleads => keeps_attempt ?_⟩
  obtain ⟨hthere, hback⟩ := h.shrink hholds (hstep w.client)
  exact ⟨hthere, a.trans hleads hback, hresult w⟩

/-- Before the first poll the pair need not hold, if the poll restores it. -/
theorem keeps_join_of {ticket : Ticket} {start w : World σ}
    (h : ∀ arrived, a.holds (w.driveWhen net arrived ticket) ∧
      a.leads start (w.driveWhen net arrived ticket)) :
    a.Keeps (a.Ends fun _ _ => True) (Action.join ticket).run start w := by
  intro arrived
  obtain ⟨hdriven, hback⟩ := h arrived
  refine ⟨fun outcome _ => ⟨hdriven, hback, trivial⟩, fun _ => ⟨hdriven, hback, ?_⟩⟩
  intro v _ hv again outcome _
  obtain ⟨hthere, hagain⟩ := a.drive again ticket hv
  exact ⟨hthere, hagain, trivial⟩

namespace PreservedBy

theorem bind {x : Action β} {k : β → Action α} (hx : a.PreservedBy x)
    (hk : ∀ value, a.PreservedBy (k value)) : a.PreservedBy (x >>= k) :=
  Ensures.bind hx (fun _ _ => trivial) hk

theorem need (value : Except Fault α) : a.PreservedBy (Action.need value) :=
  ⟨fun _ _ hholds hleads => ⟨hholds, hleads, trivial⟩⟩

theorem look : a.PreservedBy Action.look :=
  ⟨fun _ _ hholds hleads => ⟨hholds, hleads, trivial⟩⟩

theorem outcome {x : Action α} (hx : a.PreservedBy x) : a.PreservedBy (Action.outcome x) := by
  refine ⟨fun start w hholds hleads => keeps_outcome ?_⟩
  exact Keeps.imp a (fun _ _ _ hends => hends) (hx.keeps start w hholds hleads)

theorem join (ticket : Ticket) : a.PreservedBy (Action.join ticket) :=
  ⟨fun _ _ hholds hleads => keeps_join_of fun arrived =>
    ⟨(a.drive arrived ticket hholds).1, a.trans hleads (a.drive arrived ticket hholds).2⟩⟩

end PreservedBy

theorem keeps_replyTo {reply : α → Reply} {x : Action α} {result' : Reply → World σ → Prop}
    {start w : World σ}
    (hreply : ∀ outcome w, result outcome w → result' (.ofExcept reply outcome) w)
    (hx : a.Keeps (a.Ends result) x.run start w) :
    a.Keeps (a.Ends result') (Session.replyTo reply x) start w := by
  apply keeps_bind
  refine Keeps.imp a ?_ hx
  rintro start outcome w ⟨hholds, hleads, hresult⟩
  exact ⟨hholds, hleads, hreply outcome w hresult⟩

variable (a) in
/-- A write that succeeds has forgotten its target, as some client that the pair admits resolves it.
-/
def TargetForgotten (path : Path) (outcome : Except Fault α) (w : World σ) : Prop :=
  outcome.isOk = true → ∃ v address, a.holds v ∧ path = .real address ∧
    w.client.HasForgotten (v.client.url address)

namespace Stable

variable (h : a.Stable)
include h

theorem rest (wait : Wait) : a.PreservedBy (Action.rest wait) := by
  refine ⟨fun start w hholds hleads => ?_⟩
  obtain ⟨hthere, hback⟩ := h.record (.rested wait) hholds
  exact ⟨hthere, a.trans hleads hback, trivial⟩

theorem exchange (request : Request) : a.PreservedBy (Action.exchange request) := by
  refine ⟨fun start w hholds hleads => ?_⟩
  obtain ⟨hthere, hback⟩ := h.record (.requested request) hholds
  apply keeps_exchange
  refine ⟨hthere, a.trans hleads hback, fun v _ hv => ?_⟩
  obtain ⟨hanswered, hanswer⟩ := h.fetchAnswer request hv
  exact ⟨hanswered, hanswer, trivial⟩

theorem fetch {plan : Fetch} (hplain : plan.listing = none) : a.PreservedBy (fetch plan) := by
  refine Ensures.look_bind fun _ => Ensures.need_bind (fun _ _ => trivial) fun {request} _ => ?_
  refine ⟨fun start w hholds hleads => ?_⟩
  obtain ⟨hthere, hback⟩ := h.record (.requested request) hholds
  refine ⟨hthere, a.trans hleads hback, fun v _ hv => ?_⟩
  obtain ⟨hanswered, hanswer⟩ := h.fetchAnswer request hv
  let there := v.fetchAnswer net request
  obtain ⟨names, hnames⟩ := there.2.client.snd_absorb hplain there.1
  have hshrinks : there.2.client.Shrinks (there.2.client.absorb plan there.1).2 :=
    hnames ▸ there.2.client.shrinks_names names
  obtain ⟨htaken, htake⟩ := h.shrink hanswered hshrinks
  exact ⟨htaken, a.trans hanswer htake, trivial⟩

theorem getRaw (address : String) (params : Table String) :
    a.PreservedBy (Service.getRaw address params) :=
  .bind .look fun _ => .bind (.need _) fun _ => h.exchange _

theorem putRaw (address : String) (body : Json) : a.PreservedBy (Service.putRaw address body) :=
  .bind .look fun _ => .bind (.need _) fun _ => h.exchange _

theorem postRaw (address : String) (body : Json) : a.PreservedBy (Service.postRaw address body) :=
  .bind .look fun _ => .bind (.need _) fun _ => h.exchange _

omit h in
theorem targetForgotten_error (path : Path) (fault : Fault) (w : World σ) :
    a.TargetForgotten path (.error fault : Except Fault α) w := nofun

theorem finish {v : World σ} {path : Path} {verb address : String}
    {send : Action Response} {take : Json → Client → Except Fault α × Client} (hv : a.holds v)
    (haddress : requireReal verb path = .ok address) (hsend : a.PreservedBy send)
    (hshrinks : ∀ answer c, Client.Shrinks c (take answer c).2)
    (hforgotten : ∀ answer c, (take answer c).1.isOk = true →
      (take answer c).2.HasForgotten (v.client.url address)) :
    a.Ensures (a.TargetForgotten path) (send >>= fun response =>
      Action.need response.successBody >>= fun answer => Action.attempt (take answer)) := by
  refine Ensures.bind hsend (targetForgotten_error path) fun response => ?_
  refine Ensures.need_bind (targetForgotten_error path) fun {answer} _ => ?_
  refine h.attempt (hshrinks answer) fun w hok => ?_
  exact ⟨v, address, hv, eq_real_of_requireReal haddress, hforgotten answer w.client hok⟩

theorem putWith (path : Path) (resource : Resource) (options : WriteOptions) :
    a.Ensures (a.TargetForgotten path) (Service.putWith path resource options) := by
  refine Ensures.need_bind (targetForgotten_error path) fun {address} haddress => ?_
  refine Ensures.look_bind fun {v} hv =>
    Ensures.need_bind (targetForgotten_error path) fun {body} _ => ?_
  exact h.finish hv haddress (h.putRaw _ body) (fun answer c => c.shrinks_finishWrite _ answer)
    fun _ _ => Client.hasForgotten_finishWrite

theorem postWith (parent : Path) (resource : Resource) (options : WriteOptions) :
    a.Ensures (a.TargetForgotten parent) (Service.postWith parent resource options) := by
  refine Ensures.need_bind (targetForgotten_error parent) fun {address} haddress => ?_
  refine Ensures.look_bind fun {v} hv =>
    Ensures.need_bind (targetForgotten_error parent) fun {body} _ => ?_
  exact h.finish hv haddress (h.postRaw _ body) (fun answer c => c.shrinks_finishWrite _ answer)
    fun _ _ => Client.hasForgotten_finishWrite

theorem delete (path : Path) : a.Ensures (a.TargetForgotten path) (Service.delete path) := by
  refine Ensures.need_bind (targetForgotten_error path) fun {address} haddress => ?_
  refine Ensures.look_bind fun {v} hv => ?_
  exact h.finish hv haddress (h.exchange _) (fun answer c => c.shrinks_finishDelete _ answer)
    fun _ _ => Client.hasForgotten_finishDelete

theorem options (path : Path) : a.PreservedBy (Service.options path) :=
  .bind (.need _) fun _ => .bind .look fun _ => .bind (h.exchange _) fun _ =>
    .bind (.need _) fun body => .need (.ok (Allowance.mk body))

theorem sendBatch (operations : List BatchOperation) :
    a.PreservedBy (Service.sendBatch operations) := by
  unfold Service.sendBatch
  split
  · exact .need (.ok [])
  · refine .bind .look fun c => .bind (h.exchange _) fun response => ?_
    exact h.attempt (fun d => d.shrinks_finishBatch operations response) fun _ => trivial

theorem deepPost (resources : List Resource) : a.PreservedBy (Service.deepPost resources) := by
  refine .bind .look fun c => .bind (.need _) fun order => ?_
  refine .bind (h.attempt (fun d => d.shrinks_recordPosts resources order {}) fun _ => trivial)
    fun tx => ?_
  exact .bind (h.sendBatch tx.operations) fun results => .need _

end Stable

variable (a) in
/-- Plain reads keep it too. -/
structure StableUnderReads : Prop extends a.Stable where
  reads : ∀ path params bypass, a.PreservedBy (getWith path params { bypass })

namespace StableUnderReads

variable (h : a.StableUnderReads)
include h

theorem newest (item : Path) : a.PreservedBy (Service.newest item) := by
  refine .bind (.need _) fun address => .bind (h.reads _ _ _) fun tag => ?_
  dsimp only
  split
  · next head _ =>
    cases Path.parse? head with
    | none => exact .need _
    | some path => exact .need (.ok path)
  · exact .need _

theorem postAfter (item : Path) (version : Resource) (attempts : Nat) (state : RetryState)
    (follows : Path) (rebased : Bool) :
    a.PreservedBy (Service.postAfter item version attempts state follows rebased) := by
  induction attempts generalizing state follows rebased with
  | zero => exact .need _
  | succ attempts ih =>
    refine .bind (.outcome (h.postWith item _ {}).preservedBy) fun result => ?_
    cases result with
    | ok value => exact .need (.ok _)
    | error fault =>
      dsimp only
      split
      · exact .need _
      · split
        · exact .need _
        · refine .bind (h.rest _) fun _ => .bind (h.newest item) fun head => ?_
          exact ih _ head true

theorem postVersion (old : Path) (resource : Resource) (rootVersions : Option (List Path)) :
    a.PreservedBy (Service.postVersion old resource rootVersions) :=
  .bind (.need _) fun _ => .bind .look fun _ => h.postAfter _ _ _ _ _ _

theorem ancestor (path : Path) (wanted : Resource → Bool) :
    a.PreservedBy (Service.ancestor path wanted) := by
  have hclimb (steps : Nat) (current : String) :
      a.PreservedBy (climb (fun address => Service.get (.real address)) wanted steps current) := by
    induction steps generalizing current with
    | zero => exact .need (.ok none)
    | succ steps ih =>
      refine .bind (h.reads _ _ _) fun resource => ?_
      split
      · exact .need (.ok _)
      · split
        · exact .need (.ok _)
        · exact ih _
  refine .bind (.need _) fun start => .bind .look fun c => .bind (hclimb _ start) fun found => ?_
  cases found with
  | none => exact .need _
  | some result => exact .need (.ok result)

end StableUnderReads

variable {start w : World σ} {result' : Reply → World σ → Prop}

theorem Stable.keeps_write (h : a.Stable) (hholds : a.holds w) (hleads : a.leads start w)
    (call : Write)
    (hresult : ∀ {α : Type} (reply : α → Reply) outcome w, a.TargetForgotten call.target outcome w →
      result' (.ofExcept reply outcome) w) :
    a.Keeps (a.Ends result') call.flow start w := by
  cases call with
  | put path resource options =>
    exact keeps_replyTo (hresult _) ((h.putWith path resource options).keeps start w hholds hleads)
  | post parent resource options =>
    exact keeps_replyTo (hresult _)
      ((h.postWith parent resource options).keeps start w hholds hleads)
  | delete path => exact keeps_replyTo (hresult _) ((h.delete path).keeps start w hholds hleads)

/-- A call that neither reads nor writes a path that it is given keeps to whatever plain reads keep
to. -/
theorem StableUnderReads.keeps_other (h : a.StableUnderReads) (hholds : a.holds w)
    (hleads : a.leads start w) {operation : Operation} (hother : operation.isOther = true)
    (hresult : ∀ reply w, result' reply w) :
    a.Keeps (a.Ends result') operation.flow start w := by
  have hkeeps {α : Type} {reply : α → Reply} {x : Action α} (hx : a.PreservedBy x) :
      a.Keeps (a.Ends result') (Session.replyTo reply x) start w :=
    keeps_replyTo (fun _ _ _ => hresult _ _) (hx.keeps start w hholds hleads)
  cases operation with
  | batch operations => exact hkeeps (h.sendBatch operations)
  | deepPost resources => exact hkeeps (h.deepPost resources)
  | visit call =>
    cases call with
    | get path params options => cases hother
    | write call => cases hother
    | getRaw address params => exact hkeeps (h.getRaw address params)
    | putRaw address body => exact hkeeps (h.putRaw address body)
    | postRaw address body => exact hkeeps (h.postRaw address body)
    | hide path contentType => exact hkeeps (h.putWith path _ _).preservedBy
    | options path => exact hkeeps (h.options path)
    | resolve path => exact hkeeps (h.reads path [] false)
    | ancestor path wanted => exact hkeeps (h.ancestor path wanted)
    | newest item => exact hkeeps (h.newest item)
    | postVersion old resource rootVersions =>
      exact hkeeps (h.postVersion old resource rootVersions)

end RelyGuarantee

end ResourceClient

import ResourceClient.Proofs.Client.Quiet
import ResourceClient.Proofs.Service.NameAudits
import ResourceClient.Proofs.Service.Executor

/-!
Every run of calls is a run of the audit. Between two waits a call takes the client through one
audit step after the other, and so do shared reads and what is pushed. Hence the clients that any
number of calls lead to together are clients that an audit leads to.
-/
namespace ResourceClient

open Service

namespace Client

variable (c : Client)

theorem names_perform (call : Call) : (c.perform call).2.names = c.names := by
  cases call with
  | note line => rfl
  | react reaction =>
    cases reaction with
    | release name =>
      unfold perform react release
      dsimp only
      split
      · next handle _ => cases handle <;> rfl
      · rfl
    | _ => rfl
  | notify listener key => cases listener <;> rfl
  | lost listener => cases listener <;> rfl

theorem names_settle (calls : List Call) : (c.settle calls).names = c.names :=
  settle_rel (R := fun c d => d.names = c.names) (fun _ => rfl) (fun h h' => h'.trans h)
    (fun call c => c.names_perform call) calls c

theorem names_receive (text : String) : (c.receive text).names = c.names := by
  unfold receive
  split
  · exact c.names_settle _
  · rfl

theorem names_claim (ticket : Ticket) : (c.claim ticket).2.names = c.names := by
  unfold claim
  dsimp only
  repeat' split
  all_goals rfl

theorem names_memoize (address subkey : String) (job : Job) (opening : List Call) :
    (c.memoize address subkey job opening).2.names = c.names := by
  unfold memoize
  split
  · exact c.names_settle opening
  · dsimp only
    split
    · rfl
    · exact (names_claim _ _).trans (names_settle _ opening)

/-- One step of the audit takes the client there. -/
def StepsTo (c d : Client) : Prop :=
  ∃ call, ∀ audit : NameAudit, audit.client = c → (audit.run call).client = d

variable {c} {d : Client}

theorem stepsTo_of_names (h : d.names = c.names) : c.StepsTo d := by
  refine ⟨.other d, ?_⟩
  rintro audit rfl
  simp only [NameAudit.run, ← h]

variable (c) in
theorem stepsTo_meet (demand : Demand) : c.StepsTo (demand.meet c) :=
  ⟨.draw demand, by rintro audit rfl; rfl⟩

theorem stepsTo_recordPosts {resources : List Resource} {order : List Nat}
    (h : PostingOrder.order c.schema resources = .ok order) :
    c.StepsTo (c.recordPosts resources order {}).2 := by
  refine ⟨.deepPost resources, ?_⟩
  rintro audit rfl
  simp only [NameAudit.run, NameAudit.deepPost, h]
  rcases audit.client.recordPosts resources order {} with ⟨fault | tx, client⟩ <;> rfl

end Client

namespace Flow

/-- Each thing that the call does to the client is a step of the audit, whatever others make of the
client while it waits. -/
def Audited : Flow α → Client → Prop
  | .done _, _ => True
  | .read next, c => (next c).Audited c
  | .write d next, c => c.StepsTo d ∧ next.Audited d
  | .send _ next, _ => ∀ answer d, (next answer).Audited d
  | .sent _ next, _ => ∀ answer d, (next answer).Audited d
  | .rest _ next, c => next.Audited c
  | .pause next, _ => ∀ d, next.Audited d
  | .await _ next, _ => ∀ outcome d, (next outcome).Audited d

theorem Audited.bind {f : Flow α} {k : α → Flow β} {c : Client} (hf : f.Audited c)
    (hk : ∀ value d, (k value).Audited d) : (f.bind k).Audited c := by
  induction f generalizing c with
  | done value => exact hk value c
  | read next ih => exact ih c hf
  | write d next ih => exact ⟨hf.1, ih hf.2⟩
  | send request next ih => exact fun answer d => ih answer (hf answer d)
  | sent request next ih => exact fun answer d => ih answer (hf answer d)
  | rest wait next ih => exact ih hf
  | pause next ih => exact fun d => ih (hf d)
  | await ticket next ih => exact fun outcome d => ih outcome (hf outcome d)

end Flow

namespace Action

structure Audited (x : Action α) : Prop where
  steps : ∀ c, x.run.Audited c

namespace Audited

theorem bind {x : Action α} {k : α → Action β} (hx : Audited x) (hk : ∀ value, Audited (k value)) :
    Audited (x >>= k) := by
  refine ⟨fun c => Flow.Audited.bind (k := ExceptT.bindCont k) (hx.steps c) fun result d => ?_⟩
  cases result with
  | error fault => trivial
  | ok value => exact (hk value).steps d

theorem need (result : Except Fault α) : Audited (Action.need result) := ⟨fun _ => trivial⟩

theorem look : Audited Action.look := ⟨fun _ => trivial⟩

theorem attempt {step : Client → Except Fault α × Client} (h : ∀ c : Client, c.StepsTo (step c).2) :
    Audited (Action.attempt step) := ⟨fun c => ⟨h c, trivial⟩⟩

theorem act {step : Client → α × Client} (h : ∀ c : Client, c.StepsTo (step c).2) :
    Audited (Action.act step) := ⟨fun c => ⟨h c, trivial⟩⟩

theorem exchange (request : Request) : Audited (Action.exchange request) :=
  ⟨fun _ _ _ => trivial⟩

theorem rest (wait : Wait) : Audited (Action.rest wait) := ⟨fun _ => trivial⟩

theorem join (ticket : Ticket) : Audited (Action.join ticket) := ⟨fun _ _ _ => trivial⟩

theorem outcome {x : Action α} (hx : Audited x) : Audited (Action.outcome x) :=
  ⟨fun c => Flow.Audited.bind (hx.steps c) fun _ _ => trivial⟩

theorem fetch (plan : Fetch) : Audited (Service.fetch plan) :=
  .bind .look fun _ => .bind (.need _) fun _ =>
    ⟨fun _ answer d => ⟨d.stepsTo_meet (.read plan answer), trivial⟩⟩

theorem getWith (path : Path) (params : Table String) (options : GetOptions) :
    Audited (Service.getWith path params options) := by
  refine .bind (.need _) fun address => .bind .look fun c => .bind (.need _) fun plan => ?_
  split
  · exact .fetch plan
  · refine .bind (.act fun d => Client.stepsTo_of_names (d.names_memoize _ _ _ _)) fun lease => ?_
    cases lease with
    | shared ticket => exact .join ticket
    | own => exact .fetch plan

theorem getRaw (address : String) (params : Table String) :
    Audited (Service.getRaw address params) :=
  .bind .look fun _ => .bind (.need _) fun _ => .exchange _

theorem putRaw (address : String) (body : Json) : Audited (Service.putRaw address body) :=
  .bind .look fun _ => .bind (.need _) fun _ => .exchange _

theorem postRaw (address : String) (body : Json) : Audited (Service.postRaw address body) :=
  .bind .look fun _ => .bind (.need _) fun _ => .exchange _

theorem putWith (path : Path) (resource : Resource) (options : WriteOptions) :
    Audited (Service.putWith path resource options) :=
  .bind (.need _) fun _ => .bind .look fun _ => .bind (.need _) fun _ =>
    .bind (.putRaw _ _) fun _ => .bind (.need _) fun answer =>
      .attempt fun d => d.stepsTo_meet (.write _ answer)

theorem postWith (parent : Path) (resource : Resource) (options : WriteOptions) :
    Audited (Service.postWith parent resource options) :=
  .bind (.need _) fun _ => .bind .look fun _ => .bind (.need _) fun _ =>
    .bind (.postRaw _ _) fun _ => .bind (.need _) fun answer =>
      .attempt fun d => d.stepsTo_meet (.write _ answer)

theorem delete (path : Path) : Audited (Service.delete path) := by
  refine .bind (.need _) fun _ => .bind .look fun _ => .bind (.exchange _) fun _ =>
    .bind (.need _) fun answer => .attempt fun d => Client.stepsTo_of_names ?_
  unfold Client.finishDelete
  split <;> rfl

theorem sendBatch (operations : List BatchOperation) :
    Audited (Service.sendBatch operations) := by
  unfold Service.sendBatch
  split
  · exact .need (.ok [])
  · exact .bind .look fun _ => .bind (.exchange _) fun response =>
      .attempt fun d => d.stepsTo_meet (.settle operations response)

theorem deepPost (resources : List Resource) : Audited (Service.deepPost resources) := by
  -- The order is made for the client that the posts are recorded with.
  refine ⟨fun c => ?_⟩
  change ((Action.need (PostingOrder.order c.schema resources) >>= fun order => _) :
    Action _).run.Audited c
  cases horder : PostingOrder.order c.schema resources with
  | error fault => trivial
  | ok order =>
    refine ⟨Client.stepsTo_recordPosts horder, ?_⟩
    generalize (c.recordPosts resources order {}).1 = recorded
    cases recorded with
    | error fault => trivial
    | ok tx => exact (Audited.bind (sendBatch tx.operations) fun _ => .need _).steps _

theorem options (path : Path) : Audited (Service.options path) :=
  .bind (.need _) fun _ => .bind .look fun _ => .bind (.exchange _) fun _ =>
    .bind (.need _) fun body => .need (.ok (Allowance.mk body))

theorem ancestor (path : Path) (wanted : Resource → Bool) :
    Audited (Service.ancestor path wanted) := by
  have hclimb (steps : Nat) (current : String) :
      Audited (climb (fun address => Service.get (.real address)) wanted steps current) := by
    induction steps generalizing current with
    | zero => exact .need (.ok none)
    | succ steps ih =>
      refine .bind (.getWith _ _ _) fun resource => ?_
      split
      · exact .need (.ok _)
      · split
        · exact .need (.ok _)
        · exact ih _
  refine .bind (.need _) fun start => .bind .look fun c => .bind (hclimb _ start) fun found => ?_
  cases found with
  | none => exact .need _
  | some result => exact .need (.ok result)

theorem newest (item : Path) : Audited (Service.newest item) := by
  refine .bind (.need _) fun address => .bind (.getWith _ _ _) fun tag => ?_
  dsimp only
  split
  · next head _ =>
    cases Path.parse? head with
    | none => exact .need _
    | some path => exact .need (.ok path)
  · exact .need _

theorem postAfter (item : Path) (version : Resource) (attempts : Nat) (state : RetryState)
    (follows : Path) (rebased : Bool) :
    Audited (Service.postAfter item version attempts state follows rebased) := by
  induction attempts generalizing state follows rebased with
  | zero => exact .need _
  | succ attempts ih =>
    refine .bind (.outcome (.postWith item _ {})) fun result => ?_
    cases result with
    | ok value => exact .need (.ok _)
    | error fault =>
      dsimp only
      split
      · exact .need _
      · split
        · exact .need _
        · exact .bind (.rest _) fun _ => .bind (.newest item) fun head => ih _ head true

theorem postVersion (old : Path) (resource : Resource) (rootVersions : Option (List Path)) :
    Audited (Service.postVersion old resource rootVersions) :=
  .bind (.need _) fun _ => .bind .look fun _ => .postAfter _ _ _ _ _ _

theorem replyTo {x : Action α} (hx : Audited x) (reply : α → Reply) (c : Client) :
    (Session.replyTo reply x).Audited c :=
  Flow.Audited.bind (hx.steps c) fun _ _ => trivial

end Audited

end Action

theorem Service.Operation.audited_flow (operation : Operation) (c : Client) :
    operation.flow.Audited c := by
  cases operation with
  | batch operations => exact (Action.Audited.sendBatch operations).replyTo _ c
  | deepPost resources => exact (Action.Audited.deepPost resources).replyTo _ c
  | visit call =>
    cases call with
    | get path params options => exact (Action.Audited.getWith path params options).replyTo _ c
    | getRaw address params => exact (Action.Audited.getRaw address params).replyTo _ c
    | putRaw address body => exact (Action.Audited.putRaw address body).replyTo _ c
    | postRaw address body => exact (Action.Audited.postRaw address body).replyTo _ c
    | write call =>
      cases call with
      | put path resource options =>
        exact (Action.Audited.putWith path resource options).replyTo _ c
      | post parent resource options =>
        exact (Action.Audited.postWith parent resource options).replyTo _ c
      | delete path => exact (Action.Audited.delete path).replyTo _ c
    | hide path contentType => exact (Action.Audited.putWith path _ _).replyTo _ c
    | options path => exact (Action.Audited.options path).replyTo _ c
    | resolve path => exact (Action.Audited.getWith path _ _).replyTo _ c
    | ancestor path wanted => exact (Action.Audited.ancestor path wanted).replyTo _ c
    | newest item => exact (Action.Audited.newest item).replyTo _ c
    | postVersion old resource rootVersions =>
      exact (Action.Audited.postVersion old resource rootVersions).replyTo _ c

open Relation

theorem Client.exists_auditSteps {c d : Client} (h : ReflTransGen Client.StepsTo c d) :
    ∃ calls, ∀ audit : NameAudit, audit.client = c → (NameAudit.runAll calls audit).client = d := by
  induction h using ReflTransGen.head_induction_on with
  | refl => exact ⟨[], fun _ haudit => haudit⟩
  | head hstep _ ih =>
    obtain ⟨call, hcall⟩ := hstep
    obtain ⟨calls, hcalls⟩ := ih
    exact ⟨call :: calls, fun audit haudit => hcalls _ (hcall audit haudit)⟩

variable {σ : Type} (net : Network σ)

theorem World.stepsTo_driveJob (ticket : Ticket) (key subkey : String) (job : Job) (w : World σ) :
    ReflTransGen Client.StepsTo w.client (w.driveJob net ticket key subkey job).client := by
  cases job with
  | fetch plan =>
    unfold driveJob
    dsimp only
    split <;> exact .single (Client.stepsTo_of_names rfl)
  | answer plan request =>
    exact .head (w.client.stepsTo_meet (.read plan (net.answer request w.remote).1))
      (.single (Client.stepsTo_of_names rfl))
  | script course =>
    unfold driveJob
    dsimp only
    split
    · exact .single (Client.stepsTo_of_names (w.client.names_settle _))
    · exact .single (Client.stepsTo_of_names rfl)

theorem World.stepsTo_driveWhen (arrived : Request → Bool) (ticket : Ticket) (w : World σ) :
    ReflTransGen Client.StepsTo w.client (w.driveWhen net arrived ticket).client := by
  unfold driveWhen
  split
  · split
    · exact w.stepsTo_driveJob net _ _ _ _
    · exact .refl
  · unfold drive
    split
    · exact w.stepsTo_driveJob net _ _ _ _
    · exact .refl

theorem Flow.Audited.turn {f : Flow α} {w : World σ} (hf : f.Audited w.client)
    (arrived : Request → Bool) :
    ReflTransGen Client.StepsTo w.client (f.turn net arrived w).2.client ∧
      ∀ c, (f.turn net arrived w).1.Audited c := by
  induction f generalizing w with
  | done value => exact ⟨.refl, fun _ => trivial⟩
  | read next ih => exact ih _ hf
  | write d next ih =>
    obtain ⟨hstep, hnext⟩ := hf
    obtain ⟨hturn, hrest⟩ := @ih { w with client := d } hnext
    exact ⟨.head hstep hturn, hrest⟩
  | send request next ih => exact ⟨.refl, fun _ => hf⟩
  | sent request next ih =>
    unfold Flow.turn
    split
    · exact @ih _ (w.fetchAnswer net request).2 (hf _ _)
    · exact ⟨.refl, fun _ => hf⟩
  | rest wait next ih => exact @ih (w.record (.rested wait)) hf
  | pause next ih => exact ⟨.refl, hf⟩
  | await ticket next ih =>
    have hdriven := w.stepsTo_driveWhen net arrived ticket
    unfold Flow.turn
    dsimp only
    cases (w.driveWhen net arrived ticket).outcome? ticket with
    | none => exact ⟨hdriven, fun _ => hf⟩
    | some outcome =>
      obtain ⟨hturn, hrest⟩ := ih outcome (hf outcome (w.driveWhen net arrived ticket).client)
      exact ⟨hdriven.trans hturn, hrest⟩

namespace Executor

def Audited (x : Executor σ) : Prop := ∀ task ∈ x.tasks, ∀ c, task.flow.Audited c

variable {x : Executor σ}

theorem Audited.step (h : x.Audited) (event : Event) :
    ReflTransGen Client.StepsTo x.world.client (x.step net event).world.client ∧
      (x.step net event).Audited := by
  cases event with
  | begin operation arrived =>
    obtain ⟨hturn, hrest⟩ := (operation.audited_flow x.world.client).turn net.recorded arrived
    refine ⟨hturn, fun task htask => ?_⟩
    rcases List.mem_append.1 htask with hold | hnew
    · exact h task hold
    · obtain rfl := List.mem_singleton.1 hnew
      exact hrest
  | turn i arrived =>
    dsimp only [Executor.step, Executor.turn]
    cases htask : x.tasks[i]? with
    | none => exact ⟨.refl, h⟩
    | some task =>
      have hflow := h task (List.mem_of_getElem? htask) x.world.client
      obtain ⟨hturn, hrest⟩ := hflow.turn net.recorded arrived
      refine ⟨hturn, fun other hother => ?_⟩
      rcases List.mem_or_eq_of_mem_set hother with hold | rfl
      · exact h other hold
      · exact hrest
  | setCredentials credentials => exact ⟨.single (Client.stepsTo_of_names rfl), h⟩
  | receive text =>
    exact ⟨.single (Client.stepsTo_of_names (x.world.client.names_receive text)), h⟩
  | drawName => exact ⟨.single (x.world.client.stepsTo_meet .nextName), h⟩

/-- For every run of the executor there are audit steps that lead to the same client. -/
theorem exists_audit_run (h : x.Audited) (events : List Event) :
    ∃ calls, ∀ audit : NameAudit, audit.client = x.world.client →
      (NameAudit.runAll calls audit).client = (x.run net events).world.client := by
  refine Client.exists_auditSteps ?_
  induction events generalizing x with
  | nil => exact .refl
  | cons event rest ih =>
    obtain ⟨hstep, haudited⟩ := h.step net event
    exact hstep.trans (ih haudited)

end Executor

end ResourceClient

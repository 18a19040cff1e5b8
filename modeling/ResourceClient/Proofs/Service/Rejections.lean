import ResourceClient.Proofs.Service.Transactions
import ResourceClient.Proofs.Service.Visits

/-!
What is left of a write that the server did not accept: nothing. The caller is told what the server
objects to, and the client is as it was, but for what others did while the answer was awaited.
-/
namespace ResourceClient

namespace Service

open ResourceClient.Action

inductive Submission where
  | write (call : Write)
  | commit (tx : Transaction)

namespace Submission

def flow : Submission → Flow Reply
  | .write call => call.flow
  | .commit tx =>
    match tx.commit.1 with
    | .error fault => .done (.fault fault)
    | .ok operations => (Operation.batch operations).flow

def request (c : Client) : Submission → Except Fault (Option Request)
  | .write call => (call.request c).map some
  | .commit tx => tx.commit.1.map fun operations =>
    if operations = [] then none else some (c.batchRequest operations)

/-- A batch is refused as a whole or in one of its results. -/
def IsRefusedBy (response : Response) : Submission → Prop
  | .write _ => response.isSuccess = false
  | .commit _ => response.isSuccess = false ∨
    ∃ batch, response.json.bind BatchResponse.ofJson = .ok batch ∧
      ∃ result ∈ batch.results, result.isSuccess = false

/-- The body that tells why. In a batch it is the last one, since nothing is done after a failure.
-/
def grounds? (response : Response) : Submission → Option Json
  | .write _ => response.json.toOption
  | .commit _ =>
    match response.json.bind BatchResponse.ofJson with
    | .ok batch => batch.results.getLast?.map (·.body)
    | .error _ => response.json.toOption

def objections (response : Response) (submission : Submission) : List BackendError :=
  ((submission.grounds? response).bind fun body => BackendError.envelope? body.toDraft).getD
    [.unknown]

end Submission

variable {σ : Type} (net : Network σ) (meanwhile : World σ → World σ) (w : World σ)

def submit (take : Json → Client → Reply × Client) (opening : Except Fault Request) :
    Reply × World σ :=
  match opening with
  | .error fault => (.fault fault, w)
  | .ok request =>
    let (answer, there) := w.exchangeAmid net meanwhile request
    match answer.bind Response.successBody with
    | .error fault => (.fault fault, there)
    | .ok body => ((take body there.client).1, there.mapClient fun c => (take body c).2)

theorem runAmid_replyTo_take {α : Type} {action : Action α} {opening : Except Fault Request}
    {take : Json → Client → Except Fault α × Client} (reply : α → Reply)
    (h : action.runAmid net meanwhile w =
      (need opening >>= fun request => exchange request >>= fun response =>
        need response.successBody >>= fun answer => attempt (take answer)).runAmid
          net meanwhile w) :
    (Session.replyTo reply action).runAmid net meanwhile w =
      submit net meanwhile w (fun body c => (.ofExcept reply (take body c).1, (take body c).2))
        opening := by
  rw [Session.runAmid_replyTo, h, Write.runAmid_take]
  unfold submit
  cases opening with
  | error fault => rfl
  | ok request =>
    dsimp only
    cases (w.exchangeAmid net meanwhile request).1.bind Response.successBody <;> rfl

theorem Write.exists_runAmid_flow (write : Write) :
    ∃ take, write.flow.runAmid net meanwhile w =
      submit net meanwhile w take (write.request w.client) := by
  cases write with
  | put path resource options =>
    have hput := Write.runAmid_putWith net meanwhile w path resource options
    exact ⟨_, runAmid_replyTo_take net meanwhile w _ hput⟩
  | post parent resource options =>
    have hpost := Write.runAmid_postWith net meanwhile w parent resource options
    exact ⟨_, runAmid_replyTo_take net meanwhile w _ hpost⟩
  | delete path =>
    have hdelete := Write.runAmid_delete net meanwhile w path
    exact ⟨_, runAmid_replyTo_take net meanwhile w _ hdelete⟩

theorem rejection_eq (response : Response) :
    response.rejection = .backend ((response.json.toOption.bind fun body =>
      BackendError.envelope? body.toDraft).getD [.unknown]) := by
  unfold Response.rejection Response.json
  cases Json.read? response.body <;> rfl

theorem batchRejection_eq (results : List BatchResult) :
    BatchResponse.rejection results = .backend (((results.getLast?.map (·.body)).bind fun body =>
      BackendError.envelope? body.toDraft).getD [.unknown]) := by
  unfold BatchResponse.rejection
  cases results.getLast? <;> rfl

theorem batchResults_of_refused {tx : Transaction} {response : Response}
    (h : (Submission.commit tx).IsRefusedBy response) (operations : Nat) :
    Client.batchResults operations response =
      .error (.backend ((Submission.commit tx).objections response)) := by
  unfold Client.batchResults Submission.objections Submission.grounds?
  cases hdecoded : response.json.bind BatchResponse.ofJson with
  | error fault =>
    have hstatus : response.isSuccess = false := by
      rcases h with hstatus | ⟨batch, hbatch, -⟩
      · exact hstatus
      · rw [hdecoded] at hbatch
        cases hbatch
    simp only [hstatus, rejection_eq, Bool.false_eq_true, if_false]
  | ok batch =>
    have hany : (!response.isSuccess || batch.results.any (!·.isSuccess)) = true := by
      rcases h with hstatus | ⟨other, hother, result, hresult, hfails⟩
      · rw [hstatus]
        rfl
      · obtain rfl := Except.ok.inj (hdecoded.symm.trans hother)
        rw [Bool.or_eq_true, List.any_eq_true]
        exact .inr ⟨result, hresult, by rw [hfails]; rfl⟩
    simp only [hany, if_true, batchRejection_eq]

theorem finishBatch_of_refused {tx : Transaction} {response : Response}
    (h : (Submission.commit tx).IsRefusedBy response) (operations : List BatchOperation)
    (c : Client) :
    c.finishBatch operations response =
      (.error (.backend ((Submission.commit tx).objections response)), c) := by
  unfold Client.finishBatch
  rw [batchResults_of_refused h]

theorem runAmid_flow_of_error {submission : Submission} {fault : Fault}
    (h : submission.request w.client = .error fault) :
    submission.flow.runAmid net meanwhile w = (.fault fault, w) := by
  cases submission with
  | write call =>
    obtain ⟨take, hflow⟩ := call.exists_runAmid_flow net meanwhile w
    have hrequest : call.request w.client = .error fault := eq_error_of_map_eq_error h
    rw [Submission.flow, hflow, hrequest]
    rfl
  | commit tx =>
    have hcommit : tx.commit.1 = .error fault := eq_error_of_map_eq_error h
    simp only [Submission.flow, hcommit]
    rfl

/-- How a submission comes back from which nothing is taken in. -/
theorem runAmid_flow_of_answer {submission : Submission} {request : Request}
    (h : submission.request w.client = .ok (some request)) :
    let exchanged := w.exchangeAmid net meanwhile request
    (∀ fault, exchanged.1 = .error fault →
      submission.flow.runAmid net meanwhile w = (.fault fault, exchanged.2)) ∧
    ∀ response, exchanged.1 = .ok response → submission.IsRefusedBy response →
      submission.flow.runAmid net meanwhile w =
        (.fault (.backend (submission.objections response)), exchanged.2) := by
  intro exchanged
  cases submission with
  | write call =>
    obtain ⟨take, hflow⟩ := call.exists_runAmid_flow net meanwhile w
    obtain ⟨other, hrequest, heq⟩ := exists_of_map_eq_ok h
    obtain rfl := Option.some.inj heq
    rw [Submission.flow, hflow, hrequest]
    have hsubmit : ∀ fault, exchanged.1.bind Response.successBody = .error fault →
        submit net meanwhile w take (.ok other) = (.fault fault, exchanged.2) := by
      intro fault hfault
      simp only [submit]
      rw [show (w.exchangeAmid net meanwhile other).1.bind Response.successBody = _ from hfault]
    refine ⟨fun fault hfault => hsubmit fault (by rw [hfault]; rfl), fun response hanswer hno => ?_⟩
    have hstatus : response.isSuccess = false := hno
    refine hsubmit _ ?_
    rw [hanswer]
    simp only [Except.bind, Response.successBody, hstatus, rejection_eq]
    rfl
  | commit tx =>
    obtain ⟨operations, hcommit, heq⟩ := exists_of_map_eq_ok h
    have hfull : operations ≠ [] := by
      rintro rfl
      cases heq
    rw [if_neg hfull] at heq
    obtain rfl := Option.some.inj heq
    have hrun : (Submission.commit tx).flow.runAmid net meanwhile w =
        (.ofExcept .resources ((sendBatch operations).runAmid net meanwhile w).1,
          ((sendBatch operations).runAmid net meanwhile w).2) := by
      simp only [Submission.flow, hcommit]
      exact Session.runAmid_replyTo net meanwhile w .resources (sendBatch operations)
    rw [hrun, runAmid_sendBatch net meanwhile w hfull]
    constructor
    · intro fault hfault
      have hpair : exchanged = (.error fault, exchanged.2) := Prod.ext hfault rfl
      rw [show w.exchangeAmid net meanwhile (w.client.batchRequest operations) = _ from hpair]
      rfl
    · intro response hanswer hno
      have hpair : exchanged = (.ok response, exchanged.2) := Prod.ext hanswer rfl
      rw [show w.exchangeAmid net meanwhile (w.client.batchRequest operations) = _ from hpair]
      simp only [finishBatch_of_refused hno]
      rfl

/-- A submission for which there is no request, or no answer, or only one that refuses it, leaves
the client as it was, or as others made it in the meantime; the caller gets all that is objected. -/
theorem refused_leaves_client (submission : Submission) :
    let call := submission.flow.runAmid net meanwhile w
    (∀ fault, submission.request w.client = .error fault → call = (.fault fault, w)) ∧
    ∀ request, submission.request w.client = .ok (some request) →
      let there := meanwhile (w.record (.requested request))
      let (answer, remote) := net.answer request there.remote
      (∀ fault, answer = .error fault → call = (.fault fault, { there with remote })) ∧
      ∀ response, answer = .ok response → submission.IsRefusedBy response →
        call = (.fault (.backend (submission.objections response)), { there with remote }) := by
  intro call
  exact ⟨fun fault h => runAmid_flow_of_error net meanwhile w h,
    fun request h => runAmid_flow_of_answer net meanwhile w h⟩

/-- A batch that fails in its second part leaves what is cached under the first one. -/
theorem refused_leaves_client_after_batch :
    let cache : LiveCache := { hub := { connected := true } }
    let resource : Resource := { contentType := "pool", path := .real "/a/" }
    let w : World Unit :=
      { client := { cache := cache.put "http://localhost:6541/a/" "" resource }, remote := () }
    let required : BackendError := ⟨"data.x", "body", "Required"⟩
    let envelope : Json := .object [
      ("status", .string "error"),
      ("errors", .array [.object [("name", .string "data.x"), ("location", .string "body"),
        ("description", .string "Required")]])]
    let answer : Response := .ofJson 200 (.array [
      .object [("code", .number (.int 200)), ("body", .null)],
      .object [("code", .number (.int 400)), ("body", envelope)]])
    let net : Network Unit := { answer := fun _ remote => (.ok answer, remote) }
    let touch (target : String) : BatchOperation := { method := .put, target }
    let tx : Transaction :=
      { operations := [touch "http://localhost:6541/a/", touch "http://localhost:6541/b/"] }
    let call := (Submission.commit tx).flow.runAmid net id w
    w.client.cache.contains "http://localhost:6541/a/" = true ∧
      call.1 = .fault (.backend [required]) ∧ call.2.client = w.client := by
  intro cache resource w required envelope answer net touch tx call
  have hrefused : (Submission.commit tx).IsRefusedBy answer := by
    have hread : ((answer.json.bind BatchResponse.ofJson).toOption.any fun batch =>
        batch.results.any (!·.isSuccess)) = true := by decide +kernel
    cases hdecoded : answer.json.bind BatchResponse.ofJson with
    | error fault =>
      rw [hdecoded] at hread
      cases hread
    | ok batch =>
      rw [hdecoded] at hread
      obtain ⟨result, hresult, hfails⟩ := List.any_eq_true.1 hread
      exact .inr ⟨batch, hdecoded, result, hresult, by simpa using hfails⟩
  have hobjections : (Submission.commit tx).objections answer = [required] := by
    decide +kernel
  have hcall := ((refused_leaves_client net id w (.commit tx)).2 _ rfl).2 answer rfl hrefused
  rw [hobjections] at hcall
  exact ⟨by decide +kernel, congrArg Prod.fst hcall, congrArg (·.2.client) hcall⟩

end Service

end ResourceClient

import ResourceClient.Proofs.Service.Writes
import ResourceClient.Service.Batch

/-!
What a batch comes back with. At most one request goes out for it, and what is returned is what the
server answered, result by result: nothing is left out, and nothing changes its place.
-/
namespace ResourceClient

def Wire.namesAfter (schema : Schema) (bodies : List Json) (names : Names) : Names :=
  bodies.foldl (fun names body => (importResource schema body names).2) names

/-- The answer to a batch of so many operations holds one success for each. -/
structure Response.Carries (response : Response) (operations : Nat) (batch : BatchResponse) :
    Prop where
  success : response.isSuccess = true
  decoded : response.json.bind BatchResponse.ofJson = .ok batch
  results : ∀ result ∈ batch.results, result.isSuccess = true
  length : batch.results.length = operations

/-- One resource for each result, imported from its body after those before it. -/
structure BatchResponse.Unpacks (batch : BatchResponse) (c : Client) (resources : List Resource) :
    Prop where
  length : resources.length = batch.results.length
  imported : ∀ (i : Nat) (result : BatchResult), batch.results[i]? = some result →
    ∃ resource, resources[i]? = some resource ∧
      (Wire.importResource c.schema result.body
        (Wire.namesAfter c.schema ((batch.results.take i).map (·.body)) c.names)).1 = .ok resource

/-- A result is missing only if somebody else says so. -/
def Fault.IsStated (fault : Fault) : Prop := fault ≠ .importing .missingResult

namespace Client

def batchRequest (c : Client) (operations : List BatchOperation) : Request :=
  c.signed {
    method := .post
    url := c.url "/batch"
    body := some (.array (operations.map BatchOperation.toJson)) }

variable {c : Client} {response : Response} {batch : BatchResponse} {resources : List Resource}

theorem batchResults_eq_ok_iff {operations : Nat} :
    batchResults operations response = .ok batch ↔ response.Carries operations batch := by
  constructor
  · intro h
    unfold batchResults at h
    split at h
    · cases h
    · next hdecoded =>
      split at h
      · cases h
      · next hsuccess =>
        split at h
        · cases h
        · next hlength =>
          obtain rfl := Except.ok.inj h
          simp only [Bool.or_eq_true, Bool.not_eq_eq_eq_not, Bool.not_true, List.any_eq_true,
            not_or, not_exists, not_and, Bool.not_eq_false] at hsuccess
          exact ⟨hsuccess.1, hdecoded, hsuccess.2, Decidable.not_not.1 hlength⟩
  · rintro ⟨hsuccess, hdecoded, hresults, hlength⟩
    have hall : batch.results.any (!·.isSuccess) = false := by simpa using hresults
    simp [batchResults, hsuccess, hdecoded, hall, hlength]

theorem importBodies_eq_ok {bodies : List Json} (h : (c.importBodies bodies).1 = .ok resources) :
    resources.length = bodies.length ∧ ∀ (i : Nat) (body : Json), bodies[i]? = some body →
      ∃ resource, resources[i]? = some resource ∧
        (Wire.importResource c.schema body
          (Wire.namesAfter c.schema (bodies.take i) c.names)).1 = .ok resource := by
  induction bodies generalizing c resources with
  | nil =>
    obtain rfl := Except.ok.inj h
    exact ⟨rfl, by simp⟩
  | cons first rest ih =>
    rcases hfirst : Wire.importResource c.schema first c.names with ⟨fault | resource, names⟩
    · simp only [importBodies, importWire, hfirst] at h
      cases h
    · simp only [importBodies, importWire, hfirst] at h
      obtain ⟨others, hothers, rfl⟩ := exists_of_map_eq_ok h
      obtain ⟨hlength, himported⟩ := ih hothers
      refine ⟨by simp [hlength], fun i body hbody => ?_⟩
      cases i with
      | zero =>
        obtain rfl : first = body := by simpa using hbody
        exact ⟨resource, rfl, by simp [Wire.namesAfter, hfirst]⟩
      | succ i =>
        obtain ⟨other, hother, himport⟩ := himported i body hbody
        refine ⟨other, hother, ?_⟩
        rw [← himport, List.take_succ_cons]
        simp [Wire.namesAfter, hfirst]

theorem finishBatch_eq_ok {operations : List BatchOperation}
    (h : (c.finishBatch operations response).1 = .ok resources) :
    ∃ batch, response.Carries operations.length batch ∧ batch.Unpacks c resources := by
  unfold finishBatch at h
  split at h
  · cases h
  · next batch hbatch =>
    split at h
    · cases h
    · next report hreport =>
      obtain ⟨hlength, himported⟩ := importBodies_eq_ok h
      refine ⟨batch, batchResults_eq_ok_iff.1 hbatch, by simpa using hlength, ?_⟩
      intro i result hresult
      obtain ⟨resource, hat, himport⟩ := himported i result.body (by simp [hresult])
      refine ⟨resource, hat, ?_⟩
      rw [List.map_take]
      exact himport

theorem isStated_of_importKind {fault : Fault} (h : Wire.importKind fault) : fault.IsStated := by
  rintro rfl
  exact h

theorem isStated_rejection (response : Response) : response.rejection.IsStated := by
  unfold Response.rejection
  split <;> exact nofun

theorem isStated_batchRejection (results : List BatchResult) :
    (BatchResponse.rejection results).IsStated := by
  unfold BatchResponse.rejection
  split <;> exact nofun

theorem isStated_of_unreadable {fault : Fault} (h : fault = .unreadable) : fault.IsStated := by
  rw [h]
  exact nofun

theorem failsOnly_ofJson (value : Json) :
    FailsOnly Fault.IsStated (BatchResponse.ofJson value) := by
  unfold BatchResponse.ofJson
  split
  · split
    · exact .ok _
    · exact .error _ nofun
  · split
    · exact .ok _
    · exact .error _ nofun
  · exact .error _ nofun

theorem failsOnly_batchResults (operations : Nat) (response : Response) :
    FailsOnly Fault.IsStated (batchResults operations response) := by
  unfold batchResults
  split
  · next fault hfault =>
    refine .error _ ?_
    split
    · have hjson := response.failsOnly_json.imp fun _ => isStated_of_unreadable
      exact hjson.bind failsOnly_ofJson fault hfault
    · exact isStated_rejection response
  · split
    · exact .error _ (isStated_batchRejection _)
    · split
      · exact .error _ nofun
      · exact .ok _

theorem failsOnly_batchReport (batch : BatchResponse) :
    FailsOnly Fault.IsStated (batchReport batch) := by
  unfold batchReport
  generalize batch.report.getD {} = report
  induction batch.results generalizing report with
  | nil => exact .ok _
  | cons result rest ih =>
    rw [List.foldlM_cons]
    have hread := (failsOnly_readReport result.body).imp fun _ => isStated_of_unreadable
    exact .bind (hread.map _) ih

theorem failsOnly_importBodies (bodies : List Json) (c : Client) :
    FailsOnly Fault.IsStated (c.importBodies bodies).1 := by
  induction bodies generalizing c with
  | nil => exact .ok _
  | cons body rest ih =>
    have himport : FailsOnly Wire.importKind (Wire.importResource c.schema body c.names).1 :=
      Wire.failsOnly_importResource
    rcases hbody : Wire.importResource c.schema body c.names with ⟨fault | resource, names⟩
    · rw [hbody] at himport
      simp only [importBodies, importWire, hbody]
      exact .error fault (isStated_of_importKind (himport fault rfl))
    · simp only [importBodies, importWire, hbody]
      exact .map _ (ih _)

theorem failsOnly_finishBatch (operations : List BatchOperation) (response : Response)
    (c : Client) : FailsOnly Fault.IsStated (c.finishBatch operations response).1 := by
  have hresults := failsOnly_batchResults operations.length response
  unfold finishBatch
  cases hbatch : batchResults operations.length response with
  | error fault => exact .error fault (hresults fault hbatch)
  | ok batch =>
    have hreport := failsOnly_batchReport batch
    dsimp only
    cases hread : batchReport batch with
    | error fault => exact .error fault (hreport fault hread)
    | ok report => exact failsOnly_importBodies _ _

end Client

namespace Service

variable {σ : Type} (net : Network σ) (meanwhile : World σ → World σ) (w : World σ)
  {operations : List BatchOperation}

@[simp] theorem runAmid_sendBatch_nil :
    (sendBatch []).runAmid net meanwhile w = (.ok [], w) := rfl

/-- A batch sends its one request, and settles the answer. -/
theorem runAmid_sendBatch (h : operations ≠ []) :
    (sendBatch operations).runAmid net meanwhile w =
      match w.exchangeAmid net meanwhile (w.client.batchRequest operations) with
      | (.error fault, there) => (.error fault, there)
      | (.ok response, there) =>
        ((there.client.finishBatch operations response).1,
          { there with client := (there.client.finishBatch operations response).2 }) := by
  have hfull : operations.isEmpty = false := by simpa using h
  unfold sendBatch Client.batchRequest
  rw [hfull]
  simp only [Bool.false_eq_true, if_false, Action.runAmid_bind, Action.runAmid_look,
    Action.runAmid_exchange, Action.runAmid_attempt]
  generalize w.exchangeAmid net meanwhile _ = exchanged
  obtain ⟨_ | _, there⟩ := exchanged <;> rfl

theorem trace_sendBatch (h : operations ≠ []) :
    ((sendBatch operations).runAmid net meanwhile w).2.trace =
      (meanwhile (w.record (.requested (w.client.batchRequest operations)))).trace := by
  have htrace : (w.exchangeAmid net meanwhile (w.client.batchRequest operations)).2.trace =
      (meanwhile (w.record (.requested (w.client.batchRequest operations)))).trace := rfl
  rw [runAmid_sendBatch net meanwhile w h, ← htrace]
  generalize w.exchangeAmid net meanwhile _ = exchanged
  obtain ⟨_ | _, there⟩ := exchanged <;> rfl

theorem sendBatch_eq_ok (h : operations ≠ []) {resources : List Resource}
    (hok : ((sendBatch operations).runAmid net meanwhile w).1 = .ok resources) :
    let exchanged := w.exchangeAmid net meanwhile (w.client.batchRequest operations)
    ∃ response batch, exchanged.1 = .ok response ∧ response.Carries operations.length batch ∧
      batch.Unpacks exchanged.2.client resources := by
  intro exchanged
  rw [runAmid_sendBatch net meanwhile w h] at hok
  change (match exchanged with
    | (.error fault, there) => (.error fault, there)
    | (.ok response, there) => _ : Except Fault (List Resource) × World σ).1 = _ at hok
  obtain ⟨_ | response, there⟩ := exchanged
  · cases hok
  · obtain ⟨batch, hcarries, hunpacks⟩ := Client.finishBatch_eq_ok hok
    exact ⟨response, batch, rfl, hcarries, hunpacks⟩

theorem length_sendBatch {resources : List Resource}
    (hok : ((sendBatch operations).runAmid net meanwhile w).1 = .ok resources) :
    resources.length = operations.length := by
  by_cases h : operations = []
  · subst h
    obtain rfl := Except.ok.inj hok
    rfl
  · obtain ⟨response, batch, -, hcarries, hunpacks⟩ := sendBatch_eq_ok net meanwhile w h hok
    rw [hunpacks.length, hcarries.length]

theorem isStated_sendBatch {fault : Fault}
    (herror : ((sendBatch operations).runAmid net meanwhile w).1 = .error fault)
    (hanswer : FailsOnly Fault.IsStated
      (w.exchangeAmid net meanwhile (w.client.batchRequest operations)).1) : fault.IsStated := by
  by_cases h : operations = []
  · subst h
    cases herror
  · rw [runAmid_sendBatch net meanwhile w h] at herror
    generalize w.exchangeAmid net meanwhile _ = exchanged at herror hanswer
    obtain ⟨cause | response, there⟩ := exchanged
    · obtain rfl := Except.error.inj herror
      exact hanswer cause rfl
    · exact Client.failsOnly_finishBatch operations response there.client fault herror

end Service

end ResourceClient

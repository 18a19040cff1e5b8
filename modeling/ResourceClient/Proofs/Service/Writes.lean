import ResourceClient.Proofs.Cache.Slots
import ResourceClient.Proofs.Client.Runs
import ResourceClient.Proofs.Wire.Faults
import ResourceClient.Service.Write

/-!
What a write does once its answer is there. Whatever goes on while it waits, it takes the answer in
at one stroke, so all that it does to the cache is told by the answer.
-/
namespace ResourceClient

namespace Service

open ResourceClient.Action

inductive Write where
  | put (path : Path) (resource : Resource) (options : WriteOptions)
  | post (parent : Path) (resource : Resource) (options : WriteOptions)
  | delete (path : Path)

namespace Write

variable {σ : Type} (net : Network σ) (meanwhile : World σ → World σ) (w : World σ)

def after (write : Write) : World σ :=
  match write with
  | .put path resource options => ((putWith path resource options).runAmid net meanwhile w).2
  | .post parent resource options => ((postWith parent resource options).runAmid net meanwhile w).2
  | .delete path => ((Service.delete path).runAmid net meanwhile w).2

def target : Write → Path
  | .put path _ _ => path
  | .post parent _ _ => parent
  | .delete path => path

def request (write : Write) (c : Client) : Except Fault Request :=
  match write with
  | .put path resource options => do
    let address ← requireReal "put" path
    let body ← writeBody c.schema resource options false
    let request ← c.rawRequest .put "put" (c.url address)
    return { request with body := some body }
  | .post parent resource options => do
    let address ← requireReal "post" parent
    let body ← writeBody c.schema resource options true
    let request ← c.rawRequest .post "post" (c.url address)
    return { request with body := some body }
  | .delete path => do
    let address ← requireReal "delete" path
    return c.signed { method := .delete, url := c.url address }

def settle (write : Write) (url : String) (answer : Except Fault Response) (c : Client) : Client :=
  match answer.bind Response.successBody with
  | .error _ => c
  | .ok body =>
    match write with
    | .put .. | .post .. => (c.finishWrite url body).2
    | .delete _ => (c.finishDelete url body).2

theorem runAmid_take {α : Type} (opening : Except Fault Request)
    (take : Json → Client → Except Fault α × Client) :
    (need opening >>= fun request => exchange request >>= fun response =>
      need response.successBody >>= fun answer => attempt (take answer)).runAmid net meanwhile w =
      match opening with
      | .error fault => (.error fault, w)
      | .ok request =>
        let there := (w.exchangeAmid net meanwhile request).2
        match (w.exchangeAmid net meanwhile request).1.bind Response.successBody with
        | .error fault => (.error fault, there)
        | .ok body => ((take body there.client).1, there.mapClient fun c => (take body c).2) := by
  simp only [runAmid_bind, runAmid_need]
  cases opening with
  | error fault => rfl
  | ok request =>
    simp only [runAmid_exchange]
    obtain ⟨answer, there⟩ := w.exchangeAmid net meanwhile request
    cases answer with
    | error fault => rfl
    | ok response =>
      dsimp only [Except.bind]
      cases response.successBody <;> rfl

variable (path : Path) (resource : Resource) (options : WriteOptions)

theorem runAmid_putWith :
    (putWith path resource options).runAmid net meanwhile w =
      (need ((Write.put path resource options).request w.client) >>= fun request =>
        exchange request >>= fun response => need response.successBody >>= fun answer =>
          attempt (Client.finishWrite (w.client.url path.toString) answer)).runAmid
            net meanwhile w := by
  cases path with
  | placeholder number => rfl
  | real address =>
    simp only [putWith, putRaw, request, requireReal, runAmid_bind, runAmid_need, runAmid_look]
    dsimp only [bind, Except.bind]
    cases writeBody w.client.schema resource options false with
    | error fault => rfl
    | ok body =>
      dsimp only
      cases w.client.rawRequest .put "put" (w.client.url address) <;> rfl

theorem runAmid_postWith :
    (postWith path resource options).runAmid net meanwhile w =
      (need ((Write.post path resource options).request w.client) >>= fun request =>
        exchange request >>= fun response => need response.successBody >>= fun answer =>
          attempt (Client.finishWrite (w.client.url path.toString) answer)).runAmid
            net meanwhile w := by
  cases path with
  | placeholder number => rfl
  | real address =>
    simp only [postWith, postRaw, request, requireReal, runAmid_bind, runAmid_need, runAmid_look]
    dsimp only [bind, Except.bind]
    cases writeBody w.client.schema resource options true with
    | error fault => rfl
    | ok body =>
      dsimp only
      cases w.client.rawRequest .post "post" (w.client.url address) <;> rfl

theorem runAmid_delete :
    (Service.delete path).runAmid net meanwhile w =
      (need ((Write.delete path).request w.client) >>= fun request =>
        exchange request >>= fun response => need response.successBody >>= fun answer =>
          attempt (Client.finishDelete (w.client.url path.toString) answer)).runAmid
            net meanwhile w := by
  cases path with
  | placeholder number => rfl
  | real address => rfl

/-- Once its request is out, a write comes back with the answer and settles it. -/
theorem after_eq (write : Write) {address : String} (hreal : write.target = .real address)
    {request : Request} (hrequest : write.request w.client = .ok request) :
    write.after net meanwhile w =
      (w.exchangeAmid net meanwhile request).2.mapClient
        (write.settle (w.client.url address) (w.exchangeAmid net meanwhile request).1) := by
  cases write with
  | put path resource options =>
    obtain rfl : path = .real address := hreal
    unfold after settle
    dsimp only
    rw [runAmid_putWith, hrequest, runAmid_take]
    dsimp only
    split <;> rfl
  | post parent resource options =>
    obtain rfl : parent = .real address := hreal
    unfold after settle
    dsimp only
    rw [runAmid_postWith, hrequest, runAmid_take]
    dsimp only
    split <;> rfl
  | delete path =>
    obtain rfl : path = .real address := hreal
    unfold after settle
    dsimp only
    rw [runAmid_delete, hrequest, runAmid_take]
    dsimp only
    split <;> rfl

end Write

end Service

/-- An answer that the client can take in: it is empty, or JSON whose report, if there is one, can
be read. -/
def Response.Accounts (r : Response) : Prop :=
  r.body = [] ∨ ∃ body, r.json = .ok body ∧
    ∀ value, body.field? "updated_resources" = some value → (Report.ofJson? value).isSome = true

theorem Response.failsOnly_json (r : Response) : FailsOnly (· = .unreadable) r.json := by
  unfold Response.json
  split
  · exact .ok _
  · exact .error _ rfl

theorem Response.failsOnly_successBody {r : Response} (hsuccess : r.isSuccess = true) :
    FailsOnly (· = .unreadable) r.successBody := by
  unfold Response.successBody
  rw [hsuccess]
  simp only [Bool.not_true, Bool.false_eq_true, if_false]
  split
  · exact .ok _
  · exact r.failsOnly_json

namespace Client

theorem failsOnly_readReport (body : Json) : FailsOnly (· = .unreadable) (readReport body) := by
  unfold readReport
  split
  · exact .ok _
  · split
    · exact .ok _
    · exact .error _ rfl

theorem readReport_isOk_iff (body : Json) :
    (∃ report, readReport body = .ok report) ↔
      ∀ value, body.field? "updated_resources" = some value →
        (Report.ofJson? value).isSome = true := by
  unfold readReport
  cases body.field? "updated_resources" with
  | none => simp
  | some value => cases hreport : Report.ofJson? value <;> simp [hreport]

theorem accounts_iff {r : Response} (hsuccess : r.isSuccess = true) :
    r.Accounts ↔ ∃ body report, r.successBody = .ok body ∧ readReport body = .ok report := by
  unfold Response.Accounts Response.successBody
  by_cases hempty : r.body = []
  · simp only [hempty, hsuccess]
    exact ⟨fun _ => ⟨.null, {}, rfl, rfl⟩, fun _ => .inl trivial⟩
  · simp only [hempty, hsuccess, ← readReport_isOk_iff, exists_and_left, false_or,
      List.isEmpty_iff]
    rfl

end Client

namespace Service.Write

open Client

theorem cache_settle_of_not_accounts (write : Write) (url : String) {r : Response}
    (hsuccess : r.isSuccess = true) (h : ¬ r.Accounts) (c : Client) :
    (write.settle url (.ok r) c).cache = c.cache := by
  rw [accounts_iff hsuccess] at h
  unfold settle
  cases hbody : (Except.ok r : Except Fault Response).bind Response.successBody with
  | error fault => rfl
  | ok body =>
    cases hreport : readReport body with
    | error fault => cases write <;> simp only [finishWrite, finishDelete, hreport]
    | ok report => exact absurd ⟨body, report, hbody, hreport⟩ h

theorem entryAt?_settle_of_accounts (write : Write) (url : String) {r : Response}
    (hsuccess : r.isSuccess = true) (h : r.Accounts) (c : Client) :
    (write.settle url (.ok r) c).cache.entryAt? (Address.key url) = none ∧
      (write.settle url (.ok r) c).cache.entryAt? (Address.key (Address.parent url)) = none := by
  obtain ⟨body, report, hbody, hreport⟩ := (accounts_iff hsuccess).1 h
  have hbind : (Except.ok r : Except Fault Response).bind Response.successBody = .ok body := hbody
  unfold settle
  rw [hbind]
  cases write with
  | put path resource options =>
    simp only [finishWrite, hreport]
    exact LiveCache.entryAt?_forgetTouched_of_posted c.cache List.mem_cons_self
  | post parent resource options =>
    simp only [finishWrite, hreport]
    exact LiveCache.entryAt?_forgetTouched_of_posted c.cache List.mem_cons_self
  | delete path =>
    simp only [finishDelete, hreport]
    exact LiveCache.entryAt?_forgetTouched_of_posted c.cache List.mem_cons_self

variable {σ : Type} (net : Network σ) (meanwhile : World σ → World σ) (w : World σ)

/-- A write that the server has accepted forgets its target and the collection above, with whatever
result it returns, if the client can take the answer in; else it forgets nothing. -/
theorem after_of_success (write : Write) {address : String} (hreal : write.target = .real address)
    {request : Request} (hrequest : write.request w.client = .ok request) {response : Response}
    (hanswer : (w.exchangeAmid net meanwhile request).1 = .ok response)
    (hsuccess : response.isSuccess = true) :
    let url := w.client.url address
    let there := (w.exchangeAmid net meanwhile request).2
    let back := write.after net meanwhile w
    (response.Accounts →
      back.client.cache.entryAt? (Address.key url) = none ∧
        back.client.cache.entryAt? (Address.key (Address.parent url)) = none) ∧
    (¬ response.Accounts → back.client.cache = there.client.cache) := by
  intro url there back
  have hback : back = there.mapClient (write.settle url (.ok response)) := by
    rw [← hanswer]
    exact write.after_eq net meanwhile w hreal hrequest
  rw [hback]
  refine ⟨fun h => ?_, fun h => ?_⟩
  · exact write.entryAt?_settle_of_accounts url hsuccess h there.client
  · exact write.cache_settle_of_not_accounts url hsuccess h there.client

/-- A resource that is cached goes when it is deleted with an empty answer. -/
theorem after_of_success_of_empty :
    let cache : LiveCache := { hub := { connected := true } }
    let resource : Resource := { contentType := "pool", path := .real "/a/" }
    let w : World Unit :=
      { client := { cache := cache.put "http://localhost:6541/a/" "" resource }, remote := () }
    let net : Network Unit := { answer := fun _ remote => (.ok { status := 204 }, remote) }
    w.client.cache.contains (w.client.url "/a/") = true ∧
      ((delete (.real "/a/")).after net id w).client.cache.entryAt?
        (Address.key (w.client.url "/a/")) = none := by
  intro cache resource w net
  have hanswer : (w.exchangeAmid net id
      (w.client.signed { method := .delete, url := w.client.url "/a/" })).1 =
        .ok { status := 204 } := rfl
  have hforgets := after_of_success net id w (.delete (.real "/a/")) rfl rfl hanswer (by decide)
  exact ⟨by decide +kernel, (hforgets.1 (.inl rfl)).1⟩

/-- A text in the answer is enough to leave what was deleted in the cache. -/
theorem delete_keeps_after_text :
    let cache : LiveCache := { hub := { connected := true } }
    let resource : Resource := { contentType := "pool", path := .real "/a/" }
    let w : World Unit :=
      { client := { cache := cache.put "http://localhost:6541/a/" "" resource }, remote := () }
    let response : Response := { status := 200, body := [111, 107] }
    let net : Network Unit := { answer := fun _ remote => (.ok response, remote) }
    response.isSuccess = true ∧
      ((delete (.real "/a/")).after net id w).trace.length = 1 ∧
      ((delete (.real "/a/")).after net id w).client.cache.contains
        "http://localhost:6541/a/" = true := by
  decide +kernel

end Service.Write

end ResourceClient

import ResourceClient.Proofs.Address.Bases
import ResourceClient.Proofs.Service.Writes
import ResourceClient.Service.Ladder

/-!
One attempt to append a version. The post of a version and the read of a ladder's head each send one
request, and what comes of them is settled by the answer alone; whatever else the client holds plays
no part.
-/
namespace ResourceClient

def Network.inTurn (answers : Nat → Except String Response) : Network Nat where
  answer _ n := ((answers n).mapError .transport, n + 1)

/-- The answer is a rejection, whose one error says that the ladder has another head. -/
def Conflicts (answer : Except String Response) : Prop :=
  ∃ response body e, answer = .ok response ∧ response.isSuccess = false ∧
    Json.read? response.body = some body ∧ BackendError.envelope? body.toDraft = some [e] ∧
    Fault.namesLadder e.name = true ∧ e.location = "body" ∧
    "No fork allowed".toList <+: e.description.toList

namespace Schema

/-- Taken in as the answer to a write, this gives the resource. -/
def Takes (schema : Schema) (answer : Except String Response) (value : Resource) : Prop :=
  ∃ response body report names, answer = .ok response ∧ response.successBody = .ok body ∧
    Client.readReport body = .ok report ∧ (Wire.importResource schema body names).1 = .ok value

def ReadsHead (schema : Schema) (answer : Except String Response) (head : Path) : Prop :=
  ∃ response body names tag text, answer = .ok response ∧ response.successBody = .ok body ∧
    (Wire.importResource schema body names).1 = .ok tag ∧
    ((tag.sheet? Known.tag).map (Sheet.stringList · "elements")).getD [] = [text] ∧
    Path.parse? text = some head

end Schema

/-- What decides on the requests of a client. -/
structure Client.Alike (c d : Client) : Prop where
  config : d.config = c.config
  schema : d.schema = c.schema
  credentials : d.credentials = c.credentials

namespace Client

variable {c d e : Client}

theorem Alike.refl (c : Client) : c.Alike c := ⟨rfl, rfl, rfl⟩

theorem Alike.trans (h : c.Alike d) (h' : d.Alike e) : c.Alike e :=
  ⟨h'.config.trans h.config, h'.schema.trans h.schema, h'.credentials.trans h.credentials⟩

theorem Alike.url (h : c.Alike d) (address : String) : d.url address = c.url address := by
  unfold Client.url
  rw [h.config]

theorem Alike.signed (h : c.Alike d) (request : Request) : d.signed request = c.signed request := by
  unfold Client.signed
  rw [h.credentials]

theorem alike_finishWrite (url : String) (body : Json) (c : Client) :
    c.Alike (c.finishWrite url body).2 := by
  unfold finishWrite
  cases readReport body <;> exact ⟨rfl, rfl, rfl⟩

theorem alike_importWire (body : Json) (c : Client) : c.Alike (c.importWire none body).2 :=
  ⟨rfl, rfl, rfl⟩

def postRequest (c : Client) (parent : String) (body : Json) : Request :=
  c.signed { method := .post, url := c.url parent, body := some body }

def headRequest (c : Client) (item : String) : Request :=
  c.signed { method := .get, url := c.url (Address.join item Known.last) }

theorem Alike.postRequest (h : c.Alike d) (parent : String) (body : Json) :
    d.postRequest parent body = c.postRequest parent body := by
  unfold Client.postRequest
  rw [h.url, h.signed]

theorem Alike.headRequest (h : c.Alike d) (item : String) :
    d.headRequest item = c.headRequest item := by
  unfold Client.headRequest
  rw [h.url, h.signed]

theorem body_signed (c : Client) (request : Request) (body : Json) :
    { c.signed request with body := some body } = c.signed { request with body := some body } := by
  unfold Client.signed Request.signed
  cases c.credentials <;> rfl

theorem rawRequest_eq_ok {method : Method} {verb address : String} {raw : Request}
    (h : c.rawRequest method verb address = .ok raw) :
    raw = c.signed { method, url := c.url address } := by
  unfold rawRequest at h
  split at h
  · cases h
  · exact (Except.ok.inj h).symm

theorem not_isForkConflict_rawRequest (method : Method) (verb address : String) :
    FailsOnly (·.isForkConflict = false) (c.rawRequest method verb address) := by
  unfold rawRequest
  split
  · exact .error _ rfl
  · exact .ok _

theorem url_url (hbase : c.config.restUrl.toList.head? ≠ some '/') (address : String) :
    c.url (c.url address) = c.url address := by
  refine Config.url_url_iff.2 fun _ hslash => hbase ?_
  obtain ⟨slashes, hsplit⟩ := Address.trimEnd_isPrefix c.config.restUrl.toList
  have hne : c.config.base ≠ [] := by
    intro hnil
    simp [hnil] at hslash
  rw [← hsplit]
  exact (List.head?_append_of_ne_nil _ hne).trans hslash

theorem isForkConflict_rejection_iff {response : Response} (hfailure : response.isSuccess = false) :
    response.rejection.isForkConflict = true ↔ Conflicts (.ok response) := by
  constructor
  · intro h
    unfold Response.rejection at h
    split at h
    · next body hbody =>
      unfold BackendError.ofBody at h
      cases henvelope : BackendError.envelope? body.toDraft with
      | none =>
        rw [henvelope] at h
        exact absurd h (by decide +kernel)
      | some errors =>
        rw [henvelope] at h
        match errors with
        | [] => cases h
        | [e] =>
          simp only [Option.getD_some, Fault.isForkConflict, Bool.and_eq_true, decide_eq_true_eq,
            List.isPrefixOf_iff_prefix] at h
          exact ⟨response, body, e, rfl, hfailure, hbody, henvelope, h.1.1, h.1.2, h.2⟩
        | _ :: _ :: _ => cases h
    · cases h
  · rintro ⟨_, body, e, ⟨⟩, -, hbody, henvelope, hname, hlocation, hdescription⟩
    unfold Response.rejection BackendError.ofBody
    rw [hbody]
    dsimp only
    rw [henvelope]
    simp only [Option.getD_some, Fault.isForkConflict, Bool.and_eq_true, decide_eq_true_eq,
      List.isPrefixOf_iff_prefix]
    exact ⟨⟨hname, hlocation⟩, hdescription⟩

def takeIn (url : String) (answer : Except Fault Response) (c : Client) :
    Except Fault Resource × Client :=
  match answer.bind Response.successBody with
  | .error fault => (.error fault, c)
  | .ok body => c.finishWrite url body

theorem alike_takeIn (url : String) (answer : Except Fault Response) (c : Client) :
    c.Alike (c.takeIn url answer).2 := by
  unfold takeIn
  split
  · exact .refl c
  · exact alike_finishWrite url _ c

theorem fst_takeIn (url : String) (answer : Except Fault Response) (c : Client) :
    (c.takeIn url answer).1 = answer >>= Response.successBody >>= fun body =>
      readReport body >>= fun _ => (Wire.importResource c.schema body c.names).1 := by
  unfold takeIn
  change _ = answer.bind Response.successBody >>= _
  cases answer.bind Response.successBody with
  | error fault => rfl
  | ok body =>
    change (c.finishWrite url body).1 = readReport body >>= _
    unfold finishWrite
    cases readReport body <;> rfl

theorem takeIn_eq_ok {url : String} {answer : Except String Response} {value : Resource}
    (h : (c.takeIn url (answer.mapError .transport)).1 = .ok value) :
    c.schema.Takes answer value := by
  rw [fst_takeIn] at h
  cases answer with
  | error text => cases h
  | ok response =>
    change (response.successBody >>= _ : Except Fault Resource) = _ at h
    cases hbody : response.successBody with
    | error fault =>
      rw [hbody] at h
      cases h
    | ok body =>
      rw [hbody] at h
      change (readReport body >>= _ : Except Fault Resource) = _ at h
      cases hreport : readReport body with
      | error fault =>
        rw [hreport] at h
        cases h
      | ok report =>
        rw [hreport] at h
        exact ⟨response, body, report, c.names, rfl, hbody, hreport, h⟩

theorem not_takes_of_takeIn {url : String} {answer : Except String Response} {fault : Fault}
    (h : (c.takeIn url (answer.mapError .transport)).1 = .error fault) (value : Resource) :
    ¬ c.schema.Takes answer value := by
  rintro ⟨response, body, report, names, rfl, hbody, hreport, himport⟩
  obtain ⟨first, hother⟩ := Wire.importResource_of_names himport c.names
  have htaken : (c.takeIn url (.ok response)).1 =
      .ok { value with firstVersion := first } := by
    rw [fst_takeIn, ← hother]
    change response.successBody >>= _ = _
    rw [hbody]
    change readReport body >>= _ = _
    rw [hreport]
    rfl
  cases htaken.symm.trans h

/-- Only an answer that says so is taken for a fork conflict. -/
theorem isForkConflict_takeIn_iff {url : String} {answer : Except String Response} {fault : Fault}
    (h : (c.takeIn url (answer.mapError .transport)).1 = .error fault) :
    fault.isForkConflict = true ↔ Conflicts answer := by
  rw [fst_takeIn] at h
  cases answer with
  | error text =>
    obtain rfl := Except.error.inj h
    exact ⟨fun hfork => (nomatch hfork), fun ⟨_, _, _, hanswer, _⟩ => (nomatch hanswer)⟩
  | ok response =>
    cases hsuccess : response.isSuccess with
    | false =>
      have hbody : response.successBody = .error response.rejection := by
        simp [Response.successBody, hsuccess]
      change (response.successBody >>= _ : Except Fault Resource) = _ at h
      rw [hbody] at h
      obtain rfl := Except.error.inj h
      exact isForkConflict_rejection_iff hsuccess
    | true =>
      have hnone : FailsOnly (·.isForkConflict = false) (response.successBody >>= fun body =>
          readReport body >>= fun _ => (Wire.importResource c.schema body c.names).1) := by
        have hunreadable : ∀ fault : Fault, fault = .unreadable → fault.isForkConflict = false := by
          rintro _ rfl
          rfl
        have hbody := (Response.failsOnly_successBody hsuccess).imp hunreadable
        refine hbody.bind fun body => ((failsOnly_readReport body).imp hunreadable).bind fun _ => ?_
        refine Wire.failsOnly_importResource.imp fun fault hkind => ?_
        cases fault <;> first | rfl | cases hkind
      rw [hnone fault h]
      refine ⟨fun hfork => (nomatch hfork), ?_⟩
      rintro ⟨_, _, _, ⟨⟩, hfailure, -⟩
      rw [hsuccess] at hfailure
      cases hfailure

theorem alike_absorb (url : String) (answer : Except Fault Response) (c : Client) :
    c.Alike (c.absorb { url } answer).2 := by
  unfold absorb
  split
  · exact .refl c
  · exact alike_importWire _ c

theorem absorb_eq_ok {url : String} {answer : Except String Response} {value : Resource}
    (h : (c.absorb { url } (answer.mapError .transport)).1 = .ok value) :
    ∃ response body names, answer = .ok response ∧ response.successBody = .ok body ∧
      (Wire.importResource c.schema body names).1 = .ok value := by
  unfold absorb at h
  cases answer with
  | error text => cases h
  | ok response =>
    dsimp only [Except.mapError, Except.bind] at h
    cases hbody : response.successBody with
    | error fault =>
      rw [hbody] at h
      cases h
    | ok body =>
      rw [hbody] at h
      exact ⟨response, body, c.names, rfl, hbody, h⟩

end Client

namespace World

theorem exchangeAmid_inTurn (answers : Nat → Except String Response) (w : World Nat)
    (request : Request) :
    w.exchangeAmid (.inTurn answers) id request =
      ((answers w.remote).mapError .transport,
        { w.record (.requested request) with remote := w.remote + 1 }) := rfl

end World

namespace Service

open ResourceClient.Action

variable {σ : Type} (net : Network σ) (meanwhile : World σ → World σ) (w : World σ)

theorem runAmid_post {parent : String} {r : Resource} :
    (post (.real parent) r).runAmid net meanwhile w =
      match Wire.exportResource w.client.schema { creating := true } r with
      | .error fault => (.error fault, w)
      | .ok body =>
        match w.client.rawRequest .post "post" (w.client.url parent) with
        | .error fault => (.error fault, w)
        | .ok raw =>
          match w.exchangeAmid net meanwhile { raw with body := some body } with
          | (answer, there) =>
            ((there.client.takeIn (w.client.url parent) answer).1,
              { there with client := (there.client.takeIn (w.client.url parent) answer).2 }) := by
  have hwrite : writeBody w.client.schema r {} true =
      Wire.exportResource w.client.schema { creating := true } r := rfl
  unfold post postWith postRaw
  simp only [requireReal, runAmid_bind, runAmid_need, runAmid_look, runAmid_exchange,
    runAmid_attempt, hwrite]
  cases Wire.exportResource w.client.schema { creating := true } r with
  | error fault => rfl
  | ok body =>
    dsimp only
    cases w.client.rawRequest .post "post" (w.client.url parent) with
    | error fault => rfl
    | ok raw =>
      dsimp only
      generalize w.exchangeAmid net meanwhile _ = exchanged
      obtain ⟨answer, there⟩ := exchanged
      unfold Client.takeIn
      cases answer with
      | error fault => rfl
      | ok response =>
        dsimp only [Except.bind]
        cases response.successBody <;> rfl

theorem runAmid_fetch (plan : Fetch) :
    (fetch plan).runAmid net meanwhile w =
      match w.client.fetchRequest plan with
      | .error fault => (.error fault, w)
      | .ok request =>
        match w.exchangeAmid net meanwhile request with
        | (answer, there) =>
          ((there.client.absorb plan answer).1,
            { there with client := (there.client.absorb plan answer).2 }) := by
  unfold fetch
  simp only [runAmid_bind, runAmid_look, runAmid_need]
  cases w.client.fetchRequest plan <;> rfl

theorem post_inTurn {c : Client} (hbase : c.config.restUrl.toList.head? ≠ some '/')
    (answers : Nat → Except String Response) (w : World Nat) (hw : c.Alike w.client)
    (parent : String) (r : Resource) :
    let call := (post (.real parent) r).runAmid (.inTurn answers) id w
    (∃ fault, call = (.error fault, w) ∧ fault.isForkConflict = false) ∨
    ∃ body, Wire.exportResource c.schema { creating := true } r = .ok body ∧
      call.2.trace = w.trace ++ [.requested (c.postRequest parent body)] ∧
      call.2.remote = w.remote + 1 ∧ c.Alike call.2.client ∧
      ((∃ value, call.1 = .ok value ∧ c.schema.Takes (answers w.remote) value) ∨
        ∃ fault, call.1 = .error fault ∧ (∀ value, ¬ c.schema.Takes (answers w.remote) value) ∧
          (fault.isForkConflict = true ↔ Conflicts (answers w.remote))) := by
  intro call
  have hcall : call = _ := runAmid_post (.inTurn answers) id w
  rw [hw.schema] at hcall
  cases hbody : Wire.exportResource c.schema { creating := true } r with
  | error fault =>
    rw [hbody] at hcall
    refine .inl ⟨fault, hcall, ?_⟩
    have hkind := Wire.failsOnly_exportResource _ r fault hbody
    cases fault <;> first | rfl | cases hkind
  | ok body =>
    rw [hbody] at hcall
    dsimp only at hcall
    cases hraw : w.client.rawRequest .post "post" (w.client.url parent) with
    | error fault =>
      rw [hraw] at hcall
      exact .inl ⟨fault, hcall, Client.not_isForkConflict_rawRequest _ _ _ fault hraw⟩
    | ok raw =>
      have hrequest : { raw with body := some body } = c.postRequest parent body := by
        rw [Client.rawRequest_eq_ok hraw, Client.body_signed, ← hw.postRequest]
        unfold Client.postRequest
        rw [Client.url_url (by rw [hw.config]; exact hbase)]
      rw [hraw] at hcall
      dsimp only at hcall
      rw [hrequest, World.exchangeAmid_inTurn] at hcall
      rw [hcall]
      refine .inr ⟨body, rfl, rfl, rfl, hw.trans (Client.alike_takeIn _ _ _), ?_⟩
      rw [← hw.schema]
      cases htaken : (w.client.takeIn (w.client.url parent)
          ((answers w.remote).mapError .transport)).1 with
      | ok value => exact .inl ⟨value, htaken, Client.takeIn_eq_ok htaken⟩
      | error fault =>
        exact .inr ⟨fault, htaken, Client.not_takes_of_takeIn htaken,
          Client.isForkConflict_takeIn_iff htaken⟩

def soleHead (address : String) (heads : List String) : Except Fault Path :=
  match heads with
  | [head] =>
    match Path.parse? head with
    | some path => .ok path
    | none => .error (.invalidPath head)
  | _ => .error (.noSingleHead address heads)

theorem runAmid_newest (item : String) :
    (newest (.real item)).runAmid net meanwhile w =
      match (fetch { url := w.client.url (Address.join item Known.last) }).runAmid net meanwhile w
        with
      | (.error fault, there) => (.error fault, there)
      | (.ok tag, there) =>
        (soleHead item (((tag.sheet? Known.tag).map (Sheet.stringList · "elements")).getD []),
          there) := by
  unfold newest getWith
  simp only [requireReal, runAmid_bind, runAmid_need, runAmid_look, fetchPlan, if_true,
    Bool.false_eq_true, if_false]
  generalize (fetch _).runAmid net meanwhile w = fetched
  obtain ⟨_ | tag, there⟩ := fetched
  · rfl
  · dsimp only
    generalize ((tag.sheet? Known.tag).map (Sheet.stringList · "elements")).getD [] = heads
    rcases heads with _ | ⟨head, _ | ⟨other, rest⟩⟩
    · rfl
    · unfold soleHead
      dsimp only
      cases Path.parse? head <;> rfl
    · rfl

theorem soleHead_eq_ok {address : String} {heads : List String} {head : Path}
    (h : soleHead address heads = .ok head) :
    ∃ text, heads = [text] ∧ Path.parse? text = some head := by
  unfold soleHead at h
  split at h
  · next text =>
    split at h
    · next path hparse => exact ⟨text, rfl, hparse.trans (congrArg some (Except.ok.inj h))⟩
    · cases h
  · cases h

theorem newest_inTurn {c : Client} (hbase : c.config.restUrl.toList.head? ≠ some '/')
    (answers : Nat → Except String Response) (w : World Nat) (hw : c.Alike w.client)
    (item : String) :
    let call := (newest (.real item)).runAmid (.inTurn answers) id w
    (∃ fault, call = (.error fault, w)) ∨
    call.2.trace = w.trace ++ [.requested (c.headRequest item)] ∧
      call.2.remote = w.remote + 1 ∧ c.Alike call.2.client ∧
      ((∃ head, call.1 = .ok head ∧ c.schema.ReadsHead (answers w.remote) head) ∨
        ∃ fault, call.1 = .error fault) := by
  intro call
  have hcall : call = _ := runAmid_newest (.inTurn answers) id w item
  rw [runAmid_fetch] at hcall
  cases hfetch : w.client.fetchRequest { url := w.client.url (Address.join item Known.last) } with
  | error fault =>
    rw [hfetch] at hcall
    exact .inl ⟨fault, hcall⟩
  | ok request =>
    have hrequest : request = c.headRequest item := by
      obtain ⟨raw, hraw, rfl⟩ := exists_of_map_eq_ok hfetch
      rw [Client.rawRequest_eq_ok hraw, ← hw.headRequest,
        Client.url_url (by rw [hw.config]; exact hbase)]
      unfold Client.headRequest Client.signed Request.signed
      cases w.client.credentials <;> rfl
    rw [hfetch] at hcall
    dsimp only at hcall
    rw [hrequest, World.exchangeAmid_inTurn] at hcall
    right
    have hlater := hw.trans (Client.alike_absorb (w.client.url (Address.join item Known.last))
      ((answers w.remote).mapError .transport) w.client)
    cases hread : (w.client.absorb { url := w.client.url (Address.join item Known.last) }
        ((answers w.remote).mapError .transport)).1 with
    | error fault =>
      simp only [World.record, hread] at hcall
      rw [hcall]
      exact ⟨rfl, rfl, hlater, .inr ⟨fault, rfl⟩⟩
    | ok tag =>
      simp only [World.record, hread] at hcall
      rw [hcall]
      refine ⟨rfl, rfl, hlater, ?_⟩
      dsimp only
      cases hhead : soleHead item
          (((tag.sheet? Known.tag).map (Sheet.stringList · "elements")).getD []) with
      | error fault => exact .inr ⟨fault, rfl⟩
      | ok head =>
        obtain ⟨response, body, names, hanswer, hbody, himport⟩ := Client.absorb_eq_ok hread
        obtain ⟨text, hheads, hparse⟩ := soleHead_eq_ok hhead
        rw [hw.schema] at himport
        exact .inl ⟨head, rfl, response, body, names, tag, text, hanswer, hbody, himport, hheads,
          hparse⟩

end Service

end ResourceClient

import ResourceClient.Proofs.Posting.Order
import ResourceClient.Proofs.Service.Batches
import ResourceClient.Proofs.Service.Recording
import ResourceClient.Proofs.Wire.Imports

/-!
Posting new resources that refer to each other. Either everything goes out in one batch or nothing
does, and each resource comes back in the place where its caller had it, whatever place it had in
the batch.
-/
namespace ResourceClient

theorem exists_getElem?_of_forall₂ {α β : Type} {R : α → β → Prop} {values : List α}
    {others : List β} (h : List.Forall₂ R values others) {k : Nat} {value : α}
    (hk : values[k]? = some value) : ∃ other, others[k]? = some other ∧ R value other := by
  obtain ⟨hlt, rfl⟩ := List.getElem?_eq_some_iff.1 hk
  have hother : k < others.length := h.length_eq ▸ hlt
  exact ⟨_, List.getElem?_eq_getElem hother, h.get hlt hother⟩

def Posts (c : Client) (drawn : List Path) (resources : List Resource) (i : Nat)
    (o : BatchOperation) : Prop :=
  ∃ resource parent handle, resources[i]? = some resource ∧ resource.parent = some parent ∧
    Creates c drawn parent resource handle o

theorem Posts.mono {c : Client} {drawn more : List Path} {resources : List Resource} {i : Nat}
    {o : BatchOperation} (h : Posts c drawn resources i o) (hmore : drawn ⊆ more) :
    Posts c more resources i o := by
  obtain ⟨resource, parent, handle, hat, hparent, hcreates⟩ := h
  exact ⟨resource, parent, handle, hat, hparent, hcreates.mono hmore⟩

theorem Posts.of_names {c : Client} {drawn : List Path} {names : Names}
    {resources : List Resource} {i : Nat} {o : BatchOperation}
    (h : Posts { c with names } drawn resources i o) : Posts c drawn resources i o := by
  obtain ⟨resource, parent, handle, hat, hparent, hcreates⟩ := h
  exact ⟨resource, parent, handle, hat, hparent, hcreates.of_names⟩

/-- Nothing keeps the resources from being posted: their references run in no circle, and each has a
parent and a body. -/
structure Postable (schema : Schema) (resources : List Resource) : Prop where
  acyclic : ∀ i, ¬ Relation.TransGen (PostingOrder.DependsOn schema resources) i i
  parents : ∀ resource ∈ resources, resource.parent.isSome = true
  bodies : ∀ resource ∈ resources,
    ∃ body, Wire.exportResource schema { creating := true } resource = .ok body

theorem Postable.of_posts {c : Client} {drawn : List Path} {resources : List Resource}
    {order : List Nat} {operations : List BatchOperation}
    (hacyclic : ∀ i, ¬ Relation.TransGen (PostingOrder.DependsOn c.schema resources) i i)
    (hperm : order.Perm (List.range resources.length))
    (hposts : List.Forall₂ (Posts c drawn resources) order operations) :
    Postable c.schema resources := by
  have hall : ∀ resource ∈ resources, resource.parent.isSome = true ∧
      ∃ body, Wire.exportResource c.schema { creating := true } resource = .ok body := by
    intro resource hmem
    obtain ⟨i, hi⟩ := List.mem_iff_getElem?.1 hmem
    have hplaced : i ∈ order :=
      hperm.mem_iff.2 (List.mem_range.2 (List.getElem?_eq_some_iff.1 hi).1)
    obtain ⟨k, hk⟩ := List.mem_iff_getElem?.1 hplaced
    obtain ⟨o, -, posted, parent, handle, hat, hparent, hcreates⟩ :=
      exists_getElem?_of_forall₂ hposts hk
    obtain rfl : resource = posted := Option.some.inj (hi.symm.trans hat)
    obtain ⟨body, hbody, -⟩ := hcreates.body
    exact ⟨by rw [hparent]; rfl, body, hbody⟩
  exact ⟨hacyclic, fun r hr => (hall r hr).1, fun r hr => (hall r hr).2⟩

theorem not_postable_of_mem {schema : Schema} {resources : List Resource} {resource : Resource}
    {fault : Fault} (hmem : resource ∈ resources)
    (hfails : resource.parent = none ∨
      Wire.exportResource schema { creating := true } resource = .error fault) :
    ¬ Postable schema resources := by
  intro hpostable
  rcases hfails with hnone | hexport
  · have hsome := hpostable.parents resource hmem
    rw [hnone] at hsome
    cases hsome
  · obtain ⟨body, hbody⟩ := hpostable.bodies resource hmem
    cases hbody.symm.trans hexport

theorem isStated_order (schema : Schema) (resources : List Resource) :
    FailsOnly Fault.IsStated (PostingOrder.order schema resources) := by
  unfold PostingOrder.order
  dsimp only
  split
  · exact .error _ nofun
  · exact .ok _

namespace Client

variable {c : Client} {resources : List Resource} {resource : Resource} {parent : Path} {i : Nat}
  {order : List Nat} {before : List BatchOperation} {tx : Transaction}

theorem recordPosts_cons_of_parent (hat : resources[i]? = some resource)
    (hparent : resource.parent = some parent) :
    c.recordPosts resources (i :: order) tx =
      match (tx.post parent resource c).1 with
      | .error fault => (.error fault, (tx.post parent resource c).2.2)
      | .ok _ =>
        (tx.post parent resource c).2.2.recordPosts resources order
          (tx.post parent resource c).2.1 := by
  simp only [recordPosts, hat, hparent]
  obtain ⟨_ | _, tx, c⟩ := tx.post parent resource c <;> rfl

theorem recordPosts_cons_of_no_parent (hat : resources[i]? = some resource)
    (hparent : resource.parent = none) :
    c.recordPosts resources (i :: order) tx =
      (.error (.exporting (.noParent resource.path)), c) := by
  simp only [recordPosts, hat, hparent]

theorem recordPosts_eq (hbounded : ∀ i ∈ order, i < resources.length)
    (before : List BatchOperation) (c : Client) :
    (∃ fault names, c.recordPosts resources order { operations := before } =
        (.error fault, { c with names }) ∧ Wire.exportKind fault ∧
      ∃ resource ∈ resources, resource.parent = none ∨
        Wire.exportResource c.schema { creating := true } resource = .error fault) ∨
    ∃ more names, c.recordPosts resources order { operations := before } =
        (.ok { operations := before ++ more }, { c with names }) ∧
      List.Forall₂ (Posts c (c.names.upcoming (2 * order.length)) resources) order more := by
  induction order generalizing before c with
  | nil => exact .inr ⟨[], c.names, by simp [recordPosts], .nil⟩
  | cons i rest ih =>
    obtain ⟨resource, hat⟩ : ∃ resource, resources[i]? = some resource :=
      ⟨_, List.getElem?_eq_getElem (hbounded i List.mem_cons_self)⟩
    cases hparent : resource.parent with
    | none =>
      rw [recordPosts_cons_of_no_parent hat hparent]
      exact .inl ⟨_, c.names, rfl, trivial, resource, List.mem_of_getElem? hat, .inl hparent⟩
    | some parent =>
      rw [recordPosts_cons_of_parent hat hparent]
      obtain ⟨names, hnames, hupcoming⟩ :
          ∃ names, (Transaction.post parent resource { operations := before } c).2.2 =
            { c with names } ∧ _ := Transaction.snd_post _ c
      cases hpost : (Transaction.post parent resource { operations := before } c).1 with
      | error fault =>
        have hexport := (Transaction.post_eq_error hpost).2 rfl
        exact .inl ⟨fault, names, by rw [hnames], Wire.failsOnly_exportResource _ _ fault hexport,
          resource, List.mem_of_getElem? hat, .inr hexport⟩
      | ok handle =>
        obtain ⟨-, o, hcreates, hpush⟩ := Transaction.post_eq_ok hpost
        have hfirst : 2 ≤ 2 * (rest.length + 1) := by omega
        have hposts : Posts c (c.names.upcoming (2 * (rest.length + 1))) resources i o :=
          ⟨resource, parent, handle, hat, hparent,
            hcreates.mono (c.names.upcoming_mono hfirst)⟩
        dsimp only
        rw [hpush, hnames]
        rcases ih (fun j hj => hbounded j (List.mem_cons_of_mem _ hj)) (before ++ [o])
          { c with names } with ⟨fault, last, heq, hfails⟩ | ⟨more, last, heq, hmore⟩
        · exact .inl ⟨fault, last, heq, hfails⟩
        · refine .inr ⟨o :: more, last, by simpa using heq, .cons hposts ?_⟩
          exact hmore.imp fun j o hposts => hposts.of_names.mono (hupcoming _)

end Client

namespace Service

theorem lookup_zip {order : List Nat} {results : List Resource} (hnodup : order.Nodup) {k i : Nat}
    (hk : order[k]? = some i) : (order.zip results).lookup i = results[k]? := by
  induction order generalizing results k with
  | nil => simp at hk
  | cons j rest ih =>
    obtain ⟨hnew, hrest⟩ := List.nodup_cons.1 hnodup
    cases results with
    | nil => rfl
    | cons result results =>
      cases k with
      | zero =>
        obtain rfl : j = i := by simpa using hk
        simp
      | succ k =>
        have hi : i ∈ rest := List.mem_of_getElem? hk
        have hne : (i == j) = false := by
          rw [beq_eq_false_iff_ne]
          rintro rfl
          exact hnew hi
        rw [List.zip_cons_cons, List.lookup_cons, hne]
        exact ih hrest hk

theorem backInOrder_eq_ok {order : List Nat} {results : List Resource} {count : Nat}
    (hperm : order.Perm (List.range count)) (hlength : results.length = order.length) :
    ∃ resources, backInOrder order results count = .ok resources ∧ resources.length = count ∧
      ∀ k i : Nat, order[k]? = some i → resources[i]? = results[k]? := by
  have hnodup : order.Nodup := hperm.nodup_iff.2 List.nodup_range
  let place (i : Nat) : Resource := ((order.zip results).lookup i).getD default
  have hplace : ∀ k i : Nat, order[k]? = some i → results[k]? = some (place i) := by
    intro k i hk
    have hlt : k < results.length := hlength ▸ (List.getElem?_eq_some_iff.1 hk).1
    unfold place
    rw [lookup_zip hnodup hk, List.getElem?_eq_getElem hlt]
    rfl
  refine ⟨(List.range count).map place, mapM_eq_ok_iff.2 ?_, by simp, fun k i hk => ?_⟩
  · refine List.forall₂_map_right_iff.2 (List.forall₂_same.2 fun i hi => ?_)
    obtain ⟨k, hk⟩ := List.mem_iff_getElem?.1 (hperm.mem_iff.2 hi)
    rw [lookup_zip hnodup hk, hplace k i hk]
  · have hi : i < count := List.mem_range.1 (hperm.mem_iff.1 (List.mem_of_getElem? hk))
    rw [hplace k i hk, List.getElem?_map, List.getElem?_range hi]
    rfl

variable {σ : Type} (net : Network σ) (meanwhile : World σ → World σ) (w : World σ)
  (resources : List Resource)

theorem runAmid_deepPost_of_error {fault : Fault}
    (horder : PostingOrder.order w.client.schema resources = .error fault) :
    (deepPost resources).runAmid net meanwhile w = (.error fault, w) := by
  unfold deepPost
  simp only [Action.runAmid_bind, Action.runAmid_look, Action.runAmid_need, horder]

theorem runAmid_deepPost {order : List Nat}
    (horder : PostingOrder.order w.client.schema resources = .ok order) :
    (deepPost resources).runAmid net meanwhile w =
      match w.client.recordPosts resources order {} with
      | (.error fault, client) => (.error fault, { w with client })
      | (.ok tx, client) =>
        match (sendBatch tx.operations).runAmid net meanwhile { w with client } with
        | (.error fault, there) => (.error fault, there)
        | (.ok results, there) => (backInOrder order results resources.length, there) := by
  unfold deepPost
  simp only [Action.runAmid_bind, Action.runAmid_look, Action.runAmid_need, Action.runAmid_attempt,
    horder]
  obtain ⟨_ | tx, client⟩ := w.client.recordPosts resources order {}
  · rfl
  · dsimp only
    obtain ⟨_ | results, there⟩ := (sendBatch tx.operations).runAmid net meanwhile { w with client }
      <;> rfl

/-- Either the resources cannot all be posted, and nothing but names is drawn for them, or each of
them is recorded in its place in the order. -/
theorem postable_cases :
    (¬ Postable w.client.schema resources ∧ ∃ fault names,
      (deepPost resources).runAmid net meanwhile w =
        (.error fault, { w with client := { w.client with names } }) ∧ fault.IsStated) ∨
    Postable w.client.schema resources ∧ ∃ order operations names,
      PostingOrder.order w.client.schema resources = .ok order ∧
      order.Perm (List.range resources.length) ∧
      List.Forall₂ (Posts w.client (w.client.names.upcoming (2 * resources.length)) resources) order
        operations ∧
      w.client.recordPosts resources order {} =
        (.ok { operations }, { w.client with names }) := by
  cases horder : PostingOrder.order w.client.schema resources with
  | error fault =>
    have hnot : ¬ Postable w.client.schema resources := by
      intro hpostable
      obtain ⟨i, hcycle⟩ := PostingOrder.order_eq_error horder
      exact hpostable.acyclic i hcycle
    exact .inl ⟨hnot, fault, w.client.names,
      runAmid_deepPost_of_error net meanwhile w resources horder,
      isStated_order w.client.schema resources fault horder⟩
  | ok order =>
    have hperm := (PostingOrder.order_eq_ok horder).2
    have hbounded : ∀ i ∈ order, i < resources.length :=
      fun i hi => List.mem_range.1 (hperm.mem_iff.1 hi)
    rcases Client.recordPosts_eq hbounded [] w.client with
      ⟨fault, names, hrecorded, hkind, resource, hmem, hfails⟩ |
      ⟨operations, names, hrecorded, hall⟩
    · refine .inl ⟨not_postable_of_mem hmem hfails, fault, names, ?_, ?_⟩
      · rw [runAmid_deepPost net meanwhile w resources horder, hrecorded]
      · rintro rfl
        exact hkind
    · have hacyclic := PostingOrder.exists_order_iff.1 ⟨order, horder⟩
      rw [hperm.length_eq, List.length_range] at hall
      exact .inr ⟨.of_posts hacyclic hperm hall, order, operations, names, rfl, hperm, hall,
        hrecorded⟩

variable {resources}

@[simp] theorem runAmid_deepPost_nil :
    (deepPost []).runAmid net meanwhile w = (.ok [], w) := rfl

theorem runAmid_deepPost_of_recorded {order : List Nat} {operations : List BatchOperation}
    {names : Names} (horder : PostingOrder.order w.client.schema resources = .ok order)
    (hrecorded : w.client.recordPosts resources order {} =
      (.ok { operations }, { w.client with names }))
    (hlength : order.length = operations.length) :
    let sent := (sendBatch operations).runAmid net meanwhile
      { w with client := { w.client with names } }
    (∃ fault, sent.1 = .error fault ∧
      (deepPost resources).runAmid net meanwhile w = (.error fault, sent.2)) ∨
    ∃ results posted, sent.1 = .ok results ∧
      (deepPost resources).runAmid net meanwhile w = (.ok posted, sent.2) ∧
      posted.length = resources.length ∧
      ∀ k i : Nat, order[k]? = some i → posted[i]? = results[k]? := by
  intro sent
  have hcall : (deepPost resources).runAmid net meanwhile w =
      match sent with
      | (.error fault, there) => (.error fault, there)
      | (.ok results, there) => (backInOrder order results resources.length, there) := by
    rw [runAmid_deepPost net meanwhile w resources horder, hrecorded]
  cases hsent : sent.1 with
  | error fault =>
    rw [← Prod.eta sent, hsent] at hcall
    exact .inl ⟨fault, rfl, hcall⟩
  | ok results =>
    rw [← Prod.eta sent, hsent] at hcall
    have hresults := length_sendBatch net meanwhile _ hsent
    obtain ⟨posted, hback, hposted, hplaces⟩ :=
      backInOrder_eq_ok (PostingOrder.order_eq_ok horder).2 (hresults.trans hlength.symm)
    dsimp only at hcall
    rw [hback] at hcall
    exact .inr ⟨results, posted, rfl, hcall, hposted, hplaces⟩

theorem snd_deepPost_of_recorded {order : List Nat} {operations : List BatchOperation}
    {names : Names} (horder : PostingOrder.order w.client.schema resources = .ok order)
    (hrecorded : w.client.recordPosts resources order {} =
      (.ok { operations }, { w.client with names }))
    (hlength : order.length = operations.length) :
    ((deepPost resources).runAmid net meanwhile w).2 =
      ((sendBatch operations).runAmid net meanwhile
        { w with client := { w.client with names } }).2 := by
  rcases runAmid_deepPost_of_recorded net meanwhile w horder hrecorded hlength with
    ⟨fault, -, hcall⟩ | ⟨results, posted, -, hcall, -⟩ <;>
  rw [hcall]

theorem deepPost_eq_ok {order : List Nat} {operations : List BatchOperation} {names : Names}
    (horder : PostingOrder.order w.client.schema resources = .ok order)
    (hrecorded : w.client.recordPosts resources order {} =
      (.ok { operations }, { w.client with names }))
    (hlength : order.length = operations.length) (hsend : operations ≠ []) {posted : List Resource}
    (hok : ((deepPost resources).runAmid net meanwhile w).1 = .ok posted) :
    let start : World σ := { w with client := { w.client with names } }
    let exchanged := start.exchangeAmid net meanwhile (w.client.batchRequest operations)
    posted.length = resources.length ∧ ∃ response batch results, exchanged.1 = .ok response ∧
      response.Carries operations.length batch ∧ batch.Unpacks exchanged.2.client results ∧
      ∀ k i : Nat, order[k]? = some i → posted[i]? = results[k]? := by
  intro start exchanged
  rcases runAmid_deepPost_of_recorded net meanwhile w horder hrecorded hlength with
    ⟨fault, -, hcall⟩ | ⟨results, same, hsent, hcall, hposted, hplaces⟩
  · rw [hcall] at hok
    cases hok
  · rw [hcall] at hok
    obtain rfl := Except.ok.inj hok
    obtain ⟨response, batch, hanswer, hcarries, hunpacks⟩ :=
      sendBatch_eq_ok net meanwhile start hsend hsent
    exact ⟨hposted, response, batch, results, hanswer, hcarries, hunpacks, hplaces⟩

theorem isStated_deepPost
    (hanswers : ∀ request remote, FailsOnly Fault.IsStated (net.answer request remote).1) :
    FailsOnly Fault.IsStated ((deepPost resources).runAmid net meanwhile w).1 := by
  intro fault hfault
  rcases postable_cases net meanwhile w resources with ⟨-, cause, names, hcall, hstated⟩ |
    ⟨-, order, operations, names, horder, -, hall, hrecorded⟩
  · rw [hcall] at hfault
    obtain rfl := Except.error.inj hfault
    exact hstated
  · rcases runAmid_deepPost_of_recorded net meanwhile w horder hrecorded hall.length_eq with
      ⟨cause, hsent, hcall⟩ | ⟨results, posted, -, hcall, -⟩
    · rw [hcall] at hfault
      obtain rfl := Except.error.inj hfault
      exact isStated_sendBatch net meanwhile _ hsent (hanswers _ _)
    · rw [hcall] at hfault
      cases hfault

/-- Resources that cannot all be posted send nothing. The others go out in one batch, in the posting
order, and each comes back in its place; none is ever missing. -/
theorem deepPost_settles (resources : List Resource) :
    let call := (deepPost resources).runAmid net meanwhile w
    (¬ Postable w.client.schema resources → ∃ fault names,
      call = (.error fault, { w with client := { w.client with names } })) ∧
    (resources = [] → call = (.ok [], w)) ∧
    (Postable w.client.schema resources → resources ≠ [] → ∃ order operations names,
      PostingOrder.order w.client.schema resources = .ok order ∧
      order.Perm (List.range resources.length) ∧
      List.Forall₂ (Posts w.client (w.client.names.upcoming (2 * resources.length)) resources) order
        operations ∧
      let request := w.client.batchRequest operations
      let start : World σ := { w with client := { w.client with names } }
      let exchanged := start.exchangeAmid net meanwhile request
      call.2.trace = (meanwhile (start.record (.requested request))).trace ∧
      ∀ posted, call.1 = .ok posted → posted.length = resources.length ∧
        ∃ response batch results, exchanged.1 = .ok response ∧
          response.Carries operations.length batch ∧
          batch.Unpacks exchanged.2.client results ∧
          ∀ k i : Nat, order[k]? = some i → posted[i]? = results[k]?) ∧
    ((∀ request remote, (net.answer request remote).1 ≠ .error (.importing .missingResult)) →
      call.1 ≠ .error (.importing .missingResult)) := by
  intro call
  have hcases := postable_cases net meanwhile w resources
  refine ⟨fun hnot => ?_, ?_, fun hpostable hne => ?_, fun hanswers => ?_⟩
  · rcases hcases with ⟨-, fault, names, hcall, -⟩ | ⟨hpostable, -⟩
    · exact ⟨fault, names, hcall⟩
    · exact absurd hpostable hnot
  · rintro rfl
    exact runAmid_deepPost_nil net meanwhile w
  · rcases hcases with ⟨hnot, -⟩ | ⟨-, order, operations, names, horder, hperm, hall, hrecorded⟩
    · exact absurd hpostable hnot
    · have hlength := hall.length_eq
      have hcount := hperm.length_eq
      rw [List.length_range] at hcount
      have hsend : operations ≠ [] := by
        rintro rfl
        exact hne (List.length_eq_zero_iff.1 (hcount.symm.trans hlength))
      have hafter := snd_deepPost_of_recorded net meanwhile w horder hrecorded hlength
      refine ⟨order, operations, names, horder, hperm, hall, ?_, fun posted hposted => ?_⟩
      · exact (congrArg World.trace hafter).trans (trace_sendBatch net meanwhile _ hsend)
      · exact deepPost_eq_ok net meanwhile w horder hrecorded hlength hsend hposted
  · intro hmissing
    have hstated : FailsOnly Fault.IsStated call.1 := by
      refine isStated_deepPost net meanwhile w fun request remote fault hfault => ?_
      rintro rfl
      exact hanswers request remote hfault
    exact hstated _ hmissing rfl

end Service

end ResourceClient

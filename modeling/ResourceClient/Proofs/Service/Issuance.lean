import ResourceClient.Proofs.Service.Drawing
import ResourceClient.Proofs.Service.Precedence

/-!
Who has which placeholder. A service draws them for its callers, for what it imports and for what is
recorded on transactions, of which any number lie open together. Each draw is kept account of, with
the batch that binds it; what a batch binds is held by its resources or was drawn for it.
-/
namespace ResourceClient

theorem append_append_perm {α : Type} (a b c d : List α) :
    ((a ++ b) ++ (c ++ d)).Perm ((a ++ c) ++ (b ++ d)) := by
  have hmiddle : (b ++ (c ++ d)).Perm (c ++ (b ++ d)) := by
    simpa using List.perm_append_comm.append_right d
  simpa using hmiddle.append_left a

namespace Transaction

/-- What is drawn in place of what is held. -/
def drawnFor (held : Option Path) (names : Names) : List Path :=
  if held.any Path.isPlaceholder then [] else [(keepOrDraw held names).1]

theorem draws_keepOrDraw (held : Option Path) (names : Names) :
    names.Draws (drawnFor held names) (keepOrDraw held names).2 ∧
      [(keepOrDraw held names).1] =
        held.toList.filter Path.isPlaceholder ++ drawnFor held names := by
  match held with
  | none => exact ⟨.one names, rfl⟩
  | some (.real address) => exact ⟨.one names, rfl⟩
  | some (.placeholder n) => exact ⟨.nothing names, rfl⟩

def drawnByNames (schema : Schema) (resource : Resource) (names : Names) : List Path :=
  drawnFor (some resource.path) names ++
    if schema.isItem resource.contentType then
      drawnFor resource.firstVersion (keepOrDraw (some resource.path) names).2
    else []

theorem draws_postNames (schema : Schema) (resource : Resource) (names : Names) :
    let given := postNames schema resource names
    names.Draws (drawnByNames schema resource names) given.2 ∧
      ∃ kept, kept.Sublist resource.held ∧
        (given.1.1 :: given.1.2.toList).Perm (kept ++ drawnByNames schema resource names) := by
  intro given
  obtain ⟨hpath, hgiven⟩ := draws_keepOrDraw (some resource.path) names
  obtain ⟨hfirst, hsecond⟩ :=
    draws_keepOrDraw resource.firstVersion (keepOrDraw (some resource.path) names).2
  rw [resource.held_eq]
  unfold given drawnByNames postNames
  cases schema.isItem resource.contentType with
  | false =>
    refine ⟨by simpa using hpath, _, List.sublist_append_left _ _, ?_⟩
    simpa using List.Perm.of_eq hgiven
  | true =>
    refine ⟨hpath.append hfirst, _, List.Sublist.refl _, ?_⟩
    have hboth := congrArg₂ (· ++ ·) hgiven hsecond
    exact (List.Perm.of_eq hboth).trans (append_append_perm _ _ _ _)

def drawnByPost (resource : Resource) (tx : Transaction) (c : Client) : List Path :=
  if tx.committed then [] else drawnByNames c.schema resource c.names

theorem draws_post (parent : Path) (resource : Resource) (tx : Transaction) (c : Client) :
    c.names.Draws (drawnByPost resource tx c) (tx.post parent resource c).2.2.names := by
  unfold drawnByPost post
  cases tx.committed with
  | true => exact .nothing c.names
  | false =>
    have hdraws := (draws_postNames c.schema resource c.names).1
    simp only [Bool.false_eq_true, if_false]
    split <;> exact hdraws

theorem binds_post {parent : Path} {resource : Resource} {tx : Transaction} {c : Client}
    {handle : PostHandle} (h : (tx.post parent resource c).1 = .ok handle) :
    ∃ o kept, (tx.post parent resource c).2.1.operations = tx.operations ++ [o] ∧
      kept.Sublist resource.held ∧
      o.binds.Perm ((kept ++ drawnByPost resource tx c).map Path.toString) := by
  unfold drawnByPost
  unfold post at h ⊢
  cases hopen : tx.committed with
  | true =>
    rw [hopen] at h
    cases h
  | false =>
    obtain ⟨kept, hkept, hgiven⟩ := (draws_postNames c.schema resource c.names).2
    simp only [hopen, Bool.false_eq_true, if_false] at h ⊢
    split at h
    · cases h
    · refine ⟨_, kept, rfl, hkept, ?_⟩
      have hbinds := hgiven.map Path.toString
      rw [List.map_cons, ← Option.toList_map] at hbinds
      exact hbinds

end Transaction

/-- The operations bind what the resources hold, or part of it, and some of what was drawn. -/
def Bound (operations : List BatchOperation) (posted : List Resource) (drawn : List Path) : Prop :=
  ∃ kept allotted : List Path,
    kept.Sublist (posted.flatMap Resource.held) ∧ allotted.Sublist drawn ∧
      (operations.flatMap BatchOperation.binds).Perm ((kept ++ allotted).map Path.toString)

namespace Bound

variable {operations : List BatchOperation} {posted : List Resource} {drawn more : List Path}

theorem nil (posted : List Resource) (drawn : List Path) : Bound [] posted drawn :=
  ⟨[], [], List.nil_sublist _, List.nil_sublist _, .refl _⟩

theorem mono (h : Bound operations posted drawn) (hmore : drawn.Sublist more) :
    Bound operations posted more := by
  obtain ⟨kept, allotted, hkept, hallotted, hbinds⟩ := h
  exact ⟨kept, allotted, hkept, hallotted.trans hmore, hbinds⟩

theorem push (h : Bound operations posted drawn) {o : BatchOperation} (ho : o.binds = []) :
    Bound (operations ++ [o]) posted drawn := by
  simpa [Bound, ho] using h

theorem post {parent : Path} {resource : Resource} {tx : Transaction} {c : Client}
    {handle : PostHandle} (h : Bound tx.operations posted drawn)
    (hok : (tx.post parent resource c).1 = .ok handle) :
    Bound (tx.post parent resource c).2.1.operations (posted ++ [resource])
      (drawn ++ Transaction.drawnByPost resource tx c) := by
  obtain ⟨kept, allotted, hkept, hallotted, hbinds⟩ := h
  obtain ⟨o, held, hpush, hheld, hnew⟩ := Transaction.binds_post hok
  refine ⟨kept ++ held, allotted ++ Transaction.drawnByPost resource tx c, ?_, ?_, ?_⟩
  · rw [List.flatMap_append, List.flatMap_singleton]
    exact hkept.append hheld
  · exact hallotted.append_right _
  · have hboth := hbinds.append hnew
    rw [← List.map_append] at hboth
    rw [hpush, List.flatMap_append, List.flatMap_singleton]
    exact hboth.trans ((append_append_perm _ _ _ _).map _)

/-- Nothing is bound twice if nothing is held twice, nor both held and drawn. -/
theorem nodup (h : Bound operations posted drawn)
    (hplaceholders : ∀ path ∈ drawn, path.isPlaceholder = true)
    (honce : (posted.flatMap Resource.held).Nodup) (hdrawn : drawn.Nodup)
    (hapart : ∀ path ∈ posted.flatMap Resource.held, path ∉ drawn) :
    (operations.flatMap BatchOperation.binds).Nodup := by
  obtain ⟨kept, allotted, hkept, hallotted, hbinds⟩ := h
  have hall : ∀ path ∈ kept ++ allotted, path.isPlaceholder = true := by
    intro path hpath
    rcases List.mem_append.1 hpath with hheld | hnew
    · obtain ⟨resource, -, hmem⟩ := List.mem_flatMap.1 (hkept.subset hheld)
      exact (List.mem_filter.1 hmem).2
    · exact hplaceholders path (hallotted.subset hnew)
  have hnodup : (kept ++ allotted).Nodup := by
    refine List.nodup_append.2 ⟨honce.sublist hkept, hdrawn.sublist hallotted, ?_⟩
    rintro path hheld other hnew rfl
    exact hapart path (hkept.subset hheld) (hallotted.subset hnew)
  refine hbinds.nodup_iff.2 (hnodup.map_on fun p hp q hq heq => ?_)
  exact Path.toString_inj_of_isPlaceholder (hall p hp) (hall q hq) heq

end Bound

namespace Client

def drawnByPosts (resources : List Resource) : List Nat → Transaction → Client → List Path
  | [], _, _ => []
  | i :: rest, tx, c =>
    match resources[i]? with
    | none => drawnByPosts resources rest tx c
    | some resource =>
      match resource.parent with
      | none => []
      | some parent =>
        Transaction.drawnByPost resource tx c ++
          match tx.post parent resource c with
          | (.error _, _, _) => []
          | (.ok _, tx, c) => drawnByPosts resources rest tx c

theorem draws_recordPosts (resources : List Resource) (order : List Nat) (tx : Transaction)
    (c : Client) :
    c.names.Draws (c.drawnByPosts resources order tx)
      (c.recordPosts resources order tx).2.names := by
  induction order generalizing tx c with
  | nil => exact .nothing c.names
  | cons i rest ih =>
    unfold drawnByPosts recordPosts
    cases resources[i]? with
    | none => exact ih tx c
    | some resource =>
      cases hparent : resource.parent with
      | none =>
        simp only [hparent]
        exact .nothing c.names
      | some parent =>
        have hdraws := Transaction.draws_post parent resource tx c
        simp only [hparent]
        rcases hpost : tx.post parent resource c with ⟨fault | handle, later, there⟩
        · rw [hpost] at hdraws
          simpa using hdraws
        · rw [hpost] at hdraws
          exact hdraws.append (ih later there)

end Client

theorem Bound.recordPosts {resources : List Resource} (order : List Nat) {tx later : Transaction}
    {c : Client} {posted : List Resource} {drawn : List Path}
    (h : Bound tx.operations posted drawn)
    (hok : (c.recordPosts resources order tx).1 = .ok later) :
    Bound later.operations (posted ++ order.filterMap (resources[·]?))
      (drawn ++ c.drawnByPosts resources order tx) := by
  induction order generalizing tx c posted drawn with
  | nil =>
    obtain rfl := Except.ok.inj hok
    simpa [Client.drawnByPosts] using h
  | cons i rest ih =>
    unfold Client.drawnByPosts
    unfold Client.recordPosts at hok
    cases hat : resources[i]? with
    | none =>
      simp only [hat] at hok
      simpa [hat] using ih h hok
    | some resource =>
      cases hparent : resource.parent with
      | none =>
        simp only [hat, hparent] at hok
        cases hok
      | some parent =>
        simp only [hat, hparent] at hok ⊢
        rcases hpost : tx.post parent resource c with ⟨fault | handle, recorded, there⟩
        · rw [hpost] at hok
          cases hok
        · rw [hpost] at hok
          have hfirst := h.post (congrArg Prod.fst hpost)
          rw [hpost] at hfirst
          simpa [hat] using ih hfirst hok

end ResourceClient

import Mathlib.Data.List.Nodup
import ResourceClient.Proofs.Posting.Schedules
import ResourceClient.Proofs.Service.DeepPosts
import ResourceClient.Proofs.Wire.Exports

/-!
Which operation of a batch may speak of which. The order is made from the resources as they are
held, and the server reads bodies; what a body refers to is among what its resource refers to, so
nothing refers to a placeholder before the operation that binds it.
-/
namespace ResourceClient

namespace Path

theorem toString_inj_of_isPlaceholder {p q : Path} (hp : p.isPlaceholder = true)
    (hq : q.isPlaceholder = true) (h : p.toString = q.toString) : p = q := by
  cases p with
  | real address => cases hp
  | placeholder n =>
    cases q with
    | real address => cases hq
    | placeholder m =>
      have hparse := congrArg Path.parse? h
      rw [Path.parse?_toString_placeholder, Path.parse?_toString_placeholder] at hparse
      exact Option.some.inj hparse

/-- What is written like a placeholder is one, or an address on the server that reads like it. -/
theorem eq_or_eq_real {n : UInt64} {path : Path} (h : path.toString = (placeholder n).toString) :
    path = .placeholder n ∨ path = .real (placeholder n).toString := by
  cases path with
  | real address => exact .inr (congrArg real h)
  | placeholder m => exact .inl (toString_inj_of_isPlaceholder rfl rfl h)

end Path

namespace Resource

def held (r : Resource) : List Path :=
  (r.path :: r.firstVersion.toList).filter Path.isPlaceholder

theorem held_eq (r : Resource) :
    r.held = (some r.path).toList.filter Path.isPlaceholder ++
      r.firstVersion.toList.filter Path.isPlaceholder :=
  List.filter_append [r.path] r.firstVersion.toList

theorem mem_held_iff {r : Resource} {path : Path} :
    path ∈ r.held ↔ (r.path = path ∨ r.firstVersion = some path) ∧ path.isPlaceholder = true := by
  unfold held
  rw [List.mem_filter, List.mem_cons, Option.mem_toList, eq_comm]

/-- An address on the server, of the resource or its first version, is written so. -/
def SpellsReal (text : String) (r : Resource) : Prop :=
  r.path = .real text ∨ r.firstVersion = some (.real text)

theorem IsNamed.of_mem_held {r : Resource} {path : Path} (h : path ∈ r.held) :
    r.IsNamed path.toString := by
  rcases (mem_held_iff.1 h).1 with rfl | hfirst
  · exact .inl rfl
  · exact .inr (by rw [hfirst]; rfl)

theorem IsNamed.cases {r : Resource} {n : UInt64} (h : r.IsNamed (Path.placeholder n).toString) :
    Path.placeholder n ∈ r.held ∨ r.SpellsReal (Path.placeholder n).toString := by
  rcases h with hpath | hversion
  · exact (Path.eq_or_eq_real hpath).imp (fun heq => mem_held_iff.2 ⟨.inl heq, rfl⟩) .inl
  · obtain ⟨first, hfirst, htext⟩ := Option.map_eq_some_iff.1 hversion
    rcases Path.eq_or_eq_real htext with rfl | rfl
    · exact .inl (mem_held_iff.2 ⟨.inr hfirst, rfl⟩)
    · exact .inr (.inr hfirst)

end Resource

namespace Wire

def bodyReferences (schema : Schema) (body : Json) : List String :=
  match body.field? "data" with
  | some (.object sheets) =>
    sheets.flatMap fun (name, sheet) =>
      match sheet with
      | .object fields =>
        fields.flatMap fun (field, value) =>
          if schema.isReference name field then Resource.referencesOf value else []
      | _ => []
  | _ => []

def bodyRootVersions (body : Json) : List String :=
  match body.field? "root_versions" with
  | some (.array items) => items.filterMap Json.string?
  | _ => []

variable {schema : Schema} {options : ExportOptions} {r : Resource} {body : Json} {text : String}

theorem bodyReferences_subset (h : exportResource schema options r = .ok body) :
    bodyReferences schema body ⊆ r.references schema := by
  obtain ⟨-, -, rfl⟩ := exportResource_eq_ok_iff.1 h
  intro text htext
  unfold bodyReferences at htext
  rw [field?_body, if_neg (by decide), if_pos rfl] at htext
  obtain ⟨_, hsheet, hfields⟩ := List.mem_flatMap.1 htext
  obtain ⟨_, hexported, rfl⟩ := List.mem_map.1 hsheet
  obtain ⟨entry, hentry, hproject⟩ := List.mem_filterMap.1 hexported
  obtain ⟨-, -, rfl⟩ := project_eq_some_iff.1 hproject
  obtain ⟨⟨field, value⟩, hfield, hvalue⟩ := List.mem_flatMap.1 hfields
  refine List.mem_append_right _ (List.mem_flatMap.2 ⟨entry, hentry, ?_⟩)
  exact List.mem_flatMap.2 ⟨(field, value), (mem_exportFields.1 hfield).1, hvalue⟩

end Wire

namespace BatchOperation

/-- The placeholders that the server binds to what the operation creates. -/
def binds (o : BatchOperation) : List String := o.resultPath.toList ++ o.resultFirstVersion.toList

/-- What the operation refers to: its target, and the paths in the reference fields of its body. -/
def mentions (schema : Schema) (o : BatchOperation) : List String :=
  o.target :: o.body.toList.flatMap (Wire.bodyReferences schema)

def rootVersions (o : BatchOperation) : List String := o.body.toList.flatMap Wire.bodyRootVersions

end BatchOperation

variable {c : Client} {drawn : List Path} {parent : Path} {resource : Resource}
  {handle : PostHandle} {o : BatchOperation} {schema : Schema} {resources : List Resource}
  {text : String} {i j : Nat}

theorem slash_not_mem_placeholder (n : UInt64) : '/' ∉ (Path.placeholder n).toString.toList := by
  intro hslash
  rw [Path.toString, String.toList_ofList, List.mem_cons] at hslash
  rcases hslash with hsentinel | hdigit
  · exact absurd hsentinel (by decide)
  · have hisDigit := Nat.isDigit_of_mem_toDigits (by decide) (by decide) hdigit
    exact absurd hisDigit (by decide)

theorem toString_of_target {n : UInt64}
    (h : Transaction.target c parent = (Path.placeholder n).toString) :
    parent.toString = (Path.placeholder n).toString := by
  cases parent with
  | placeholder m => exact h
  | real address =>
    by_cases hslash : address.toList.head? = some '/'
    · obtain ⟨rest, haddress⟩ := List.head?_eq_some_iff.1 hslash
      have hin : '/' ∈ (c.url address).toList := by
        simp [Client.url, Config.url, Address.resolve, haddress, Address.resolveChars]
      exact absurd (h ▸ hin) (slash_not_mem_placeholder n)
    · rw [← h]
      simp [Path.toString, Transaction.target, Client.url, Config.url, Address.resolve,
        Address.resolveChars_of_head?_ne hslash]

theorem Creates.mem_references (h : Creates c drawn parent resource handle o)
    (hparent : resource.parent = some parent) {n : UInt64}
    (hmentions : (Path.placeholder n).toString ∈ o.mentions c.schema) :
    (Path.placeholder n).toString ∈ resource.references c.schema := by
  rcases List.mem_cons.1 hmentions with htarget | hbody
  · have htext := toString_of_target (h.target.symm.trans htarget.symm)
    unfold Resource.references
    rw [hparent, ← htext]
    exact List.mem_append_left _ List.mem_cons_self
  · obtain ⟨body, hexport, hsame⟩ := h.body
    rw [hsame] at hbody
    exact Wire.bodyReferences_subset hexport (by simpa using hbody)

theorem Names.exists_of_mem_upcoming {count : Nat} {names : Names} {path : Path}
    (h : path ∈ names.upcoming count) : ∃ n, path = .placeholder n := by
  induction count generalizing names with
  | zero => cases h
  | succ count ih =>
    rcases List.mem_cons.1 h with rfl | hlater
    · exact ⟨names.next, rfl⟩
    · exact ih hlater

theorem Stands.is_placeholder {count : Nat} {names : Names} {held : Option Path} {path : Path}
    (h : Stands (names.upcoming count) held path) :
    (∃ n, path = .placeholder n) ∧ (held = some path ∨ path ∈ names.upcoming count) := by
  cases h with
  | kept n => exact ⟨⟨n, rfl⟩, .inl rfl⟩
  | drawn _ hpath => exact ⟨Names.exists_of_mem_upcoming hpath, .inr hpath⟩

theorem exists_of_mem_binds {count : Nat} {names : Names}
    (h : Creates c (names.upcoming count) parent resource handle o) (hbinds : text ∈ o.binds) :
    ∃ n, text = (Path.placeholder n).toString ∧
      (Path.placeholder n ∈ resource.held ∨ Path.placeholder n ∈ names.upcoming count) := by
  have hstands : ∃ held path, text = path.toString ∧ Stands (names.upcoming count) held path ∧
      (held = some resource.path ∨ held = resource.firstVersion) := by
    unfold BatchOperation.binds at hbinds
    rw [h.resultPath, h.resultFirstVersion] at hbinds
    rcases List.mem_append.1 hbinds with hpath | hfirst
    · exact ⟨_, handle.path, by simpa using hpath, h.path, .inl rfl⟩
    · obtain ⟨first, hsome, rfl⟩ :
          ∃ first, handle.firstVersion = some first ∧ first.toString = text := by simpa using hfirst
      exact ⟨_, first, rfl, h.firstVersion first hsome, .inr rfl⟩
  obtain ⟨held, path, rfl, hstands, hheld⟩ := hstands
  obtain ⟨⟨n, rfl⟩, hkept | hdrawn⟩ := hstands.is_placeholder
  · refine ⟨n, rfl, .inl (Resource.mem_held_iff.2 ⟨?_, rfl⟩)⟩
    rcases hheld with heq | heq
    · exact .inl (Option.some.inj (heq.symm.trans hkept))
    · exact .inr (heq.symm.trans hkept)
  · exact ⟨n, rfl, .inr hdrawn⟩

theorem eq_of_mem_held {path : Path} (hdistinct : (resources.flatMap Resource.held).Nodup)
    {first second : Resource} (hi : resources[i]? = some first) (hj : resources[j]? = some second)
    (hfirst : path ∈ first.held) (hsecond : path ∈ second.held) : i = j := by
  have hpairwise := (List.nodup_flatMap.1 hdistinct).2
  obtain ⟨hi, rfl⟩ := List.getElem?_eq_some_iff.1 hi
  obtain ⟨hj, rfl⟩ := List.getElem?_eq_some_iff.1 hj
  rw [List.pairwise_iff_getElem] at hpairwise
  rcases Nat.lt_trichotomy i j with hlt | heq | hgt
  · exact absurd hsecond (hpairwise i j _ _ hlt hfirst)
  · exact heq
  · exact absurd hfirst (hpairwise j i _ _ hgt hsecond)

/-- A resource further back in the list has an address on the server that is written so. -/
def SpelledBehind (resources : List Resource) (i : Nat) (text : String) : Prop :=
  ∃ l r, i < l ∧ resources[l]? = some r ∧ r.SpellsReal text

theorem named?_of_mem_held {n : UInt64} (hdistinct : (resources.flatMap Resource.held).Nodup)
    (hi : resources[i]? = some resource) (h : Path.placeholder n ∈ resource.held)
    (hbehind : ¬ SpelledBehind resources i (Path.placeholder n).toString) :
    PostingOrder.named? resources (Path.placeholder n).toString = some i := by
  refine PostingOrder.named?_eq_some_iff.2 ⟨⟨resource, hi, .of_mem_held h⟩, ?_⟩
  intro l r hl hr hnamed
  rcases hnamed.cases with hheld | hspelled
  · exact absurd (eq_of_mem_held hdistinct hi hr h hheld) (Nat.ne_of_lt hl)
  · exact hbehind ⟨l, r, hl, hr, hspelled⟩

/-- Of two operations, the one that mentions a placeholder comes after the one that binds it. It
need not if the placeholder was drawn for the other one's resource, which held none, or if the name
is taken by an address on the server further back. -/
def Heeds (schema : Schema) (drawn : List Path) (resources : List Resource) (order : List Nat)
    (operations : List BatchOperation) : Prop :=
  ∀ (j k i : Nat) (resource : Resource) (before later : BatchOperation) (text : String),
    order[j]? = some i → resources[i]? = some resource →
      operations[j]? = some before → operations[k]? = some later → j ≠ k →
        text ∈ before.binds → text ∈ later.mentions schema →
          j < k ∨
          text ∉ resource.held.map Path.toString ∧ text ∈ drawn.map Path.toString ∨
          SpelledBehind resources i text

theorem heeds_of_posts {count : Nat} {order : List Nat} {operations : List BatchOperation}
    (hdistinct : (resources.flatMap Resource.held).Nodup)
    (horder : PostingOrder.order c.schema resources = .ok order)
    (hposts : List.Forall₂ (Posts c (c.names.upcoming count) resources) order operations) :
    Heeds c.schema (c.names.upcoming count) resources order operations := by
  intro j k i resource before later text hj hi hbefore hlater hne hbinds hmentions
  obtain ⟨harranged, hperm⟩ := PostingOrder.order_eq_ok horder
  have hnodup : order.Nodup := harranged.nodup
  obtain ⟨o, ho, posted, parent, handle, hat, -, hcreates⟩ :=
    exists_getElem?_of_forall₂ hposts hj
  obtain rfl : o = before := Option.some.inj (ho.symm.trans hbefore)
  obtain rfl : posted = resource := Option.some.inj (hat.symm.trans hi)
  obtain ⟨n, rfl, hbound⟩ := exists_of_mem_binds hcreates hbinds
  by_cases hbehind : SpelledBehind resources i (Path.placeholder n).toString
  · exact .inr (.inr hbehind)
  by_cases hheld : Path.placeholder n ∈ posted.held
  · left
    have hk : k < order.length := by
      rw [hposts.length_eq]
      exact (List.getElem?_eq_some_iff.1 hlater).1
    obtain ⟨o', ho', referrer, above, other, hthere, hparent, hother⟩ :=
      exists_getElem?_of_forall₂ hposts (List.getElem?_eq_getElem hk)
    obtain rfl : o' = later := Option.some.inj (ho'.symm.trans hlater)
    have hrefers := hother.mem_references hparent hmentions
    have hdiffer : i ≠ order[k] := by
      intro heq
      have hlt := (List.getElem?_eq_some_iff.1 hj).1
      refine hne ((List.getElem?_inj hlt hnodup).1 ?_)
      rw [hj, heq, List.getElem?_eq_getElem hk]
    have hdepends : PostingOrder.DependsOn c.schema resources order[k] i :=
      ⟨hdiffer, referrer, _, hthere, hrefers, named?_of_mem_held hdistinct hat hheld hbehind⟩
    obtain ⟨l, hl, hplaced⟩ := harranged.closed k order[k] (List.getElem?_eq_getElem hk) i
      (PostingOrder.mem_dependencies_iff.2 hdepends)
    have hlt := (List.getElem?_eq_some_iff.1 hplaced).1
    have hsame := (List.getElem?_inj hlt hnodup).1 (hplaced.trans hj.symm)
    omega
  · refine .inr (.inl ⟨?_, List.mem_map_of_mem (hbound.resolve_left hheld)⟩)
    rw [List.mem_map]
    rintro ⟨path, hpath, htext⟩
    have hplaceholder := (Resource.mem_held_iff.1 hpath).2
    exact hheld (Path.toString_inj_of_isPlaceholder hplaceholder rfl htext ▸ hpath)

namespace Service

variable {σ : Type} (net : Network σ) (meanwhile : World σ → World σ) (w : World σ)

/-- If anything is sent, no operation runs ahead of one that binds what it refers to. -/
theorem deepPost_heeds (resources : List Resource)
    (hdistinct : (resources.flatMap Resource.held).Nodup) :
    let call := (deepPost resources).runAmid net meanwhile w
    let drawn := w.client.names.upcoming (2 * resources.length)
    (∃ names, call.2 = { w with client := { w.client with names } }) ∨
    ∃ order operations names,
      call.2.trace = (meanwhile (World.record (.requested (w.client.batchRequest operations))
        { w with client := { w.client with names } })).trace ∧
      List.Forall₂ (Posts w.client drawn resources) order operations ∧
      Heeds w.client.schema drawn resources order operations := by
  intro call drawn
  rcases postable_cases net meanwhile w resources with
    ⟨-, fault, names, hcall, -⟩ | ⟨-, order, operations, names, horder, -, hall, hrecorded⟩
  · exact .inl ⟨names, congrArg Prod.snd hcall⟩
  · have hafter := snd_deepPost_of_recorded net meanwhile w horder hrecorded hall.length_eq
    by_cases hsend : operations = []
    · subst hsend
      exact .inl ⟨names, hafter⟩
    · exact .inr ⟨order, operations, names,
        (congrArg World.trace hafter).trans (trace_sendBatch net meanwhile _ hsend), hall,
        heeds_of_posts hdistinct horder hall⟩

/-- A version that stands before its item in the list goes out after it. -/
theorem deepPost_heeds_item :
    let schema : Schema := {
      sheets := [(Known.versionable, { fields :=
        [("follows", { name := "follows", editable := true, valueType := Known.absolutePath })] })]
      resources := [("item", { superTypes := [Known.item] }), ("version", {})] }
    let version : Resource :=
      { contentType := "version", path := .placeholder 3, parent := some (.placeholder 1) }
    let item : Resource :=
      { contentType := "item", path := .placeholder 1, parent := some (.real "/"),
        firstVersion := some (.placeholder 2) }
    let resources := [version.setFollows (.placeholder 2), item]
    let w : World Unit := { client := { schema }, remote := () }
    let net : Network Unit := { answer := fun _ remote => (.ok {}, remote) }
    (resources.flatMap Resource.held).Nodup ∧
    ((deepPost resources).runAmid net id w).2.trace.length = 1 ∧
    ∃ order operations names,
      ((deepPost resources).runAmid net id w).2.trace =
        (World.record (.requested (w.client.batchRequest operations))
          { w with client := { w.client with names } }).trace ∧
      List.Forall₂ (Posts w.client (w.client.names.upcoming 4) resources) order operations ∧
      Heeds schema (w.client.names.upcoming 4) resources order operations := by
  intro schema version item resources w net
  have hdistinct : (resources.flatMap Resource.held).Nodup := by decide +kernel
  have hsent : ((deepPost resources).runAmid net id w).2.trace.length = 1 := by decide +kernel
  refine ⟨hdistinct, hsent, ?_⟩
  rcases deepPost_heeds net id w resources hdistinct with ⟨names, hnothing⟩ | hbatch
  · rw [hnothing] at hsent
    cases hsent
  · exact hbatch

/-- Neither a root version nor a placeholder that is only drawn puts one operation before another,
nor one whose name an address on the server takes further back. -/
theorem deepPost_runs_ahead :
    let schema : Schema := {
      sheets := [("s.Ref", { fields :=
        [("to", { name := "to", editable := true, valueType := Known.absolutePath })] })]
      resources := [("doc", {})] }
    let doc (path : Path) : Resource :=
      { contentType := "doc", path, parent := some (.real "/") }
    let referring (path : Path) (address : String) : Resource :=
      { doc path with data := [("s.Ref", [("to", .string address)])] }
    let rooted : Resource :=
      { referring (.placeholder 7) "@0" with rootVersions := [.placeholder 8] }
    let named := [rooted, doc (.placeholder 8), doc (.real "/c/")]
    let spelled := [referring (.placeholder 1) "@5", referring (.placeholder 5) "@6",
      doc (.real "@5"), doc (.placeholder 6)]
    let w : World Unit := { client := { schema }, remote := () }
    let net : Network Unit := { answer := fun _ remote => (.ok {}, remote) }
    ((named.flatMap Resource.held).Nodup ∧ ∃ o₀ o₁ o₂,
      ((deepPost named).runAmid net id w).2.trace =
        [.requested (w.client.batchRequest [o₀, o₁, o₂])] ∧
      "@8" ∈ o₀.rootVersions ∧ "@8" ∈ o₁.binds ∧ "@0" ∈ o₀.mentions schema ∧ "@0" ∈ o₂.binds) ∧
    (spelled.flatMap Resource.held).Nodup ∧ ∃ o₀ o₁ o₂ o₃,
      ((deepPost spelled).runAmid net id w).2.trace =
        [.requested (w.client.batchRequest [o₀, o₁, o₂, o₃])] ∧
      "@5" ∈ o₁.mentions schema ∧ "@5" ∈ o₃.binds := by
  intro schema doc referring rooted named spelled w net
  have hnamed : PostingOrder.order schema named = .ok [0, 1, 2] :=
    PostingOrder.order_of_extend_eq (by decide +kernel) rfl
  have hspelled : PostingOrder.order schema spelled = .ok [2, 0, 3, 1] :=
    PostingOrder.order_of_extend_eq (by decide +kernel) rfl
  rw [runAmid_deepPost net id w named hnamed, runAmid_deepPost net id w spelled hspelled]
  refine ⟨⟨by decide +kernel, _, _, _, rfl, ?_, ?_, ?_, ?_⟩,
    by decide +kernel, _, _, _, _, rfl, ?_, ?_⟩ <;> decide +kernel

end Service

end ResourceClient

import Mathlib.Data.Fintype.EquivFin
import Mathlib.Data.List.Perm.Subperm
import Mathlib.Order.WellFounded
import ResourceClient.Proofs.Posting.Counting

/-!
What the posting order does for its resources. Nothing is placed before what it depends on, and
everything is placed unless the dependencies run in a circle.
-/
namespace ResourceClient.PostingOrder

open Relation

def named? (resources : List Resource) (address : String) : Option Nat :=
  (resources.zipIdx.filter fun (r, _) =>
    r.path.toString = address || (r.firstVersion.map Path.toString) = some address).getLast?.map
      (·.2)

def DependsOn (schema : Schema) (resources : List Resource) (i j : Nat) : Prop :=
  j ≠ i ∧ ∃ r address, resources[i]? = some r ∧ address ∈ r.references schema ∧
    named? resources address = some j

def LeadsToCircle (depends : Nat → Nat → Prop) (i : Nat) : Prop :=
  ∃ j, ReflTransGen depends i j ∧ TransGen depends j j

/-- What is placed so far, each after all that it depends on. -/
structure Arranged (deps : List (List Nat)) (placed : List Nat) : Prop where
  nodup : placed.Nodup
  bounded : ∀ i ∈ placed, i < deps.length
  closed : ∀ k i : Nat, placed[k]? = some i → ∀ j ∈ (deps[i]?).getD [], ∃ l < k, placed[l]? = some j

variable {schema : Schema} {resources : List Resource} {deps : List (List Nat)}
  {placed : List Nat} {i j : Nat} {address : String}

theorem length_dependencies : (dependencies schema resources).length = resources.length := by
  simp [dependencies]

theorem get?_insert_names (r : Resource) (i : Nat) (table : Table Nat) :
    Table.get? ((r.path :: r.firstVersion.toList).foldl
        (fun table path => Table.insert path.toString i table) table) address =
      if r.path.toString = address ∨ r.firstVersion.map Path.toString = some address then some i
      else Table.get? table address := by
  cases r.firstVersion with
  | none => simp [Table.get?_insert, eq_comm]
  | some version =>
    by_cases hversion : version.toString = address
    · simp [hversion]
    · simp [Table.get?_insert, Ne.symm hversion, eq_comm]

theorem get?_foldl_byAddress (pairs : List (Resource × Nat)) (table : Table Nat) :
    Table.get? (pairs.foldl
        (fun table (r, i) =>
          (r.path :: r.firstVersion.toList).foldl
            (fun table path => Table.insert path.toString i table) table)
        table) address =
      ((pairs.filter fun (r, _) =>
        r.path.toString = address || (r.firstVersion.map Path.toString) = some address).getLast?.map
          (·.2)).or (Table.get? table address) := by
  induction pairs generalizing table with
  | nil => rfl
  | cons pair rest ih =>
    obtain ⟨r, i⟩ := pair
    rw [List.foldl_cons, ih, get?_insert_names, List.filter_cons]
    by_cases hnamed : r.path.toString = address ∨ r.firstVersion.map Path.toString = some address
    · simp only [hnamed, Bool.or_eq_true, decide_eq_true_eq, if_true,
        List.getLast?_cons, Option.map_some, Option.some_or]
      cases List.getLast? _ <;> rfl
    · simp only [hnamed, Bool.or_eq_true, decide_eq_true_eq, if_false]

theorem get?_byAddress : Table.get? (byAddress resources) address = named? resources address := by
  rw [byAddress, get?_foldl_byAddress]
  exact Option.or_none

theorem mem_foldl_adjoin (js : List Nat) (found : List Nat) :
    j ∈ js.foldl (fun found j => adjoin j found) found ↔ j ∈ found ∨ j ∈ js := by
  induction js generalizing found with
  | nil => simp
  | cons a rest ih =>
    rw [List.foldl_cons, ih, mem_adjoin, List.mem_cons]
    tauto

theorem pairwise_foldl_adjoin (js : List Nat) {found : List Nat} (h : found.Pairwise (· < ·)) :
    (js.foldl (fun found j => adjoin j found) found).Pairwise (· < ·) := by
  induction js generalizing found with
  | nil => exact h
  | cons a rest ih => exact ih (pairwise_adjoin h)

theorem mem_dependencies_iff :
    j ∈ ((dependencies schema resources)[i]?).getD [] ↔ DependsOn schema resources i j := by
  unfold dependencies DependsOn
  rw [List.getElem?_map, List.getElem?_zipIdx]
  cases resources[i]? with
  | none => simp
  | some r =>
    simp only [Option.map_some, Option.getD_some, Nat.zero_add, mem_foldl_adjoin, List.not_mem_nil,
      false_or, List.mem_filter, List.mem_filterMap, decide_eq_true_eq, get?_byAddress]
    constructor
    · rintro ⟨⟨address, hrefers, hnamed⟩, hne⟩
      exact ⟨hne, r, address, rfl, hrefers, hnamed⟩
    · rintro ⟨hne, _, address, ⟨⟩, hrefers, hnamed⟩
      exact ⟨⟨address, hrefers, hnamed⟩, hne⟩

theorem nodup_dependencies (i : Nat) : (((dependencies schema resources)[i]?).getD []).Nodup := by
  unfold dependencies
  rw [List.getElem?_map]
  cases resources.zipIdx[i]? with
  | none => exact List.nodup_nil
  | some pair => exact (pairwise_foldl_adjoin _ List.Pairwise.nil).nodup

theorem DependsOn.lt_length (h : DependsOn schema resources i j) : i < resources.length := by
  obtain ⟨-, r, -, hr, -⟩ := h
  exact (List.getElem?_eq_some_iff.1 hr).1

theorem exists_of_named? (h : named? resources address = some j) :
    ∃ r, resources[j]? = some r ∧
      (r.path.toString = address ∨ r.firstVersion.map Path.toString = some address) := by
  obtain ⟨⟨r, k⟩, hlast, rfl⟩ := Option.map_eq_some_iff.1 h
  have hmem := List.mem_filter.1 (List.mem_of_getLast? hlast)
  have hat := List.mem_zipIdx_iff_getElem?.1 hmem.1
  exact ⟨r, hat, by simpa using hmem.2⟩

theorem Arranged.nil : Arranged deps [] := ⟨List.nodup_nil, by simp, by simp⟩

theorem Arranged.snoc (h : Arranged deps placed) (hi : i < deps.length)
    (hready : isReady deps placed i = true) : Arranged deps (placed ++ [i]) := by
  obtain ⟨hnew, hdeps⟩ := isReady_iff.1 hready
  constructor
  · exact List.nodup_append.2 ⟨h.nodup, List.nodup_singleton i, by
      intro a ha b hb hab
      rw [List.mem_singleton] at hb
      exact hnew (hb ▸ hab ▸ ha)⟩
  · intro a ha
    rcases List.mem_append.1 ha with hold | hlast
    · exact h.bounded a hold
    · exact List.mem_singleton.1 hlast ▸ hi
  · intro k a hk j hj
    rcases Nat.lt_or_ge k placed.length with hlt | hge
    · rw [List.getElem?_append_left hlt] at hk
      obtain ⟨l, hl, hj⟩ := h.closed k a hk j hj
      exact ⟨l, hl, by rw [List.getElem?_append_left (by omega), hj]⟩
    · have hk0 : k - placed.length = 0 := by
        have := (List.getElem?_eq_some_iff.1 hk).1
        simp at this
        omega
      rw [List.getElem?_append_right hge, hk0] at hk
      obtain rfl : i = a := by simpa using hk
      obtain ⟨l, hl⟩ := List.mem_iff_getElem?.1 (hdeps j hj)
      have hlt := (List.getElem?_eq_some_iff.1 hl).1
      exact ⟨l, by omega, by rw [List.getElem?_append_left hlt, hl]⟩

theorem Arranged.extend (h : Arranged deps placed) (fuel : Nat) :
    Arranged deps (extend deps fuel placed) := by
  induction fuel generalizing placed with
  | zero => exact h
  | succ fuel ih =>
    unfold PostingOrder.extend
    split
    · next i hfound =>
      have hi : i < deps.length := List.mem_range.1 (List.mem_of_find?_eq_some hfound)
      exact ih (h.snoc hi (List.find?_some hfound))
    · exact h

theorem length_extend_or_stuck (deps : List (List Nat)) (fuel : Nat) (placed : List Nat) :
    (extend deps fuel placed).length = placed.length + fuel ∨
      ∀ i < deps.length, isReady deps (extend deps fuel placed) i = false := by
  induction fuel generalizing placed with
  | zero => exact .inl rfl
  | succ fuel ih =>
    unfold extend
    split
    · next i _ =>
      rcases ih (placed ++ [i]) with hlength | hstuck
      · left
        rw [hlength, List.length_append, List.length_singleton]
        omega
      · exact .inr hstuck
    · next hnone =>
      right
      intro i hi
      have hnot := List.find?_eq_none.1 hnone i (List.mem_range.2 hi)
      simpa using hnot

theorem Arranged.subperm (h : Arranged deps placed) :
    List.Subperm placed (List.range deps.length) :=
  List.subperm_of_subset h.nodup fun i hi => List.mem_range.2 (h.bounded i hi)

theorem Arranged.exists_before (h : Arranged (dependencies schema resources) placed)
    (hij : TransGen (DependsOn schema resources) i j) (k : Nat) (hk : placed[k]? = some i) :
    ∃ l < k, placed[l]? = some j := by
  induction hij with
  | single hstep => exact h.closed k i hk _ (mem_dependencies_iff.2 hstep)
  | tail _ hstep ih =>
    obtain ⟨l, hl, hat⟩ := ih
    obtain ⟨m, hm, hthere⟩ := h.closed l _ hat _ (mem_dependencies_iff.2 hstep)
    exact ⟨m, by omega, hthere⟩

theorem Arranged.not_cycle (h : Arranged (dependencies schema resources) placed)
    (hi : i ∈ placed) : ¬ TransGen (DependsOn schema resources) i i := by
  intro hcycle
  obtain ⟨k, hk⟩ := List.mem_iff_getElem?.1 hi
  obtain ⟨l, hl, hat⟩ := h.exists_before hcycle k hk
  have hlt := (List.getElem?_eq_some_iff.1 hat).1
  have hsame := (List.getElem?_inj hlt h.nodup).1 (hat.trans hk.symm)
  omega

theorem Arranged.mem_of_reaches (h : Arranged (dependencies schema resources) placed)
    (hi : i ∈ placed) (hij : ReflTransGen (DependsOn schema resources) i j) : j ∈ placed := by
  rcases reflTransGen_iff_eq_or_transGen.1 hij with rfl | hsteps
  · exact hi
  · obtain ⟨k, hk⟩ := List.mem_iff_getElem?.1 hi
    obtain ⟨l, -, hat⟩ := h.exists_before hsteps k hk
    exact List.mem_of_getElem? hat

theorem Arranged.not_leadsToCircle (h : Arranged (dependencies schema resources) placed)
    (hi : i ∈ placed) : ¬ LeadsToCircle (DependsOn schema resources) i := by
  rintro ⟨j, hreaches, hcycle⟩
  exact h.not_cycle (h.mem_of_reaches hi hreaches) hcycle

/-- Unless circles lie ahead of what is not placed yet, something depends on placed ones only. -/
theorem exists_isReady (hfree : ¬ LeadsToCircle (DependsOn schema resources) i)
    (hi : i < resources.length) (hnew : i ∉ placed) :
    ∃ m < resources.length, isReady (dependencies schema resources) placed m = true := by
  -- Dependencies between the finitely many resources ahead are well founded, so one that is not
  -- placed and depends on nothing of that kind is a minimal one.
  let ahead (a : Fin resources.length) : Prop := ReflTransGen (DependsOn schema resources) i a
  let below (b a : Fin resources.length) : Prop :=
    ahead a ∧ TransGen (DependsOn schema resources) a b
  have : IsTrans (Fin resources.length) below :=
    ⟨fun _ _ _ hab hbc => ⟨hbc.1, hbc.2.trans hab.2⟩⟩
  have : Std.Irrefl below := ⟨fun a ha => hfree ⟨a, ha.1, ha.2⟩⟩
  have hfounded : WellFounded below := Finite.wellFounded_of_trans_of_irrefl below
  obtain ⟨m, ⟨hahead, hm⟩, hleast⟩ :=
    hfounded.has_min { a | ahead a ∧ a.val ∉ placed } ⟨⟨i, hi⟩, .refl, hnew⟩
  refine ⟨m, m.isLt, isReady_iff.2 ⟨hm, fun j hj => ?_⟩⟩
  by_contra hnot
  have hdepends := mem_dependencies_iff.1 hj
  obtain ⟨-, r, address, -, -, hnamed⟩ := hdepends
  obtain ⟨s, hs, -⟩ := exists_of_named? hnamed
  have hlt := (List.getElem?_eq_some_iff.1 hs).1
  have hstep := mem_dependencies_iff.1 hj
  exact hleast ⟨j, hlt⟩ ⟨hahead.tail hstep, hnot⟩ ⟨hahead, .single hstep⟩

theorem mem_extend_iff (hi : i < resources.length) :
    i ∈ extend (dependencies schema resources) resources.length [] ↔
      ¬ LeadsToCircle (DependsOn schema resources) i := by
  have hnil : Arranged (dependencies schema resources) [] := .nil
  have harranged := hnil.extend resources.length
  refine ⟨harranged.not_leadsToCircle, fun hfree => ?_⟩
  by_contra hnew
  obtain ⟨m, hm, hready⟩ := exists_isReady hfree hi hnew
  rcases length_extend_or_stuck (dependencies schema resources) resources.length [] with
    hfull | hstuck
  · have hsub := harranged.subperm
    rw [length_dependencies] at hsub
    have hperm := hsub.perm_of_length_le (by simp [hfull])
    exact hnew (hperm.mem_iff.2 (List.mem_range.2 hi))
  · rw [length_dependencies] at hstuck
    exact absurd hready (by rw [hstuck m hm]; decide)

theorem order_eq :
    order schema resources =
      let placed := extend (dependencies schema resources) resources.length []
      if placed.length < resources.length then
        .error (.cyclic ((resources.zipIdx.filter fun (_, i) => !placed.contains i).map
          fun (r, _) => r.path.toString))
      else .ok placed := by
  have hnodup : ∀ i : Nat, (((dependencies schema resources)[i]?).getD []).Nodup :=
    nodup_dependencies
  obtain ⟨hcounts, hplaced⟩ := counts_sorting hnodup
  rw [length_dependencies] at hplaced
  unfold order
  dsimp only
  rw [← hplaced]
  split
  · next hshort =>
    have hstuck := length_extend_or_stuck (dependencies schema resources) resources.length []
    rw [← hplaced, length_dependencies] at hstuck
    have hstuck := hstuck.resolve_left (by simpa using Nat.ne_of_lt hshort)
    congr 3
    refine List.filter_congr fun ⟨r, i⟩ hpair => Bool.eq_iff_iff.2 ?_
    have hi := (List.getElem?_eq_some_iff.1 (List.mem_zipIdx_iff_getElem?.1 hpair)).1
    simpa using hcounts.degree_pos_iff (hstuck i hi)
  · rfl

theorem order_of_extend_eq {order : List Nat}
    (hplaced : extend (dependencies schema resources) resources.length [] = order)
    (hlength : order.length = resources.length) :
    PostingOrder.order schema resources = .ok order := by
  simp only [order_eq, hplaced, hlength, Nat.lt_irrefl, if_false]

theorem order_eq_ok (h : order schema resources = .ok placed) :
    Arranged (dependencies schema resources) placed ∧
      placed.Perm (List.range resources.length) := by
  rw [order_eq] at h
  dsimp only at h
  split at h
  · cases h
  · next hlength =>
    obtain rfl := Except.ok.inj h
    have hnil : Arranged (dependencies schema resources) [] := .nil
    have harranged := hnil.extend resources.length
    have hsub := harranged.subperm
    rw [length_dependencies] at hsub
    refine ⟨harranged, hsub.perm_of_length_le ?_⟩
    rw [List.length_range]
    exact Nat.le_of_not_lt hlength

theorem order_eq_error {fault : Fault} (h : order schema resources = .error fault) :
    ∃ i, TransGen (DependsOn schema resources) i i := by
  rw [order_eq] at h
  dsimp only at h
  split at h
  · next hlength =>
    have hmissing : ∃ i < resources.length,
        i ∉ extend (dependencies schema resources) resources.length [] := by
      by_contra hall
      push Not at hall
      have hle := (List.subperm_of_subset List.nodup_range fun i hi =>
        hall i (List.mem_range.1 hi)).length_le
      rw [List.length_range] at hle
      exact absurd hlength (Nat.not_lt.2 hle)
    obtain ⟨i, hi, hnew⟩ := hmissing
    obtain ⟨j, -, hcycle⟩ := Classical.not_not.1 (mt (mem_extend_iff hi).2 hnew)
    exact ⟨j, hcycle⟩
  · cases h

/-- There is an order exactly if nothing depends on itself through others. -/
theorem exists_order_iff :
    (∃ placed, order schema resources = .ok placed) ↔
      ∀ i, ¬ TransGen (DependsOn schema resources) i i := by
  constructor
  · rintro ⟨placed, h⟩ i hcycle
    obtain ⟨harranged, hperm⟩ := order_eq_ok h
    obtain ⟨k, hstep, -⟩ := TransGen.head'_iff.1 hcycle
    have hi : i ∈ placed := hperm.mem_iff.2 (List.mem_range.2 hstep.lt_length)
    exact harranged.not_cycle hi hcycle
  · intro hacyclic
    cases h : order schema resources with
    | ok placed => exact ⟨placed, rfl⟩
    | error fault =>
      obtain ⟨i, hcycle⟩ := order_eq_error h
      exact absurd hcycle (hacyclic i)

end ResourceClient.PostingOrder

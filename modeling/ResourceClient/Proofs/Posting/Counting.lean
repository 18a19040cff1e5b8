import Mathlib.Data.List.Sort
import ResourceClient.PostingOrder

/-!
What is counted down while resources are placed. The count of each is the number of those it still
waits for, so what is ready by the counts is what depends on placed ones only, and the first of
them is placed each time.
-/
namespace ResourceClient.PostingOrder

def isReady (deps : List (List Nat)) (placed : List Nat) (i : Nat) : Bool :=
  !placed.contains i && ((deps[i]?).getD []).all placed.contains

theorem isReady_iff {deps : List (List Nat)} {placed : List Nat} {i : Nat} :
    isReady deps placed i = true ↔ i ∉ placed ∧ ∀ j ∈ (deps[i]?).getD [], j ∈ placed := by
  simp [isReady]

def extend (deps : List (List Nat)) : Nat → List Nat → List Nat
  | 0, placed => placed
  | fuel + 1, placed =>
    match (List.range deps.length).find? (isReady deps placed) with
    | some i => extend deps fuel (placed ++ [i])
    | none => placed

theorem mem_adjoin {i j : Nat} {l : List Nat} : j ∈ adjoin i l ↔ j = i ∨ j ∈ l := by
  induction l with
  | nil => simp [adjoin]
  | cons a rest ih =>
    unfold adjoin
    split
    · simp
    · split
      · next heq => simp [heq]
      · simp only [List.mem_cons, ih]
        tauto

theorem pairwise_adjoin {i : Nat} {l : List Nat} (h : l.Pairwise (· < ·)) :
    (adjoin i l).Pairwise (· < ·) := by
  induction l with
  | nil => exact List.pairwise_singleton _ i
  | cons a rest ih =>
    obtain ⟨ha, hrest⟩ := List.pairwise_cons.1 h
    unfold adjoin
    split
    · next hlt =>
      refine List.pairwise_cons.2 ⟨fun b hb => ?_, h⟩
      rcases List.mem_cons.1 hb with rfl | hb
      · exact hlt
      · exact hlt.trans (ha b hb)
    · split
      · exact h
      · next hle hne =>
        refine List.pairwise_cons.2 ⟨fun b hb => ?_, ih hrest⟩
        rcases mem_adjoin.1 hb with rfl | hb
        · omega
        · exact ha b hb

variable {deps found : List (List Nat)} {i j k : Nat}

theorem mem_modify_adjoin (a : Nat) :
    k ∈ ((found.modify a (adjoin i))[j]?).getD [] ↔
      k ∈ (found[j]?).getD [] ∨ k = i ∧ j = a ∧ j < found.length := by
  rw [List.getElem?_modify]
  cases hrow : found[j]? with
  | none =>
    have hge := List.getElem?_eq_none_iff.1 hrow
    simp [Nat.not_lt.2 hge]
  | some row =>
    have hlt := (List.getElem?_eq_some_iff.1 hrow).1
    by_cases haj : a = j
    · simp [haj, hlt, mem_adjoin, or_comm]
    · simp [haj, Ne.symm haj]

theorem mem_foldl_modify (js : List Nat) :
    k ∈ ((js.foldl (fun found j => found.modify j (adjoin i)) found)[j]?).getD [] ↔
      k ∈ (found[j]?).getD [] ∨ k = i ∧ j ∈ js ∧ j < found.length := by
  induction js generalizing found with
  | nil => simp
  | cons a rest ih =>
    rw [List.foldl_cons, ih, mem_modify_adjoin, List.length_modify, List.mem_cons]
    tauto

theorem length_foldl_modify (js : List Nat) :
    (js.foldl (fun found j => found.modify j (adjoin i)) found).length = found.length := by
  induction js generalizing found with
  | nil => rfl
  | cons a rest ih => rw [List.foldl_cons, ih, List.length_modify]

theorem mem_foldl_dependents (pairs : List (List Nat × Nat)) :
    k ∈ ((pairs.foldl
        (fun found (js, i) => js.foldl (fun found j => found.modify j (adjoin i)) found)
        found)[j]?).getD [] ↔
      k ∈ (found[j]?).getD [] ∨ j < found.length ∧ ∃ js, (js, k) ∈ pairs ∧ j ∈ js := by
  induction pairs generalizing found with
  | nil => simp
  | cons pair rest ih =>
    obtain ⟨js, i⟩ := pair
    rw [List.foldl_cons, ih, mem_foldl_modify, length_foldl_modify]
    constructor
    · rintro ((hold | ⟨rfl, hj, hlt⟩) | ⟨hlt, others, hmem, hj⟩)
      · exact .inl hold
      · exact .inr ⟨hlt, js, List.mem_cons_self, hj⟩
      · exact .inr ⟨hlt, others, List.mem_cons_of_mem _ hmem, hj⟩
    · rintro (hold | ⟨hlt, others, hmem, hj⟩)
      · exact .inl (.inl hold)
      · rcases List.mem_cons.1 hmem with heq | hrest
        · obtain ⟨rfl, rfl⟩ := Prod.mk.inj heq
          exact .inl (.inr ⟨rfl, hj, hlt⟩)
        · exact .inr ⟨hlt, others, hrest, hj⟩

theorem mem_dependents_iff :
    k ∈ ((dependents deps)[j]?).getD [] ↔ j < deps.length ∧ j ∈ (deps[k]?).getD [] := by
  unfold dependents
  rw [mem_foldl_dependents, List.length_replicate]
  have hempty : (((List.replicate deps.length ([] : List Nat))[j]?).getD []) = [] := by
    rw [List.getElem?_replicate]
    split <;> rfl
  rw [hempty]
  cases hrow : deps[k]? <;> simp [List.mem_zipIdx_iff_getElem?, hrow]

theorem pairwise_modify (h : ∀ j : Nat, ((found[j]?).getD []).Pairwise (· < ·)) (a i j : Nat) :
    (((found.modify a (adjoin i))[j]?).getD []).Pairwise (· < ·) := by
  have hj := h j
  rw [List.getElem?_modify]
  cases hrow : found[j]? with
  | none => exact List.Pairwise.nil
  | some row =>
    rw [hrow] at hj
    by_cases haj : a = j
    · simpa [haj] using pairwise_adjoin hj
    · simpa [haj] using hj

theorem pairwise_dependents (deps : List (List Nat)) (j : Nat) :
    (((dependents deps)[j]?).getD []).Pairwise (· < ·) := by
  have hempty : ∀ j : Nat, (((List.replicate deps.length ([] : List Nat))[j]?).getD []).Pairwise
      (· < ·) := by
    intro j
    rw [List.getElem?_replicate]
    split <;> exact List.Pairwise.nil
  unfold dependents
  generalize List.replicate deps.length [] = found at hempty
  induction deps.zipIdx generalizing found with
  | nil => exact hempty j
  | cons pair rest ih =>
    refine ih _ fun j => ?_
    obtain ⟨js, i⟩ := pair
    induction js generalizing found with
    | nil => exact hempty j
    | cons a others ih => exact ih _ (pairwise_modify hempty a i)

namespace Sorting

theorem degree_countDown (s : Sorting) (hi : i < s.inDegree.length) :
    (s.countDown i).degree j = if j = i then s.degree i - 1 else s.degree j := by
  unfold degree countDown
  rw [List.getElem?_set]
  by_cases hij : j = i
  · simp [hij, hi, degree]
  · simp [hij, Ne.symm hij]

theorem mem_ready_countDown (s : Sorting) :
    j ∈ (s.countDown i).ready ↔ j ∈ s.ready ∨ j = i ∧ s.degree i - 1 = 0 := by
  unfold countDown
  dsimp only
  split
  · next hleft => simp [mem_adjoin, hleft, or_comm]
  · next hleft => simp [hleft]

/-- Of those that are counted down, whoever waits for nothing else becomes ready. -/
theorem foldl_countDown {ds : List Nat} (hnodup : ds.Nodup) {s : Sorting}
    (hds : ∀ d ∈ ds, d < s.inDegree.length) (hready : s.ready.Pairwise (· < ·)) :
    let t := ds.foldl countDown s
    t.placed = s.placed ∧ t.inDegree.length = s.inDegree.length ∧
      t.ready.Pairwise (· < ·) ∧
      ∀ i, t.degree i = (if i ∈ ds then s.degree i - 1 else s.degree i) ∧
        (i ∈ t.ready ↔ i ∈ s.ready ∨ i ∈ ds ∧ s.degree i - 1 = 0) := by
  induction ds generalizing s with
  | nil => exact ⟨rfl, rfl, hready, fun i => by simp⟩
  | cons d rest ih =>
    obtain ⟨hnew, hrest⟩ := List.nodup_cons.1 hnodup
    have hd := hds d List.mem_cons_self
    have hlength : (s.countDown d).inDegree.length = s.inDegree.length := List.length_set
    have hascending : (s.countDown d).ready.Pairwise (· < ·) := by
      unfold countDown
      dsimp only
      split
      · exact pairwise_adjoin hready
      · exact hready
    obtain ⟨hplaced, hlater, hpairwise, hall⟩ := ih hrest
      (fun e he => hlength ▸ hds e (List.mem_cons_of_mem _ he)) hascending
    refine ⟨hplaced, hlater.trans hlength, hpairwise, fun i => ?_⟩
    obtain ⟨hdegree, hmem⟩ := hall i
    rw [s.degree_countDown hd] at hdegree hmem
    rw [List.foldl_cons, hdegree, hmem, mem_ready_countDown]
    by_cases hid : i = d
    · subst hid
      simp [hnew]
    · simp [hid]

def waits (deps : List (List Nat)) (placed : List Nat) (i : Nat) : Nat :=
  (((deps[i]?).getD []).filter (· ∉ placed)).length

theorem waits_snoc {placed : List Nat} (hnodup : ((deps[k]?).getD []).Nodup) (hi : i ∉ placed) :
    waits deps (placed ++ [i]) k =
      if i ∈ (deps[k]?).getD [] then waits deps placed k - 1 else waits deps placed k := by
  have herase : ((deps[k]?).getD []).filter (· ∉ placed ++ [i]) =
      (((deps[k]?).getD []).filter (· ∉ placed)).erase i := by
    rw [(hnodup.filter _).erase_eq_filter, List.filter_filter]
    refine List.filter_congr fun j _ => ?_
    simp [and_comm, bne, Bool.beq_eq_decide_eq]
  unfold waits
  rw [herase, List.length_erase]
  simp [hi]

theorem isReady_iff_waits {placed : List Nat} :
    isReady deps placed i = true ↔ i ∉ placed ∧ waits deps placed i = 0 := by
  rw [isReady_iff, waits, List.length_eq_zero_iff, List.filter_eq_nil_iff]
  simp

/-- The counts are right, and so is who is ready. -/
structure Counts (deps : List (List Nat)) (s : Sorting) : Prop where
  length : s.inDegree.length = deps.length
  degree : ∀ i, s.degree i = waits deps s.placed i
  ready : s.ready = (List.range deps.length).filter (isReady deps s.placed)
  closed : ∀ i ∈ s.placed, ∀ j ∈ (deps[i]?).getD [], j ∈ s.placed

theorem Counts.degree_pos_iff {s : Sorting} (h : Counts deps s)
    (hready : isReady deps s.placed i = false) : 0 < s.degree i ↔ i ∉ s.placed := by
  rw [h.degree]
  constructor
  · intro hpos hplaced
    have hnone : waits deps s.placed i = 0 := by
      rw [waits, List.length_eq_zero_iff, List.filter_eq_nil_iff]
      simpa using h.closed i hplaced
    omega
  · intro hout
    refine Nat.pos_of_ne_zero fun hnone => ?_
    have hwould := isReady_iff_waits.2 ⟨hout, hnone⟩
    rw [hready] at hwould
    cases hwould

def advance (deps : List (List Nat)) (i : Nat) (rest : List Nat) (s : Sorting) : Sorting :=
  (((dependents deps)[i]?).getD []).foldl countDown
    { s with ready := rest, placed := s.placed ++ [i] }

theorem advance_spec {s : Sorting} {rest : List Nat} (hi : i < deps.length)
    (hlength : s.inDegree.length = deps.length) (hrest : rest.Pairwise (· < ·)) :
    (s.advance deps i rest).placed = s.placed ++ [i] ∧
      (s.advance deps i rest).inDegree.length = deps.length ∧
      (s.advance deps i rest).ready.Pairwise (· < ·) ∧
      ∀ k, (s.advance deps i rest).degree k =
          (if i ∈ (deps[k]?).getD [] then s.degree k - 1 else s.degree k) ∧
        (k ∈ (s.advance deps i rest).ready ↔
          k ∈ rest ∨ i ∈ (deps[k]?).getD [] ∧ s.degree k - 1 = 0) := by
  have hdependent : ∀ k, k ∈ ((dependents deps)[i]?).getD [] ↔ i ∈ (deps[k]?).getD [] := by
    intro k
    rw [mem_dependents_iff, and_iff_right hi]
  have hbounded : ∀ k ∈ ((dependents deps)[i]?).getD [], k < s.inDegree.length := by
    intro k hk
    by_contra hge
    rw [hdependent, List.getElem?_eq_none (by omega)] at hk
    cases hk
  obtain ⟨hplaced, hlater, hascending, hcounts⟩ := foldl_countDown
    (pairwise_dependents deps i).nodup
    (s := { s with ready := rest, placed := s.placed ++ [i] }) hbounded hrest
  refine ⟨hplaced, hlater.trans hlength, hascending, fun k => ?_⟩
  have hk := hcounts k
  simp only [hdependent] at hk
  exact hk

theorem Counts.advance (hnodup : ∀ k : Nat, ((deps[k]?).getD []).Nodup) {s : Sorting}
    (h : Counts deps s) {rest : List Nat} (hready : s.ready = i :: rest) :
    Counts deps (s.advance deps i rest) ∧ (s.advance deps i rest).placed = s.placed ++ [i] := by
  have hall := h.ready.symm.trans hready
  have hpairwise : (i :: rest).Pairwise (· < ·) :=
    hall ▸ List.Pairwise.filter _ List.pairwise_lt_range
  obtain ⟨hfirst, hrest⟩ := List.pairwise_cons.1 hpairwise
  have hmem : ∀ k, k ∈ i :: rest ↔ k < deps.length ∧ k ∉ s.placed ∧ waits deps s.placed k = 0 := by
    intro k
    rw [← hall, List.mem_filter, List.mem_range, isReady_iff_waits]
  obtain ⟨hi, hnew, hwaits⟩ := (hmem i).1 List.mem_cons_self
  have hdeps := (isReady_iff.1 (isReady_iff_waits.2 ⟨hnew, hwaits⟩)).2
  obtain ⟨hplaced, hlength, hascending, hcounts⟩ := advance_spec hi h.length hrest
  refine ⟨⟨hlength, fun k => ?_, ?_, fun k hk j hj => ?_⟩, hplaced⟩
  · rw [hplaced, waits_snoc (hnodup k) hnew, (hcounts k).1, h.degree]
  · refine hascending.eq_of_mem_iff (List.Pairwise.filter _ List.pairwise_lt_range) fun k => ?_
    rw [(hcounts k).2, List.mem_filter, List.mem_range, isReady_iff_waits, hplaced,
      waits_snoc (hnodup k) hnew, h.degree, List.mem_append, List.mem_singleton]
    constructor
    · rintro (hold | ⟨hwaited, hleft⟩)
      · obtain ⟨hk, hout, hzero⟩ := (hmem k).1 (List.mem_cons_of_mem _ hold)
        have hne : k ≠ i := Nat.ne_of_gt (hfirst k hold)
        exact ⟨hk, by simp [hout, hne], by simp [hzero]⟩
      · refine ⟨?_, ?_, by simp [hwaited, hleft]⟩
        · by_contra hge
          rw [List.getElem?_eq_none (Nat.le_of_not_lt hge)] at hwaited
          cases hwaited
        · rintro (hplaced | rfl)
          · exact hnew (h.closed k hplaced i hwaited)
          · exact hnew (hdeps k hwaited)
    · rintro ⟨hk, hout, hzero⟩
      obtain ⟨hold, hne⟩ := not_or.1 hout
      split at hzero
      · next hwaited => exact .inr ⟨hwaited, hzero⟩
      · have hthere := (hmem k).2 ⟨hk, hold, hzero⟩
        exact .inl ((List.mem_cons.1 hthere).resolve_left hne)
  · rw [hplaced] at hk ⊢
    rcases List.mem_append.1 hk with hold | hlast
    · exact List.mem_append_left _ (h.closed k hold j hj)
    · obtain rfl := List.mem_singleton.1 hlast
      exact List.mem_append_left _ (hdeps j hj)

theorem Counts.run (hnodup : ∀ k : Nat, ((deps[k]?).getD []).Nodup) {s : Sorting}
    (h : Counts deps s) (rounds : Nat) :
    Counts deps (s.run (dependents deps) rounds) ∧
      (s.run (dependents deps) rounds).placed = extend deps rounds s.placed := by
  induction rounds generalizing s with
  | zero => exact ⟨h, rfl⟩
  | succ rounds ih =>
    have hfirst : (List.range deps.length).find? (isReady deps s.placed) = s.ready.head? := by
      rw [h.ready, List.head?_filter]
    unfold Sorting.run extend
    rw [hfirst]
    cases hready : s.ready with
    | nil => exact ⟨h, rfl⟩
    | cons i rest =>
      obtain ⟨hnext, hplaced⟩ := h.advance hnodup hready
      obtain ⟨hdone, hall⟩ := ih hnext
      rw [hplaced] at hall
      exact ⟨hdone, hall⟩

end Sorting

theorem counts_sorting (hnodup : ∀ k : Nat, ((deps[k]?).getD []).Nodup) :
    (sorting deps).Counts deps ∧ (sorting deps).placed = extend deps deps.length [] := by
  let start : Sorting := { inDegree := deps.map List.length, ready := [] }
  have hdegree : ∀ i, start.degree i = Sorting.waits deps [] i := by
    intro i
    unfold start Sorting.degree Sorting.waits
    rw [List.getElem?_map]
    cases deps[i]? <;> simp
  have hready : (List.range deps.length).filter (fun i => start.degree i = 0) =
      (List.range deps.length).filter (isReady deps []) := by
    refine List.filter_congr fun i _ => Bool.eq_iff_iff.2 ?_
    rw [decide_eq_true_iff, hdegree, Sorting.isReady_iff_waits]
    simp
  have hstart : Sorting.Counts deps
      { start with ready := (List.range deps.length).filter fun i => start.degree i = 0 } :=
    ⟨List.length_map _, hdegree, hready, nofun⟩
  exact hstart.run hnodup deps.length

end ResourceClient.PostingOrder

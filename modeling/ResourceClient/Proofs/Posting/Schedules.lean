import ResourceClient.Proofs.Posting.Order

/-!
Which order is found, and who is to blame if there is none. The order is the first in the dictionary
of all that heed the dependencies; the fault names the resources that lead to a circle.
-/
namespace ResourceClient

def Resource.IsNamed (address : String) (r : Resource) : Prop :=
  r.path.toString = address ∨ r.firstVersion.map Path.toString = some address

namespace PostingOrder

open Relation

/-- The resource at `i` refers to another one, which is the last of its name. -/
def RefersTo (schema : Schema) (resources : List Resource) (i j : Nat) : Prop :=
  j ≠ i ∧ ∃ r s address, resources[i]? = some r ∧ resources[j]? = some s ∧
    address ∈ r.references schema ∧ s.IsNamed address ∧
    ∀ k t, j < k → resources[k]? = some t → ¬ t.IsNamed address

/-- All resources, each after those that it refers to. -/
structure IsSchedule (schema : Schema) (resources : List Resource) (order : List Nat) : Prop where
  complete : order.Perm (List.range resources.length)
  heeds : ∀ k i : Nat, order[k]? = some i → ∀ j, RefersTo schema resources i j →
    ∃ l < k, order[l]? = some j

variable {schema : Schema} {resources : List Resource} {deps : List (List Nat)}
  {placed other : List Nat} {i j : Nat} {address : String}

theorem isNamed_of_named? (h : named? resources address = some j) :
    (∃ s, resources[j]? = some s ∧ s.IsNamed address) ∧
      ∀ k t, j < k → resources[k]? = some t → ¬ t.IsNamed address := by
  refine ⟨exists_of_named? h, fun k t hk ht hnamed => ?_⟩
  obtain ⟨last, hlast, rfl⟩ := Option.map_eq_some_iff.1 h
  obtain ⟨before, heq⟩ := List.getLast?_eq_some_iff.1 hlast
  have hmem : (t, k) ∈ before ++ [last] := by
    rw [← heq]
    refine List.mem_filter.2 ⟨List.mem_zipIdx_iff_getElem?.2 ht, ?_⟩
    simpa [Resource.IsNamed] using hnamed
  -- The candidates are counted upwards, so that none comes behind the last one.
  have hupward : (before ++ [last]).Pairwise (·.2 < ·.2) := by
    rw [← heq]
    refine List.Pairwise.filter _ (List.pairwise_map.1 ?_)
    rw [List.zipIdx_map_snd]
    exact List.pairwise_lt_range'
  rcases List.mem_append.1 hmem with hbefore | hsame
  · have hlt := (List.pairwise_append.1 hupward).2.2 _ hbefore _ (List.mem_singleton_self _)
    exact absurd hk (Nat.lt_asymm hlt)
  · obtain rfl := List.mem_singleton.1 hsame
    exact absurd hk (Nat.lt_irrefl _)

theorem named?_eq_some_iff :
    named? resources address = some j ↔
      (∃ s, resources[j]? = some s ∧ s.IsNamed address) ∧
        ∀ k t, j < k → resources[k]? = some t → ¬ t.IsNamed address := by
  refine ⟨isNamed_of_named?, ?_⟩
  rintro ⟨⟨s, hs, hnamed⟩, hlast⟩
  cases hfound : named? resources address with
  | none =>
    have hnone := List.getLast?_eq_none_iff.1 (Option.map_eq_none_iff.1 hfound)
    have hnot := List.filter_eq_nil_iff.1 hnone (s, j) (List.mem_zipIdx_iff_getElem?.2 hs)
    exact absurd (by simpa [Resource.IsNamed] using hnamed) hnot
  | some i =>
    obtain ⟨⟨t, ht, hfirst⟩, hlater⟩ := isNamed_of_named? hfound
    rcases Nat.lt_trichotomy i j with hlt | heq | hgt
    · exact absurd hnamed (hlater j s hlt hs)
    · rw [heq]
    · exact absurd hfirst (hlast i t hgt ht)

theorem dependsOn_eq_refersTo : DependsOn schema resources = RefersTo schema resources := by
  funext i j
  refine propext (and_congr_right fun _ => ⟨?_, ?_⟩)
  · rintro ⟨r, address, hr, hrefers, hnamed⟩
    obtain ⟨⟨s, hs, hname⟩, hlast⟩ := named?_eq_some_iff.1 hnamed
    exact ⟨r, s, address, hr, hs, hrefers, hname, hlast⟩
  · rintro ⟨r, s, address, hr, hs, hrefers, hname, hlast⟩
    exact ⟨r, address, hr, hrefers, named?_eq_some_iff.2 ⟨⟨s, hs, hname⟩, hlast⟩⟩

/-- Nothing was passed over that was ready. -/
def IsEager (deps : List (List Nat)) (placed : List Nat) : Prop :=
  ∀ k i : Nat, placed[k]? = some i → ∀ m < i, isReady deps (placed.take k) m = false

theorem IsEager.snoc (h : IsEager deps placed) (hfirst : ∀ m < i, isReady deps placed m = false) :
    IsEager deps (placed ++ [i]) := by
  intro k a hk m hm
  have hbound := (List.getElem?_eq_some_iff.1 hk).1
  rw [List.length_append, List.length_singleton] at hbound
  rcases Nat.lt_or_eq_of_le (Nat.le_of_lt_succ hbound) with hlt | rfl
  · rw [List.getElem?_append_left hlt] at hk
    rw [List.take_append_of_le_length (Nat.le_of_lt hlt)]
    exact h k a hk m hm
  · rw [List.getElem?_concat_length] at hk
    obtain rfl := Option.some.inj hk
    rw [List.take_left]
    exact hfirst m hm

theorem IsEager.extend (h : IsEager deps placed) (fuel : Nat) :
    IsEager deps (extend deps fuel placed) := by
  induction fuel generalizing placed with
  | zero => exact h
  | succ fuel ih =>
    unfold PostingOrder.extend
    split
    · next i hfound =>
      have hfirst := (List.find?_range_eq_some.1 hfound).2.2
      exact ih (h.snoc fun m hm => by simpa using hfirst m hm)
    · exact h

theorem isSchedule_iff :
    IsSchedule schema resources placed ↔
      placed.Perm (List.range resources.length) ∧
        Arranged (dependencies schema resources) placed := by
  constructor
  · intro h
    have hnodup : placed.Nodup := h.complete.nodup_iff.2 List.nodup_range
    refine ⟨h.complete, hnodup, fun i hi => ?_, fun k i hk j hj => ?_⟩
    · rw [length_dependencies]
      exact List.mem_range.1 (h.complete.mem_iff.1 hi)
    · exact h.heeds k i hk j (dependsOn_eq_refersTo ▸ mem_dependencies_iff.1 hj)
  · rintro ⟨hcomplete, harranged⟩
    refine ⟨hcomplete, fun k i hk j hj => harranged.closed k i hk j ?_⟩
    exact mem_dependencies_iff.2 (dependsOn_eq_refersTo ▸ hj)

theorem Arranged.isReady_take (h : Arranged deps placed) (k : Nat) (hk : placed[k]? = some i) :
    isReady deps (placed.take k) i = true := by
  refine isReady_iff.2 ⟨fun hbefore => ?_, fun j hj => ?_⟩
  · obtain ⟨l, hl, hat⟩ := List.mem_take_iff_getElem.1 hbefore
    have hlt : l < placed.length := by omega
    have hsame := (List.getElem?_inj hlt h.nodup).1
      ((List.getElem?_eq_getElem hlt).trans ((congrArg some hat).trans hk.symm))
    omega
  · obtain ⟨l, hl, hat⟩ := h.closed k i hk j hj
    obtain ⟨hlt, heq⟩ := List.getElem?_eq_some_iff.1 hat
    exact List.mem_take_iff_getElem.2 ⟨l, by omega, heq⟩

/-- Where another arrangement first differs, it places something that comes later in the list. -/
theorem IsEager.first (h : IsEager deps placed) (hother : Arranged deps other)
    (hlength : other.length = placed.length) : placed = other ∨ List.Lex (· < ·) placed other := by
  have hnot : ¬ List.Lex (· < ·) other placed := by
    intro hless
    rcases List.lt_iff_exists.1 hless with ⟨-, hshort⟩ | ⟨k, hk, hk', hsame, hdiffer⟩
    · exact absurd hlength (Nat.ne_of_lt hshort)
    have htake : other.take k = placed.take k := by
      refine List.ext_getElem (by simp [hlength]) fun l hl _ => ?_
      rw [List.length_take] at hl
      rw [List.getElem_take, List.getElem_take]
      exact hsame l (by omega)
    have hpassed := h k placed[k] (List.getElem?_eq_getElem hk') other[k] hdiffer
    have hready := hother.isReady_take k (List.getElem?_eq_getElem hk)
    rw [htake, hpassed] at hready
    exact absurd hready (by decide)
  exact (List.le_iff_lt_or_eq.1 hnot).symm

theorem isEager_of_order (h : order schema resources = .ok placed) :
    IsEager (dependencies schema resources) placed := by
  have hnil : IsEager (dependencies schema resources) [] := fun k i hk => by simp at hk
  rw [order_eq] at h
  dsimp only at h
  split at h
  · cases h
  · exact Except.ok.inj h ▸ hnil.extend resources.length

theorem exists_stuck_of_order {fault : Fault} (h : order schema resources = .error fault) :
    ∃ stuck : List (Resource × Nat), stuck.Sublist resources.zipIdx ∧
      (∀ r i, (r, i) ∈ stuck ↔
        resources[i]? = some r ∧ LeadsToCircle (DependsOn schema resources) i) ∧
      fault = .cyclic (stuck.map fun (r, _) => r.path.toString) := by
  rw [order_eq] at h
  dsimp only at h
  split at h
  · refine ⟨_, List.filter_sublist, fun r i => ?_, (Except.error.inj h).symm⟩
    rw [List.mem_filter, List.mem_zipIdx_iff_getElem?]
    refine and_congr_right fun hr => ?_
    have hi := (List.getElem?_eq_some_iff.1 hr).1
    have hout : i ∉ extend (dependencies schema resources) resources.length [] ↔
        LeadsToCircle (DependsOn schema resources) i := by
      rw [mem_extend_iff hi, Classical.not_not]
    simpa using hout
  · cases h

/-- Of all schedules the order is the first in the dictionary. There is one unless something refers
to itself through others; then all that lead there are named, as they stand in the list. -/
theorem order_is_first_schedule (schema : Schema) (resources : List Resource) :
    ((∃ found, order schema resources = .ok found) ↔
      ∀ i, ¬ TransGen (RefersTo schema resources) i i) ∧
    (∀ found, order schema resources = .ok found →
      IsSchedule schema resources found ∧
      ∀ other, IsSchedule schema resources other → found = other ∨ List.Lex (· < ·) found other) ∧
    ∀ fault, order schema resources = .error fault →
      ∃ stuck : List (Resource × Nat), stuck.Sublist resources.zipIdx ∧
        (∀ r i, (r, i) ∈ stuck ↔
          resources[i]? = some r ∧ LeadsToCircle (RefersTo schema resources) i) ∧
        fault = .cyclic (stuck.map fun (r, _) => r.path.toString) := by
  rw [← dependsOn_eq_refersTo]
  refine ⟨exists_order_iff, fun found h => ?_, fun fault => exists_stuck_of_order⟩
  obtain ⟨harranged, hperm⟩ := order_eq_ok h
  refine ⟨isSchedule_iff.2 ⟨hperm, harranged⟩, fun other hother => ?_⟩
  obtain ⟨hother, hthere⟩ := isSchedule_iff.1 hother
  exact (isEager_of_order h).first hthere (hother.length_eq.trans hperm.length_eq.symm)

/-- A version waits for the item whose first version it stands in; what lies under a circle is
named with it. -/
theorem order_is_first_schedule_of_children :
    let make (path parent : String) (first : Option Path) : Resource :=
      { contentType := "r.I", path := .real path, parent := some (.real parent),
        firstVersion := first }
    let version := make "/v/" "@5" none
    let item := make "/i/" "/" (some (.placeholder 5))
    let one := make "/a/" "/b/" none
    let two := make "/b/" "/a/" none
    let child := make "/c/" "/a/" none
    (order {} [version, item] = .ok [1, 0] ∧
      IsSchedule {} [version, item] [1, 0] ∧
      ∀ other, IsSchedule {} [version, item] other →
        [1, 0] = other ∨ List.Lex (· < ·) [1, 0] other) ∧
    order {} [child, item, one, two] = .error (.cyclic ["/c/", "/a/", "/b/"]) ∧
    ∃ stuck : List (Resource × Nat), stuck.Sublist [child, item, one, two].zipIdx ∧
      (∀ r i, (r, i) ∈ stuck ↔ [child, item, one, two][i]? = some r ∧
        LeadsToCircle (RefersTo {} [child, item, one, two]) i) ∧
      Fault.cyclic ["/c/", "/a/", "/b/"] = .cyclic (stuck.map fun (r, _) => r.path.toString) := by
  intro make version item one two child
  have hall : extend (dependencies {} [version, item]) [version, item].length [] = [1, 0] := by
    decide +kernel
  have hordered : order {} [version, item] = .ok [1, 0] := by
    simp only [order_eq, hall]
    rfl
  have hsome : extend (dependencies {} [child, item, one, two])
      [child, item, one, two].length [] = [1] := by decide +kernel
  have hcyclic : order {} [child, item, one, two] = .error (.cyclic ["/c/", "/a/", "/b/"]) := by
    simp only [order_eq, hsome]
    rfl
  exact ⟨⟨hordered, (order_is_first_schedule {} _).2.1 _ hordered⟩, hcyclic,
    (order_is_first_schedule {} _).2.2 _ hcyclic⟩

end PostingOrder

end ResourceClient

import Mathlib.Data.List.Forall2
import ResourceClient.Json.Record

namespace ResourceClient

theorem mapM_eq_some_iff {α β : Type} {f : α → Option β} {values : List α} {results : List β} :
    values.mapM f = some results ↔
      List.Forall₂ (fun value result => f value = some result) values results := by
  induction values generalizing results with
  | nil => exact ⟨fun h => Option.some.inj h ▸ .nil, fun | .nil => rfl⟩
  | cons value rest ih =>
    rw [List.mapM_cons, List.forall₂_cons_left_iff]
    constructor
    · intro h
      obtain ⟨first, hfirst, h⟩ := Option.bind_eq_some_iff.1 h
      obtain ⟨others, hothers, h⟩ := Option.bind_eq_some_iff.1 h
      exact ⟨first, others, hfirst, ih.1 hothers, (Option.some.inj h).symm⟩
    · rintro ⟨first, others, hfirst, hothers, rfl⟩
      rw [hfirst, ih.2 hothers]
      rfl

def under {κ α : Type} [DecidableEq κ] (fields : List (κ × α)) (key : κ) : List α :=
  (fields.filter (·.1 = key)).map (·.2)

namespace Draft

variable {fields : List (Option String × Draft)} {items : List Draft} {names : List String}
  {name : String} {value : Option Draft} {values : List (Option Draft)}

theorem pick?_eq_some_iff :
    pick? fields name = some value ↔ under fields (some name) = value.toList := by
  have hname : ∀ p ∈ fields.filter (·.1 = some name), p.1 = some name := fun p hp =>
    of_decide_eq_true (List.mem_filter.1 hp).2
  unfold pick? under
  generalize fields.filter (·.1 = some name) = found at hname
  split
  · cases value <;> simp
  · cases value <;> simp
  · next hnil hone =>
    constructor
    · exact nofun
    · intro h
      match found, h with
      | [], _ => exact absurd rfl hnil
      | [(key, d)], _ => exact absurd rfl (hone key d)
      | _ :: _ :: _, h => cases value <;> simp at h

theorem fields?_object_eq_some_iff :
    (object fields).fields? names = some values ↔
      (∀ p ∈ fields, p.1.isSome = true) ∧
        List.Forall₂ (fun name value => under fields (some name) = value.toList) names values := by
  rw [fields?, ← List.all_eq_true]
  split
  · next hnamed => simp only [hnamed, true_and, mapM_eq_some_iff, pick?_eq_some_iff]
  · next hnamed => simp only [hnamed, false_and, reduceCtorEq]

/-- What is missing at the end is `none`. -/
theorem fields?_array_eq_some_iff :
    (array items).fields? names = some values ↔
      items.length ≤ names.length ∧ (List.range names.length).map (items[·]?) = values := by
  rw [fields?]
  split
  · next hlength =>
    have hvalues : items.map some ++ List.replicate (names.length - items.length) none =
        (List.range names.length).map (items[·]?) := by
      apply List.ext_getElem
      · simp [hlength]
      · intro i _ _
        by_cases hi : i < items.length <;> simp [List.getElem_append, hi]
    simp only [hlength, true_and, hvalues, Option.some.injEq]
  · next hlength => simp only [hlength, false_and, reduceCtorEq]

theorem text?_eq_some_iff {d : Draft} {s : String} : d.text? = some s ↔ d = .string (some s) := by
  cases d <;> simp [text?]

theorem required_eq_some_iff {α : Type} {read : Draft → Option α} {result : α} :
    required read value = some result ↔ ∃ d, value = some d ∧ read d = some result :=
  Option.bind_eq_some_iff

end Draft

namespace Json

variable {fields : List (String × Json)} {items : List Json} {names : List String}
  {values : List (Option Draft)}

theorem draftItems_eq (items : List Json) : draftItems items = items.map toDraft := by
  induction items with
  | nil => rw [draftItems, List.map_nil]
  | cons item rest ih => rw [draftItems, ih, List.map_cons]

theorem draftFields_eq (fields : List (String × Json)) :
    draftFields fields = fields.map fun p => (some p.1, p.2.toDraft) := by
  induction fields with
  | nil => rw [draftFields, List.map_nil]
  | cons p rest ih =>
    obtain ⟨key, value⟩ := p
    rw [draftFields, ih, List.map_cons]

theorem under_draftFields (fields : List (String × Json)) (name : String) :
    under (draftFields fields) (some name) = (under fields name).map toDraft := by
  rw [draftFields_eq, under, List.filter_map, List.map_map, under, List.map_map]
  simp only [Function.comp_def, Option.some.injEq]

theorem map_toDraft_eq_toList_iff {values : List Json} {value : Option Draft} :
    values.map toDraft = value.toList ↔
      ∃ v : Option Json, values = v.toList ∧ v.map toDraft = value := by
  constructor
  · intro h
    match values, value, h with
    | [], none, _ => exact ⟨none, rfl, rfl⟩
    | [v], some _, h => exact ⟨some v, rfl, by simpa using h⟩
  · rintro ⟨v, rfl, rfl⟩
    cases v <;> rfl

theorem fields?_object_eq_some_iff :
    (object fields).toDraft.fields? names = some values ↔
      ∃ found : List (Option Json),
        List.Forall₂ (fun name v => under fields name = v.toList) names found ∧
          found.map (Option.map toDraft) = values := by
  have hnamed : ∀ p ∈ draftFields fields, p.1.isSome = true := by
    rw [draftFields_eq, List.forall_mem_map]
    exact fun _ _ => rfl
  rw [toDraft, Draft.fields?_object_eq_some_iff, and_iff_right hnamed]
  simp only [under_draftFields, map_toDraft_eq_toList_iff]
  induction names generalizing values with
  | nil => simp [eq_comm]
  | cons name rest ih =>
    rw [List.forall₂_cons_left_iff]
    constructor
    · rintro ⟨value, others, ⟨v, hv, rfl⟩, hothers, rfl⟩
      obtain ⟨found, hfound, rfl⟩ := ih.1 hothers
      exact ⟨v :: found, .cons hv hfound, rfl⟩
    · rintro ⟨found, hfound, rfl⟩
      obtain ⟨v, others, hv, hothers, rfl⟩ := List.forall₂_cons_left_iff.1 hfound
      exact ⟨_, _, ⟨v, hv, rfl⟩, ih.2 ⟨others, hothers, rfl⟩, rfl⟩

theorem fields?_array_eq_some_iff :
    (array items).toDraft.fields? names = some values ↔
      items.length ≤ names.length ∧
        (List.range names.length).map (fun i => items[i]?.map toDraft) = values := by
  rw [toDraft, Draft.fields?_array_eq_some_iff, draftItems_eq, List.length_map]
  simp only [List.getElem?_map]

end Json

end ResourceClient

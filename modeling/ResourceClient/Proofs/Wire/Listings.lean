import Mathlib.Data.List.Forall2
import ResourceClient.Proofs.Address.Urls
import ResourceClient.Proofs.Wire.Grammar
import ResourceClient.Proofs.Wire.Imports
import ResourceClient.Wire.Listing

namespace ResourceClient

section

variable {α β : Type} {R : α → β → Prop} {xs : List α} {ys : List β}

theorem exists_of_forall₂_of_mem (h : List.Forall₂ R xs ys) {y : β} (hy : y ∈ ys) :
    ∃ x ∈ xs, R x y := by
  induction h with
  | nil => cases hy
  | cons hfirst _ ih =>
    obtain rfl | hrest := List.mem_cons.1 hy
    · exact ⟨_, List.mem_cons_self, hfirst⟩
    · obtain ⟨x, hx, hrel⟩ := ih hrest
      exact ⟨x, List.mem_cons_of_mem _ hx, hrel⟩

theorem exists_of_forall₂_append_cons {x : α} {earlier later : List α}
    (h : List.Forall₂ R (earlier ++ x :: later) ys) :
    ∃ before y after, ys = before ++ y :: after ∧ R x y ∧ List.Forall₂ R later after := by
  induction earlier generalizing ys with
  | nil =>
    obtain ⟨y, after, hfirst, hlater, rfl⟩ := List.forall₂_cons_left_iff.1 h
    exact ⟨[], y, after, rfl, hfirst, hlater⟩
  | cons _ earlier ih =>
    obtain ⟨other, rest, -, hrest, rfl⟩ := List.forall₂_cons_left_iff.1 h
    obtain ⟨before, y, after, rfl, hrel, hlater⟩ := ih hrest
    exact ⟨other :: before, y, after, rfl, hrel, hlater⟩

end

namespace Wire

/-- The element is for the resource on the server that `path` leads to. -/
def Leads (element : Json) (path : String) : Prop :=
  element.stringField? "path" = some path ∧ Path.parse? path = some (.real path)

/-- The seed holds the import of the element. -/
structure Brings (schema : Schema) (element : Json) (s : Seed) : Prop where
  imported : ∃ names, (importResource schema element names).1 = .ok s.resource
  address : s.address = s.resource.path.toString

variable {schema : Schema}

theorem Brings.address_eq {element : Json} {s : Seed} (h : Brings schema element s)
    {path : String} (hpath : Leads element path) : s.address = path := by
  obtain ⟨names, himport⟩ := h.imported
  obtain ⟨text, htext, hparse⟩ := path_of_importResource himport
  obtain rfl : text = path := Option.some.inj (htext.symm.trans hpath.1)
  rw [h.address, ← Option.some.inj (hpath.2.symm.trans hparse)]
  rfl

theorem Brings.key_ne {element : Json} {s : Seed} (h : Brings schema element s) {key : String}
    (hkey : startsWithSentinel key = false)
    (hothers : ∀ path, Leads element path → Address.key path ≠ Address.key key) :
    Address.key s.address ≠ Address.key key := by
  obtain ⟨names, himport⟩ := h.imported
  obtain ⟨text, htext, hparse⟩ := path_of_importResource himport
  cases hpath : s.resource.path with
  | real address =>
    rw [hpath] at hparse
    obtain ⟨rfl, -⟩ := Path.parse?_eq_real hparse
    rw [h.address_eq ⟨htext, hparse⟩]
    exact hothers address ⟨htext, hparse⟩
  | placeholder number =>
    intro hsame
    have hmark := startsWithSentinel_congr hsame
    rw [h.address, hpath, Path.startsWithSentinel_placeholder, hkey] at hmark
    cases hmark

theorem forall₂_listElements (items : List Json) (listed : Listed)
    (h : (listElements schema items listed).1 = none) :
    ∃ seeds, (listElements schema items listed).2.seeds = listed.seeds ++ seeds ∧
      List.Forall₂ (Brings schema) (items.filter Json.isObject) seeds := by
  induction items generalizing listed with
  | nil => exact ⟨[], (List.append_nil _).symm, .nil⟩
  | cons element rest ih =>
    unfold listElements at h ⊢
    split at h
    · next fields =>
      split at h
      · cases h
      · next resource names himport =>
        obtain ⟨seeds, hseeds, hbrings⟩ := ih _ h
        refine ⟨⟨resource.path.toString, resource⟩ :: seeds, ?_, ?_⟩
        · exact hseeds.trans (List.append_assoc ..)
        · exact .cons ⟨⟨listed.names, by rw [himport]⟩, rfl⟩ hbrings
    · obtain ⟨seeds, hseeds, hbrings⟩ := ih _ h
      exact ⟨seeds, hseeds, hbrings⟩
    · cases h

def contents (schema : Schema) (wire : Json) (names : Names) : List Json :=
  match (importResource schema wire names).1 with
  | .error _ => []
  | .ok pool => ((elements? pool).getD []).filter Json.isObject

theorem forall₂_importListing {mode : ElementsMode} {wire : Json} {names : Names} {r : Resource}
    (h : (importListing schema mode wire names).result = .ok r) :
    List.Forall₂ (Brings schema) (contents schema wire names)
      (importListing schema mode wire names).seeds := by
  unfold importListing at h ⊢
  unfold contents
  generalize importResource schema wire names = imported at h ⊢
  obtain ⟨_ | pool, names⟩ := imported
  · cases h
  · dsimp only at h ⊢
    cases hitems : elements? pool with
    | none => exact .nil
    | some items =>
      rw [hitems] at h
      dsimp only [Option.getD_some] at h ⊢
      have hlisted := @forall₂_listElements schema items { names }
      generalize listElements schema items { names } = listing at h hlisted ⊢
      obtain ⟨_ | fault, listed⟩ := listing
      · obtain ⟨seeds, hseeds, hbrings⟩ := hlisted rfl
        obtain rfl : listed.seeds = seeds := hseeds
        exact hbrings
      · cases h

end Wire

end ResourceClient

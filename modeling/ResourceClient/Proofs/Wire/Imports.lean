import Mathlib.Data.List.Forall2
import ResourceClient.Proofs.Wire.Faults

namespace ResourceClient

theorem exists_of_bind_eq_ok {α β : Type} {x : Except Fault α} {k : α → Except Fault β} {b : β}
    (h : x >>= k = .ok b) : ∃ a, x = .ok a ∧ k a = .ok b := by
  cases x with
  | error fault => cases h
  | ok a => exact ⟨a, rfl, h⟩

theorem mapM_eq_ok_iff {α β : Type} {f : α → Except Fault β} {values : List α} {results : List β} :
    values.mapM f = .ok results ↔
      List.Forall₂ (fun value result => f value = .ok result) values results := by
  induction values generalizing results with
  | nil => exact ⟨fun h => Except.ok.inj h ▸ .nil, fun | .nil => rfl⟩
  | cons value rest ih =>
    rw [List.mapM_cons, List.forall₂_cons_left_iff]
    constructor
    · intro h
      obtain ⟨first, hfirst, h⟩ := exists_of_bind_eq_ok h
      obtain ⟨others, hothers, h⟩ := exists_of_bind_eq_ok h
      exact ⟨first, others, hfirst, ih.1 hothers, (Except.ok.inj h).symm⟩
    · rintro ⟨first, others, hfirst, hothers, rfl⟩
      rw [hfirst, ih.2 hothers]
      rfl

namespace Wire

variable {schema : Schema} {wire : Json} {names : Names}

theorem string?_of_readPath {what : String} {value : Json} {path : Path}
    (h : readPath what value = .ok path) :
    ∃ text, value.string? = some text ∧ Path.parse? text = some path := by
  unfold readPath at h
  split at h
  · cases h
  · next text htext =>
    split at h
    · next hparse => exact ⟨text, htext, hparse.trans (congrArg some (Except.ok.inj h))⟩
    · cases h

theorem readHead_eq_ok_iff {head : Resource} :
    readHead schema wire = .ok head ↔
      ∃ contentType value path data, wire.stringField? "content_type" = some contentType ∧
        schema.knows contentType = true ∧ wire.field? "path" = some value ∧
        readPath "path" value = .ok path ∧ readData schema (wire.field? "data") = .ok data ∧
        head = { contentType, path, data } := by
  unfold readHead
  cases hobject : wire.isObject with
  | false =>
    have hfield : wire.field? "path" = none := by
      cases wire <;> first | rfl | cases hobject
    simp only [hfield]
    exact iff_of_false nofun (by simp)
  | true =>
    cases wire.stringField? "content_type" with
    | none => exact iff_of_false nofun (by simp)
    | some contentType =>
      dsimp only
      cases hknown : schema.knows contentType with
      | false => exact iff_of_false nofun (by simp [hknown])
      | true =>
        cases hfield : wire.field? "path" with
        | none => exact iff_of_false nofun (by simp)
        | some value =>
          constructor
          · intro h
            obtain ⟨path, hread, h⟩ := exists_of_bind_eq_ok (x := readPath "path" value) h
            obtain ⟨data, hdata, h⟩ :=
              exists_of_bind_eq_ok (x := readData schema (wire.field? "data")) h
            obtain rfl := Except.ok.inj h
            exact ⟨contentType, value, path, data, rfl, hknown, rfl, hread, hdata, rfl⟩
          · rintro ⟨_, _, path, data, ⟨⟩, -, ⟨⟩, hread, hdata, rfl⟩
            simp only [hread, hdata]
            rfl

theorem exists_of_readHead {head : Resource} (h : readHead schema wire = .ok head) :
    wire.stringField? "content_type" = some head.contentType ∧
      (∃ path, wire.stringField? "path" = some path ∧ Path.parse? path = some head.path) ∧
      wire.isObject = true ∧ readData schema (wire.field? "data") = .ok head.data := by
  obtain ⟨contentType, value, path, data, htype, -, hfield, hread, hdata, rfl⟩ :=
    readHead_eq_ok_iff.1 h
  refine ⟨htype, ?_, ?_, hdata⟩
  · rw [Json.stringField?, hfield]
    exact string?_of_readPath hread
  · cases wire <;> first | rfl | cases hfield

theorem readTail_eq_ok_iff {head resource : Resource} :
    readTail wire head = .ok resource ↔
      ∃ rootVersions report, readRootVersions wire = .ok rootVersions ∧
        readReport wire = .ok report ∧ resource = { head with rootVersions, report } := by
  constructor
  · intro h
    obtain ⟨rootVersions, hroots, h⟩ := exists_of_bind_eq_ok h
    obtain ⟨report, hreport, h⟩ := exists_of_bind_eq_ok h
    exact ⟨rootVersions, report, hroots, hreport, (Except.ok.inj h).symm⟩
  · rintro ⟨rootVersions, report, hroots, hreport, rfl⟩
    rw [readTail, hroots, hreport]
    rfl

theorem path_readTail {head resource : Resource} (h : readTail wire head = .ok resource) :
    resource.path = head.path := by
  obtain ⟨_, _, -, -, rfl⟩ := readTail_eq_ok_iff.1 h
  rfl

theorem importResource_eq_ok_iff_steps {later : Names} {resource : Resource} :
    importResource schema wire names = (.ok resource, later) ↔
      ∃ head firstVersion, readHead schema wire = .ok head ∧
        readFirstVersion schema head.contentType wire names = (.ok firstVersion, later) ∧
        readTail wire { head with firstVersion } = .ok resource := by
  unfold importResource
  cases readHead schema wire with
  | error fault => exact iff_of_false nofun (by simp)
  | ok head =>
    dsimp only
    constructor
    · intro h
      obtain ⟨htail, rfl⟩ := Prod.mk.inj h
      obtain ⟨firstVersion, hfirst, htail⟩ := exists_of_bind_eq_ok htail
      exact ⟨head, firstVersion, rfl, Prod.ext hfirst rfl, htail⟩
    · rintro ⟨_, firstVersion, ⟨⟩, hfirst, htail⟩
      rw [hfirst]
      exact Prod.ext htail rfl

theorem path_of_importResource {resource : Resource}
    (h : (importResource schema wire names).1 = .ok resource) :
    ∃ path, wire.stringField? "path" = some path ∧ Path.parse? path = some resource.path := by
  rw [fst_importResource] at h
  obtain ⟨head, hhead, h⟩ := exists_of_bind_eq_ok h
  obtain ⟨firstVersion, -, htail⟩ := exists_of_bind_eq_ok h
  rw [path_readTail htail]
  exact (exists_of_readHead hhead).2.1

/-- It draws no name: it is no item, or names its first version. -/
def IsVersioned (schema : Schema) (wire : Json) : Prop :=
  ∀ contentType, wire.stringField? "content_type" = some contentType →
    schema.isItem contentType = true → present? wire "first_version_path" ≠ none

theorem fst_readFirstVersion {contentType : String}
    (h : schema.isItem contentType = true → present? wire "first_version_path" ≠ none)
    (names other : Names) :
    (readFirstVersion schema contentType wire names).1 =
      (readFirstVersion schema contentType wire other).1 := by
  unfold readFirstVersion
  split
  · rfl
  · next hfirst =>
    have hitem : ¬ schema.isItem contentType = true := fun hitem => h hitem hfirst
    rw [if_neg hitem, if_neg hitem]

theorem fst_importResource_of_versioned (h : IsVersioned schema wire) (names other : Names) :
    (importResource schema wire names).1 = (importResource schema wire other).1 := by
  rw [fst_importResource, fst_importResource]
  cases hhead : readHead schema wire with
  | error fault => rfl
  | ok head =>
    have hversioned := h head.contentType (exists_of_readHead hhead).1
    change (readFirstVersion schema head.contentType wire names).1 >>= _ =
      (readFirstVersion schema head.contentType wire other).1 >>= _
    rw [fst_readFirstVersion hversioned names other]

end Wire

end ResourceClient

import ResourceClient.Proofs.Wire.Acceptance

/-!
A body that was sent and comes back. It is imported to the sheets and the root versions that it
says, and what it was imported to is exported to the same body, for an export leaves nothing that a
second one would not.
-/
namespace ResourceClient

/-- A path is read back from its text, unless that is a server path with the sentinel. -/
theorem Path.eq_of_spells_toString {path again : Path} (h : Spells path.toString again)
    (hunmarked : ∀ address, path = .real address → startsWithSentinel address = false) :
    again = path := by
  cases path with
  | placeholder number =>
    rw [← parse?_eq_some_iff, parse?_toString_placeholder] at h
    exact (Option.some.inj h).symm
  | real address =>
    rw [toString_real] at h
    cases h with
    | real => rfl
    | placeholder marked =>
      have hnot := hunmarked address rfl
      rcases marked with marked | marked <;> simp [startsWithSentinel, marked] at hnot

namespace Wire

variable {schema : Schema} {options : ExportOptions} {r : Resource} {body : Json}
  {data : Table Sheet}

theorem exported_exported (data : Table Sheet) :
    exported schema options (exported schema options data) = exported schema options data := by
  rw [exported_eq_self_iff]
  intro entry hentry
  obtain ⟨held, -, hproject⟩ := List.mem_filterMap.1 hentry
  obtain ⟨hknown, hsome, rfl⟩ := project_eq_some_iff.1 hproject
  exact project_eq_some_iff.2 ⟨hknown, hsome, by rw [exportFields_exportFields]⟩

theorem isComplete_of_mem_exported (h : ∀ entry ∈ data, IsComplete schema options entry) :
    ∀ entry ∈ exported schema options data, IsComplete schema options entry := by
  intro entry hentry
  obtain ⟨held, hheld, hproject⟩ := List.mem_filterMap.1 hentry
  obtain ⟨-, -, rfl⟩ := project_eq_some_iff.1 hproject
  simpa [IsComplete] using h held hheld

theorem eq_of_tellsData {sheets : Table Sheet}
    (h : TellsData schema (some (.object (ofSheets sheets))) data) : data = sheets := by
  generalize hvalue : some (Json.object (ofSheets sheets)) = value at h
  cases h with
  | absent absent => rcases absent with rfl | rfl <;> cases hvalue
  | sheets => exact (ofSheets_injective (Json.object.inj (Option.some.inj hvalue))).symm

theorem eq_of_tellsPaths {roots again : List Path}
    (h : List.Forall₂ (fun root path => TellsPath (.string root.toString) path) roots again)
    (hunmarked : ∀ address, .real address ∈ roots → startsWithSentinel address = false) :
    again = roots := by
  induction h with
  | nil => rfl
  | cons hfirst _ ih =>
    obtain ⟨text, htext, hspells⟩ := hfirst
    rw [← Json.string.inj htext] at hspells
    rw [Path.eq_of_spells_toString hspells fun address haddress =>
        hunmarked address (haddress ▸ List.mem_cons_self),
      ih fun address hmem => hunmarked address (List.mem_cons_of_mem _ hmem)]

theorem eq_of_tellsRootVersions {contentType : String} {sheets : List (String × Json)}
    {roots again : List Path}
    (h : TellsRootVersions ((Wire.body contentType sheets roots).field? "root_versions") again)
    (hunmarked : ∀ address, .real address ∈ roots → startsWithSentinel address = false) :
    again = roots := by
  rw [field?_body] at h
  cases roots with
  | nil =>
    cases h
    rfl
  | cons root rest =>
    simp only [String.reduceEq, if_false, ne_eq, reduceCtorEq, not_false_eq_true, and_self,
      if_true] at h
    cases h with
    | listed tell => exact eq_of_tellsPaths (List.forall₂_map_left_iff.1 tell) hunmarked
    | unlisted unlisted => exact absurd rfl (unlisted _)

/-- A body that is exported, imported under any path and exported again is the same body. -/
theorem exportResource_reimported
    (hunmarked : ∀ address, .real address ∈ r.rootVersions → startsWithSentinel address = false)
    (hexport : exportResource schema options r = .ok body) :
    ∃ fields, body = .object fields ∧ ∀ path names again later,
      importResource schema (.object (Table.insert "path" path fields)) names = (.ok again, later) →
        body.field? "data" = some (.object (ofSheets again.data)) ∧
          again.contentType = r.contentType ∧ again.rootVersions = r.rootVersions ∧
          exportResource schema options again = .ok body := by
  obtain ⟨hknown, hcomplete, rfl⟩ := exportResource_eq_ok_iff.1 hexport
  obtain ⟨fields, hfields⟩ : ∃ fields, Wire.body r.contentType
      (ofSheets (exported schema options r.data)) r.rootVersions = .object fields := ⟨_, rfl⟩
  refine ⟨fields, hfields, ?_⟩
  intro path names again later himport
  have htells := importResource_eq_ok_iff.1 himport
  have hfield : ∀ key, key ≠ "path" →
      (Json.object (Table.insert "path" path fields)).field? key =
        (Json.object fields).field? key := by
    intro key hkey
    rw [Json.field?, Table.get?_insert, if_neg hkey, Json.field?]
  have hcontentType : r.contentType = again.contentType := by
    have htype := htells.contentType
    rw [hfield _ (by decide), ← hfields, field?_body, if_pos rfl] at htype
    exact Json.string.inj (Option.some.inj htype)
  have hdata : again.data = exported schema options r.data := by
    have hdata := htells.data
    rw [hfield _ (by decide), ← hfields, field?_body, if_neg (by decide), if_pos rfl] at hdata
    exact eq_of_tellsData hdata
  have hrootVersions : again.rootVersions = r.rootVersions := by
    have hroots := htells.rootVersions
    rw [hfield _ (by decide), ← hfields] at hroots
    exact eq_of_tellsRootVersions hroots hunmarked
  refine ⟨?_, hcontentType.symm, hrootVersions, ?_⟩
  · rw [hdata]
    rfl
  · refine exportResource_eq_ok_iff.2 ⟨hcontentType ▸ hknown, ?_, ?_⟩
    · rw [hdata]
      exact isComplete_of_mem_exported hcomplete
    · rw [hdata, exported_exported, hrootVersions, hcontentType]

/-- The unknown sheet and the empty one do not come back, and are not missed. -/
theorem exportResource_reimported_of_page :
    let schema : Schema :=
      { sheets := [("text", ⟨[("body", { name := "body", createMandatory := true })]⟩),
          ("title", ⟨[("short", { name := "short", editable := true })]⟩)]
        resources := [("page", {})] }
    let page : Resource :=
      { contentType := "page", path := .placeholder 0
        rootVersions := [.real "/a/v0/", .placeholder 5]
        data := [("mark", [("x", .null)]), ("text", [("body", .null), ("x", .null)]),
          ("title", [])] }
    let fields : Table Json :=
      [("content_type", .string "page"), ("data", .object [("text", .object [("body", .null)])]),
        ("root_versions", .array [.string "/a/v0/", .string "@5"])]
    exportResource schema { creating := true } page = .ok (.object fields) ∧
      ∃ again later, importResource schema
          (.object (Table.insert "path" (.string "/b/") fields)) {} = (.ok again, later) ∧
        again.rootVersions = page.rootVersions ∧
        exportResource schema { creating := true } again = .ok (.object fields) := by
  intro schema page fields
  have hunmarked : ∀ address, .real address ∈ page.rootVersions →
      startsWithSentinel address = false := by
    intro address haddress
    obtain rfl : address = "/a/v0/" := by simpa [page] using haddress
    decide +kernel
  have hexport : exportResource schema { creating := true } page = .ok (.object fields) := rfl
  obtain ⟨_, ⟨⟩, hagain⟩ := exportResource_reimported hunmarked hexport
  have himport : importResource schema
      (.object (Table.insert "path" (.string "/b/") fields)) {} =
        (.ok { page with path := .real "/b/", data := [("text", [("body", .null)])] }, {}) := rfl
  obtain ⟨-, -, hrootVersions, hexported⟩ := hagain _ _ _ _ himport
  exact ⟨hexport, _, _, himport, hrootVersions, hexported⟩

end Wire

end ResourceClient

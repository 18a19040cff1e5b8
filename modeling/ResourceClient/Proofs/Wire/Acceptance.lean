import ResourceClient.Proofs.Wire.Exports

/-!
What can be imported, said without the reader: what a wire form must tell, what it may leave out,
and what the schema asks of the fields that it declares references. Nothing else keeps a wire form
from being imported, and what it tells is kept as it was told.
-/
namespace ResourceClient.Wire

def Absent (value : Option Json) : Prop := value = none ∨ value = some .null

def TellsPath (value : Json) (path : Path) : Prop :=
  ∃ text, value = .string text ∧ Path.Spells text path

/-- A list may hold resources in place of their paths. -/
inductive IsReference : Json → Prop where
  | null : IsReference .null
  | one (text : String) : IsReference (.string text)
  | list {items : List Json}
      (entries : ∀ item ∈ items, (∃ text, item = .string text) ∨ ∃ fields, item = .object fields) :
      IsReference (.array items)

def Refers (schema : Schema) (data : Table Sheet) : Prop :=
  ∀ name field value f, Holds data name field value → schema.field? name field = some f →
    f.valueType = Known.absolutePath → IsReference value

inductive TellsData (schema : Schema) : Option Json → Table Sheet → Prop where
  | absent {value : Option Json} (absent : Absent value) : TellsData schema value []
  | sheets {data : Table Sheet} (refers : Refers schema data) :
      TellsData schema (some (.object (ofSheets data))) data

/-- The next placeholder is taken for an item that tells no first version, and for nothing else. -/
inductive TellsFirstVersion (schema : Schema) (contentType : String) (names : Names) :
    Option Json → Option Path → Names → Prop where
  | kept {value : Json} {path : Path} (tells : TellsPath value path) :
      TellsFirstVersion schema contentType names (some value) (some path) names
  | drawn {value : Option Json} (absent : Absent value)
      (item : schema.isItem contentType = true) :
      TellsFirstVersion schema contentType names value (some (.placeholder names.next))
        ⟨names.next + 1⟩
  | none {value : Option Json} (absent : Absent value)
      (item : schema.isItem contentType = false) :
      TellsFirstVersion schema contentType names value none names

/-- What is not a list tells no root versions. -/
inductive TellsRootVersions : Option Json → List Path → Prop where
  | listed {items : List Json} {paths : List Path} (tell : List.Forall₂ TellsPath items paths) :
      TellsRootVersions (some (.array items)) paths
  | unlisted {value : Option Json} (unlisted : ∀ items, value ≠ some (.array items)) :
      TellsRootVersions value []

inductive TellsReport : Option Json → Option Report → Prop where
  | absent {value : Option Json} (absent : Absent value) : TellsReport value none
  | told {value : Json} {report : Report} (spells : Report.Spells value report) :
      TellsReport (some value) (some report)

structure Importable (schema : Schema) (wire : Json) : Prop where
  object : ∃ fields, wire = .object fields
  contentType : ∃ contentType, wire.field? "content_type" = some (.string contentType) ∧
    schema.knows contentType = true
  path : ∃ value path, wire.field? "path" = some value ∧ TellsPath value path
  data : ∃ data, TellsData schema (wire.field? "data") data
  firstVersion : Absent (wire.field? "first_version_path") ∨
    ∃ value path, wire.field? "first_version_path" = some value ∧ TellsPath value path
  rootVersions : ∀ items, wire.field? "root_versions" = some (.array items) →
    ∀ item ∈ items, ∃ path, TellsPath item path
  report : Absent (wire.field? "updated_resources") ∨
    ∃ value report, wire.field? "updated_resources" = some value ∧ Report.Spells value report

/-- The resource is what the wire form tells, and the names are those that it leaves. -/
structure Tells (schema : Schema) (wire : Json) (names : Names) (r : Resource) (later : Names) :
    Prop where
  contentType : wire.field? "content_type" = some (.string r.contentType)
  known : schema.knows r.contentType = true
  path : ∃ value, wire.field? "path" = some value ∧ TellsPath value r.path
  parent : r.parent = none
  data : TellsData schema (wire.field? "data") r.data
  firstVersion : TellsFirstVersion schema r.contentType names
    (wire.field? "first_version_path") r.firstVersion later
  rootVersions : TellsRootVersions (wire.field? "root_versions") r.rootVersions
  report : TellsReport (wire.field? "updated_resources") r.report

variable {schema : Schema} {wire : Json} {names later : Names} {value : Option Json} {key : String}

theorem readPath_eq_ok_iff {what : String} {value : Json} {path : Path} :
    readPath what value = .ok path ↔ TellsPath value path := by
  constructor
  · intro h
    obtain ⟨text, htext, hparse⟩ := string?_of_readPath h
    refine ⟨text, ?_, Path.parse?_eq_some_iff.1 hparse⟩
    cases value <;> simp_all [Json.string?]
  · rintro ⟨text, rfl, hspells⟩
    simp [readPath, Json.string?, Path.parse?_eq_some_iff.2 hspells]

theorem TellsPath.ne_null {value : Json} {path : Path} (h : TellsPath value path) :
    value ≠ .null := by
  obtain ⟨text, rfl, -⟩ := h
  exact nofun

theorem isReferenceValue_iff {value : Json} :
    isReferenceValue value = true ↔ IsReference value := by
  have hentry : ∀ item : Json, (item.isString || item.isObject) = true ↔
      (∃ text, item = .string text) ∨ ∃ fields, item = .object fields := by
    intro item
    cases item <;> simp [Json.isString, Json.isObject]
  cases value with
  | null => exact iff_of_true rfl .null
  | string text => exact iff_of_true rfl (.one text)
  | array items =>
    simp only [isReferenceValue, List.all_eq_true, hentry]
    constructor
    · exact .list
    · rintro ⟨⟩
      assumption
  | _ =>
    constructor
    · intro hvalue
      cases hvalue
    · intro hreference
      cases hreference

theorem checkField_eq_ok_iff {name : String} {field : String × Json} :
    checkField schema name field = .ok () ↔
      ∀ f, schema.field? name field.1 = some f → f.valueType = Known.absolutePath →
        IsReference field.2 := by
  rw [checkField, ← isReferenceValue_iff, Schema.isReference]
  cases schema.field? name field.1 with
  | none => simp
  | some f =>
    by_cases hreference : f.valueType = Known.absolutePath <;>
      cases isReferenceValue field.2 <;> simp [Field.isReference, hreference]

theorem sound_iff_refers {data : Table Sheet} : Sound schema data ↔ Refers schema data := by
  simp only [Sound, checkField_eq_ok_iff]
  constructor
  · rintro hsound name field value f ⟨sheet, hsheet, hvalue⟩
    exact hsound _ hsheet _ hvalue f
  · intro hrefers entry hentry field hfield f
    exact hrefers entry.1 field.1 field.2 f ⟨entry.2, hentry, hfield⟩

theorem readData_eq_ok_iff {data : Table Sheet} :
    readData schema value = .ok data ↔ TellsData schema value data := by
  constructor
  · intro h
    unfold readData at h
    split at h
    · cases h
      exact .absent (.inl rfl)
    · cases h
      exact .absent (.inr rfl)
    · obtain ⟨rfl, hsound⟩ := mapM_readSheet_eq_ok_iff.1 h
      exact .sheets (sound_iff_refers.1 hsound)
    · cases h
  · rintro (⟨rfl | rfl⟩ | hrefers)
    · rfl
    · rfl
    · exact readData_ofSheets (sound_iff_refers.2 hrefers)

theorem present?_eq_none_iff : present? wire key = none ↔ Absent (wire.field? key) := by
  rw [present?, Absent]
  cases wire.field? key with
  | none => simp
  | some value => cases value <;> simp [Json.isNull]

theorem present?_eq_some_iff {value : Json} :
    present? wire key = some value ↔ wire.field? key = some value ∧ value ≠ .null := by
  rw [present?, Option.filter_eq_some_iff]
  apply and_congr_right
  intro _
  cases value <;> simp [Json.isNull]

theorem readFirstVersion_eq_ok_iff {contentType : String} {first : Option Path} :
    readFirstVersion schema contentType wire names = (.ok first, later) ↔
      TellsFirstVersion schema contentType names (wire.field? "first_version_path") first
        later := by
  constructor
  · intro h
    unfold readFirstVersion at h
    split at h
    · next value hvalue =>
      obtain ⟨hmap, rfl⟩ := Prod.mk.inj h
      obtain ⟨path, hread, rfl⟩ := exists_of_map_eq_ok hmap
      rw [(present?_eq_some_iff.1 hvalue).1]
      exact .kept (readPath_eq_ok_iff.1 hread)
    · next hnone =>
      have habsent := present?_eq_none_iff.1 hnone
      split at h
      · next hitem =>
        cases h
        exact .drawn habsent hitem
      · next hitem =>
        cases h
        exact .none habsent (Bool.eq_false_iff.2 hitem)
  · intro h
    unfold readFirstVersion
    generalize hvalue : wire.field? "first_version_path" = value at h
    cases h with
    | kept tells =>
      simp only [present?_eq_some_iff.2 ⟨hvalue, tells.ne_null⟩, readPath_eq_ok_iff.2 tells]
      rfl
    | drawn absent item =>
      rw [present?_eq_none_iff.2 (hvalue ▸ absent), if_pos item]
      rfl
    | none absent item =>
      rw [present?_eq_none_iff.2 (hvalue ▸ absent), if_neg (Bool.eq_false_iff.1 item)]

theorem readRootVersions_eq_ok_iff {paths : List Path} :
    readRootVersions wire = .ok paths ↔
      TellsRootVersions (wire.field? "root_versions") paths := by
  unfold readRootVersions
  split
  · next items hitems =>
    rw [hitems, mapM_eq_ok_iff]
    simp only [readPath_eq_ok_iff]
    constructor
    · exact .listed
    · rintro (htell | hunlisted)
      · exact htell
      · exact absurd rfl (hunlisted items)
  · next hunlisted =>
    constructor
    · rintro ⟨⟩
      exact .unlisted hunlisted
    · generalize wire.field? "root_versions" = value at hunlisted
      rintro (htell | -)
      · exact absurd rfl (hunlisted _)
      · rfl

theorem readReport_eq_ok_iff {report : Option Report} :
    readReport wire = .ok report ↔ TellsReport (wire.field? "updated_resources") report := by
  constructor
  · intro h
    unfold readReport at h
    split at h
    · next hnone =>
      cases h
      exact .absent (present?_eq_none_iff.1 hnone)
    · next value hvalue =>
      split at h
      · next report hreport =>
        cases h
        rw [(present?_eq_some_iff.1 hvalue).1]
        exact .told (Report.ofJson?_eq_some_iff.1 hreport)
      · cases h
  · intro h
    unfold readReport
    generalize hvalue : wire.field? "updated_resources" = value at h
    cases h with
    | absent absent => rw [present?_eq_none_iff.2 (hvalue ▸ absent)]
    | told spells =>
      have hsome := present?_eq_some_iff.2 ⟨hvalue, by rintro rfl; cases spells⟩
      simp only [hsome, Report.ofJson?_eq_some_iff.2 spells]

theorem stringField?_eq_some_iff {text : String} :
    wire.stringField? key = some text ↔ wire.field? key = some (.string text) := by
  rw [Json.stringField?, Option.bind_eq_some_iff]
  constructor
  · rintro ⟨value, hvalue, htext⟩
    cases value <;> simp_all [Json.string?]
  · intro h
    exact ⟨_, h, rfl⟩

theorem importResource_eq_ok_iff {r : Resource} :
    importResource schema wire names = (.ok r, later) ↔ Tells schema wire names r later := by
  rw [importResource_eq_ok_iff_steps]
  constructor
  · rintro ⟨head, first, hhead, hfirst, htail⟩
    obtain ⟨contentType, value, path, data, htype, hknown, hfield, hpath, hdata, rfl⟩ :=
      readHead_eq_ok_iff.1 hhead
    obtain ⟨rootVersions, report, hroots, hreport, rfl⟩ := readTail_eq_ok_iff.1 htail
    exact {
      contentType := stringField?_eq_some_iff.1 htype
      known := hknown
      path := ⟨value, hfield, readPath_eq_ok_iff.1 hpath⟩
      parent := rfl
      data := readData_eq_ok_iff.1 hdata
      firstVersion := readFirstVersion_eq_ok_iff.1 hfirst
      rootVersions := readRootVersions_eq_ok_iff.1 hroots
      report := readReport_eq_ok_iff.1 hreport }
  · intro h
    obtain ⟨value, hfield, hpath⟩ := h.path
    obtain ⟨contentType, path, parent, first, rootVersions, data, report⟩ := r
    obtain rfl : parent = none := h.parent
    refine ⟨{ contentType, path, data }, first, readHead_eq_ok_iff.2 ?_,
      readFirstVersion_eq_ok_iff.2 h.firstVersion, readTail_eq_ok_iff.2 ?_⟩
    · exact ⟨contentType, value, path, data, stringField?_eq_some_iff.2 h.contentType, h.known,
        hfield, readPath_eq_ok_iff.2 hpath, readData_eq_ok_iff.2 h.data, rfl⟩
    · exact ⟨rootVersions, report, readRootVersions_eq_ok_iff.2 h.rootVersions,
        readReport_eq_ok_iff.2 h.report, rfl⟩

theorem exists_tellsFirstVersion_iff (contentType : String) :
    (∃ first later, TellsFirstVersion schema contentType names value first later) ↔
      Absent value ∨ ∃ v path, value = some v ∧ TellsPath v path := by
  constructor
  · rintro ⟨_, _, tells | absent | absent⟩
    · exact .inr ⟨_, _, rfl, tells⟩
    · exact .inl absent
    · exact .inl absent
  · rintro (absent | ⟨v, path, rfl, tells⟩)
    · cases hitem : schema.isItem contentType with
      | true => exact ⟨_, _, .drawn absent hitem⟩
      | false => exact ⟨_, _, .none absent hitem⟩
    · exact ⟨_, _, .kept tells⟩

theorem exists_tellsRootVersions_iff :
    (∃ paths, TellsRootVersions value paths) ↔
      ∀ items, value = some (.array items) → ∀ item ∈ items, ∃ path, TellsPath item path := by
  constructor
  · rintro ⟨paths, tell | unlisted⟩ items hitems
    · cases hitems
      intro item hitem
      obtain ⟨path, -, tells⟩ := exists_of_forall₂_of_mem tell.flip hitem
      exact ⟨path, tells⟩
    · exact absurd hitems (unlisted items)
  · intro h
    by_cases hlisted : ∃ items, value = some (.array items)
    · obtain ⟨items, rfl⟩ := hlisted
      choose! path htells using h items rfl
      exact ⟨items.map path, .listed (List.forall₂_map_right_iff.2 (List.forall₂_same.2 htells))⟩
    · exact ⟨[], .unlisted (not_exists.1 hlisted)⟩

theorem exists_tellsReport_iff :
    (∃ report, TellsReport value report) ↔
      Absent value ∨ ∃ v report, value = some v ∧ Report.Spells v report := by
  constructor
  · rintro ⟨_, absent | spells⟩
    · exact .inl absent
    · exact .inr ⟨_, _, rfl, spells⟩
  · rintro (absent | ⟨v, report, rfl, spells⟩)
    · exact ⟨none, .absent absent⟩
    · exact ⟨some report, .told spells⟩

theorem exists_tells_iff :
    (∃ r later, Tells schema wire names r later) ↔ Importable schema wire := by
  constructor
  · rintro ⟨r, later, h⟩
    obtain ⟨value, hpath⟩ := h.path
    refine ⟨?_, ⟨_, h.contentType, h.known⟩, ⟨value, _, hpath⟩, ⟨_, h.data⟩,
      (exists_tellsFirstVersion_iff _).1 ⟨_, _, h.firstVersion⟩,
      exists_tellsRootVersions_iff.1 ⟨_, h.rootVersions⟩, exists_tellsReport_iff.1 ⟨_, h.report⟩⟩
    have htype := h.contentType
    cases wire with
    | object fields => exact ⟨fields, rfl⟩
    | _ => cases htype
  · intro h
    obtain ⟨contentType, htype, hknown⟩ := h.contentType
    obtain ⟨value, path, hpath⟩ := h.path
    obtain ⟨data, hdata⟩ := h.data
    obtain ⟨firstVersion, later, hfirst⟩ :=
      (exists_tellsFirstVersion_iff contentType).2 h.firstVersion
    obtain ⟨rootVersions, hroots⟩ := exists_tellsRootVersions_iff.2 h.rootVersions
    obtain ⟨report, hreport⟩ := exists_tellsReport_iff.2 h.report
    exact ⟨{ contentType, path, firstVersion, rootVersions, data, report }, later, htype, hknown,
      ⟨value, hpath⟩, rfl, hdata, hfirst, hroots, hreport⟩

/-- What is importable is imported, and nothing else is; it is kept as it was told. -/
theorem importResource_tells (schema : Schema) (wire : Json) (names : Names) :
    ((∃ r later, importResource schema wire names = (.ok r, later)) ↔ Importable schema wire) ∧
      ∀ r later, importResource schema wire names = (.ok r, later) ↔
        Tells schema wire names r later := by
  constructor
  · simp only [importResource_eq_ok_iff, exists_tells_iff]
  · intro r later
    exact importResource_eq_ok_iff

example : (importResource { resources := [("item", { superTypes := [Known.item] })] }
    (.object [("content_type", .string "item"), ("path", .string "/i/")]) ⟨7⟩).2 = ⟨8⟩ := by
  decide +kernel

end ResourceClient.Wire

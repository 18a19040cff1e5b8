import ResourceClient.Proofs.Wire.Listings

/-!
A listing put back into another form. What a pool is imported to with its elements restored is what
it would have been imported to had it come in that form, so a caller cannot tell that the elements
were asked for.
-/
namespace ResourceClient

namespace Table

variable {α β : Type}

theorem get?_map (f : α → β) (t : Table α) (key : String) :
    get? (t.map fun entry => (entry.1, f entry.2)) key = (get? t key).map f := by
  induction t with
  | nil => rfl
  | cons entry rest ih =>
    obtain ⟨k, value⟩ := entry
    rw [List.map_cons, get?_cons, get?_cons, ih]
    split <;> rfl

theorem insert_map (f : α → β) (t : Table α) (key : String) (value : α) :
    insert key (f value) (t.map fun entry => (entry.1, f entry.2)) =
      (insert key value t).map fun entry => (entry.1, f entry.2) := by
  induction t with
  | nil => rfl
  | cons entry rest ih =>
    obtain ⟨k, other⟩ := entry
    simp only [List.map_cons, insert]
    split
    · rfl
    · split
      · rfl
      · rw [ih, List.map_cons]

theorem mem_of_get? {t : Table α} {key : String} {value : α} (h : get? t key = some value) :
    (key, value) ∈ t := by
  induction t with
  | nil => cases h
  | cons entry rest ih =>
    obtain ⟨k, other⟩ := entry
    rw [get?_cons] at h
    split at h
    · next hkey =>
      rw [hkey, Option.some.inj h]
      exact List.mem_cons_self
    · exact List.mem_cons_of_mem _ (ih h)

end Table

namespace Json

def alterField (key : String) (f : Json → Json) : Json → Json
  | .object fields =>
    match Table.get? fields key with
    | some value => .object (Table.insert key (f value) fields)
    | none => .object fields
  | other => other

def eraseField (key : String) : Json → Json
  | .object fields => .object (Table.erase key fields)
  | other => other

theorem alterField_of_get? {fields : Table Json} {key : String} {value : Json}
    (h : Table.get? fields key = some value) (f : Json → Json) :
    (Json.object fields).alterField key f = .object (Table.insert key (f value) fields) := by
  simp only [alterField, h]

end Json

namespace Wire

variable {schema : Schema} {wire : Json} {names : Names}

/-- The references among the fields look like references. -/
def Sound (schema : Schema) (data : Table Sheet) : Prop :=
  ∀ entry ∈ data, ∀ field ∈ entry.2, checkField schema entry.1 field = .ok ()

def ofSheets (data : Table Sheet) : Table Json := data.map fun entry => (entry.1, .object entry.2)

theorem forM_eq_ok_iff {α : Type} {f : α → Except Fault Unit} {values : List α} :
    values.forM f = .ok () ↔ ∀ value ∈ values, f value = .ok () := by
  induction values with
  | nil => exact iff_of_true rfl nofun
  | cons value rest ih =>
    change (f value >>= fun _ => rest.forM f) = .ok () ↔ _
    rw [List.forall_mem_cons, ← ih]
    cases hvalue : f value with
    | error fault => exact iff_of_false nofun nofun
    | ok _ => exact ⟨fun h => ⟨rfl, h⟩, And.right⟩

theorem readSheet_eq_ok_iff {entry : String × Json} {sheet : String × Sheet} :
    readSheet schema entry = .ok sheet ↔
      entry = (sheet.1, .object sheet.2) ∧
        ∀ field ∈ sheet.2, checkField schema sheet.1 field = .ok () := by
  obtain ⟨name, value⟩ := entry
  obtain ⟨other, fields⟩ := sheet
  constructor
  · intro h
    cases value with
    | object found =>
      obtain ⟨⟨⟩, hchecked, h⟩ := exists_of_bind_eq_ok h
      cases h
      exact ⟨rfl, forM_eq_ok_iff.1 hchecked⟩
    | _ => cases h
  · rintro ⟨⟨⟩, hchecked⟩
    have hfields := forM_eq_ok_iff.2 hchecked
    simp only [readSheet, hfields]
    rfl

theorem mapM_readSheet_eq_ok_iff {sheets : Table Json} {data : Table Sheet} :
    sheets.mapM (readSheet schema) = .ok data ↔ sheets = ofSheets data ∧ Sound schema data := by
  induction sheets generalizing data with
  | nil =>
    rw [List.mapM_nil]
    constructor
    · intro h
      cases h
      exact ⟨rfl, nofun⟩
    · rintro ⟨h, -⟩
      rw [List.map_eq_nil_iff.1 h.symm]
      rfl
  | cons entry rest ih =>
    rw [List.mapM_cons]
    constructor
    · intro h
      obtain ⟨sheet, hsheet, h⟩ := exists_of_bind_eq_ok h
      obtain ⟨others, hothers, h⟩ := exists_of_bind_eq_ok h
      cases h
      obtain ⟨rfl, hchecked⟩ := readSheet_eq_ok_iff.1 hsheet
      obtain ⟨rfl, hsound⟩ := ih.1 hothers
      exact ⟨rfl, List.forall_mem_cons.2 ⟨hchecked, hsound⟩⟩
    · rintro ⟨h, hsound⟩
      obtain ⟨sheet, others, rfl, rfl, rfl⟩ := List.map_eq_cons_iff.1 h.symm
      obtain ⟨hchecked, hsound⟩ := List.forall_mem_cons.1 hsound
      rw [readSheet_eq_ok_iff.2 ⟨rfl, hchecked⟩, ih.2 ⟨rfl, hsound⟩]
      rfl

theorem readData_ofSheets {data : Table Sheet} (h : Sound schema data) :
    readData schema (some (.object (ofSheets data))) = .ok data :=
  mapM_readSheet_eq_ok_iff.2 ⟨rfl, h⟩

theorem sound_insert {data : Table Sheet} (h : Sound schema data) {name : String} {sheet : Sheet}
    (hsheet : ∀ field ∈ sheet, checkField schema name field = .ok ()) :
    Sound schema (Table.insert name sheet data) := by
  intro entry hentry
  rcases Table.mem_insert hentry with rfl | hentry
  · exact hsheet
  · exact h entry hentry

def listing? (wire : Json) : Option (List Json) :=
  match ((wire.field? "data").bind fun data => data.field? Known.pool).bind
    fun pool => pool.field? "elements" with
  | some (.array items) => some items
  | _ => none

def shown (element : Json) : Json :=
  match element with
  | .object _ =>
    (((element.stringField? "path").bind Path.parse?).map fun path =>
      .string path.toString).getD element
  | other => other

def showItems : Json → Json
  | .array items => .array (items.map shown)
  | other => other

/-- A pool on the wire as it would be listed in a mode. -/
def relist : ElementsMode → Json → Json
  | .content, wire => wire
  | .paths, wire =>
    wire.alterField "data" fun data =>
      data.alterField Known.pool fun pool => pool.alterField "elements" showItems
  | .omit, wire =>
    wire.alterField "data" fun data =>
      data.alterField Known.pool fun pool => pool.eraseField "elements"

theorem field?_ofSheets (data : Table Sheet) (name : String) :
    (Json.object (ofSheets data)).field? name = (Table.get? data name).map .object :=
  Table.get?_map Json.object data name

theorem elements?_eq_listing? {r : Resource}
    (h : readData schema (wire.field? "data") = .ok r.data) : elements? r = listing? wire := by
  unfold elements? listing? Resource.sheet?
  unfold readData at h
  split at h
  · next hnone =>
    rw [hnone, ← Except.ok.inj h]
    rfl
  · next hnull =>
    rw [hnull, ← Except.ok.inj h]
    rfl
  · next sheets hsheets =>
    obtain ⟨rfl, -⟩ := mapM_readSheet_eq_ok_iff.1 h
    rw [hsheets, Option.bind_some, field?_ofSheets]
    cases Table.get? r.data Known.pool <;> rfl
  · cases h

section Replaced

variable {fields : Table Json} {value : Json} {data other : Table Sheet}

theorem field?_insert (key : String) :
    (Json.object (Table.insert "data" value fields)).field? key =
      if key = "data" then some value else (Json.object fields).field? key :=
  Table.get?_insert "data" value fields key

theorem readHead_insert (hdata : readData schema (Table.get? fields "data") = .ok data)
    (hother : readData schema (some value) = .ok other) :
    readHead schema (.object (Table.insert "data" value fields)) =
      (readHead schema (.object fields)).map fun head => { head with data := other } := by
  have hdata : readData schema ((Json.object fields).field? "data") = .ok data := hdata
  unfold readHead
  simp only [Json.isObject, Json.stringField?, field?_insert, String.reduceEq, if_false, if_true,
    Bool.not_true, Bool.false_eq_true]
  cases ((Json.object fields).field? "content_type").bind Json.string? with
  | none => rfl
  | some contentType =>
    dsimp only
    cases schema.knows contentType with
    | false => rfl
    | true =>
      cases (Json.object fields).field? "path" with
      | none => rfl
      | some path =>
        dsimp only
        cases readPath "path" path with
        | error fault => rfl
        | ok path =>
          simp only [hdata, hother]
          rfl

theorem present?_insert {key : String} (h : key ≠ "data") :
    present? (.object (Table.insert "data" value fields)) key = present? (.object fields) key := by
  rw [present?, field?_insert, if_neg h, present?]

theorem readFirstVersion_insert (contentType : String) (names : Names) :
    readFirstVersion schema contentType (.object (Table.insert "data" value fields)) names =
      readFirstVersion schema contentType (.object fields) names := by
  rw [readFirstVersion, present?_insert (by decide), readFirstVersion]

theorem readTail_insert (head : Resource) :
    readTail (.object (Table.insert "data" value fields)) { head with data := other } =
      (readTail (.object fields) head).map fun r => { r with data := other } := by
  have hroots : readRootVersions (.object (Table.insert "data" value fields)) =
      readRootVersions (.object fields) := by
    rw [readRootVersions, field?_insert, if_neg (by decide), readRootVersions]
  have hreport : readReport (.object (Table.insert "data" value fields)) =
      readReport (.object fields) := by
    rw [readReport, present?_insert (by decide), readReport]
  unfold readTail
  rw [hroots, hreport]
  cases readRootVersions (.object fields) with
  | error fault => rfl
  | ok rootVersions => cases readReport (.object fields) <;> rfl

theorem importResource_insert (hdata : readData schema (Table.get? fields "data") = .ok data)
    (hother : readData schema (some value) = .ok other) (names : Names) :
    importResource schema (.object (Table.insert "data" value fields)) names =
      ((importResource schema (.object fields) names).1.map fun r => { r with data := other },
        (importResource schema (.object fields) names).2) := by
  unfold importResource
  rw [readHead_insert hdata hother]
  cases readHead schema (.object fields) with
  | error fault => rfl
  | ok head =>
    dsimp only [Except.map]
    rw [readFirstVersion_insert]
    obtain ⟨_ | first, drawn⟩ := readFirstVersion schema head.contentType (.object fields) names
    · rfl
    · exact congrArg (·, drawn) (readTail_insert { head with firstVersion := first })

theorem exists_of_importResource {r : Resource}
    (h : (importResource schema wire names).1 = .ok r) :
    (∃ fields, wire = .object fields) ∧ readData schema (wire.field? "data") = .ok r.data := by
  rw [fst_importResource] at h
  obtain ⟨head, hhead, h⟩ := exists_of_bind_eq_ok h
  obtain ⟨first, -, h⟩ := exists_of_bind_eq_ok h
  obtain ⟨rootVersions, -, h⟩ := exists_of_bind_eq_ok h
  obtain ⟨report, -, h⟩ := exists_of_bind_eq_ok h
  obtain rfl := Except.ok.inj h
  obtain ⟨-, -, hobject, hdata⟩ := exists_of_readHead hhead
  refine ⟨?_, hdata⟩
  cases wire with
  | object fields => exact ⟨fields, rfl⟩
  | _ => cases hobject

end Replaced

theorem exists_of_elements? {r : Resource} {items : List Json} (h : elements? r = some items) :
    ∃ pool, r.sheet? Known.pool = some pool ∧ Table.get? pool "elements" = some (.array items) := by
  unfold elements? at h
  split at h
  · next found hfound =>
    obtain rfl := Option.some.inj h
    exact Option.bind_eq_some_iff.1 hfound
  · cases h

theorem exists_of_sheet? {r : Resource} {name : String} {sheet : Sheet}
    (himport : (importResource schema wire names).1 = .ok r) (hsheet : r.sheet? name = some sheet) :
    ∃ fields, wire = .object fields ∧
      Table.get? fields "data" = some (.object (ofSheets r.data)) ∧ Sound schema r.data := by
  obtain ⟨⟨fields, rfl⟩, hdata⟩ := exists_of_importResource himport
  have hsome : r.data ≠ [] := by
    intro hnil
    rw [Resource.sheet?, hnil] at hsheet
    cases hsheet
  refine ⟨fields, rfl, ?_⟩
  change readData schema (Table.get? fields "data") = .ok r.data at hdata
  unfold readData at hdata
  split at hdata
  · exact absurd (Except.ok.inj hdata).symm hsome
  · exact absurd (Except.ok.inj hdata).symm hsome
  · next sheets hsheets =>
    obtain ⟨rfl, hsound⟩ := mapM_readSheet_eq_ok_iff.1 hdata
    exact ⟨hsheets, hsound⟩
  · cases hdata

/-- A pool with another sheet is imported from a wire form with another sheet. -/
theorem importResource_withSheet {r : Resource} {pool other : Sheet} {f : Json → Json}
    (himport : (importResource schema wire names).1 = .ok r)
    (hpool : r.sheet? Known.pool = some pool) (hf : f (.object pool) = .object other)
    (hother : ∀ field ∈ other, checkField schema Known.pool field = .ok ()) :
    importResource schema (wire.alterField "data" fun data => data.alterField Known.pool f) names =
      (.ok (r.withSheet Known.pool other), (importResource schema wire names).2) := by
  obtain ⟨fields, rfl, hfield, hsound⟩ := exists_of_sheet? himport hpool
  have hdata : readData schema (Table.get? fields "data") = .ok r.data :=
    (exists_of_importResource himport).2
  have hsheet : Table.get? (ofSheets r.data) Known.pool = some (.object pool) := by
    rw [ofSheets, Table.get?_map, ← Resource.sheet?, hpool, Option.map_some]
  have hsheets : Table.insert Known.pool (.object other) (ofSheets r.data) =
      ofSheets (Table.insert Known.pool other r.data) :=
    Table.insert_map Json.object r.data Known.pool other
  rw [Json.alterField_of_get? hfield, Json.alterField_of_get? hsheet, hf, hsheets,
    importResource_insert hdata (readData_ofSheets (sound_insert hsound hother)), himport]
  rfl

theorem checkField_strings (sheet field : String) (texts : List String) :
    checkField schema sheet (field, .array (texts.map .string)) = .ok () := by
  have hreferences : isReferenceValue (.array (texts.map .string)) = true := by
    rw [isReferenceValue, List.all_map, List.all_eq_true]
    intro text _
    rfl
  rw [checkField, hreferences, Bool.not_true, Bool.and_false]
  rfl

/-- A listing that is restored to a mode is imported from one that came in that mode. -/
theorem importResource_relist {r : Resource} {items : List Json} {paths : List String}
    (himport : (importResource schema wire names).1 = .ok r) (hitems : listing? wire = some items)
    (hpaths : items.map shown = paths.map Json.string) (mode : ElementsMode) :
    importResource schema (relist mode wire) names =
      (.ok (restoreListing mode paths r), (importResource schema wire names).2) := by
  obtain ⟨-, hdata⟩ := exists_of_importResource himport
  rw [← elements?_eq_listing? hdata] at hitems
  obtain ⟨pool, hpool, helements⟩ := exists_of_elements? hitems
  obtain ⟨_, _, _, hsound⟩ := exists_of_sheet? himport hpool
  have hchecked : ∀ field ∈ pool, checkField schema Known.pool field = .ok () :=
    hsound _ (Table.mem_of_get? hpool)
  unfold restoreListing
  rw [hpool, Option.getD_some]
  cases mode with
  | content => exact Prod.ext himport rfl
  | paths =>
    apply importResource_withSheet himport hpool
    · rw [Json.alterField_of_get? helements, showItems, hpaths]
    · intro field hfield
      rcases Table.mem_insert hfield with rfl | hfield
      · exact checkField_strings _ _ _
      · exact hchecked field hfield
  | _ =>
    apply importResource_withSheet himport hpool rfl
    intro field hfield
    exact hchecked field (List.mem_of_mem_filter hfield)

/-- What a listing may hold: a path, or a resource that can be imported on its own. -/
def IsElement (schema : Schema) (element : Json) : Prop :=
  element.isString = true ∨
    element.isObject = true ∧ ∃ names r, (importResource schema element names).1 = .ok r

theorem isElement_of_listElements {items : List Json} {listed : Listed}
    (h : (listElements schema items listed).1 = none) :
    ∀ element ∈ items, IsElement schema element := by
  induction items generalizing listed with
  | nil => exact nofun
  | cons element rest ih =>
    rw [List.forall_mem_cons]
    unfold listElements at h
    split at h
    · split at h
      · cases h
      · next resource names himport =>
        exact ⟨.inr ⟨rfl, listed.names, resource, by rw [himport]⟩, ih h⟩
    · exact ⟨.inl rfl, ih h⟩
    · cases h

theorem exists_import {element : Json} {r : Resource}
    (h : (importResource schema element names).1 = .ok r) (other : Names) :
    ∃ s later, importResource schema element other = (.ok s, later) := by
  obtain ⟨first, hfirst⟩ := importResource_of_names h other
  exact ⟨{ r with firstVersion := first }, (importResource schema element other).2,
    Prod.ext hfirst rfl⟩

theorem shown_of_importResource {element : Json} {r : Resource}
    (h : (importResource schema element names).1 = .ok r) :
    shown element = .string r.path.toString := by
  obtain ⟨⟨fields, rfl⟩, -⟩ := exists_of_importResource h
  obtain ⟨text, htext, hparse⟩ := path_of_importResource h
  rw [shown, htext, Option.bind_some, hparse]
  rfl

end Wire

end ResourceClient

import ResourceClient.Proofs.Json.Records
import ResourceClient.Proofs.Wire.Relistings

/-!
What a body of a write says. An export fails for want of a known type or of a field that a new
resource must have; otherwise it says what the resource holds, as far as that may be written, and in
everything but its data it is the body that is sent without looking at the schema.
-/
namespace ResourceClient

namespace Table

variable {α : Type} {t : Table α} {key : String} {value : α}

theorem get?_of_mem (h : t.Sorted) (hmem : (key, value) ∈ t) : t.get? key = some value := by
  induction t with
  | nil => cases hmem
  | cons entry rest ih =>
    obtain ⟨hfirst, hrest⟩ := List.pairwise_cons.1 h
    rw [get?_cons]
    rcases List.mem_cons.1 hmem with rfl | hmem
    · exact if_pos rfl
    · rw [if_neg (String.ne_of_lt (hfirst _ hmem)).symm]
      exact ih hrest hmem

theorem get?_filter (p : String → Bool) (t : Table α) (key : String) :
    get? (t.filter fun entry => p entry.1) key = if p key then get? t key else none := by
  induction t with
  | nil => simp
  | cons entry rest ih =>
    obtain ⟨k, value⟩ := entry
    rw [List.filter_cons]
    by_cases hkey : key = k
    · subst hkey
      cases hp : p key <;> simp_all [get?_cons]
    · cases hp : p k <;> simp [get?_cons, ih, hkey]

theorem mem_ofPairs {pairs : List (String × α)} {p : String × α} (h : p ∈ ofPairs pairs) :
    p ∈ pairs := by
  suffices hfold : ∀ t : Table α, p ∈ pairs.foldl (fun t p => insert p.1 p.2 t) t →
      p ∈ t ∨ p ∈ pairs from (hfold [] h).resolve_left nofun
  clear h
  induction pairs with
  | nil => exact fun t ht => .inl ht
  | cons q pairs ih =>
    intro t ht
    rcases ih _ ht with ht | hrest
    · rcases mem_insert ht with rfl | ht
      · exact .inr List.mem_cons_self
      · exact .inl ht
    · exact .inr (List.mem_cons_of_mem _ hrest)

end Table

namespace Schema

/-- No sheet declares a field twice. -/
def Ordered (schema : Schema) : Prop := ∀ entry ∈ schema.sheets, Table.Sorted entry.2.fields

theorem sorted_fields {d : Draft} {type : SheetType} (h : SheetType.ofDraft? d = some type) :
    Table.Sorted type.fields := by
  obtain ⟨values, -, h⟩ := Option.bind_eq_some_iff.1 h
  split at h
  · obtain ⟨declared, -, h⟩ := Option.bind_eq_some_iff.1 h
    obtain rfl := Option.some.inj h
    exact Table.sorted_ofPairs _
  · cases h

theorem ordered_of_ofDraft? {d : Draft} {schema : Schema} (h : ofDraft? d = some schema) :
    schema.Ordered := by
  obtain ⟨values, -, h⟩ := Option.bind_eq_some_iff.1 h
  split at h
  · next sheets resources =>
    obtain ⟨types, htypes, h⟩ := Option.bind_eq_some_iff.1 h
    obtain ⟨_, -, h⟩ := Option.bind_eq_some_iff.1 h
    obtain rfl := Option.some.inj h
    intro entry hentry
    cases sheets with
    | none =>
      obtain rfl := Option.some.inj htypes
      cases hentry
    | some d =>
      cases d with
      | object fields =>
        obtain ⟨pairs, hpairs, h⟩ := Option.bind_eq_some_iff.1 htypes
        obtain rfl := Option.some.inj h
        obtain ⟨⟨key, value⟩, -, hread⟩ :=
          exists_of_forall₂_of_mem (mapM_eq_some_iff.1 hpairs) (Table.mem_ofPairs hentry)
        obtain ⟨name, -, hread⟩ := Option.bind_eq_some_iff.1 hread
        obtain ⟨type, htype, hread⟩ := Option.bind_eq_some_iff.1 hread
        obtain rfl := Option.some.inj hread
        exact sorted_fields htype
      | _ => cases htypes
  · cases h

theorem Ordered.sorted {schema : Schema} (h : schema.Ordered) {name : String} {type : SheetType}
    (htype : schema.sheet? name = some type) : Table.Sorted type.fields :=
  h _ (Table.mem_of_get? htype)

end Schema

namespace Wire

variable {schema : Schema} {options : ExportOptions} {r : Resource} {name field : String}
  {data : Table Sheet}

theorem get?_exportFields (sheet : Sheet) (field : String) :
    Table.get? (exportFields schema options name sheet) field =
      if keepsField schema options name field then Table.get? sheet field else none :=
  Table.get?_filter (keepsField schema options name) sheet field

@[simp] theorem exportFields_exportFields (sheet : Sheet) :
    exportFields schema options name (exportFields schema options name sheet) =
      exportFields schema options name sheet := by
  simp [exportFields]

/-- No field is missing that a new resource must have. -/
def IsComplete (schema : Schema) (options : ExportOptions) (entry : String × Sheet) : Prop :=
  options.creating = true → ∀ type, schema.sheet? entry.1 = some type →
    missingField? type (exportFields schema options entry.1 entry.2) = none

def project (schema : Schema) (options : ExportOptions) (entry : String × Sheet) :
    Option (String × Sheet) :=
  let fields := exportFields schema options entry.1 entry.2
  if (schema.sheet? entry.1).isSome ∧ fields ≠ [] then some (entry.1, fields) else none

def exported (schema : Schema) (options : ExportOptions) (data : Table Sheet) : Table Sheet :=
  data.filterMap (project schema options)

theorem project_eq_some_iff {entry other : String × Sheet} :
    project schema options entry = some other ↔
      (schema.sheet? entry.1).isSome = true ∧ other.2 ≠ [] ∧
        other = (entry.1, exportFields schema options entry.1 entry.2) := by
  simp only [project, Option.ite_none_right_eq_some, Option.some.injEq]
  constructor
  · rintro ⟨⟨hknown, hsome⟩, rfl⟩
    exact ⟨hknown, hsome, rfl⟩
  · rintro ⟨hknown, hsome, rfl⟩
    exact ⟨⟨hknown, hsome⟩, rfl⟩

theorem exportSheet_eq_ok_iff {entry : String × Sheet} {result : Option (String × Json)} :
    exportSheet schema options entry = .ok result ↔
      IsComplete schema options entry ∧
        (project schema options entry).map (fun entry => (entry.1, .object entry.2)) = result := by
  unfold exportSheet IsComplete project
  cases schema.sheet? entry.1 with
  | none => simp
  | some type =>
    simp only [Option.some.injEq, forall_eq']
    generalize exportFields schema options entry.1 entry.2 = fields
    generalize missingField? type fields = missing
    cases options.creating <;> cases missing <;> cases fields <;> simp

theorem mapM_exportSheet_eq_ok_iff {sheets : List (Option (String × Json))} :
    data.mapM (exportSheet schema options) = .ok sheets ↔
      (∀ entry ∈ data, IsComplete schema options entry) ∧
        (data.map fun entry =>
          (project schema options entry).map fun entry => (entry.1, .object entry.2)) = sheets := by
  simp only [mapM_eq_ok_iff, exportSheet_eq_ok_iff, List.forall₂_and_left]
  rw [← List.forall₂_eq_eq_eq, List.forall₂_map_left_iff]

theorem filterMap_project (data : Table Sheet) :
    (data.map fun entry => (project schema options entry).map fun entry =>
      (entry.1, Json.object entry.2)).filterMap id = ofSheets (exported schema options data) := by
  rw [List.filterMap_map, exported, ofSheets, List.map_filterMap]
  rfl

theorem exportResource_eq_ok_iff {body : Json} :
    exportResource schema options r = .ok body ↔
      schema.knows r.contentType = true ∧ (∀ entry ∈ r.data, IsComplete schema options entry) ∧
        Wire.body r.contentType (ofSheets (exported schema options r.data)) r.rootVersions =
          body := by
  unfold exportResource
  cases schema.knows r.contentType with
  | false => exact iff_of_false nofun nofun
  | true =>
    constructor
    · intro h
      obtain ⟨sheets, hsheets, h⟩ := exists_of_bind_eq_ok h
      obtain ⟨hcomplete, rfl⟩ := mapM_exportSheet_eq_ok_iff.1 hsheets
      rw [filterMap_project] at h
      exact ⟨rfl, hcomplete, Except.ok.inj h⟩
    · rintro ⟨-, hcomplete, rfl⟩
      have hsheets := mapM_exportSheet_eq_ok_iff.2 ⟨hcomplete, rfl⟩
      rw [← filterMap_project, hsheets]
      rfl

/-- The field is let through: it is writable in some way, or among the metadata that are kept. -/
def Passes (schema : Schema) (options : ExportOptions) (name field : String) : Prop :=
  (schema.sheet? name).isSome = true ∧
    ((∃ f, schema.field? name field = some f ∧
        (f.editable = true ∨ f.creatable = true ∨ f.createMandatory = true)) ∨
      options.keepMetadata = true ∧ name = Known.metadata)

theorem passes_iff : Passes schema options name field ↔
    (schema.sheet? name).isSome = true ∧ keepsField schema options name field = true := by
  unfold Passes keepsField Schema.isWritable Field.isWritable
  cases schema.field? name field <;> simp [or_assoc]

def LacksMandatory (schema : Schema) (data : Table Sheet) : Prop :=
  ∃ name sheet field f, (name, sheet) ∈ data ∧ schema.field? name field = some f ∧
    f.createMandatory = true ∧ Table.has sheet field = false

theorem missingField?_eq_none_iff {type : SheetType} (h : Table.Sorted type.fields)
    (sheet : Sheet) :
    missingField? type sheet = none ↔
      ∀ field f, Table.get? type.fields field = some f → f.createMandatory = true →
        Table.has sheet field = true := by
  simp only [missingField?, Option.map_eq_none_iff, List.find?_eq_none, Bool.and_eq_true,
    Bool.not_eq_true', not_and, Bool.not_eq_false]
  -- The check walks the declarations, while flags are looked up.
  constructor
  · intro hall field f hfield
    exact hall (field, f) (Table.mem_of_get? hfield)
  · rintro hall ⟨field, f⟩ hmem
    exact hall field f (Table.get?_of_mem h hmem)

theorem has_exportFields {f : Field} (hfield : schema.field? name field = some f)
    (hmandatory : f.createMandatory = true) (sheet : Sheet) :
    Table.has (exportFields schema options name sheet) field = Table.has sheet field := by
  -- What is mandatory is writable.
  have hkeeps : keepsField schema options name field = true := by
    simp [keepsField, Schema.isWritable, hfield, Field.isWritable, hmandatory]
  rw [Table.has, get?_exportFields, if_pos hkeeps, Table.has]

theorem isComplete_iff (h : schema.Ordered) {sheet : Sheet} :
    IsComplete schema options (name, sheet) ↔
      (options.creating = true → ∀ field f, schema.field? name field = some f →
        f.createMandatory = true → Table.has sheet field = true) := by
  unfold IsComplete
  constructor
  · intro hcomplete hcreating field f hfield hmandatory
    obtain ⟨type, htype, hget⟩ := Option.bind_eq_some_iff.1 hfield
    rw [← has_exportFields hfield hmandatory]
    have hnone := hcomplete hcreating type htype
    exact (missingField?_eq_none_iff (h.sorted htype) _).1 hnone field f hget hmandatory
  · intro hall hcreating type htype
    rw [missingField?_eq_none_iff (h.sorted htype)]
    intro field f hget hmandatory
    have hfield : schema.field? name field = some f := Option.bind_eq_some_iff.2 ⟨type, htype, hget⟩
    rw [has_exportFields hfield hmandatory]
    exact hall hcreating field f hfield hmandatory

theorem lacksMandatory_iff (h : schema.Ordered) :
    options.creating = true ∧ LacksMandatory schema data ↔
      ∃ entry ∈ data, ¬ IsComplete schema options entry := by
  constructor
  · rintro ⟨hcreating, name, sheet, field, f, hmem, hfield, hmandatory, hlacks⟩
    refine ⟨(name, sheet), hmem, fun hcomplete => ?_⟩
    have hhas := (isComplete_iff h).1 hcomplete hcreating field f hfield hmandatory
    rw [hlacks] at hhas
    cases hhas
  · rintro ⟨⟨name, sheet⟩, hmem, hnot⟩
    simp only [isComplete_iff h, not_forall, Bool.not_eq_true] at hnot
    obtain ⟨hcreating, field, f, hfield, hmandatory, hlacks⟩ := hnot
    exact ⟨hcreating, name, sheet, field, f, hmem, hfield, hmandatory, hlacks⟩

theorem exists_error_iff (h : schema.Ordered) (options : ExportOptions) (r : Resource) :
    (∃ fault, exportResource schema options r = .error fault) ↔
      schema.knows r.contentType = false ∨
        options.creating = true ∧ LacksMandatory schema r.data := by
  have hok : (∃ body, exportResource schema options r = .ok body) ↔
      schema.knows r.contentType = true ∧ ∀ entry ∈ r.data, IsComplete schema options entry := by
    simp only [exportResource_eq_ok_iff, exists_and_left, exists_eq', and_true]
  rw [lacksMandatory_iff h, ← Bool.not_eq_true]
  cases hexport : exportResource schema options r with
  | error fault =>
    have hnone : ¬ ∃ body, exportResource schema options r = .ok body := by simp [hexport]
    rw [hok] at hnone
    refine iff_of_true ⟨fault, rfl⟩ ?_
    by_contra hno
    push Not at hno
    exact hnone hno
  | ok body =>
    obtain ⟨hknown, hcomplete⟩ := hok.1 ⟨body, hexport⟩
    refine iff_of_false nofun ?_
    rintro (hunknown | ⟨entry, hmem, hnot⟩)
    · exact hunknown hknown
    · exact hnot (hcomplete entry hmem)

def Holds (data : Table Sheet) (name field : String) (value : Json) : Prop :=
  ∃ sheet, (name, sheet) ∈ data ∧ (field, value) ∈ sheet

/-- The body says of the resource what passes. -/
structure Projects (schema : Schema) (options : ExportOptions) (r : Resource) (body : Json) :
    Prop where
  keys : ∀ key, (body.field? key).isSome = true →
    key = "content_type" ∨ key = "data" ∨ key = "root_versions"
  alike : ∀ key, key ≠ "data" → body.field? key = (unfiltered r).field? key
  data : ∃ data : Table Sheet, body.field? "data" = some (.object (ofSheets data)) ∧
    List.SublistForall₂ (fun sheet held => sheet.1 = held.1 ∧ sheet.2.Sublist held.2) data r.data ∧
    (∀ entry ∈ data, entry.2 ≠ []) ∧
    ∀ name field value, Holds data name field value ↔
      Holds r.data name field value ∧ Passes schema options name field
  agrees : body = unfiltered r ↔ ∀ entry ∈ r.data, (schema.sheet? entry.1).isSome = true ∧
    entry.2 ≠ [] ∧ ∀ p ∈ entry.2, Passes schema options entry.1 p.1

theorem field?_body (contentType : String) (sheets : List (String × Json)) (roots : List Path)
    (key : String) :
    (body contentType sheets roots).field? key =
      if key = "content_type" then some (.string contentType)
      else if key = "data" then some (.object sheets)
      else if key = "root_versions" ∧ roots ≠ [] then
        some (.array (roots.map fun p => .string p.toString))
      else none := by
  unfold body Json.field?
  cases roots <;> simp [Table.get?_cons]

theorem unfiltered_eq (r : Resource) :
    unfiltered r = body r.contentType (ofSheets r.data) r.rootVersions := rfl

theorem ofSheets_injective : Function.Injective ofSheets := by
  apply List.map_injective_iff.2
  rintro ⟨name, sheet⟩ ⟨other, fields⟩ h
  simpa using h

theorem project_eq_self_iff {entry : String × Sheet} :
    project schema options entry = some entry ↔
      (schema.sheet? entry.1).isSome = true ∧ entry.2 ≠ [] ∧
        ∀ p ∈ entry.2, Passes schema options entry.1 p.1 := by
  obtain ⟨name, sheet⟩ := entry
  rw [project_eq_some_iff]
  apply and_congr_right
  intro hknown
  apply and_congr_right
  intro _
  simp only [Prod.mk.injEq, true_and, eq_comm (a := sheet), exportFields, List.filter_eq_self,
    passes_iff, hknown]

theorem holds_exported_iff {value : Json} :
    Holds (exported schema options data) name field value ↔
      Holds data name field value ∧ Passes schema options name field := by
  simp only [Holds, exported, List.mem_filterMap, project_eq_some_iff, passes_iff]
  constructor
  · rintro ⟨sheet, ⟨⟨_, held⟩, hmem, hknown, -, h⟩, hfield⟩
    obtain ⟨rfl, rfl⟩ := Prod.mk.inj h
    obtain ⟨hfield, hkeeps⟩ := mem_exportFields.1 hfield
    exact ⟨⟨held, hmem, hfield⟩, hknown, hkeeps⟩
  · rintro ⟨⟨held, hmem, hfield⟩, hknown, hkeeps⟩
    have hkept := mem_exportFields.2 ⟨hfield, hkeeps⟩
    exact ⟨_, ⟨(name, held), hmem, hknown, List.ne_nil_of_mem hkept, rfl⟩, hkept⟩

theorem sublistForall₂_exported (data : Table Sheet) :
    List.SublistForall₂ (fun sheet held => sheet.1 = held.1 ∧ sheet.2.Sublist held.2)
      (exported schema options data) data := by
  induction data with
  | nil => exact .nil
  | cons entry rest ih =>
    rw [exported, List.filterMap_cons]
    split
    · exact .cons_right ih
    · next hproject =>
      obtain ⟨-, -, rfl⟩ := project_eq_some_iff.1 hproject
      exact .cons ⟨rfl, List.filter_sublist⟩ ih

theorem exported_eq_self_iff :
    exported schema options data = data ↔
      ∀ entry ∈ data, project schema options entry = some entry := by
  rw [exported, ← List.filterMap_eq_map_iff_forall_eq_some, List.map_id']

theorem body_inj {contentType : String} {sheets others : Table Json} {roots : List Path} :
    body contentType sheets roots = body contentType others roots ↔ sheets = others := by
  constructor
  · intro h
    have hdata := congrArg (·.field? "data") h
    exact Json.object.inj (Option.some.inj hdata)
  · exact congrArg (body contentType · roots)

theorem projects_of_eq_ok {body : Json} (h : exportResource schema options r = .ok body) :
    Projects schema options r body := by
  obtain ⟨-, -, rfl⟩ := exportResource_eq_ok_iff.1 h
  constructor
  case keys =>
    intro key hkey
    by_contra hother
    simp only [not_or] at hother
    obtain ⟨htype, hdata, hroots⟩ := hother
    simp [field?_body, htype, hdata, hroots] at hkey
  case alike =>
    intro key hkey
    rw [unfiltered_eq, field?_body, field?_body, if_neg hkey, if_neg hkey]
  case data =>
    refine ⟨_, rfl, sublistForall₂_exported r.data, ?_, fun _ _ _ => holds_exported_iff⟩
    intro entry hentry
    obtain ⟨_, -, hproject⟩ := List.mem_filterMap.1 hentry
    exact (project_eq_some_iff.1 hproject).2.1
  case agrees =>
    rw [unfiltered_eq, body_inj, ofSheets_injective.eq_iff, exported_eq_self_iff]
    simp only [project_eq_self_iff]

/-- An export fails for one of two reasons, and otherwise says what may be said. Every schema that
was read is ordered. -/
theorem exportResource_projects (h : schema.Ordered) (options : ExportOptions) (r : Resource) :
    ((∃ fault, exportResource schema options r = .error fault) ↔
        schema.knows r.contentType = false ∨
          options.creating = true ∧ LacksMandatory schema r.data) ∧
      ∀ body, exportResource schema options r = .ok body → Projects schema options r body :=
  ⟨exists_error_iff h options r, fun _ => projects_of_eq_ok⟩

/-- The later declaration of a field counts, and a sheet that nobody declares is not sent. -/
theorem exportResource_projects_of_repeated :
    let declared : Json := .object
      [("resources", .object [("page", .object [])]),
        ("sheets", .object [("text", .object [("fields", .array
          [.object [("editable", .bool true), ("name", .string "body")],
            .object [("create_mandatory", .bool true), ("name", .string "body")]])])])]
    let schema : Schema :=
      { sheets := [("text", ⟨[("body", { name := "body", createMandatory := true })]⟩)]
        resources := [("page", {})] }
    let empty : Resource := { contentType := "page", path := .real "/a/", data := [("text", [])] }
    let page : Resource :=
      { empty with data := [("mark", [("x", .null)]), ("text", [("body", .null), ("x", .null)])] }
    Schema.ofDraft? declared.toDraft = some schema ∧
      (∃ fault, exportResource schema { creating := true } empty = .error fault) ∧
      ∃ body, exportResource schema { creating := true } page = .ok body ∧ body ≠ unfiltered page ∧
        body.field? "data" = some (.object [("text", .object [("body", .null)])]) := by
  intro declared schema empty page
  have hschema : Schema.ofDraft? declared.toDraft = some schema := by decide +kernel
  have hordered := Schema.ordered_of_ofDraft? hschema
  have hprojects := exportResource_projects hordered { creating := true }
  refine ⟨hschema, ?_, _, rfl, ?_, rfl⟩
  · exact (hprojects empty).1.2 (.inr ⟨rfl, "text", [], "body", _, by simp [empty], rfl, rfl, rfl⟩)
  · intro hagrees
    have hall := ((hprojects page).2 _ rfl).agrees.1 hagrees
    have hknown := (hall ("mark", [("x", .null)]) (by simp [page])).1
    exact absurd hknown (by decide +kernel)

end Wire

end ResourceClient

import ResourceClient.Fault
import ResourceClient.Resource

/-!
Bodies of writes. An export keeps what the server accepts: fields that the schema flags writable, in
known sheets that are not left empty.
-/
namespace ResourceClient.Wire

structure ExportOptions where
  keepMetadata : Bool := false
  /-- The resource is new, so its sheets must hold every create-mandatory field. -/
  creating : Bool := false
  deriving DecidableEq, Inhabited

def keepsField (schema : Schema) (options : ExportOptions) (sheet field : String) : Bool :=
  schema.isWritable sheet field || (options.keepMetadata && sheet = Known.metadata)

def exportFields (schema : Schema) (options : ExportOptions) (name : String) (sheet : Sheet) :
    Sheet :=
  sheet.filter fun p => keepsField schema options name p.1

theorem mem_exportFields {schema : Schema} {options : ExportOptions} {name : String}
    {sheet : Sheet} {p : String × Json} :
    p ∈ exportFields schema options name sheet ↔
      p ∈ sheet ∧ keepsField schema options name p.1 = true := List.mem_filter

/-- A field that creation asks for and that is not there. Which one of several is named is
unspecified; here it is the first by name. -/
def missingField? (type : SheetType) (fields : Sheet) : Option String :=
  (type.fields.find? fun p => p.2.createMandatory && !Table.has fields p.1).map (·.1)

/-- `none` for a sheet that is left out. -/
def exportSheet (schema : Schema) (options : ExportOptions) (entry : String × Sheet) :
    Except Fault (Option (String × Json)) :=
  match schema.sheet? entry.1 with
  | none => .ok none
  | some type =>
    let fields := exportFields schema options entry.1 entry.2
    match if options.creating then missingField? type fields else none with
    | some field => .error (.exporting (.missingField entry.1 field))
    | none => .ok (if fields.isEmpty then none else some (entry.1, .object fields))

def body (contentType : String) (data : List (String × Json)) (rootVersions : List Path) : Json :=
  .object <|
    [("content_type", .string contentType), ("data", .object data)] ++
      if rootVersions.isEmpty then []
      else [("root_versions", .array (rootVersions.map fun p => .string p.toString))]

def exportResource (schema : Schema) (options : ExportOptions) (r : Resource) :
    Except Fault Json := do
  if !schema.knows r.contentType then throw (.exporting (.unknownType r.contentType))
  let sheets ← r.data.mapM (exportSheet schema options)
  return body r.contentType (sheets.filterMap id) r.rootVersions

def unfiltered (r : Resource) : Json :=
  body r.contentType (r.data.map fun (name, sheet) => (name, .object sheet)) r.rootVersions

end ResourceClient.Wire

import ResourceClient.Fault
import ResourceClient.Resource

/-!
Resources from their wire form. Sheets and fields are kept as they came; only the values of known
reference fields are checked. An item that names no first version draws a placeholder, which stays
drawn even if the rest of the import fails.
-/
namespace ResourceClient.Wire

def readPath (what : String) (value : Json) : Except Fault Path :=
  match value.string? with
  | none => .error (.importing (.notString what value))
  | some s =>
    match Path.parse? s with
    | some p => .ok p
    | none => .error (.importing (.badPath what s))

def isReferenceValue : Json → Bool
  | .null | .string _ => true
  | .array items => items.all fun v => v.isString || v.isObject
  | _ => false

def checkField (schema : Schema) (sheet : String) (field : String × Json) : Except Fault Unit :=
  if schema.isReference sheet field.1 && !isReferenceValue field.2 then
    .error (.importing (.notReference sheet field.1 field.2))
  else .ok ()

def readSheet (schema : Schema) (entry : String × Json) : Except Fault (String × Sheet) :=
  match entry.2 with
  | .object fields => do
    fields.forM (checkField schema entry.1)
    return (entry.1, fields)
  | _ => .error (.importing (.sheetNotObject entry.1))

def readData (schema : Schema) : Option Json → Except Fault (Table Sheet)
  | none | some .null => .ok []
  | some (.object sheets) => sheets.mapM (readSheet schema)
  | some other => .error (.importing (.dataNotObject other))

/-- The value under a key, where `null` counts as absent. -/
def present? (wire : Json) (key : String) : Option Json :=
  (wire.field? key).filter fun v => !v.isNull

def readFirstVersion (schema : Schema) (contentType : String) (wire : Json) (names : Names) :
    Except Fault (Option Path) × Names :=
  match present? wire "first_version_path" with
  | some value => ((readPath "first_version_path" value).map some, names)
  | none =>
    if schema.isItem contentType then
      let (path, names) := names.draw
      (.ok (some path), names)
    else (.ok none, names)

def readRootVersions (wire : Json) : Except Fault (List Path) :=
  match wire.field? "root_versions" with
  | some (.array items) => items.mapM (readPath "root_versions entry")
  | _ => .ok []

def readReport (wire : Json) : Except Fault (Option Report) :=
  match present? wire "updated_resources" with
  | none => .ok none
  | some value =>
    match Report.ofJson? value with
    | some report => .ok (some report)
    | none => .error (.importing .badReport)

def readHead (schema : Schema) (wire : Json) : Except Fault Resource := do
  if !wire.isObject then throw (.importing (.notObject wire))
  let some contentType := wire.stringField? "content_type"
    | throw (.importing .noContentType)
  if !schema.knows contentType then throw (.importing (.unknownType contentType))
  let some path := wire.field? "path" | throw (.importing .noPath)
  let path ← readPath "path" path
  let data ← readData schema (wire.field? "data")
  return { contentType, path, data }

def readTail (wire : Json) (head : Resource) : Except Fault Resource := do
  let rootVersions ← readRootVersions wire
  let report ← readReport wire
  return { head with rootVersions, report }

def importResource (schema : Schema) (wire : Json) (names : Names) :
    Except Fault Resource × Names :=
  match readHead schema wire with
  | .error fault => (.error fault, names)
  | .ok head =>
    let (first, names) := readFirstVersion schema head.contentType wire names
    (first.bind fun firstVersion => readTail wire { head with firstVersion }, names)

end ResourceClient.Wire

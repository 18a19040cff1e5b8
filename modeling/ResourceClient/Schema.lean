import ResourceClient.Json.Record

namespace ResourceClient

namespace Known

def versionable : String := "adhocracy_core.sheets.versions.IVersionable"
def tag : String := "adhocracy_core.sheets.tags.ITag"
def pool : String := "adhocracy_core.sheets.pool.IPool"
def metadata : String := "adhocracy_core.sheets.metadata.IMetadata"
def item : String := "adhocracy_core.interfaces.IItem"
def absolutePath : String := "adhocracy_core.schema.AbsolutePath"

/-- The tag that names the head of a version ladder. -/
def last : String := "LAST"

end Known

structure Field where
  name : String := ""
  readable : Bool := false
  editable : Bool := false
  creatable : Bool := false
  createMandatory : Bool := false
  valueType : String := ""
  containerType : Option String := none
  deriving DecidableEq, Inhabited, Repr

namespace Field

def isWritable (f : Field) : Bool := f.editable || f.creatable || f.createMandatory

def isReference (f : Field) : Bool := f.valueType = Known.absolutePath

def ofDraft? (d : Draft) : Option Field := do
  let [name, readable, editable, creatable, createMandatory, valueType, containerType] ←
    d.fields? ["name", "readable", "editable", "creatable", "create_mandatory", "valuetype",
      "containertype"] | none
  let flag := Draft.orDefault false Draft.flag?
  return {
    name := ← Draft.orDefault "" Draft.text? name
    readable := ← flag readable
    editable := ← flag editable
    creatable := ← flag creatable
    createMandatory := ← flag createMandatory
    valueType := ← Draft.orDefault "" Draft.text? valueType
    containerType := ← Draft.orDefault none (Draft.optional? Draft.text?) containerType }

end Field

structure SheetType where
  fields : Table Field := []
  deriving DecidableEq, Inhabited, Repr

def SheetType.ofDraft? (d : Draft) : Option SheetType := do
  let [fields] ← d.fields? ["fields"] | none
  let declared ← Draft.orDefault [] (Draft.list? Field.ofDraft?) fields
  return ⟨Table.ofPairs (declared.map fun f => (f.name, f))⟩

structure ResourceType where
  sheets : List String := []
  superTypes : List String := []
  deriving DecidableEq, Inhabited, Repr

def ResourceType.ofDraft? (d : Draft) : Option ResourceType := do
  let [sheets, superTypes] ← d.fields? ["sheets", "super_types"] | none
  let read := Draft.orDefault [] Draft.texts?
  return ⟨← read sheets, ← read superTypes⟩

def ResourceType.hasSheet (r : ResourceType) (name : String) : Bool := r.sheets.contains name

structure Schema where
  sheets : Table SheetType := []
  resources : Table ResourceType := []
  deriving DecidableEq, Inhabited, Repr

namespace Schema

def ofDraft? (d : Draft) : Option Schema := do
  let [sheets, resources] ← d.fields? ["sheets", "resources"] | none
  return {
    sheets := ← Draft.orDefault [] (Draft.table? SheetType.ofDraft?) sheets
    resources := ← Draft.orDefault [] (Draft.table? ResourceType.ofDraft?) resources }

def sheet? (s : Schema) (name : String) : Option SheetType := Table.get? s.sheets name

def resource? (s : Schema) (contentType : String) : Option ResourceType :=
  Table.get? s.resources contentType

def knows (s : Schema) (contentType : String) : Bool := (s.resource? contentType).isSome

def field? (s : Schema) (sheet field : String) : Option Field :=
  (s.sheet? sheet).bind fun t => Table.get? t.fields field

def isReference (s : Schema) (sheet field : String) : Bool :=
  ((s.field? sheet field).map Field.isReference).getD false

def isWritable (s : Schema) (sheet field : String) : Bool :=
  ((s.field? sheet field).map Field.isWritable).getD false

/-- Items head a version ladder, so a new one comes with a placeholder for its first version. -/
def isItem (s : Schema) (contentType : String) : Bool :=
  match s.resource? contentType with
  | some r => contentType = Known.item || r.superTypes.contains Known.item
  | none => false

end Schema

end ResourceClient

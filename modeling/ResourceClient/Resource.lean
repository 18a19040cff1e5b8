import ResourceClient.Path
import ResourceClient.Report
import ResourceClient.Schema

namespace ResourceClient

abbrev Sheet := Table Json

/-- The strings of a list field; a single string counts as a list of one. -/
def Sheet.stringList (sheet : Sheet) (field : String) : List String :=
  match Table.get? sheet field with
  | some (.array items) => items.filterMap Json.string?
  | some (.string s) => [s]
  | _ => []

structure Resource where
  contentType : String
  path : Path
  parent : Option Path := none
  /-- Stands for the first version of an item that does not exist yet. -/
  firstVersion : Option Path := none
  rootVersions : List Path := []
  data : Table Sheet := []
  report : Option Report := none
  deriving Inhabited

namespace Resource

def sheet? (r : Resource) (name : String) : Option Sheet := Table.get? r.data name

def withSheet (name : String) (sheet : Sheet) (r : Resource) : Resource :=
  { r with data := Table.insert name sheet r.data }

/-- Makes the sheet if the resource does not have it. -/
def setField (sheet field : String) (value : Json) (r : Resource) : Resource :=
  r.withSheet sheet (Table.insert field value ((r.sheet? sheet).getD []))

/-- The removed value, if there was one; makes the sheet like `setField`. -/
def removeField (sheet field : String) (r : Resource) : Option Json × Resource :=
  let fields := (r.sheet? sheet).getD []
  (Table.get? fields field, r.withSheet sheet (Table.erase field fields))

/-- One predecessor; whatever else the versionable sheet held is gone. -/
def setFollows (predecessor : Path) (r : Resource) : Resource :=
  r.withSheet Known.versionable [("follows", .array [.string predecessor.toString])]

def referencesOf : Json → List String
  | .string s => [s]
  | .array items => items.filterMap Json.string?
  | _ => []

/-- The parent, then all paths in reference fields. -/
def references (schema : Schema) (r : Resource) : List String :=
  (r.parent.map Path.toString).toList ++
    r.data.flatMap fun (name, sheet) =>
      sheet.flatMap fun (field, value) =>
        if schema.isReference name field then referencesOf value else []

end Resource

end ResourceClient

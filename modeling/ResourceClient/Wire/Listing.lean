import ResourceClient.Wire.Import

/-!
Pool listings. A pool can be asked for its elements with their content; the elements are then
imported on their own, to be cached, and the listing is put back into the form the caller wanted.
-/
namespace ResourceClient

inductive ElementsMode where
  | paths | content | omit
  deriving DecidableEq, Inhabited, Repr

namespace ElementsMode

def name : ElementsMode → String
  | .paths => "paths"
  | .content => "content"
  | .omit => "omit"

def read (text : String) : Except Fault ElementsMode :=
  match text with
  | "paths" => .ok .paths
  | "content" => .ok .content
  | "omit" => .ok .omit
  | other => .error (.importing (.unknownMode other))

end ElementsMode

namespace Wire

/-- An imported element with the address it is cached under. -/
structure Seed where
  address : String
  resource : Resource
  deriving Inhabited

/-- Elements read so far: their paths, and the seeds of those that came with content. -/
structure Listed where
  paths : List String := []
  seeds : List Seed := []
  names : Names
  deriving Inhabited

/-- Stops at the first element that is bad; what was read before it stays read. -/
def listElements (schema : Schema) : List Json → Listed → Option Fault × Listed
  | [], listed => (none, listed)
  | element :: rest, listed =>
    match element with
    | .object _ =>
      match importResource schema element listed.names with
      | (.error fault, names) => (some fault, { listed with names })
      | (.ok resource, names) =>
        let address := resource.path.toString
        listElements schema rest
          { paths := listed.paths ++ [address], seeds := listed.seeds ++ [⟨address, resource⟩],
            names }
    | .string path => listElements schema rest { listed with paths := listed.paths ++ [path] }
    | other => (some (.importing (.badElement other)), listed)

def elements? (r : Resource) : Option (List Json) :=
  match (r.sheet? Known.pool).bind (Table.get? · "elements") with
  | some (.array items) => some items
  | _ => none

def restoreListing (mode : ElementsMode) (paths : List String) (r : Resource) : Resource :=
  let pool := (r.sheet? Known.pool).getD []
  match mode with
  | .content => r
  | .paths => r.withSheet Known.pool (Table.insert "elements" (.array (paths.map .string)) pool)
  | .omit => r.withSheet Known.pool (Table.erase "elements" pool)

structure ListingImport where
  result : Except Fault Resource
  seeds : List Seed := []
  names : Names

/-- `mode` is the form the caller asked for, whatever the request asked for. -/
def importListing (schema : Schema) (mode : ElementsMode) (wire : Json) (names : Names) :
    ListingImport :=
  match importResource schema wire names with
  | (.error fault, names) => { result := .error fault, names }
  | (.ok resource, names) =>
    match elements? resource with
    | none => { result := .ok resource, names }
    | some items =>
      match listElements schema items { names } with
      | (some fault, listed) =>
        { result := .error fault, seeds := listed.seeds, names := listed.names }
      | (none, listed) =>
        { result := .ok (restoreListing mode listed.paths resource)
          seeds := listed.seeds
          names := listed.names }

end Wire

end ResourceClient

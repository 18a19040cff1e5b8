import ResourceClient.Wire.Export
import ResourceClient.Client.State

/-!
Recorded operations that go out as one batch. A post gets its placeholder when it is recorded, so
later operations can refer to what does not exist yet.
-/
namespace ResourceClient

structure BatchOperation where
  method : Method
  target : String
  body : Option Json := none
  /-- The placeholders that the server binds to what it creates. -/
  resultPath : Option String := none
  resultFirstVersion : Option String := none
  deriving Inhabited

def BatchOperation.toJson (o : BatchOperation) : Json :=
  let optional (name : String) (value : Option Json) : List (String × Json) :=
    (value.map fun v => (name, v)).toList
  .object <|
    optional "body" o.body ++
      [("method", .string o.method.name), ("path", .string o.target)] ++
      optional "result_first_version_path" (o.resultFirstVersion.map .string) ++
      optional "result_path" (o.resultPath.map .string)

structure Transaction where
  operations : List BatchOperation := []
  committed : Bool := false
  deriving Inhabited

structure OperationHandle where
  index : Nat
  path : Path
  deriving DecidableEq, Inhabited, Repr

structure PostHandle where
  index : Nat
  path : Path
  firstVersion : Option Path
  deriving DecidableEq, Inhabited, Repr

namespace Transaction

def describe (tx : Transaction) : String :=
  "Transaction \x7b ops: " ++ tx.operations.length.repr ++ ", committed: " ++
    toString tx.committed ++ " \x7d"

def target (c : Client) (path : Path) : String :=
  match path with
  | .real address => c.url address
  | .placeholder _ => path.toString

def push (operation : BatchOperation) (tx : Transaction) : Nat × Transaction :=
  (tx.operations.length, { tx with operations := tx.operations ++ [operation] })

def get (c : Client) (path : Path) (tx : Transaction) :
    Except Fault OperationHandle × Transaction :=
  if tx.committed then (.error .closed, tx)
  else
    let (index, tx) := tx.push { method := .get, target := target c path }
    (.ok { index, path }, tx)

def put (c : Client) (path : Path) (resource : Resource) (tx : Transaction) :
    Except Fault OperationHandle × Transaction :=
  if tx.committed then (.error .closed, tx)
  else
    match Wire.exportResource c.schema {} resource with
    | .error fault => (.error fault, tx)
    | .ok body =>
      let (index, tx) := tx.push { method := .put, target := target c path, body := some body }
      (.ok { index, path }, tx)

def keepOrDraw (held : Option Path) (names : Names) : Path × Names :=
  match held with
  | some (.placeholder n) => (.placeholder n, names)
  | _ => names.draw

/-- The placeholders of a post; only items have one for a first version. -/
def postNames (schema : Schema) (resource : Resource) (names : Names) :
    (Path × Option Path) × Names :=
  let (path, names) := keepOrDraw (some resource.path) names
  if schema.isItem resource.contentType then
    let (first, names) := keepOrDraw resource.firstVersion names
    ((path, some first), names)
  else ((path, none), names)

/-- Draws its names before anything can fail. -/
def post (parent : Path) (resource : Resource) (tx : Transaction) (c : Client) :
    Except Fault PostHandle × Transaction × Client :=
  if tx.committed then (.error .closed, tx, c)
  else
    let ((path, firstVersion), names) := postNames c.schema resource c.names
    let c := { c with names }
    match Wire.exportResource c.schema { creating := true } resource with
    | .error fault => (.error fault, tx, c)
    | .ok body =>
      let (index, tx) := tx.push
        { method := .post
          target := target c parent
          body := some body
          resultPath := some path.toString
          resultFirstVersion := firstVersion.map Path.toString }
      (.ok { index, path, firstVersion }, tx, c)

/-- Closes at once, and gives out what is to be sent. -/
def commit (tx : Transaction) : Except Fault (List BatchOperation) × Transaction :=
  if tx.committed then (.error .closed, tx)
  else (.ok tx.operations, { operations := [], committed := true })

@[simp] theorem operations_push (operation : BatchOperation) (tx : Transaction) :
    (tx.push operation).2.operations = tx.operations ++ [operation] := rfl

theorem committed_commit (tx : Transaction) : tx.commit.2.committed = true := by
  unfold commit
  split <;> simp_all

end Transaction

end ResourceClient

import ResourceClient.PostingOrder
import ResourceClient.Service.Transaction
import ResourceClient.Service.Write

/-!
Batches. The answer must hold one success per operation; then everything that any of them touched is
dropped at once, and the results are imported in the order of the operations.
-/
namespace ResourceClient

namespace Client

def batchResults (operations : Nat) (response : Response) : Except Fault BatchResponse :=
  match response.json.bind BatchResponse.ofJson with
  | .error fault => .error (if response.isSuccess then fault else response.rejection)
  | .ok batch =>
    if !response.isSuccess || batch.results.any (!·.isSuccess) then
      .error (BatchResponse.rejection batch.results)
    else if batch.results.length ≠ operations then
      .error (.importing (.batchLength batch.results.length operations))
    else .ok batch

def batchReport (batch : BatchResponse) : Except Fault Report :=
  batch.results.foldlM
    (fun report result => (readReport result.body).map report.extend) (batch.report.getD {})

/-- What a written operation touched: the path in its result, else its target. -/
def batchTouched (c : Client) (operation : BatchOperation) (result : BatchResult) : List String :=
  if operation.method = .get then []
  else
    match result.body.stringField? "path" with
    | some path => [c.url path]
    | none => if startsWithSentinel operation.target then [] else [operation.target]

/-- Stops at the first that is no resource; names drawn until then stay drawn. -/
def importBodies : List Json → Client → Except Fault (List Resource) × Client
  | [], c => (.ok [], c)
  | body :: rest, c =>
    match c.importWire none body with
    | (.error fault, c) => (.error fault, c)
    | (.ok resource, c) =>
      let (results, c) := importBodies rest c
      (results.map (resource :: ·), c)

def finishBatch (operations : List BatchOperation) (response : Response) (c : Client) :
    Except Fault (List Resource) × Client :=
  match batchResults operations.length response with
  | .error fault => (.error fault, c)
  | .ok batch =>
    match batchReport batch with
    | .error fault => (.error fault, c)
    | .ok report =>
      let touched := (operations.zip batch.results).flatMap fun (o, r) => c.batchTouched o r
      (c.forgetTouched report touched).importBodies (batch.results.map (·.body))

def recordPosts (resources : List Resource) :
    List Nat → Transaction → Client → Except Fault Transaction × Client
  | [], tx, c => (.ok tx, c)
  | i :: rest, tx, c =>
    match resources[i]? with
    | none => recordPosts resources rest tx c
    | some resource =>
      match resource.parent with
      | none => (.error (.exporting (.noParent resource.path)), c)
      | some parent =>
        match tx.post parent resource c with
        | (.error fault, _, c) => (.error fault, c)
        | (.ok _, tx, c) => recordPosts resources rest tx c

end Client

namespace Service

open ResourceClient.Action

def sendBatch (operations : List BatchOperation) : Action (List Resource) := do
  if operations.isEmpty then return []
  else
    let c ← look
    let response ← exchange (c.signed {
      method := .post
      url := c.url "/batch"
      body := some (.array (operations.map BatchOperation.toJson)) })
    attempt (Client.finishBatch operations response)

def backInOrder (order : List Nat) (results : List Resource) (count : Nat) :
    Except Fault (List Resource) :=
  (List.range count).mapM fun i =>
    match (order.zip results).lookup i with
    | some resource => .ok resource
    | none => .error (.importing .missingResult)

/-- Posts new resources that refer to each other, in one batch; the results come in the order of the
list. -/
def deepPost (resources : List Resource) : Action (List Resource) := do
  let order ← need (PostingOrder.order (← look).schema resources)
  let tx ← attempt (Client.recordPosts resources order {})
  let results ← sendBatch tx.operations
  need (backInOrder order results resources.length)

end Service

end ResourceClient

import ResourceClient.Session.Outside

/-!
Scripted runs. A step is turned into a flow at once; a step that is only started keeps its flow
until it is finished, so any number of calls can be under way together. A pump runs by itself as
soon as some step has to wait, whether or not anyone waits for the pump.
-/
namespace ResourceClient

inductive Underway where
  | call (flow : Flow Reply)
  | pump (id : Nat)
  deriving Inhabited

namespace Underway

def isDone : Underway → Bool
  | .call flow => flow.isDone
  | .pump _ => false

def pumped (w : World Outside) : Reply := .pumped w.client.hub.connected

/-- Goes on until the step is done or has to wait. -/
def poll (u : Underway) (w : World Outside) : Underway × World Outside :=
  match u with
  | .call flow =>
    let (flow, w) := flow.poll Outside.network w
    (.call flow, w)
  | .pump id => if w.remote.awaits id then (.pump id, w) else (.call (.done (pumped w)), w)

/-- Goes on to the end; whenever the step waits, the pumps have a turn. -/
def run (u : Underway) (w : World Outside) : Reply × World Outside :=
  match u with
  | .call flow => flow.runAmid Outside.network World.turn w
  | .pump id =>
    let w := w.workOff id
    (pumped w, w)

end Underway

structure Session where
  world : World Outside
  tasks : Table Underway := []
  transactions : Table Transaction := []
  /-- The loss registrations of further caches on the hub; clones share one. -/
  foreign : Table Nat := []
  watch : List (String × String) := []

namespace Session

def client (s : Session) : Client := s.world.client

def mapClient (f : Client → Client) (s : Session) : Session :=
  { s with world := s.world.mapClient f }

def settleWith (f : Client → α × Client) (s : Session) : α × Session :=
  let (value, client) := f s.client
  (value, { s with world := { s.world with client } })

def replyTo (reply : α → Reply) (action : Action α) : Flow Reply :=
  action.run.bind fun outcome => .done (.ofExcept reply outcome)

/-- A read through the cache whose course is laid down. -/
def memoized (address subkey : String) (opening : List Reaction) (script : Script) : Flow Reply :=
  let calls : List Call := .note ("produce " ++ script.label) :: opening.map .react
  (Flow.act (Client.memoize address subkey (.script script) calls)).bind fun lease =>
    match lease with
    | .shared ticket => (Flow.join ticket).bind fun outcome => .done (.ofExcept .resource outcome)
    | .own =>
      (Flow.pauses script.pending).bind fun _ =>
        (Flow.change (Client.settle
          (script.late.map .react ++ [.note ("resolve " ++ script.label)]))).bind fun _ =>
          .done (.ofExcept .resource script.outcome)

def recordOn (step : TransactionStep) (tx : Transaction) (c : Client) :
    Except Fault Reply × Transaction × Client :=
  match step with
  | .get path =>
    let (result, tx) := tx.get c path
    (result.map .operation, tx, c)
  | .put path resource =>
    let (result, tx) := tx.put c path resource
    (result.map .operation, tx, c)
  | .post parent resource =>
    let (result, tx, c) := tx.post parent resource c
    (result.map .posted, tx, c)

def recordAll : List TransactionStep → Transaction → Client →
    Except Fault (List Reply) × Transaction × Client
  | [], tx, c => (.ok [], tx, c)
  | step :: rest, tx, c =>
    match recordOn step tx c with
    | (.error fault, tx, c) => (.error fault, tx, c)
    | (.ok reply, tx, c) =>
      let (replies, tx, c) := recordAll rest tx c
      (replies.map (reply :: ·), tx, c)

/-- A transaction of its own, sent as soon as it is recorded. -/
def transacted (steps : List TransactionStep) : Flow Reply :=
  (Flow.act fun c =>
    let (replies, tx, c) := recordAll steps {} c
    ((replies, tx.operations), c)).bind fun (replies, operations) =>
      match replies with
      | .error fault => .done (.fault fault)
      | .ok handles => replyTo (.transacted handles) (Service.sendBatch operations)

def record (name : String) (step : TransactionStep) (s : Session) : Reply × Session :=
  match Table.get? s.transactions name with
  | none => (.nothing, s)
  | some tx =>
    let (reply, tx, client) := recordOn step tx s.client
    (.ofExcept id reply,
      { s with
        world := { s.world with client }
        transactions := Table.insert name tx s.transactions })

def inspectTransaction (name : String) (s : Session) : Reply :=
  match Table.get? s.transactions name with
  | none => .nothing
  | some tx => .transaction tx

def commit (name : String) (s : Session) : Flow Reply × Session :=
  match Table.get? s.transactions name with
  | none => (.done .nothing, s)
  | some tx =>
    let (operations, tx) := tx.commit
    (match operations with
      | .error fault => .done (.fault fault)
      | .ok operations => replyTo .resources (Service.sendBatch operations),
      { s with transactions := Table.insert name tx s.transactions })

def lossListeners (s : Session) : Reply := .count s.client.hub.lossListeners.length

/-- The registration ends with the last clone. -/
def dropSpare (name : String) (s : Session) : Session :=
  match Table.get? s.foreign name with
  | none => s
  | some id =>
    let s := { s with foreign := Table.erase name s.foreign }
    if s.foreign.any (·.2 = id) then s else s.mapClient (Client.mapHub (Hub.endOnLoss id))

def keepSpare (name : String) (id : Nat) (s : Session) : Session :=
  if Table.get? s.foreign name = some id then s
  else
    let s := s.dropSpare name
    { s with foreign := Table.insert name id s.foreign }

def newSpare (name : String) (s : Session) : Session :=
  let (id, s) := s.settleWith fun c =>
    let (id, hub) := c.hub.onLoss .spare
    (id, c.mapHub fun _ => hub)
  s.keepSpare name id

def cloneSpare (name source : String) (s : Session) : Session :=
  match Table.get? s.foreign source with
  | some id => s.keepSpare name id
  | none => s

def endRegistration (name : String) (s : Session) : Reply × Session :=
  match Table.get? s.client.handles name with
  | none => (.nothing, s)
  | some handle =>
    (.text Handle.ended.describe,
      s.mapClient fun c =>
        { c.endHandle handle with handles := Table.insert name .ended c.handles })

def hubReply (address : String) (c : Client) : Reply :=
  .hub c.hub.connected c.hub.lossListeners.length (c.hub.subscriberCount address)
    c.hub.describe

def later (flow : Flow Reply) (s : Session) : Underway × Session := (.call flow, s)

def now (reply : Reply) (s : Session) : Underway × Session := s.later (.done reply)

def startPump (signals : List Client.Signal) (s : Session) : Underway × Session :=
  let (id, remote) := s.world.remote.addPump signals
  (.pump id, { s with world := { s.world with remote } })

/-- What is left of a step once it has done what it does at once. -/
def begin (step : Step) (s : Session) : Underway × Session :=
  match step with
  | .route route =>
    { s with world := { s.world with remote := s.world.remote.addRoute route } }.now .nothing
  | .get path params options => s.later (replyTo .resource (Service.getWith path params options))
  | .getRaw address params => s.later (replyTo .response (Service.getRaw address params))
  | .putRaw address body => s.later (replyTo .response (Service.putRaw address body))
  | .postRaw address body => s.later (replyTo .response (Service.postRaw address body))
  | .options path => s.later (replyTo .allowance (Service.options path))
  | .resolve target => s.later (replyTo .resource (Service.resolve target))
  | .ancestor path wanted => s.later (replyTo .found (Service.ancestor path wanted.accepts))
  | .newest item => s.later (replyTo (fun p => .text p.toString) (Service.newest item))
  | .fetchSchema types =>
    s.later (replyTo
      (fun schema => .schema schema.resources.length
        (types.map fun t => (schema.knows t, schema.isItem t)))
      Service.fetchSchema)
  | .put path resource options =>
    s.later (replyTo .resource (Service.putWith path resource options))
  | .post parent resource options =>
    s.later (replyTo .resource (Service.postWith parent resource options))
  | .delete path => s.later (replyTo (fun _ => .text "deleted") (Service.delete path))
  | .hide path contentType => s.later (replyTo .resource (Service.hide path contentType))
  | .deepPost resources => s.later (replyTo .resources (Service.deepPost resources))
  | .postVersion old resource rootVersions =>
    s.later (replyTo .version (Service.postVersion old resource rootVersions))
  | .newResource contentType =>
    let (result, s) := s.settleWith (Client.newResource contentType)
    s.now (.ofExcept .resource result)
  | .nextName =>
    let (path, s) := s.settleWith Client.drawName
    s.now (.text path.toString)
  | .url address => s.now (.text (s.client.url address))
  | .setCredentials credentials =>
    (s.mapClient (Client.setCredentials credentials)).now (.flag credentials.isSome)
  | .beginTransaction name =>
    { s with transactions := Table.insert name {} s.transactions }.now .nothing
  | .record name step =>
    let (reply, s) := s.record name step
    s.now reply
  | .inspectTransaction name => s.now (s.inspectTransaction name)
  | .commit name =>
    let (flow, s) := s.commit name
    s.later flow
  | .transact steps => s.later (transacted steps)
  | .memoize address subkey opening script => s.later (memoized address subkey opening script)
  | .react reaction => (s.mapClient (Client.settle [.react reaction])).now .nothing
  | .forgetTouched (.error fault) _ => s.now (.fault fault)
  | .forgetTouched (.ok report) posted =>
    (s.mapClient (Client.mapCache (LiveCache.forgetTouched report posted))).now .nothing
  | .newCache name =>
    let s := s.newSpare name
    s.now s.lossListeners
  | .cloneCache name source =>
    let s := s.cloneSpare name source
    s.now s.lossListeners
  | .dropCache name =>
    let s := s.dropSpare name
    s.now s.lossListeners
  | .setConnected connected =>
    let s := s.mapClient (Client.setConnected connected)
    s.now (.flag s.client.hub.connected)
  | .frame text => (s.mapClient (Client.receive text)).now .nothing
  | .pump signals => s.startPump signals
  | .observe name address reactions =>
    let s := s.mapClient (Client.observe name address reactions)
    s.now (.count (s.client.hub.subscriberCount address))
  | .observeLoss name reactions =>
    let s := s.mapClient (Client.observeLoss name reactions)
    s.now s.lossListeners
  | .endRegistration name =>
    let (reply, s) := s.endRegistration name
    s.now reply
  | .release name =>
    (s.mapClient (Client.release name)).now (.flag (Table.has s.client.handles name))
  | .inspectHub address => s.now (hubReply address s.client)
  | .start name step =>
    let (task, s) := begin step s
    let (task, world) := task.poll s.world
    { s with world, tasks := Table.insert name task s.tasks }.now
      (.text (if task.isDone then "done" else "pending"))
  | .finish name =>
    match Table.get? s.tasks name with
    | none => s.now .nothing
    | some task => (task, { s with tasks := Table.erase name s.tasks })
  | .abandon name =>
    { s with tasks := Table.erase name s.tasks }.now (.flag (Table.has s.tasks name))
  | .skip => s.now .nothing

structure Record where
  reply : Reply
  trace : List Happening
  lines : List String
  /-- By resource; requests for one resource stay in order. -/
  outbox : List PushRequest
  /-- For each watched slot: entry there, slot filled, count of subscribers. -/
  watched : List (Bool × Bool × Nat)
  deriving Inhabited

def look (c : Client) (slot : String × String) : Bool × Bool × Nat :=
  (c.cache.contains slot.1, c.cache.isCached slot.1 slot.2, c.hub.subscriberCount slot.1)

def step (step : Step) (s : Session) : Record × Session :=
  let (task, s) := s.begin step
  let (reply, world) := task.run s.world
  let c := world.client
  let (outbox, hub) := c.hub.takeOutbox
  let record : Record :=
    { reply
      trace := world.trace
      lines := c.journal
      outbox := outbox.mergeSort fun a b => a.resource ≤ b.resource
      watched := s.watch.map (look c) }
  let client := { c with journal := [] }.mapHub fun _ => hub
  (record, { s with world := { world with client, trace := [] } })

def fresh (config : Config) (schema : Schema) (connected offline : Bool) (routes : List Route)
    (watch : List (String × String)) : Session :=
  let hub : Hub Listener := { connected }
  let cache := if offline then LiveCache.offline hub config.nonResourceUrls
    else LiveCache.onHub hub config.nonResourceUrls
  { world := { client := { config, schema, cache }, remote := { routes } }, watch }

def run : List Step → Session → List Record
  | [], _ => []
  | s :: rest, session =>
    let (record, session) := session.step s
    record :: run rest session

end Session

end ResourceClient

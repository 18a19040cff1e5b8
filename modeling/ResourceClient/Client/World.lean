import ResourceClient.Client.Flow

/-!
Flows against a network. The network is anything that answers a request and moves on; what goes out
is recorded when it is sent, and an answer is fetched when it is asked for again. A flow that is run
to its end may leave room for others: whatever goes on meanwhile goes on each time that it waits.
Sockets, timeouts and log lines are no part of it.
-/
namespace ResourceClient

structure Network (σ : Type) where
  answer : Request → σ → Except Fault Response × σ

inductive Happening where
  | requested (request : Request)
  | rested (wait : Wait)
  deriving Inhabited

structure World (σ : Type) where
  client : Client := {}
  remote : σ
  trace : List Happening := []

namespace World

variable {σ : Type} (net : Network σ)

def record (happening : Happening) (w : World σ) : World σ :=
  { w with trace := w.trace ++ [happening] }

def fetchAnswer (request : Request) (w : World σ) : Except Fault Response × World σ :=
  let (answer, remote) := net.answer request w.remote
  (answer, { w with remote })

def mapClient (f : Client → Client) (w : World σ) : World σ := { w with client := f w.client }

def flight? (w : World σ) (ticket : Ticket) : Option Flight := w.client.cache.flights[ticket]?

def setJob (ticket : Ticket) (key subkey : String) (job : Job) : World σ → World σ :=
  mapClient (Client.mapCache (LiveCache.setFlight ticket (.running key subkey job)))

def land (ticket : Ticket) (key subkey : String) (outcome : Except Fault Resource) :
    World σ → World σ :=
  mapClient (Client.mapCache (LiveCache.land ticket key subkey outcome))

def conclude (script : Script) : World σ → World σ :=
  mapClient (Client.settle (script.late.map .react ++ [.note ("resolve " ++ script.label)]))

def driveJob (ticket : Ticket) (key subkey : String) (job : Job) (w : World σ) : World σ :=
  match job with
  | .fetch plan =>
    match w.client.fetchRequest plan with
    | .error fault => w.land ticket key subkey (.error fault)
    | .ok request =>
      (w.record (.requested request)).setJob ticket key subkey (.answer plan request)
  | .answer plan request =>
    let (answer, w) := w.fetchAnswer net request
    let (outcome, client) := w.client.absorb plan answer
    { w with client }.land ticket key subkey outcome
  | .script script =>
    match script.pending with
    | 0 => (w.conclude script).land ticket key subkey script.outcome
    | n + 1 => w.setJob ticket key subkey (.script { script with pending := n })

def drive (ticket : Ticket) (w : World σ) : World σ :=
  match w.flight? ticket with
  | some (.running key subkey job) => w.driveJob net ticket key subkey job
  | _ => w

def outcome? (w : World σ) (ticket : Ticket) : Option (Except Fault Resource) :=
  (w.flight? ticket).bind Flight.outcome?

/-- Drives a flight for at most so many polls, with `meanwhile` between two of them. -/
def driveAmid (meanwhile : World σ → World σ) : Nat → Ticket → World σ → World σ
  | 0, _, w => w
  | polls + 1, ticket, w =>
    let w := w.drive net ticket
    if (w.outcome? ticket).isSome then w else driveAmid meanwhile polls ticket (meanwhile w)

def remaining (w : World σ) (ticket : Ticket) : Nat :=
  match w.flight? ticket with
  | some (.running _ _ (.script script)) => script.pending + 1
  | _ => 2

end World

namespace Flow

variable {σ : Type} (net : Network σ)

/-- Goes on until the flow is done or has to wait. -/
def poll : Flow α → World σ → Flow α × World σ
  | .done value, w => (.done value, w)
  | .read next, w => poll (next w.client) w
  | .write client next, w => poll next { w with client }
  | .send request next, w => (.sent request next, w.record (.requested request))
  | .sent request next, w =>
    let (answer, w) := w.fetchAnswer net request
    poll (next answer) w
  | .rest wait next, w => poll next (w.record (.rested wait))
  | .pause next, w => (next, w)
  | .await ticket next, w =>
    let w := w.drive net ticket
    match w.outcome? ticket with
    | some outcome => poll (next outcome) w
    | none => (.await ticket next, w)

/-- Goes on to the end, with `meanwhile` each time that the flow has to wait. -/
def runAmid (meanwhile : World σ → World σ) : Flow α → World σ → α × World σ
  | .done value, w => (value, w)
  | .read next, w => runAmid meanwhile (next w.client) w
  | .write client next, w => runAmid meanwhile next { w with client }
  | .send request next, w =>
    let (answer, w) := (meanwhile (w.record (.requested request))).fetchAnswer net request
    runAmid meanwhile (next answer) w
  | .sent request next, w =>
    let (answer, w) := w.fetchAnswer net request
    runAmid meanwhile (next answer) w
  | .rest wait next, w => runAmid meanwhile next (w.record (.rested wait))
  | .pause next, w => runAmid meanwhile next (meanwhile w)
  | .await ticket next, w =>
    let w := w.driveAmid net meanwhile (w.remaining ticket) ticket
    runAmid meanwhile (next ((w.outcome? ticket).getD (.error .unreadable))) w

def run (f : Flow α) (w : World σ) : α × World σ := f.runAmid net id w

theorem runAmid_bind (meanwhile : World σ → World σ) (f : Flow α) (k : α → Flow β) (w : World σ) :
    (f.bind k).runAmid net meanwhile w =
      (k (f.runAmid net meanwhile w).1).runAmid net meanwhile (f.runAmid net meanwhile w).2 := by
  induction f generalizing w with
  | done => rfl
  | read next ih => exact ih w.client w
  | write c next ih => exact ih _
  | send r next ih => exact ih _ _
  | sent r next ih => exact ih _ _
  | rest wait next ih => exact ih _
  | pause next ih => exact ih _
  | await t next ih => exact ih _ _

theorem run_bind (f : Flow α) (k : α → Flow β) (w : World σ) :
    (f.bind k).run net w = (k (f.run net w).1).run net (f.run net w).2 :=
  runAmid_bind net id f k w

@[simp] theorem runAmid_done (meanwhile : World σ → World σ) (value : α) (w : World σ) :
    (Flow.done value).runAmid net meanwhile w = (value, w) := rfl

@[simp] theorem run_done (value : α) (w : World σ) :
    (Flow.done value).run net w = (value, w) := rfl

@[simp] theorem run_act (step : Client → α × Client) (w : World σ) :
    (act step).run net w = ((step w.client).1, { w with client := (step w.client).2 }) := rfl

@[simp] theorem run_pause (next : Flow α) (w : World σ) :
    (Flow.pause next).run net w = next.run net w := rfl

def isDone : Flow α → Bool
  | .done _ => true
  | _ => false

end Flow

end ResourceClient

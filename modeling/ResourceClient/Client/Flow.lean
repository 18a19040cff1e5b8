import ResourceClient.Client.Lease
import ResourceClient.Retry

/-!
Calls that wait. A flow names each point where it depends on the outside: the client's state, the
network, the clock, a shared read. Everything between two such points is one step, and a flow that
has to wait is an ordinary value, to be gone on with later.
-/
namespace ResourceClient

inductive Flow (α : Type) where
  | done (value : α)
  | read (next : Client → Flow α)
  | write (client : Client) (next : Flow α)
  | send (request : Request) (next : Except Fault Response → Flow α)
  | sent (request : Request) (next : Except Fault Response → Flow α)
  | rest (wait : Wait) (next : Flow α)
  | pause (next : Flow α)
  | await (ticket : Ticket) (next : Except Fault Resource → Flow α)

namespace Flow

def bind (f : Flow α) (k : α → Flow β) : Flow β :=
  match f with
  | .done value => k value
  | .read next => .read fun c => (next c).bind k
  | .write client next => .write client (next.bind k)
  | .send request next => .send request fun a => (next a).bind k
  | .sent request next => .sent request fun a => (next a).bind k
  | .rest wait next => .rest wait (next.bind k)
  | .pause next => .pause (next.bind k)
  | .await ticket next => .await ticket fun a => (next a).bind k

instance : Monad Flow where
  pure := .done
  bind := bind

@[simp] theorem bind_done (value : α) (k : α → Flow β) : bind (.done value) k = k value := rfl

theorem bind_pure (f : Flow α) : bind f .done = f := by
  induction f with
  | done => rfl
  | read next ih => simp [bind, ih]
  | write c next ih => simp [bind, ih]
  | send r next ih => simp [bind, ih]
  | sent r next ih => simp [bind, ih]
  | rest w next ih => simp [bind, ih]
  | pause next ih => simp [bind, ih]
  | await t next ih => simp [bind, ih]

theorem bind_assoc (f : Flow α) (k : α → Flow β) (l : β → Flow γ) :
    bind (bind f k) l = bind f fun a => bind (k a) l := by
  induction f with
  | done => rfl
  | read next ih => simp [bind, ih]
  | write c next ih => simp [bind, ih]
  | send r next ih => simp [bind, ih]
  | sent r next ih => simp [bind, ih]
  | rest w next ih => simp [bind, ih]
  | pause next ih => simp [bind, ih]
  | await t next ih => simp [bind, ih]

instance : LawfulMonad Flow :=
  LawfulMonad.mk' Flow (fun f => bind_pure f) (fun _ _ => rfl) bind_assoc

def act (step : Client → α × Client) : Flow α :=
  .read fun c => let (value, c) := step c; .write c (.done value)

def look : Flow Client := .read .done

def change (f : Client → Client) : Flow Unit := act fun c => ((), f c)

def exchange (request : Request) : Flow (Except Fault Response) := .send request .done

def join (ticket : Ticket) : Flow (Except Fault Resource) := .await ticket .done

def pauses : Nat → Flow Unit
  | 0 => .done ()
  | n + 1 => .pause (pauses n)

end Flow

abbrev Action (α : Type) := ExceptT Fault Flow α

namespace Action

def need (result : Except Fault α) : Action α := ExceptT.mk (.done result)

def fail (fault : Fault) : Action α := need (.error fault)

def look : Action Client := ExceptT.lift Flow.look

def act (step : Client → α × Client) : Action α := ExceptT.lift (Flow.act step)

def attempt (step : Client → Except Fault α × Client) : Action α := ExceptT.mk (Flow.act step)

def exchange (request : Request) : Action Response := ExceptT.mk (Flow.exchange request)

def rest (wait : Wait) : Action Unit := ExceptT.lift (.rest wait (.done ()))

def join (ticket : Ticket) : Action Resource := ExceptT.mk (Flow.join ticket)

def outcome (a : Action α) : Action (Except Fault α) := ExceptT.lift a.run

@[simp] theorem run_need (result : Except Fault α) : (need result).run = .done result := rfl

@[simp] theorem run_fail (fault : Fault) : (fail fault : Action α).run = .done (.error fault) := rfl

@[simp] theorem run_attempt (step : Client → Except Fault α × Client) :
    (attempt step).run = Flow.act step := rfl

@[simp] theorem run_exchange (request : Request) :
    (exchange request).run = Flow.exchange request := rfl

@[simp] theorem run_join (ticket : Ticket) : (join ticket).run = Flow.join ticket := rfl

end Action

end ResourceClient

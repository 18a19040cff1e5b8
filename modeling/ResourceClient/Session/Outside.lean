import ResourceClient.Session.Step

/-!
What the calls of a session run against: answers laid down for their requests, and pumps, streams of
signals that the hub works off whenever a call has to wait.
-/
namespace ResourceClient

structure Pump where
  id : Nat
  signals : List Client.Signal
  deriving Inhabited

structure Outside where
  /-- Answers for one method and URL are given in turn, and the last one stays. -/
  routes : List Route := []
  pumps : List Pump := []
  nextPump : Nat := 0
  deriving Inhabited

namespace Outside

def matching (request : Request) (route : Route) : Bool :=
  route.method = request.method.name && route.url = request.url

def advance (request : Request) : List Route → List Route
  | [] => []
  | route :: rest =>
    if matching request route then
      if rest.any (matching request) then rest else route :: rest
    else route :: advance request rest

def missing (request : Request) : Response :=
  .ofJson 404 <| .object [
    ("errors", .array [.object [
      ("description", .string ("no route for " ++ request.method.name ++ " " ++ request.url)),
      ("location", .string "url"),
      ("name", .string "path")]]),
    ("status", .string "error")]

def network : Network Outside where
  answer request o :=
    match o.routes.find? (matching request) with
    | some route => (route.answer, { o with routes := advance request o.routes })
    | none => (.ok (missing request), o)

def addRoute (route : Route) (o : Outside) : Outside := { o with routes := o.routes ++ [route] }

def addPump (signals : List Client.Signal) (o : Outside) : Nat × Outside :=
  (o.nextPump,
    { o with pumps := o.pumps ++ [⟨o.nextPump, signals⟩], nextPump := o.nextPump + 1 })

def awaits (id : Nat) (o : Outside) : Bool := o.pumps.any (·.id = id)

def turnSize : Nat := 61

@[simp] theorem awaits_addPump (signals : List Client.Signal) (o : Outside) :
    (o.addPump signals).2.awaits o.nextPump = true := by
  simp [addPump, awaits]

end Outside

namespace World

def turn (w : World Outside) : World Outside :=
  { w with
    client := (w.remote.pumps.take Outside.turnSize).foldl (fun c p => c.pump p.signals) w.client
    remote := { w.remote with pumps := w.remote.pumps.drop Outside.turnSize } }

def turnsUntil (id : Nat) : Nat → World Outside → World Outside
  | 0, w => w
  | turns + 1, w => if w.remote.awaits id then turnsUntil id turns w.turn else w

/-- Turns until the pump has had its own; each shortens the line. -/
def workOff (id : Nat) (w : World Outside) : World Outside :=
  w.turnsUntil id w.remote.pumps.length

@[simp] theorem pumps_turn (w : World Outside) :
    w.turn.remote.pumps = w.remote.pumps.drop Outside.turnSize := rfl

@[simp] theorem trace_turn (w : World Outside) : w.turn.trace = w.trace := rfl

theorem awaits_turnsUntil (id turns : Nat) (w : World Outside) (h : w.remote.pumps.length ≤ turns) :
    (w.turnsUntil id turns).remote.awaits id = false := by
  induction turns generalizing w with
  | zero =>
    have hw : w.remote.pumps = [] := by simpa using h
    simp [turnsUntil, Outside.awaits, hw]
  | succ turns ih =>
    unfold turnsUntil
    split
    · refine ih w.turn ?_
      simp only [pumps_turn, List.length_drop, Outside.turnSize]
      omega
    · next hw => simpa using hw

@[simp] theorem awaits_workOff (id : Nat) (w : World Outside) :
    (w.workOff id).remote.awaits id = false :=
  awaits_turnsUntil id _ w (Nat.le_refl _)

end World

end ResourceClient

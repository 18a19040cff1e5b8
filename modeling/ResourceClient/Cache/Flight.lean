import ResourceClient.Message.Request
import ResourceClient.Wire.Listing

/-!
Reads on their way. A flight is shared by everybody who holds its ticket: whoever waits drives it,
and once it has landed its outcome is the same for all.
-/
namespace ResourceClient

structure Fetch where
  url : String
  params : Table String := []
  /-- Cache the elements of a listing on the way in, and give the listing back in this form. -/
  listing : Option ElementsMode := none
  deriving Inhabited

inductive Reaction where
  | put (address subkey : String) (resource : Resource)
  | forget (address : String)
  | forgetAll
  | release (name : String)
  | announce (address : String)
  | setConnected (connected : Bool)
  deriving Inhabited

/-- A read whose course is laid down beforehand. -/
structure Script where
  label : String
  pending : Nat := 0
  late : List Reaction := []
  outcome : Except Fault Resource
  deriving Inhabited

inductive Job where
  | fetch (plan : Fetch)
  /-- The request is out. -/
  | answer (plan : Fetch) (request : Request)
  | script (script : Script)
  deriving Inhabited

abbrev Ticket := Nat

inductive Flight where
  | running (key subkey : String) (job : Job)
  | landed (outcome : Except Fault Resource)
  deriving Inhabited

def Flight.outcome? : Flight → Option (Except Fault Resource)
  | .running .. => none
  | .landed outcome => some outcome

end ResourceClient

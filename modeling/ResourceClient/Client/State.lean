import ResourceClient.Cache.LiveCache
import ResourceClient.Config

/-!
The client's whole state. Whatever happens between two answers of the network is one function of it,
so calls that wait can be interleaved freely around these functions.
-/
namespace ResourceClient

inductive Handle where
  | subscription (id : Nat)
  | loss (id : Nat)
  | ended
  deriving DecidableEq, Inhabited, Repr

def Handle.describe (h : Handle) : String :=
  "PushRegistration \x7b active: " ++ toString (h ≠ .ended : Bool) ++ " \x7d"

/-- The slot that a read is about to be put into, and who has it, while its entry lives. -/
structure Reservation where
  key : String
  since : Ticket
  subkey : String
  holder : Option Ticket := none
  deriving DecidableEq, Inhabited, Repr

structure Client where
  config : Config := {}
  schema : Schema := {}
  cache : LiveCache := {}
  names : Names := {}
  credentials : Option Credentials := none
  handles : Table Handle := []
  journal : List String := []
  reservation : Option Reservation := none
  deriving Inhabited

namespace Client

def hub (c : Client) : Hub Listener := c.cache.hub

def mapHub (f : Hub Listener → Hub Listener) (c : Client) : Client :=
  { c with cache := { c.cache with hub := f c.cache.hub } }

def mapCache (f : LiveCache → LiveCache) (c : Client) : Client := { c with cache := f c.cache }

def note (line : String) (c : Client) : Client := { c with journal := c.journal ++ [line] }

def url (c : Client) (address : String) : String := c.config.url address

def drawName (c : Client) : Path × Client :=
  let (path, names) := c.names.draw
  (path, { c with names })

/-- Answers depend on who asks, so a change of user drops everything. -/
def setCredentials (credentials : Option Credentials) (c : Client) : Client :=
  { c with credentials }.mapCache LiveCache.forgetAll

def signed (c : Client) (r : Request) : Request := r.signed c.credentials

@[simp] theorem method_signed (c : Client) (r : Request) : (c.signed r).method = r.method := by
  unfold signed Request.signed
  cases c.credentials <;> rfl

@[simp] theorem url_signed (c : Client) (r : Request) : (c.signed r).url = r.url := by
  unfold signed Request.signed
  cases c.credentials <;> rfl

@[simp] theorem params_signed (c : Client) (r : Request) : (c.signed r).params = r.params := by
  unfold signed Request.signed
  cases c.credentials <;> rfl

def endHandle (handle : Handle) : Client → Client :=
  match handle with
  | .subscription id => mapHub (Hub.unregister id)
  | .loss id => mapHub (Hub.endOnLoss id)
  | .ended => id

def release (name : String) (c : Client) : Client :=
  match Table.get? c.handles name with
  | some handle => { c with handles := Table.erase name c.handles }.endHandle handle
  | none => c

/-- An earlier registration of the name ends once the new one is made. -/
def keepHandle (name : String) (handle : Handle) (c : Client) : Client :=
  let c := c.release name
  { c with handles := Table.insert name handle c.handles }

end Client

end ResourceClient

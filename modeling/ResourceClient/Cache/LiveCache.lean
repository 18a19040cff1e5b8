import ResourceClient.Cache.Listener
import ResourceClient.Push.Hub

/-!
A cache kept fresh by the hub. An entry is made together with its registration and goes together
with it; requests hold on to their ticket and not to the entry, so one that outlives its entry can
only land in its own flight. Entries that grow too old or too many are dropped as `forget` drops
them; when that happens is left to whoever runs the cache.
-/
namespace ResourceClient

structure Entry where
  key : String
  /-- The first ticket it could hold, which tells it from earlier entries of the key. -/
  since : Ticket
  /-- `none` for what the server never notifies about. -/
  registration : Option Nat
  slots : Table Ticket := []
  deriving DecidableEq, Inhabited, Repr

structure LiveCache where
  hub : Hub Listener := {}
  /-- Without a channel the cache never holds anything. -/
  attached : Bool := true
  exempt : List String := []
  entries : List Entry := []
  flights : List Flight := []
  deriving Inhabited

namespace LiveCache

/-- The cache is only trusted while the channel is connected. -/
def isLive (c : LiveCache) : Bool := c.attached && c.hub.connected

def entryAt? (c : LiveCache) (key : String) : Option Entry := c.entries.find? (·.key = key)

def slot? (c : LiveCache) (key subkey : String) : Option Ticket :=
  (c.entryAt? key).bind fun e => Table.get? e.slots subkey

def ensure (key : String) (c : LiveCache) : LiveCache :=
  match c.entryAt? key with
  | some _ => c
  | none =>
    let (registration, hub) :=
      if c.exempt.contains key then (none, c.hub)
      else
        let (id, hub) := c.hub.register key (.entry key)
        (some id, hub)
    { c with
      hub
      entries := c.entries ++ [{ key, since := c.flights.length, registration }] }

def updateEntry (key : String) (f : Entry → Entry) (c : LiveCache) : LiveCache :=
  { c with entries := c.entries.map fun e => if e.key = key then f e else e }

def fill (key subkey : String) (ticket : Ticket) : LiveCache → LiveCache :=
  updateEntry key fun e => { e with slots := Table.insert subkey ticket e.slots }

def empty (key subkey : String) : LiveCache → LiveCache :=
  updateEntry key fun e => { e with slots := Table.erase subkey e.slots }

def addFlight (flight : Flight) (c : LiveCache) : Ticket × LiveCache :=
  (c.flights.length, { c with flights := c.flights ++ [flight] })

def setFlight (ticket : Ticket) (flight : Flight) (c : LiveCache) : LiveCache :=
  { c with flights := c.flights.set ticket flight }

def put (address subkey : String) (resource : Resource) (c : LiveCache) : LiveCache :=
  if c.isLive then
    let key := Address.key address
    let (ticket, c) := (c.ensure key).addFlight (.landed (.ok resource))
    c.fill key subkey ticket
  else c

def forgetKey (key : String) (c : LiveCache) : LiveCache :=
  match c.entryAt? key with
  | none => c
  | some e =>
    { c with
      entries := c.entries.filter (·.key ≠ key)
      hub := match e.registration with
        | some id => c.hub.unregister id
        | none => c.hub }

def forget (address : String) : LiveCache → LiveCache := forgetKey (Address.key address)

def forgetAll (c : LiveCache) : LiveCache :=
  c.entries.foldl (fun c e => c.forgetKey e.key) c

/-- What a write touches: the keys of all reported paths and of the posted ones, and the parents of
those but for changed descendants. -/
def touched (report : Report) (posted : List String) : List String :=
  Table.distinct (report.changedDescendants.map Address.key ++
    (report.created ++ report.modified ++ report.removed ++ posted).flatMap fun p =>
      [Address.key p, Address.parent p])

def forgetTouched (report : Report) (posted : List String) (c : LiveCache) : LiveCache :=
  (touched report posted).foldl (fun c address => c.forget address) c

/-- Ends a flight. A failure leaves its slot, unless somebody else has it by now. -/
def land (ticket : Ticket) (key subkey : String) (outcome : Except Fault Resource)
    (c : LiveCache) : LiveCache :=
  let c := c.setFlight ticket (.landed outcome)
  match outcome with
  | .ok _ => c
  | .error _ => if c.slot? key subkey = some ticket then c.empty key subkey else c

def contains (c : LiveCache) (address : String) : Bool := (c.entryAt? (Address.key address)).isSome

def isCached (c : LiveCache) (address subkey : String) : Bool :=
  (c.slot? (Address.key address) subkey).isSome

theorem key_of_entryAt? {c : LiveCache} {key : String} {e : Entry} (h : c.entryAt? key = some e) :
    e.key = key := by
  simpa using List.find?_some h

theorem entryAt?_ensure (key : String) (c : LiveCache) (other : String) (h : other ≠ key) :
    (c.ensure key).entryAt? other = c.entryAt? other := by
  unfold ensure
  split
  · rfl
  · simp [entryAt?, List.find?_append, h.symm]

theorem entryAt?_ensure_self (key : String) (c : LiveCache) :
    ((c.ensure key).entryAt? key).isSome = true := by
  unfold ensure
  split
  · next h => simp [h]
  · simp [entryAt?, List.find?_append]

theorem entryAt?_updateEntry (key : String) (f : Entry → Entry) (hf : ∀ e, (f e).key = e.key)
    (c : LiveCache) (other : String) :
    (c.updateEntry key f).entryAt? other =
      (c.entryAt? other).map fun e => if e.key = key then f e else e := by
  have hkey : ∀ e : Entry, (if e.key = key then f e else e).key = e.key := fun e => by
    split <;> simp [hf]
  simp only [updateEntry, entryAt?, List.find?_map, Function.comp_def, hkey]

theorem entryAt?_forgetKey (key : String) (c : LiveCache) (other : String) :
    (c.forgetKey key).entryAt? other = if other = key then none else c.entryAt? other := by
  unfold forgetKey
  split
  · next h => split <;> simp_all
  · simp only [entryAt?, List.find?_filter]
    split
    · next h => subst h; simp [List.find?_eq_none]
    · next h =>
      congr 1
      funext e
      by_cases he : e.key = other <;> simp [he, h]

def onHub (hub : Hub Listener) (exempt : List String) : LiveCache :=
  { hub := (hub.onLoss .cache).2, exempt }

def offline (hub : Hub Listener) (exempt : List String) : LiveCache :=
  { hub, attached := false, exempt }

end LiveCache

end ResourceClient

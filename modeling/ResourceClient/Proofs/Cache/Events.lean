import ResourceClient.Proofs.Cache.HubSync

/-!
Whatever can happen to a cache, in any order. An event fills at most one slot, always with the next
ticket, and what it empties is told beforehand; everything else stays where it is.
-/
namespace ResourceClient

inductive CacheEvent where
  | memoize (address subkey : String) (job : Job) (lines : List String)
  /-- A poll that does not end the flight. -/
  | advance (ticket : Ticket) (job : Job)
  | resolve (ticket : Ticket) (outcome : Except Fault Resource)
  | put (address subkey : String) (resource : Resource)
  | forget (address : String)
  | forgetTouched (report : Report) (posted : List String)
  | forgetAll
  | announce (address : String)
  | receive (text : String)
  | setConnected (connected : Bool)

namespace LiveCache

def isRunning (c : LiveCache) (ticket : Ticket) : Bool :=
  match c.flights[ticket]? with
  | some (.running ..) => true
  | _ => false

def start (key subkey : String) (job : Job) (c : LiveCache) : LiveCache :=
  ((c.ensure key).addFlight (.running key subkey job)).2.fill key subkey c.flights.length

def advance (ticket : Ticket) (job : Job) (c : LiveCache) : LiveCache :=
  match c.flights[ticket]? with
  | some (.running key subkey _) => c.setFlight ticket (.running key subkey job)
  | _ => c

def resolve (ticket : Ticket) (outcome : Except Fault Resource) (c : LiveCache) : LiveCache :=
  match c.flights[ticket]? with
  | some (.running key subkey _) => c.land ticket key subkey outcome
  | _ => c

def notify (address : String) (c : LiveCache) : LiveCache :=
  if Address.key address ∈ c.exempt then c else c.forget address

def setConnection (connected : Bool) (c : LiveCache) : LiveCache :=
  let tuned := { c with hub := (c.hub.setConnected connected).2 }
  if connected = false ∧ c.hub.connected = true then tuned.forgetAll else tuned

def addressesIn (text : String) : List String :=
  ((PushEvent.ofText? text).map PushEvent.addresses).getD []

@[simp] def undergo (e : CacheEvent) (c : LiveCache) : LiveCache :=
  match e with
  | .memoize address subkey job _ =>
    let key := Address.key address
    if c.isLive ∧ c.slot? key subkey = none then c.start key subkey job else c
  | .advance ticket job => c.advance ticket job
  | .resolve ticket outcome => c.resolve ticket outcome
  | .put address subkey resource => c.put address subkey resource
  | .forget address => c.forget address
  | .forgetTouched report posted => c.forgetTouched report posted
  | .forgetAll => c.forgetAll
  | .announce address => c.notify address
  | .receive text => (addressesIn text).foldl (fun c address => c.notify address) c
  | .setConnected connected => c.setConnection connected

end LiveCache

namespace CacheEvent

open LiveCache

variable (e : CacheEvent) (c : LiveCache) (key subkey : String) (ticket : Ticket)

@[simp] def Starts : Prop :=
  match e with
  | .memoize address sub _ _ =>
    c.isLive ∧ key = Address.key address ∧ subkey = sub ∧ c.slot? key subkey = none
  | _ => False

@[simp] def Puts : Prop :=
  match e with
  | .put address sub _ => c.isLive ∧ key = Address.key address ∧ subkey = sub
  | _ => False

/-- It invalidates the key: by name, with everything else, by a lost connection, or by a
notification that the server sends for what is not exempt. -/
@[simp] def Drops : Prop :=
  match e with
  | .forget address => key = Address.key address
  | .forgetTouched report posted => key ∈ (touched report posted).map Address.key
  | .forgetAll => True
  | .announce address => key = Address.key address ∧ key ∉ c.exempt
  | .receive text => key ∈ (addressesIn text).map Address.key ∧ key ∉ c.exempt
  | .setConnected connected => connected = false ∧ c.hub.connected = true
  | _ => False

@[simp] def Fails : Prop :=
  match e with
  | .resolve other outcome => ticket = other ∧ outcome.isOk = false ∧ c.isRunning other
  | _ => False

@[simp] def Yields (outcome : Except Fault Resource) : Prop :=
  match e with
  | .resolve other result => ticket = other ∧ outcome = result ∧ c.isRunning other
  | .put _ _ resource => c.isLive ∧ ticket = c.flights.length ∧ outcome = .ok resource
  | _ => False

@[simp] def Fills : Prop := e.Starts c key subkey ∨ e.Puts c key subkey

/-- It invalidates the key, or the flight that has the slot fails. -/
@[simp] def Empties : Prop := e.Drops c key ∨ ∃ ticket ∈ c.slot? key subkey, e.Fails c ticket

instance : Decidable (e.Starts c key subkey) :=
  match e with
  | .memoize .. => inferInstanceAs (Decidable (_ ∧ _ ∧ _ ∧ _))
  | .advance .. | .resolve .. | .put .. | .forget .. | .forgetTouched .. | .forgetAll
  | .announce .. | .receive .. | .setConnected .. => inferInstanceAs (Decidable False)

instance : Decidable (e.Puts c key subkey) :=
  match e with
  | .put .. => inferInstanceAs (Decidable (_ ∧ _ ∧ _))
  | .memoize .. | .advance .. | .resolve .. | .forget .. | .forgetTouched .. | .forgetAll
  | .announce .. | .receive .. | .setConnected .. => inferInstanceAs (Decidable False)

instance : Decidable (e.Drops c key) :=
  match e with
  | .forget .. => inferInstanceAs (Decidable (_ = _))
  | .forgetTouched .. => inferInstanceAs (Decidable (_ ∈ _))
  | .forgetAll => inferInstanceAs (Decidable True)
  | .announce .. | .receive .. | .setConnected .. => inferInstanceAs (Decidable (_ ∧ _))
  | .memoize .. | .advance .. | .resolve .. | .put .. => inferInstanceAs (Decidable False)

instance : Decidable (e.Fails c ticket) :=
  match e with
  | .resolve .. => inferInstanceAs (Decidable (_ ∧ _ ∧ _))
  | .memoize .. | .advance .. | .put .. | .forget .. | .forgetTouched .. | .forgetAll
  | .announce .. | .receive .. | .setConnected .. => inferInstanceAs (Decidable False)

instance : Decidable (e.Fills c key subkey) := inferInstanceAs (Decidable (_ ∨ _))

instance : Decidable (e.Empties c key subkey) := inferInstanceAs (Decidable (_ ∨ _))

end CacheEvent

namespace LiveCache

variable (c : LiveCache) (key subkey other sub : String) (ticket : Ticket)

@[simp] theorem exempt_ensure : (c.ensure key).exempt = c.exempt := by
  unfold ensure
  split <;> rfl

@[simp] theorem exempt_forgetKey : (c.forgetKey key).exempt = c.exempt := by
  unfold forgetKey
  split <;> rfl

@[simp] theorem exempt_put (address : String) (resource : Resource) :
    (c.put address subkey resource).exempt = c.exempt := by
  unfold put
  split
  · exact exempt_ensure c _
  · rfl

theorem foldl_frame {α β : Type} (view : LiveCache → β) (f : LiveCache → α → LiveCache)
    (hf : ∀ c a, view (f c a) = view c) (l : List α) : view (l.foldl f c) = view c := by
  induction l generalizing c with
  | nil => rfl
  | cons a rest ih => rw [List.foldl_cons, ih, hf]

@[simp] theorem exempt_land (outcome : Except Fault Resource) :
    (c.land ticket key subkey outcome).exempt = c.exempt := by
  unfold land
  cases outcome with
  | ok resource => rfl
  | error fault =>
    dsimp only
    split <;> rfl

@[simp] theorem exempt_notify (address : String) : (c.notify address).exempt = c.exempt := by
  unfold notify
  split
  · rfl
  · exact exempt_forgetKey c _

@[simp] theorem exempt_forgetAll : c.forgetAll.exempt = c.exempt :=
  foldl_frame c exempt (fun c (e : Entry) => c.forgetKey e.key) (fun c _ => exempt_forgetKey c _) _

@[simp] theorem exempt_setConnection (connected : Bool) :
    (c.setConnection connected).exempt = c.exempt := by
  unfold setConnection
  dsimp only
  split
  · exact exempt_forgetAll _
  · rfl

theorem exempt_undergo (e : CacheEvent) : (c.undergo e).exempt = c.exempt := by
  cases e with
  | memoize address sub job lines =>
    unfold undergo start
    dsimp only
    split
    · exact exempt_ensure c _
    · rfl
  | advance ticket job =>
    unfold undergo advance
    dsimp only
    split <;> rfl
  | resolve ticket outcome =>
    unfold undergo resolve
    dsimp only
    split
    · exact exempt_land _ _ _ _ _
    · rfl
  | put address sub resource => exact exempt_put c sub address resource
  | forget address => exact exempt_forgetKey c _
  | forgetTouched report posted => exact foldl_frame c exempt _ (fun c _ => exempt_forgetKey c _) _
  | forgetAll => exact exempt_forgetAll c
  | announce address => exact exempt_notify c address
  | receive text => exact foldl_frame c exempt _ exempt_notify _
  | setConnected connected => exact exempt_setConnection c connected

@[simp] theorem connected_ensure : (c.ensure key).hub.connected = c.hub.connected := by
  unfold ensure
  split
  · rfl
  · dsimp only
    split
    · rfl
    · exact Hub.connected_register c.hub key (.entry key)

@[simp] theorem connected_forgetKey : (c.forgetKey key).hub.connected = c.hub.connected := by
  unfold forgetKey
  split
  · rfl
  · dsimp only
    split
    · exact Hub.connected_unregister c.hub _
    · rfl

@[simp] theorem connected_put (address : String) (resource : Resource) :
    (c.put address subkey resource).hub.connected = c.hub.connected := by
  unfold put
  split
  · exact connected_ensure c _
  · rfl

@[simp] theorem connected_forgetTouched (report : Report) (posted : List String) :
    (c.forgetTouched report posted).hub.connected = c.hub.connected :=
  foldl_frame c (·.hub.connected) _ (fun c _ => connected_forgetKey c _) _

@[simp] theorem connected_forgetAll : c.forgetAll.hub.connected = c.hub.connected :=
  foldl_frame c (·.hub.connected) (fun c (e : Entry) => c.forgetKey e.key)
    (fun c _ => connected_forgetKey c _) _

@[simp] theorem connected_notify (address : String) :
    (c.notify address).hub.connected = c.hub.connected := by
  unfold notify
  split
  · rfl
  · exact connected_forgetKey c _

@[simp] theorem connected_land (outcome : Except Fault Resource) :
    (c.land ticket key subkey outcome).hub.connected = c.hub.connected := by
  unfold land
  cases outcome with
  | ok resource => rfl
  | error fault =>
    dsimp only
    split <;> rfl

variable {c}

theorem InSync.notify (h : c.InSync) (address : String) : (c.notify address).InSync := by
  unfold LiveCache.notify
  split
  · exact h
  · exact h.forgetKey _

theorem InSync.setHubConnection (h : c.InSync) (connected : Bool) :
    { c with hub := (c.hub.setConnected connected).2 }.InSync where
  attached := h.attached
  keys := h.keys
  normal := h.normal
  exempted := h.exempted
  mirrored := by
    rw [Hub.subscriptions_setConnected]
    exact h.mirrored
  ids := by simpa using h.ids
  younger := by simpa using h.younger
  quiet := by simpa using h.quiet
  listening := by simpa using h.listening
  quietOnLoss := by simpa using h.quietOnLoss

theorem InSync.setConnection (h : c.InSync) (connected : Bool) :
    (c.setConnection connected).InSync := by
  unfold LiveCache.setConnection
  dsimp only
  split
  · exact (h.setHubConnection connected).forgetAll
  · exact h.setHubConnection connected

theorem InSync.start (h : c.InSync) {key : String} (hkey : Address.key key = key)
    (subkey : String) (job : Job) : (c.start key subkey job).InSync :=
  ((h.ensure key hkey).addFlight _).fill key subkey _

theorem InSync.undergo (h : c.InSync) (e : CacheEvent) : (c.undergo e).InSync := by
  cases e with
  | memoize address sub job lines =>
    unfold LiveCache.undergo
    dsimp only
    split
    · exact h.start (Address.key_key address) sub job
    · exact h
  | advance ticket job =>
    unfold LiveCache.undergo LiveCache.advance
    dsimp only
    split
    · exact h.setFlight _ _
    · exact h
  | resolve ticket outcome =>
    unfold LiveCache.undergo LiveCache.resolve
    dsimp only
    split
    · exact h.land _ _ _ _
    · exact h
  | put address sub resource => exact h.put sub address resource
  | forget address => exact h.forgetKey _
  | forgetTouched report posted => exact h.forgetTouched report posted
  | forgetAll => exact h.forgetAll
  | announce address => exact h.notify address
  | receive text =>
    unfold LiveCache.undergo
    dsimp only
    induction addressesIn text generalizing c with
    | nil => exact h
    | cons address rest ih => exact ih (h.notify address)
  | setConnected connected => exact h.setConnection connected

end LiveCache

end ResourceClient

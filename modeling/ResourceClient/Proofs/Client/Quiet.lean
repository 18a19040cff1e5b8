import ResourceClient.Client.Lease
import ResourceClient.Proofs.Cache.Events

/-!
Notifications when nobody from outside acts on them. Calls then set off nothing further, so a
notification is one plain change of the cache: a changed address drops its entry, unless it is
exempt, and a lost connection drops everything.
-/
namespace ResourceClient

def Call.IsQuiet : Call → Prop
  | .note _ => True
  | .react _ => False
  | .notify listener _ => listener.IsQuiet
  | .lost listener => listener.IsQuiet

def Call.onCache : Call → LiveCache → LiveCache
  | .notify (.entry key) _ => LiveCache.forgetKey key
  | .lost .cache => LiveCache.forgetAll
  | _ => id

def Call.lines : Call → List String
  | .note line => [line]
  | .notify (.observer name _) key => [name ++ " " ++ key]
  | .lost (.observer name _) => [name ++ " disconnected"]
  | _ => []

namespace LiveCache

theorem forgetKey_forgetKey (key : String) (c : LiveCache) :
    (c.forgetKey key).forgetKey key = c.forgetKey key := by
  apply forgetKey_of_none
  simp [entryAt?_forgetKey]

theorem forgetAll_forgetAll (c : LiveCache) : c.forgetAll.forgetAll = c.forgetAll := by
  rw [forgetAll, entries_forgetAll]
  rfl

theorem foldl_onCache {f : LiveCache → LiveCache} (hf : ∀ c, f (f c) = f c) (calls : List Call)
    (hcalls : ∀ call ∈ calls, call.onCache = f ∨ call.onCache = id) (c : LiveCache)
    (hdone : (∃ call ∈ calls, call.onCache = f) ∨ f c = c) :
    calls.foldl (fun c call => call.onCache c) c = f c := by
  induction calls generalizing c with
  | nil =>
    rcases hdone with ⟨_, hmem, _⟩ | hdone
    · exact absurd hmem List.not_mem_nil
    · exact hdone.symm
  | cons call rest ih =>
    have hrest := fun call hmem => hcalls call (List.mem_cons_of_mem _ hmem)
    rw [List.foldl_cons]
    rcases hcalls call List.mem_cons_self with hcall | hcall
    · rw [hcall, ih hrest (f c) (.inr (hf c)), hf]
    · rw [hcall]
      refine ih hrest c ?_
      rcases hdone with ⟨other, hmem, hother⟩ | hdone
      · rcases List.mem_cons.1 hmem with rfl | hmem
        · exact .inr (congrFun (hother.symm.trans hcall) c)
        · exact .inl ⟨other, hmem, hother⟩
      · exact .inr hdone

theorem foldl_listeners_of {c : LiveCache} {address : String}
    (howned : ∀ key, .entry key ∈ c.hub.listeners address →
      key = Address.key address ∧ key ∉ c.exempt)
    (hheld : (c.entryAt? (Address.key address)).isSome = true → Address.key address ∉ c.exempt →
      .entry (Address.key address) ∈ c.hub.listeners address) :
    ((c.hub.listeners address).map fun l => Call.notify l (Address.key address)).foldl
      (fun c call => call.onCache c) c = c.notify address := by
  have hentry : ∀ call ∈ (c.hub.listeners address).map fun l =>
      Call.notify l (Address.key address),
      (call.onCache = forgetKey (Address.key address) ∧ Address.key address ∉ c.exempt) ∨
        call.onCache = id := by
    intro call hcall
    obtain ⟨l, hl, rfl⟩ := List.mem_map.1 hcall
    cases l with
    | entry key =>
      obtain ⟨rfl, hexempt⟩ := howned key hl
      exact .inl ⟨rfl, hexempt⟩
    | cache => exact .inr rfl
    | spare => exact .inr rfl
    | observer name reactions => exact .inr rfl
  unfold notify
  split
  · next hexempt =>
    refine foldl_onCache (f := id) (fun _ => rfl) _ (fun call hcall => ?_) c (.inr rfl)
    rcases hentry call hcall with ⟨-, hnot⟩ | hid
    · exact absurd hexempt hnot
    · exact .inl hid
  · next hexempt =>
    refine foldl_onCache (forgetKey_forgetKey _) _ (fun call hcall => ?_) c ?_
    · exact (hentry call hcall).imp_left And.left
    · by_cases hsome : (c.entryAt? (Address.key address)).isSome = true
      · exact .inl ⟨_, List.mem_map.2 ⟨_, hheld hsome hexempt, rfl⟩, rfl⟩
      · exact .inr (forgetKey_of_none _ (by simpa using hsome))

theorem foldl_listeners {c : LiveCache} (h : c.InSync) (address : String) :
    ((c.hub.listeners address).map fun l => Call.notify l (Address.key address)).foldl
      (fun c call => call.onCache c) c = c.notify address :=
  foldl_listeners_of (fun key hl => h.key_of_mem_listeners key hl) h.mem_listeners

theorem foldl_lost {c : LiveCache} (h : c.InSync) (d : LiveCache) :
    ((c.hub.lossListeners.map (·.2)).map Call.lost).foldl (fun c call => call.onCache c) d =
      d.forgetAll := by
  refine foldl_onCache forgetAll_forgetAll _ (fun call hcall => ?_) d
    (.inl ⟨_, List.mem_map.2 ⟨_, h.listening, rfl⟩, rfl⟩)
  obtain ⟨l, -, rfl⟩ := List.mem_map.1 hcall
  cases l with
  | cache => exact .inl rfl
  | entry key => exact .inr rfl
  | spare => exact .inr rfl
  | observer name reactions => exact .inr rfl

end LiveCache

namespace Client

theorem perform_of_isQuiet {call : Call} (h : call.IsQuiet) (c : Client) :
    c.perform call =
      ([], { c with cache := call.onCache c.cache, journal := c.journal ++ call.lines }) := by
  cases call with
  | note line => rfl
  | react reaction => exact h.elim
  | notify listener key =>
    cases listener with
    | entry _ => simp [perform, mapCache, Call.onCache, Call.lines]
    | cache => simp [perform, Call.onCache, Call.lines]
    | spare => simp [perform, Call.onCache, Call.lines]
    | observer name reactions =>
      obtain rfl : reactions = [] := h
      simp [perform, note, Call.onCache, Call.lines]
  | lost listener =>
    cases listener with
    | entry _ => simp [perform, Call.onCache, Call.lines]
    | cache => simp [perform, mapCache, Call.onCache, Call.lines]
    | spare => simp [perform, Call.onCache, Call.lines]
    | observer name reactions =>
      obtain rfl : reactions = [] := h
      simp [perform, note, Call.onCache, Call.lines]

theorem observeReservation_of_none {c : Client} (h : c.reservation = none) :
    c.observeReservation = c := by
  obtain ⟨⟩ := c
  obtain rfl := h
  rfl

@[simp] theorem settleWithin_nil (depth : Nat) (c : Client) : settleWithin depth [] c = c := by
  cases depth <;> rfl

theorem settleWithin_cons (depth : Nat) (call : Call) (rest : List Call) (c : Client) :
    settleWithin (depth + 1) (call :: rest) c =
      settleWithin (depth + 1) rest
        (settleWithin depth (c.perform call).1 (c.perform call).2.observeReservation) := rfl

/-- What holds from before to after each single call holds from before to after all of them, however
deeply they are nested. -/
theorem settleWithin_rel {R : Client → Client → Prop} (hrefl : ∀ c, R c c)
    (htrans : ∀ {c d e}, R c d → R d e → R c e)
    (hcall : ∀ call c, R c (c.perform call).2.observeReservation) (depth : Nat)
    (calls : List Call) (c : Client) : R c (settleWithin depth calls c) := by
  induction depth generalizing calls c with
  | zero => exact hrefl c
  | succ depth ihDepth =>
    induction calls generalizing c with
    | nil => exact hrefl c
    | cons call rest ihRest =>
      rw [settleWithin_cons]
      exact htrans (htrans (hcall call c) (ihDepth _ _)) (ihRest _)

theorem settle_rel {R : Client → Client → Prop} (hrefl : ∀ c, R c c)
    (htrans : ∀ {c d e}, R c d → R d e → R c e)
    (hcall : ∀ call c, R c (c.perform call).2.observeReservation) (calls : List Call)
    (c : Client) : R c (c.settle calls) :=
  settleWithin_rel hrefl htrans hcall nestingLimit calls c

theorem settleWithin_of_isQuiet (depth : Nat) {calls : List Call} (h : ∀ call ∈ calls, call.IsQuiet)
    {c : Client} (hfree : c.reservation = none) :
    settleWithin (depth + 1) calls c =
      { c with
        cache := calls.foldl (fun c call => call.onCache c) c.cache
        journal := c.journal ++ calls.flatMap Call.lines } := by
  induction calls generalizing c with
  | nil => simp
  | cons call rest ih =>
    have hrest : ∀ call ∈ rest, call.IsQuiet := fun call hmem =>
      h call (List.mem_cons_of_mem _ hmem)
    rw [settleWithin_cons, perform_of_isQuiet (h call List.mem_cons_self), settleWithin_nil]
    dsimp only
    rw [observeReservation_of_none, ih hrest]
    · simp
    all_goals exact hfree

theorem nestingLimit_eq : nestingLimit = 998 + 1 + 1 := rfl

theorem settle_singleton (call : Call) (c : Client) :
    c.settle [call] =
      settleWithin (998 + 1) (c.perform call).1 (c.perform call).2.observeReservation := by
  unfold settle
  rw [nestingLimit_eq, settleWithin_cons, settleWithin_nil]

theorem settle_cons (call : Call) (rest : List Call) (c : Client) :
    c.settle (call :: rest) = (c.settle [call]).settle rest := by
  rw [settle_singleton]
  unfold settle
  rw [nestingLimit_eq, settleWithin_cons]

theorem settle_notes (lines : List String) {c : Client} (h : c.observeReservation = c) :
    c.settle (lines.map .note) = { c with journal := c.journal ++ lines } := by
  induction lines generalizing c with
  | nil => simp [settle]
  | cons line rest ih =>
    have hnoted : (c.note line).observeReservation = c.note line := congrArg (note line) h
    have hstep : c.settle [.note line] = c.note line := by
      rw [settle_singleton, perform, settleWithin_nil, hnoted]
    rw [List.map_cons, settle_cons, hstep, ih hnoted]
    simp [note]

/-- Listeners that are quiet do to the cache what they are there for, and write their lines. -/
theorem announce_of_isQuiet {c : Client} {address : String}
    (hquiet : ∀ l ∈ c.hub.listeners address, l.IsQuiet) (hfree : c.reservation = none) :
    c.announce address =
      { c with
        cache := (c.announcement address).foldl (fun cache call => call.onCache cache) c.cache
        journal := c.journal ++ (c.announcement address).flatMap Call.lines } := by
  have hcalls : ∀ call ∈ c.announcement address, call.IsQuiet := by
    intro call hcall
    obtain ⟨l, hl, rfl⟩ := List.mem_map.1 hcall
    exact hquiet l hl
  rw [announce, settle_singleton, perform, react, observeReservation_of_none hfree,
    settleWithin_of_isQuiet 998 hcalls hfree]

theorem announce_eq {c : Client} (h : c.cache.InSync) (hfree : c.reservation = none)
    (address : String) :
    c.announce address =
      { c with
        cache := c.cache.notify address
        journal := c.journal ++ (c.announcement address).flatMap Call.lines } := by
  rw [announce_of_isQuiet (fun _ => h.quiet_of_mem_listeners) hfree]
  congr 1
  exact LiveCache.foldl_listeners h address

theorem setConnected_of_isQuiet {c : Client} {connected : Bool}
    (hquiet : ∀ l ∈ (c.hub.setConnected connected).1, l.IsQuiet) (hfree : c.reservation = none) :
    c.setConnected connected =
      { c with
        cache := ((c.hub.setConnected connected).1.map Call.lost).foldl
          (fun cache call => call.onCache cache)
          { c.cache with hub := (c.hub.setConnected connected).2 }
        journal := c.journal ++
          ((c.hub.setConnected connected).1.map Call.lost).flatMap Call.lines } := by
  have hcalls : ∀ call ∈ (c.hub.setConnected connected).1.map Call.lost, call.IsQuiet := by
    intro call hcall
    obtain ⟨l, hl, rfl⟩ := List.mem_map.1 hcall
    exact hquiet l hl
  rw [setConnected, settle_singleton, perform, react]
  dsimp only
  rw [observeReservation_of_none, settleWithin_of_isQuiet 998 hcalls]
  · rfl
  all_goals exact hfree

theorem setConnected_eq {c : Client} (h : c.cache.InSync) (hfree : c.reservation = none)
    (connected : Bool) :
    c.setConnected connected =
      { c with
        cache := c.cache.setConnection connected
        journal := c.journal ++
          ((c.hub.setConnected connected).1.map Call.lost).flatMap Call.lines } := by
  have hquiet : ∀ l ∈ (c.hub.setConnected connected).1, l.IsQuiet := by
    intro l hl
    rw [Hub.fst_setConnected] at hl
    split at hl
    · obtain ⟨p, hp, rfl⟩ := List.mem_map.1 hl
      exact h.quietOnLoss p hp
    · exact absurd hl List.not_mem_nil
  rw [setConnected_of_isQuiet hquiet hfree]
  congr 1
  unfold LiveCache.setConnection
  rw [hub, Hub.fst_setConnected]
  split
  · exact LiveCache.foldl_lost h _
  · rfl

theorem receive_eq (text : String) (c : Client) :
    c.receive text =
      match PushEvent.ofText? text with
      | some event => event.addresses.foldl (fun c address => c.announce address) c
      | none => c := by
  unfold receive
  cases PushEvent.ofText? text with
  | none => rfl
  | some event =>
    dsimp only
    induction event.addresses generalizing c with
    | nil => rfl
    | cons address rest ih =>
      rw [List.map_cons, settle_cons, ih]
      rfl

end Client

end ResourceClient

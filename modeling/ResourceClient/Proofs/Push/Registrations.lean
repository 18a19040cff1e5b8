import ResourceClient.Push.Hub

namespace ResourceClient.Hub

variable {α : Type u} (hub : Hub α) (action : PushAction) (address key : String) (listener : α)
  (id : Nat)

@[simp] theorem nextId_send : (hub.send action key).nextId = hub.nextId := by
  unfold send
  split <;> rfl

@[simp] theorem lossListeners_send : (hub.send action key).lossListeners = hub.lossListeners := by
  unfold send
  split <;> rfl

@[simp] theorem nextId_register : (hub.register address listener).2.nextId = hub.nextId + 1 := by
  dsimp only [register]
  split <;> simp

@[simp] theorem connected_register :
    (hub.register address listener).2.connected = hub.connected := by
  dsimp only [register]
  split <;> simp

@[simp] theorem lossListeners_register :
    (hub.register address listener).2.lossListeners = hub.lossListeners := by
  dsimp only [register]
  split <;> simp

@[simp] theorem fst_register : (hub.register address listener).1 = hub.nextId := rfl

@[simp] theorem nextId_unregister : (hub.unregister id).nextId = hub.nextId := by
  unfold unregister
  split
  · rfl
  · dsimp only
    split <;> simp

@[simp] theorem connected_unregister : (hub.unregister id).connected = hub.connected := by
  unfold unregister
  split
  · rfl
  · dsimp only
    split <;> simp

@[simp] theorem lossListeners_unregister :
    (hub.unregister id).lossListeners = hub.lossListeners := by
  unfold unregister
  split
  · rfl
  · dsimp only
    split <;> simp

private theorem foldl_subscribe (keys : List String) :
    (keys.foldl (fun h key => h.send .subscribe key) hub).subscriptions = hub.subscriptions ∧
      (keys.foldl (fun h key => h.send .subscribe key) hub).nextId = hub.nextId ∧
      (keys.foldl (fun h key => h.send .subscribe key) hub).lossListeners = hub.lossListeners ∧
      (keys.foldl (fun h key => h.send .subscribe key) hub).connected = hub.connected := by
  induction keys generalizing hub with
  | nil => exact ⟨rfl, rfl, rfl, rfl⟩
  | cons key rest ih =>
    rw [List.foldl_cons]
    simpa using ih (hub.send .subscribe key)

variable (connected : Bool)

@[simp] theorem subscriptions_setConnected :
    (hub.setConnected connected).2.subscriptions = hub.subscriptions := by
  unfold setConnected
  dsimp only
  split
  · exact (foldl_subscribe _ _).1
  · split <;> rfl

@[simp] theorem nextId_setConnected : (hub.setConnected connected).2.nextId = hub.nextId := by
  unfold setConnected
  dsimp only
  split
  · exact (foldl_subscribe _ _).2.1
  · split <;> rfl

@[simp] theorem lossListeners_setConnected :
    (hub.setConnected connected).2.lossListeners = hub.lossListeners := by
  unfold setConnected
  dsimp only
  split
  · exact (foldl_subscribe _ _).2.2.1
  · split <;> rfl

@[simp] theorem connected_setConnected : (hub.setConnected connected).2.connected = connected := by
  unfold setConnected
  dsimp only
  split
  · exact (foldl_subscribe _ _).2.2.2
  · split <;> rfl

theorem fst_setConnected :
    (hub.setConnected connected).1 =
      if connected = false ∧ hub.connected = true then hub.lossListeners.map (·.2) else [] := by
  unfold setConnected
  cases connected <;> cases hub.connected <;> rfl

end ResourceClient.Hub

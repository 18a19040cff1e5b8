import ResourceClient.Cache.LiveCache

/-! A cache is read through its slots, its flights and its hub. Each operation is described once by
what it does to these three, so later arguments never look at the list of entries again. -/
namespace ResourceClient.LiveCache

variable (c : LiveCache) (key subkey other sub : String) (ticket : Ticket)

theorem mem_of_entryAt? {c : LiveCache} {key : String} {e : Entry} (h : c.entryAt? key = some e) :
    e ∈ c.entries :=
  List.mem_of_find?_eq_some h

theorem entryAt?_isSome_of_slot? {c : LiveCache} {key subkey : String} {ticket : Ticket}
    (h : c.slot? key subkey = some ticket) : (c.entryAt? key).isSome = true := by
  unfold slot? at h
  cases hentry : c.entryAt? key with
  | none => simp [hentry] at h
  | some e => rfl

theorem slot?_congr {c d : LiveCache} (h : c.entries = d.entries) : c.slot? = d.slot? := by
  funext key subkey
  simp only [slot?, entryAt?, h]

@[simp] theorem slot?_ensure : (c.ensure key).slot? other sub = c.slot? other sub := by
  by_cases h : other = key
  · subst h
    unfold ensure
    cases hentry : c.entryAt? other with
    | some e => rfl
    | none =>
      have hnone : c.entries.find? (·.key = other) = none := hentry
      simp [slot?, entryAt?, List.find?_append, hnone]
  · simp [slot?, entryAt?_ensure key c other h]

theorem slot?_fill_eq_ite :
    (c.fill key subkey ticket).slot? other sub =
      if other = key ∧ sub = subkey ∧ (c.entryAt? key).isSome then some ticket
      else c.slot? other sub := by
  unfold fill slot?
  rw [entryAt?_updateEntry key (fun e => { e with slots := Table.insert subkey ticket e.slots })
    (fun _ => rfl)]
  cases hentry : c.entryAt? other with
  | none =>
    have hkey : ¬ (other = key ∧ sub = subkey ∧ (c.entryAt? key).isSome) := by
      rintro ⟨rfl, -, hsome⟩
      simp [hentry] at hsome
    rw [if_neg hkey]
    rfl
  | some e =>
    have hother := key_of_entryAt? hentry
    by_cases hkey : other = key
    · subst hkey
      simp [hother, Table.get?_insert, hentry]
    · simp [hother, hkey]

theorem slot?_empty :
    (c.empty key subkey).slot? other sub =
      if other = key ∧ sub = subkey then none else c.slot? other sub := by
  unfold empty slot?
  rw [entryAt?_updateEntry key (fun e => { e with slots := Table.erase subkey e.slots })
    (fun _ => rfl)]
  cases hentry : c.entryAt? other with
  | none => split <;> rfl
  | some e =>
    have hother := key_of_entryAt? hentry
    by_cases hkey : other = key
    · subst hkey
      simp [hother, Table.get?_erase]
    · simp [hother, hkey]

@[simp] theorem slot?_addFlight (flight : Flight) : (c.addFlight flight).2.slot? = c.slot? := rfl

@[simp] theorem slot?_setFlight (flight : Flight) :
    (c.setFlight ticket flight).slot? = c.slot? := rfl

theorem slot?_forgetKey :
    (c.forgetKey key).slot? other sub = if other = key then none else c.slot? other sub := by
  unfold slot?
  rw [entryAt?_forgetKey]
  split <;> rfl

theorem slot?_put (address : String) (resource : Resource) :
    (c.put address subkey resource).slot? other sub =
      if c.isLive ∧ other = Address.key address ∧ sub = subkey then some c.flights.length
      else c.slot? other sub := by
  unfold put
  by_cases hlive : c.isLive = true
  · have hsome : (((c.ensure (Address.key address)).addFlight
        (.landed (.ok resource))).2.entryAt? (Address.key address)).isSome = true :=
      entryAt?_ensure_self _ c
    have hlength : (c.ensure (Address.key address)).flights.length = c.flights.length := by
      unfold ensure
      split <;> rfl
    simp only [hlive, if_true, slot?_fill_eq_ite, hsome, slot?_addFlight, slot?_ensure, true_and,
      and_true]
    rw [show ((c.ensure (Address.key address)).addFlight (.landed (.ok resource))).1 =
      c.flights.length from hlength]
  · simp [hlive]

theorem slot?_foldl_forget (addresses : List String) :
    (addresses.foldl (fun c address => c.forget address) c).slot? other sub =
      if other ∈ addresses.map Address.key then none else c.slot? other sub := by
  induction addresses generalizing c with
  | nil => rfl
  | cons address rest ih =>
    rw [List.foldl_cons, ih, forget, slot?_forgetKey]
    by_cases hhead : other = Address.key address <;> simp [hhead]

theorem slot?_forgetTouched (report : Report) (posted : List String) :
    (c.forgetTouched report posted).slot? other sub =
      if other ∈ (touched report posted).map Address.key then none else c.slot? other sub :=
  slot?_foldl_forget c other sub (touched report posted)

theorem slot?_land (outcome : Except Fault Resource) :
    (c.land ticket key subkey outcome).slot? other sub =
      if outcome.isOk = false ∧ other = key ∧ sub = subkey ∧
          c.slot? key subkey = some ticket then none
      else c.slot? other sub := by
  unfold land
  cases outcome with
  | ok resource => simp [Except.isOk, Except.toBool]
  | error fault =>
    dsimp only
    rw [slot?_setFlight]
    by_cases hholds : c.slot? key subkey = some ticket
    · rw [if_pos hholds, slot?_empty, slot?_setFlight]
      simp [hholds, Except.isOk, Except.toBool]
    · rw [if_neg hholds, slot?_setFlight, if_neg fun h => hholds h.2.2.2]

theorem slot?_of_land {outcome : Except Fault Resource} {holder : Ticket}
    (h : (c.land ticket key subkey outcome).slot? other sub = some holder) :
    c.slot? other sub = some holder := by
  rw [slot?_land] at h
  split at h
  · cases h
  · exact h

theorem entries_foldl_forgetKey (entries : List Entry) :
    (entries.foldl (fun c e => c.forgetKey e.key) c).entries =
      c.entries.filter fun e => e.key ∉ entries.map (·.key) := by
  induction entries generalizing c with
  | nil => exact (List.filter_eq_self.2 fun _ _ => by simp).symm
  | cons head rest ih =>
    rw [List.foldl_cons, ih]
    have hhead : (c.forgetKey head.key).entries = c.entries.filter (·.key ≠ head.key) := by
      unfold forgetKey
      split
      · next hnone =>
        refine (List.filter_eq_self.2 fun e he => ?_).symm
        have habsent := List.find?_eq_none.1 hnone e he
        simpa using habsent
      · rfl
    rw [hhead, List.filter_filter]
    congr 1
    funext e
    by_cases he : e.key = head.key <;> simp [he]

@[simp] theorem entries_forgetAll : c.forgetAll.entries = [] := by
  rw [forgetAll, entries_foldl_forgetKey, List.filter_eq_nil_iff]
  intro e he
  simpa using ⟨e, he, rfl⟩

@[simp] theorem slot?_forgetAll : c.forgetAll.slot? other sub = none := by
  simp [slot?, entryAt?]

theorem entryAt?_foldl_forget (addresses : List String) :
    (addresses.foldl (fun c address => c.forget address) c).entryAt? other =
      if other ∈ addresses.map Address.key then none else c.entryAt? other := by
  induction addresses generalizing c with
  | nil => rfl
  | cons address rest ih =>
    rw [List.foldl_cons, ih, forget, entryAt?_forgetKey]
    by_cases hhead : other = Address.key address <;> simp [hhead]

theorem entryAt?_forgetTouched (report : Report) (posted : List String) :
    (c.forgetTouched report posted).entryAt? other =
      if other ∈ (touched report posted).map Address.key then none else c.entryAt? other :=
  entryAt?_foldl_forget c other (touched report posted)

theorem mem_touched {report : Report} {posted : List String} {address : String} :
    address ∈ touched report posted ↔
      (∃ p ∈ report.changedDescendants, address = Address.key p) ∨
        ∃ p ∈ report.created ++ report.modified ++ report.removed ++ posted,
          address = Address.key p ∨ address = Address.parent p := by
  unfold touched
  generalize report.created ++ report.modified ++ report.removed ++ posted = moved
  simp [eq_comm]

theorem mem_touched_keys {report : Report} {posted : List String} {key : String} :
    key ∈ (touched report posted).map Address.key ↔
      (∃ p ∈ report.changedDescendants, key = Address.key p) ∨
        ∃ p ∈ report.created ++ report.modified ++ report.removed ++ posted,
          key = Address.key p ∨ key = Address.key (Address.parent p) := by
  rw [List.mem_map]
  constructor
  · rintro ⟨address, hmem, rfl⟩
    rcases mem_touched.1 hmem with ⟨p, hp, rfl⟩ | ⟨p, hp, rfl | rfl⟩
    · exact .inl ⟨p, hp, Address.key_key p⟩
    · exact .inr ⟨p, hp, .inl (Address.key_key p)⟩
    · exact .inr ⟨p, hp, .inr rfl⟩
  · rintro (⟨p, hp, rfl⟩ | ⟨p, hp, rfl | rfl⟩)
    · exact ⟨_, mem_touched.2 (.inl ⟨p, hp, rfl⟩), Address.key_key p⟩
    · exact ⟨_, mem_touched.2 (.inr ⟨p, hp, .inl rfl⟩), Address.key_key p⟩
    · exact ⟨_, mem_touched.2 (.inr ⟨p, hp, .inr rfl⟩), rfl⟩

theorem entryAt?_forgetTouched_of_posted {report : Report} {posted : List String}
    {address : String} (h : address ∈ posted) :
    (c.forgetTouched report posted).entryAt? (Address.key address) = none ∧
      (c.forgetTouched report posted).entryAt? (Address.key (Address.parent address)) = none := by
  have hmoved := List.mem_append_right (report.created ++ report.modified ++ report.removed) h
  simp only [entryAt?_forgetTouched]
  refine ⟨if_pos (mem_touched_keys.2 (.inr ⟨address, hmoved, .inl rfl⟩)),
    if_pos (mem_touched_keys.2 (.inr ⟨address, hmoved, .inr rfl⟩))⟩

@[simp] theorem flights_ensure : (c.ensure key).flights = c.flights := by
  unfold ensure
  split <;> rfl

@[simp] theorem flights_fill : (c.fill key subkey ticket).flights = c.flights := rfl

@[simp] theorem flights_empty : (c.empty key subkey).flights = c.flights := rfl

@[simp] theorem flights_forgetKey : (c.forgetKey key).flights = c.flights := by
  unfold forgetKey
  split <;> rfl

theorem flights_put (address : String) (resource : Resource) :
    (c.put address subkey resource).flights =
      if c.isLive then c.flights ++ [.landed (.ok resource)] else c.flights := by
  unfold put
  split
  · simp [addFlight]
  · rfl

@[simp] theorem flights_foldl_forget (addresses : List String) :
    (addresses.foldl (fun c address => c.forget address) c).flights = c.flights := by
  induction addresses generalizing c with
  | nil => rfl
  | cons address rest ih => rw [List.foldl_cons, ih, forget, flights_forgetKey]

@[simp] theorem flights_forgetTouched (report : Report) (posted : List String) :
    (c.forgetTouched report posted).flights = c.flights :=
  flights_foldl_forget c (touched report posted)

@[simp] theorem flights_foldl_forgetKey (entries : List Entry) :
    (entries.foldl (fun c e => c.forgetKey e.key) c).flights = c.flights := by
  induction entries generalizing c with
  | nil => rfl
  | cons head rest ih => rw [List.foldl_cons, ih, flights_forgetKey]

@[simp] theorem flights_forgetAll : c.forgetAll.flights = c.flights :=
  flights_foldl_forgetKey c c.entries

@[simp] theorem flights_land (outcome : Except Fault Resource) :
    (c.land ticket key subkey outcome).flights = c.flights.set ticket (.landed outcome) := by
  unfold land
  cases outcome with
  | ok resource => rfl
  | error fault =>
    dsimp only
    split <;> rfl

end ResourceClient.LiveCache

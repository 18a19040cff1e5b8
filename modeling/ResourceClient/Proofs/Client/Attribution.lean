import ResourceClient.Proofs.Client.Ledger
import ResourceClient.Proofs.Client.FirstRequests

/-!
Turns of calls keep every slot attributed to the present user. Each thing that a call does between
two waits is looked at once: it leaves a guarded world, which succeeds the one before.
-/
namespace ResourceClient

variable {σ : Type} {w v u : World (Ledger σ)} {credentials : Option Credentials} {since : Nat}
  {ticket : Ticket}

/-- From `start` to a guarded world that succeeds it. -/
structure Advances (w v : World (Ledger σ)) : Prop where
  guarded : Guarded v
  succeeds : Succeeds w v

theorem Advances.trans (h : Advances w v) (h' : Advances v u) : Advances w u :=
  ⟨h'.guarded, h.succeeds.trans h'.succeeds⟩

namespace Guarded

theorem refl (h : Guarded w) : Advances w w := ⟨h, .refl w⟩

theorem record (h : Guarded w) (happening : Happening) : Advances w (w.record happening) where
  guarded := ⟨h.inSync, h.connected, h.free, h.awaiting, h.attributed, h.within⟩
  succeeds := ⟨List.prefix_refl _, fun _ _ hflight => .inl hflight⟩

theorem shrink (h : Guarded w) {d : Client} (hd : w.client.Shrinks d) :
    Advances w { w with client := d } := by
  have hflight : ∀ ticket, World.flight? { w with client := d } ticket = w.flight? ticket :=
    fun ticket => congrArg (·[ticket]?) hd.flights
  have hsucceeds : Succeeds w { w with client := d } :=
    ⟨List.prefix_refl _, fun ticket flight hw => .inl (by rw [hflight, hw])⟩
  refine ⟨h.step hsucceeds (hd.inSync h.inSync) (hd.connected.trans h.connected)
    (hd.reservation.trans h.free) ?_ hd.credentials rfl fun hslot => .inl (hd.slots hslot),
    hsucceeds⟩
  intro ticket key subkey job hrunning
  rw [hflight] at hrunning
  exact h.awaiting hrunning

theorem fetchAnswer (h : Guarded w) (net : Network σ) (request : Request) :
    Advances w (w.fetchAnswer net.recorded request).2 := by
  have hsucceeds : Succeeds w (w.fetchAnswer net.recorded request).2 :=
    ⟨⟨_, rfl⟩, fun _ _ hflight => .inl hflight⟩
  exact ⟨h.step hsucceeds h.inSync h.connected h.free h.awaiting rfl rfl .inl, hsucceeds⟩

theorem succeeds_of_snoc {flight : Flight} (hlog : w.remote.log <+: v.remote.log)
    (hflights : v.client.cache.flights = w.client.cache.flights ++ [flight]) : Succeeds w v where
  log := hlog
  flights := by
    intro ticket old hold
    have hlt := (List.getElem?_eq_some_iff.1 hold).1
    left
    unfold World.flight?
    rw [hflights, List.getElem?_append_left hlt]
    exact hold

theorem addFlight (h : Guarded w) {flight : Flight}
    (hflights : v.client.cache.flights = w.client.cache.flights ++ [flight])
    (hsync : v.client.cache.InSync) (hconnected : v.client.cache.hub.connected = true)
    (hfree : v.client.reservation = none) (hremote : v.remote = w.remote)
    (hcredentials : v.client.credentials = w.client.credentials)
    (hslots : ∀ {key subkey ticket}, v.client.cache.slot? key subkey = some ticket →
      w.client.cache.slot? key subkey = some ticket ∨ ticket = w.client.cache.flights.length)
    (hflight : (∃ key subkey plan request, flight = .running key subkey (.answer plan request) ∧
        plan.Sends request ∧ request.headers = headersOf w.client.credentials) ∨
      ∃ outcome, flight = .landed outcome ∧ ∀ r, outcome = .ok r →
        Sourced w.remote.log w.client.credentials w.remote.since r) :
    Advances w v ∧
      Attributed v w.client.credentials w.remote.since w.client.cache.flights.length := by
  have hsucceeds : Succeeds w v := succeeds_of_snoc (hremote ▸ List.prefix_refl _) hflights
  have hnew : v.flight? w.client.cache.flights.length = some flight := by
    unfold World.flight?
    rw [hflights]
    simp
  have hattributed :
      Attributed v w.client.credentials w.remote.since w.client.cache.flights.length := by
    unfold Attributed
    rw [hnew, hremote]
    rcases hflight with ⟨key, subkey, plan, request, rfl, -, hheaders⟩ | ⟨outcome, rfl, hsource⟩
    · exact .inl ⟨key, subkey, plan, request, rfl, hheaders⟩
    · exact .inr ⟨outcome, rfl, hsource⟩
  refine ⟨⟨h.step hsucceeds hsync hconnected hfree ?_ hcredentials (hremote ▸ rfl) ?_,
    hsucceeds⟩, hattributed⟩
  · intro ticket key subkey job hrunning
    unfold World.flight? at hrunning
    rw [hflights] at hrunning
    rcases LiveCache.getElem?_snoc_iff.1 hrunning with hold | ⟨-, rfl⟩
    · exact h.awaiting hold
    · rcases hflight with ⟨_, _, plan, request, heq, hsends, -⟩ | ⟨_, heq, -⟩
      · cases heq
        exact ⟨plan, request, rfl, hsends⟩
      · cases heq
  · intro key subkey ticket hslot
    rcases hslots hslot with hold | rfl
    · exact .inl hold
    · exact .inr hattributed

theorem put (h : Guarded w) (address subkey : String) {resource : Resource}
    (hsource : Sourced w.remote.log w.client.credentials w.remote.since resource) :
    Advances w (w.mapClient (Client.mapCache (LiveCache.put address subkey resource))) := by
  have hflights := LiveCache.flights_put w.client.cache subkey address resource
  rw [if_pos h.isLive] at hflights
  let after := w.mapClient (Client.mapCache (LiveCache.put address subkey resource))
  refine (h.addFlight (v := after) hflights (h.inSync.put subkey address resource)
    ((LiveCache.connected_put _ _ _ _).trans h.connected) h.free rfl rfl ?_ ?_).1
  · intro key sub ticket hslot
    have hput := LiveCache.slot?_put w.client.cache subkey key sub address resource
    have hslot := hput.symm.trans hslot
    split at hslot
    · exact .inr (by simpa using hslot.symm)
    · exact .inl hslot
  · exact .inr ⟨.ok resource, rfl, by rintro r ⟨⟩; exact hsource⟩

theorem putAll (h : Guarded w) (seeds : List Wire.Seed)
    (hsource : ∀ s ∈ seeds,
      Sourced w.remote.log w.client.credentials w.remote.since s.resource) :
    Advances w { w with
      client := { w.client with
        cache := seeds.foldl (fun d s => d.put s.address "" s.resource) w.client.cache } } := by
  induction seeds generalizing w with
  | nil => exact h.refl
  | cons s rest ih =>
    have hstep := h.put s.address "" (hsource s List.mem_cons_self)
    refine hstep.trans ?_
    exact ih hstep.guarded fun t ht => hsource t (List.mem_cons_of_mem _ ht)

theorem absorb (h : Guarded w) {plan : Fetch} {i : Nat} {e : Exchange}
    (hsends : plan.Sends e.request) (hi : w.remote.log[i]? = some e) (hsince : w.remote.since ≤ i) :
    Advances w { w with client := (w.client.absorb plan e.answer).2 } := by
  obtain ⟨names, habsorb⟩ := w.client.exists_absorb plan e.answer
  have hput := h.putAll (w.client.seedsIn plan e.answer) fun s hs =>
    sourced_of_lists hi hsince ⟨plan, w.client, hsends, s, hs, rfl⟩
  rw [habsorb]
  exact hput.trans (hput.guarded.shrink (Client.shrinks_names _ names))

theorem log_fetchAnswer (w : World (Ledger σ)) (net : Network σ) (request : Request) :
    (w.fetchAnswer net.recorded request).2.remote.log[w.remote.log.length]? =
      some ⟨request, (w.fetchAnswer net.recorded request).1⟩ := by
  simp [World.fetchAnswer, Network.recorded]

theorem takeIn (h : Guarded w) (net : Network σ) {plan : Fetch} {request : Request}
    (hsends : plan.Sends request) :
    Advances w (w.takenIn net.recorded plan request) :=
  (h.fetchAnswer net request).trans
    ((h.fetchAnswer net request).guarded.absorb hsends (log_fetchAnswer w net request) h.within)

theorem land (h : Guarded w) {key subkey : String} {plan : Fetch} {request : Request}
    (hrunning : w.flight? ticket = some (.running key subkey (.answer plan request)))
    {outcome : Except Fault Resource}
    (hyields : ∀ r, outcome = .ok r → ∃ e ∈ w.remote.log, e.request = request ∧ e.Yields r) :
    Advances w (w.land ticket key subkey outcome) := by
  have hflights : (w.land ticket key subkey outcome).client.cache.flights =
      w.client.cache.flights.set ticket (.landed outcome) :=
    LiveCache.flights_land w.client.cache key subkey ticket outcome
  have hlt := (List.getElem?_eq_some_iff.1 hrunning).1
  have hsucceeds : Succeeds w (w.land ticket key subkey outcome) := by
    refine ⟨List.prefix_refl _, fun other flight hflight => ?_⟩
    unfold World.flight? at hflight ⊢
    rw [hflights, List.getElem?_set]
    by_cases hother : ticket = other
    · subst hother
      refine .inr ⟨key, subkey, plan, request, outcome, ?_, by simp [hlt], hyields⟩
      exact Option.some.inj (hflight.symm.trans hrunning)
    · simp [hother, hflight]
  refine ⟨h.step hsucceeds (h.inSync.land key subkey ticket outcome)
    ((LiveCache.connected_land _ _ _ _ _).trans h.connected) h.free ?_ rfl rfl ?_, hsucceeds⟩
  · intro other k s job hstill
    unfold World.flight? at hstill
    rw [hflights, List.getElem?_set] at hstill
    split at hstill
    · simp at hstill
    · exact h.awaiting hstill
  · intro k s other hslot
    exact .inl (LiveCache.slot?_of_land _ _ _ _ _ _ hslot)

theorem driveWhen (h : Guarded w) (net : Network σ) (arrived : Request → Bool) (ticket : Ticket) :
    Advances w (w.driveWhen net.recorded arrived ticket) := by
  obtain hsame | ⟨key, subkey, plan, request, hrunning, hdrive⟩ :=
    w.driveWhen_cases net.recorded arrived ticket fun hrunning =>
      let ⟨plan, request, hjob, _⟩ := h.awaiting hrunning
      ⟨plan, request, hjob⟩
  · exact hsame.symm ▸ h.refl
  · obtain ⟨_, _, hjob, hsends⟩ := h.awaiting hrunning
    obtain ⟨rfl, rfl⟩ := Job.answer.inj hjob
    have htaken := h.takeIn net hsends
    have hstill : (w.takenIn net.recorded plan request).flight? ticket =
        some (.running key subkey (.answer plan request)) := by
      unfold World.flight?
      rw [World.cache_takenIn]
      exact LiveCache.flight_foldl_put _ hrunning
    rw [hdrive]
    refine htaken.trans (htaken.guarded.land hstill fun r hr => ?_)
    exact ⟨_, List.mem_of_getElem? (log_fetchAnswer w net request), rfl, plan, _, hsends, hr⟩

theorem startRead (h : Guarded w) (net : Network σ) (arrived : Request → Bool)
    (address subkey : String) {plan : Fetch} (hplan : plan.Planned) :
    let sent := (w.readStarted address subkey plan).driveWhen net.recorded arrived
      w.client.cache.flights.length
    Advances w sent ∧
      Attributed sent w.client.credentials w.remote.since w.client.cache.flights.length := by
  intro sent
  have hsync : (w.readStarted address subkey plan).client.cache.InSync :=
    h.inSync.start (Address.key_key address) subkey (.fetch plan)
  have hconnected : (w.readStarted address subkey plan).client.cache.hub.connected = true :=
    (LiveCache.connected_ensure w.client.cache (Address.key address)).trans h.connected
  have hsent : sent = _ := w.driveWhen_readStarted net.recorded arrived address subkey plan
  rw [hsent]
  cases hrequest : w.client.fetchRequest plan with
  | error fault =>
    refine h.addFlight (w.flights_land_readStarted address subkey plan fault)
      (hsync.land _ _ _ (.error fault)) ((LiveCache.connected_land _ _ _ _ _).trans hconnected)
      rfl rfl rfl ?_ (.inr ⟨.error fault, rfl, nofun⟩)
    intro other sub t hslot
    rw [World.slot?_land_readStarted] at hslot
    split at hslot
    · cases hslot
    · exact .inl hslot
  | ok request =>
    refine h.addFlight (w.flights_readRequested address subkey plan request) (hsync.setFlight _ _)
      hconnected rfl rfl rfl ?_
      (.inl ⟨_, subkey, plan, request, rfl, ⟨hplan, _, hrequest⟩, headers_fetchRequest hrequest⟩)
    intro other sub t hslot
    rw [World.slot?_readRequested] at hslot
    split at hslot
    · exact .inr (Option.some.inj hslot).symm
    · exact .inl hslot

theorem opened (config : Config) (schema : Schema) (remote : σ) :
    Guarded { client := Client.opened config schema true, remote := { remote } } where
  inSync := (Client.steady_opened config schema true).inSync
  connected := rfl
  free := rfl
  awaiting := fun hrunning => by simp [World.flight?, Client.opened, LiveCache.onHub] at hrunning
  attributed := fun hslot => by
    simp [Client.opened, LiveCache.onHub, LiveCache.slot?, LiveCache.entryAt?] at hslot
  within := Nat.le_refl _

theorem setCredentials (h : Guarded w) (credentials : Option Credentials) :
    Advances w { w with
      client := w.client.setCredentials credentials
      remote := { w.remote with since := w.remote.log.length } } := by
  have hflight : ∀ ticket, (w.client.setCredentials credentials).cache.flights[ticket]? =
      w.flight? ticket := fun ticket => congrArg (·[ticket]?) (LiveCache.flights_forgetAll _)
  refine ⟨⟨h.inSync.forgetAll, ?_, h.free, ?_, ?_, Nat.le_refl _⟩, List.prefix_refl _, ?_⟩
  · exact (LiveCache.connected_forgetAll w.client.cache).trans h.connected
  · intro ticket key subkey job hrunning
    exact h.awaiting ((hflight ticket).symm.trans hrunning)
  · intro key subkey ticket hslot
    have hempty := LiveCache.slot?_forgetAll w.client.cache key subkey
    exact absurd (hempty.symm.trans hslot) nofun
  · intro ticket flight hold
    exact .inl ((hflight ticket).trans hold)

end Guarded

def attribution (net : Network σ) : RelyGuarantee net.recorded where
  holds := Guarded
  leads := Succeeds
  refl := Succeeds.refl
  trans := Succeeds.trans
  drive := fun arrived ticket h =>
    ⟨(h.driveWhen net arrived ticket).guarded, (h.driveWhen net arrived ticket).succeeds⟩

end ResourceClient

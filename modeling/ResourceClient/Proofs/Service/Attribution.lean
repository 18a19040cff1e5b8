import ResourceClient.Proofs.Client.Attribution
import ResourceClient.Proofs.Service.Guarantees

/-!
Calls keep every slot of the cache attributed to the present user, whatever goes on while they wait;
a get also answers in the name of the user it was begun by.
-/
namespace ResourceClient

open RelyGuarantee Service

variable {σ α β : Type} {net : Network σ} {start w : World (Ledger σ)}
  {credentials : Option Credentials} {since : Nat}

def Accounted (credentials : Option Credentials) (since : Nat) (result : Except Fault Resource)
    (w : World (Ledger σ)) : Prop :=
  ∀ r, result = .ok r → Sourced w.remote.log credentials since r

theorem Attributed.accounted {ticket : Ticket} (h : Attributed w credentials since ticket)
    {outcome : Except Fault Resource} (houtcome : w.outcome? ticket = some outcome) :
    Accounted credentials since outcome w := by
  rcases h with ⟨_, _, _, _, hrunning, -⟩ | ⟨result, hlanded, hsourced⟩
  · simp [World.outcome?, hrunning, Flight.outcome?] at houtcome
  · obtain rfl : result = outcome := by
      simpa [World.outcome?, hlanded, Flight.outcome?] using houtcome
    exact hsourced

theorem keeps_join {ticket : Ticket}
    (h : ∀ arrived, Advances start (w.driveWhen net.recorded arrived ticket) ∧
      Attributed (w.driveWhen net.recorded arrived ticket) credentials since ticket) :
    (attribution net).Keeps ((attribution net).Ends (Accounted credentials since))
      (Action.join ticket).run start w := by
  intro arrived
  obtain ⟨hdriven, hattributed⟩ := h arrived
  refine ⟨fun outcome houtcome => ?_, fun _ => ⟨hdriven.guarded, hdriven.succeeds, ?_⟩⟩
  · exact ⟨hdriven.guarded, hdriven.succeeds, hattributed.accounted houtcome⟩
  · intro v hv hguarded again outcome houtcome
    have hagain := Guarded.driveWhen hguarded net again ticket
    have hstill := (hattributed.mono hv).mono hagain.succeeds
    exact ⟨hagain.guarded, hagain.succeeds, hstill.accounted houtcome⟩

theorem keeps_fetch (h : Advances start w) {plan : Fetch} (hplan : plan.Planned) :
    (attribution net).Keeps
      ((attribution net).Ends (Accounted w.client.credentials w.remote.since))
      (fetch plan).run start w := by
  apply keeps_action_bind
  apply keeps_look
  apply keeps_action_bind
  apply keeps_need
  cases hrequest : w.client.fetchRequest plan with
  | error fault =>
    refine ⟨h.guarded, h.succeeds, ?_⟩
    rintro r ⟨⟩
  | ok request =>
    have hsends : plan.Sends request := ⟨hplan, _, hrequest⟩
    have hsent := h.trans (h.guarded.record (.requested request))
    refine ⟨hsent.guarded, hsent.succeeds, fun v hv hguarded => ?_⟩
    have htaken := Guarded.takeIn hguarded net hsends
    refine ⟨htaken.guarded, htaken.succeeds, fun r hr => ?_⟩
    refine ⟨_, _, Guarded.log_fetchAnswer v net request, .inl ⟨?_, .inl ⟨plan, _, hsends, hr⟩⟩⟩
    exact headers_fetchRequest hrequest

theorem keeps_fetchShared (h : Advances start w) (address subkey : String) {plan : Fetch}
    (hplan : plan.Planned) :
    (attribution net).Keeps ((attribution net).Ends (Accounted w.client.credentials w.remote.since))
      (fetchShared address subkey plan).run start w := by
  apply keeps_action_bind
  apply keeps_act
  have hlease := Client.memoize_fetch address subkey plan w.client
  rw [h.guarded.isLive, if_pos rfl] at hlease
  cases hslot : w.client.cache.slot? (Address.key address) subkey with
  | some ticket =>
    rw [hslot] at hlease
    rw [hlease]
    refine keeps_join fun arrived => ?_
    have hdriven := h.guarded.driveWhen net arrived ticket
    exact ⟨h.trans hdriven, (h.guarded.attributed hslot).mono hdriven.succeeds⟩
  | none =>
    rw [hslot] at hlease
    rw [hlease]
    refine keeps_join fun arrived => ?_
    obtain ⟨hsent, hattributed⟩ := h.guarded.startRead net arrived address subkey hplan
    exact ⟨h.trans hsent, hattributed⟩

/-- A get is answered in the name of the user it was begun by. -/
theorem keeps_getWith (h : Advances start w) (path : Path) (params : Table String)
    (options : GetOptions) :
    (attribution net).Keeps ((attribution net).Ends (Accounted w.client.credentials w.remote.since))
      (getWith path params options).run start w := by
  have hfault : ∀ fault,
      (attribution net).Ends (Accounted w.client.credentials w.remote.since) start
        (.error fault) w :=
    fun fault => ⟨h.guarded, h.succeeds, fun r hr => nomatch hr⟩
  unfold getWith
  apply keeps_action_bind
  apply keeps_need
  cases requireReal "get" path with
  | error fault => exact hfault fault
  | ok address =>
    apply keeps_action_bind
    apply keeps_look
    apply keeps_action_bind
    apply keeps_need
    cases hplan : fetchPlan (w.client.url address) params options.warmup with
    | error fault => exact hfault fault
    | ok plan =>
      have hplanned : plan.Planned := ⟨_, _, _, hplan⟩
      dsimp only
      split
      · exact keeps_fetch h hplanned
      · exact keeps_fetchShared h _ _ hplanned

variable (net) in
theorem stable_attribution : (attribution net).Stable where
  record := fun happening h => ⟨(h.record happening).guarded, (h.record happening).succeeds⟩
  fetchAnswer := fun request h =>
    ⟨(h.fetchAnswer net request).guarded, (h.fetchAnswer net request).succeeds⟩
  shrink := fun h hd => ⟨(h.shrink hd).guarded, (h.shrink hd).succeeds⟩

variable (net) in
theorem stableUnderReads_attribution : (attribution net).StableUnderReads where
  toStable := stable_attribution net
  reads := by
    refine fun path params bypass => ⟨fun start w hholds hleads => ?_⟩
    apply Keeps.imp _ _ (keeps_getWith ⟨hholds, hleads⟩ path params { bypass })
    rintro start outcome w ⟨hholds, hleads, -⟩
    exact ⟨hholds, hleads, trivial⟩

end ResourceClient

import ResourceClient.Proofs.Address.Bases
import ResourceClient.Proofs.Client.FirstRequests
import ResourceClient.Proofs.Client.Polls
import ResourceClient.Proofs.Client.Shrinking

/-!
How slots are filled anew. As long as nothing is listed, whatever is in a slot that was empty has
been asked for since, by a flight that has started since.
-/
namespace ResourceClient

namespace World

variable {σ : Type} {config : Config} {u v w : World σ} {ticket : Ticket}

/-- Since `w`, it has been asked for what goes into the slot. -/
def AskedSince (w v : World σ) (key subkey : String) : Prop :=
  ∃ request, Happening.requested request ∈ v.trace.drop w.trace.length ∧
    request.method = .get ∧ Address.key request.url = key ∧
      Query.render request.params = subkey

/-- How the world may change while a call waits: more happens, and slots are filled only by flights
that have started meanwhile. -/
structure Renews (w v : World σ) : Prop where
  trace : w.trace <+: v.trace
  flights : w.client.cache.flights.length ≤ v.client.cache.flights.length
  slots : ∀ {key subkey ticket}, v.client.cache.slot? key subkey = some ticket →
    w.client.cache.slot? key subkey = some ticket ∨
      w.client.cache.flights.length ≤ ticket ∧ w.AskedSince v key subkey

theorem AskedSince.mono {key subkey : String} (h : w.AskedSince v key subkey)
    (hv : v.trace <+: u.trace) : w.AskedSince u key subkey := by
  obtain ⟨request, hmem, hrequest⟩ := h
  exact ⟨request, (hv.drop w.trace.length).subset hmem, hrequest⟩

theorem AskedSince.of_later {key subkey : String} (hw : w.trace <+: v.trace)
    (h : v.AskedSince u key subkey) : w.AskedSince u key subkey := by
  obtain ⟨request, hmem, hrequest⟩ := h
  exact ⟨request, List.drop_subset_drop_left _ hw.length_le hmem, hrequest⟩

theorem Renews.refl (w : World σ) : w.Renews w := ⟨List.prefix_refl _, Nat.le_refl _, .inl⟩

theorem Renews.trans (h : w.Renews v) (h' : v.Renews u) : w.Renews u where
  trace := h.trace.trans h'.trace
  flights := h.flights.trans h'.flights
  slots := by
    intro key subkey ticket hslot
    obtain hold | ⟨hlate, hasked⟩ := h'.slots hslot
    · exact (h.slots hold).imp_right (And.imp_right (·.mono h'.trace))
    · exact .inr ⟨h.flights.trans hlate, hasked.of_later h.trace⟩

/-- What holds of the client whenever nobody is in the middle of a turn, as long as nothing is
listed. -/
structure Plain (config : Config) (w : World σ) : Prop where
  inSync : w.client.cache.InSync
  connected : w.client.cache.hub.connected = true
  free : w.client.reservation = none
  config_eq : w.client.config = config
  awaiting : ∀ {ticket key subkey job}, w.flight? ticket = some (.running key subkey job) →
    ∃ plan request, job = .answer plan request ∧ plan.listing = none

namespace Plain

variable (h : w.Plain config)
include h

theorem isLive : w.client.cache.isLive = true := h.inSync.isLive h.connected

theorem record (happening : Happening) :
    (w.record happening).Plain config ∧ w.Renews (w.record happening) :=
  ⟨⟨h.inSync, h.connected, h.free, h.config_eq, h.awaiting⟩,
    ⟨⟨[happening], rfl⟩, Nat.le_refl _, .inl⟩⟩

theorem fetchAnswer (net : Network σ) (request : Request) :
    (w.fetchAnswer net request).2.Plain config ∧ w.Renews (w.fetchAnswer net request).2 :=
  ⟨⟨h.inSync, h.connected, h.free, h.config_eq, h.awaiting⟩,
    ⟨List.prefix_refl _, Nat.le_refl _, .inl⟩⟩

theorem shrink {d : Client} (hd : w.client.Shrinks d) :
    Plain config { w with client := d } ∧ w.Renews { w with client := d } := by
  refine ⟨⟨hd.inSync h.inSync, hd.connected.trans h.connected, hd.reservation.trans h.free,
    hd.config.trans h.config_eq, ?_⟩,
    ⟨List.prefix_refl _, Nat.le_of_eq (congrArg List.length hd.flights).symm,
      fun hslot => .inl (hd.slots hslot)⟩⟩
  intro ticket key subkey job hrunning
  have hflight : World.flight? { w with client := d } ticket = w.flight? ticket :=
    congrArg (·[ticket]?) hd.flights
  exact h.awaiting (hflight.symm.trans hrunning)

theorem land (ticket : Ticket) (key subkey : String) (outcome : Except Fault Resource) :
    (w.land ticket key subkey outcome).Plain config ∧
      w.Renews (w.land ticket key subkey outcome) := by
  have hflights := LiveCache.flights_land w.client.cache key subkey ticket outcome
  refine ⟨⟨h.inSync.land key subkey ticket outcome,
    (LiveCache.connected_land _ _ _ _ _).trans h.connected, h.free, h.config_eq, ?_⟩,
    ⟨List.prefix_refl _, ?_, fun hslot => .inl (LiveCache.slot?_of_land _ _ _ _ _ _ hslot)⟩⟩
  · intro other k s job hrunning
    change (w.client.cache.land ticket key subkey outcome).flights[other]? = _ at hrunning
    rw [hflights, List.getElem?_set] at hrunning
    split at hrunning
    · simp at hrunning
    · exact h.awaiting hrunning
  · change _ ≤ (w.client.cache.land ticket key subkey outcome).flights.length
    rw [hflights, List.length_set]

theorem driveWhen (net : Network σ) (arrived : Request → Bool) (ticket : Ticket) :
    (w.driveWhen net arrived ticket).Plain config ∧ w.Renews (w.driveWhen net arrived ticket) := by
  obtain hsame | ⟨key, subkey, plan, request, hrunning, hdrive⟩ :=
    w.driveWhen_cases net arrived ticket fun hrunning =>
      let ⟨plan, request, hjob, _⟩ := h.awaiting hrunning
      ⟨plan, request, hjob⟩
  · exact hsame.symm ▸ ⟨h, .refl w⟩
  · obtain ⟨_, _, hjob, hplain⟩ := h.awaiting hrunning
    obtain ⟨rfl, rfl⟩ := Job.answer.inj hjob
    let there := w.fetchAnswer net request
    obtain ⟨hanswered, hanswer⟩ := h.fetchAnswer net request
    obtain ⟨names, hnames⟩ := there.2.client.snd_absorb hplain there.1
    obtain ⟨htaken, htake⟩ := hanswered.shrink (there.2.client.shrinks_names names)
    rw [← hnames] at htaken htake
    obtain ⟨hlanded, hland⟩ := htaken.land ticket key subkey
      (there.2.client.absorb plan there.1).1
    exact hdrive.symm ▸ ⟨hlanded, (hanswer.trans htake).trans hland⟩

theorem awaiting_snoc {flight : Flight}
    (hflights : v.client.cache.flights = w.client.cache.flights ++ [flight])
    (hflight : ∀ key subkey job, flight = .running key subkey job →
      ∃ plan request, job = .answer plan request ∧ plan.listing = none)
    {ticket : Ticket} {key subkey : String} {job : Job}
    (hrunning : v.flight? ticket = some (.running key subkey job)) :
    ∃ plan request, job = .answer plan request ∧ plan.listing = none := by
  unfold flight? at hrunning
  rw [hflights] at hrunning
  obtain hold | ⟨-, hnew⟩ := LiveCache.getElem?_snoc_iff.1 hrunning
  · exact h.awaiting hold
  · exact hflight key subkey job hnew.symm

theorem startRead (net : Network σ) (arrived : Request → Bool) {address subkey : String}
    {plan : Fetch} (hplain : plan.listing = none) (hurl : w.client.url plan.url = address)
    (hsubkey : Query.render plan.params = subkey) :
    let sent := (w.readStarted address subkey plan).driveWhen net arrived
      w.client.cache.flights.length
    sent.Plain config ∧ w.Renews sent := by
  intro sent
  have hsync : (w.readStarted address subkey plan).client.cache.InSync :=
    h.inSync.start (Address.key_key address) subkey (.fetch plan)
  have hconnected : (w.readStarted address subkey plan).client.cache.hub.connected = true :=
    (LiveCache.connected_ensure w.client.cache (Address.key address)).trans h.connected
  have hsent : sent = _ := w.driveWhen_readStarted net arrived address subkey plan
  rw [hsent]
  cases hrequest : w.client.fetchRequest plan with
  | error fault =>
    dsimp only
    have hflights := w.flights_land_readStarted address subkey plan fault
    refine ⟨⟨hsync.land _ _ _ (.error fault), (LiveCache.connected_land _ _ _ _ _).trans hconnected,
      rfl, h.config_eq, h.awaiting_snoc hflights nofun⟩, List.prefix_refl _, ?_, ?_⟩
    · rw [hflights]
      simp
    · intro other sub holder hslot
      rw [slot?_land_readStarted] at hslot
      split at hslot
      · cases hslot
      · exact .inl hslot
  | ok request =>
    dsimp only
    have hflights := w.flights_readRequested address subkey plan request
    obtain ⟨hmethod, hrequested, hparams⟩ := Client.fetchRequest_eq_ok hrequest
    refine ⟨⟨hsync.setFlight _ _, hconnected, rfl, h.config_eq,
      h.awaiting_snoc hflights ?_⟩, ⟨[_], rfl⟩, ?_, ?_⟩
    · rintro key subkey job ⟨⟩
      exact ⟨plan, request, rfl, hplain⟩
    · rw [hflights]
      simp
    · intro other sub holder hslot
      rw [slot?_readRequested] at hslot
      split at hslot
      · next hsame =>
        obtain ⟨rfl, rfl⟩ := hsame
        obtain rfl := Option.some.inj hslot
        refine .inr ⟨Nat.le_refl _, request, ?_, hmethod, ?_, ?_⟩
        · simp [readRequested, readStarted, World.record, setJob, mapClient]
        · rw [hrequested, hurl]
        · rw [hparams, hsubkey]
      · exact .inl hslot

theorem setCredentials (credentials : Option Credentials) :
    Plain config { w with client := w.client.setCredentials credentials } ∧
      w.Renews { w with client := w.client.setCredentials credentials } := by
  have hflights : (w.client.setCredentials credentials).cache.flights = w.client.cache.flights :=
    LiveCache.flights_forgetAll w.client.cache
  refine ⟨⟨h.inSync.forgetAll, (LiveCache.connected_forgetAll w.client.cache).trans h.connected,
    h.free, h.config_eq, ?_⟩,
    ⟨List.prefix_refl _, Nat.le_of_eq (congrArg List.length hflights).symm, ?_⟩⟩
  · intro ticket key subkey job hrunning
    exact h.awaiting ((congrArg (·[ticket]?) hflights).symm.trans hrunning)
  · intro key subkey ticket hslot
    have hempty := LiveCache.slot?_forgetAll w.client.cache key subkey
    exact absurd (hempty.symm.trans hslot) nofun

omit h in
theorem opened (config : Config) (schema : Schema) (remote : σ) :
    Plain config { client := Client.opened config schema true, remote } where
  inSync := (Client.steady_opened config schema true).inSync
  connected := rfl
  free := rfl
  config_eq := rfl
  awaiting := fun hrunning => by simp [World.flight?, Client.opened, LiveCache.onHub] at hrunning

end Plain

end World

def renewal {σ : Type} (config : Config) (net : Network σ) : RelyGuarantee net where
  holds := World.Plain config
  leads := World.Renews
  refl := World.Renews.refl
  trans := World.Renews.trans
  drive := fun arrived ticket h => h.driveWhen net arrived ticket

end ResourceClient

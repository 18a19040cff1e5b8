import ResourceClient.Proofs.Address.Coverage
import ResourceClient.Proofs.Client.FirstRequests
import ResourceClient.Proofs.Service.Faithfulness

/-!
Where reads ask. A read that waits to be asked for has its URL already; if the base covers all of
these, it covers whatever is asked for while somebody waits for one of them.
-/
namespace ResourceClient

namespace Client

/-- No read waits to be asked for that has not waited before. -/
structure AsksNoMore (c d : Client) : Prop where
  config_eq : d.config = c.config
  waiting : ∀ {ticket : Ticket} {key subkey : String} {plan : Fetch},
    d.cache.flights[ticket]? = some (.running key subkey (.fetch plan)) →
      c.cache.flights[ticket]? = some (.running key subkey (.fetch plan))

variable {c d e : Client}

theorem AsksNoMore.refl (c : Client) : c.AsksNoMore c := ⟨rfl, id⟩

theorem AsksNoMore.trans (h : c.AsksNoMore d) (h' : d.AsksNoMore e) : c.AsksNoMore e :=
  ⟨h'.config_eq.trans h.config_eq, fun hflight => h.waiting (h'.waiting hflight)⟩

theorem AsksNoMore.of_flights (hconfig : d.config = c.config)
    (hflights : d.cache.flights = c.cache.flights) : c.AsksNoMore d where
  config_eq := hconfig
  waiting := fun hflight => by rwa [hflights] at hflight

theorem asksNoMore_put (address subkey : String) (resource : Resource) (c : Client) :
    c.AsksNoMore (c.mapCache (LiveCache.put address subkey resource)) where
  config_eq := rfl
  waiting := by
    intro ticket key other plan hflight
    change (c.cache.put address subkey resource).flights[ticket]? = _ at hflight
    rw [LiveCache.flights_put] at hflight
    split at hflight
    · obtain hold | ⟨-, hnew⟩ := LiveCache.getElem?_snoc_iff.1 hflight
      · exact hold
      · cases hnew
    · exact hflight

theorem asksNoMore_setFlight (ticket : Ticket) {flight : Flight}
    (hflight : ∀ key subkey plan, flight ≠ .running key subkey (.fetch plan)) (c : Client) :
    c.AsksNoMore (c.mapCache (LiveCache.setFlight ticket flight)) where
  config_eq := rfl
  waiting := by
    intro other key subkey plan hother
    change (c.cache.flights.set ticket flight)[other]? = _ at hother
    rw [List.getElem?_set] at hother
    split at hother
    · split at hother
      · exact absurd (Option.some.inj hother) (hflight key subkey plan)
      · cases hother
    · exact hother

theorem asksNoMore_land (ticket : Ticket) (key subkey : String) (outcome : Except Fault Resource)
    (c : Client) : c.AsksNoMore (c.mapCache (LiveCache.land ticket key subkey outcome)) := by
  have hlanded : ∀ key subkey plan, Flight.landed outcome ≠ .running key subkey (.fetch plan) := by
    intro key subkey plan
    exact Flight.noConfusion
  apply (c.asksNoMore_setFlight ticket hlanded).trans
  exact .of_flights rfl (LiveCache.flights_land c.cache key subkey ticket outcome)

theorem asksNoMore_perform (call : Call) (c : Client) : c.AsksNoMore (c.perform call).2 := by
  have hconfig := (c.alike_perform call).config
  cases call with
  | note line => exact .of_flights hconfig rfl
  | react reaction =>
    cases reaction with
    | put address subkey resource => exact c.asksNoMore_put address subkey resource
    | forget address => exact .of_flights hconfig (LiveCache.flights_forgetKey c.cache _)
    | forgetAll => exact .of_flights hconfig (LiveCache.flights_forgetAll c.cache)
    | release name =>
      apply AsksNoMore.of_flights hconfig
      change (c.release name).cache.flights = c.cache.flights
      unfold release
      split
      · next handle _ => cases handle <;> rfl
      · rfl
    | announce address => exact .refl c
    | setConnected connected => exact .of_flights hconfig rfl
  | notify listener key =>
    cases listener with
    | entry own => exact .of_flights hconfig (LiveCache.flights_forgetKey c.cache _)
    | _ => exact .of_flights hconfig rfl
  | lost listener =>
    cases listener with
    | cache => exact .of_flights hconfig (LiveCache.flights_forgetAll c.cache)
    | _ => exact .of_flights hconfig rfl

theorem asksNoMore_settle (calls : List Call) (c : Client) : c.AsksNoMore (c.settle calls) :=
  settle_rel .refl .trans
    (fun call c => (c.asksNoMore_perform call).trans (.of_flights rfl rfl)) calls c

theorem asksNoMore_seeds (seeds : List Wire.Seed) (c : Client) :
    c.AsksNoMore (seeds.foldl (fun c s => c.seed s) c) := by
  induction seeds generalizing c with
  | nil => exact .refl c
  | cons s rest ih => exact (c.asksNoMore_put s.address "" s.resource).trans (ih _)

theorem asksNoMore_absorb (plan : Fetch) (answer : Except Fault Response) (c : Client) :
    c.AsksNoMore (c.absorb plan answer).2 := by
  obtain ⟨names, habsorb⟩ := c.exists_absorb plan answer
  have hnames : c.AsksNoMore { c with names } := .of_flights rfl rfl
  rw [habsorb]
  exact hnames.trans (foldl_seed (c.seedsIn plan answer) { c with names } ▸ asksNoMore_seeds _ _)

end Client

namespace World

variable {σ : Type} {config : Config} {u v w : World σ}

/-- The base covers whatever waits to be asked for. -/
structure Confined (config : Config) (w : World σ) : Prop where
  config_eq : w.client.config = config
  waiting : ∀ {ticket : Ticket} {key subkey : String} {plan : Fetch},
    w.flight? ticket = some (.running key subkey (.fetch plan)) →
      config.Covers (config.url plan.url)

/-- The base covers whatever has been asked for in between, and whatever waits after it. -/
structure Ranges (config : Config) (w v : World σ) : Prop where
  confined : v.Confined config
  trace : ∃ more, v.trace = w.trace ++ more ∧
    ∀ request, Happening.requested request ∈ more → config.Covers request.url

theorem Ranges.trans (h : w.Ranges config v) (h' : v.Ranges config u) : w.Ranges config u where
  confined := h'.confined
  trace := by
    obtain ⟨more, hmore, hcovers⟩ := h.trace
    obtain ⟨later, hlater, hcovers'⟩ := h'.trace
    refine ⟨more ++ later, by rw [hlater, hmore, List.append_assoc], fun request hrequest => ?_⟩
    obtain hin | hin := List.mem_append.1 hrequest
    · exact hcovers request hin
    · exact hcovers' request hin

namespace Confined

theorem opened (config : Config) (schema : Schema) (connected : Bool) (remote : σ) :
    Confined config { client := .opened config schema connected, remote } where
  config_eq := rfl
  waiting := fun hflight => by simp [flight?, Client.opened, LiveCache.onHub] at hflight

theorem ranges_of_trace (hv : v.Confined config) (htrace : v.trace = w.trace) :
    w.Ranges config v :=
  ⟨hv, [], by rw [htrace, List.append_nil], fun _ hrequest => nomatch hrequest⟩

variable (h : w.Confined config)
include h

theorem ranges_self : w.Ranges config w := h.ranges_of_trace rfl

theorem client {d : Client} (hd : w.client.AsksNoMore d) :
    w.Ranges config { w with client := d } := by
  have hthere : Confined config { w with client := d } :=
    ⟨hd.config_eq.trans h.config_eq, fun hflight => h.waiting (hd.waiting hflight)⟩
  exact hthere.ranges_of_trace rfl

theorem fetchAnswer (net : Network σ) (request : Request) :
    w.Ranges config (w.fetchAnswer net request).2 := by
  have hthere : (w.fetchAnswer net request).2.Confined config := ⟨h.config_eq, h.waiting⟩
  exact hthere.ranges_of_trace rfl

theorem record {request : Request} (hcovers : config.Covers request.url) :
    w.Ranges config (w.record (.requested request)) := by
  refine ⟨⟨h.config_eq, h.waiting⟩, [.requested request], rfl, fun other hother => ?_⟩
  obtain rfl := Happening.requested.inj (List.mem_singleton.1 hother)
  exact hcovers

theorem land (ticket : Ticket) (key subkey : String) (outcome : Except Fault Resource) :
    w.Ranges config (w.land ticket key subkey outcome) :=
  h.client (Client.asksNoMore_land ticket key subkey outcome w.client)

theorem setJob (ticket : Ticket) (key subkey : String) {job : Job}
    (hjob : ∀ plan, job ≠ .fetch plan) : w.Ranges config (w.setJob ticket key subkey job) := by
  apply h.client (Client.asksNoMore_setFlight ticket _ w.client)
  intro key subkey plan hsame
  exact hjob plan (Flight.running.inj hsame).2.2

theorem send {plan : Fetch} (hcovers : config.Covers (config.url plan.url)) {request : Request}
    (hrequest : w.client.fetchRequest plan = .ok request) :
    w.Ranges config (w.record (.requested request)) := by
  obtain ⟨-, hurl, -⟩ := Client.fetchRequest_eq_ok hrequest
  apply h.record
  rw [hurl, Client.url, h.config_eq]
  exact hcovers

theorem absorb (plan : Fetch) (answer : Except Fault Response) :
    w.Ranges config { w with client := (w.client.absorb plan answer).2 } :=
  h.client (Client.asksNoMore_absorb plan answer w.client)

theorem driveJob (net : Network σ) {ticket : Ticket} {key subkey : String} {job : Job}
    (hflight : w.flight? ticket = some (.running key subkey job)) :
    w.Ranges config (w.driveJob net ticket key subkey job) := by
  cases job with
  | fetch plan =>
    cases hrequest : w.client.fetchRequest plan with
    | error fault =>
      simp only [World.driveJob, hrequest]
      exact h.land ticket key subkey _
    | ok request =>
      simp only [World.driveJob, hrequest]
      have hsend := h.send (h.waiting hflight) hrequest
      exact hsend.trans (hsend.confined.setJob ticket key subkey fun _ => Job.noConfusion)
  | answer plan request =>
    have hanswer := h.fetchAnswer net request
    have habsorb := hanswer.confined.absorb plan (w.fetchAnswer net request).1
    exact (hanswer.trans habsorb).trans (habsorb.confined.land ticket key subkey _)
  | script script =>
    cases hpending : script.pending with
    | zero =>
      simp only [World.driveJob, hpending]
      have hconclude : w.Ranges config (w.conclude script) :=
        h.client (Client.asksNoMore_settle _ w.client)
      exact hconclude.trans (hconclude.confined.land ticket key subkey _)
    | succ pending =>
      simp only [World.driveJob, hpending]
      exact h.setJob ticket key subkey fun _ => Job.noConfusion

theorem drive (net : Network σ) (ticket : Ticket) : w.Ranges config (w.drive net ticket) := by
  unfold World.drive
  split
  · next hflight => exact h.driveJob net hflight
  · exact h.ranges_self

theorem driveAmid (net : Network σ) {meanwhile : World σ → World σ}
    (hmeanwhile : ∀ v : World σ, v.Confined config → v.Ranges config (meanwhile v)) (polls : Nat)
    (ticket : Ticket) : w.Ranges config (w.driveAmid net meanwhile polls ticket) := by
  induction polls generalizing w with
  | zero => exact h.ranges_self
  | succ polls ih =>
    have hdrive := h.drive net ticket
    unfold World.driveAmid
    dsimp only
    split
    · exact hdrive
    · have hwait := hmeanwhile _ hdrive.confined
      exact (hdrive.trans hwait).trans (ih hwait.confined)

theorem addFlight (address subkey : String) {plan : Fetch}
    (hcovers : config.Covers (config.url plan.url)) :
    w.Ranges config (w.readStarted address subkey plan) := by
  have hthere : (w.readStarted address subkey plan).Confined config := by
    refine ⟨h.config_eq, fun {ticket key other waiting} hflight => ?_⟩
    unfold flight? at hflight
    rw [w.flights_readStarted] at hflight
    obtain hold | ⟨-, hnew⟩ := LiveCache.getElem?_snoc_iff.1 hflight
    · exact h.waiting hold
    · obtain ⟨-, -, hjob⟩ := Flight.running.inj hnew
      obtain rfl := Job.fetch.inj hjob
      exact hcovers
  exact hthere.ranges_of_trace rfl

end Confined

end World

namespace Service

open World

variable {σ : Type} (net : Network σ) {config : Config} {w : World σ}
  {meanwhile : World σ → World σ}

theorem runAmid_get (meanwhile : World σ → World σ) (address : String) :
    (get (.real address)).runAmid net meanwhile w =
      let plan : Fetch := { url := w.client.url address }
      let subkey := Query.render []
      if w.client.cache.isLive then
        match w.client.cache.slot? (Address.key plan.url) subkey with
        | some ticket => (Flow.join ticket).runAmid net meanwhile w
        | none =>
          (Flow.join w.client.cache.flights.length).runAmid net meanwhile
            (w.readStarted plan.url subkey plan)
      else (fetch plan).runAmid net meanwhile w := by
  have hlease := w.client.memoize_fetch (w.client.url address) (Query.render [])
    { url := w.client.url address }
  unfold get
  rw [runAmid_getWith, if_neg Bool.false_ne_true]
  dsimp only
  cases hlive : w.client.cache.isLive with
  | false =>
    rw [hlive, if_neg Bool.false_ne_true] at hlease
    rw [hlease, if_neg Bool.false_ne_true]
  | true =>
    rw [hlive, if_pos rfl] at hlease
    rw [if_pos rfl]
    cases hslot : w.client.cache.slot? (Address.key (w.client.url address)) (Query.render []) with
    | some ticket =>
      rw [hslot] at hlease
      rw [hlease]
    | none =>
      rw [hslot] at hlease
      rw [hlease]
      rfl

theorem runAmid_get_congr (meanwhile : World σ → World σ) {address other : String}
    (h : w.client.url other = w.client.url address) :
    (get (.real other)).runAmid net meanwhile w =
      (get (.real address)).runAmid net meanwhile w := by
  rw [runAmid_get, runAmid_get, h]

variable (hmeanwhile : ∀ v : World σ, v.Confined config → v.Ranges config (meanwhile v))
include hmeanwhile

theorem ranges_fetch (h : w.Confined config) {plan : Fetch}
    (hcovers : config.Covers (config.url plan.url)) :
    w.Ranges config ((fetch plan).runAmid net meanwhile w).2 := by
  rw [runAmid_fetch]
  cases hrequest : w.client.fetchRequest plan with
  | error fault => exact h.ranges_self
  | ok request =>
    have hsend := h.send hcovers hrequest
    have hwait := hsend.trans (hmeanwhile _ hsend.confined)
    have hanswer := hwait.trans (hwait.confined.fetchAnswer net request)
    exact hanswer.trans (hanswer.confined.absorb plan _)

theorem ranges_join (h : w.Confined config) (ticket : Ticket) :
    w.Ranges config ((Flow.join ticket).runAmid net meanwhile w).2 :=
  h.driveAmid net hmeanwhile (w.remaining ticket) ticket

/-- What is read is asked for below the base, by whomever. -/
theorem ranges_get (h : w.Confined config) {address : String}
    (hcovers : config.Covers (config.url (config.url address))) :
    w.Ranges config ((get (.real address)).runAmid net meanwhile w).2 := by
  have hplan : config.Covers (config.url (w.client.url address)) := by
    rwa [Client.url, h.config_eq]
  rw [runAmid_get]
  dsimp only
  split
  · split
    · exact ranges_join net hmeanwhile h _
    · have hread : w.Ranges config (w.readStarted (w.client.url address) (Query.render [])
          { url := w.client.url address }) := h.addFlight _ _ hplan
      exact hread.trans (ranges_join net hmeanwhile hread.confined _)
  · exact ranges_fetch net hmeanwhile h hplan

end Service

end ResourceClient

import ResourceClient.Proofs.Client.Polls
import ResourceClient.Proofs.Service.Visits
import ResourceClient.Proofs.Wire.Listings

/-!
What warming up is good for. A get that asks for the elements of a listing puts each under the path
that it names, as it is written; a get of the element looks under what its path is resolved to. The
two meet if the path is a URL, or if there is no base to resolve it against.
-/
namespace ResourceClient

namespace LiveCache

variable (c : LiveCache) (key subkey : String) (ticket : Ticket)

@[simp] theorem isLive_land (outcome : Except Fault Resource) :
    (c.land ticket key subkey outcome).isLive = c.isLive := by
  unfold land
  cases outcome with
  | ok resource => rfl
  | error fault =>
    dsimp only
    split <;> rfl

variable {c key}

theorem isLive_foldl_put (seeds : List Wire.Seed) :
    (seeds.foldl (fun d s => d.put s.address "" s.resource) c).isLive = c.isLive := by
  induction seeds generalizing c with
  | nil => rfl
  | cons s rest ih => exact ih.trans (isLive_put c s.address "" s.resource)

theorem slot?_foldl_put_of_ne {seeds : List Wire.Seed}
    (h : ∀ s ∈ seeds, Address.key s.address ≠ key) :
    (seeds.foldl (fun d s => d.put s.address "" s.resource) c).slot? key subkey =
      c.slot? key subkey := by
  induction seeds generalizing c with
  | nil => rfl
  | cons s rest ih =>
    rw [List.foldl_cons, ih fun t ht => h t (List.mem_cons_of_mem _ ht), slot?_put, if_neg]
    rintro ⟨-, rfl, -⟩
    exact h s List.mem_cons_self rfl

end LiveCache

namespace Client

def elementsIn (answer : Except Fault Response) (c : Client) : List Json :=
  match answer.bind Response.successBody with
  | .error _ => []
  | .ok wire => Wire.contents c.schema wire c.names

theorem forall₂_seedsIn {plan : Fetch} {mode : ElementsMode} (hmode : plan.listing = some mode)
    {answer : Except Fault Response} {c : Client} {r : Resource}
    (h : (c.absorb plan answer).1 = .ok r) :
    List.Forall₂ (Wire.Brings c.schema) (c.elementsIn answer) (c.seedsIn plan answer) := by
  unfold absorb at h
  unfold elementsIn seedsIn
  rw [hmode] at h ⊢
  generalize answer.bind Response.successBody = body at h ⊢
  cases body with
  | error fault => cases h
  | ok wire => exact Wire.forall₂_importListing h

end Client

namespace World

variable {σ : Type} (net : Network σ) {w : World σ} {plan : Fetch} {request : Request}
  {ticket : Ticket}

/-- The world in which a read has its answer, with a flight of its own or without one. -/
def answered (plan : Fetch) (request : Request) (ticket : Ticket) (alone : Bool) (w : World σ) :
    World σ :=
  if alone then w.takenIn net plan request else w.drive net ticket

/-- The read waits for nothing but the answer. -/
def AwaitsAnswer (plan : Fetch) (request : Request) (ticket : Ticket) (alone : Bool) (w : World σ) :
    Prop :=
  alone = true ∨ ∃ key subkey, w.flight? ticket = some (.running key subkey (.answer plan request))

variable {alone : Bool} (h : w.AwaitsAnswer plan request ticket alone)
include h

theorem config_answered :
    (w.answered net plan request ticket alone).client.config = w.client.config := by
  obtain ⟨names, htaken⟩ := w.exists_takenIn net plan request
  unfold answered
  split
  · rw [htaken]
  · obtain halone | ⟨key, subkey, hrunning⟩ := h
    · contradiction
    · rw [drive_of_answer net hrunning]
      exact (congrArg Client.config htaken :)

theorem isLive_answered :
    (w.answered net plan request ticket alone).client.cache.isLive = w.client.cache.isLive := by
  have htaken : (w.takenIn net plan request).client.cache.isLive = w.client.cache.isLive := by
    rw [cache_takenIn, LiveCache.isLive_foldl_put]
  unfold answered
  split
  · exact htaken
  · obtain halone | ⟨key, subkey, hrunning⟩ := h
    · contradiction
    · rw [drive_of_answer net hrunning]
      exact (LiveCache.isLive_land _ key subkey ticket _).trans htaken

theorem slot?_answered {r : Resource}
    (hok : (w.client.absorb plan (w.fetchAnswer net request).1).1 = .ok r) {other : String}
    (hothers : ∀ s ∈ w.client.seedsIn plan (w.fetchAnswer net request).1,
      Address.key s.address ≠ other) (sub : String) :
    (w.answered net plan request ticket alone).client.cache.slot? other sub =
      w.client.cache.slot? other sub := by
  have htaken : (w.takenIn net plan request).client.cache.slot? other sub =
      w.client.cache.slot? other sub := by
    rw [cache_takenIn, LiveCache.slot?_foldl_put_of_ne sub hothers]
  unfold answered
  split
  · exact htaken
  · obtain halone | ⟨key, subkey, hrunning⟩ := h
    · contradiction
    · rw [drive_of_answer net hrunning, hok]
      exact htaken

theorem holds_answered (hlive : w.client.cache.isLive = true) {before after : List Wire.Seed}
    {s : Wire.Seed}
    (hseeds : w.client.seedsIn plan (w.fetchAnswer net request).1 = before ++ s :: after)
    (hlast : ∀ t ∈ after, Address.key t.address ≠ Address.key s.address) :
    (w.answered net plan request ticket alone).client.cache.Holds (Address.key s.address) ""
      s.resource := by
  unfold answered
  split
  · exact w.holds_of_takenIn net hlive hseeds hlast
  · obtain halone | ⟨key, subkey, hrunning⟩ := h
    · contradiction
    · exact w.holds_of_drive net hlive hrunning hseeds hlast

omit h in
theorem outcome?_drive {key subkey : String}
    (hrunning : w.flight? ticket = some (.running key subkey (.answer plan request))) :
    (w.drive net ticket).outcome? ticket =
      some (w.client.absorb plan (w.fetchAnswer net request).1).1 := by
  have hstill : (w.takenIn net plan request).flight? ticket =
      some (.running key subkey (.answer plan request)) := by
    unfold flight?
    rw [cache_takenIn]
    exact LiveCache.flight_foldl_put _ hrunning
  rw [drive_of_answer net hrunning]
  exact outcome?_of_landed (flight?_land hstill key subkey _)

end World

namespace Service

open World

variable {σ : Type} {net : Network σ} {arrived : Request → Bool} {v w : World σ} {address : String}
  {params : Table String} {options : GetOptions} {plan : Fetch} {request : Request}

/-- A read that has sent its request waits for nothing but the answer. -/
theorem turn_turn_getWith (net : Network σ) (hlive : w.client.cache.isLive = true)
    (hshared : sharedFlight? (.real address) params options w.client = none)
    (hplan : fetchPlan (w.client.url address) params options.warmup = .ok plan)
    (hrequest : w.client.fetchRequest plan = .ok request) :
    let first := (Session.replyTo .resource (getWith (.real address) params options)).turn net
      arrived w
    let ticket := w.client.cache.flights.length
    (options.bypass = true ∨ v.flight? ticket = first.2.flight? ticket) →
      v.AwaitsAnswer plan request ticket options.bypass ∧
      first.1.turn net (fun _ => true) v =
        (.done (.ofExcept .resource (v.client.absorb plan (v.fetchAnswer net request).1).1),
          v.answered net plan request ticket options.bypass) := by
  intro first ticket
  have hfirst : first = _ := turn_getWith address _ hplan
  cases hbypass : options.bypass with
  | true =>
    rw [hbypass, if_pos rfl, turn_fetch, hrequest] at hfirst
    rw [hfirst]
    exact fun _ => ⟨.inl rfl, rfl⟩
  | false =>
    have hslot : w.client.cache.slot? (Address.key (w.client.url address))
        (Query.render params) = none := by
      simpa [sharedFlight?, hbypass, hlive] using hshared
    rw [hbypass, if_neg Bool.false_ne_true, turn_fetchShared_of_empty plan _ hlive hslot,
      hrequest] at hfirst
    rintro (htrue | hflight)
    · cases htrue
    · rw [hfirst] at hflight ⊢
      rw [flight?_readRequested] at hflight
      refine ⟨.inr ⟨_, _, hflight⟩, ?_⟩
      dsimp only
      rw [Flow.turn, driveWhen_all, outcome?_drive net hflight]
      rfl

theorem listing_of_fetchPlan {url : String} (h : fetchPlan url params true = .ok plan) :
    ∃ mode, plan.listing = some mode := by
  obtain ⟨mode, -, rfl⟩ := exists_of_map_eq_ok h
  exact ⟨mode, rfl⟩

def Visit.warmUp (address : String) (params : Table String) (bypass : Bool) : Visit :=
  .get (.real address) params { warmup := true, bypass }

/-- It sends its request in `w`, hears the answer in `v`, and returns. -/
structure Warmup (net : Network σ) (arrived : Request → Bool) (address : String)
    (params : Table String) (bypass : Bool) (request : Request) (w v after : World σ) : Prop where
  begun : w.client.cache.isLive = true
  connected : v.client.cache.isLive = true
  alone : (Visit.warmUp address params bypass).shared? w.client = none
  sends : (Visit.warmUp address params bypass).request w.client = .ok request
  waits : bypass = true ∨ v.flight? w.client.cache.flights.length =
    ((Visit.warmUp address params bypass).flow.turn net arrived w).2.flight?
      w.client.cache.flights.length
  returns : ∃ pool, ((Visit.warmUp address params bypass).flow.turn net arrived w).1.turn net
    (fun _ => true) v = (.done (.resource pool), after)

namespace Warmup

section

variable {bypass : Bool} {after : World σ}
  (h : Warmup net arrived address params bypass request w v after)
include h

theorem exists_answered :
    ∃ plan ticket, v.AwaitsAnswer plan request ticket bypass ∧
      after = v.answered net plan request ticket bypass ∧
      (∃ pool, (v.client.absorb plan (v.fetchAnswer net request).1).1 = .ok pool) ∧
      List.Forall₂ (Wire.Brings v.client.schema)
        (v.client.elementsIn (v.fetchAnswer net request).1)
        (v.client.seedsIn plan (v.fetchAnswer net request).1) := by
  obtain ⟨plan, hplan, hrequest⟩ : ∃ plan, fetchPlan (w.client.url address) params true =
      .ok plan ∧ w.client.fetchRequest plan = .ok request := exists_of_bind_eq_ok h.sends
  obtain ⟨mode, hmode⟩ := listing_of_fetchPlan hplan
  obtain ⟨hair, hlast⟩ := turn_turn_getWith net h.begun h.alone hplan hrequest h.waits
  obtain ⟨pool, hpool⟩ := h.returns
  obtain ⟨hreply, hafter⟩ := Prod.mk.inj (hlast.symm.trans hpool)
  have hok : (v.client.absorb plan (v.fetchAnswer net request).1).1 = .ok pool := by
    generalize (v.client.absorb plan (v.fetchAnswer net request).1).1 = outcome at hreply
    cases outcome with
    | error fault => cases hreply
    | ok other =>
      injection hreply with hreply
      injection hreply with hreply
      rw [hreply]
  exact ⟨plan, _, hair, hafter.symm, ⟨pool, hok⟩, Client.forall₂_seedsIn hmode hok⟩

theorem config_eq : after.client.config = v.client.config := by
  obtain ⟨plan, ticket, hair, rfl, -⟩ := h.exists_answered
  exact config_answered net hair

theorem isLive : after.client.cache.isLive = true := by
  obtain ⟨plan, ticket, hair, rfl, -⟩ := h.exists_answered
  exact (isLive_answered net hair).trans h.connected

theorem holds {earlier later : List Json} {element : Json} {q : String}
    (helements : v.client.elementsIn (v.fetchAnswer net request).1 = earlier ++ element :: later)
    (hleads : Wire.Leads element q)
    (hlast : ∀ other ∈ later, ∀ path, Wire.Leads other path → Address.key path ≠ Address.key q) :
    ∃ r names, (Wire.importResource v.client.schema element names).1 = .ok r ∧
      after.client.cache.Holds (Address.key q) "" r := by
  obtain ⟨plan, ticket, hair, rfl, -, hbrings⟩ := h.exists_answered
  rw [helements] at hbrings
  obtain ⟨front, s, back, hseeds, hbring, hback⟩ := exists_of_forall₂_append_cons hbrings
  obtain ⟨names, himport⟩ := hbring.imported
  have haddress := hbring.address_eq hleads
  have hunmarked := (Path.parse?_eq_real hleads.2).2
  refine ⟨s.resource, names, himport, haddress ▸ holds_answered net hair h.connected hseeds ?_⟩
  intro other hother
  obtain ⟨late, hlate, hothers⟩ := exists_of_forall₂_of_mem hback hother
  rw [haddress]
  exact hothers.key_ne hunmarked (hlast late hlate)

theorem slot?_eq {url : String} (hunmarked : startsWithSentinel url = false)
    (hothers : ∀ element ∈ v.client.elementsIn (v.fetchAnswer net request).1, ∀ path,
      Wire.Leads element path → Address.key path ≠ Address.key url) (subkey : String) :
    after.client.cache.slot? (Address.key url) subkey =
      v.client.cache.slot? (Address.key url) subkey := by
  obtain ⟨plan, ticket, hair, rfl, ⟨pool, hpool⟩, hbrings⟩ := h.exists_answered
  refine slot?_answered net hair hpool (fun s hs => ?_) subkey
  obtain ⟨element, helement, hbring⟩ := exists_of_forall₂_of_mem hbrings hs
  exact hbring.key_ne hunmarked (hothers element helement)

/-- A get of an element is answered with it from the cache, if its path is a URL or there is no base
to resolve it against; any other sends a request of its own, if it would have done so before. -/
theorem get_element {earlier later : List Json} {element : Json} {q : String}
    (helements : v.client.elementsIn (v.fetchAnswer net request).1 = earlier ++ element :: later)
    (hleads : Wire.Leads element q) :
    let get : Visit := .get (.real q) [] {}
    let url := v.client.url q
    (Address.key url = Address.key q ↔
      (q.toList.head? = some '/' → v.client.config.base = [])) ∧
    (Address.key url = Address.key q →
      (∀ other ∈ later, ∀ path, Wire.Leads other path → Address.key path ≠ Address.key q) →
        ∃ r names, (Wire.importResource v.client.schema element names).1 = .ok r ∧
          ∀ arrived, get.flow.turn net arrived after = (.done (.resource r), after)) ∧
    (Address.key url ≠ Address.key q → startsWithSentinel url = false →
      (∀ other ∈ earlier ++ element :: later, ∀ path, Wire.Leads other path →
        Address.key path ≠ Address.key url) →
        get.shared? after.client = get.shared? v.client ∧
        (get.shared? v.client = none → ∀ arrived,
          after.Asks (get.flow.turn net arrived after).2
            (after.client.signed { method := .get, url := v.client.url url }))) := by
  intro get url
  refine ⟨Config.key_url_eq_iff, fun hkey hlast => ?_, fun _ hunmarked hothers => ?_⟩
  · obtain ⟨r, names, himport, hholds⟩ := h.holds helements hleads hlast
    refine ⟨r, names, himport, fun arrived => turn_get_of_holds q h.isLive ?_⟩
    have hurl : after.client.url q = url := congrArg (Config.url · q) h.config_eq
    rw [hurl, hkey]
    exact hholds
  · rw [← helements] at hothers
    have hurl : after.client.url q = url := congrArg (Config.url · q) h.config_eq
    have hshared : get.shared? after.client = get.shared? v.client := by
      have hslot := h.slot?_eq hunmarked hothers (Query.render [])
      simp only [get, Visit.shared?, sharedFlight?, hurl, h.isLive, h.connected]
      exact hslot
    refine ⟨hshared, fun hnone arrived => ?_⟩
    have hopens : get.flow.Opens net arrived after (getRequest (.real q) [] {} after.client) :=
      get.opens_flow (hshared.trans hnone)
    rw [getRequest_plain (by rwa [hurl]), hurl] at hopens
    have hsame : after.client.url url = v.client.url url := congrArg (Config.url · url) h.config_eq
    rw [← hsame]
    exact hopens

end

def wire (address : String) (data : Table Json) : Json :=
  .object [("content_type", .string "pool"), ("path", .string address), ("data", .object data)]

/-- Of its two elements the first names its URL. -/
def pair : Network Unit where
  answer _ remote :=
    let elements : Json := .object [("elements", .array [wire "http://h/a/" [], wire "/b/" []])]
    (.ok (.ofJson 200 (wire "http://h/" [(Known.pool, elements)])), remote)

def fresh : World Unit where
  client := Client.opened { restUrl := "http://h" } { resources := [("pool", {})] } true
  remote := ()

def asked : Flow Reply × World Unit :=
  (Visit.warmUp "/" [] false).flow.turn pair (fun _ => true) fresh

def come : Flow Reply × World Unit := asked.1.turn pair (fun _ => true) asked.2

def resource? : Flow Reply → Option Resource
  | .done (.resource r) => some r
  | _ => none

theorem eq_done_of_isSome {flow : Flow Reply} (h : (resource? flow).isSome = true) :
    ∃ r, flow = .done (.resource r) := by
  unfold resource? at h
  split at h
  · exact ⟨_, rfl⟩
  · cases h

theorem get_element_of_pair :
    ∃ request, Warmup pair (fun _ => true) "/" [] false request fresh asked.2 come.2 ∧
      (∃ r, ∀ arrived, (Visit.get (.real "http://h/a/") [] {}).flow.turn pair arrived come.2 =
        (.done (.resource r), come.2)) ∧
      come.2.Asks ((Visit.get (.real "/b/") [] {}).flow.turn pair (fun _ => true) come.2).2
        (come.2.client.signed { method := .get, url := "http://h/b/" }) := by
  have hsends : ((Visit.warmUp "/" [] false).request fresh.client).isOk = true := by
    decide +kernel
  have hcome : (resource? come.1).isSome = true := by decide +kernel
  obtain ⟨pool, hpool⟩ := eq_done_of_isSome hcome
  cases hrequest : (Visit.warmUp "/" [] false).request fresh.client with
  | error fault =>
    rw [hrequest] at hsends
    cases hsends
  | ok request =>
    have hwarmup : Warmup pair (fun _ => true) "/" [] false request fresh asked.2 come.2 := {
      begun := rfl
      connected := by decide +kernel
      alone := by decide +kernel
      sends := hrequest
      waits := .inr rfl
      returns := ⟨pool, Prod.ext hpool rfl⟩ }
    have hpaths : (asked.2.client.elementsIn (asked.2.fetchAnswer pair request).1).map
        (·.stringField? "path") = [some "http://h/a/", some "/b/"] := by
      change (asked.2.client.elementsIn (pair.answer default ()).1).map _ = _
      decide +kernel
    obtain ⟨a, rest, helements, ha, hrest⟩ := List.map_eq_cons_iff.1 hpaths
    obtain ⟨b, rfl, hb⟩ := List.map_eq_singleton_iff.1 hrest
    have hlater : ∀ other ∈ [b], ∀ path, Wire.Leads other path → path = "/b/" := by
      rintro other hother path ⟨hpath, -⟩
      obtain rfl := List.mem_singleton.1 hother
      exact Option.some.inj (hpath.symm.trans hb)
    have hall : ∀ other ∈ [a] ++ b :: [], ∀ path, Wire.Leads other path →
        path = "http://h/a/" ∨ path = "/b/" := by
      rintro other hother path hleads
      obtain rfl | hother := List.mem_cons.1 hother
      · exact .inl (Option.some.inj (hleads.1.symm.trans ha))
      · exact .inr (hlater other hother path hleads)
    have hfirst : asked.2.client.elementsIn (asked.2.fetchAnswer pair request).1 =
        [] ++ a :: [b] := helements
    have hsecond : asked.2.client.elementsIn (asked.2.fetchAnswer pair request).1 =
        [a] ++ b :: [] := helements
    refine ⟨request, hwarmup, ?_, ?_⟩
    · obtain ⟨-, hhit, -⟩ := hwarmup.get_element hfirst ⟨ha, rfl⟩
      obtain ⟨r, -, -, hget⟩ := hhit (by decide +kernel) fun other hother path hleads => by
        rw [hlater other hother path hleads]
        decide +kernel
      exact ⟨r, hget⟩
    · obtain ⟨-, -, hmiss⟩ := hwarmup.get_element hsecond ⟨hb, rfl⟩
      have hasks := hmiss (by decide +kernel) (by decide +kernel) fun other hother path hleads => by
        obtain rfl | rfl := hall other hother path hleads <;> decide +kernel
      have hurl : asked.2.client.url (asked.2.client.url "/b/") = "http://h/b/" := by decide +kernel
      rw [← hurl]
      exact hasks.2 (by decide +kernel) _

/-- The second element is asked for all the same. -/
theorem get_element_missed :
    let paths := (asked.2.client.elementsIn (pair.answer default ()).1).map (·.stringField? "path")
    let again := (Visit.get (.real "/b/") [] {}).flow.turn pair (fun _ => true) come.2
    paths = [some "http://h/a/", some "/b/"] ∧ (resource? come.1).isSome = true ∧
      resource? again.1 = none ∧ again.2.trace.length = come.2.trace.length + 1 := by
  decide +kernel

end Warmup

end Service

end ResourceClient

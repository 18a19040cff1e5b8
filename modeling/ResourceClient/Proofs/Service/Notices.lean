import ResourceClient.Proofs.Client.History
import ResourceClient.Proofs.Push.Frames
import ResourceClient.Proofs.Service.BatchedWrites
import ResourceClient.Proofs.Service.Isolation

/-!
Which notices from the server reach what is cached. What a write reports is resolved before it is
looked up, what a frame tells of is not; so a frame reaches an entry under its URL, and under the
path on the server only if there is no base.
-/
namespace ResourceClient

def Report.paths (report : Report) : List String :=
  report.changedDescendants ++ report.created ++ report.modified ++ report.removed

namespace Config

variable {config : Config} {address written : String}

/-- Under a base the path on the server is never the key. -/
theorem key_eq_key_url_iff (hslash : address.toList.head? = some '/')
    (h : Address.key written = Address.key address) :
    Address.key written = Address.key (config.url address) ↔ config.base = [] := by
  rw [h, eq_comm, key_url_eq_iff]
  exact ⟨fun hbase => hbase hslash, fun hbase _ => hbase⟩

theorem key_url_of_key_url (hslash : address.toList.head? = some '/')
    (hbase : config.base.head? ≠ some '/')
    (h : Address.key written = Address.key (config.url address)) :
    Address.key (config.url written) = Address.key (config.url address) := by
  rw [← h, key_url_eq_iff]
  intro hwritten
  by_contra hne
  rw [Address.key_eq_key_iff, toList_url config hslash] at h
  have hfull : Address.trimEnd (config.base ++ address.toList) ≠ [] := by
    rw [Address.trimEnd_append]
    split
    · rwa [base, Address.trimEnd_trimEnd]
    · exact fun hnil => hne (List.append_eq_nil_iff.1 hnil).1
  have hhead := Address.head?_of_trimEnd_eq h (h ▸ hfull)
  rw [hwritten, List.head?_append_of_ne_nil _ hne] at hhead
  exact hbase hhead.symm

end Config

namespace Client

variable {c : Client}

theorem entryAt?_forgetTouched_of_mem_paths {report : Report} {written : String}
    (h : written ∈ report.paths) (posted : List String) :
    (c.forgetTouched report posted).cache.entryAt? (Address.key (c.url written)) = none := by
  rw [forgetTouched, mapCache, LiveCache.entryAt?_forgetTouched,
    if_pos (LiveCache.mem_touched_keys.2 ?_)]
  simp only [Report.paths, List.mem_append] at h
  rcases h with ((h | h) | h) | h
  · exact .inl ⟨_, List.mem_map_of_mem h, rfl⟩
  all_goals
    refine .inr ⟨c.url written, ?_, .inl rfl⟩
    simp [Report.map, List.mem_map_of_mem h]

variable {text : String} {event : PushEvent} {key subkey : String}

theorem cache_receive (h : c.cache.InSync) (hfree : c.reservation = none)
    (hevent : PushEvent.ofText? text = some event) :
    (c.receive text).cache =
      event.addresses.foldl (fun cache address => cache.notify address) c.cache := by
  rw [receive_eq, hevent]
  exact (foldl_announce event.addresses h hfree).1

theorem entryAt?_receive (h : c.cache.InSync) (hfree : c.reservation = none)
    (hevent : PushEvent.ofText? text = some event) (key : String) :
    (c.receive text).cache.entryAt? key =
      if key ∈ event.keys ∧ key ∉ c.cache.exempt then none else c.cache.entryAt? key := by
  rw [cache_receive h hfree hevent]
  exact LiveCache.entryAt?_foldl_notify c.cache key event.addresses

theorem holds_receive (h : c.cache.InSync) (hfree : c.reservation = none)
    (hevent : PushEvent.ofText? text = some event)
    (hnot : key ∉ event.keys ∨ key ∈ c.cache.exempt) {r : Resource}
    (hholds : c.cache.Holds key subkey r) : (c.receive text).cache.Holds key subkey r := by
  obtain ⟨ticket, hslot, hlanded⟩ := hholds
  have hsame : (c.receive text).cache.slot? key subkey = c.cache.slot? key subkey := by
    unfold LiveCache.slot?
    rw [entryAt?_receive h hfree hevent, if_neg]
    rintro ⟨hkey, hexempt⟩
    exact hnot.elim (fun hno => hno hkey) hexempt
  exact ⟨ticket, hsame.trans hslot, (shrinks_receive h hfree text).flights.symm ▸ hlanded⟩

end Client

theorem Service.sharedFlight?_of_entryAt? {c : Client} {path : String}
    (h : c.cache.entryAt? (Address.key (c.url path)) = none) {params : Table String}
    {options : GetOptions} : sharedFlight? (.real path) params options c = none := by
  unfold sharedFlight? LiveCache.slot?
  dsimp only
  rw [h, Option.bind_none, ite_self]

variable {σ : Type}

/-- How frames and reports from the server act on what is cached for a path on the server. -/
structure Noticed (net : Network σ) (w : World (Ledger σ)) (path : String) : Prop where
  told : ∀ text event, PushEvent.ofText? text = some event →
    let key := Address.key (w.client.url path)
    let after := w.mapClient (Client.receive text)
    key ∈ event.keys → key ∉ w.client.cache.exempt →
      after.client.cache.entryAt? key = none ∧
      ∀ params options request arrived,
        Service.getRequest (.real path) params options after.client = .ok request →
        after.Asks ((Service.Visit.get (.real path) params options).flow.turn net.recorded arrived
          after).2 request
  kept : ∀ text event, PushEvent.ofText? text = some event →
    let key := Address.key (w.client.url path)
    let after := w.mapClient (Client.receive text)
    key ∉ event.keys ∨ key ∈ w.client.cache.exempt →
      after.client.cache.entryAt? key = w.client.cache.entryAt? key ∧
      ∀ r arrived, w.client.cache.Holds key "" r →
        (Service.Visit.get (.real path) [] {}).flow.turn net.recorded arrived after =
          (.done (.resource r), after)
  relative : ∀ written, Address.key written = Address.key path →
    (Address.key written = Address.key (w.client.url path) ↔ w.client.config.base = [])
  reported : ∀ (report : Report) posted written, written ∈ report.paths →
    written.toList.head? = some '/' ∧ Address.key written = Address.key path ∨
      Address.key written = Address.key (w.client.url path) ∧
        w.client.config.base.head? ≠ some '/' →
    (w.client.forgetTouched report posted).cache.entryAt?
      (Address.key (w.client.url path)) = none

namespace Executor

variable (net : Network σ)

/-- Whatever has gone on, a frame drops what is cached under the URLs that it tells of. -/
theorem run_noticed (config : Config) (schema : Schema) (remote : σ) (events : List Event)
    {path : String} (hslash : path.toList.head? = some '/') :
    Noticed net ((opened config schema remote).run net events).world path := by
  have hguarded : Guarded ((opened config schema remote).run net events).world :=
    (sound_run_opened net config schema remote events).holds
  generalize ((opened config schema remote).run net events).world = w at hguarded
  have hsync := hguarded.inSync
  have hurl (text : String) :
      (w.mapClient (Client.receive text)).client.url path = w.client.url path :=
    congrArg (Config.url · path) (Client.shrinks_receive hsync hguarded.free text).config
  constructor
  case told =>
    intro text event hevent key after hkey hexempt
    have hgone : after.client.cache.entryAt? key = none := by
      have hentry := Client.entryAt?_receive hsync hguarded.free hevent key
      rw [if_pos ⟨hkey, hexempt⟩] at hentry
      exact hentry
    refine ⟨hgone, fun params options request arrived hrequest => ?_⟩
    have hopens :
        (Service.Visit.get (.real path) params options).flow.Opens net.recorded arrived after
          (Service.getRequest (.real path) params options after.client) :=
      Service.Visit.opens_flow (.get (.real path) params options)
        (Service.sharedFlight?_of_entryAt? (by rwa [hurl text]))
    exact hopens.asks (congrArg Except.toOption hrequest)
  case kept =>
    intro text event hevent key after hnot
    have hentry := Client.entryAt?_receive hsync hguarded.free hevent key
    rw [if_neg fun h => hnot.elim (fun hno => hno h.1) h.2] at hentry
    refine ⟨hentry, fun r arrived hholds => ?_⟩
    have hlive : after.client.cache.isLive = true :=
      (hguarded.shrink (Client.shrinks_receive hsync hguarded.free text)).guarded.isLive
    have hthere := Client.holds_receive hsync hguarded.free hevent hnot hholds
    exact Service.turn_get_of_holds path hlive (by rwa [hurl text])
  case relative => exact fun written => Config.key_eq_key_url_iff hslash
  case reported =>
    intro report posted written hmem hspelled
    have hkey : Address.key (w.client.url written) = Address.key (w.client.url path) := by
      rcases hspelled with ⟨hwritten, hkey⟩ | ⟨hkey, hbase⟩
      · exact Config.key_url_of_key hwritten hslash hkey
      · exact Config.key_url_of_key_url hslash hbase hkey
    rw [← hkey]
    exact Client.entryAt?_forgetTouched_of_mem_paths hmem posted

def modified (address : String) : String :=
  "\x7b\"event\":\"modified\",\"resource\":\"" ++ address ++ "\"\x7d"

def visit : List Event :=
  [.begin (.visit (.get (.real "/a/") [] {})) fun _ => true, .turn 0 fun _ => true]

def visited (events : List Event) : Executor Unit :=
  (opened config onlyPools ()).run onePool (visit ++ events)

/-- A frame with the URL is noticed, and so is a report with the path. -/
theorem run_noticed_of_visit :
    let w := (visited []).world
    let event : PushEvent := { event := "modified", resource := "http://h/a//" }
    let key := Address.key (w.client.url "/a/")
    w.client.cache.contains "http://h/a/" = true ∧
      PushEvent.ofText? (modified "http://h/a//") = some event ∧
      (w.mapClient (Client.receive (modified "http://h/a//"))).client.cache.entryAt? key = none ∧
      (w.client.forgetTouched { modified := ["/a"] } []).cache.entryAt? key = none := by
  intro w event key
  have hslash : "/a/".toList.head? = some '/' := by decide +kernel
  have hnoticed : Noticed onePool w "/a/" :=
    run_noticed onePool config onlyPools () (visit ++ []) hslash
  obtain ⟨hevent, hcached, hkey, hexempt⟩ :
      PushEvent.ofText? (modified "http://h/a//") = some event ∧
        w.client.cache.contains "http://h/a/" = true ∧ key ∈ event.keys ∧
          key ∉ w.client.cache.exempt := by
    decide +kernel
  have htold := hnoticed.told _ event hevent hkey hexempt
  have hspelled : Address.key "/a" = Address.key "/a/" := by decide +kernel
  have hreported := hnoticed.reported { modified := ["/a"] } [] "/a" (by simp [Report.paths])
    (.inl ⟨by decide +kernel, hspelled⟩)
  exact ⟨hcached, hevent, htold.1, hreported⟩

/-- A frame with the path is not noticed. What it tells of is given to the next who asks, without a
second request, though a report with the path would have dropped it. -/
theorem run_misses_frame :
    let x := visited
      [.receive (modified "/a/"), .begin (.visit (.get (.real "/a/") [] {})) fun _ => true]
    let c := x.world.client
    PushEvent.ofText? (modified "/a/") = some { event := "modified", resource := "/a/" } ∧
      c.cache.contains (c.url "/a/") = true ∧
      (x.tasks.map fun task => task.resource?.isSome) = [true, true] ∧
      x.world.remote.log.length = 1 ∧
      (c.forgetTouched { modified := ["/a/"] } []).cache.contains (c.url "/a/") = false := by
  decide +kernel

end Executor

end ResourceClient

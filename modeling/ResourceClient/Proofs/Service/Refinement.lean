import Mathlib.Data.List.Induction
import ResourceClient.Proofs.Service.Faithfulness

/-!
A server that tells about its changes. Calls come one after the other, and the server may turn into
another one between two of them; as long as it names what has changed before the next call, or the
channel is down, no read can tell that there is a cache.
-/
namespace ResourceClient

namespace World

variable {σ : Type} (net : Network σ)

def runEvents (w : World σ) (events : List (ReadEvent σ)) : World σ := events.foldl (runEvent net) w

/-- The reads of a key have changed while the channel was up, as it has been since, and nothing has
told about it. -/
def Owed (start : World σ) (events : List (ReadEvent σ)) (key : String) : Prop :=
  ∃ before remote since, events = before ++ .change remote :: since ∧
    (start.runEvents net before).client.hub.connected = true ∧
    (start.runEvents net before).Differs net remote key ∧
    ∀ e ∈ since, ¬ e.IsCall ∧ ¬ e.Tells key ∧ e ≠ .setConnected false

/-- Before each call the server has told about every change that it owes. -/
def Announced (start : World σ) (events : List (ReadEvent σ)) : Prop :=
  ∀ before call after, events = before ++ call :: after → call.IsCall →
    ∀ key, ¬ start.Owed net before key

variable {net} {config : Config} {schema : Schema} {start : World σ} {events : List (ReadEvent σ)}

theorem runEvents_concat (start : World σ) (events : List (ReadEvent σ)) (e : ReadEvent σ) :
    start.runEvents net (events ++ [e]) = (start.runEvents net events).runEvent net e := by
  unfold runEvents
  rw [List.foldl_append]
  rfl

theorem Announced.of_append {more : List (ReadEvent σ)}
    (h : start.Announced net (events ++ more)) : start.Announced net events := by
  intro before call after hsplit hcall
  apply h before call (after ++ more)
  · rw [hsplit, List.append_assoc, List.cons_append]
  · exact hcall

theorem Announced.concat (h : start.Announced net events) {e : ReadEvent σ}
    (htold : e.IsCall → ∀ key, ¬ start.Owed net events key) :
    start.Announced net (events ++ [e]) := by
  intro before call after hsplit hcall
  rcases List.eq_nil_or_concat after with rfl | ⟨more, last, rfl⟩
  · obtain ⟨rfl, hlast⟩ := List.append_inj' hsplit rfl
    obtain rfl := List.singleton_inj.1 hlast
    exact htold hcall
  · rw [List.concat_eq_append, ← List.cons_append, ← List.append_assoc] at hsplit
    exact h before call more (List.append_inj' hsplit rfl).1 hcall

theorem not_owed_nil (start : World σ) (key : String) : ¬ start.Owed net [] key := by
  rintro ⟨before, remote, since, hsplit, -⟩
  cases before <;> cases hsplit

theorem announced_nil (start : World σ) : start.Announced net [] := by
  intro before call after hsplit
  cases before <;> cases hsplit

theorem Owed.concat {key : String} (h : start.Owed net events key) {e : ReadEvent σ}
    (hcall : ¬ e.IsCall) (htells : ¬ e.Tells key) (hstays : e ≠ .setConnected false) :
    start.Owed net (events ++ [e]) key := by
  obtain ⟨before, remote, since, rfl, hconnected, hdiffers, hsince⟩ := h
  refine ⟨before, remote, since ++ [e], by simp, hconnected, hdiffers, ?_⟩
  intro d hd
  rcases List.mem_append.1 hd with hd | hd
  · exact hsince d hd
  · obtain rfl := List.mem_singleton.1 hd
    exact ⟨hcall, htells, hstays⟩

theorem owed_change {key : String} {remote : σ}
    (hconnected : (start.runEvents net events).client.hub.connected = true)
    (hdiffers : (start.runEvents net events).Differs net remote key) :
    start.Owed net (events ++ [.change remote]) key :=
  ⟨events, remote, [], rfl, hconnected, hdiffers, fun _ h => absurd h List.not_mem_nil⟩

theorem Faithful.runEvent (hserves : net.Serves config schema)
    (h : (start.runEvents net events).Faithful net config schema (start.Owed net events))
    (e : ReadEvent σ) (hannounced : start.Announced net (events ++ [e])) :
    ((start.runEvents net events).runEvent net e).Faithful net config schema
      (start.Owed net (events ++ [e])) := by
  cases e with
  | get path params bypass =>
    have htold := hannounced events (.get path params bypass) [] rfl trivial
    exact (h.mono htold).get hserves path params bypass _
  | setCredentials credentials => exact h.setCredentials credentials _
  | receive text =>
    exact h.receive hserves text fun key howed htells => howed.concat nofun htells nofun
  | setConnected connected =>
    refine h.setConnected hserves connected ?_
    rintro rfl key howed
    exact howed.concat nofun nofun nofun
  | change remote =>
    apply h.change hserves remote
    intro key hlater
    rcases hlater with howed | ⟨hconnected, hdiffers⟩
    · exact howed.concat nofun nofun nofun
    · exact owed_change hconnected hdiffers

theorem faithful_runEvents (hserves : net.Serves config schema) (connected : Bool) (remote : σ)
    (events : List (ReadEvent σ))
    (hannounced : Announced net { client := .opened config schema connected, remote } events) :
    (runEvents net { client := .opened config schema connected, remote } events).Faithful net config
      schema (Owed net { client := .opened config schema connected, remote } events) := by
  induction events using List.reverseRecOn with
  | nil => exact faithful_opened config schema connected remote _
  | append_singleton events e ih =>
    rw [runEvents_concat]
    exact (ih hannounced.of_append).runEvent hserves e hannounced

end World

/-- The switch shows in what `/a/` reads and nowhere else. -/
def Network.switch : Network Bool where
  answer request on :=
    let shows := Address.key request.url = "http://localhost:6541/a/" ∧ on = true
    let path := if shows then "/a/" else "/b/"
    (.ok (.ofJson 200 (.object [("content_type", .string "pool"), ("path", .string path)])), on)

theorem Network.answer_switch {request : Request}
    (h : Address.key request.url ≠ "http://localhost:6541/a/") (on other : Bool) :
    (Network.switch.answer request on).1 = (Network.switch.answer request other).1 := by
  simp [Network.switch, h]

theorem Network.serves_switch (schema : Schema)
    (hplain : ∀ contentType, schema.isItem contentType = false) :
    Network.switch.Serves {} schema where
  still := fun _ _ _ => rfl
  slashes := by
    intro request url on _ hkey
    simp only [Network.switch, hkey]
  settled := by
    intro request address on other _ hurl hkey
    have hself : ({} : Config).url (({} : Config).url address) = ({} : Config).url address :=
      Client.url_url (c := {}) (by decide) address
    apply Network.answer_switch
    rw [hurl, hself]
    intro hshown
    rw [hshown] at hkey
    exact absurd hkey (by decide +kernel)
  versioned := by
    intro _ _ _ wire _ _ _ contentType _ hitem
    rw [hplain] at hitem
    cases hitem

theorem World.eq_of_differs_switch {w : World Bool} (hconfig : w.client.config = {}) {on : Bool}
    {key : String} (h : w.Differs Network.switch on key) : key = "http://localhost:6541/a/" := by
  obtain ⟨address, params, rfl, hdiffers⟩ := h
  have hbase : w.client.config.restUrl.toList.head? ≠ some '/' := by
    rw [hconfig]
    decide
  rw [← Client.url_url hbase, ← Client.url_readRequest w.client address params]
  exact Classical.byContradiction fun hother => hdiffers (Network.answer_switch hother _ _)

theorem World.announced_switch {schema : Schema} (hserves : Network.switch.Serves {} schema)
    (connected off on : Bool) (path : Path) (params : Table String) (bypass : Bool) {text : String}
    (hnamed : "http://localhost:6541/a/" ∈ (LiveCache.addressesIn text).map Address.key) :
    Announced Network.switch { client := .opened {} schema connected, remote := off }
      [.get path params bypass, .change on, .receive text, .get path params bypass] := by
  generalize hstart :
    ({ client := .opened {} schema connected, remote := off } : World Bool) = start
  have hfirst : start.Announced Network.switch [.get path params bypass] :=
    (announced_nil start).concat fun _ => not_owed_nil start
  have hconfig : (start.runEvents Network.switch [.get path params bypass]).client.config = {} := by
    subst hstart
    exact (faithful_runEvents hserves connected off _ hfirst).configured
  have hchanged : start.Announced Network.switch [.get path params bypass, .change on] :=
    hfirst.concat nofun
  have htold : start.Announced Network.switch
      [.get path params bypass, .change on, .receive text] :=
    hchanged.concat nofun
  refine htold.concat ?_
  rintro - key ⟨before, other, since, hsplit, -, hdiffers, hsince⟩
  rcases before with _ | ⟨e, _ | ⟨d, more⟩⟩
  · cases hsplit
  · obtain ⟨rfl, hrest⟩ := List.cons.inj hsplit
    obtain ⟨-, rfl⟩ := List.cons.inj hrest
    obtain rfl := eq_of_differs_switch hconfig hdiffers
    exact (hsince (.receive text) List.mem_cons_self).2.1 hnamed
  · have hlast := (List.cons.inj (List.cons.inj hsplit).2).2
    rcases more with _ | ⟨_, more⟩
    · cases hlast
    · exact absurd (List.cons.inj hlast).2.symm (List.append_ne_nil_of_right_ne_nil _ nofun)

namespace Service

open World

/-- However calls, frames, changes of the server and of the connection follow one another, a read
gives what it would give past the cache. -/
theorem getWith_eq_bypass {σ : Type} {net : Network σ} {config : Config} {schema : Schema}
    (hserves : net.Serves config schema) (connected : Bool) (remote : σ)
    (before after : List (ReadEvent σ)) (path : Path) (params : Table String) (bypass : Bool)
    (hannounced : Announced net { client := .opened config schema connected, remote }
      (before ++ .get path params bypass :: after)) :
    let there := runEvents net { client := .opened config schema connected, remote } before
    ((getWith path params { bypass }).runAmid net id there).1 =
      ((getWith path params { bypass := true }).runAmid net id there).1 := by
  intro there
  have htold := hannounced before _ after rfl trivial
  have hfaithful : there.Faithful net config schema fun _ => False :=
    (faithful_runEvents hserves connected remote before hannounced.of_append).mono htold
  cases path with
  | placeholder number => rfl
  | real address =>
    have hread := fun bypass => exists_runAmid_getWith net hserves.still hfaithful.idle.free address
      params bypass (hfaithful.held address params)
    obtain ⟨_, _, hcached, -⟩ := hread bypass
    obtain ⟨_, _, hpast, -⟩ := hread true
    rw [hcached, hpast]

/-- The switch is turned between two reads, and a frame tells about it. -/
theorem getWith_eq_bypass_switched :
    let schema : Schema := { resources := [("pool", {})] }
    let start : World Bool := { client := .opened {} schema true, remote := false }
    let frame := "\x7b\"event\": \"modified\", \"resource\": \"http://localhost:6541/a/\"\x7d"
    let read : ReadEvent Bool := .get (.real "/a/") [] false
    let there := runEvents Network.switch start [read, .change true, .receive frame]
    Network.switch.Serves {} schema ∧
      Announced Network.switch start [read, .change true, .receive frame, read] ∧
      ((getWith (.real "/a/") [] {}).runAmid Network.switch id there).1 =
        ((getWith (.real "/a/") [] { bypass := true }).runAmid Network.switch id there).1 := by
  intro schema start frame read there
  have hserves : Network.switch.Serves {} schema := by
    apply Network.serves_switch
    intro contentType
    by_cases hpool : contentType = "pool"
    · subst hpool
      decide
    · simp [schema, Schema.isItem, Schema.resource?, Table.get?_cons, hpool]
  have hannounced : start.Announced Network.switch [read, .change true, .receive frame, read] :=
    announced_switch hserves true false true (.real "/a/") [] false (by decide +kernel)
  exact ⟨hserves, hannounced, getWith_eq_bypass hserves true false
    [read, .change true, .receive frame] [] (.real "/a/") [] false hannounced⟩

end Service

end ResourceClient

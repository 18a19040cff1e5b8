import ResourceClient.Proofs.Client.Renewal
import ResourceClient.Proofs.Service.Executor

namespace ResourceClient

open RelyGuarantee Service

variable {σ : Type}

section

variable (config : Config) (net : Network σ)

theorem stable_renewal : (renewal config net).Stable where
  record := fun happening h => h.record happening
  fetchAnswer := fun request h => h.fetchAnswer net request
  shrink := fun h hd => h.shrink hd

variable {config} in
theorem preservedBy_fetchShared {plan : Fetch} (hplain : plan.listing = none)
    {address subkey : String}
    (hurl : config.url plan.url = address) (hsubkey : Query.render plan.params = subkey) :
    (renewal config net).PreservedBy (fetchShared address subkey plan) := by
  refine ⟨fun start w hholds hleads => ?_⟩
  apply keeps_action_bind
  apply keeps_act
  have hlease := Client.memoize_fetch address subkey plan w.client
  rw [World.Plain.isLive hholds, if_pos rfl] at hlease
  cases hslot : w.client.cache.slot? (Address.key address) subkey with
  | some ticket =>
    rw [hslot] at hlease
    rw [hlease]
    exact (PreservedBy.join ticket).keeps start w hholds hleads
  | none =>
    rw [hslot] at hlease
    rw [hlease]
    refine keeps_join_of fun arrived => ?_
    have hurl : w.client.url plan.url = address := by
      rw [Client.url, World.Plain.config_eq hholds, hurl]
    obtain ⟨hthere, hback⟩ := World.Plain.startRead hholds net arrived hplain hurl hsubkey
    exact ⟨hthere, hleads.trans hback⟩

variable {config} in
theorem stableUnderReads_renewal (hconfig : config.IsAnchored) :
    (renewal config net).StableUnderReads where
  toStable := stable_renewal config net
  reads := by
    intro path params bypass
    refine Ensures.need_bind (fun _ _ => trivial) fun {address} _ => ?_
    refine Ensures.look_bind fun {v} hv => ?_
    have hurl : config.url (v.client.url address) = v.client.url address := by
      rw [Client.url, World.Plain.config_eq hv, hconfig.url_url]
    let plan : Fetch := { url := v.client.url address, params }
    have hplain : plan.listing = none := rfl
    cases bypass with
    | true => exact (stable_renewal config net).fetch hplain
    | false => exact preservedBy_fetchShared net hplain hurl rfl

end

namespace Service.Operation

def write? : Operation → Option Write
  | .visit (.write call) => some call
  | _ => none

def isPlain : Operation → Bool
  | .visit (.get _ _ options) => !options.warmup
  | _ => true

/-- A write that succeeds leaves nothing of its target in the cache. -/
def Settles (config : Config) (operation : Operation) (reply : Reply) (w : World σ) : Prop :=
  ∀ write address, operation.write? = some write → write.target = .real address →
    (∀ fault, reply ≠ .fault fault) → w.client.HasForgotten (config.url address)

theorem settles_of_isOther {operation : Operation} (h : operation.isOther = true) (config : Config)
    (reply : Reply) (w : World σ) : operation.Settles config reply w := by
  intro write address hwrite
  unfold write? at hwrite
  split at hwrite
  · cases h
  · cases hwrite

variable {config : Config} {net : Network σ} {start w : World σ}

/-- Whatever goes on while it waits, a call lets slots be filled anew only. -/
theorem keeps_renewal (hconfig : config.IsAnchored) {operation : Operation}
    (hplain : operation.isPlain = true) (hholds : w.Plain config) (hleads : start.Renews w) :
    (renewal config net).Keeps ((renewal config net).Ends (operation.Settles config)) operation.flow
      start w := by
  have hreads := stableUnderReads_renewal net hconfig
  by_cases hother : operation.isOther = true
  · exact hreads.keeps_other hholds hleads hother (settles_of_isOther hother config)
  match operation with
  | .visit (.get path params options) =>
    obtain ⟨warmup, bypass⟩ := options
    obtain rfl : warmup = false := by simpa [isPlain] using hplain
    exact keeps_replyTo (fun _ _ _ _ _ hwrite => nomatch hwrite)
      ((hreads.reads path params bypass).keeps start w hholds hleads)
  | .visit (.write call) =>
    refine hreads.keeps_write hholds hleads call ?_
    rintro α reply outcome v hcleared write address ⟨⟩ hreal hok
    cases outcome with
    | error fault => exact absurd rfl (hok fault)
    | ok value =>
      obtain ⟨u, other, hu, hother, hforgotten⟩ := hcleared rfl
      obtain rfl : other = address := Path.real.inj (hother.symm.trans hreal)
      rw [← World.Plain.config_eq hu]
      exact hforgotten

end Service.Operation

theorem World.Plain.setUser {config : Config} {w : World (Ledger σ)} (h : w.Plain config)
    (credentials : Option Credentials) :
    (w.setUser credentials).Plain config ∧ w.Renews (w.setUser credentials) := by
  obtain ⟨hplain, hrenews⟩ := h.setCredentials credentials
  exact ⟨⟨hplain.inSync, hplain.connected, hplain.free, hplain.config_eq, hplain.awaiting⟩,
    ⟨hrenews.trace, hrenews.flights, hrenews.slots⟩⟩

theorem hosts_renewal {config : Config} {net : Network σ} (hconfig : config.IsAnchored) :
    (renewal config net.recorded).Hosts (fun operation _ _ => operation.Settles config)
      Operation.isPlain where
  begin := fun _ hplain h => Operation.keeps_renewal hconfig hplain h (.refl _)
  setUser := fun credentials h => h.setUser credentials
  receive := fun text h => h.shrink (Client.shrinks_receive h.inSync h.free text)
  drawName := fun h => h.shrink (Client.shrinks_names _ _)

section

variable {config : Config} {net : Network σ} {w v : World σ} {p q : String}

theorem Client.HasForgotten.entryAt?_eq_none {c : Client} (h : c.HasForgotten (config.url p))
    (hconfig : config.IsAnchored) (hp : Address.IsLocal p)
    (hq : config.Spells p q ∨ config.Spells (Address.parent p) q) :
    c.cache.entryAt? (Address.key (config.url q)) = none := by
  obtain hq | hq := hq
  · rw [hconfig.key_url_of_spells hp.slash hq]
    exact h.1
  · rw [hconfig.key_url_of_spells hp.head?_parent hq]
    obtain hkey | hkey := hp.key_url_parent config <;> rw [hkey]
    · exact h.1
    · exact h.2

/-- A get of what was not in the cache in `w` sends its request, or shares a flight that has started
since. -/
theorem World.Renews.get (hrenews : w.Renews v) (hplain : v.Plain config)
    (hconfig : config.IsAnchored) (hunmarked : startsWithSentinel (config.url q) = false)
    (hempty : w.client.cache.entryAt? (Address.key (config.url q)) = none)
    (params : Table String) (bypass : Bool) (arrived : Request → Bool) :
    let get : Visit := .get (.real q) params { bypass }
    (∃ request, v.Asks (get.flow.turn net arrived v).2 request ∧
      request.method = .get ∧ request.url = config.url q ∧ request.params = params) ∨
    ∃ ticket, get.shared? v.client = some ticket ∧ w.client.cache.flights.length ≤ ticket ∧
      w.AskedSince v (Address.key (config.url q)) (Query.render params) := by
  intro get
  have hurl : v.client.url = config.url := congrArg Config.url hplain.config_eq
  cases hshared : get.shared? v.client with
  | none =>
    left
    have hopens : get.flow.Opens net arrived v (getRequest (.real q) params { bypass } v.client) :=
      get.opens_flow hshared
    rw [getRequest_plain (by rwa [hurl])] at hopens
    refine ⟨_, hopens, ?_⟩
    rw [hurl, hconfig.url_url]
    exact ⟨Client.method_signed _ _, Client.url_signed _ _, Client.params_signed _ _⟩
  | some ticket =>
    right
    have hslot : v.client.cache.slot? (Address.key (config.url q)) (Query.render params) =
        some ticket := by
      simp only [get, Visit.shared?, sharedFlight?, hplain.isLive, hurl] at hshared
      cases bypass with
      | true => cases hshared
      | false => exact hshared
    obtain hold | hnew := hrenews.slots hslot
    · have hsome := LiveCache.entryAt?_isSome_of_slot? hold
      rw [hempty] at hsome
      cases hsome
    · exact ⟨ticket, rfl, hnew⟩

end

namespace Executor

/-- With this event the call comes to its end. -/
structure Returns (net : Network σ) (x : Executor σ) (event : Event) (i : Nat)
    (operation : Operation) (reply : Reply) : Prop where
  busy : x.IsOpen i
  done : ∃ task, (x.step net event).tasks[i]? = some task ∧ task.operation = operation ∧
    task.flow = .done reply

variable {config : Config} {p q : String}

/-- A get that begins after a write has succeeded, of its target or of the collection above, sends
its request, or shares a flight that has started since and whose request has been sent since. -/
theorem get_after_write (net : Network σ) (hconfig : config.IsAnchored) (schema : Schema)
    (remote : σ) (hp : Address.IsLocal p) {events later : List Event} {event : Event}
    (hplain : ∀ e ∈ events ++ event :: later, e.begins Operation.isPlain = true) {i : Nat}
    {write : Write} (htarget : write.target = .real p) {reply : Reply}
    (hreturns : ((opened config schema remote).run net events).Returns net event i
      (.visit (.write write)) reply)
    (hok : ∀ fault, reply ≠ .fault fault)
    (hq : config.Spells p q ∨ config.Spells (Address.parent p) q) (params : Table String)
    (bypass : Bool) (arrived : Request → Bool) :
    let returned := ((opened config schema remote).run net events).step net event
    let there := returned.run net later
    let get : Visit := .get (.real q) params { bypass }
    (∃ request, there.world.Asks (get.flow.turn net.recorded arrived there.world).2 request ∧
      request.method = .get ∧ request.url = config.url q ∧ request.params = params) ∨
    ∃ ticket, get.shared? there.world.client = some ticket ∧
      returned.world.client.cache.flights.length ≤ ticket ∧
      returned.world.AskedSince there.world (Address.key (config.url q))
        (Query.render params) := by
  intro returned there get
  let busy := (opened config schema remote).run net events
  have hhosts : (renewal config net.recorded).Hosts
      (fun operation _ _ => operation.Settles config) Operation.isPlain := hosts_renewal hconfig
  have hopened : (opened config schema remote).Sound (renewal config net.recorded)
      fun operation _ _ => operation.Settles config :=
    sound_opened (World.Plain.opened config schema ({ remote } : Ledger σ))
  obtain ⟨hsound, -⟩ := hopened.run hhosts fun e he => hplain e (List.mem_append_left _ he)
  have hevolves : Evolves _ _ busy returned := hsound.step hhosts (hplain event (by simp))
  obtain ⟨hthere, hrenews⟩ := hevolves.sound.run hhosts fun e he =>
    hplain e (List.mem_append_right _ (List.mem_cons_of_mem _ he))
  obtain ⟨task, htask, hoperation, hdone⟩ := hreturns.done
  have hsettles := hevolves.settles hreturns.busy htask hdone
  rw [hoperation] at hsettles
  have hforgotten : returned.world.client.HasForgotten (config.url p) :=
    hsettles write p rfl htarget hok
  have hunmarked : startsWithSentinel (config.url q) = false :=
    hq.elim hconfig.unmarked_of_spells hconfig.unmarked_of_spells
  exact World.Renews.get hrenews hthere.holds hconfig hunmarked
    (hforgotten.entryAt?_eq_none hconfig hp hq) params bypass arrived

def absent : Network Unit := { answer := fun _ remote => (.ok { status := 204 }, remote) }

/-- A read of a resource is under way while it is deleted. -/
def reading : List Event :=
  [.begin (.visit (.get (.real "/a/b/") [] {})) fun _ => false,
    .begin (.visit (.write (.delete (.real "/a/b/")))) fun _ => false]

def finish (task : Nat) : Event := .turn task fun _ => true

def start : Executor Unit := opened { restUrl := "http://h/api/" } {} ()

/-- When the read has come to its end too, the collection is asked for anew. -/
theorem get_after_write_of_delete :
    let busy := start.run absent reading
    let returned := busy.step absent (finish 1)
    let there := returned.run absent [finish 0]
    let get : Visit := .get (.real "http://h/api/a") [] {}
    busy.Returns absent (finish 1) 1 (.visit (.write (.delete (.real "/a/b/")))) (.text "deleted") ∧
      ∃ request, there.world.Asks (get.flow.turn absent.recorded (fun _ => true) there.world).2
        request ∧ request.url = "http://h/api/a" := by
  intro busy returned there get
  have hbusy : busy.tasks[1]?.map (·.flow.isDone) = some false := rfl
  have hreturns : busy.Returns absent (finish 1) 1 (.visit (.write (.delete (.real "/a/b/"))))
      (.text "deleted") := by
    refine ⟨fun task htask => ?_, _, rfl, rfl, rfl⟩
    rw [htask] at hbusy
    exact Option.some.inj hbusy
  have hconfig : Config.IsAnchored { restUrl := "http://h/api/" } :=
    ⟨by decide +kernel, by decide +kernel⟩
  have hlocal : Address.IsLocal "/a/b/" := ⟨by decide +kernel, by decide +kernel, by decide +kernel⟩
  have hspells : Config.Spells { restUrl := "http://h/api/" } (Address.parent "/a/b/")
      "http://h/api/a" :=
    ⟨"/a", by decide +kernel, by decide +kernel, .inr (by decide +kernel)⟩
  have hplain : ∀ e ∈ reading ++ finish 1 :: [finish 0], e.begins Operation.isPlain = true := by
    decide
  have halone : get.shared? there.world.client = none := by decide +kernel
  refine ⟨hreturns, ?_⟩
  obtain ⟨request, hasks, -, hurl, -⟩ | ⟨ticket, hshared, -⟩ :=
    get_after_write absent hconfig {} () hlocal hplain rfl hreturns nofun (.inr hspells) [] false
      fun _ => true
  · have habsolute : Config.url { restUrl := "http://h/api/" } "http://h/api/a" =
        "http://h/api/a" := by decide +kernel
    exact ⟨request, hasks, hurl.trans habsolute⟩
  · cases halone.symm.trans hshared

end Executor

end ResourceClient

import ResourceClient.Proofs.Service.Attribution
import ResourceClient.Proofs.Service.Executor

/-!
Whose answers a get gives. A get gives what was asked for in the name of the user it was begun by;
only the elements of an answer are put in the name of whoever is the user when it comes.
-/
namespace ResourceClient

open RelyGuarantee Service

variable {σ : Type} {net : Network σ} {start w v : World (Ledger σ)}

namespace Service.Operation

def isGet : Operation → Bool
  | .visit (.get ..) => true
  | _ => false

def Answers (operation : Operation) (credentials : Option Credentials) (since : Nat)
    (reply : Reply) (w : World (Ledger σ)) : Prop :=
  operation.isGet = true → ∀ r, reply = .resource r → Sourced w.remote.log credentials since r

theorem Answers.mono {operation : Operation} {credentials : Option Credentials} {since : Nat}
    {reply : Reply} (h : operation.Answers credentials since reply w) (hv : Succeeds w v) :
    operation.Answers credentials since reply v :=
  fun hget r hr => (h hget r hr).mono hv.log

end Service.Operation

variable (net) in
theorem keeps_flow (h : Advances start w) (operation : Operation) :
    (attribution net).Keeps
      ((attribution net).Ends (operation.Answers w.client.credentials w.remote.since))
      operation.flow start w := by
  have hreads := stableUnderReads_attribution net
  by_cases hother : operation.isOther = true
  · refine hreads.keeps_other h.guarded h.succeeds hother fun reply w hget => ?_
    unfold Operation.isGet at hget
    split at hget
    · cases hother
    · cases hget
  match operation with
  | .visit (.get path params options) =>
    apply keeps_replyTo _ (keeps_getWith h path params options)
    intro outcome w haccounted _ r hr
    cases outcome with
    | error fault => cases hr
    | ok resource =>
      cases hr
      exact haccounted r rfl
  | .visit (.write call) =>
    refine hreads.keeps_write h.guarded h.succeeds call ?_
    intro _ reply outcome w _ hget
    cases hget

theorem hosts_attribution :
    (attribution net).Hosts Operation.Answers fun _ => true where
  begin := fun operation _ h => keeps_flow net h.refl operation
  setUser := fun credentials h =>
    ⟨(h.setCredentials credentials).guarded, (h.setCredentials credentials).succeeds⟩
  receive := fun text h =>
    (stable_attribution net).shrink h (Client.shrinks_receive h.inSync h.free text)
  drawName := fun h => (stable_attribution net).shrink h (Client.shrinks_names _ _)

variable (net) in
/-- Whoever asks for an element of an answer that has just come gets it, and sends no request. -/
def World.Spreads (w : World (Ledger σ)) : Prop :=
  ∀ ticket key subkey plan request before s after address,
    let there := w.drive net.recorded ticket
    w.flight? ticket = some (.running key subkey (.answer plan request)) →
    w.client.seedsIn plan (w.fetchAnswer net.recorded request).1 = before ++ s :: after →
    (∀ t ∈ after, Address.key t.address ≠ Address.key s.address) →
    Address.key (there.client.url address) = Address.key s.address →
    ∀ arrived, (Visit.get (.real address) [] {}).flow.turn net.recorded arrived there =
      (.done (.resource s.resource), there)

theorem Guarded.spreads (h : Guarded w) : w.Spreads net := by
  intro ticket key subkey plan request before s after address there hrunning hseeds hlast haddress
  have hthere : Guarded there := by
    have hdriven := (h.driveWhen net (fun _ => true) ticket).guarded
    rwa [World.driveWhen_all] at hdriven
  have hholds := w.holds_of_drive net.recorded h.isLive hrunning hseeds hlast
  rw [← haddress] at hholds
  exact fun arrived => Service.turn_get_of_holds address hthere.isLive hholds

namespace Executor

theorem sound_run_opened (net : Network σ) (config : Config) (schema : Schema) (remote : σ)
    (events : List Event) :
    ((opened config schema remote).run net events).Sound (attribution net) Operation.Answers := by
  have hguarded : Guarded (opened config schema remote).world := .opened config schema remote
  have hopened : (opened config schema remote).Sound (attribution net) Operation.Answers :=
    sound_opened hguarded
  refine (hopened.run hosts_attribution fun event _ => ?_).1
  cases event <;> rfl

variable (net) in
/-- Whatever a get gives was asked for in the name of the user it was begun by, or else it is an
element of an answer that came when this was the user, to a request in another name. Such an element
is given to whoever asks for it next, without a request. -/
theorem run_isolated (config : Config) (schema : Schema) (remote : σ) (events : List Event) :
    let x := (opened config schema remote).run net events
    (∀ task ∈ x.tasks, task.operation.isGet = true → ∀ r, task.resource? = some r →
      Sourced x.world.remote.log task.credentials task.since r) ∧
    x.world.Spreads net := by
  intro x
  have hsound : x.Sound (attribution net) Operation.Answers :=
    sound_run_opened net config schema remote events
  refine ⟨fun task htask hget r hr => ?_, Guarded.spreads hsound.holds⟩
  have hdone : task.flow = .done (.resource r) := by
    unfold Task.resource? at hr
    split at hr
    · next hflow =>
      cases hr
      exact hflow
    · cases hr
  have hends := hsound.resumable task htask (fun _ _ _ _ hv h => h.mono hv) x.world (.refl _)
    hsound.holds
  rw [hdone] at hends
  exact hends.2.2 hget r rfl

def onePool : Network Unit where
  answer _ remote :=
    let wire (address : String) (data : Table Json) : Json :=
      .object [("content_type", .string "pool"), ("path", .string address), ("data", .object data)]
    let elements : Json := .object [("elements", .array [wire "http://h/a/" []])]
    (.ok (.ofJson 200 (wire "http://h/" [(Known.pool, elements)])), remote)

def bob : Credentials := { user := "/bob/", token := "1" }

def onlyPools : Schema := { resources := [("pool", {})] }

def config : Config := { restUrl := "http://h" }

def change (events : List Event) : List Event :=
  .begin (.visit (.get (.real "/") [] { warmup := true })) (fun _ => true) ::
    .setCredentials bob :: events

/-- The user changes while a pool is being warmed up. -/
def changed (events : List Event) : Executor Unit :=
  (opened config onlyPools ()).run onePool (change events)

def awaited (ticket : Ticket) (w : World (Ledger Unit)) : List Wire.Seed :=
  match w.flight? ticket with
  | some (.running _ _ (.answer plan request)) =>
    w.client.seedsIn plan (w.fetchAnswer onePool.recorded request).1
  | _ => []

/-- The pool is given to whoever had asked for it, and its element to the new user. -/
theorem run_isolated_of_change :
    (∃ task ∈ (changed [.turn 0 fun _ => true]).tasks, ∃ r, task.resource? = some r ∧
      Sourced (changed [.turn 0 fun _ => true]).world.remote.log task.credentials
        task.since r) ∧
    let there := (changed []).world.drive onePool.recorded 0
    ∃ r, (Visit.get (.real "/a/") [] {}).flow.turn onePool.recorded (fun _ => true) there =
      (.done (.resource r), there) := by
  constructor
  · have hanswered : (changed [.turn 0 fun _ => true]).tasks.any
        (fun task => task.operation.isGet && task.resource?.isSome) = true := by decide +kernel
    obtain ⟨task, htask, hboth⟩ := List.any_eq_true.1 hanswered
    obtain ⟨hget, hsome⟩ := Bool.and_eq_true_iff.1 hboth
    obtain ⟨r, hr⟩ := Option.isSome_iff_exists.1 hsome
    have hisolated := run_isolated onePool config onlyPools () (change [.turn 0 fun _ => true])
    exact ⟨task, htask, r, hr, hisolated.1 task htask hget r hr⟩
  · intro there
    let w := (changed []).world
    have hready : (awaited 0 w).map (·.address) = ["http://h/a/"] := by decide +kernel
    have hkey : Address.key (there.client.url "/a/") = Address.key "http://h/a/" := by
      decide +kernel
    have hspreads : w.Spreads onePool := (run_isolated onePool config onlyPools () (change [])).2
    obtain ⟨s, hawaited, haddress⟩ := List.map_eq_singleton_iff.1 hready
    rw [← haddress] at hkey
    unfold awaited at hawaited
    split at hawaited
    · next key subkey plan request hrunning =>
      have hfound := hspreads 0 key subkey plan request [] s [] "/a/" hrunning hawaited (by simp)
        hkey
      exact ⟨s.resource, hfound _⟩
    · cases hawaited

/-- Nothing was asked for in the name of the new user, who is answered all the same. -/
theorem run_leaks :
    let x := changed
      [.turn 0 fun _ => true, .begin (.visit (.get (.real "/a/") [] {})) fun _ => true]
    (x.tasks.any fun task =>
      task.operation.isGet && task.credentials == some bob && task.resource?.isSome) = true ∧
    ∀ headers ∈ x.world.remote.log.map (·.request.headers), headers ≠ headersOf (some bob) := by
  decide +kernel

end Executor

end ResourceClient

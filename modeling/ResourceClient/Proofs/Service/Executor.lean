import ResourceClient.Proofs.Client.Ledger
import ResourceClient.Proofs.Service.Guarantees

/-!
Any number of calls under way together, with answers that arrive in any order, users that come and
go and frames that are received. Whatever every call keeps while the others go on is kept by the
whole.
-/
namespace ResourceClient

open RelyGuarantee Service

variable {σ : Type}

structure Task where
  operation : Operation
  /-- The user it was begun by. -/
  credentials : Option Credentials
  /-- How much had been answered when this user came. -/
  since : Nat
  flow : Flow Reply

def Task.resource? (task : Task) : Option Resource :=
  match task.flow with
  | .done (.resource r) => some r
  | _ => none

def World.setUser (credentials : Option Credentials) (w : World (Ledger σ)) : World (Ledger σ) :=
  { w with
    client := w.client.setCredentials credentials
    remote := { w.remote with since := w.remote.log.length } }

structure Executor (σ : Type) where
  world : World (Ledger σ)
  tasks : List Task := []

namespace Executor

/-- A turn waits for answers that have not `arrived`. -/
inductive Event where
  | begin (operation : Operation) (arrived : Request → Bool)
  | turn (task : Nat) (arrived : Request → Bool)
  | setCredentials (credentials : Option Credentials)
  | receive (text : String)
  | drawName

def Event.begins (allowed : Operation → Bool) : Event → Bool
  | .begin operation _ => allowed operation
  | _ => true

variable (net : Network σ)

def begin (operation : Operation) (arrived : Request → Bool) (x : Executor σ) : Executor σ :=
  let (flow, world) := operation.flow.turn net.recorded arrived x.world
  let task : Task :=
    { operation
      credentials := x.world.client.credentials
      since := x.world.remote.since
      flow }
  { world, tasks := x.tasks ++ [task] }

def turn (i : Nat) (arrived : Request → Bool) (x : Executor σ) : Executor σ :=
  match x.tasks[i]? with
  | none => x
  | some task =>
    let (flow, world) := task.flow.turn net.recorded arrived x.world
    { world, tasks := x.tasks.set i { task with flow } }

def mapWorld (f : World (Ledger σ) → World (Ledger σ)) (x : Executor σ) : Executor σ :=
  { x with world := f x.world }

def step (event : Event) (x : Executor σ) : Executor σ :=
  match event with
  | .begin operation arrived => x.begin net operation arrived
  | .turn task arrived => x.turn net task arrived
  | .setCredentials credentials => x.mapWorld (World.setUser credentials)
  | .receive text => x.mapWorld (World.mapClient (Client.receive text))
  | .drawName => x.mapWorld (World.mapClient fun c => c.drawName.2)

def run (events : List Event) (x : Executor σ) : Executor σ :=
  events.foldl (fun x event => x.step net event) x

def opened (config : Config) (schema : Schema) (remote : σ) : Executor σ :=
  { world := { client := Client.opened config schema true, remote := { remote } } }

def IsOpen (x : Executor σ) (i : Nat) : Prop :=
  ∀ task, x.tasks[i]? = some task → task.flow.isDone = false

theorem IsOpen.not_done {x : Executor σ} {i : Nat} (h : x.IsOpen i) {task : Task} {reply : Reply}
    (htask : x.tasks[i]? = some task) : task.flow ≠ .done reply := by
  intro hdone
  have hopen := h task htask
  rw [hdone] at hopen
  cases hopen

end Executor

namespace RelyGuarantee

variable {net : Network σ} (a : RelyGuarantee net.recorded)

/-- Whatever others do, it stays true of a call that is done. -/
def Lasts (result : Reply → World (Ledger σ) → Prop) : Prop :=
  ∀ reply v w, a.leads v w → result reply v → result reply w

variable {a} in
theorem turn_of_keeps_ends {result : Reply → World (Ledger σ) → Prop} {flow : Flow Reply}
    {w : World (Ledger σ)} (arrived : Request → Bool) (hkeeps : a.Keeps (a.Ends result) flow w w) :
    let after := flow.turn net.recorded arrived w
    a.holds after.2 ∧ a.leads w after.2 ∧
      ((after.1.isDone = true → a.Lasts result) → a.Resumable result after.1 after.2) ∧
      ∀ reply, after.1 = .done reply → result reply after.2 := by
  intro after
  obtain ⟨hholds, hleads, ⟨reply, hdone, hresult⟩ | hresumable⟩ := turn_of_keeps arrived hkeeps
  · have hafter : after.1 = .done reply := hdone
    refine ⟨hholds, hleads, fun hlasts v hv hv' => ?_, fun other hother => ?_⟩
    · rw [hafter]
      exact ⟨hv', a.refl v, hlasts (congrArg Flow.isDone hafter) reply _ v hv hresult⟩
    · cases hafter.symm.trans hother
      exact hresult
  · refine ⟨hholds, hleads, fun _ => hresumable, fun reply hdone => ?_⟩
    have hends := hresumable after.2 (a.refl _) hholds
    rw [hdone] at hends
    exact hends.2.2

abbrev Results (σ : Type) :=
  Operation → Option Credentials → Nat → Reply → World (Ledger σ) → Prop

variable (result : Results σ)

/-- The operations that are allowed keep the pair and end with their results; a change of user, a
frame and a draw keep the pair. -/
structure Hosts (allowed : Operation → Bool) : Prop where
  begin : ∀ {w} operation, allowed operation = true → a.holds w →
    a.Keeps (a.Ends (result operation w.client.credentials w.remote.since)) operation.flow w w
  setUser : ∀ {w} credentials, a.holds w →
    a.holds (w.setUser credentials) ∧ a.leads w (w.setUser credentials)
  receive : ∀ {w} text, a.holds w →
    a.holds (w.mapClient (Client.receive text)) ∧ a.leads w (w.mapClient (Client.receive text))
  drawName : ∀ {w}, a.holds w →
    a.holds (w.mapClient fun c => c.drawName.2) ∧ a.leads w (w.mapClient fun c => c.drawName.2)

end RelyGuarantee

namespace Executor

variable {net : Network σ} (a : RelyGuarantee net.recorded) (result : Results σ)

/-- Every task can be resumed. Of one that is done this is asked only if its result lasts. -/
structure Sound (x : Executor σ) : Prop where
  holds : a.holds x.world
  resumable : ∀ task ∈ x.tasks,
    (task.flow.isDone = true → a.Lasts (result task.operation task.credentials task.since)) →
      a.Resumable (result task.operation task.credentials task.since) task.flow x.world

structure Evolves (x next : Executor σ) : Prop where
  sound : next.Sound a result
  leads : a.leads x.world next.world
  /-- Whatever has just come to an end has its result. -/
  settles : ∀ {i : Nat} {task : Task} {reply}, x.IsOpen i → next.tasks[i]? = some task →
    task.flow = .done reply → result task.operation task.credentials task.since reply next.world

variable {a result} {x : Executor σ} {allowed : Operation → Bool}

theorem Sound.begin (h : x.Sound a result) (hhosts : a.Hosts result allowed)
    {operation : Operation} (hallowed : allowed operation = true) (arrived : Request → Bool) :
    Evolves a result x (x.begin net operation arrived) := by
  obtain ⟨hholds, hleads, hresumable, hsettles⟩ :=
    turn_of_keeps_ends arrived (hhosts.begin operation hallowed h.holds)
  refine ⟨⟨hholds, fun task htask => ?_⟩, hleads, fun {i task reply} hopen htask hdone => ?_⟩
  · rcases List.mem_append.1 htask with hold | hnew
    · exact fun hlasts => (h.resumable task hold hlasts).mono hleads
    · obtain rfl := List.mem_singleton.1 hnew
      exact hresumable
  · change (x.tasks ++ [_])[i]? = _ at htask
    rcases LiveCache.getElem?_snoc_iff.1 htask with hold | ⟨-, rfl⟩
    · exact absurd hdone (hopen.not_done hold)
    · exact hsettles reply hdone

theorem Sound.turn (h : x.Sound a result) (i : Nat) (arrived : Request → Bool) :
    Evolves a result x (x.turn net i arrived) := by
  unfold Executor.turn
  cases hi : x.tasks[i]? with
  | none => exact ⟨h, a.refl _, fun hopen htask hdone => absurd hdone (hopen.not_done htask)⟩
  | some task =>
    have hmem := List.mem_of_getElem? hi
    cases hended : task.flow.isDone with
    | true =>
      -- Nothing is left to do.
      have hsame : x.tasks.set i task = x.tasks := by
        obtain ⟨hlt, rfl⟩ := List.getElem?_eq_some_iff.1 hi
        exact List.set_getElem_self hlt
      dsimp only
      rw [Flow.turn_of_isDone net.recorded arrived hended, hsame]
      exact ⟨h, a.refl _, fun hopen htask hdone => absurd hdone (hopen.not_done htask)⟩
    | false =>
      have hnow := h.resumable task hmem (by simp [hended]) x.world (a.refl _) h.holds
      obtain ⟨hholds, hleads, hresumable, hsettles⟩ := turn_of_keeps_ends arrived hnow
      refine ⟨⟨hholds, fun other hother => ?_⟩, hleads,
        fun {j other reply} hopen hthere hdone => ?_⟩
      · rcases List.mem_or_eq_of_mem_set hother with hold | rfl
        · exact fun hlasts => (h.resumable other hold hlasts).mono hleads
        · exact hresumable
      · rw [List.getElem?_set] at hthere
        split at hthere
        · split at hthere
          · obtain rfl := Option.some.inj hthere
            exact hsettles reply hdone
          · cases hthere
        · exact absurd hdone (hopen.not_done hthere)

theorem Sound.mapWorld (h : x.Sound a result) {f : World (Ledger σ) → World (Ledger σ)}
    (hf : a.holds (f x.world) ∧ a.leads x.world (f x.world)) :
    Evolves a result x (x.mapWorld f) where
  sound := ⟨hf.1, fun task htask hlasts => (h.resumable task htask hlasts).mono hf.2⟩
  leads := hf.2
  settles := fun hopen htask hdone => absurd hdone (hopen.not_done htask)

theorem Sound.step (h : x.Sound a result) (hhosts : a.Hosts result allowed) {event : Event}
    (hallowed : event.begins allowed = true) :
    Evolves a result x (x.step net event) := by
  cases event with
  | begin operation arrived => exact h.begin hhosts hallowed arrived
  | turn i arrived => exact h.turn i arrived
  | setCredentials credentials => exact h.mapWorld (hhosts.setUser credentials h.holds)
  | receive text => exact h.mapWorld (hhosts.receive text h.holds)
  | drawName => exact h.mapWorld (hhosts.drawName h.holds)

theorem Sound.run (h : x.Sound a result) (hhosts : a.Hosts result allowed) {events : List Event}
    (hallowed : ∀ event ∈ events, event.begins allowed = true) :
    (x.run net events).Sound a result ∧ a.leads x.world (x.run net events).world := by
  induction events generalizing x with
  | nil => exact ⟨h, a.refl _⟩
  | cons event rest ih =>
    have hevolves := h.step hhosts (hallowed event List.mem_cons_self)
    obtain ⟨hsound, hleads⟩ := ih hevolves.sound fun e he => hallowed e (List.mem_cons_of_mem _ he)
    exact ⟨hsound, a.trans hevolves.leads hleads⟩

theorem sound_opened {config : Config} {schema : Schema} {remote : σ}
    (h : a.holds (opened config schema remote).world) :
    (opened config schema remote).Sound a result :=
  ⟨h, fun _ htask => absurd htask List.not_mem_nil⟩

end Executor

end ResourceClient

import ResourceClient.Client.World

/-!
Calls side by side. A call goes on in turns, and in a turn it may find that the answer it waits
for is not there yet. What holds whenever nobody is in the middle of a turn, and how the world may
change meanwhile, is agreed on beforehand, so each call is proved on its own.
-/
namespace ResourceClient

variable {σ α β : Type} (net : Network σ)

namespace World

def driveWhen (arrived : Request → Bool) (ticket : Ticket) (w : World σ) : World σ :=
  match w.flight? ticket with
  | some (.running key subkey (.answer plan request)) =>
    if arrived request then w.driveJob net ticket key subkey (.answer plan request) else w
  | _ => w.drive net ticket

theorem driveWhen_all (ticket : Ticket) (w : World σ) :
    w.driveWhen net (fun _ => true) ticket = w.drive net ticket := by
  unfold driveWhen
  split
  · next key subkey plan request hflight => simp only [drive, hflight, if_true]
  · rfl

end World

namespace Flow

/-- Goes on until the flow is done or has to wait, while some answers have not arrived. -/
def turn (arrived : Request → Bool) : Flow α → World σ → Flow α × World σ
  | .done value, w => (.done value, w)
  | .read next, w => turn arrived (next w.client) w
  | .write client next, w => turn arrived next { w with client }
  | .send request next, w => (.sent request next, w.record (.requested request))
  | .sent request next, w =>
    if arrived request then
      let (answer, w) := w.fetchAnswer net request
      turn arrived (next answer) w
    else (.sent request next, w)
  | .rest wait next, w => turn arrived next (w.record (.rested wait))
  | .pause next, w => (next, w)
  | .await ticket next, w =>
    let w := w.driveWhen net arrived ticket
    match w.outcome? ticket with
    | some outcome => turn arrived (next outcome) w
    | none => (.await ticket next, w)

theorem turn_of_isDone (arrived : Request → Bool) {f : Flow α} (h : f.isDone = true)
    (w : World σ) : f.turn net arrived w = (f, w) := by
  cases f with
  | done value => rfl
  | _ => cases h

end Flow

/-- An invariant `holds` of the world between turns, and a relation `leads` from each such world to
those that later turns, of whatever call, may make of it. -/
structure RelyGuarantee (net : Network σ) where
  holds : World σ → Prop
  leads : World σ → World σ → Prop
  refl : ∀ w, leads w w
  trans : ∀ {a b c}, leads a b → leads b c → leads a c
  drive : ∀ {w} arrived ticket, holds w →
    holds (w.driveWhen net arrived ticket) ∧ leads w (w.driveWhen net arrived ticket)

namespace RelyGuarantee

variable {net} (a : RelyGuarantee net)

/-- The turn that began with `start` may end in `w`, and it goes on well from wherever others have
left the world. -/
def Suspends (start w : World σ) (next : World σ → Prop) : Prop :=
  a.holds w ∧ a.leads start w ∧ ∀ v, a.leads w v → a.holds v → next v

/-- Every turn of the flow keeps `holds` and `leads`, and where it is done `post` holds of the start
of its last turn, its value and its end. -/
def Keeps (post : World σ → α → World σ → Prop) : Flow α → World σ → World σ → Prop
  | .done value, start, w => post start value w
  | .read next, start, w => Keeps post (next w.client) start w
  | .write client next, start, w => Keeps post next start { w with client }
  | .send request next, start, w =>
    a.Suspends start (w.record (.requested request)) fun v =>
      Keeps post (next (v.fetchAnswer net request).1) v (v.fetchAnswer net request).2
  | .sent request next, start, w =>
    a.Suspends start w fun v =>
      Keeps post (next (v.fetchAnswer net request).1) v (v.fetchAnswer net request).2
  | .rest wait next, start, w => Keeps post next start (w.record (.rested wait))
  | .pause next, start, w => a.Suspends start w fun v => Keeps post next v v
  | .await ticket next, start, w => ∀ arrived,
    (∀ outcome, (w.driveWhen net arrived ticket).outcome? ticket = some outcome →
      Keeps post (next outcome) start (w.driveWhen net arrived ticket)) ∧
    ((w.driveWhen net arrived ticket).outcome? ticket = none →
      a.Suspends start (w.driveWhen net arrived ticket) fun v => ∀ arrived outcome,
        (v.driveWhen net arrived ticket).outcome? ticket = some outcome →
          Keeps post (next outcome) v (v.driveWhen net arrived ticket))

theorem Keeps.imp {post post' : World σ → α → World σ → Prop}
    (h : ∀ start value w, post start value w → post' start value w) {f : Flow α}
    {start w : World σ} (hf : a.Keeps post f start w) : a.Keeps post' f start w := by
  induction f generalizing start w with
  | done value => exact h start value w hf
  | read next ih => exact ih _ hf
  | write client next ih => exact ih hf
  | send request next ih =>
    obtain ⟨hholds, hleads, hnext⟩ := hf
    exact ⟨hholds, hleads, fun v hv hv' => ih _ (hnext v hv hv')⟩
  | sent request next ih =>
    obtain ⟨hholds, hleads, hnext⟩ := hf
    exact ⟨hholds, hleads, fun v hv hv' => ih _ (hnext v hv hv')⟩
  | rest wait next ih => exact ih hf
  | pause next ih =>
    obtain ⟨hholds, hleads, hnext⟩ := hf
    exact ⟨hholds, hleads, fun v hv hv' => ih (hnext v hv hv')⟩
  | await ticket next ih =>
    intro arrived
    obtain ⟨hdone, hsuspends⟩ := hf arrived
    refine ⟨fun outcome ho => ih _ (hdone outcome ho), fun ho => ?_⟩
    obtain ⟨hholds, hleads, hnext⟩ := hsuspends ho
    exact ⟨hholds, hleads, fun v hv hv' arrived outcome ho =>
      ih _ (hnext v hv hv' arrived outcome ho)⟩

theorem keeps_bind {post : World σ → β → World σ → Prop} {f : Flow α} {k : α → Flow β}
    {start w : World σ}
    (hf : a.Keeps (fun start value w => a.Keeps post (k value) start w) f start w) :
    a.Keeps post (f.bind k) start w := by
  induction f generalizing start w with
  | done value => exact hf
  | read next ih => exact ih _ hf
  | write client next ih => exact ih hf
  | send request next ih =>
    obtain ⟨hholds, hleads, hnext⟩ := hf
    exact ⟨hholds, hleads, fun v hv hv' => ih _ (hnext v hv hv')⟩
  | sent request next ih =>
    obtain ⟨hholds, hleads, hnext⟩ := hf
    exact ⟨hholds, hleads, fun v hv hv' => ih _ (hnext v hv hv')⟩
  | rest wait next ih => exact ih hf
  | pause next ih =>
    obtain ⟨hholds, hleads, hnext⟩ := hf
    exact ⟨hholds, hleads, fun v hv hv' => ih (hnext v hv hv')⟩
  | await ticket next ih =>
    intro arrived
    obtain ⟨hdone, hsuspends⟩ := hf arrived
    refine ⟨fun outcome ho => ih _ (hdone outcome ho), fun ho => ?_⟩
    obtain ⟨hholds, hleads, hnext⟩ := hsuspends ho
    exact ⟨hholds, hleads, fun v hv hv' arrived outcome ho =>
      ih _ (hnext v hv hv' arrived outcome ho)⟩

def Ends (result : α → World σ → Prop) (start : World σ) (value : α) (w : World σ) : Prop :=
  a.holds w ∧ a.leads start w ∧ result value w

/-- The flow can be gone on with at any time. -/
def Resumable (result : α → World σ → Prop) (f : Flow α) (w : World σ) : Prop :=
  ∀ v, a.leads w v → a.holds v → a.Keeps (a.Ends result) f v v

variable {a} {result : α → World σ → Prop} {f : Flow α} {start w v : World σ}

theorem Resumable.mono (h : a.Resumable result f w) (hv : a.leads w v) : a.Resumable result f v :=
  fun u hu hu' => h u (a.trans hv hu) hu'

/-- After a turn of a flow that keeps the pair, the flow is done with its result, or it can be gone
on with. -/
theorem turn_of_keeps (arrived : Request → Bool) (hf : a.Keeps (a.Ends result) f start w) :
    a.holds (f.turn net arrived w).2 ∧ a.leads start (f.turn net arrived w).2 ∧
      ((∃ value, (f.turn net arrived w).1 = .done value ∧ result value (f.turn net arrived w).2) ∨
        a.Resumable result (f.turn net arrived w).1 (f.turn net arrived w).2) := by
  -- The turn ends where the flow waits; what `Suspends` says of that place lets it be gone on with.
  induction f generalizing start w with
  | done value =>
    obtain ⟨hholds, hleads, hvalue⟩ := hf
    exact ⟨hholds, hleads, .inl ⟨value, rfl, hvalue⟩⟩
  | read next ih => exact ih _ hf
  | write client next ih => exact ih hf
  | send request next ih =>
    obtain ⟨hholds, hleads, hnext⟩ := hf
    refine ⟨hholds, hleads, .inr fun v hv hv' => ⟨hv', a.refl v, fun u hu hu' => ?_⟩⟩
    exact hnext u (a.trans hv hu) hu'
  | sent request next ih =>
    obtain ⟨hholds, hleads, hnext⟩ := hf
    unfold Flow.turn
    split
    · obtain ⟨hthere, hback, hends⟩ := ih _ (hnext w (a.refl w) hholds)
      exact ⟨hthere, a.trans hleads hback, hends⟩
    · refine ⟨hholds, hleads, .inr fun v hv hv' => ⟨hv', a.refl v, fun u hu hu' => ?_⟩⟩
      exact hnext u (a.trans hv hu) hu'
  | rest wait next ih => exact ih hf
  | pause next ih =>
    obtain ⟨hholds, hleads, hnext⟩ := hf
    exact ⟨hholds, hleads, .inr hnext⟩
  | await ticket next ih =>
    obtain ⟨hdone, hsuspends⟩ := hf arrived
    unfold Flow.turn
    dsimp only
    cases houtcome : (w.driveWhen net arrived ticket).outcome? ticket with
    | some outcome => exact ih outcome (hdone outcome houtcome)
    | none =>
      obtain ⟨hholds, hleads, hnext⟩ := hsuspends houtcome
      refine ⟨hholds, hleads, .inr fun v hv hv' again => ⟨?_, fun _ => ?_⟩⟩
      · exact hnext v hv hv' again
      · obtain ⟨hdriven, hdrive⟩ := a.drive again ticket hv'
        refine ⟨hdriven, hdrive, fun u hu hu' => ?_⟩
        exact hnext u (a.trans hv (a.trans hdrive hu)) hu'

variable {post : World σ → Except Fault α → World σ → Prop}

theorem keeps_action_bind {post : World σ → Except Fault β → World σ → Prop} {x : Action α}
    {k : α → Action β}
    (h : a.Keeps (fun start result w =>
      match result with
      | .error fault => post start (.error fault) w
      | .ok value => a.Keeps post (k value).run start w) x.run start w) :
    a.Keeps post (x >>= k).run start w := by
  apply a.keeps_bind (k := ExceptT.bindCont k)
  refine Keeps.imp a ?_ h
  intro start result w hresult
  cases result with
  | error fault => exact hresult
  | ok value => exact hresult

theorem keeps_need {result : Except Fault α} (h : post start result w) :
    a.Keeps post (Action.need result).run start w := h

theorem keeps_look {post : World σ → Except Fault Client → World σ → Prop}
    (h : post start (.ok w.client) w) : a.Keeps post Action.look.run start w := h

theorem keeps_attempt {step : Client → Except Fault α × Client}
    (h : post start (step w.client).1 { w with client := (step w.client).2 }) :
    a.Keeps post (Action.attempt step).run start w := h

theorem keeps_act {step : Client → α × Client}
    (h : post start (.ok (step w.client).1) { w with client := (step w.client).2 }) :
    a.Keeps post (Action.act step).run start w := h

theorem keeps_exchange {post : World σ → Except Fault Response → World σ → Prop}
    {request : Request}
    (h : a.Suspends start (w.record (.requested request)) fun v =>
      post v (v.fetchAnswer net request).1 (v.fetchAnswer net request).2) :
    a.Keeps post (Action.exchange request).run start w := h

theorem keeps_outcome {post : World σ → Except Fault (Except Fault α) → World σ → Prop}
    {x : Action α} (h : a.Keeps (fun start result w => post start (.ok result) w) x.run start w) :
    a.Keeps post (Action.outcome x).run start w := by
  change a.Keeps post (x.run.bind fun result => .done (.ok result)) start w
  exact a.keeps_bind h

end RelyGuarantee

end ResourceClient

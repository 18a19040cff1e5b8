import ResourceClient.Client.World

namespace ResourceClient

variable {σ α β : Type} (net : Network σ) (meanwhile : World σ → World σ) (w : World σ)

namespace World

def exchangeAmid (request : Request) : Except Fault Response × World σ :=
  (meanwhile (w.record (.requested request))).fetchAnswer net request

end World

namespace Action

def runAmid (a : Action α) : Except Fault α × World σ := Flow.runAmid net meanwhile a.run w

theorem runAmid_bind (a : Action α) (k : α → Action β) :
    (a >>= k).runAmid net meanwhile w =
      match a.runAmid net meanwhile w with
      | (.error fault, after) => (.error fault, after)
      | (.ok value, after) => (k value).runAmid net meanwhile after := by
  have hbind : (a >>= k).runAmid net meanwhile w =
      Flow.runAmid net meanwhile (Flow.bind a.run (ExceptT.bindCont k)) w := rfl
  rw [hbind, Flow.runAmid_bind]
  unfold runAmid
  obtain ⟨result, after⟩ := a.run.runAmid net meanwhile w
  cases result <;> rfl

@[simp] theorem runAmid_need (result : Except Fault α) :
    (need result).runAmid net meanwhile w = (result, w) := rfl

@[simp] theorem runAmid_look : look.runAmid net meanwhile w = (.ok w.client, w) := rfl

@[simp] theorem runAmid_exchange (request : Request) :
    (exchange request).runAmid net meanwhile w = w.exchangeAmid net meanwhile request := rfl

@[simp] theorem runAmid_pure (value : α) :
    (pure value : Action α).runAmid net meanwhile w = (.ok value, w) := rfl

@[simp] theorem runAmid_fail (fault : Fault) :
    (fail fault : Action α).runAmid net meanwhile w = (.error fault, w) := rfl

@[simp] theorem runAmid_act (step : Client → α × Client) :
    (act step).runAmid net meanwhile w =
      (.ok (step w.client).1, { w with client := (step w.client).2 }) := rfl

@[simp] theorem runAmid_attempt (step : Client → Except Fault α × Client) :
    (attempt step).runAmid net meanwhile w =
      ((step w.client).1, { w with client := (step w.client).2 }) := rfl

@[simp] theorem runAmid_rest (wait : Wait) :
    (rest wait).runAmid net meanwhile w = (.ok (), w.record (.rested wait)) := rfl

@[simp] theorem runAmid_outcome (a : Action α) :
    (outcome a).runAmid net meanwhile w =
      (.ok (a.runAmid net meanwhile w).1, (a.runAmid net meanwhile w).2) := by
  have hbind : (outcome a).runAmid net meanwhile w =
      Flow.runAmid net meanwhile (a.run.bind fun result => .done (.ok result)) w := rfl
  rw [hbind, Flow.runAmid_bind]
  rfl

end Action

end ResourceClient

import ResourceClient.Proofs.Address.Ascents
import ResourceClient.Proofs.Client.Runs
import ResourceClient.Service.Read

/-!
Looking for an ancestor. Addresses are read one after the other upwards, and what is read decides
where the walk ends: at the first failure, at the first match, at the root, or when its steps run
out. The argument is about any state that answers the reads; a network is one, a list of answers
another.
-/
namespace ResourceClient.Service

open ResourceClient.Action

/-- The walk goes on from it, if there is anything above. -/
def Passes (wanted : Resource → Bool) (reading : Except Fault Resource) : Prop :=
  ∃ resource, reading = .ok resource ∧ wanted resource = false

/-- The ends of a walk of at most `depth` reads that would come to the root after `top` steps, each
with the number of reads that it takes. -/
inductive Ends (readings : Nat → Except Fault Resource) (wanted : Resource → Bool) (start : String)
    (depth top : Nat) : Nat → Except Fault (Option Resource) → Prop where
  | failed {last : Nat} {fault : Fault} (steps : last < depth) (below : last ≤ top)
      (passed : ∀ i < last, Passes wanted (readings i)) (reading : readings last = .error fault) :
      Ends readings wanted start depth top (last + 1) (.error fault)
  | found {last : Nat} {resource : Resource} (steps : last < depth) (below : last ≤ top)
      (passed : ∀ i < last, Passes wanted (readings i)) (reading : readings last = .ok resource)
      (matched : wanted resource = true) :
      Ends readings wanted start depth top (last + 1) (.ok (some resource))
  | topped (steps : top < depth) (passed : ∀ i ≤ top, Passes wanted (readings i)) :
      Ends readings wanted start depth top (top + 1) (.ok none)
  | tired (below : depth ≤ top) (passed : ∀ i < depth, Passes wanted (readings i)) :
      Ends readings wanted start depth top depth (.error (.tooDeep start depth))

theorem Ends.reads_le {readings : Nat → Except Fault Resource} {wanted : Resource → Bool}
    {start : String} {depth top reads : Nat} {outcome : Except Fault (Option Resource)}
    (h : Ends readings wanted start depth top reads outcome) : reads ≤ min depth (top + 1) := by
  cases h with
  | failed steps below => omega
  | found steps below => omega
  | topped steps => omega
  | tired below => omega

theorem Ends.eq_none_iff {readings : Nat → Except Fault Resource} {wanted : Resource → Bool}
    {start : String} {depth top reads : Nat} {outcome : Except Fault (Option Resource)}
    (h : Ends readings wanted start depth top reads outcome) :
    outcome = .ok none ↔ top < depth ∧ ∀ i ≤ top, Passes wanted (readings i) := by
  cases h with
  | failed steps below passed reading =>
    refine ⟨fun hnone => (nomatch hnone), fun ⟨_, hall⟩ => ?_⟩
    obtain ⟨resource, hresource, -⟩ := hall _ below
    cases reading.symm.trans hresource
  | found steps below passed reading matched =>
    refine ⟨fun hnone => (nomatch hnone), fun ⟨_, hall⟩ => ?_⟩
    obtain ⟨resource, hresource, hpasses⟩ := hall _ below
    cases reading.symm.trans hresource
    cases matched.symm.trans hpasses
  | topped steps passed => exact ⟨fun _ => ⟨steps, passed⟩, fun _ => rfl⟩
  | tired below passed =>
    exact ⟨fun hnone => (nomatch hnone), fun ⟨hsteps, _⟩ => absurd hsteps (Nat.not_lt.2 below)⟩

def concludeAt (start : String) (depth : Nat) :
    Option (Option Resource) → Except Fault (Option Resource)
  | some found => .ok found
  | none => .error (.tooDeep start depth)

section Answered

variable {S : Type} (read : String → ExceptT Fault (StateM S) Resource) (state : S)
  (wanted : Resource → Bool) (start : String)

/-- What the first `n` reads upwards from an address leave. -/
def stateAfter : Nat → S
  | 0 => state
  | n + 1 => ((read (Address.parent^[n] start)).run (stateAfter n)).2

def readingAt (n : Nat) : Except Fault Resource :=
  ((read (Address.parent^[n] start)).run (stateAfter read state start n)).1

theorem run_bind {α β : Type} (a : ExceptT Fault (StateM S) α)
    (k : α → ExceptT Fault (StateM S) β) :
    (a >>= k).run state =
      match a.run state with
      | (.error fault, after) => (.error fault, after)
      | (.ok value, after) => (k value).run after := by
  change (match a.run state with | (result, after) => ExceptT.bindCont k result after) = _
  obtain ⟨_ | value, after⟩ := a.run state <;> rfl

theorem run_climb_succ (steps : Nat) (current : String) :
    (climb read wanted (steps + 1) current).run state =
      match (read current).run state with
      | (.error fault, after) => (.error fault, after)
      | (.ok resource, after) =>
        if wanted resource then (.ok (some (some resource)), after)
        else if Address.isRoot current then (.ok (some none), after)
        else (climb read wanted steps (Address.parent current)).run after := by
  rw [climb, run_bind]
  obtain ⟨_ | resource, after⟩ := (read current).run state
  · rfl
  · dsimp only
    split
    · rfl
    · split <;> rfl

/-- The induction is on the steps that are left: those that are made have passed, and the root is
not among them. -/
theorem exists_ends_climb {depth top : Nat} (htops : Address.Tops start top) (steps made : Nat)
    (hsteps : made + steps = depth) (hbelow : made ≤ top)
    (hpassed : ∀ i < made, Passes wanted (readingAt read state start i)) :
    ∃ reads answer,
      (climb read wanted steps (Address.parent^[made] start)).run
        (stateAfter read state start made) =
        (answer, stateAfter read state start reads) ∧
      Ends (readingAt read state start) wanted start depth top reads
        (answer >>= concludeAt start depth) := by
  induction steps generalizing made with
  | zero =>
    obtain rfl : made = depth := by omega
    exact ⟨made, .ok none, rfl, .tired hbelow hpassed⟩
  | succ steps ih =>
    have hnow : made < depth := by omega
    have hread : (read (Address.parent^[made] start)).run (stateAfter read state start made) =
        (readingAt read state start made, stateAfter read state start (made + 1)) := rfl
    rw [run_climb_succ, hread]
    cases hreading : readingAt read state start made with
    | error fault => exact ⟨made + 1, _, rfl, .failed hnow hbelow hpassed hreading⟩
    | ok resource =>
      dsimp only
      by_cases hwanted : wanted resource = true
      · rw [if_pos hwanted]
        exact ⟨made + 1, _, rfl, .found hnow hbelow hpassed hreading hwanted⟩
      rw [if_neg hwanted]
      have hpassed : ∀ i < made + 1, Passes wanted (readingAt read state start i) := by
        intro i hi
        rcases Nat.lt_succ_iff_lt_or_eq.1 hi with hi | rfl
        · exact hpassed i hi
        · exact ⟨resource, hreading, by simpa using hwanted⟩
      by_cases hroot : Address.isRoot (Address.parent^[made] start) = true
      · obtain rfl : made = top := by
          apply Nat.le_antisymm hbelow
          apply Nat.le_of_not_lt
          intro hlt
          simp [htops.below made hlt] at hroot
        rw [if_pos hroot]
        exact ⟨made + 1, _, rfl, .topped hnow fun i hi => hpassed i (Nat.lt_succ_of_le hi)⟩
      · have hne : made ≠ top := by
          rintro rfl
          exact hroot htops.root
        rw [if_neg hroot, ← Function.iterate_succ_apply' Address.parent made start]
        exact ih (made + 1) (by omega) (by omega) hpassed

theorem exists_ends {top : Nat} (htops : Address.Tops start top) (depth : Nat) :
    ∃ reads answer,
      (climb read wanted depth start).run state = (answer, stateAfter read state start reads) ∧
      Ends (readingAt read state start) wanted start depth top reads
        (answer >>= concludeAt start depth) :=
  exists_ends_climb read state wanted start htops depth 0 (Nat.zero_add depth) (Nat.zero_le top)
    fun i hi => absurd hi (Nat.not_lt_zero i)

end Answered

section Asked

variable (answers : Nat → Except Fault Resource) (start : String)

def ask (address : String) : ExceptT Fault (StateM (List String)) Resource :=
  ExceptT.mk fun asked => (answers asked.length, asked ++ [address])

theorem stateAfter_ask (n : Nat) :
    stateAfter (ask answers) [] start n = (List.range n).map fun i => Address.parent^[i] start := by
  induction n with
  | zero => rfl
  | succ n ih =>
    rw [List.range_succ, List.map_append, ← ih]
    rfl

theorem readingAt_ask : readingAt (ask answers) [] start = answers := by
  funext n
  change answers (stateAfter (ask answers) [] start n).length = answers n
  rw [stateAfter_ask, List.length_map, List.length_range]

end Asked

section Networked

variable {σ : Type} (net : Network σ) (meanwhile : World σ → World σ) (w : World σ)
  (read : String → Action Resource) (wanted : Resource → Bool) (start : String)

/-- An action, with the world for its state. -/
def ranAmid (action : Action α) : ExceptT Fault (StateM (World σ)) α :=
  ExceptT.mk (action.runAmid net meanwhile)

theorem runAmid_climb_succ (steps : Nat) (current : String) :
    (climb read wanted (steps + 1) current).runAmid net meanwhile w =
      match (read current).runAmid net meanwhile w with
      | (.error fault, after) => (.error fault, after)
      | (.ok resource, after) =>
        if wanted resource then (.ok (some (some resource)), after)
        else if Address.isRoot current then (.ok (some none), after)
        else (climb read wanted steps (Address.parent current)).runAmid net meanwhile after := by
  rw [climb, runAmid_bind]
  obtain ⟨_ | resource, after⟩ := (read current).runAmid net meanwhile w
  · rfl
  · dsimp only
    split
    · rfl
    · split <;> rfl

theorem runAmid_climb (steps : Nat) (current : String) :
    (climb read wanted steps current).runAmid net meanwhile w =
      (climb (fun address => ranAmid net meanwhile (read address)) wanted steps current).run w := by
  induction steps generalizing current w with
  | zero => rfl
  | succ steps ih =>
    have hread : (ranAmid net meanwhile (read current)).run w =
        (read current).runAmid net meanwhile w := rfl
    rw [runAmid_climb_succ, run_climb_succ, hread]
    obtain ⟨_ | resource, after⟩ := (read current).runAmid net meanwhile w
    · rfl
    · simp only [ih]

theorem exists_ends_runAmid {top : Nat} (htops : Address.Tops start top) (depth : Nat) :
    let reading := fun address => ranAmid net meanwhile (read address)
    ∃ reads answer,
      (climb read wanted depth start).runAmid net meanwhile w =
        (answer, stateAfter reading w start reads) ∧
      Ends (readingAt reading w start) wanted start depth top reads
        (answer >>= concludeAt start depth) := by
  intro reading
  rw [runAmid_climb]
  exact exists_ends reading w wanted start htops depth

theorem runAmid_ancestor :
    (ancestor (.real start) wanted).runAmid net meanwhile w =
      let depth := w.client.config.maxAncestorDepth
      let run := (climb (fun address => get (.real address)) wanted depth start).runAmid net
        meanwhile w
      (run.1 >>= concludeAt start depth, run.2) := by
  unfold ancestor
  simp only [requireReal, Action.runAmid_bind, runAmid_need, runAmid_look]
  obtain ⟨_ | _ | found, after⟩ :=
    (climb (fun address => get (.real address)) wanted w.client.config.maxAncestorDepth
      start).runAmid net meanwhile w <;> rfl

end Networked

/-- There is a root above every start. A walk reads upwards one by one, no oftener than it may and
no further than to the root, whatever the reads give; and a walk through a network is a walk of
which the network gives the readings. -/
theorem ancestor_ends (start : String) (wanted : Resource → Bool) :
    ∃ top, Address.Tops start top ∧
      (∀ (answers : Nat → Except Fault Resource) (depth : Nat), ∃ reads answer,
        (climb (ask answers) wanted depth start).run [] =
          (answer, (List.range reads).map fun i => Address.parent^[i] start) ∧
        reads ≤ min depth (top + 1) ∧
        Ends answers wanted start depth top reads (answer >>= concludeAt start depth)) ∧
      ∀ {σ : Type} (net : Network σ) (meanwhile : World σ → World σ) (w : World σ),
        let read := fun address => ranAmid net meanwhile (get (.real address))
        let depth := w.client.config.maxAncestorDepth
        ∃ reads outcome,
          (ancestor (.real start) wanted).runAmid net meanwhile w =
            (outcome, stateAfter read w start reads) ∧
          reads ≤ min depth (top + 1) ∧
          Ends (readingAt read w start) wanted start depth top reads outcome := by
  obtain ⟨top, htops⟩ := Address.exists_tops start
  refine ⟨top, htops, fun answers depth => ?_, fun net meanwhile w => ?_⟩
  · obtain ⟨reads, answer, hrun, hends⟩ := exists_ends (ask answers) [] wanted start htops depth
    rw [readingAt_ask] at hends
    rw [stateAfter_ask answers start reads] at hrun
    exact ⟨reads, answer, hrun, hends.reads_le, hends⟩
  · intro read depth
    obtain ⟨reads, answer, hrun, hends⟩ := exists_ends_runAmid net meanwhile w
      (fun address => get (.real address)) wanted start htops depth
    refine ⟨reads, answer >>= concludeAt start depth, ?_, hends.reads_le, hends⟩
    rw [runAmid_ancestor]
    dsimp only
    rw [hrun]

end ResourceClient.Service

import ResourceClient.Proofs.Service.Ancestors
import ResourceClient.Proofs.Service.Confinement
import ResourceClient.Proofs.Service.Destinations
import ResourceClient.Proofs.Service.Isolation

/-!
One walk upwards, spelled in two ways. As long as both walks are on the server, they make the same
reads and leave the same world. The one that is spelled relative to the server ends at its root; the
other ends there only if the base is bare, and goes on to what the base does not cover otherwise.
-/
namespace ResourceClient.Service

open ResourceClient.Action World

variable {σ : Type} (net : Network σ) {config : Config} {w : World σ}
  {meanwhile : World σ → World σ} {p : String}

theorem concludeAt_eq_none_iff {start : String} {depth : Nat}
    {answer : Except Fault (Option (Option Resource))} :
    (answer >>= concludeAt start depth) = .ok none ↔ answer = .ok (some none) := by
  obtain _ | _ | _ | _ := answer <;> simp [concludeAt, bind, Except.bind]

section

variable (wanted : Resource → Bool) (config meanwhile)

/-- What comes of a walk that is spelled as a URL, if the one that is spelled relative to the server
has come to `near`, and so many steps are left at the root. -/
def beyond (steps : Nat) (near : Except Fault (Option (Option Resource)) × World σ) :
    Except Fault (Option (Option Resource)) × World σ :=
  match near with
  | (.ok (some none), after) =>
    if config.IsBare then near
    else
      (climb (fun address => get (.real address)) wanted steps
        (Address.parent (config.url "/"))).runAmid net meanwhile after
  | _ => near

theorem beyond_of_same (steps : Nat) {answer : Except Fault (Option (Option Resource))}
    (h : config.IsBare ∨ answer ≠ .ok (some none)) :
    beyond net config meanwhile wanted steps (answer, w) = (answer, w) := by
  obtain _ | _ | _ | _ := answer
  case ok.some.none => exact if_pos (h.resolve_right fun hne => hne rfl)
  all_goals rfl

theorem beyond_of_above (steps : Nat) (h : ¬ config.IsBare) :
    beyond net config meanwhile wanted steps (.ok (some none), w) =
      (climb (fun address => get (.real address)) wanted steps
        (Address.parent (config.url "/"))).runAmid net meanwhile w :=
  if_neg h

end

section

variable (hbase : config.base.head? ≠ some '/')
  (hmeanwhile : ∀ v : World σ, v.Confined config → v.Ranges config (meanwhile v))
include hbase hmeanwhile

theorem ranges_get_of_isLocal (h : w.Confined config) (hlocal : Address.IsLocal p) :
    w.Ranges config ((get (.real p)).runAmid net meanwhile w).2 := by
  apply ranges_get net hmeanwhile h
  rw [Config.url_url_iff.2 fun _ => hbase]
  exact config.covers_url hlocal.slash

variable (wanted : Resource → Bool)

/-- By induction on the steps; both walks are at the same place, and what is left of the way to the
root is one step less each time. -/
theorem runAmid_climb_url (h : w.Confined config) (hlocal : Address.IsLocal p) {top : Nat}
    (htops : Address.Tops p top) (steps : Nat) :
    let read := fun address => get (.real address)
    let near := (climb read wanted steps p).runAmid net meanwhile w
    w.Ranges config near.2 ∧
      (climb read wanted steps (config.url p)).runAmid net meanwhile w =
        beyond net config meanwhile wanted (steps - (top + 1)) near := by
  intro read
  induction steps generalizing w p top with
  | zero => exact ⟨h.ranges_self, rfl⟩
  | succ steps ih =>
    have hread := ranges_get_of_isLocal net hbase hmeanwhile h hlocal
    have hsame : (read (config.url p)).runAmid net meanwhile w =
        (read p).runAmid net meanwhile w := by
      apply runAmid_get_congr
      rw [Client.url, Client.url, h.config_eq, Config.url_url_iff.2 fun _ => hbase]
    dsimp only
    rw [runAmid_climb_succ, runAmid_climb_succ, hsame]
    revert hread
    change w.Ranges config ((read p).runAmid net meanwhile w).2 → _
    obtain ⟨_ | resource, after⟩ := (read p).runAmid net meanwhile w
    · exact fun hread => ⟨hread, rfl⟩
    intro hread
    dsimp only
    by_cases hwanted : wanted resource = true
    · rw [if_pos hwanted, if_pos hwanted]
      exact ⟨hread, rfl⟩
    rw [if_neg hwanted, if_neg hwanted]
    cases hroot : Address.isRoot p with
    | true =>
      obtain rfl := htops.eq_zero hroot
      obtain rfl := hlocal.eq_of_isRoot hroot
      refine ⟨hread, ?_⟩
      simp only [config.isRoot_url_iff hlocal, hroot, true_and, if_true, beyond]
      rfl
    | false =>
      obtain ⟨fewer, rfl, hfewer⟩ := htops.exists_succ hroot
      have hnot : Address.isRoot (config.url p) = false := by
        rw [Bool.eq_false_iff, ne_eq, config.isRoot_url_iff hlocal, hroot]
        simp
      obtain ⟨hranges, hfar⟩ := ih hread.confined hlocal.isLocal_parent hfewer
      rw [hnot, hlocal.parent_url config hroot]
      simp only [Bool.false_eq_true, if_false]
      refine ⟨hread.trans hranges, ?_⟩
      rw [hfar, Nat.add_sub_add_right]

/-- A walk that is spelled relative to the server asks at or below the base only, and finds nothing
just if it has read the root of the server without a match. One that is spelled as a URL makes the
same reads, leaves the same world and comes to the same end, but for the start that it names; only
under a base that is no bare origin it does not end at this root, and goes on with what is left of
its steps to an address that the base does not cover. -/
theorem ancestor_url (h : w.Confined config) (hlocal : Address.IsLocal p) :
    let read := fun address => get (.real address)
    let depth := config.maxAncestorDepth
    let near := (ancestor (.real p) wanted).runAmid net meanwhile w
    let far := (ancestor (.real (config.url p)) wanted).runAmid net meanwhile w
    ∃ top answer, Address.Tops p top ∧ Address.parent^[top] p = "/" ∧
      near = (answer >>= concludeAt p depth, near.2) ∧
      w.Ranges config near.2 ∧
      (near.1 = .ok none ↔ top < depth ∧
        ∀ i ≤ top, Passes wanted (readingAt (fun a => ranAmid net meanwhile (read a)) w p i)) ∧
      (config.IsBare ∨ near.1 ≠ .ok none →
        far = (answer >>= concludeAt (config.url p) depth, near.2)) ∧
      (¬ config.IsBare → near.1 = .ok none →
        let above := Address.parent (config.url "/")
        let rest := (climb read wanted (depth - (top + 1)) above).runAmid net meanwhile near.2
        ¬ config.Covers above ∧ far = (rest.1 >>= concludeAt (config.url p) depth, rest.2)) := by
  intro read depth near far
  obtain ⟨top, htops⟩ := Address.exists_tops p
  have hserver := hlocal.isLocal_iterate top
  have hroot : Address.parent^[top] p = "/" := hserver.eq_of_isRoot htops.root
  obtain ⟨reads, answer, hclimb, hends⟩ := exists_ends_runAmid net meanwhile w read wanted p htops
    depth
  obtain ⟨hranges, hbeyond⟩ := runAmid_climb_url net hbase hmeanwhile wanted h hlocal htops depth
  generalize stateAfter _ w p reads = after at hclimb
  rw [hclimb] at hranges hbeyond
  have hnear : near = _ := runAmid_ancestor net meanwhile w wanted p
  have hfar : far = _ := runAmid_ancestor net meanwhile w wanted (config.url p)
  dsimp only at hnear hfar
  rw [h.config_eq] at hnear hfar
  rw [hclimb] at hnear
  rw [hbeyond] at hfar
  have hafter : near.2 = after := by rw [hnear]
  have hnone : near.1 = .ok none ↔ answer = .ok (some none) := by
    rw [hnear]
    exact concludeAt_eq_none_iff
  rw [hafter]
  refine ⟨top, answer, htops, hroot, hnear, hranges, ?_, ?_, ?_⟩
  · rw [hnear]
    exact hends.eq_none_iff
  · intro hsame
    rw [hfar, beyond_of_same net config meanwhile wanted _ (hsame.imp_right (mt hnone.2))]
  · intro hmore hnothing above rest
    rw [hroot] at hserver
    refine ⟨config.not_covers_parent_url hserver (hroot ▸ htops.root) hmore, ?_⟩
    rw [hfar, hnone.1 hnothing, beyond_of_above net config meanwhile wanted _ hmore]

end

def prefixed : Config := { restUrl := "http://h/api" }

/-- A server below a prefix, that has pools only. -/
def prefixedWorld : World Unit :=
  { client := Client.opened prefixed Executor.onlyPools true, remote := () }

def walked (start : String) : Except Fault (Option Resource) × World Unit :=
  (ancestor (.real start) fun _ => false).runAmid Executor.onePool id prefixedWorld

/-- Under a base with a path, the walk that is spelled as a URL goes on past the root of the server.
-/
theorem ancestor_url_of_prefixed :
    let read := fun address => get (.real address)
    let rest := (climb read (fun _ => false) 30 "http://h/").runAmid Executor.onePool id
      (walked "/a/").2
    prefixed.base.head? ≠ some '/' ∧ Address.IsLocal "/a/" ∧ prefixedWorld.Confined prefixed ∧
      (walked "/a/").1 = .ok none ∧
      walked "http://h/api/a/" = (rest.1 >>= concludeAt "http://h/api/a/" 32, rest.2) := by
  intro read rest
  have hbase : prefixed.base.head? ≠ some '/' := by decide +kernel
  have hlocal : Address.IsLocal "/a/" := ⟨by decide +kernel, by decide +kernel, by decide +kernel⟩
  have hconfined : prefixedWorld.Confined prefixed := .opened prefixed Executor.onlyPools true ()
  have hmount : ¬ prefixed.IsBare := by decide +kernel
  have hnothing : (walked "/a/").1 = .ok none := by
    have hended : (walked "/a/").1.toOption.map Option.isNone = some true := by decide +kernel
    generalize (walked "/a/").1 = outcome at hended ⊢
    obtain _ | _ | _ := outcome
    · cases hended
    · rfl
    · cases hended
  have habove : Address.parent (prefixed.url "/") = "http://h/" := by decide +kernel
  obtain ⟨top, answer, htops, -, -, -, -, -, hmore⟩ := ancestor_url Executor.onePool hbase
    (fun _ h => h.ranges_self) (fun _ => false) hconfined hlocal
  obtain ⟨fewer, rfl, hfewer⟩ := htops.exists_succ (by decide +kernel)
  obtain rfl := hfewer.eq_zero (by decide +kernel)
  obtain ⟨-, hfar⟩ := hmore hmount hnothing
  rw [habove] at hfar
  exact ⟨hbase, hlocal, hconfined, hnothing, hfar⟩

/-- The requests of such a walk: the last one is for an address above the base. -/
theorem ancestor_url_strays :
    (walked "/a/").2.trace.filterMap Happening.url? = ["http://h/api/a/", "http://h/api/"] ∧
      (walked "http://h/api/a/").2.trace.filterMap Happening.url? =
        ["http://h/api/a/", "http://h/api/", "http://h/"] ∧
      ¬ prefixed.Covers "http://h/" := by
  decide +kernel

end ResourceClient.Service

import Mathlib.Algebra.Ring.Nat
import ResourceClient.Proofs.Service.Attempts

/-!
Appending a version against whatever the network answers. Each attempt posts the version after some
head; only the one rejection that says that there is another head leads on, to a wait, a look at the
head, and the next attempt.
-/
namespace ResourceClient

def Happening.method? : Happening → Option Method
  | .requested request => some request.method
  | .rested _ => none

/-- A call that appends a version after `old`. -/
structure LadderCall where
  client : Client
  old : String
  version : Resource

namespace LadderCall

variable (call : LadderCall)

def item : String := Address.parent call.old

def budget : Nat := call.client.config.noForkMaxAttempts

/-- Doubles from one attempt to the next, up to the longest there is. -/
def backoff (i : Nat) : Duration :=
  ⟨min (call.client.config.noForkBackoffMs * Duration.nanosPerMilli * 2 ^ i)
    Duration.longest.nanos⟩

def post (body : Json) : Happening := .requested (call.client.postRequest call.item body)

def look : Happening := .requested (call.client.headRequest call.item)

def sleep (i : Nat) : Happening := .rested (.exactly (call.backoff i))

def round (i : Nat) (body : Json) : List Happening := [call.post body, call.sleep i, call.look]

def Exports (follows : Path) (body : Json) : Prop :=
  Wire.exportResource call.client.schema { creating := true } (call.version.setFollows follows) =
    .ok body

def Takes (answer : Except String Response) (value : Resource) : Prop :=
  call.client.schema.Takes answer value

def state (i : Nat) : RetryState :=
  { policy := call.client.config.retryPolicy, attempts := i, backoff := call.backoff i }

theorem double_backoff (i : Nat) : (call.backoff i).double = call.backoff (i + 1) := by
  unfold backoff Duration.double
  rw [Nat.pow_succ, ← Nat.mul_assoc]
  dsimp only
  congr 1
  omega

theorem start_eq_state (hbackoff : call.client.config.noForkBackoffMs < UInt64.size) :
    RetryState.start call.client.config.retryPolicy = call.state 0 := by
  have hshort : call.client.config.noForkBackoffMs * Duration.nanosPerMilli ≤
      Duration.longest.nanos := by
    simp only [Duration.longest, Duration.nanosPerSecond, Duration.nanosPerMilli, UInt64.size] at *
    omega
  unfold RetryState.start state backoff
  rw [Nat.pow_zero, Nat.mul_one, Nat.min_eq_left hshort]
  rfl

theorem wait_retryPolicy (hjitter : call.client.config.noForkJitter.isZero = true)
    (length : Duration) : call.client.config.retryPolicy.wait length = .exactly length := by
  have hnot : call.client.config.retryPolicy.jitter.isPositive = false := by
    simp [Config.retryPolicy, Binary64.isPositive, hjitter]
  simp [RetryPolicy.wait, hnot]

theorem onConflict_of_spent {i : Nat} (h : call.budget ≤ i + 1) :
    (call.state i).recordAttempt.onConflict = (none, (call.state i).recordAttempt) := if_pos h

theorem onConflict_of_left (hjitter : call.client.config.noForkJitter.isZero = true) {i : Nat}
    (h : i + 1 < call.budget) :
    (call.state i).recordAttempt.onConflict =
      (some (.exactly (call.backoff i)), call.state (i + 1)) := by
  have hleft : ¬ call.budget ≤ i + 1 := by omega
  refine (if_neg hleft).trans ?_
  rw [Prod.mk.injEq]
  exact ⟨congrArg some (call.wait_retryPolicy hjitter _),
    congrArg (RetryState.mk _ (i + 1)) (call.double_backoff i)⟩

/-- What is seen of the call from its attempt number `i` on, and how it ends. -/
inductive Course (answers : Nat → Except String Response) :
    Nat → Path → List Happening → Except Fault Service.VersionPost → Prop
  | unsent {i : Nat} {follows : Path} (fault : Fault) : Course answers i follows [] (.error fault)
  | accepted {i : Nat} {follows : Path} {body : Json} {value : Resource}
      (hbody : call.Exports follows body) (htakes : call.Takes (answers (2 * i)) value) :
      Course answers i follows [call.post body] (.ok { value, rebased := decide (i ≠ 0) })
  | refused {i : Nat} {follows : Path} {body : Json} (fault : Fault)
      (hbody : call.Exports follows body) (htakes : ∀ value, ¬ call.Takes (answers (2 * i)) value)
      (hconflict : ¬ Conflicts (answers (2 * i))) :
      Course answers i follows [call.post body] (.error fault)
  | spent {i : Nat} {follows : Path} {body : Json} (hbody : call.Exports follows body)
      (htakes : ∀ value, ¬ call.Takes (answers (2 * i)) value)
      (hconflict : Conflicts (answers (2 * i))) (hbudget : call.budget ≤ i + 1) :
      Course answers i follows [call.post body] (.error (.retriesSpent call.item (i + 1)))
  | lost {i : Nat} {follows : Path} {body : Json} {looks : List Happening} (fault : Fault)
      (hbody : call.Exports follows body) (hconflict : Conflicts (answers (2 * i)))
      (hbudget : i + 1 < call.budget) (hlooks : looks <+: [call.look]) :
      Course answers i follows (call.post body :: call.sleep i :: looks) (.error fault)
  | rebased {i : Nat} {follows head : Path} {body : Json} {events : List Happening}
      {result : Except Fault Service.VersionPost} (hbody : call.Exports follows body)
      (hconflict : Conflicts (answers (2 * i))) (hbudget : i + 1 < call.budget)
      (hhead : call.client.schema.ReadsHead (answers (2 * i + 1)) head)
      (hrest : Course answers (i + 1) head events result) :
      Course answers i follows (call.round i body ++ events) result

end LadderCall

namespace Service

open ResourceClient.Action

variable {σ : Type} (net : Network σ) (meanwhile : World σ → World σ) (w : World σ)

theorem runAmid_postAfter (item : Path) (version : Resource) (attempts : Nat) (state : RetryState)
    (follows : Path) (rebased : Bool) :
    (postAfter item version (attempts + 1) state follows rebased).runAmid net meanwhile w =
      match (post item (version.setFollows follows)).runAmid net meanwhile w with
      | (.ok value, there) => (.ok { value, rebased }, there)
      | (.error fault, there) =>
        if fault.isForkConflict then
          match state.recordAttempt.onConflict with
          | (none, _) =>
            (.error (.retriesSpent item.toString (state.attempts + 1)), there)
          | (some wait, state) =>
            (newest item >>= fun head => postAfter item version attempts state head true).runAmid
              net meanwhile (there.record (.rested wait))
        else (.error fault, there) := by
  rw [postAfter]
  simp only [runAmid_bind, runAmid_outcome]
  obtain ⟨fault | value, there⟩ :=
    (post item (version.setFollows follows)).runAmid net meanwhile w
  · cases hfork : fault.isForkConflict with
    | false => simp [hfork]
    | true =>
      simp only [hfork, Bool.not_true, Bool.false_eq_true, if_false, if_true]
      generalize hdecision : state.recordAttempt.onConflict = decision
      obtain ⟨_ | wait, state⟩ := decision
      · rfl
      · simp only [runAmid_bind, runAmid_rest]
  · rfl

variable {call : LadderCall} (answers : Nat → Except String Response)

/-- The attempts from the number `i` on keep to the course, in whatever world they begin. -/
def KeepsCourse (call : LadderCall) (attempts i : Nat) : Prop :=
  ∀ (follows : Path) (w : World Nat), w.remote = 2 * i → call.client.Alike w.client →
    let run := (postAfter (.real call.item) call.version attempts (call.state i) follows
      (decide (i ≠ 0))).runAmid (.inTurn answers) id w
    ∃ events, run.2.trace = w.trace ++ events ∧ call.Course answers i follows events run.1

theorem course_retry (hbase : call.client.config.restUrl.toList.head? ≠ some '/')
    {attempts i : Nat} (hnext : KeepsCourse answers call attempts (i + 1)) {follows : Path}
    {body : Json} (hbody : call.Exports follows body) (hconflict : Conflicts (answers (2 * i)))
    (hleft : i + 1 < call.budget) {trace : List Happening} (there : World Nat)
    (htrace : there.trace = trace ++ [call.post body]) (hremote : there.remote = 2 * i + 1)
    (hthere : call.client.Alike there.client) :
    let run := (newest (.real call.item) >>= fun head =>
      postAfter (.real call.item) call.version attempts (call.state (i + 1)) head true).runAmid
        (.inTurn answers) id (there.record (call.sleep i))
    ∃ events, run.2.trace = trace ++ events ∧ call.Course answers i follows events run.1 := by
  have hslept : (there.record (call.sleep i)).trace = trace ++ [call.post body, call.sleep i] := by
    change there.trace ++ [call.sleep i] = _
    rw [htrace, List.append_assoc]
    rfl
  have hlook := newest_inTurn hbase answers (there.record (call.sleep i)) hthere call.item
  dsimp only at hlook ⊢
  rw [runAmid_bind]
  generalize (newest (.real call.item)).runAmid (.inTurn answers) id
    (there.record (call.sleep i)) = looked at hlook ⊢
  obtain ⟨found, after⟩ := looked
  rcases hlook with ⟨fault, ⟨rfl, rfl⟩⟩ | ⟨hlooked, hafter, halike, ⟨head, rfl, hhead⟩ |
    ⟨fault, rfl⟩⟩
  · exact ⟨[call.post body, call.sleep i], hslept,
      .lost fault hbody hconflict hleft List.nil_prefix⟩
  · change call.client.schema.ReadsHead (answers there.remote) head at hhead
    change after.remote = there.remote + 1 at hafter
    rw [hremote] at hhead hafter
    have hagain : decide (i + 1 ≠ 0) = true := by simp
    have hattempts := hnext head after (by omega) halike
    rw [hagain] at hattempts
    obtain ⟨events, hevents, hcourse⟩ := hattempts
    refine ⟨call.round i body ++ events, ?_, .rebased hbody hconflict hleft hhead hcourse⟩
    refine hevents.trans ?_
    rw [hlooked, hslept]
    simp [LadderCall.round, LadderCall.look]
  · refine ⟨[call.post body, call.sleep i, call.look], hlooked.trans ?_,
      .lost fault hbody hconflict hleft (List.prefix_refl _)⟩
    rw [hslept, List.append_assoc]
    rfl

theorem course_attempt (hbase : call.client.config.restUrl.toList.head? ≠ some '/')
    (hjitter : call.client.config.noForkJitter.isZero = true) {attempts i : Nat}
    (hnext : i + 1 < call.budget → KeepsCourse answers call attempts (i + 1)) :
    KeepsCourse answers call (attempts + 1) i := by
  intro follows w hremote hw run
  have hrun : run = _ := runAmid_postAfter (.inTurn answers) id w (.real call.item) call.version
    attempts (call.state i) follows (decide (i ≠ 0))
  rw [hrun]
  have hpost := post_inTurn hbase answers w hw call.item (call.version.setFollows follows)
  dsimp only at hpost
  generalize (post (.real call.item) (call.version.setFollows follows)).runAmid (.inTurn answers) id
    w = posted at hpost
  obtain ⟨outcome, there⟩ := posted
  rcases hpost with ⟨fault, ⟨rfl, rfl⟩, hfork⟩ | ⟨body, hbody, htrace, hthere, halike,
    ⟨value, rfl, htakes⟩ | ⟨fault, rfl, htakes, hconflict⟩⟩
  · simp only [hfork, Bool.false_eq_true, if_false]
    exact ⟨[], (List.append_nil _).symm, .unsent fault⟩
  · rw [hremote] at htakes
    exact ⟨[call.post body], htrace, .accepted hbody htakes⟩
  · rw [hremote] at htakes hconflict
    cases hfork : fault.isForkConflict with
    | false =>
      have hnot : ¬ Conflicts (answers (2 * i)) := by
        rw [← hconflict, hfork]
        decide
      simp only [hfork, Bool.false_eq_true, if_false]
      exact ⟨[call.post body], htrace, .refused fault hbody htakes hnot⟩
    | true =>
      simp only [hfork, if_true]
      rcases Nat.lt_or_ge (i + 1) call.budget with hleft | hspent
      · have hsleep : Happening.rested (.exactly (call.backoff i)) = call.sleep i := rfl
        rw [call.onConflict_of_left hjitter hleft]
        dsimp only
        rw [hsleep]
        rw [hremote] at hthere
        exact course_retry answers hbase (hnext hleft) hbody (hconflict.1 hfork) hleft there htrace
          hthere halike
      · rw [call.onConflict_of_spent hspent]
        exact ⟨[call.post body], htrace, .spent hbody htakes (hconflict.1 hfork) hspent⟩

theorem keepsCourse (hbase : call.client.config.restUrl.toList.head? ≠ some '/')
    (hjitter : call.client.config.noForkJitter.isZero = true) {attempts i : Nat}
    (hattempts : attempts + i = call.budget) : KeepsCourse answers call (attempts + 1) i := by
  induction attempts generalizing i with
  | zero => exact course_attempt answers hbase hjitter fun hleft => by omega
  | succ attempts ih =>
    exact course_attempt answers hbase hjitter fun _ => ih (by omega)

end Service

namespace LadderCall

/-- A post of the version: what it was placed after, and the body that went out. -/
structure Attempt where
  follows : Path
  body : Json

/-- What the attempts from the number `first` on come to, the first of which is placed after
`follows`. -/
structure Protocol (call : LadderCall) (answers : Nat → Except String Response) (first : Nat)
    (follows : Path) (attempts : List Attempt) (events : List Happening)
    (result : Except Fault Service.VersionPost) : Prop where
  rounds : events <+: (attempts.zipIdx first).flatMap fun (a, i) => call.round i a.body
  posts : 3 * attempts.length < events.length + 3
  budget : first + attempts.length ≤ max call.budget (first + 1)
  bodies : ∀ a ∈ attempts, call.Exports a.follows a.body
  opening : ∀ a, attempts[0]? = some a → a.follows = follows
  heads : ∀ (k : Nat) (a : Attempt), attempts[k + 1]? = some a →
    call.client.schema.ReadsHead (answers (2 * (first + k) + 1)) a.follows
  conflicts : ∀ k : Nat, 3 * k + 1 < events.length → Conflicts (answers (2 * (first + k)))
  spent : ∀ k : Nat, events.length = 3 * k + 1 → Conflicts (answers (2 * (first + k))) →
    call.budget ≤ first + k + 1 ∧ result = .error (.retriesSpent call.item (first + k + 1))
  returns : (∃ posted, result = .ok posted) ↔ ∃ (k : Nat) (value : Resource),
    events.length = 3 * k + 1 ∧ call.Takes (answers (2 * (first + k))) value
  returned : ∀ posted, result = .ok posted → ∃ k : Nat, events.length = 3 * k + 1 ∧
    call.Takes (answers (2 * (first + k))) posted.value ∧
    posted.rebased = decide (first + k ≠ 0)

variable {call : LadderCall} {answers : Nat → Except String Response} {i : Nat} {follows : Path}
  {events : List Happening} {result : Except Fault Service.VersionPost}

theorem not_conflicts_of_takes {answer : Except String Response} {value : Resource}
    (h : call.Takes answer value) : ¬ Conflicts answer := by
  rintro ⟨response, _, _, hanswer, hfailure, -⟩
  obtain ⟨same, body, _, _, hsame, hbody, -⟩ := h
  obtain rfl : response = same := Except.ok.inj (hanswer.symm.trans hsame)
  simp [Response.successBody, hfailure] at hbody

theorem protocol_of_nothing (fault : Fault) :
    call.Protocol answers i follows [] [] (.error fault) where
  rounds := List.nil_prefix
  posts := by simp
  budget := Nat.le_trans (Nat.le_succ i) (Nat.le_max_right _ _)
  bodies := by simp
  opening := by simp
  heads := by simp
  conflicts := by simp
  spent := by simp
  returns := by simp
  returned := by simp

theorem protocol_of_post {body : Json} (hbody : call.Exports follows body)
    (hspent : Conflicts (answers (2 * i)) →
      call.budget ≤ i + 1 ∧ result = .error (.retriesSpent call.item (i + 1)))
    (hreturns : (∃ posted, result = .ok posted) ↔ ∃ value, call.Takes (answers (2 * i)) value)
    (hreturned : ∀ posted, result = .ok posted →
      call.Takes (answers (2 * i)) posted.value ∧ posted.rebased = decide (i ≠ 0)) :
    call.Protocol answers i follows [⟨follows, body⟩] [call.post body] result where
  rounds := by
    simp only [List.zipIdx_singleton, List.flatMap_singleton]
    exact List.prefix_append [call.post body] [call.sleep i, call.look]
  posts := by simp
  budget := Nat.le_max_right _ _
  bodies := by simpa using hbody
  opening := by simp
  heads := by simp
  conflicts := by
    intro k hk
    rw [List.length_singleton] at hk
    omega
  spent := by
    intro k hk hconflict
    obtain rfl : k = 0 := by simpa using hk.symm
    exact hspent hconflict
  returns := by
    rw [hreturns]
    refine ⟨fun ⟨value, htakes⟩ => ⟨0, value, rfl, htakes⟩, fun ⟨k, value, hk, htakes⟩ => ?_⟩
    obtain rfl : k = 0 := by simpa using hk.symm
    exact ⟨value, htakes⟩
  returned := fun posted hposted => ⟨0, rfl, hreturned posted hposted⟩

theorem protocol_of_refusal {body : Json} {fault : Fault} (hbody : call.Exports follows body)
    (htakes : ∀ value, ¬ call.Takes (answers (2 * i)) value)
    (hspent : Conflicts (answers (2 * i)) →
      call.budget ≤ i + 1 ∧ fault = .retriesSpent call.item (i + 1)) :
    call.Protocol answers i follows [⟨follows, body⟩] [call.post body] (.error fault) := by
  refine protocol_of_post hbody (fun hconflict => ?_) ⟨?_, ?_⟩ nofun
  · obtain ⟨hbudget, rfl⟩ := hspent hconflict
    exact ⟨hbudget, rfl⟩
  · rintro ⟨_, hposted⟩
    cases hposted
  · rintro ⟨value, hvalue⟩
    exact absurd hvalue (htakes value)

theorem protocol_of_wait {body : Json} {looks : List Happening} {fault : Fault}
    (hbody : call.Exports follows body) (hconflict : Conflicts (answers (2 * i)))
    (hlooks : looks <+: [call.look]) :
    call.Protocol answers i follows [⟨follows, body⟩]
      (call.post body :: call.sleep i :: looks) (.error fault) := by
  have hlength : looks.length ≤ 1 := hlooks.length_le
  have hnever : ∀ k : Nat, (call.post body :: call.sleep i :: looks).length ≠ 3 * k + 1 := by
    intro k
    simp only [List.length_cons]
    omega
  exact {
    rounds := by
      simp only [List.zipIdx_singleton, List.flatMap_singleton]
      exact (List.prefix_append_right_inj [call.post body, call.sleep i]).2 hlooks
    posts := by simp
    budget := Nat.le_max_right _ _
    bodies := by simpa using hbody
    opening := by simp
    heads := by simp
    conflicts := by
      intro k hk
      simp only [List.length_cons] at hk
      obtain rfl : k = 0 := by omega
      exact hconflict
    spent := fun k hk => absurd hk (hnever k)
    returns := ⟨fun ⟨_, hposted⟩ => (nomatch hposted), fun ⟨k, _, hk, _⟩ => absurd hk (hnever k)⟩
    returned := fun _ hposted => (nomatch hposted) }

theorem Protocol.cons {body : Json} {head : Path} {attempts : List Attempt}
    (hbody : call.Exports follows body) (hconflict : Conflicts (answers (2 * i)))
    (hbudget : i + 1 < call.budget)
    (hhead : call.client.schema.ReadsHead (answers (2 * i + 1)) head)
    (h : call.Protocol answers (i + 1) head attempts events result) :
    call.Protocol answers i follows (⟨follows, body⟩ :: attempts) (call.round i body ++ events)
      result := by
  have hlength : (call.round i body ++ events).length = events.length + 3 := by
    rw [List.length_append, Nat.add_comm]
    rfl
  have hshift : ∀ k : Nat, i + 1 + k = i + (k + 1) := fun k => by omega
  have hlater : ∀ {k : Nat}, (call.round i body ++ events).length = 3 * k + 1 →
      ∃ l, k = l + 1 ∧ events.length = 3 * l + 1 := by
    intro k hk
    exact ⟨k - 1, by omega, by omega⟩
  constructor
  case rounds =>
    rw [List.zipIdx_cons, List.flatMap_cons]
    exact (List.prefix_append_right_inj (call.round i body)).2 h.rounds
  case posts =>
    have hposts := h.posts
    rw [hlength, List.length_cons]
    omega
  case budget =>
    have hmax := h.budget
    rw [List.length_cons]
    omega
  case bodies => exact List.forall_mem_cons.2 ⟨hbody, h.bodies⟩
  case opening =>
    rintro _ ⟨⟩
    rfl
  case heads =>
    intro k a hk
    cases k with
    | zero => exact (h.opening a hk) ▸ hhead
    | succ k => exact hshift k ▸ h.heads k a hk
  case conflicts =>
    intro k hk
    cases k with
    | zero => exact hconflict
    | succ k => exact hshift k ▸ h.conflicts k (by omega)
  case spent =>
    intro k hk hyes
    obtain ⟨l, rfl, hl⟩ := hlater hk
    exact hshift l ▸ h.spent l hl (hshift l ▸ hyes)
  case returns =>
    rw [h.returns]
    constructor
    · rintro ⟨k, value, hk, htakes⟩
      exact ⟨k + 1, value, by omega, hshift k ▸ htakes⟩
    · rintro ⟨k, value, hk, htakes⟩
      obtain ⟨l, rfl, hl⟩ := hlater hk
      exact ⟨l, value, hl, (hshift l).symm ▸ htakes⟩
  case returned =>
    intro posted hposted
    obtain ⟨k, hk, htakes, hrebased⟩ := h.returned posted hposted
    exact ⟨k + 1, by omega, hshift k ▸ htakes, hshift k ▸ hrebased⟩

theorem Course.protocol (h : call.Course answers i follows events result) :
    ∃ attempts, call.Protocol answers i follows attempts events result := by
  induction h with
  | @unsent i follows fault => exact ⟨[], protocol_of_nothing fault⟩
  | @accepted i follows body value hbody htakes =>
    refine ⟨_, protocol_of_post hbody (fun hconflict => ?_) ?_ ?_⟩
    · exact absurd hconflict (not_conflicts_of_takes htakes)
    · exact ⟨fun _ => ⟨value, htakes⟩, fun _ => ⟨_, rfl⟩⟩
    · rintro _ ⟨⟩
      exact ⟨htakes, rfl⟩
  | refused fault hbody htakes hconflict =>
    exact ⟨_, protocol_of_refusal hbody htakes fun hyes => absurd hyes hconflict⟩
  | spent hbody htakes _ hbudget =>
    exact ⟨_, protocol_of_refusal hbody htakes fun _ => ⟨hbudget, rfl⟩⟩
  | lost fault hbody hconflict _ hlooks => exact ⟨_, protocol_of_wait hbody hconflict hlooks⟩
  | rebased hbody hconflict hbudget hhead _ ih =>
    obtain ⟨attempts, hprotocol⟩ := ih
    exact ⟨_, hprotocol.cons hbody hconflict hbudget hhead⟩

end LadderCall

namespace Service

/-- Whatever the network answers, a version is posted, after a conflict posted again after the head
that the server names, and so on while attempts are left; the call returns a version exactly if its
last post was answered with one. -/
theorem postVersion_protocol (c : Client) (hbase : c.config.restUrl.toList.head? ≠ some '/')
    (hjitter : c.config.noForkJitter.isZero = true)
    (hbackoff : c.config.noForkBackoffMs < UInt64.size) (old : String) (resource : Resource)
    (rootVersions : Option (List Path)) (answers : Nat → Except String Response) :
    let version := { resource with rootVersions := rootVersions.getD resource.rootVersions }
    let call : LadderCall := { client := c, old, version }
    let run := (postVersion (.real old) resource rootVersions).runAmid (.inTurn answers) id
      { client := c, remote := 0 }
    ∃ attempts, call.Protocol answers 0 (.real old) attempts run.2.trace run.1 := by
  intro version call run
  have hrun : run = (postAfter (.real call.item) call.version (call.budget + 1) (call.state 0)
      (.real old) (decide (0 ≠ 0))).runAmid (.inTurn answers) id { client := c, remote := 0 } := by
    rw [← call.start_eq_state hbackoff]
    rfl
  rw [hrun]
  obtain ⟨events, hevents, hcourse⟩ := keepsCourse answers hbase hjitter (Nat.add_zero call.budget)
    (.real old) { client := c, remote := 0 } rfl (.refl c)
  rw [hevents]
  exact hcourse.protocol

/-- A version that was posted beside another one is waited with, and posted after that one. -/
theorem postVersion_protocol_after_conflict :
    let c : Client := {
      config := { noForkJitter := ⟨0⟩ }
      schema := {
        sheets := [(Known.tag, {}), (Known.versionable, { fields := [("follows",
          { name := "follows", editable := true, valueType := Known.absolutePath })] })]
        resources := [("tag", {}), ("version", {})] } }
    let conflict : Response := .ofJson 400 (.object [
      ("errors", .array [.object [("description", .string "No fork allowed"),
        ("location", .string "body"), ("name", .string "root_versions")]]),
      ("status", .string "error")])
    let tag : Response := .ofJson 200 (.object [("content_type", .string "tag"),
      ("data", .object [(Known.tag, .object [("elements", .array [.string "/item/v1/"])])]),
      ("path", .string "/item/LAST/")])
    let created : Response := .ofJson 200 (.object [("content_type", .string "version"),
      ("path", .string "/item/v2/")])
    let answers (n : Nat) : Except String Response :=
      .ok (if n = 0 then conflict else if n = 1 then tag else created)
    let version : Resource := { contentType := "version", path := .placeholder 0 }
    let run := (postVersion (.real "/item/v0/") version (some [])).runAmid (.inTurn answers) id
      { client := c, remote := 0 }
    run.2.trace.map Happening.method? = [some .post, none, some .get, some .post] ∧
      ∃ attempts, LadderCall.Protocol
        { client := c, old := "/item/v0/", version := { version with rootVersions := [] } }
        answers 0
        (.real "/item/v0/") attempts run.2.trace run.1 := by
  intro c conflict tag created answers version run
  have hbase : c.config.restUrl.toList.head? ≠ some '/' := by decide +kernel
  have hjitter : c.config.noForkJitter.isZero = true := by decide +kernel
  have hbackoff : c.config.noForkBackoffMs < UInt64.size := by decide +kernel
  have htrace : run.2.trace.map Happening.method? = [some .post, none, some .get, some .post] := by
    decide +kernel
  have hprotocol :=
    postVersion_protocol c hbase hjitter hbackoff "/item/v0/" version (some []) answers
  refine ⟨htrace, ?_⟩
  unfold run
  exact hprotocol

/-- A post that is answered with a rejection of another kind is the last request of a call that
fails. -/
theorem postVersion_fails_after_post :
    let c : Client := {
      config := { noForkJitter := ⟨0⟩ }
      schema := { resources := [("version", {})] } }
    let rejection : Response := .ofJson 400 (.object [("content_type", .string "version"),
      ("path", .string "/item/v1/")])
    let version : Resource := { contentType := "version", path := .placeholder 0 }
    let run := (postVersion (.real "/item/v0/") version none).runAmid
      (.inTurn fun _ => .ok rejection)
      id { client := c, remote := 0 }
    run.2.trace.map Happening.method? = [some .post] ∧ run.1.isOk = false := by
  decide +kernel

end Service

end ResourceClient

import Mathlib.Data.List.Forall2
import ResourceClient.Proofs.Service.Batches
import ResourceClient.Proofs.Service.Recording
import ResourceClient.Session.Run

/-!
Transactions from the first call to the last. Calls that succeed are numbered in their order, the
commit sends what they recorded in one batch, and whoever holds a handle finds the result of that
very call under its number. Nothing is recorded any more once the commit was called.
-/
namespace ResourceClient

/-- The call returned the reply and was recorded as the operation with the number `index`. -/
inductive Recorded (c : Client) (drawn : List Path) (index : Nat) :
    TransactionStep → Reply → BatchOperation → Prop
  | get (path : Path) : Recorded c drawn index (.get path) (.operation { index, path })
      { method := .get, target := Transaction.target c path }
  | put (path : Path) {resource : Resource} {body : Json}
      (hbody : Wire.exportResource c.schema {} resource = .ok body) :
      Recorded c drawn index (.put path resource) (.operation { index, path })
        { method := .put, target := Transaction.target c path, body := some body }
  | post {parent : Path} {resource : Resource} {handle : PostHandle} {o : BatchOperation}
      (hindex : handle.index = index) (hcreates : Creates c drawn parent resource handle o) :
      Recorded c drawn index (.post parent resource) (.posted handle) o

namespace Recorded

variable {c : Client} {drawn more : List Path} {index : Nat} {step : TransactionStep}
  {reply : Reply} {o : BatchOperation}

theorem mono (h : Recorded c drawn index step reply o) (hmore : drawn ⊆ more) :
    Recorded c more index step reply o := by
  cases h with
  | get path => exact .get path
  | put path hbody => exact .put path hbody
  | post hindex hcreates => exact .post hindex (hcreates.mono hmore)

theorem of_names {names : Names} (h : Recorded { c with names } drawn index step reply o) :
    Recorded c drawn index step reply o := by
  cases h with
  | get path => exact .get path
  | put path hbody => exact .put path hbody
  | post hindex hcreates => exact .post hindex hcreates.of_names

theorem ne_fault (h : Recorded c drawn index step reply o) (fault : Fault) :
    reply ≠ .fault fault := by
  cases h <;> exact nofun

end Recorded

namespace Session

variable {c : Client} {tx : Transaction} {operations : List BatchOperation}
  {step : TransactionStep} {reply : Reply}

theorem recordOn_of_committed (h : tx.committed = true) :
    recordOn step tx c = (.error .closed, tx, c) := by
  cases step with
  | get path => simp [recordOn, Transaction.get, h, Except.map]
  | put path resource => simp [recordOn, Transaction.put, h, Except.map]
  | post parent resource => simp [recordOn, Transaction.post, h, Except.map]

theorem recordOn_eq_ok (h : (recordOn step { operations } c).1 = .ok reply) :
    ∃ o, Recorded c (c.names.upcoming 2) operations.length step reply o ∧
      (recordOn step { operations } c).2.1 = { operations := operations ++ [o] } := by
  cases step with
  | get path =>
    obtain rfl := Except.ok.inj h
    exact ⟨_, .get path, rfl⟩
  | put path resource =>
    have hmap : (Transaction.put c path resource { operations }).1.map .operation = .ok reply := h
    obtain ⟨handle, hput, rfl⟩ := exists_of_map_eq_ok hmap
    simp only [recordOn, Transaction.put, Bool.false_eq_true, if_false] at hput ⊢
    cases hbody : Wire.exportResource c.schema {} resource with
    | error fault =>
      rw [hbody] at hput
      cases hput
    | ok body =>
      rw [hbody] at hput
      obtain rfl := Except.ok.inj hput
      exact ⟨_, .put path hbody, rfl⟩
  | post parent resource =>
    have hmap : (Transaction.post parent resource { operations } c).1.map .posted = .ok reply := h
    obtain ⟨handle, hpost, rfl⟩ := exists_of_map_eq_ok hmap
    obtain ⟨hindex, o, hcreates, hpush⟩ := Transaction.post_eq_ok hpost
    exact ⟨o, .post hindex hcreates, hpush⟩

theorem recordOn_eq_error {fault : Fault} (h : (recordOn step { operations } c).1 = .error fault) :
    (recordOn step { operations } c).2.1 = { operations } ∧ Wire.exportKind fault := by
  cases step with
  | get path => cases h
  | put path resource =>
    have hmap : (Transaction.put c path resource { operations }).1.map Reply.operation =
      .error fault := h
    have hput := eq_error_of_map_eq_error hmap
    simp only [recordOn, Transaction.put, Bool.false_eq_true, if_false] at hput ⊢
    cases hbody : Wire.exportResource c.schema {} resource with
    | error cause =>
      rw [hbody] at hput
      obtain rfl := Except.error.inj hput
      exact ⟨rfl, Wire.failsOnly_exportResource {} resource cause hbody⟩
    | ok body =>
      rw [hbody] at hput
      cases hput
  | post parent resource =>
    have hmap : (Transaction.post parent resource { operations } c).1.map Reply.posted =
      .error fault := h
    obtain ⟨hsame, hexport⟩ := Transaction.post_eq_error (eq_error_of_map_eq_error hmap)
    exact ⟨hsame, Wire.failsOnly_exportResource _ resource fault (hexport rfl)⟩

theorem recordOn_of_error {fault : Fault} (h : (recordOn step tx c).1 = .error fault) :
    (recordOn step tx c).2.1 = tx := by
  obtain ⟨operations, committed⟩ := tx
  cases committed with
  | true => rw [recordOn_of_committed rfl]
  | false => exact (recordOn_eq_error h).1

theorem snd_recordOn (step : TransactionStep) (tx : Transaction) (c : Client) :
    ∃ names, (recordOn step tx c).2.2 = { c with names } ∧
      ∀ count, names.upcoming count ⊆ c.names.upcoming (count + 2) := by
  have hsame : ∀ count, c.names.upcoming count ⊆ c.names.upcoming (count + 2) :=
    fun count => c.names.upcoming_mono (by omega)
  cases step with
  | get path => exact ⟨c.names, rfl, hsame⟩
  | put path resource => exact ⟨c.names, rfl, hsame⟩
  | post parent resource => exact Transaction.snd_post tx c

def recordEach : List (String × TransactionStep) → Session → List Reply × Session
  | [], s => ([], s)
  | (name, step) :: rest, s =>
    let (reply, s) := s.record name step
    let (replies, s) := recordEach rest s
    (reply :: replies, s)

/-- The calls on one transaction that succeeded, with their replies. -/
def successes (name : String) (calls : List (String × TransactionStep)) (replies : List Reply) :
    List (TransactionStep × Reply) :=
  (calls.zip replies).filterMap fun ((called, step), reply) =>
    match reply with
    | .fault _ => none
    | reply => if called = name then some (step, reply) else none

variable {s : Session} {name : String}

theorem record_of_get? (h : Table.get? s.transactions name = some tx) (step : TransactionStep) :
    s.record name step =
      let recorded := recordOn step tx s.client
      (.ofExcept id recorded.1,
        { s with
          world := { s.world with client := recorded.2.2 }
          transactions := Table.insert name recorded.2.1 s.transactions }) := by
  simp only [record, h]

theorem snd_record (name : String) (step : TransactionStep) (s : Session) :
    (∃ names, (s.record name step).2.world = { s.world with client := { s.client with names } } ∧
      ∀ count, names.upcoming count ⊆ s.client.names.upcoming (count + 2)) ∧
    ∀ other ≠ name, Table.get? (s.record name step).2.transactions other =
      Table.get? s.transactions other := by
  cases h : Table.get? s.transactions name with
  | none =>
    simp only [record, h]
    have hsame : ∀ count, s.client.names.upcoming count ⊆ s.client.names.upcoming (count + 2) :=
      fun count => s.client.names.upcoming_mono (by omega)
    exact ⟨⟨s.client.names, rfl, hsame⟩, fun _ _ => trivial⟩
  | some tx =>
    rw [record_of_get? h]
    obtain ⟨names, hnames, hupcoming⟩ := snd_recordOn step tx s.client
    dsimp only
    rw [hnames]
    refine ⟨⟨names, rfl, hupcoming⟩, fun other hne => ?_⟩
    rw [Table.get?_insert, if_neg hne]

theorem get?_record_of_fault {fault : Fault} {step : TransactionStep}
    (h : (s.record name step).1 = .fault fault) (other : String) :
    Table.get? (s.record name step).2.transactions other = Table.get? s.transactions other := by
  by_cases hother : other = name
  · subst hother
    cases htx : Table.get? s.transactions other with
    | none =>
      simp only [record, htx] at h
      cases h
    | some tx =>
      have hsame : (recordOn step tx s.client).2.1 = tx := by
        rw [record_of_get? htx] at h
        obtain ⟨operations, committed⟩ := tx
        cases committed with
        | true => rw [recordOn_of_committed rfl]
        | false =>
          cases hresult : (recordOn step { operations } s.client).1 with
          | error cause => exact (recordOn_eq_error hresult).1
          | ok reply =>
            obtain ⟨o, hrecorded, -⟩ := recordOn_eq_ok hresult
            dsimp only at h
            rw [hresult] at h
            exact absurd h (hrecorded.ne_fault fault)
      rw [record_of_get? htx]
      dsimp only
      rw [hsame, Table.get?_insert_self]
  · exact (snd_record name step s).2 other hother

theorem record_of_open (h : Table.get? s.transactions name = some { operations })
    (step : TransactionStep) :
    (∃ fault, (s.record name step).1 = .fault fault ∧ Wire.exportKind fault ∧
      Table.get? (s.record name step).2.transactions name = some { operations }) ∨
    ∃ o, Recorded s.client (s.client.names.upcoming 2) operations.length step
        (s.record name step).1 o ∧
      Table.get? (s.record name step).2.transactions name =
        some { operations := operations ++ [o] } := by
  rw [record_of_get? h]
  dsimp only
  rw [Table.get?_insert_self]
  cases hresult : (recordOn step { operations } s.client).1 with
  | error fault =>
    obtain ⟨hsame, hkind⟩ := recordOn_eq_error hresult
    exact .inl ⟨fault, rfl, hkind, congrArg some hsame⟩
  | ok reply =>
    obtain ⟨o, hrecorded, hmore⟩ := recordOn_eq_ok hresult
    exact .inr ⟨o, hrecorded, congrArg some hmore⟩

theorem successes_cons_of_fault {fault : Fault} {called : String}
    {calls : List (String × TransactionStep)} {replies : List Reply} :
    successes name ((called, step) :: calls) (.fault fault :: replies) =
      successes name calls replies := rfl

theorem successes_cons_of_ne {called : String} (h : called ≠ name)
    {calls : List (String × TransactionStep)} {replies : List Reply} :
    successes name ((called, step) :: calls) (reply :: replies) = successes name calls replies := by
  cases reply <;> simp [successes, h]

theorem successes_cons (hreply : ∀ fault, reply ≠ .fault fault)
    {calls : List (String × TransactionStep)} {replies : List Reply} :
    successes name ((name, step) :: calls) (reply :: replies) =
      (step, reply) :: successes name calls replies := by
  cases reply <;> simp_all [successes]

/-- The calls on an open transaction are recorded in their order, whatever is called in between. -/
theorem get?_recordEach (h : Table.get? s.transactions name = some { operations })
    (calls : List (String × TransactionStep)) :
    ∃ more, Table.get? (s.recordEach calls).2.transactions name =
        some { operations := operations ++ more } ∧
      List.Forall₂ (fun call o => Recorded s.client (s.client.names.upcoming (2 * calls.length))
          call.2 call.1.1 call.1.2 o)
        ((successes name calls (s.recordEach calls).1).zipIdx operations.length) more := by
  induction calls generalizing s operations with
  | nil => exact ⟨[], by simpa [recordEach] using h, .nil⟩
  | cons call rest ih =>
    obtain ⟨called, step⟩ := call
    obtain ⟨⟨names, hworld, hupcoming⟩, hothers⟩ := snd_record called step s
    have hclient : (s.record called step).2.client = { s.client with names } :=
      congrArg World.client hworld
    have hlater : ∀ (call : (TransactionStep × Reply) × Nat) (o : BatchOperation),
        Recorded (s.record called step).2.client
          ((s.record called step).2.client.names.upcoming (2 * rest.length)) call.2 call.1.1
          call.1.2 o →
        Recorded s.client (s.client.names.upcoming (2 * (rest.length + 1))) call.2 call.1.1
          call.1.2 o := by
      intro call o hrecorded
      rw [hclient] at hrecorded
      exact hrecorded.of_names.mono (hupcoming _)
    change ∃ more, Table.get? (recordEach rest (s.record called step).2).2.transactions name =
        some { operations := operations ++ more } ∧
      List.Forall₂ _ ((successes name ((called, step) :: rest) ((s.record called step).1 ::
        (recordEach rest (s.record called step).2).1)).zipIdx operations.length) more
    by_cases hname : called = name
    · subst hname
      rcases record_of_open h step with ⟨fault, hfault, -, hnext⟩ | ⟨o, hrecorded, hnext⟩
      · obtain ⟨more, hafter, hmore⟩ := ih hnext
        rw [hfault, successes_cons_of_fault]
        exact ⟨more, hafter, hmore.imp hlater⟩
      · obtain ⟨more, hafter, hmore⟩ := ih hnext
        rw [successes_cons hrecorded.ne_fault]
        refine ⟨o :: more, by simpa using hafter, .cons ?_ ?_⟩
        · have hfirst : 2 ≤ 2 * (rest.length + 1) := by omega
          exact hrecorded.mono (s.client.names.upcoming_mono hfirst)
        · rw [List.length_append, List.length_singleton] at hmore
          exact hmore.imp hlater
    · obtain ⟨more, hafter, hmore⟩ := ih ((hothers name (Ne.symm hname)).trans h)
      rw [successes_cons_of_ne hname]
      exact ⟨more, hafter, hmore.imp hlater⟩

/-- What comes of the commit of these operations, whenever and wherever it is run. -/
structure Settles (flow : Flow Reply) (operations : List BatchOperation) : Prop where
  silent {σ : Type} (net : Network σ) (meanwhile : World σ → World σ) (w : World σ) :
    operations = [] → flow.runAmid net meanwhile w = (.resources [], w)
  once {σ : Type} (net : Network σ) (meanwhile : World σ → World σ) (w : World σ) :
    operations ≠ [] → (flow.runAmid net meanwhile w).2.trace =
      (meanwhile (w.record (.requested (w.client.batchRequest operations)))).trace
  unpacks {σ : Type} (net : Network σ) (meanwhile : World σ → World σ) (w : World σ)
    (resources : List Resource) :
    operations ≠ [] → (flow.runAmid net meanwhile w).1 = .resources resources →
      let exchanged := w.exchangeAmid net meanwhile (w.client.batchRequest operations)
      ∃ response batch, exchanged.1 = .ok response ∧
        response.Carries operations.length batch ∧ batch.Unpacks exchanged.2.client resources
  comes_back {σ : Type} (net : Network σ) (meanwhile : World σ → World σ) (w : World σ) :
    (∃ resources, (flow.runAmid net meanwhile w).1 = .resources resources) ∨
      ∃ fault, (flow.runAmid net meanwhile w).1 = .fault fault

/-- Whatever is called on the transaction is refused, and changes nothing. -/
structure Refuses (s : Session) (name : String) : Prop where
  record (step : TransactionStep) : (s.record name step).1 = .fault .closed
  world (step : TransactionStep) : (s.record name step).2.world = s.world
  transactions (step : TransactionStep) (other : String) :
    Table.get? (s.record name step).2.transactions other = Table.get? s.transactions other
  commit : (s.commit name).1 = .done (.fault .closed)

theorem runAmid_replyTo {α σ : Type} (net : Network σ) (meanwhile : World σ → World σ)
    (w : World σ) (reply : α → Reply) (action : Action α) :
    (replyTo reply action).runAmid net meanwhile w =
      (.ofExcept reply (action.runAmid net meanwhile w).1, (action.runAmid net meanwhile w).2) := by
  unfold replyTo
  rw [Flow.runAmid_bind]
  rfl

theorem settles_sendBatch (operations : List BatchOperation) :
    Settles (replyTo .resources (Service.sendBatch operations)) operations where
  silent := by
    rintro σ net meanwhile w rfl
    rw [runAmid_replyTo, Service.runAmid_sendBatch_nil]
    rfl
  once := by
    intro σ net meanwhile w h
    rw [runAmid_replyTo]
    exact Service.trace_sendBatch net meanwhile w h
  unpacks := by
    intro σ net meanwhile w resources h hresult
    rw [runAmid_replyTo] at hresult
    refine Service.sendBatch_eq_ok net meanwhile w h ?_
    cases hsent : ((Service.sendBatch operations).runAmid net meanwhile w).1 with
    | error fault =>
      rw [hsent] at hresult
      cases hresult
    | ok values =>
      rw [hsent] at hresult
      obtain rfl : values = resources := by simpa [Reply.ofExcept] using hresult
      rfl
  comes_back := by
    intro σ net meanwhile w
    rw [runAmid_replyTo]
    cases ((Service.sendBatch operations).runAmid net meanwhile w).1 with
    | error fault => exact .inr ⟨fault, rfl⟩
    | ok resources => exact .inl ⟨resources, rfl⟩

theorem commit_of_open (h : Table.get? s.transactions name = some { operations }) :
    s.commit name =
      (replyTo .resources (Service.sendBatch operations),
        { s with
          transactions := Table.insert name { committed := true } s.transactions }) := by
  simp only [commit, h, Transaction.commit, Bool.false_eq_true, if_false]

theorem refuses_of_committed (h : Table.get? s.transactions name = some tx)
    (hcommitted : tx.committed = true) : Refuses s name := by
  have hrecord : ∀ step, (s.record name step).1 = .fault .closed := by
    intro step
    rw [record_of_get? h, recordOn_of_committed hcommitted]
    rfl
  refine ⟨hrecord, fun step => ?_, fun step => get?_record_of_fault (hrecord step), ?_⟩
  · rw [record_of_get? h, recordOn_of_committed hcommitted]
    rfl
  · simp only [commit, h, Transaction.commit, hcommitted, if_true]

def Opens (name : String) : Step → Prop
  | .beginTransaction other => other = name
  | .start _ step => Opens name step
  | _ => False

def after (steps : List Step) (s : Session) : Session :=
  steps.foldl (fun s step => (s.step step).2) s

theorem transactions_dropSpare (spare : String) (s : Session) :
    (s.dropSpare spare).transactions = s.transactions := by
  unfold dropSpare
  split
  · rfl
  · dsimp only
    split <;> rfl

theorem transactions_keepSpare (spare : String) (id : Nat) (s : Session) :
    (s.keepSpare spare id).transactions = s.transactions := by
  unfold keepSpare
  split
  · rfl
  · exact transactions_dropSpare spare s

/-- A step keeps what is committed, unless it begins anew under the name. -/
theorem get?_begin (h : Table.get? s.transactions name = some tx) (hcommitted : tx.committed = true)
    {step : Step} (hstep : ¬ Opens name step) :
    Table.get? (s.begin step).2.transactions name = some tx := by
  induction step generalizing s with
  | beginTransaction other =>
    have hne : name ≠ other := fun heq => hstep heq.symm
    change Table.get? (Table.insert other _ s.transactions) name = _
    rw [Table.get?_insert, if_neg hne, h]
  | record other step =>
    change Table.get? (s.record other step).2.transactions name = _
    by_cases hother : name = other
    · subst hother
      rw [(refuses_of_committed h hcommitted).transactions step name, h]
    · rw [(snd_record other step s).2 name hother, h]
  | commit other =>
    change Table.get? (s.commit other).2.transactions name = _
    unfold commit
    split
    · exact h
    · next other hother =>
      dsimp only
      rw [Table.get?_insert]
      split
      · next heq =>
        subst heq
        obtain rfl : tx = _ := Option.some.inj (h.symm.trans hother)
        simp [Transaction.commit, hcommitted]
      · exact h
  | start task step ih => exact ih h hstep
  | forgetTouched report posted => cases report <;> exact h
  | newCache spare =>
    change Table.get? (s.newSpare spare).transactions name = _
    unfold newSpare
    rw [transactions_keepSpare]
    exact h
  | cloneCache spare source =>
    change Table.get? (s.cloneSpare spare source).transactions name = _
    unfold cloneSpare
    split
    · rw [transactions_keepSpare, h]
    · exact h
  | dropCache spare =>
    change Table.get? (s.dropSpare spare).transactions name = _
    rw [transactions_dropSpare, h]
  | endRegistration registration =>
    change Table.get? (s.endRegistration registration).2.transactions name = _
    unfold endRegistration
    split <;> exact h
  | finish task =>
    rw [Session.begin]
    split <;> exact h
  | _ => exact h

theorem get?_after (h : Table.get? s.transactions name = some tx) (hcommitted : tx.committed = true)
    {steps : List Step} (hsteps : ∀ step ∈ steps, ¬ Opens name step) :
    Table.get? (s.after steps).transactions name = some tx := by
  induction steps generalizing s with
  | nil => exact h
  | cons step rest ih =>
    have hnext : Table.get? (s.step step).2.transactions name = some tx :=
      get?_begin h hcommitted (hsteps step List.mem_cons_self)
    exact ih hnext fun later hlater => hsteps later (List.mem_cons_of_mem _ hlater)

/-- The calls that succeed are recorded under their numbers, and one that fails leaves no trace.
From the commit on nothing is recorded, and what was comes back as the answer to one batch. -/
theorem commit_recordEach (s : Session) (name : String) (calls : List (String × TransactionStep)) :
    let opened := (s.begin (.beginTransaction name)).2
    let recorded := (opened.recordEach calls).2
    let closed := (recorded.commit name).2
    (∀ before called step fault, before ++ [(called, step)] <+: calls →
      let t := (opened.recordEach before).2
      (t.record called step).1 = .fault fault →
        (called = name → Wire.exportKind fault) ∧ ∀ other,
          Table.get? (t.record called step).2.transactions other =
            Table.get? t.transactions other) ∧
    ∃ operations,
      List.Forall₂ (fun call o => Recorded s.client (s.client.names.upcoming (2 * calls.length))
          call.2 call.1.1 call.1.2 o)
        (successes name calls (opened.recordEach calls).1).zipIdx operations ∧
      recorded.inspectTransaction name = .transaction { operations } ∧
      Settles (recorded.commit name).1 operations ∧
      closed.world = recorded.world ∧
      ∀ steps, (∀ step ∈ steps, ¬ Opens name step) → Refuses (closed.after steps) name := by
  intro opened recorded closed
  have hopened : Table.get? opened.transactions name = some { operations := [] } :=
    Table.get?_insert_self name ({} : Transaction) s.transactions
  constructor
  · intro before called step fault _ t hfault
    refine ⟨?_, get?_record_of_fault hfault⟩
    rintro rfl
    obtain ⟨more, hthere, -⟩ := get?_recordEach hopened before
    rcases record_of_open hthere step with ⟨cause, hcause, hkind, -⟩ | ⟨o, hrecorded, -⟩
    · obtain rfl : fault = cause := by simpa using hfault.symm.trans hcause
      exact hkind
    · exact absurd hfault (hrecorded.ne_fault fault)
  · obtain ⟨operations, hthere, hmore⟩ := get?_recordEach hopened calls
    rw [List.nil_append] at hthere
    have hcommit := commit_of_open hthere
    have hclosed : Table.get? closed.transactions name = some { committed := true } := by
      rw [show closed = _ from congrArg Prod.snd hcommit]
      exact Table.get?_insert_self name _ recorded.transactions
    refine ⟨operations, hmore, ?_, ?_, ?_, fun steps hsteps => ?_⟩
    · simp only [recorded, inspectTransaction, hthere]
    · rw [hcommit]
      exact settles_sendBatch operations
    · rw [show closed = _ from congrArg Prod.snd hcommit]
    · exact refuses_of_committed (get?_after hclosed rfl hsteps) rfl

end Session

end ResourceClient

import ResourceClient.Proofs.Service.Issuance
import ResourceClient.Proofs.Service.Transactions

/-!
A service at work, with its open transactions, and an account of what it draws. However the calls
are mixed, no placeholder is drawn twice before the numbers come round, and none is bound twice in
a batch whose resources hold only what was drawn for them and is not drawn for the batch.
-/
namespace ResourceClient

/-- A placeholder that was drawn, and the batch that it was recorded in, if any. -/
structure Draw where
  path : Path
  batch : Option Nat := none
  deriving DecidableEq

/-- What a transaction has recorded, and the resources that were posted. -/
structure AuditedTransaction where
  tx : Transaction := {}
  posted : List Resource := []

structure SentBatch where
  number : Nat
  posted : List Resource
  operations : List BatchOperation

structure NameAudit where
  client : Client
  transactions : List AuditedTransaction := []
  sentBatches : List SentBatch := []
  log : List Draw := []

inductive AuditStep where
  | draw (demand : Demand)
  | open
  | record (transaction : Nat) (step : TransactionStep)
  | commit (transaction : Nat)
  | deepPost (resources : List Resource)
  | other (client : Client)

namespace TransactionStep

def drawn (step : TransactionStep) (tx : Transaction) (c : Client) : List Path :=
  match step with
  | .post _ resource => Transaction.drawnByPost resource tx c
  | _ => []

def posted : TransactionStep → List Resource
  | .post _ resource => [resource]
  | _ => []

end TransactionStep

namespace NameAudit

def enter (drawn : List Path) (batch : Option Nat) (client : Client) (audit : NameAudit) :
    NameAudit :=
  { audit with client, log := audit.log ++ drawn.map fun path => { path, batch } }

def record (number : Nat) (step : TransactionStep) (audit : NameAudit) : NameAudit :=
  match audit.transactions[number]? with
  | none => audit
  | some transaction =>
    let drawn := step.drawn transaction.tx audit.client
    match Session.recordOn step transaction.tx audit.client with
    | (.error _, tx, client) =>
      { audit.enter drawn none client with
        transactions := audit.transactions.set number { transaction with tx } }
    | (.ok _, tx, client) =>
      { audit.enter drawn (some number) client with
        transactions :=
          audit.transactions.set number { tx, posted := transaction.posted ++ step.posted } }

def commit (number : Nat) (audit : NameAudit) : NameAudit :=
  match audit.transactions[number]? with
  | none => audit
  | some transaction =>
    let audit :=
      { audit with
        transactions :=
          audit.transactions.set number { transaction with tx := transaction.tx.commit.2 } }
    match transaction.tx.commit.1 with
    | .error _ => audit
    | .ok operations =>
      { audit with sentBatches := audit.sentBatches ++ [⟨number, transaction.posted, operations⟩] }

/-- A transaction of its own, which is sent if all can be recorded. -/
def deepPost (resources : List Resource) (audit : NameAudit) : NameAudit :=
  match PostingOrder.order audit.client.schema resources with
  | .error _ => audit
  | .ok order =>
    let drawn := audit.client.drawnByPosts resources order {}
    match audit.client.recordPosts resources order {} with
    | (.error _, client) => audit.enter drawn none client
    | (.ok tx, client) =>
      let number := audit.transactions.length
      let posted := order.filterMap (resources[·]?)
      { audit.enter drawn (some number) client with
        transactions := audit.transactions ++ [{ tx := { committed := true }, posted }]
        sentBatches := audit.sentBatches ++ [⟨number, posted, tx.operations⟩] }

def run (call : AuditStep) (audit : NameAudit) : NameAudit :=
  match call with
  | .draw demand => audit.enter (demand.drawn audit.client) none (demand.meet audit.client)
  | .open => { audit with transactions := audit.transactions ++ [{}] }
  | .record number step => audit.record number step
  | .commit number => audit.commit number
  | .deepPost resources => audit.deepPost resources
  | .other client => { audit with client := { client with names := audit.client.names } }

def runAll (calls : List AuditStep) (audit : NameAudit) : NameAudit :=
  calls.foldl (fun audit call => audit.run call) audit

def drawnFor (number : Nat) (audit : NameAudit) : List Path :=
  (audit.log.filter fun draw => draw.batch = some number).map Draw.path

end NameAudit

namespace TransactionStep

theorem draws (step : TransactionStep) (tx : Transaction) (c : Client) :
    c.names.Draws (step.drawn tx c) (Session.recordOn step tx c).2.2.names := by
  cases step with
  | post parent resource => exact Transaction.draws_post parent resource tx c
  | _ => exact .nothing c.names

end TransactionStep

theorem Bound.recordOn {step : TransactionStep} {tx : Transaction} {c : Client} {reply : Reply}
    {posted : List Resource} {drawn : List Path} (h : Bound tx.operations posted drawn)
    (hok : (Session.recordOn step tx c).1 = .ok reply) :
    Bound (Session.recordOn step tx c).2.1.operations (posted ++ step.posted)
      (drawn ++ step.drawn tx c) := by
  obtain ⟨operations, committed⟩ := tx
  cases committed with
  | true =>
    rw [Session.recordOn_of_committed rfl] at hok
    cases hok
  | false =>
    obtain ⟨o, hrecorded, hpush⟩ := Session.recordOn_eq_ok hok
    cases hrecorded with
    | get path =>
      rw [hpush]
      simpa [TransactionStep.posted, TransactionStep.drawn] using h.push rfl
    | put path hbody =>
      rw [hpush]
      simpa [TransactionStep.posted, TransactionStep.drawn] using h.push rfl
    | post hindex hcreates =>
      obtain ⟨handle, hpost, -⟩ := exists_of_map_eq_ok hok
      exact h.post hpost

namespace NameAudit

/-- The account tells how the supply has come about, and all that is bound. -/
structure Kept (start : Names) (audit : NameAudit) : Prop where
  draws : start.Draws (audit.log.map Draw.path) audit.client.names
  transactions : ∀ {number transaction}, audit.transactions[number]? = some transaction →
    Bound transaction.tx.operations transaction.posted (audit.drawnFor number)
  sentBatches : ∀ sent ∈ audit.sentBatches,
    Bound sent.operations sent.posted (audit.drawnFor sent.number)

variable {start : Names} {audit : NameAudit} {drawn : List Path} {batch : Option Nat}
  {client : Client}
  {number : Nat} {transaction : AuditedTransaction}

theorem drawnFor_enter_self (drawn : List Path) (number : Nat) (client : Client)
    (audit : NameAudit) :
    (audit.enter drawn (some number) client).drawnFor number = audit.drawnFor number ++ drawn := by
  simp [drawnFor, enter, List.filter_map, Function.comp_def]

theorem sublist_drawnFor_enter (other : Nat) :
    (audit.drawnFor other).Sublist ((audit.enter drawn batch client).drawnFor other) := by
  unfold drawnFor enter
  rw [List.filter_append, List.map_append]
  exact List.sublist_append_left _ _

namespace Kept

theorem enter (h : audit.Kept start) (hdraws : audit.client.names.Draws drawn client.names) :
    (audit.enter drawn batch client).Kept start where
  draws := by
    have hlog : (audit.enter drawn batch client).log.map Draw.path =
        audit.log.map Draw.path ++ drawn := by simp [NameAudit.enter, Function.comp_def]
    rw [hlog]
    exact h.draws.append hdraws
  transactions := fun htransaction => (h.transactions htransaction).mono (sublist_drawnFor_enter _)
  sentBatches := fun sent hmem => (h.sentBatches sent hmem).mono (sublist_drawnFor_enter _)

theorem set (h : audit.Kept start) (number : Nat) (transaction : AuditedTransaction)
    (htransaction : Bound transaction.tx.operations transaction.posted (audit.drawnFor number)) :
    Kept start { audit with transactions := audit.transactions.set number transaction } :=
  { h with
    draws := h.draws
    sentBatches := h.sentBatches
    transactions := by
      intro other found hfound
      rw [List.getElem?_set] at hfound
      split at hfound
      · next heq =>
        split at hfound
        · obtain rfl := Option.some.inj hfound
          exact heq ▸ htransaction
        · cases hfound
      · exact h.transactions hfound }

theorem add (h : audit.Kept start) (transaction : AuditedTransaction)
    (htransaction : Bound transaction.tx.operations transaction.posted
      (audit.drawnFor audit.transactions.length)) :
    Kept start { audit with transactions := audit.transactions ++ [transaction] } :=
  { h with
    draws := h.draws
    sentBatches := h.sentBatches
    transactions := by
      intro other found hfound
      rcases LiveCache.getElem?_snoc_iff.1 hfound with hold | ⟨rfl, rfl⟩
      · exact h.transactions hold
      · exact htransaction }

theorem sent (h : audit.Kept start) (sent : SentBatch)
    (hbound : Bound sent.operations sent.posted (audit.drawnFor sent.number)) :
    Kept start { audit with sentBatches := audit.sentBatches ++ [sent] } :=
  { h with
    draws := h.draws
    transactions := h.transactions
    sentBatches := by
      intro other hother
      rcases List.mem_append.1 hother with hold | hnew
      · exact h.sentBatches other hold
      · obtain rfl := List.mem_singleton.1 hnew
        exact hbound }

theorem record (h : audit.Kept start) (number : Nat) (step : TransactionStep) :
    (audit.record number step).Kept start := by
  unfold NameAudit.record
  cases htransaction : audit.transactions[number]? with
  | none => exact h
  | some transaction =>
    have hbound := h.transactions htransaction
    have hdraws := step.draws transaction.tx audit.client
    dsimp only
    rcases hrecord : Session.recordOn step transaction.tx audit.client with
      ⟨fault | reply, tx, client⟩
    · have hsame := Session.recordOn_of_error (congrArg Prod.fst hrecord)
      rw [hrecord] at hdraws hsame
      obtain rfl : tx = transaction.tx := hsame
      exact (h.enter hdraws).set number transaction (hbound.mono (sublist_drawnFor_enter number))
    · have hmore := hbound.recordOn (congrArg Prod.fst hrecord)
      rw [hrecord] at hdraws hmore
      rw [← drawnFor_enter_self _ number client] at hmore
      exact (h.enter hdraws).set number ⟨tx, _⟩ hmore

theorem commit (h : audit.Kept start) (number : Nat) : (audit.commit number).Kept start := by
  unfold NameAudit.commit
  cases htransaction : audit.transactions[number]? with
  | none => exact h
  | some transaction =>
    have hbound := h.transactions htransaction
    unfold Transaction.commit
    dsimp only
    cases transaction.tx.committed with
    | true => exact h.set number transaction hbound
    | false => exact (h.set number ⟨_, transaction.posted⟩ (.nil _ _)).sent ⟨number, _, _⟩ hbound

theorem deepPost (h : audit.Kept start) (resources : List Resource) :
    (audit.deepPost resources).Kept start := by
  unfold NameAudit.deepPost
  cases PostingOrder.order audit.client.schema resources with
  | error fault => exact h
  | ok order =>
    have hdraws := Client.draws_recordPosts resources order {} audit.client
    dsimp only
    rcases hrecorded : audit.client.recordPosts resources order {} with ⟨fault | tx, client⟩
    · rw [hrecorded] at hdraws
      exact h.enter hdraws
    · have hbound : Bound tx.operations _ _ :=
        Bound.recordPosts order (.nil [] (audit.drawnFor audit.transactions.length))
          (congrArg Prod.fst hrecorded)
      rw [hrecorded] at hdraws
      rw [← drawnFor_enter_self _ audit.transactions.length client] at hbound
      exact ((h.enter hdraws).add ⟨_, _⟩ (.nil _ _)).sent ⟨_, _, _⟩ hbound

theorem run (h : audit.Kept start) (call : AuditStep) : (audit.run call).Kept start := by
  cases call with
  | draw demand => exact h.enter (demand.draws audit.client)
  | «open» => exact h.add {} (.nil [] _)
  | record number step => exact h.record number step
  | commit number => exact h.commit number
  | deepPost resources => exact h.deepPost resources
  | other client => exact { h with draws := h.draws }

theorem runAll (h : audit.Kept start) (calls : List AuditStep) :
    (audit.runAll calls).Kept start := by
  induction calls generalizing audit with
  | nil => exact h
  | cons call rest ih => exact ih (h.run call)

theorem fresh (client : Client) : Kept client.names { client } where
  draws := .nothing client.names
  transactions := fun h => absurd h (by simp)
  sentBatches := fun _ h => absurd h List.not_mem_nil

theorem isPlaceholder (h : audit.Kept start) {path : Path}
    (hpath : path ∈ audit.log.map Draw.path) :
    path.isPlaceholder = true := by
  rw [h.draws.eq_upcoming] at hpath
  obtain ⟨n, rfl⟩ := Names.exists_of_mem_upcoming hpath
  rfl

end Kept

theorem mem_drawnFor_iff {path : Path} :
    path ∈ audit.drawnFor number ↔ { path, batch := some number } ∈ audit.log := by
  unfold drawnFor
  rw [List.mem_map]
  constructor
  · rintro ⟨⟨path, batch⟩, hmem, rfl⟩
    obtain ⟨hlog, hbatch⟩ := List.mem_filter.1 hmem
    obtain rfl : batch = some number := by simpa using hbatch
    exact hlog
  · exact fun hlog => ⟨_, List.mem_filter.2 ⟨hlog, by simp⟩, rfl⟩

theorem not_mem_drawnFor (hnodup : (audit.log.map Draw.path).Nodup) {draw : Draw}
    (hdraw : draw ∈ audit.log) (hbatch : draw.batch ≠ some number) :
    draw.path ∉ audit.drawnFor number := by
  intro hmem
  have hsame := List.inj_on_of_nodup_map hnodup hdraw (mem_drawnFor_iff.1 hmem) rfl
  exact hbatch (congrArg Draw.batch hsame)

/-- The account is of all that has left the supply. Until the numbers come round, no placeholder is
drawn twice. What a batch binds is held by its resources or was drawn for it, and nothing is bound
twice if nothing is held twice and whatever is held was drawn, but not for the batch. -/
theorem runAll_distinct (client : Client) (calls : List AuditStep) :
    let audit := runAll calls { client }
    client.names.Draws (audit.log.map Draw.path) audit.client.names ∧
    (audit.log.length ≤ UInt64.size →
      (audit.log.map Draw.path).Nodup ∧ ∀ sent ∈ audit.sentBatches,
        (∀ text ∈ sent.operations.flatMap BatchOperation.binds, ∃ path, path.toString = text ∧
          (path ∈ sent.posted.flatMap Resource.held ∨
            { path, batch := some sent.number } ∈ audit.log)) ∧
        ((sent.posted.flatMap Resource.held).Nodup →
          (∀ path ∈ sent.posted.flatMap Resource.held,
            ∃ draw ∈ audit.log, draw.path = path ∧ draw.batch ≠ some sent.number) →
          (sent.operations.flatMap BatchOperation.binds).Nodup)) := by
  intro audit
  have hkept : audit.Kept client.names := (Kept.fresh client).runAll calls
  refine ⟨hkept.draws, fun hfew => ?_⟩
  have hnodup : (audit.log.map Draw.path).Nodup := hkept.draws.nodup (by simpa using hfew)
  refine ⟨hnodup, fun sent hmem => ⟨fun text htext => ?_, fun honce hdrawn => ?_⟩⟩
  · obtain ⟨kept, allotted, hheld, hallotted, hbinds⟩ := hkept.sentBatches sent hmem
    obtain ⟨path, hpath, rfl⟩ := List.mem_map.1 (hbinds.mem_iff.1 htext)
    refine ⟨path, rfl, (List.mem_append.1 hpath).imp (hheld.subset ·) fun hnew => ?_⟩
    exact mem_drawnFor_iff.1 (hallotted.subset hnew)
  · have hsublist : (audit.drawnFor sent.number).Sublist (audit.log.map Draw.path) :=
      List.filter_sublist.map _
    refine (hkept.sentBatches sent hmem).nodup
      (fun path hpath => hkept.isPlaceholder (hsublist.subset hpath)) honce
      (hnodup.sublist hsublist) fun path hpath => ?_
    obtain ⟨draw, hdraw, rfl, hother⟩ := hdrawn path hpath
    exact not_mem_drawnFor hnodup hdraw hother

def items : Client := { schema := { resources := [("item", { superTypes := [Known.item] })] } }

def item (path : Path) (firstVersion : Option Path) : Resource :=
  { contentType := "item", path, firstVersion }

/-- Two transactions lie open together, and a post fails that has drawn already. -/
theorem runAll_distinct_of_two :
    let calls : List AuditStep :=
      [.draw (.newResource "item"), .open, .open, .draw .nextName,
        .record 0 (.post (.real "/") (item (.placeholder 0) (some (.placeholder 1)))),
        .record 1 (.post (.real "/") (item (.real "/x/") none)),
        .record 0 (.post (.real "/") { contentType := "unknown", path := .real "/y/" }),
        .record 0 (.post (.placeholder 0) (item (.placeholder 2) none)), .commit 1, .commit 0]
    let audit := runAll calls { client := items }
    audit.log.length = 7 ∧
      audit.sentBatches.map (·.operations.flatMap BatchOperation.binds) =
        [["@3", "@4"], ["@0", "@1", "@2", "@6"]] ∧
      (audit.log.map Draw.path).Nodup ∧
      ∀ sent ∈ audit.sentBatches, (sent.operations.flatMap BatchOperation.binds).Nodup := by
  intro calls audit
  have hlength : audit.log.length = 7 := by decide +kernel
  have hheld : ∀ sent ∈ audit.sentBatches, (sent.posted.flatMap Resource.held).Nodup ∧
      ∀ path ∈ sent.posted.flatMap Resource.held,
        ∃ draw ∈ audit.log, draw.path = path ∧ draw.batch ≠ some sent.number := by
    decide +kernel
  obtain ⟨hnodup, hbatches⟩ := (runAll_distinct items calls).2 (hlength ▸ by decide)
  refine ⟨hlength, by decide +kernel, hnodup, fun sent hmem => ?_⟩
  exact (hbatches sent hmem).2 (hheld sent hmem).1 (hheld sent hmem).2

/-- What a post was given may be held by the next resource of the same batch. -/
theorem runAll_clashes :
    let audit := runAll
      [.open, .record 0 (.post (.real "/") (item (.real "/x/") none)),
        .record 0 (.post (.real "/") (item (.placeholder 0) none)), .commit 0]
      { client := items }
    audit.log.length < UInt64.size ∧ ∃ sent ∈ audit.sentBatches,
      (sent.posted.flatMap Resource.held).Nodup ∧
      (∀ path ∈ sent.posted.flatMap Resource.held, ∃ draw ∈ audit.log, draw.path = path) ∧
      ¬ (sent.operations.flatMap BatchOperation.binds).Nodup := by
  decide +kernel

end NameAudit

end ResourceClient

import ResourceClient.Proofs.Wire.Faults
import ResourceClient.Service.Transaction

/-!
What recording leaves behind. A call that succeeds adds one operation at the end, and the
placeholders that a post hands out are the ones that its operation asks the server to bind.
-/
namespace ResourceClient

namespace Names

def upcoming : Nat → Names → List Path
  | 0, _ => []
  | count + 1, names => names.draw.1 :: upcoming count names.draw.2

theorem upcoming_mono {count more : Nat} (h : count ≤ more) (names : Names) :
    names.upcoming count ⊆ names.upcoming more := by
  induction count generalizing more names with
  | zero => exact List.nil_subset _
  | succ count ih =>
    cases more with
    | zero => omega
    | succ more => exact List.cons_subset_cons _ (ih (Nat.le_of_succ_le_succ h) names.draw.2)

theorem upcoming_draw (count : Nat) (names : Names) :
    names.draw.2.upcoming count ⊆ names.upcoming (count + 1) := List.subset_cons_self _ _

end Names

/-- A placeholder that was held stands for itself; for anything else, a drawn one does. -/
inductive Stands (drawn : List Path) : Option Path → Path → Prop
  | kept (n : UInt64) : Stands drawn (some (.placeholder n)) (.placeholder n)
  | drawn {held : Option Path} {path : Path} (hheld : ∀ n, held ≠ some (.placeholder n))
      (hpath : path ∈ drawn) : Stands drawn held path

theorem Stands.mono {drawn more : List Path} {held : Option Path} {path : Path}
    (h : Stands drawn held path) (hmore : drawn ⊆ more) : Stands more held path := by
  cases h with
  | kept n => exact .kept n
  | drawn hheld hpath => exact .drawn hheld (hmore hpath)

/-- The operation posts the resource under the parent, and has the placeholders of the handle
bound. -/
structure Creates (c : Client) (drawn : List Path) (parent : Path) (resource : Resource)
    (handle : PostHandle) (o : BatchOperation) : Prop where
  method : o.method = .post
  target : o.target = Transaction.target c parent
  body : ∃ body, Wire.exportResource c.schema { creating := true } resource = .ok body ∧
    o.body = some body
  resultPath : o.resultPath = some handle.path.toString
  resultFirstVersion : o.resultFirstVersion = handle.firstVersion.map Path.toString
  path : Stands drawn (some resource.path) handle.path
  isSome_firstVersion : handle.firstVersion.isSome = c.schema.isItem resource.contentType
  firstVersion : ∀ first ∈ handle.firstVersion, Stands drawn resource.firstVersion first

variable {c d : Client} {drawn more : List Path} {parent : Path} {resource : Resource}
  {handle : PostHandle} {o : BatchOperation} {tx : Transaction}

theorem Creates.mono (h : Creates c drawn parent resource handle o) (hmore : drawn ⊆ more) :
    Creates c more parent resource handle o :=
  { h with
    path := h.path.mono hmore
    firstVersion := fun first hfirst => (h.firstVersion first hfirst).mono hmore }

theorem Creates.of_names {names : Names}
    (h : Creates { c with names } drawn parent resource handle o) :
    Creates c drawn parent resource handle o :=
  { h with target := h.target, body := h.body, isSome_firstVersion := h.isSome_firstVersion }

namespace Transaction

variable (schema : Schema) (held : Option Path) (names : Names)

theorem stands_keepOrDraw : Stands (names.upcoming 1) held (keepOrDraw held names).1 := by
  unfold keepOrDraw
  split
  · exact .kept _
  · next hheld => exact .drawn hheld List.mem_cons_self

theorem upcoming_keepOrDraw (count : Nat) :
    (keepOrDraw held names).2.upcoming count ⊆ names.upcoming (count + 1) := by
  unfold keepOrDraw
  split
  · exact names.upcoming_mono (by omega)
  · exact names.upcoming_draw count

theorem stands_postNames (resource : Resource) :
    let drawn := postNames schema resource names
    Stands (names.upcoming 2) (some resource.path) drawn.1.1 ∧
      drawn.1.2.isSome = schema.isItem resource.contentType ∧
      (∀ first ∈ drawn.1.2, Stands (names.upcoming 2) resource.firstVersion first) ∧
      ∀ count, drawn.2.upcoming count ⊆ names.upcoming (count + 2) := by
  intro drawn
  have hpath := stands_keepOrDraw (some resource.path) names
  have hnext := upcoming_keepOrDraw (some resource.path) names
  unfold drawn postNames
  generalize keepOrDraw (some resource.path) names = first at hpath hnext
  obtain ⟨path, rest⟩ := first
  cases hitem : schema.isItem resource.contentType with
  | false =>
    refine ⟨hpath.mono (names.upcoming_mono (by omega)), rfl, fun _ h => (nomatch h), ?_⟩
    exact fun count => List.Subset.trans (hnext count) (names.upcoming_mono (by omega))
  | true =>
    refine ⟨hpath.mono (names.upcoming_mono (by omega)), rfl, ?_, fun count => ?_⟩
    · rintro _ ⟨⟩
      exact (stands_keepOrDraw resource.firstVersion rest).mono (hnext 1)
    · have hrest := upcoming_keepOrDraw resource.firstVersion rest count
      exact List.Subset.trans hrest (hnext (count + 1))

theorem snd_post (tx : Transaction) (c : Client) :
    ∃ names, (tx.post parent resource c).2.2 = { c with names } ∧
      ∀ count, names.upcoming count ⊆ c.names.upcoming (count + 2) := by
  unfold post
  split
  · exact ⟨c.names, rfl, fun count => c.names.upcoming_mono (by omega)⟩
  · have hnames := (stands_postNames c.schema c.names resource).2.2.2
    dsimp only
    split <;> exact ⟨_, rfl, hnames⟩

theorem post_eq_ok (h : (tx.post parent resource c).1 = .ok handle) :
    handle.index = tx.operations.length ∧
      ∃ o, Creates c (c.names.upcoming 2) parent resource handle o ∧
        (tx.post parent resource c).2.1 = { tx with operations := tx.operations ++ [o] } := by
  unfold post at h ⊢
  split at h
  · cases h
  · next hopen =>
    rw [if_neg hopen]
    obtain ⟨hpath, hsome, hfirst, -⟩ := stands_postNames c.schema c.names resource
    dsimp only at h ⊢
    split at h
    · cases h
    · next body hbody =>
      obtain rfl := Except.ok.inj h
      refine ⟨rfl, _, ?_, rfl⟩
      exact {
        method := rfl
        target := rfl
        body := ⟨body, hbody, rfl⟩
        resultPath := rfl
        resultFirstVersion := rfl
        path := hpath
        isSome_firstVersion := hsome
        firstVersion := hfirst }

theorem post_eq_error {fault : Fault} (h : (tx.post parent resource c).1 = .error fault) :
    (tx.post parent resource c).2.1 = tx ∧
      (tx.committed = false →
        Wire.exportResource c.schema { creating := true } resource = .error fault) := by
  unfold post at h ⊢
  split at h
  · next hclosed =>
    rw [if_pos hclosed]
    exact ⟨rfl, fun hopen => by rw [hopen] at hclosed; cases hclosed⟩
  · next hopen =>
    rw [if_neg hopen]
    dsimp only at h ⊢
    split at h
    · next hexport =>
      obtain rfl := Except.error.inj h
      exact ⟨rfl, fun _ => hexport⟩
    · cases h

end Transaction

end ResourceClient

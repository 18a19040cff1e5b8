import Mathlib.Data.List.Nodup
import ResourceClient.Proofs.Client.Polls
import ResourceClient.Proofs.Service.DeepPosts

/-!
What is drawn from the supply of placeholders, and by which calls. Each call says what it draws
where its definition draws it, and the supply has moved on by just that, also when the call fails
later.
-/
namespace ResourceClient

namespace Names

/-- These are drawn, one after the other, and the later supply is what is left. -/
inductive Draws : Names → List Path → Names → Prop
  | nothing (names : Names) : Draws names [] names
  | next {names later : Names} {drawn : List Path} (h : Draws names.draw.2 drawn later) :
      Draws names (names.draw.1 :: drawn) later

namespace Draws

variable {names mid later : Names} {drawn more : List Path}

theorem one (names : Names) : Draws names [names.draw.1] names.draw.2 := .next (.nothing _)

theorem append (h : Draws names drawn mid) (h' : Draws mid more later) :
    Draws names (drawn ++ more) later := by
  induction h with
  | nothing => exact h'
  | next _ ih => exact .next (ih h')

theorem eq_upcoming (h : Draws names drawn later) : drawn = names.upcoming drawn.length := by
  induction h with
  | nothing => rfl
  | next _ ih => exact congrArg _ ih

end Draws

theorem upcoming_eq_map (count : Nat) (names : Names) :
    names.upcoming count =
      (List.range count).map fun k => .placeholder (names.next + UInt64.ofNat k) := by
  induction count generalizing names with
  | zero => rfl
  | succ count ih =>
    rw [upcoming, ih, List.range_succ_eq_map, List.map_cons, List.map_map]
    refine congrArg₂ List.cons ?_ (List.map_congr_left fun k _ => ?_)
    · simp [draw]
    · simp [draw, UInt64.ofNat_add, UInt64.add_comm, UInt64.add_assoc]

theorem nodup_upcoming {count : Nat} (h : count ≤ UInt64.size) (names : Names) :
    (names.upcoming count).Nodup := by
  rw [upcoming_eq_map]
  refine List.nodup_range.map_on fun k hk l hl heq => ?_
  have hsame : UInt64.ofNat k = UInt64.ofNat l := by simpa using heq
  have hk := Nat.lt_of_lt_of_le (List.mem_range.1 hk) h
  have hl := Nat.lt_of_lt_of_le (List.mem_range.1 hl) h
  rw [← UInt64.toNat_ofNat_of_lt' hk, ← UInt64.toNat_ofNat_of_lt' hl, hsame]

theorem Draws.nodup {names later : Names} {drawn : List Path} (h : Draws names drawn later)
    (hfew : drawn.length ≤ UInt64.size) : drawn.Nodup :=
  h.eq_upcoming ▸ names.nodup_upcoming hfew

end Names

namespace Wire

variable (schema : Schema)

/-- What an import draws: the first version of an item that names none. -/
def drawn (wire : Json) (names : Names) : List Path :=
  match readHead schema wire, present? wire "first_version_path" with
  | .ok head, none =>
    match (readFirstVersion schema head.contentType wire names).1 with
    | .ok first => first.toList
    | .error _ => []
  | _, _ => []

def drawnByAll (skips : Json → Bool) : List Json → Names → List Path
  | [], _ => []
  | wire :: rest, names =>
    if skips wire then drawnByAll skips rest names
    else
      drawn schema wire names ++
        match importResource schema wire names with
        | (.error _, _) => []
        | (.ok _, names) => drawnByAll skips rest names

def drawnByListing (wire : Json) (names : Names) : List Path :=
  drawn schema wire names ++
    match importResource schema wire names with
    | (.error _, _) => []
    | (.ok resource, names) =>
      drawnByAll schema Json.isString ((elements? resource).getD []) names

variable (wire : Json) (names : Names)

theorem draws_importResource :
    names.Draws (drawn schema wire names) (importResource schema wire names).2 := by
  unfold drawn importResource
  cases readHead schema wire with
  | error fault => exact .nothing names
  | ok head =>
    unfold readFirstVersion
    cases present? wire "first_version_path" with
    | some value => exact .nothing names
    | none =>
      dsimp only
      cases schema.isItem head.contentType with
      | false => exact .nothing names
      | true => exact .one names

variable {wire}

theorem importResource_of_not_isObject (h : wire.isObject = false) :
    importResource schema wire names = (.error (.importing (.notObject wire)), names) ∧
      drawn schema wire names = [] := by
  have hhead : readHead schema wire = .error (.importing (.notObject wire)) := by
    unfold readHead
    rw [h]
    rfl
  unfold importResource drawn
  rw [hhead]
  exact ⟨rfl, rfl⟩

theorem drawnByAll_of_not_isObject {skips : Json → Bool} (h : wire.isObject = false)
    (hskips : skips wire = false) (rest : List Json) :
    drawnByAll schema skips (wire :: rest) names = [] := by
  obtain ⟨himport, hdrawn⟩ := importResource_of_not_isObject schema names h
  rw [drawnByAll, hskips, himport, hdrawn]
  rfl

theorem draws_listElements (items : List Json) (listed : Listed) :
    listed.names.Draws (drawnByAll schema Json.isString items listed.names)
      (listElements schema items listed).2.names := by
  induction items generalizing listed with
  | nil => exact .nothing _
  | cons element rest ih =>
    cases element with
    | object fields =>
      have hdraws := draws_importResource schema (.object fields) listed.names
      rw [drawnByAll, listElements]
      rcases himport : importResource schema (.object fields) listed.names with
        ⟨fault | resource, names⟩
      · rw [himport] at hdraws
        simpa [Json.isString] using hdraws
      · rw [himport] at hdraws
        exact hdraws.append (ih ⟨_, _, names⟩)
    | string path => exact ih { listed with paths := listed.paths ++ [path] }
    | _ =>
      rw [drawnByAll_of_not_isObject schema listed.names rfl rfl]
      exact .nothing _

variable (wire) in
theorem draws_importListing (mode : ElementsMode) :
    names.Draws (drawnByListing schema wire names)
      (importListing schema mode wire names).names := by
  have hdraws := draws_importResource schema wire names
  unfold drawnByListing importListing
  rcases himport : importResource schema wire names with ⟨fault | resource, later⟩
  · rw [himport] at hdraws
    simpa using hdraws
  · rw [himport] at hdraws
    refine hdraws.append ?_
    dsimp only
    cases elements? resource with
    | none => exact .nothing later
    | some items =>
      have hlist := draws_listElements schema items { names := later }
      dsimp only [Option.getD_some]
      rcases hlisted : listElements schema items { names := later } with ⟨_ | fault, listed⟩
      · rw [hlisted] at hlist
        exact hlist
      · rw [hlisted] at hlist
        exact hlist

end Wire

namespace Client

variable (c : Client)

def drawnByImport (listing : Option ElementsMode) (wire : Json) : List Path :=
  match listing with
  | none => Wire.drawn c.schema wire c.names
  | some _ => Wire.drawnByListing c.schema wire c.names

theorem draws_importWire (listing : Option ElementsMode) (wire : Json) :
    c.names.Draws (c.drawnByImport listing wire) (c.importWire listing wire).2.names := by
  cases listing with
  | none => exact Wire.draws_importResource c.schema wire c.names
  | some mode =>
    have hdraws := Wire.draws_importListing c.schema wire c.names mode
    unfold importWire
    dsimp only
    rw [foldl_seed]
    exact hdraws

theorem draws_importBodies (bodies : List Json) (c : Client) :
    c.names.Draws (Wire.drawnByAll c.schema (fun _ => false) bodies c.names)
      (c.importBodies bodies).2.names := by
  induction bodies generalizing c with
  | nil => exact .nothing c.names
  | cons body rest ih =>
    have hdraws := c.draws_importWire none body
    rw [Wire.drawnByAll, importBodies]
    rcases himport : Wire.importResource c.schema body c.names with ⟨fault | resource, names⟩
    · simp only [importWire, drawnByImport, himport] at hdraws
      simpa [importWire, himport] using hdraws
    · simp only [importWire, drawnByImport, himport] at hdraws
      simp only [importWire, himport]
      exact hdraws.append (ih { c with names })

def drawnByNewResource (contentType : String) : List Path :=
  match (c.newResource contentType).1 with
  | .error _ => []
  | .ok resource => resource.path :: resource.firstVersion.toList

theorem draws_newResource (contentType : String) :
    c.names.Draws (c.drawnByNewResource contentType) (c.newResource contentType).2.names := by
  unfold drawnByNewResource newResource
  cases c.schema.knows contentType with
  | false => exact .nothing c.names
  | true =>
    have hschema : c.drawName.2.schema = c.schema := rfl
    simp only [hschema, Bool.not_true, Bool.false_eq_true, if_false]
    cases c.schema.isItem contentType with
    | false => exact .one c.names
    | true => exact .next (.one c.names.draw.2)

def drawnByRead (plan : Fetch) (answer : Except Fault Response) : List Path :=
  match answer.bind Response.successBody with
  | .error _ => []
  | .ok wire => c.drawnByImport plan.listing wire

theorem draws_absorb (plan : Fetch) (answer : Except Fault Response) :
    c.names.Draws (c.drawnByRead plan answer) (c.absorb plan answer).2.names := by
  unfold drawnByRead absorb
  cases answer.bind Response.successBody with
  | error fault => exact .nothing c.names
  | ok wire => exact c.draws_importWire plan.listing wire

def drawnByWrite (body : Json) : List Path :=
  match readReport body with
  | .error _ => []
  | .ok _ => c.drawnByImport none body

theorem draws_finishWrite (url : String) (body : Json) :
    c.names.Draws (c.drawnByWrite body) (c.finishWrite url body).2.names := by
  unfold drawnByWrite finishWrite
  cases readReport body with
  | error fault => exact .nothing c.names
  | ok report => exact (c.forgetTouched report _).draws_importWire none body

def drawnByBatch (operations : List BatchOperation) (response : Response) : List Path :=
  match batchResults operations.length response with
  | .error _ => []
  | .ok batch =>
    match batchReport batch with
    | .error _ => []
    | .ok _ =>
      Wire.drawnByAll c.schema (fun _ => false) (batch.results.map (·.body)) c.names

theorem draws_finishBatch (operations : List BatchOperation) (response : Response) :
    c.names.Draws (c.drawnByBatch operations response)
      (c.finishBatch operations response).2.names := by
  unfold drawnByBatch finishBatch
  cases batchResults operations.length response with
  | error fault => exact .nothing c.names
  | ok batch =>
    dsimp only
    cases batchReport batch with
    | error fault => exact .nothing c.names
    | ok report => exact draws_importBodies _ (c.forgetTouched report _)

end Client

/-- Whatever draws placeholders, but for recording. -/
inductive Demand where
  | nextName
  | newResource (contentType : String)
  | read (plan : Fetch) (answer : Except Fault Response)
  | write (url : String) (body : Json)
  | settle (operations : List BatchOperation) (response : Response)

namespace Demand

def meet : Demand → Client → Client
  | .nextName, c => c.drawName.2
  | .newResource contentType, c => (c.newResource contentType).2
  | .read plan answer, c => (c.absorb plan answer).2
  | .write url body, c => (c.finishWrite url body).2
  | .settle operations response, c => (c.finishBatch operations response).2

def drawn : Demand → Client → List Path
  | .nextName, c => [c.drawName.1]
  | .newResource contentType, c => c.drawnByNewResource contentType
  | .read plan answer, c => c.drawnByRead plan answer
  | .write _ body, c => c.drawnByWrite body
  | .settle operations response, c => c.drawnByBatch operations response

/-- The supply has moved on by what is drawn. -/
theorem draws (demand : Demand) (c : Client) :
    c.names.Draws (demand.drawn c) (demand.meet c).names := by
  cases demand with
  | nextName => exact .one c.names
  | newResource contentType => exact c.draws_newResource contentType
  | read plan answer => exact c.draws_absorb plan answer
  | write url body => exact c.draws_finishWrite url body
  | settle operations response => exact c.draws_finishBatch operations response

end Demand

end ResourceClient

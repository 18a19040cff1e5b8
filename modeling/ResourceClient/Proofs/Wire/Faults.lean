import ResourceClient.Wire.Export
import ResourceClient.Wire.Import

namespace ResourceClient

theorem exists_of_map_eq_ok {f : α → β} {x : Except Fault α} {b : β} (h : x.map f = .ok b) :
    ∃ a, x = .ok a ∧ f a = b := by
  cases x with
  | error fault => cases h
  | ok a => exact ⟨a, rfl, Except.ok.inj h⟩

theorem eq_error_of_map_eq_error {f : α → β} {x : Except Fault α} {fault : Fault}
    (h : x.map f = .error fault) : x = .error fault := by
  cases x with
  | error cause => exact congrArg _ (Except.error.inj h)
  | ok a => cases h

/-- Whatever goes wrong is of the kind `p`. -/
def FailsOnly (p : Fault → Prop) (x : Except Fault α) : Prop := ∀ fault, x = .error fault → p fault

namespace FailsOnly

variable {α β : Type} {p : Fault → Prop}

theorem ok (value : α) : FailsOnly p (.ok value) := fun _ h => nomatch h

theorem error (fault : Fault) (h : p fault) : FailsOnly p (.error fault : Except Fault α) := by
  rintro _ ⟨⟩
  exact h

theorem imp {q : Fault → Prop} {x : Except Fault α} (hx : FailsOnly p x)
    (h : ∀ fault, p fault → q fault) : FailsOnly q x :=
  fun fault hfault => h fault (hx fault hfault)

theorem bind {x : Except Fault α} {k : α → Except Fault β} (hx : FailsOnly p x)
    (hk : ∀ value, FailsOnly p (k value)) : FailsOnly p (x >>= k) := by
  cases x with
  | error fault => exact error fault (hx fault rfl)
  | ok value => exact hk value

theorem map {x : Except Fault α} (f : α → β) (hx : FailsOnly p x) : FailsOnly p (x.map f) := by
  cases x with
  | error fault => exact error fault (hx fault rfl)
  | ok value => exact ok _

theorem mapM {f : α → Except Fault β} (h : ∀ value, FailsOnly p (f value)) (values : List α) :
    FailsOnly p (values.mapM f) := by
  induction values with
  | nil => exact ok _
  | cons value rest ih =>
    rw [List.mapM_cons]
    exact bind (h value) fun _ => bind ih fun _ => ok _

theorem forM {f : α → Except Fault Unit} (h : ∀ value, FailsOnly p (f value)) (values : List α) :
    FailsOnly p (values.forM f) := by
  induction values with
  | nil => exact ok _
  | cons value rest ih => exact bind (h value) fun _ => ih

end FailsOnly

namespace Wire

def importKind : Fault → Prop
  | .importing .missingResult => False
  | .importing _ => True
  | _ => False

def exportKind : Fault → Prop
  | .exporting _ => True
  | _ => False

variable {schema : Schema} {names : Names} {wire : Json}

theorem failsOnly_readPath (what : String) (value : Json) :
    FailsOnly importKind (readPath what value) := by
  unfold readPath
  split
  · exact .error _ trivial
  · split
    · exact .ok _
    · exact .error _ trivial

theorem failsOnly_readSheet (entry : String × Json) :
    FailsOnly importKind (readSheet schema entry) := by
  unfold readSheet
  split
  · refine .bind (.forM (fun field => ?_) _) fun _ => .ok _
    unfold checkField
    split
    · exact .error _ trivial
    · exact .ok _
  · exact .error _ trivial

theorem failsOnly_readData (value : Option Json) :
    FailsOnly importKind (readData schema value) := by
  unfold readData
  split
  · exact .ok _
  · exact .ok _
  · exact .mapM failsOnly_readSheet _
  · exact .error _ trivial

theorem failsOnly_readHead : FailsOnly importKind (readHead schema wire) := by
  unfold readHead
  cases wire.isObject with
  | false => exact .error (.importing (.notObject wire)) trivial
  | true =>
    cases wire.stringField? "content_type" with
    | none => exact .error (.importing .noContentType) trivial
    | some contentType =>
      dsimp only
      cases schema.knows contentType with
      | false => exact .error (.importing (.unknownType contentType)) trivial
      | true =>
        cases wire.field? "path" with
        | none => exact .error (.importing .noPath) trivial
        | some path =>
          refine .bind (failsOnly_readPath _ path) fun _ => ?_
          exact .bind (failsOnly_readData _) fun _ => .ok _

theorem failsOnly_readTail (head : Resource) : FailsOnly importKind (readTail wire head) := by
  unfold readTail
  refine .bind ?_ fun _ => .bind ?_ fun _ => .ok _
  · unfold readRootVersions
    split
    · exact .mapM (failsOnly_readPath _) _
    · exact .ok _
  · unfold readReport
    split
    · exact .ok _
    · split
      · exact .ok _
      · exact .error _ trivial

theorem failsOnly_readFirstVersion (contentType : String) :
    FailsOnly importKind (readFirstVersion schema contentType wire names).1 := by
  unfold readFirstVersion
  split
  · exact .map _ (failsOnly_readPath _ _)
  · split <;> exact .ok _

theorem fst_importResource :
    (importResource schema wire names).1 = readHead schema wire >>= fun head =>
      (readFirstVersion schema head.contentType wire names).1 >>= fun firstVersion =>
        readTail wire { head with firstVersion } := by
  unfold importResource
  cases readHead schema wire <;> rfl

theorem failsOnly_importResource : FailsOnly importKind (importResource schema wire names).1 := by
  rw [fst_importResource]
  refine .bind failsOnly_readHead fun head => ?_
  exact .bind (failsOnly_readFirstVersion _) fun _ => failsOnly_readTail _

theorem failsOnly_exportSheet (options : ExportOptions) (entry : String × Sheet) :
    FailsOnly exportKind (exportSheet schema options entry) := by
  unfold exportSheet
  split
  · exact .ok _
  · dsimp only
    split
    · exact .error _ trivial
    · exact .ok _

theorem failsOnly_exportResource (options : ExportOptions) (r : Resource) :
    FailsOnly exportKind (exportResource schema options r) := by
  unfold exportResource
  cases schema.knows r.contentType with
  | false => exact .error (.exporting (.unknownType r.contentType)) trivial
  | true => exact .bind (.mapM (failsOnly_exportSheet options) _) fun _ => .ok _

private def unversioned (r : Resource) : Resource := { r with firstVersion := none }

private theorem unversioned_readTail (head : Resource) (first second : Option Path) :
    (readTail wire { head with firstVersion := first }).map unversioned =
      (readTail wire { head with firstVersion := second }).map unversioned := by
  unfold readTail
  cases readRootVersions wire with
  | error fault => rfl
  | ok rootVersions => cases readReport wire <;> rfl

private theorem unversioned_importResource (names other : Names) :
    (importResource schema wire names).1.map unversioned =
      (importResource schema wire other).1.map unversioned := by
  rw [fst_importResource, fst_importResource]
  cases readHead schema wire with
  | error fault => rfl
  | ok head =>
    change
      ((readFirstVersion schema head.contentType wire names).1 >>= _ :
        Except Fault Resource).map _ =
      ((readFirstVersion schema head.contentType wire other).1 >>= _ :
        Except Fault Resource).map _
    unfold readFirstVersion
    split
    · rfl
    · split
      · exact unversioned_readTail head _ _
      · rfl

/-- The same is imported whatever names were drawn before, but for the first version. -/
theorem importResource_of_names {r : Resource} (h : (importResource schema wire names).1 = .ok r)
    (other : Names) :
    ∃ first, (importResource schema wire other).1 = .ok { r with firstVersion := first } := by
  have hsame : (importResource schema wire names).1.map unversioned =
      (importResource schema wire other).1.map unversioned := unversioned_importResource names other
  rw [h] at hsame
  cases hother : (importResource schema wire other).1 with
  | error fault =>
    rw [hother] at hsame
    cases hsame
  | ok s =>
    rw [hother] at hsame
    obtain ⟨_, _, _, first, _, _, _⟩ := s
    refine ⟨first, ?_⟩
    obtain ⟨_, _, _, _, _, _, _⟩ := r
    injection hsame with hsame
    injection hsame
    simp_all

end Wire

end ResourceClient

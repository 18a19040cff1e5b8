import ResourceClient.Json.Record

namespace ResourceClient

structure Report where
  changedDescendants : List String := []
  created : List String := []
  modified : List String := []
  removed : List String := []
  deriving DecidableEq, Inhabited, Repr

namespace Report

def ofDraft? (d : Draft) : Option Report := do
  let [changed, created, modified, removed] ←
    d.fields? ["changed_descendants", "created", "modified", "removed"] | none
  let read := Draft.orDefault [] Draft.texts?
  return ⟨← read changed, ← read created, ← read modified, ← read removed⟩

def ofJson? (value : Json) : Option Report := ofDraft? value.toDraft

def isEmpty (r : Report) : Bool :=
  r.changedDescendants.isEmpty && r.created.isEmpty && r.modified.isEmpty && r.removed.isEmpty

def extend (r s : Report) : Report :=
  { changedDescendants := r.changedDescendants ++ s.changedDescendants
    created := r.created ++ s.created
    modified := r.modified ++ s.modified
    removed := r.removed ++ s.removed }

def map (f : String → String) (r : Report) : Report :=
  { changedDescendants := r.changedDescendants.map f
    created := r.created.map f
    modified := r.modified.map f
    removed := r.removed.map f }

theorem extend_empty (r : Report) : r.extend {} = r := by simp [extend]

theorem extend_assoc (r s t : Report) : (r.extend s).extend t = r.extend (s.extend t) := by
  simp [extend]

theorem map_extend (f : String → String) (r s : Report) :
    (r.extend s).map f = (r.map f).extend (s.map f) := by simp [map, extend]

end Report

end ResourceClient

import ResourceClient.Fault
import ResourceClient.Resource

/-!
The order in which interdependent new resources are posted: each time the first resource in the list
that depends on nothing still waiting. For each it is counted down how many others it waits for.
-/
namespace ResourceClient.PostingOrder

def adjoin (i : Nat) : List Nat → List Nat
  | [] => [i]
  | j :: rest =>
    if i < j then i :: j :: rest else if i = j then j :: rest else j :: adjoin i rest

/-- The last resource that an address names, by its path or by its first version. -/
def byAddress (resources : List Resource) : Table Nat :=
  resources.zipIdx.foldl
    (fun table (r, i) =>
      (r.path :: r.firstVersion.toList).foldl
        (fun table path => Table.insert path.toString i table) table)
    []

/-- References to oneself do not count. -/
def dependencies (schema : Schema) (resources : List Resource) : List (List Nat) :=
  let table := byAddress resources
  resources.zipIdx.map fun (r, i) =>
    (((r.references schema).filterMap (Table.get? table)).filter (· ≠ i)).foldl
      (fun found j => adjoin j found) []

def dependents (deps : List (List Nat)) : List (List Nat) :=
  deps.zipIdx.foldl
    (fun found (js, i) => js.foldl (fun found j => found.modify j (adjoin i)) found)
    (List.replicate deps.length [])

structure Sorting where
  inDegree : List Nat
  ready : List Nat
  placed : List Nat := []

namespace Sorting

def degree (s : Sorting) (i : Nat) : Nat := (s.inDegree[i]?).getD 0

def countDown (s : Sorting) (i : Nat) : Sorting :=
  let left := s.degree i - 1
  { s with
    inDegree := s.inDegree.set i left
    ready := if left = 0 then adjoin i s.ready else s.ready }

/-- Each resource is placed at most once, so there are no more rounds than resources. -/
def run (waiting : List (List Nat)) : Nat → Sorting → Sorting
  | 0, s => s
  | rounds + 1, s =>
    match s.ready with
    | [] => s
    | i :: rest =>
      run waiting rounds
        (((waiting[i]?).getD []).foldl countDown
          { s with ready := rest, placed := s.placed ++ [i] })

end Sorting

def sorting (deps : List (List Nat)) : Sorting :=
  let start : Sorting := { inDegree := deps.map List.length, ready := [] }
  { start with ready := (List.range deps.length).filter fun i => start.degree i = 0 }.run
    (dependents deps) deps.length

def order (schema : Schema) (resources : List Resource) : Except Fault (List Nat) :=
  let sorted := sorting (dependencies schema resources)
  if sorted.placed.length < resources.length then
    .error (.cyclic ((resources.zipIdx.filter fun (_, i) => 0 < sorted.degree i).map
      fun (r, _) => r.path.toString))
  else .ok sorted.placed

end ResourceClient.PostingOrder

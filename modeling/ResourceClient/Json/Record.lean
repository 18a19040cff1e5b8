import ResourceClient.Json.Draft

/-!
Records read from text. A record is an object, in which each of its fields stands at most once and
other fields are skipped unread, or the array of its fields in declaration order, which may stop
early. A field that is `none` is missing; only a default helps then.
-/
namespace ResourceClient.Draft

def pick? (fields : List (Option String × Draft)) (name : String) : Option (Option Draft) :=
  match fields.filter (·.1 = some name) with
  | [] => some none
  | [(_, d)] => some (some d)
  | _ => none

def fields? (names : List String) : Draft → Option (List (Option Draft))
  | .object fields => if fields.all (·.1.isSome) then names.mapM (pick? fields) else none
  | .array items =>
    if items.length ≤ names.length then
      some (items.map some ++ List.replicate (names.length - items.length) none)
    else none
  | _ => none

def required (read : Draft → Option α) (field : Option Draft) : Option α := field.bind read

def orDefault (fallback : α) (read : Draft → Option α) : Option Draft → Option α
  | none => some fallback
  | some d => read d

def text? : Draft → Option String
  | .string s => s
  | _ => none

def flag? : Draft → Option Bool
  | .bool b => some b
  | _ => none

def isNull : Draft → Bool
  | .null => true
  | _ => false

/-- A whole number below `limit`; `1.0` is none. -/
def nat? (limit : Nat) : Draft → Option Nat
  | .number (some (.int n)) => if 0 ≤ n ∧ n.toNat < limit then some n.toNat else none
  | _ => none

def float? : Draft → Option Binary64
  | .number (some (.int n)) => some (Binary64.ofInt n)
  | .number (some (.float x)) => some x
  | _ => none

def list? (read : Draft → Option α) : Draft → Option (List α)
  | .array items => items.mapM read
  | _ => none

def optional? (read : Draft → Option α) : Draft → Option (Option α)
  | .null => some none
  | d => (read d).map some

def table? (read : Draft → Option α) : Draft → Option (Table α)
  | .object fields => do
    let pairs ← fields.mapM fun (key, d) => do return (← key, ← read d)
    return Table.ofPairs pairs
  | _ => none

def texts? : Draft → Option (List String) := list? text?

end ResourceClient.Draft

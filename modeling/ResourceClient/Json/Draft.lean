import ResourceClient.Json

/-!
Text that is well formed but not yet checked. A reader that skips a field never looks at its numbers
and strings, so their faults are kept as `none` until somebody asks for the value; repeated keys are
kept too, since a record refuses what a free value settles by the last one.
-/
namespace ResourceClient

inductive Draft where
  | null
  | bool (value : Bool)
  | number (value : Option Number)
  | string (value : Option String)
  | array (items : List Draft)
  | object (fields : List (Option String × Draft))
  deriving Inhabited

namespace Draft

mutual

/-- The checked value, if nothing is faulty and nothing is nested deeper than `depth`. -/
def value? (depth : Nat) : Draft → Option Json
  | .null => some .null
  | .bool b => some (.bool b)
  | .number n => n.map .number
  | .string s => s.map .string
  | .array items =>
    match depth with
    | 0 => none
    | depth + 1 => (values? depth items).map .array
  | .object fields =>
    match depth with
    | 0 => none
    | depth + 1 => (fieldValues? depth fields).map fun pairs => .object (Table.ofPairs pairs)

def values? (depth : Nat) : List Draft → Option (List Json)
  | [] => some []
  | d :: rest => do return (← value? depth d) :: (← values? depth rest)

def fieldValues? (depth : Nat) : List (Option String × Draft) → Option (List (String × Json))
  | [] => some []
  | (key, d) :: rest => do return (← key, ← value? depth d) :: (← fieldValues? depth rest)

end

def depthLimit : Nat := 127

end Draft

namespace Json

mutual

def toDraft : Json → Draft
  | .null => .null
  | .bool b => .bool b
  | .number n => .number (some n)
  | .string s => .string (some s)
  | .array items => .array (draftItems items)
  | .object fields => .object (draftFields fields)

def draftItems : List Json → List Draft
  | [] => []
  | v :: rest => toDraft v :: draftItems rest

def draftFields : List (String × Json) → List (Option String × Draft)
  | [] => []
  | (key, v) :: rest => (some key, toDraft v) :: draftFields rest

end

end Json

end ResourceClient

import ResourceClient.Binary64
import ResourceClient.Table

/-!
JSON values. Whole numbers and floats are different values (`1` is not `1.0`), and the fields of an
object made by reading are in key order.
-/
namespace ResourceClient

inductive Number where
  | int (value : Int)
  | float (value : Binary64)
  deriving DecidableEq, Inhabited, Repr

inductive Json where
  | null
  | bool (value : Bool)
  | number (value : Number)
  | string (value : String)
  | array (items : List Json)
  | object (fields : List (String × Json))
  deriving Inhabited

namespace Json

def field? (value : Json) (key : String) : Option Json :=
  match value with
  | .object fields => Table.get? fields key
  | _ => none

/-- The fields of a record by name, or by place in an array that may stop early. -/
def record? (names : List String) : Json → Option (List (Option Json))
  | .object fields => some (names.map (Table.get? fields))
  | .array items =>
    if items.length ≤ names.length then
      some (items.map some ++ List.replicate (names.length - items.length) none)
    else none
  | _ => none

def string? : Json → Option String
  | .string s => some s
  | _ => none

def isNull : Json → Bool
  | .null => true
  | _ => false

def isString : Json → Bool
  | .string _ => true
  | _ => false

def isObject : Json → Bool
  | .object _ => true
  | _ => false

def stringField? (value : Json) (key : String) : Option String := (value.field? key).bind string?

end Json

end ResourceClient

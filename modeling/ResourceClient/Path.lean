import ResourceClient.Json

/-!
A path is assigned by the server or is a placeholder, written `@n`, for a resource that does not
exist yet. Strings that start with the sentinel are read as placeholders only.
-/
namespace ResourceClient

inductive Path where
  | real (address : String)
  | placeholder (number : UInt64)
  deriving DecidableEq, Inhabited, Repr

namespace Path

def sentinel : Char := '@'

def dropPlus : List Char → List Char
  | '+' :: digits => digits
  | digits => digits

/-- A decimal below `2 ^ 64`, with an optional plus sign and any number of leading zeros. -/
def readNumber? (text : List Char) : Option UInt64 :=
  let digits := dropPlus text
  let n := Nat.ofDigitChars 10 digits 0
  if digits ≠ [] ∧ digits.all Char.isDigit ∧ n < UInt64.size then some (UInt64.ofNat n) else none

def parse? (s : String) : Option Path :=
  match s.toList with
  | [] => none
  | '@' :: digits => (readNumber? digits).map .placeholder
  | _ => some (.real s)

/-- Malformed placeholders count as server paths. -/
def ofString (s : String) : Path := (parse? s).getD (.real s)

def toString : Path → String
  | .real address => address
  | .placeholder n => .ofList (sentinel :: Nat.toDigits 10 n.toNat)

instance : ToString Path := ⟨toString⟩

@[simp] theorem toString_real (address : String) : (real address).toString = address := rfl

theorem dropPlus_toDigits (n : Nat) : dropPlus (Nat.toDigits 10 n) = Nat.toDigits 10 n := by
  unfold dropPlus
  split
  · next digits h =>
    have hdigit : '+'.isDigit = true :=
      Nat.isDigit_of_mem_toDigits (by decide) (by decide) (h ▸ List.mem_cons_self)
    exact absurd hdigit (by decide)
  · rfl

theorem readNumber?_toDigits (n : UInt64) : readNumber? (Nat.toDigits 10 n.toNat) = some n := by
  have hdigit : ∀ c ∈ Nat.toDigits 10 n.toNat, c.isDigit = true :=
    fun c hc => Nat.isDigit_of_mem_toDigits (by decide) (by decide) hc
  unfold readNumber?
  rw [dropPlus_toDigits, if_pos]
  · simp
  · exact ⟨Nat.toDigits_ne_nil, List.all_eq_true.2 hdigit, by simpa using n.toNat_lt⟩

theorem parse?_toString_placeholder (n : UInt64) :
    parse? (placeholder n).toString = some (placeholder n) := by
  simp [parse?, toString, sentinel, readNumber?_toDigits]

def isPlaceholder : Path → Bool
  | .real _ => false
  | .placeholder _ => true

def real? : Path → Option String
  | .real address => some address
  | .placeholder _ => none

def toJson (p : Path) : Json := .string p.toString

def ofJson? (value : Json) : Option Path := value.string?.bind parse?

/-- Server paths by code point, then placeholders by number. -/
def le : Path → Path → Bool
  | .real a, .real b => a ≤ b
  | .real _, .placeholder _ => true
  | .placeholder _, .real _ => false
  | .placeholder a, .placeholder b => a ≤ b

end Path

/-- Whether an address is written with the sentinel, well formed or not. -/
def startsWithSentinel (address : String) : Bool := address.toList.head? = some Path.sentinel

structure Names where
  next : UInt64 := 0
  deriving DecidableEq, Inhabited, Repr

def Names.draw (names : Names) : Path × Names := (.placeholder names.next, ⟨names.next + 1⟩)

end ResourceClient

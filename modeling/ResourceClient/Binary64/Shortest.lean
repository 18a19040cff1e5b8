import ResourceClient.Binary64

/-!
The shortest decimal of a double: of all decimals that read back as the number, one with the fewest
digits, and of those the nearest. Grids of one, two, … digits are tried in turn; on each only the
two neighbours of the number can be the nearest hit. Which of two equally near neighbours is written
depends on where the number appears, so that choice is part of the layout.
-/
namespace ResourceClient.Binary64

/-- `digits * 10 ^ exponent`. -/
structure Decimal where
  digits : Nat
  exponent : Int
  deriving DecidableEq, Repr

/-- The decimals that read back: `low`, `middle` and `high` over a common denominator. -/
structure Basin where
  low : Nat
  middle : Nat
  high : Nat
  denominator : Nat
  closed : Bool

/-- Half the distance to either neighbour belongs to the number, the ends only if it is even. -/
def basin (x : Binary64) : Basin :=
  let quarter := Nat.pow 2 (x.exponent - 2).toNat
  let m := 4 * x.significand
  { low := (m - if x.startsBinade then 1 else 2) * quarter
    middle := m * quarter
    high := (m + 2) * quarter
    denominator := Nat.pow 2 (2 - x.exponent).toNat
    closed := x.significand % 2 = 0 }

def Basin.holds (b : Basin) (d : Decimal) : Bool :=
  let lift (n : Nat) := n * Nat.pow 10 (-d.exponent).toNat
  let value := d.digits * Nat.pow 10 d.exponent.toNat * b.denominator
  if b.closed then lift b.low ≤ value && value ≤ lift b.high
  else lift b.low < value && value < lift b.high

/-- The neighbour that a number midway between two takes: the even one, or the one further from
zero. -/
inductive Midway where
  | even
  | outward
  deriving DecidableEq, Repr

def Midway.takesLower : Midway → Decimal → Bool
  | .even, lower => lower.digits % 2 = 0
  | .outward, _ => false

def Basin.onGrid? (b : Basin) (midway : Midway) (exponent : Int) : Option Decimal :=
  let numerator := b.middle * Nat.pow 10 (-exponent).toNat
  let step := b.denominator * Nat.pow 10 exponent.toNat
  let below : Decimal := ⟨numerator / step, exponent⟩
  let above : Decimal := ⟨numerator / step + 1, exponent⟩
  let twice := 2 * (numerator % step)
  match b.holds below, b.holds above with
  | true, true =>
    some (if twice < step ∨ (twice = step ∧ midway.takesLower below) then below else above)
  | true, false => some below
  | false, true => some above
  | false, false => none

/-- The count of digits before the point, negative for zeros after it. -/
def Basin.magnitude (b : Basin) : Int :=
  if b.denominator ≤ b.middle then (Nat.toDigits 10 (b.middle / b.denominator)).length
  else
    match (List.range 400).find? fun j => b.denominator ≤ b.middle * Nat.pow 10 (j + 1) with
    | some j => -(j : Int)
    | none => -400

def Decimal.trim : Nat → Decimal → Decimal
  | 0, d => d
  | fuel + 1, d =>
    if d.digits % 10 = 0 ∧ d.digits ≠ 0 then trim fuel ⟨d.digits / 10, d.exponent + 1⟩ else d

/-- Seventeen digits always suffice. -/
def shortest (midway : Midway) (x : Binary64) : Decimal :=
  let b := x.basin
  let top := b.magnitude
  match (List.range 17).findSome? fun (n : Nat) => b.onGrid? midway (top - 1 - n) with
  | some d => d.trim 20
  | none => ⟨0, 0⟩

/-- Which numbers are written without an exponent, by the position of their point, whether a whole
number keeps a zero after it, and which of two equally near decimals is taken. -/
structure Layout where
  positional : Int → Bool
  wholePoint : Bool
  midway : Midway

/-- Numbers in data: positional from `0.00001` to below `10 ^ 16`. -/
def dataLayout : Layout := ⟨fun point => -5 < point && point ≤ 16, true, .even⟩

/-- Numbers in messages: never an exponent. -/
def plainLayout : Layout := ⟨fun _ => true, false, .outward⟩

private def zeros (n : Int) : List Char := List.replicate n.toNat '0'

def Layout.magnitudeChars (layout : Layout) (d : Decimal) : List Char :=
  let digits := Nat.toDigits 10 d.digits
  let point : Int := digits.length + d.exponent
  if d.digits = 0 then (if layout.wholePoint then ['0', '.', '0'] else ['0'])
  else if layout.positional point then
    if 0 ≤ d.exponent then
      digits ++ zeros d.exponent ++ (if layout.wholePoint then ['.', '0'] else [])
    else if 0 < point then
      digits.take point.toNat ++ '.' :: digits.drop point.toNat
    else '0' :: '.' :: zeros (-point) ++ digits
  else
    let power := point - 1
    digits.take 1 ++ (if digits.length > 1 then '.' :: digits.drop 1 else []) ++
      'e' :: (if power < 0 then '-' else '+') :: Nat.toDigits 10 power.natAbs

def render (layout : Layout) (x : Binary64) : String :=
  let magnitude := layout.magnitudeChars (if x.isZero then ⟨0, 0⟩ else x.shortest layout.midway)
  .ofList (if x.isNegative then '-' :: magnitude else magnitude)

end ResourceClient.Binary64

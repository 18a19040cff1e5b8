import ResourceClient.Json.Draft

/-!
Reading of strict JSON bytes. Every step takes at least one byte, so twice the length of the text
bounds the nested calls. Number text is converted as the digits come: at most the digits that fit
into 64 bits count, and one multiplication or division by a power of ten places the point.
-/
namespace ResourceClient.Json.Reader

abbrev Bytes := List UInt8

def isDigit (b : UInt8) : Bool := 0x30 ≤ b ∧ b ≤ 0x39

def isBlank (b : UInt8) : Bool := b = 0x20 ∨ b = 0x09 ∨ b = 0x0A ∨ b = 0x0D

def skipBlank (s : Bytes) : Bytes := s.dropWhile isBlank

def digitValue (b : UInt8) : Nat := b.toNat - 0x30

def natOf (digits : Bytes) : Nat := digits.foldl (fun n b => n * 10 + digitValue b) 0

def takeFitting (n : Nat) : Bytes → Nat × Bytes
  | [] => (n, [])
  | b :: rest =>
    if n * 10 + digitValue b < UInt64.size then takeFitting (n * 10 + digitValue b) rest
    else (n, b :: rest)

def powerOfTen (n : Nat) : Float := Float.ofScientific 1 false n

def scale? (x : Float) (exponent : Int) : Option Float :=
  if exponent.natAbs ≤ 308 then
    if 0 ≤ exponent then
      let y := x * powerOfTen exponent.natAbs
      if y.isInf then none else some y
    else some (x / powerOfTen exponent.natAbs)
  else if x == 0 then some x
  else if 0 ≤ exponent then none
  else scale? (x / powerOfTen 308) (exponent + 308)
  termination_by exponent.natAbs
  decreasing_by omega

structure NumberText where
  negative : Bool
  whole : Bytes
  fraction : Option Bytes
  exponent : Option Int

def NumberText.float? (t : NumberText) : Option Binary64 :=
  let (n, uncounted) := takeFitting 0 t.whole
  let (n, late) := takeFitting n (t.fraction.getD [])
  let counted := (t.fraction.getD []).length - late.length
  let exponent : Int := uncounted.length - counted + t.exponent.getD 0
  (scale? (UInt64.ofNat n).toFloat exponent).map fun x =>
    if t.negative then (Binary64.ofFloat x).negate else Binary64.ofFloat x

/-- Whole numbers that fit into 64 bits, signed or unsigned, are kept; `-0` is a float. -/
def NumberText.value? (t : NumberText) : Option Number :=
  let whole? : Option Int :=
    match t.fraction, t.exponent with
    | none, none =>
      let n := natOf t.whole
      if t.negative then
        if 0 < n ∧ 2 * n ≤ UInt64.size then some (-(n : Int)) else none
      else if n < UInt64.size then some n else none
    | _, _ => none
  match whole? with
  | some n => some (.int n)
  | none => t.float?.map .float

def digits? (s : Bytes) : Option (Bytes × Bytes) :=
  match s.takeWhile isDigit with
  | [] => none
  | ds => some (ds, s.dropWhile isDigit)

def fraction? : Bytes → Option (Option Bytes × Bytes)
  | 0x2E :: rest => (digits? rest).map fun (ds, rest) => (some ds, rest)
  | s => some (none, s)

def exponent? : Bytes → Option (Option Int × Bytes)
  | [] => some (none, [])
  | b :: rest =>
    if b = 0x65 ∨ b = 0x45 then
      let (negative, rest) := match rest with
        | 0x2B :: rest => (false, rest)
        | 0x2D :: rest => (true, rest)
        | rest => (false, rest)
      (digits? rest).map fun (ds, rest) =>
        (some (if negative then -(natOf ds : Int) else natOf ds), rest)
    else some (none, b :: rest)

def number? (negative : Bool) (s : Bytes) : Option (Draft × Bytes) := do
  let (whole, s) ← digits? s
  if whole.length > 1 ∧ whole.head? = some 0x30 then none
  let (fraction, s) ← fraction? s
  let (exponent, s) ← exponent? s
  return (.number (NumberText.mk negative whole fraction exponent).value?, s)

def hexValue? (b : UInt8) : Option Nat :=
  if isDigit b then some (b.toNat - 0x30)
  else if 0x41 ≤ b ∧ b ≤ 0x46 then some (b.toNat - 0x37)
  else if 0x61 ≤ b ∧ b ≤ 0x66 then some (b.toNat - 0x57)
  else none

inductive Piece where
  | byte (value : UInt8)
  | unit (value : Nat)

def simpleEscape? (b : UInt8) : Option UInt8 :=
  if b = 0x22 ∨ b = 0x5C ∨ b = 0x2F then some b
  else if b = 0x62 then some 0x08
  else if b = 0x66 then some 0x0C
  else if b = 0x6E then some 0x0A
  else if b = 0x72 then some 0x0D
  else if b = 0x74 then some 0x09
  else none

def pieces? : Bytes → Option (List Piece × Bytes)
  | [] => none
  | 0x22 :: rest => some ([], rest)
  | 0x5C :: 0x75 :: a :: b :: c :: d :: rest => do
    let unit := (((← hexValue? a) * 16 + (← hexValue? b)) * 16 + (← hexValue? c)) * 16 +
      (← hexValue? d)
    let (ps, rest) ← pieces? rest
    return (.unit unit :: ps, rest)
  | 0x5C :: b :: rest => do
    let escaped ← simpleEscape? b
    let (ps, rest) ← pieces? rest
    return (.byte escaped :: ps, rest)
  | b :: rest =>
    if b < 0x20 then none
    else do
      let (ps, rest) ← pieces? rest
      return (.byte b :: ps, rest)

def charBytes (n : Nat) : Bytes := String.utf8EncodeChar (Char.ofNat n)

/-- A unit of a surrogate pair must stand next to its partner. -/
def pieceBytes? : List Piece → Option Bytes
  | [] => some []
  | .byte b :: rest => (pieceBytes? rest).map (b :: ·)
  | .unit u :: rest =>
    if 0xDC00 ≤ u ∧ u < 0xE000 then none
    else if 0xD800 ≤ u ∧ u < 0xDC00 then
      match rest with
      | .unit v :: rest =>
        if 0xDC00 ≤ v ∧ v < 0xE000 then
          (pieceBytes? rest).map
            (charBytes (0x10000 + (u - 0xD800) * 0x400 + (v - 0xDC00)) ++ ·)
        else none
      | _ => none
    else (pieceBytes? rest).map (charBytes u ++ ·)

end Reader

def textOf? (bytes : List UInt8) : Option String := String.fromUTF8? ⟨bytes.toArray⟩

namespace Reader

def string? (s : Bytes) : Option (Option String × Bytes) := do
  let (ps, rest) ← pieces? s
  return ((pieceBytes? ps).bind textOf?, rest)

mutual

def value? : Nat → Bytes → Option (Draft × Bytes)
  | 0, _ => none
  | fuel + 1, s =>
    match skipBlank s with
    | 0x6E :: 0x75 :: 0x6C :: 0x6C :: rest => some (.null, rest)
    | 0x74 :: 0x72 :: 0x75 :: 0x65 :: rest => some (.bool true, rest)
    | 0x66 :: 0x61 :: 0x6C :: 0x73 :: 0x65 :: rest => some (.bool false, rest)
    | 0x22 :: rest => (string? rest).map fun (t, rest) => (.string t, rest)
    | 0x2D :: rest => number? true rest
    | 0x5B :: rest =>
      match skipBlank rest with
      | 0x5D :: rest => some (.array [], rest)
      | rest => (items? fuel rest).map fun (ds, rest) => (.array ds, rest)
    | 0x7B :: rest =>
      match skipBlank rest with
      | 0x7D :: rest => some (.object [], rest)
      | rest => (fields? fuel rest).map fun (ds, rest) => (.object ds, rest)
    | b :: rest => if isDigit b then number? false (b :: rest) else none
    | [] => none

def items? : Nat → Bytes → Option (List Draft × Bytes)
  | 0, _ => none
  | fuel + 1, s => do
    let (d, s) ← value? fuel s
    match skipBlank s with
    | 0x2C :: s => do
      let (ds, s) ← items? fuel s
      return (d :: ds, s)
    | 0x5D :: s => return ([d], s)
    | _ => none

def fields? : Nat → Bytes → Option (List (Option String × Draft) × Bytes)
  | 0, _ => none
  | fuel + 1, s =>
    match skipBlank s with
    | 0x22 :: s => do
      let (key, s) ← string? s
      match skipBlank s with
      | 0x3A :: s => do
        let (d, s) ← value? fuel s
        match skipBlank s with
        | 0x2C :: s => do
          let (ds, s) ← fields? fuel s
          return ((key, d) :: ds, s)
        | 0x7D :: s => return ([(key, d)], s)
        | _ => none
      | _ => none
    | _ => none

end

end Reader

def draft? (bytes : List UInt8) : Option Draft := do
  let (d, rest) ← Reader.value? (2 * bytes.length + 2) bytes
  if (Reader.skipBlank rest).isEmpty then return d else none

/-- Refuses faulty numbers and strings and deep nesting; of repeated keys the last counts. -/
def read? (bytes : List UInt8) : Option Json :=
  (draft? bytes).bind (Draft.value? Draft.depthLimit)

def bytesOf (s : String) : List UInt8 := s.toUTF8.toList

end ResourceClient.Json

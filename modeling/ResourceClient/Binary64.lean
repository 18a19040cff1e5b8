/-!
Double-precision numbers as their 64 bits. Order and sign are read off the bits, so a test such as
"at least zero and below one" is a comparison of words.
-/
namespace ResourceClient

structure Binary64 where
  bits : UInt64
  deriving DecidableEq, Inhabited, Repr

namespace Binary64

def signBit : UInt64 := 0x8000000000000000

def one : Binary64 := ⟨0x3FF0000000000000⟩

def isNegative (x : Binary64) : Bool := x.bits &&& signBit ≠ 0

def magnitude (x : Binary64) : UInt64 := x.bits &&& 0x7FFFFFFFFFFFFFFF

def isZero (x : Binary64) : Bool := x.magnitude = 0

def isPositive (x : Binary64) : Bool := !x.isNegative && !x.isZero

def isProperFraction (x : Binary64) : Bool :=
  x.isZero || (!x.isNegative && x.bits < one.bits)

def negate (x : Binary64) : Binary64 := ⟨x.bits ^^^ signBit⟩

def ofFloat (x : Float) : Binary64 := ⟨x.toBits⟩

/-- Nearest double, ties to even. -/
def ofNat (n : UInt64) : Binary64 := ofFloat n.toFloat

def ofInt (n : Int) : Binary64 :=
  if n < 0 then (ofNat (UInt64.ofNat n.natAbs)).negate else ofNat (UInt64.ofNat n.natAbs)

/-- The magnitude is `significand * 2 ^ exponent`. -/
def significand (x : Binary64) : Nat :=
  let fraction := (x.bits &&& 0xFFFFFFFFFFFFF).toNat
  if x.magnitude >>> 52 = 0 then fraction else fraction + 0x10000000000000

def exponent (x : Binary64) : Int :=
  let e := (x.magnitude >>> 52).toNat
  (if e = 0 then 1 else e) - 1075

/-- The next double below is only half as far away as the next one above. -/
def startsBinade (x : Binary64) : Bool :=
  x.bits &&& 0xFFFFFFFFFFFFF = 0 && x.magnitude >>> 52 > 1

end Binary64

end ResourceClient

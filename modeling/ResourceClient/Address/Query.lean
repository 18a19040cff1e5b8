import ResourceClient.Table

/-!
Form encoding of query parameters. The text is the cache subkey of a read, so it is built in key
order: equal parameters give equal text.
-/
namespace ResourceClient.Query

def isPlain (b : UInt8) : Bool :=
  (0x30 ≤ b ∧ b ≤ 0x39) ∨ (0x41 ≤ b ∧ b ≤ 0x5A) ∨ (0x61 ≤ b ∧ b ≤ 0x7A) ∨
    b = 0x2A ∨ b = 0x2D ∨ b = 0x2E ∨ b = 0x5F

def hexDigit (n : UInt8) : Char :=
  Char.ofNat (if n < 10 then 0x30 + n.toNat else 0x37 + n.toNat)

def encodeByte (b : UInt8) : List Char :=
  if isPlain b then [Char.ofNat b.toNat]
  else if b = 0x20 then ['+']
  else ['%', hexDigit (b / 16), hexDigit (b % 16)]

def encode (s : String) : List Char := s.toUTF8.toList.flatMap encodeByte

def pairChars (p : String × String) : List Char := encode p.1 ++ '=' :: encode p.2

def render (params : Table String) : String :=
  .ofList (List.intercalate ['&'] (params.map pairChars))

end ResourceClient.Query

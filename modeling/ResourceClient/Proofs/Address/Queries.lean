import Mathlib.Data.Fintype.Basic
import Mathlib.Data.List.Basic
import ResourceClient.Address.Query
import ResourceClient.Proofs.Text.Bytes

/-!
Different parameters have different subkeys. No byte is encoded by the beginning of another one's
code, and the signs that separate names, values and pairs stand for no byte, so the text can be read
back in one way only.
-/
namespace ResourceClient.Query

/-- The length of a code, as its first sign tells. -/
def width (first : Char) : Nat := if first = '%' then 3 else 1

def hexValue (digit : Char) : Nat :=
  if digit.toNat < 0x41 then digit.toNat - 0x30 else digit.toNat - 0x37

def decodeByte : List Char → Nat
  | ['%', high, low] => 16 * hexValue high + hexValue low
  | ['+'] => 0x20
  | [sign] => sign.toNat
  | _ => 0

/-- What a code can be read back by. -/
structure Readable (code : List Char) (byte : Nat) : Prop where
  full : code ≠ []
  length : code.length = width (code.headD ' ')
  decoded : decodeByte code = byte
  unseparated : '=' ∉ code ∧ '&' ∉ code

instance (code : List Char) (byte : Nat) : Decidable (Readable code byte) :=
  decidable_of_iff
    (code ≠ [] ∧ code.length = width (code.headD ' ') ∧ decodeByte code = byte ∧
      '=' ∉ code ∧ '&' ∉ code)
    ⟨fun h => ⟨h.1, h.2.1, h.2.2.1, h.2.2.2⟩, fun h => ⟨h.full, h.length, h.decoded, h.unseparated⟩⟩

theorem readable_encodeByte (b : UInt8) : Readable (encodeByte b) b.toNat := by
  have hall : ∀ n : Fin 256, Readable (encodeByte (UInt8.ofNat n)) n := by decide +kernel
  simpa using hall ⟨b.toNat, b.toNat_lt⟩

theorem encodeByte_append_inj {a b : UInt8} {s t : List Char}
    (h : encodeByte a ++ s = encodeByte b ++ t) : a = b ∧ s = t := by
  have ha := readable_encodeByte a
  have hb := readable_encodeByte b
  have hhead : (encodeByte a).headD ' ' = (encodeByte b).headD ' ' := by
    obtain ⟨first, others, hfirst⟩ := List.exists_cons_of_ne_nil ha.full
    obtain ⟨second, more, hsecond⟩ := List.exists_cons_of_ne_nil hb.full
    rw [hfirst, hsecond] at h ⊢
    exact (List.cons.inj h).1
  have hlength : (encodeByte a).length = (encodeByte b).length := by
    rw [ha.length, hb.length, hhead]
  obtain ⟨hcode, hrest⟩ := List.append_inj h hlength
  refine ⟨UInt8.toNat_inj.1 ?_, hrest⟩
  rw [← ha.decoded, ← hb.decoded, hcode]

theorem flatMap_encodeByte_inj {xs ys : List UInt8}
    (h : xs.flatMap encodeByte = ys.flatMap encodeByte) : xs = ys := by
  induction xs generalizing ys with
  | nil =>
    cases ys with
    | nil => rfl
    | cons b ys =>
      rw [List.flatMap_nil, List.flatMap_cons] at h
      exact absurd (List.append_eq_nil_iff.1 h.symm).1 (readable_encodeByte b).full
  | cons a xs ih =>
    cases ys with
    | nil =>
      rw [List.flatMap_nil, List.flatMap_cons] at h
      exact absurd (List.append_eq_nil_iff.1 h).1 (readable_encodeByte a).full
    | cons b ys =>
      rw [List.flatMap_cons, List.flatMap_cons] at h
      obtain ⟨rfl, hrest⟩ := encodeByte_append_inj h
      rw [ih hrest]

theorem encode_inj {s t : String} (h : encode s = encode t) : s = t :=
  toUTF8_toList_inj.1 (flatMap_encodeByte_inj h)

theorem not_mem_encode (s : String) : '=' ∉ encode s ∧ '&' ∉ encode s := by
  constructor <;> intro hmem <;> obtain ⟨b, -, hb⟩ := List.mem_flatMap.1 hmem
  · exact (readable_encodeByte b).unseparated.1 hb
  · exact (readable_encodeByte b).unseparated.2 hb

theorem pairChars_inj {p q : String × String} (h : pairChars p = pairChars q) : p = q := by
  obtain ⟨hname, -, hvalue⟩ :=
    (List.append_cons_inj_of_notMem (not_mem_encode p.1).1 (not_mem_encode p.2).1).1 h
  exact Prod.ext (encode_inj hname) (encode_inj hvalue)

theorem not_mem_pairChars (p : String × String) : '&' ∉ pairChars p := by
  intro hmem
  rcases List.mem_append.1 hmem with hname | hvalue
  · exact (not_mem_encode p.1).2 hname
  · rcases List.mem_cons.1 hvalue with hsign | hvalue
    · exact absurd hsign (by decide)
    · exact (not_mem_encode p.2).2 hvalue

theorem splitOn_render {params : Table String} (h : params ≠ []) :
    (render params).toList.splitOn '&' = params.map pairChars := by
  rw [render, String.toList_ofList]
  refine List.splitOn_intercalate '&' ?_ (by simpa using h)
  intro code hcode
  obtain ⟨p, -, rfl⟩ := List.mem_map.1 hcode
  exact not_mem_pairChars p

theorem render_cons_ne_empty (p : String × String) (rest : Table String) :
    render (p :: rest) ≠ "" := by
  intro h
  have hsplit := splitOn_render (List.cons_ne_nil p rest)
  rw [h] at hsplit
  have hfirst : [] = pairChars p := (List.cons.inj hsplit).1
  cases hname : encode p.1 <;> simp [pairChars, hname] at hfirst

theorem render_inj {params other : Table String} (h : render params = render other) :
    params = other := by
  cases params with
  | nil =>
    cases other with
    | nil => rfl
    | cons p rest => exact absurd h.symm (render_cons_ne_empty p rest)
  | cons p rest =>
    cases other with
    | nil => exact absurd h (render_cons_ne_empty p rest)
    | cons q more =>
      have hcodes : (p :: rest).map pairChars = (q :: more).map pairChars := by
        rw [← splitOn_render (List.cons_ne_nil p rest), h,
          splitOn_render (List.cons_ne_nil q more)]
      exact List.map_injective_iff.2 (fun _ _ => pairChars_inj) hcodes

end ResourceClient.Query

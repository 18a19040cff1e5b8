import ResourceClient.Json.Printer
import ResourceClient.Proofs.Text.Bytes

namespace ResourceClient.Json

namespace Reader

/-- Bytes of a string that are read as others, whatever comes before and after them. -/
def Conveys (written meant : Bytes) : Prop :=
  ∃ pieces, (∀ rest, pieces? (written ++ rest) =
      (pieces? rest).map fun (later, rest) => (pieces ++ later, rest)) ∧
    ∀ later, pieceBytes? (pieces ++ later) = (pieceBytes? later).map (meant ++ ·)

theorem conveys_nil : Conveys [] [] :=
  ⟨[], fun _ => Option.map_id'.symm, fun _ => Option.map_id'.symm⟩

theorem Conveys.append {written meant more added : Bytes} (h : Conveys written meant)
    (hmore : Conveys more added) : Conveys (written ++ more) (meant ++ added) := by
  obtain ⟨pieces, hread, hmeant⟩ := h
  obtain ⟨others, hreadMore, hadded⟩ := hmore
  refine ⟨pieces ++ others, fun rest => ?_, fun later => ?_⟩
  · rw [List.append_assoc, hread, hreadMore, Option.map_map]
    simp [Function.comp_def]
  · rw [List.append_assoc, hmeant, hadded, Option.map_map]
    simp [Function.comp_def]

theorem conveys_byte {b : UInt8} (hquote : b ≠ 0x22) (hescape : b ≠ 0x5C) (hshown : ¬ b < 0x20) :
    Conveys [b] [b] := by
  refine ⟨[.byte b], fun rest => ?_, fun _ => rfl⟩
  -- A byte is read by itself unless it ends the string or starts an escape, short or long.
  rw [List.singleton_append, pieces?]
  · rw [if_neg hshown]
    cases pieces? rest <;> rfl
  · exact hquote
  · exact fun _ _ _ _ _ hb => absurd hb hescape
  · exact fun _ _ hb => absurd hb hescape

theorem conveys_bytes {bytes : Bytes} (h : ∀ b ∈ bytes, b ≠ 0x22 ∧ b ≠ 0x5C ∧ ¬ b < 0x20) :
    Conveys bytes bytes := by
  induction bytes with
  | nil => exact conveys_nil
  | cons b bytes ih =>
    obtain ⟨⟨hquote, hescape, hshown⟩, hothers⟩ := List.forall_mem_cons.1 h
    exact (conveys_byte hquote hescape hshown).append (ih hothers)

theorem conveys_simpleEscape {b meant : UInt8} (h : simpleEscape? b = some meant) :
    Conveys [0x5C, b] [meant] := by
  refine ⟨[.byte meant], fun rest => ?_, fun _ => rfl⟩
  rw [List.cons_append, List.singleton_append, pieces?]
  · rw [h]
    cases pieces? rest <;> rfl
  · rintro _ _ _ _ _ rfl
    cases h

theorem conveys_number {high low : UInt8} {n : Nat} (hn : n < 0x20)
    (hhigh : hexValue? high = some (n / 16)) (hlow : hexValue? low = some (n % 16)) :
    Conveys [0x5C, 0x75, 0x30, 0x30, high, low] (charBytes n) := by
  have hzero : hexValue? 0x30 = some 0 := rfl
  have hvalue : ((0 * 16 + 0) * 16 + n / 16) * 16 + n % 16 = n := by omega
  refine ⟨[.unit n], fun rest => ?_, fun later => ?_⟩
  · simp only [List.cons_append, List.nil_append, pieces?, hzero, hhigh, hlow, Option.bind_eq_bind,
      Option.bind_some, hvalue]
    cases pieces? rest <;> rfl
  · rw [List.singleton_append, pieceBytes?.eq_def]
    dsimp only
    rw [if_neg (by omega), if_neg (by omega)]

theorem hexValue?_digitChar {n : Nat} (h : n < 16) :
    String.utf8EncodeChar (Nat.digitChar n) = [UInt8.ofNat (Nat.digitChar n).toNat] ∧
      hexValue? (UInt8.ofNat (Nat.digitChar n).toNat) = some n := by
  have hall : ∀ d : Fin 16,
      String.utf8EncodeChar (Nat.digitChar d) = [UInt8.ofNat (Nat.digitChar d).toNat] ∧
        hexValue? (UInt8.ofNat (Nat.digitChar d).toNat) = some d := by
    decide +kernel
  exact hall ⟨n, h⟩

theorem eq_ofNat {c : Char} {n : Nat} (h : c.toNat = n) : c = Char.ofNat n := by
  rw [← h, Char.ofNat_toNat]

theorem shown_of_mem {c : Char} (hquote : c ≠ '"') (hescape : c ≠ '\\')
    (hshown : ¬ c.toNat < 0x20) :
    ∀ b ∈ String.utf8EncodeChar c, b ≠ 0x22 ∧ b ≠ 0x5C ∧ ¬ b < 0x20 := by
  intro b hb
  by_cases hascii : c.toNat < 0x80
  · rw [utf8EncodeChar_of_lt hascii, List.mem_singleton] at hb
    have hnumber : b.toNat = c.toNat := by
      rw [hb]
      exact UInt8.toNat_ofNat_of_lt' (Nat.lt_trans hascii (by decide))
    refine ⟨?_, ?_, ?_⟩
    · rintro rfl
      exact hquote (eq_ofNat (n := 0x22) hnumber.symm)
    · rintro rfl
      exact hescape (eq_ofNat (n := 0x5C) hnumber.symm)
    · rw [UInt8.lt_iff_toNat_lt, hnumber]
      exact hshown
  · have hhigh := UInt8.le_iff_toNat_le.1
      (le_of_mem_utf8EncodeChar (Nat.le_of_not_lt hascii) b hb)
    simp only [ne_eq, ← UInt8.toNat_inj, UInt8.lt_iff_toNat_lt, UInt8.reduceToNat] at hhigh ⊢
    omega

theorem conveys_escapeChar (c : Char) :
    Conveys ((escapeChar c).flatMap String.utf8EncodeChar) (String.utf8EncodeChar c) := by
  unfold escapeChar
  split_ifs with hquote hescape hline hreturn htab hback hfeed hcontrol
  · rw [hquote]
    exact conveys_simpleEscape rfl
  · rw [hescape]
    exact conveys_simpleEscape rfl
  · rw [hline]
    exact conveys_simpleEscape rfl
  · rw [hreturn]
    exact conveys_simpleEscape rfl
  · rw [htab]
    exact conveys_simpleEscape rfl
  · rw [eq_ofNat hback]
    exact conveys_simpleEscape rfl
  · rw [eq_ofNat hfeed]
    exact conveys_simpleEscape rfl
  · obtain ⟨hhigh, hhighValue⟩ := hexValue?_digitChar (show c.toNat / 16 < 16 by omega)
    obtain ⟨hlow, hlowValue⟩ := hexValue?_digitChar (show c.toNat % 16 < 16 by omega)
    have hconveys := conveys_number hcontrol hhighValue hlowValue
    rw [charBytes, Char.ofNat_toNat] at hconveys
    simp only [List.flatMap_cons, List.flatMap_nil, hhigh, hlow]
    exact hconveys
  · rw [List.flatMap_singleton]
    exact conveys_bytes (shown_of_mem hquote hescape hcontrol)

theorem conveys_quoted (chars : List Char) :
    Conveys ((chars.flatMap escapeChar).flatMap String.utf8EncodeChar)
      (chars.flatMap String.utf8EncodeChar) := by
  induction chars with
  | nil => exact conveys_nil
  | cons c chars ih =>
    rw [List.flatMap_cons, List.flatMap_append, List.flatMap_cons]
    exact (conveys_escapeChar c).append ih

theorem Conveys.string? {written meant : Bytes} (h : Conveys written meant) (rest : Bytes) :
    string? (written ++ 0x22 :: rest) = some (textOf? meant, rest) := by
  obtain ⟨pieces, hread, hmeant⟩ := h
  have hpieces : pieces? (0x22 :: rest) = some ([], rest) := by rw [pieces?]
  have hbytes := hmeant []
  rw [List.append_nil, pieceBytes?, Option.map_some, List.append_nil] at hbytes
  rw [Reader.string?, hread, hpieces]
  simp [hbytes]

end Reader

theorem bytesOf_quoteChars (s : String) :
    bytesOf (.ofList (quoteChars s)) =
      0x22 :: ((s.toList.flatMap escapeChar).flatMap String.utf8EncodeChar ++ [0x22]) := by
  rw [bytesOf_ofList, quoteChars, List.cons_append, List.flatMap_cons, List.flatMap_append]
  rfl

theorem draft?_quoted (s : String) :
    draft? (bytesOf (.ofList (quoteChars s))) = some (.string s) := by
  have hstring := (Reader.conveys_quoted s.toList).string? []
  rw [textOf?_flatMap, String.ofList_toList] at hstring
  rw [bytesOf_quoteChars, draft?, Reader.value?]
  simp [Reader.skipBlank, Reader.isBlank, hstring]

theorem read?_render_string (s : String) :
    read? (bytesOf (string s).render) = some (.string s) := by
  rw [render, chars, read?, draft?_quoted]
  rfl

end ResourceClient.Json

import ResourceClient.Proofs.Json.Texts
import ResourceClient.Proofs.Wire.Grammar

/-!
The one text of a path. Whatever text a path is read from, it is written in one way and read back
from that, and the two texts differ only in what a number can do without. The JSON of a path is this
text as a string.
-/
namespace ResourceClient.Path

theorem digitChar_of_isDigit {c : Char} (h : c.isDigit = true) :
    c.toNat - '0'.toNat < 10 ∧ Nat.digitChar (c.toNat - '0'.toNat) = c := by
  have hzero : '0'.toNat = 48 := rfl
  have hnine : '9'.toNat = 57 := rfl
  obtain ⟨hlow, hhigh⟩ := Char.isDigit_iff_toNat.1 h
  have hlt : c.toNat - '0'.toNat < 10 := by omega
  refine ⟨hlt, Char.toNat_inj.1 ?_⟩
  rw [Nat.toNat_digitChar_of_lt_ten hlt]
  omega

theorem toDigits_append {digits : List Char} (hdecimal : ∀ c ∈ digits, c.isDigit = true) {n : Nat}
    (hn : 0 < n) :
    Nat.toDigits 10 n ++ digits = Nat.toDigits 10 (Nat.ofDigitChars 10 digits n) := by
  induction digits generalizing n with
  | nil => rw [List.append_nil, Nat.ofDigitChars_nil]
  | cons c digits ih =>
    obtain ⟨hc, hothers⟩ := List.forall_mem_cons.1 hdecimal
    obtain ⟨hlt, hchar⟩ := digitChar_of_isDigit hc
    have hfirst : Nat.toDigits 10 n ++ [c] = Nat.toDigits 10 (10 * n + (c.toNat - '0'.toNat)) := by
      rw [← Nat.toDigits_append_toDigits (by decide) hn hlt, Nat.toDigits_of_lt_base hlt, hchar]
    rw [Nat.ofDigitChars_cons, ← ih hothers (by omega), ← hfirst, List.append_assoc,
      List.singleton_append]

theorem toDigits_ne_zero_cons {n : Nat} (hn : 0 < n) (rest : List Char) :
    Nat.toDigits 10 n ≠ '0' :: rest := by
  -- From ten on, a number starts with the digits of its tenth part.
  induction n using Nat.strongRecOn generalizing rest with
  | ind n ih =>
    intro hzero
    by_cases hdigit : n < 10
    · rw [Nat.toDigits_of_lt_base hdigit] at hzero
      exact absurd (Nat.digitChar_eq_zero.1 (List.cons.inj hzero).1) (Nat.ne_of_gt hn)
    · obtain ⟨first, others, hfirst⟩ :=
        List.exists_cons_of_ne_nil (Nat.toDigits_ne_nil (n := n / 10) (b := 10))
      rw [Nat.toDigits_of_base_le (by decide) (Nat.le_of_not_lt hdigit), hfirst] at hzero
      obtain rfl := (List.cons.inj hzero).1
      exact ih (n / 10) (by omega) (by omega) others hfirst

/-- A decimal is written as it was read, unless zeros stand before it. -/
theorem toDigits_ofDigitChars_iff {c : Char} {digits : List Char}
    (hdecimal : ∀ d ∈ c :: digits, d.isDigit = true) :
    Nat.toDigits 10 (Nat.ofDigitChars 10 (c :: digits) 0) = c :: digits ↔
      (c = '0' → digits = []) := by
  obtain ⟨hc, hothers⟩ := List.forall_mem_cons.1 hdecimal
  obtain ⟨hlt, hchar⟩ := digitChar_of_isDigit hc
  rw [Nat.ofDigitChars_cons, Nat.mul_zero, Nat.zero_add]
  by_cases hzero : c = '0'
  · rw [hzero, Nat.sub_self, imp_iff_right rfl]
    constructor
    · intro h
      rcases Nat.eq_zero_or_pos (Nat.ofDigitChars 10 digits 0) with hnothing | hpos
      · rw [hnothing, Nat.toDigits_zero] at h
        exact (List.cons.inj h).2.symm
      · exact absurd h (toDigits_ne_zero_cons hpos digits)
    · rintro rfl
      rfl
  · have hpos : 0 < c.toNat - '0'.toNat := by
      rw [Nat.pos_iff_ne_zero]
      intro hvalue
      rw [hvalue] at hchar
      exact hzero hchar.symm
    rw [← toDigits_append hothers hpos, Nat.toDigits_of_lt_base hlt, hchar]
    simp [hzero]

/-- The sentinel, a plus sign or none, and a decimal below `2 ^ 64`. -/
def IsNumbered (text : String) : Prop :=
  ∃ digits, (text.toList = sentinel :: digits ∨ text.toList = sentinel :: '+' :: digits) ∧
    digits ≠ [] ∧ (∀ c ∈ digits, c.isDigit = true) ∧ Nat.ofDigitChars 10 digits 0 < UInt64.size

inductive IsPadded (text : String) : Prop where
  | plus {rest : List Char} (written : text.toList = sentinel :: '+' :: rest)
  | zero {rest : List Char} (written : text.toList = sentinel :: '0' :: rest) (more : rest ≠ [])

/-- What can be the path of a text. -/
def IsProper : Path → Prop
  | .real address => address ≠ "" ∧ startsWithSentinel address = false
  | .placeholder _ => True

variable {text : String} {path : Path}

theorem exists_spells_iff : (∃ path, Spells text path) ↔
    text ≠ "" ∧ (startsWithSentinel text = false ∨ IsNumbered text) := by
  constructor
  · rintro ⟨path, hspells⟩
    cases hspells with
    | real some unmarked => exact ⟨some, .inl unmarked⟩
    | @placeholder digits number marked some decimal value =>
      refine ⟨?_, .inr ⟨digits, marked, some, decimal, ?_⟩⟩
      · rintro rfl
        simp at marked
      · rw [value]
        exact number.toNat_lt
  · rintro ⟨hsome, hunmarked | ⟨digits, hmarked, hdigits, hdecimal, hlt⟩⟩
    · exact ⟨_, .real hsome hunmarked⟩
    · exact ⟨_, .placeholder hmarked hdigits hdecimal (UInt64.toNat_ofNat_of_lt hlt).symm⟩

theorem parse?_toString_iff : parse? path.toString = some path ↔ path.IsProper := by
  cases path with
  | placeholder number => simp [parse?_toString_placeholder, IsProper]
  | real address =>
    rw [toString_real, parse?_eq_some_iff]
    constructor
    · rintro ⟨hsome, hunmarked⟩
      exact ⟨hsome, hunmarked⟩
    · rintro ⟨hsome, hunmarked⟩
      exact .real hsome hunmarked

theorem Spells.isProper (h : Spells text path) : path.IsProper := by
  cases h with
  | real some unmarked => exact ⟨some, unmarked⟩
  | placeholder => trivial

theorem startsWithSentinel_toString (h : path.IsProper) :
    startsWithSentinel path.toString = path.isPlaceholder := by
  cases path with
  | real address => exact h.2
  | placeholder number => exact startsWithSentinel_placeholder number

theorem Spells.toString_eq_iff (h : Spells text path) :
    path.toString = text ↔ ¬ IsPadded text := by
  cases h with
  | real some unmarked =>
    refine iff_of_true rfl ?_
    rintro (hwritten | ⟨hwritten, -⟩) <;> simp [startsWithSentinel, hwritten] at unmarked
  | @placeholder digits number marked some decimal value =>
    obtain ⟨first, rest, rfl⟩ := List.exists_cons_of_ne_nil some
    have hplus : first ≠ '+' := by
      rintro rfl
      exact absurd (decimal '+' List.mem_cons_self) (by decide)
    rw [toString, ← value, ← String.toList_inj, String.toList_ofList]
    -- A sign is never written, so a text with one differs; the others differ in leading zeros only.
    rcases marked with marked | marked
    · rw [marked, List.cons_inj_right, toDigits_ofDigitChars_iff decimal]
      constructor
      · rintro hlead (hwritten | ⟨hwritten, hmore⟩)
        · rw [marked, List.cons_inj_right] at hwritten
          exact hplus (List.cons.inj hwritten).1
        · rw [marked, List.cons_inj_right] at hwritten
          obtain ⟨hzero, rfl⟩ := List.cons.inj hwritten
          exact hmore (hlead hzero)
      · intro hpadded hzero
        by_contra hmore
        exact hpadded (.zero (hzero ▸ marked) hmore)
    · refine iff_of_false ?_ (not_not_intro (.plus marked))
      rw [marked, List.cons_inj_right]
      intro hdigits
      have hdrop := dropPlus_toDigits (Nat.ofDigitChars 10 (first :: rest) 0)
      rw [hdigits] at hdrop
      exact List.cons_ne_self _ _ hdrop.symm

/-- A path that was read says all of its text that matters. -/
structure Settles (text : String) (path : Path) : Prop where
  again : parse? path.toString = some path
  marked : startsWithSentinel path.toString = path.isPlaceholder
  same : path.toString = text ↔ ¬ IsPadded text

theorem settles_of_parse? (h : parse? text = some path) : Settles text path := by
  have hspells := parse?_eq_some_iff.1 h
  exact ⟨parse?_toString_iff.2 hspells.isProper, startsWithSentinel_toString hspells.isProper,
    hspells.toString_eq_iff⟩

theorem ofJson?_eq_some_iff {value : Json} :
    ofJson? value = some path ↔ ∃ text, value = .string text ∧ parse? text = some path := by
  cases value <;> simp [ofJson?, Json.string?]

theorem ofJson?_read?_render (text : String) :
    (Json.read? (Json.bytesOf (Json.string text).render)).bind ofJson? = parse? text := by
  rw [Json.read?_render_string]
  rfl

/-- Which texts are paths and which paths have a text, by themselves and as JSON. -/
theorem texts_settle (text : String) (path : Path) (value : Json) :
    ((parse? text).isSome = true ↔
        text ≠ "" ∧ (startsWithSentinel text = false ∨ IsNumbered text)) ∧
      (parse? text = some path → Settles text path) ∧
      (parse? path.toString = some path ↔ path.IsProper) ∧
      path.toJson = .string path.toString ∧
      (ofJson? value = some path ↔ ∃ text, value = .string text ∧ parse? text = some path) ∧
      (Json.read? (Json.bytesOf (Json.string text).render)).bind ofJson? = parse? text ∧
      ((Json.read? (Json.bytesOf path.toJson.render)).bind ofJson? = some path ↔
        path.IsProper) := by
  refine ⟨?_, settles_of_parse?, parse?_toString_iff, rfl, ofJson?_eq_some_iff,
    ofJson?_read?_render text, ?_⟩
  · rw [Option.isSome_iff_exists, ← exists_spells_iff]
    exact exists_congr fun _ => parse?_eq_some_iff
  · rw [toJson, ofJson?_read?_render]
    exact parse?_toString_iff

/-- A number with a sign and zeros is read, and written without them. -/
theorem texts_settle_of_padded :
    parse? "@+007" = some (.placeholder 7) ∧ (placeholder 7).toString = "@7" ∧
      Settles "@+007" (.placeholder 7) ∧
      (Json.read? (Json.bytesOf (Json.string "@+007").render)).bind ofJson? =
        some (.placeholder 7) := by
  have hparse : parse? "@+007" = some (.placeholder 7) := by decide +kernel
  obtain ⟨-, hsettles, -, -, -, hjson, -⟩ := texts_settle "@+007" (.placeholder 7) .null
  exact ⟨hparse, by decide +kernel, hsettles hparse, hjson.trans hparse⟩

example : parse? "@18446744073709551615" = some (.placeholder 18446744073709551615) ∧
    parse? "@18446744073709551616" = none := by
  decide +kernel

end ResourceClient.Path

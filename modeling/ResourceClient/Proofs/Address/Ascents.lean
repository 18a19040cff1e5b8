import Mathlib.Logic.Function.Iterate
import ResourceClient.Proofs.Address.Bases

/-!
Walks upwards. Whatever an address looks like, its parent has the same origin and less below it
until there is nothing left, so every walk comes to a root.
-/
namespace ResourceClient.Address

variable {s : List Char} {address : String}

theorem length_trimEnd_le (s : List Char) : (trimEnd s).length ≤ s.length :=
  (trimEnd_isPrefix s).length_le

theorem length_trimEnd_lt (h : s.getLast? = some '/') : (trimEnd s).length < s.length := by
  obtain ⟨front, rfl⟩ := List.getLast?_eq_some_iff.1 h
  have hfront := length_trimEnd_le front
  rw [trimEnd_append_slash, List.length_append, List.length_singleton]
  omega

theorem getLast?_throughLastSlash (h : throughLastSlash s ≠ []) :
    (throughLastSlash s).getLast? = some '/' := by
  have hne : s.reverse.dropWhile (· ≠ '/') ≠ [] := by
    simpa [throughLastSlash] using h
  have hhead := List.head_dropWhile_not (p := (· ≠ '/')) hne
  rw [throughLastSlash, List.getLast?_reverse, List.head?_eq_some_head hne]
  simpa using hhead

theorem splitScheme?_rejoin {split : List Char × List Char} (h : splitScheme? s = some split)
    (rest : List Char) :
    splitScheme? (split.1 ++ ':' :: '/' :: '/' :: rest) = some (split.1, rest) := by
  fun_induction splitScheme? s generalizing split with
  | case1 after =>
    obtain rfl := Option.some.inj h
    rfl
  | case2 c after hscheme ih =>
    obtain ⟨inner, hinner, rfl⟩ := Option.map_eq_some_iff.1 h
    have hafter := eq_of_splitScheme? hinner
    rw [List.cons_append, splitScheme?, ih hinner]
    · rfl
    · rintro more rfl hmore
      rcases inner with ⟨_ | ⟨a, _ | ⟨b, scheme⟩⟩, below⟩
      · simp at hmore
      · simp at hmore
      · simp only [List.cons_append, List.cons.injEq] at hmore
        obtain ⟨rfl, rfl, -⟩ := hmore
        exact hscheme _ rfl hafter
  | case3 => cases h

theorem splitOrigin_fst_append (s : List Char) {rest : List Char}
    (horigin : (splitOrigin s).1 ≠ [] → rest.head? = some '/')
    (hnone : splitScheme? s = none → splitScheme? rest = none) :
    splitOrigin ((splitOrigin s).1 ++ rest) = ((splitOrigin s).1, rest) := by
  cases hscheme : splitScheme? s with
  | none =>
    have hsplit : splitOrigin s = ([], s) := by simp only [splitOrigin, hscheme]
    rw [hsplit, List.nil_append, splitOrigin, hnone hscheme]
  | some split =>
    have hsplit : splitOrigin s =
        (split.1 ++ ':' :: '/' :: '/' :: split.2.takeWhile (· ≠ '/'),
          split.2.dropWhile (· ≠ '/')) := by
      simp only [splitOrigin, hscheme]
    obtain ⟨below, rfl⟩ := List.head?_eq_some_iff.1 (horigin (by simp [hsplit]))
    rw [hsplit, splitOrigin]
    simp only [List.append_assoc, List.cons_append]
    rw [splitScheme?_rejoin hscheme]
    dsimp only
    have hhost : ∀ c ∈ split.2.takeWhile (· ≠ '/'), decide (c ≠ '/') = true := by
      intro c hc
      apply List.mem_takeWhile_imp hc
    rw [takeWhile_append_slash, dropWhile_append_slash, List.takeWhile_eq_self_iff.2 hhost,
      List.dropWhile_eq_nil_iff.2 hhost, List.nil_append]

theorem head?_snd_splitOrigin (horigin : (splitOrigin s).1 ≠ []) (h : (splitOrigin s).2 ≠ []) :
    (splitOrigin s).2.head? = some '/' := by
  cases hscheme : splitScheme? s with
  | none => simp [splitOrigin, hscheme] at horigin
  | some split =>
    simp only [splitOrigin, hscheme] at h ⊢
    have hhead := List.head_dropWhile_not (p := (· ≠ '/')) h
    rw [List.head?_eq_some_head h]
    simpa using hhead

def above (rest : List Char) : List Char :=
  match throughLastSlash (trimEnd rest) with
  | [] => ['/']
  | cut => cut

theorem parentChars_eq (s : List Char) :
    parentChars s = (splitOrigin s).1 ++ above (splitOrigin s).2 := by
  unfold parentChars above
  dsimp only
  cases throughLastSlash (trimEnd (splitOrigin s).2) <;> rfl

theorem above_eq (rest : List Char) :
    above rest = ['/'] ∨
      above rest = throughLastSlash (trimEnd rest) ∧ throughLastSlash (trimEnd rest) ≠ [] := by
  unfold above
  split
  · exact .inl rfl
  · next hne => exact .inr ⟨rfl, hne⟩

theorem getLast?_above (rest : List Char) : (above rest).getLast? = some '/' := by
  rcases above_eq rest with h | ⟨h, hne⟩
  · rw [h]
    rfl
  · rw [h, getLast?_throughLastSlash hne]

theorem throughLastSlash_trimEnd_isPrefix (rest : List Char) :
    throughLastSlash (trimEnd rest) <+: rest :=
  (throughLastSlash_isPrefix _).trans (trimEnd_isPrefix rest)

theorem head?_above {rest : List Char} (h : rest ≠ [] → rest.head? = some '/') :
    (above rest).head? = some '/' := by
  rcases above_eq rest with hroot | ⟨hcut, hne⟩
  · rw [hroot]
    rfl
  · obtain ⟨more, hmore⟩ := throughLastSlash_trimEnd_isPrefix rest
    have hrest : rest ≠ [] := by
      rintro rfl
      exact hne (List.append_eq_nil_iff.1 hmore).1
    rw [hcut, ← h hrest, ← List.head?_append_of_ne_nil _ hne, hmore]

theorem splitScheme?_above {rest : List Char} (h : splitScheme? rest = none) :
    splitScheme? (above rest) = none := by
  rcases above_eq rest with hroot | ⟨hcut, -⟩
  · rw [hroot]
    rfl
  · rw [splitScheme?_eq_none_iff] at h ⊢
    intro hscheme
    rw [hcut] at hscheme
    exact h (hscheme.trans (throughLastSlash_trimEnd_isPrefix rest).isInfix)

theorem splitOrigin_parentChars (s : List Char) :
    splitOrigin (parentChars s) = ((splitOrigin s).1, above (splitOrigin s).2) := by
  rw [parentChars_eq]
  apply splitOrigin_fst_append
  · intro horigin
    exact head?_above (head?_snd_splitOrigin horigin)
  · intro hscheme
    have hsplit : splitOrigin s = ([], s) := by simp only [splitOrigin, hscheme]
    rw [hsplit]
    exact splitScheme?_above hscheme

/-- How much of an address stands below its origin, but for the slashes at its end. -/
def height (address : String) : Nat := (trimEnd (splitOrigin address.toList).2).length

theorem isRoot_iff_height : isRoot address = true ↔ height address = 0 := by
  rw [isRoot, isRootChars, height, List.isEmpty_iff, List.length_eq_zero_iff]

theorem height_parent_lt (h : isRoot address = false) :
    height (parent address) < height address := by
  have hheight : 0 < height address := by
    apply Nat.pos_of_ne_zero
    rwa [ne_eq, ← isRoot_iff_height, Bool.not_eq_true]
  unfold height at hheight ⊢
  rw [toList_parent, splitOrigin_parentChars]
  dsimp only
  have hlt := length_trimEnd_lt (getLast?_above (splitOrigin address.toList).2)
  rcases above_eq (splitOrigin address.toList).2 with hroot | ⟨hcut, -⟩
  · rw [hroot] at hlt ⊢
    rw [List.length_singleton] at hlt
    omega
  · have hle := (throughLastSlash_isPrefix (trimEnd (splitOrigin address.toList).2)).length_le
    rw [hcut] at hlt ⊢
    omega

/-- After how many steps upwards a walk comes to a root for the first time. -/
structure Tops (start : String) (steps : Nat) : Prop where
  root : isRoot (parent^[steps] start) = true
  below : ∀ i < steps, isRoot (parent^[i] start) = false

namespace Tops

variable {start : String} {steps : Nat} (h : Tops start steps)
include h

theorem eq_zero (hroot : isRoot start = true) : steps = 0 := by
  apply Nat.eq_zero_of_not_pos
  intro hpos
  cases hroot.symm.trans (h.below 0 hpos)

theorem exists_succ (hbelow : isRoot start = false) :
    ∃ fewer, steps = fewer + 1 ∧ Tops (parent start) fewer := by
  cases steps with
  | zero => cases hbelow.symm.trans h.root
  | succ fewer => exact ⟨fewer, rfl, h.root, fun i hi => h.below (i + 1) (Nat.succ_lt_succ hi)⟩

end Tops

theorem exists_tops (start : String) : ∃ steps, Tops start steps := by
  induction hheight : height start using Nat.strong_induction_on generalizing start with
  | _ n ih =>
    cases hroot : isRoot start with
    | true => exact ⟨0, hroot, fun i hi => absurd hi (Nat.not_lt_zero i)⟩
    | false =>
      obtain ⟨steps, htops⟩ := ih _ (hheight ▸ height_parent_lt hroot) (parent start) rfl
      refine ⟨steps + 1, htops.root, fun i hi => ?_⟩
      cases i with
      | zero => exact hroot
      | succ i => exact htops.below i (Nat.lt_of_succ_lt_succ hi)

end ResourceClient.Address

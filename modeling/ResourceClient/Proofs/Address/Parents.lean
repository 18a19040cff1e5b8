import ResourceClient.Proofs.Address.Ascents

/-!
Addresses and their parents. Where a host follows the scheme, if there is a scheme at all, the key
of an address is read as the address itself is: the same origin, and the same below it but for
slashes at the end. So what a parent is, and whether there is one, does not depend on how the
address is spelled, and a parent has a shorter key unless the address is a root, which is its own
parent.
-/
namespace ResourceClient.Address

/-- It holds no scheme separator, or a host follows the first one. -/
def Admissible (address : String) : Prop :=
  ¬ [':', '/', '/'] <:+: address.toList ∨
    ∃ scheme first rest, address.toList = scheme ++ ':' :: '/' :: '/' :: first :: rest ∧
      ¬ [':', '/', '/'] <:+: scheme ∧ first ≠ '/'

def DifferInSlashes (address other : String) : Prop :=
  ∃ stem m n, address.toList = stem ++ List.replicate m '/' ∧
    other.toList = stem ++ List.replicate n '/'

def origin (address : String) : List Char := (splitOrigin address.toList).1

variable {s t : List Char} {address other : String}

theorem splitScheme?_of_first {scheme : List Char} (h : ¬ [':', '/', '/'] <:+: scheme)
    (rest : List Char) :
    splitScheme? (scheme ++ ':' :: '/' :: '/' :: rest) = some (scheme, rest) := by
  induction scheme with
  | nil => rfl
  | cons c scheme ih =>
    rw [List.cons_append, splitScheme?, ih fun hin => h (hin.trans (List.suffix_cons c _).isInfix)]
    · rfl
    · -- The separator would have to begin with the first character.
      rintro more rfl hmore
      rcases scheme with _ | ⟨a, _ | ⟨b, scheme⟩⟩
      · simp at hmore
      · simp at hmore
      · simp only [List.cons_append, List.cons.injEq] at hmore
        obtain ⟨rfl, rfl, -⟩ := hmore
        exact h ⟨[], scheme, rfl⟩

theorem trimEnd_of_getLast?_ne (h : s.getLast? ≠ some '/') : trimEnd s = s := by
  rcases List.eq_nil_or_concat s with rfl | ⟨front, last, rfl⟩
  · rfl
  · have hlast : last ≠ '/' := by simpa using h
    simp [trimEnd, hlast]

theorem trimEnd_append_of_getLast?_ne (h : s.getLast? ≠ some '/') (t : List Char) :
    trimEnd (s ++ t) = s ++ trimEnd t := by
  rw [trimEnd_append, trimEnd_of_getLast?_ne h]
  split
  · next hnil => rw [hnil, List.append_nil]
  · rfl

theorem trimEnd_append_replicate (s : List Char) (n : Nat) :
    trimEnd (s ++ List.replicate n '/') = trimEnd s := by
  have hslashes : trimEnd (List.replicate n '/') = [] := by
    simp [trimEnd]
  rw [trimEnd_append, if_pos hslashes]

theorem DifferInSlashes.keyChars_eq (h : DifferInSlashes address other) :
    keyChars other.toList = keyChars address.toList := by
  obtain ⟨stem, m, n, hfirst, hsecond⟩ := h
  rw [keyChars, keyChars, hfirst, hsecond, trimEnd_append_replicate, trimEnd_append_replicate]

theorem origin_parent (address : String) : origin (parent address) = origin address := by
  rw [origin, toList_parent, splitOrigin_parentChars]
  rfl

namespace Admissible

variable (h : Admissible address)
include h

theorem getLast?_origin : (origin address).getLast? ≠ some '/' := by
  unfold origin splitOrigin
  rcases h with hnone | ⟨scheme, first, rest, hsplit, hscheme, hfirst⟩
  · rw [splitScheme?_eq_none_iff.2 hnone]
    simp
  · rw [hsplit, splitScheme?_of_first hscheme]
    dsimp only
    -- The host is not empty, and holds no slash.
    have hhost : (first :: rest).takeWhile (· ≠ '/') ≠ [] := by
      simp [hfirst]
    intro hlast
    have hfront : scheme ++ ':' :: '/' :: '/' :: (first :: rest).takeWhile (· ≠ '/') =
        (scheme ++ [':', '/', '/']) ++ (first :: rest).takeWhile (· ≠ '/') := by
      simp
    rw [hfront, List.getLast?_append_of_ne_nil _ hhost] at hlast
    have hslash := List.mem_takeWhile_imp (List.mem_of_getLast? hlast)
    simp at hslash

theorem keyChars_eq :
    keyChars address.toList =
      origin address ++ (trimEnd (splitOrigin address.toList).2 ++ ['/']) := by
  have htrim : trimEnd address.toList =
      origin address ++ trimEnd (splitOrigin address.toList).2 := by
    rw [← trimEnd_append_of_getLast?_ne h.getLast?_origin]
    exact congrArg trimEnd (fst_append_snd_splitOrigin address.toList).symm
  rw [keyChars, htrim, List.append_assoc]

theorem splitOrigin_keyChars :
    splitOrigin (keyChars address.toList) =
      (origin address, trimEnd (splitOrigin address.toList).2 ++ ['/']) := by
  rw [h.keyChars_eq]
  apply splitOrigin_fst_append
  · intro horigin
    by_cases hnil : trimEnd (splitOrigin address.toList).2 = []
    · rw [hnil]
      rfl
    · have hne : (splitOrigin address.toList).2 ≠ [] := by
        rintro heq
        rw [heq] at hnil
        exact hnil rfl
      rw [List.head?_append_of_ne_nil _ hnil,
        head?_of_trimEnd_eq (trimEnd_trimEnd _) (by rwa [trimEnd_trimEnd]),
        head?_snd_splitOrigin horigin hne]
  · intro hnone
    have hrest : (splitOrigin address.toList).2 = address.toList := by
      simp only [splitOrigin, hnone]
    rw [hrest]
    apply splitScheme?_append_of_none
    · rw [splitScheme?_eq_none_iff] at hnone ⊢
      exact fun hin => hnone (hin.trans (trimEnd_isPrefix _).isInfix)
    · exact getLast?_trimEnd _
    · decide
    · decide

theorem length_key : (key address).length = (origin address).length + height address + 1 := by
  rw [← String.length_toList, toList_key, h.keyChars_eq, height]
  simp only [List.length_append, List.length_singleton]
  omega

theorem admissible_parent : Admissible (parent address) := by
  rcases h with hnone | ⟨scheme, first, rest, hsplit, hscheme, hfirst⟩
  · left
    have hsplit : splitOrigin address.toList = ([], address.toList) := by
      simp only [splitOrigin, splitScheme?_eq_none_iff.2 hnone]
    rw [toList_parent, parentChars_eq, hsplit, List.nil_append]
    exact splitScheme?_eq_none_iff.1 (splitScheme?_above (splitScheme?_eq_none_iff.2 hnone))
  · right
    refine ⟨scheme, first, ?_, ?_, hscheme, hfirst⟩
    · exact rest.takeWhile (· ≠ '/') ++ above (splitOrigin address.toList).2
    · rw [toList_parent, parentChars_eq, splitOrigin, hsplit, splitScheme?_of_first hscheme]
      simp [hfirst]

end Admissible

/-- The laws of keys, parents and roots that the cache and the walk upwards rely on. -/
structure Lawful (address : String) : Prop where
  settled : key (key address) = key address
  spelled : ∀ other, Admissible other → DifferInSlashes address other →
    isRoot other = isRoot address ∧ key other = key address ∧ parent other = parent address
  admissible : Admissible (parent address)
  origin : origin (parent address) = origin address
  root : isRoot address = true ↔ key (parent address) = key address
  shorter : isRoot address = false → (key (parent address)).length < (key address).length
  tops : ∃ steps, isRoot (parent^[steps] address) = true

theorem Admissible.spelled (h : Admissible address) (hother : Admissible other)
    (hslashes : DifferInSlashes address other) :
    isRoot other = isRoot address ∧ key other = key address ∧ parent other = parent address := by
  have hkey := hslashes.keyChars_eq
  have hsplit : (origin other, trimEnd (splitOrigin other.toList).2 ++ ['/']) =
      (origin address, trimEnd (splitOrigin address.toList).2 ++ ['/']) := by
    rw [← hother.splitOrigin_keyChars, hkey, h.splitOrigin_keyChars]
  obtain ⟨horigin, hrest⟩ := Prod.mk.inj hsplit
  have hrest := List.append_cancel_right hrest
  refine ⟨?_, ?_, ?_⟩
  · rw [isRoot, isRoot, isRootChars, isRootChars, hrest]
  · rw [key, key, hkey]
  · have habove : above (splitOrigin other.toList).2 = above (splitOrigin address.toList).2 := by
      rw [above, above, hrest]
    unfold origin at horigin
    rw [parent, parent, parentChars_eq, parentChars_eq, horigin, habove]

theorem Admissible.shorter (h : Admissible address) (hbelow : isRoot address = false) :
    (key (parent address)).length < (key address).length := by
  have hheight := height_parent_lt hbelow
  rw [h.length_key, h.admissible_parent.length_key, origin_parent]
  omega

theorem Admissible.key_parent_of_isRoot (h : Admissible address) (hroot : isRoot address = true) :
    key (parent address) = key address := by
  have hnil : trimEnd (splitOrigin address.toList).2 = [] := by
    simpa [isRoot, isRootChars] using hroot
  have habove : above (splitOrigin address.toList).2 = ['/'] := by
    rw [above, hnil]
    rfl
  rw [← String.toList_inj, toList_key, toList_key, h.admissible_parent.keyChars_eq, h.keyChars_eq,
    origin_parent, toList_parent, splitOrigin_parentChars, habove, hnil]
  rfl

theorem lawful_of_admissible (h : Admissible address) : Lawful address where
  settled := key_key address
  spelled := fun _ hother hslashes => h.spelled hother hslashes
  admissible := h.admissible_parent
  origin := origin_parent address
  root := by
    refine ⟨h.key_parent_of_isRoot, fun hkey => ?_⟩
    apply Bool.of_not_eq_false
    intro hbelow
    have hshorter := h.shorter hbelow
    rw [hkey] at hshorter
    exact Nat.lt_irrefl _ hshorter
  shorter := h.shorter
  tops := by
    obtain ⟨steps, htops⟩ := exists_tops address
    exact ⟨steps, htops.root⟩

theorem lawful_of_host :
    Admissible "http://host//a//b//" ∧ Lawful "http://host//a//b//" ∧
      parent "http://host//a//b//" = "http://host//a//" := by
  have h : Admissible "http://host//a//b//" := by
    refine .inr ⟨"http".toList, 'h', "ost//a//b//".toList, ?_, ?_, ?_⟩
    all_goals decide +kernel
  exact ⟨h, lawful_of_admissible h, by decide +kernel⟩

end ResourceClient.Address

import ResourceClient.Proofs.Address.Ascents

/-!
What a base covers. An address on the server has everything above it on the server as well, and is
resolved to something that the base covers. The walk upwards does not know the base: it ends where
the base ends only if there is nothing but an origin in it, and goes on to what is not covered
otherwise.
-/
namespace ResourceClient

namespace Address

theorem trimEnd_eq_nil_iff_forall {s : List Char} : trimEnd s = [] ↔ ∀ c ∈ s, c = '/' := by
  simp [trimEnd, List.dropWhile_eq_nil_iff]

theorem length_trimEnd_append_le (s t : List Char) :
    (trimEnd (s ++ t)).length ≤ s.length + (trimEnd t).length := by
  rw [trimEnd_append]
  split
  · have hle := length_trimEnd_le s
    omega
  · rw [List.length_append]

namespace IsLocal

variable {address : String} (h : IsLocal address)
include h

theorem of_isPrefix {other : String} (hslash : other.toList.head? = some '/')
    (hfront : other.toList <+: address.toList) : IsLocal other where
  slash := hslash
  single := fun hdouble => h.single (hdouble.trans hfront)
  schemeless := fun hscheme => h.schemeless (hscheme.trans hfront.isInfix)

theorem isLocal_parent : IsLocal (parent address) := by
  cases hroot : isRoot address with
  | true =>
    rw [h.parent_of_isRoot hroot]
    exact ⟨by decide, by decide, by decide⟩
  | false =>
    apply h.of_isPrefix h.head?_parent
    rw [h.toList_parent hroot]
    exact (throughLastSlash_isPrefix _).trans (trimEnd_isPrefix _)

theorem isLocal_iterate (steps : Nat) : IsLocal (parent^[steps] address) := by
  induction steps with
  | zero => exact h
  | succ steps ih =>
    rw [Function.iterate_succ_apply']
    exact ih.isLocal_parent

theorem eq_of_isRoot (hroot : isRoot address = true) : address = "/" := by
  have hslashes := trimEnd_eq_nil_iff_forall.1 (h.trimEnd_eq_nil_iff.2 hroot)
  obtain ⟨below, hbelow⟩ := List.head?_eq_some_iff.1 h.slash
  cases below with
  | nil => rw [← String.toList_inj, hbelow]; rfl
  | cons second rest =>
    obtain rfl : second = '/' := hslashes second (by simp [hbelow])
    exact absurd ⟨rest, hbelow.symm⟩ h.single

end IsLocal

end Address

namespace Config

open Address

def Covers (config : Config) (address : String) : Prop :=
  config.base ++ ['/'] <+: keyChars address.toList

instance (config : Config) (address : String) : Decidable (config.Covers address) :=
  inferInstanceAs (Decidable (_ <+: _))

variable (config : Config) {address : String}

theorem covers_url (haddress : address.toList.head? = some '/') :
    config.Covers (config.url address) := by
  unfold Covers keyChars
  rw [config.toList_url haddress, trimEnd_append]
  split
  · have hbase : trimEnd config.base = config.base := trimEnd_trimEnd _
    rw [hbase]
  · next hne =>
    have hhead : (trimEnd address.toList).head? = some '/' := by
      rw [head?_of_trimEnd_eq (trimEnd_trimEnd _) (by rwa [trimEnd_trimEnd]), haddress]
    obtain ⟨below, hbelow⟩ := List.head?_eq_some_iff.1 hhead
    rw [hbelow]
    exact ⟨below ++ ['/'], by simp⟩

theorem splitOrigin_url (h : IsLocal address) :
    splitOrigin (config.url address).toList =
      ((splitOrigin config.base).1, (splitOrigin config.base).2 ++ address.toList) := by
  rw [config.toList_url h.slash]
  apply splitOrigin_append h.slash
  intro hbase
  exact splitScheme?_append_of_none hbase (getLast?_trimEnd _) h.single h.schemeless

/-- What is put in front of addresses is an origin and nothing more. -/
def IsBare (config : Config) : Prop := (splitOrigin config.base).2 = []

instance : Decidable config.IsBare := inferInstanceAs (Decidable (_ = _))

theorem trimEnd_mount_eq_nil_iff :
    trimEnd (splitOrigin config.base).2 = [] ↔ config.IsBare := by
  constructor
  · intro hnil
    apply Classical.byContradiction
    intro hne
    have hlast := trimEnd_eq_nil_iff_forall.1 hnil _ (List.getLast_mem hne)
    apply getLast?_trimEnd config.restUrl.toList
    change config.base.getLast? = _
    rw [← fst_append_snd_splitOrigin config.base, List.getLast?_append_of_ne_nil _ hne,
      List.getLast?_eq_some_getLast hne, hlast]
  · intro hbare
    rw [show (splitOrigin config.base).2 = [] from hbare]
    rfl

theorem isRoot_url_iff (h : IsLocal address) :
    isRoot (config.url address) = true ↔ isRoot address = true ∧ config.IsBare := by
  rw [← h.trimEnd_eq_nil_iff, ← config.trimEnd_mount_eq_nil_iff, isRoot, isRootChars,
    config.splitOrigin_url h, List.isEmpty_iff, trimEnd_append]
  split
  · next hnil => simp [hnil]
  · next hne => simp [hne]

theorem not_covers_parent_url (h : IsLocal address) (hroot : isRoot address = true)
    (hbare : ¬ config.IsBare) : ¬ config.Covers (parent (config.url address)) := by
  have habove : isRoot (config.url address) = false := by
    rw [Bool.eq_false_iff, ne_eq, config.isRoot_url_iff h]
    exact fun hboth => hbare hboth.2
  have hlower := height_parent_lt habove
  have hsplit := congrArg List.length (fst_append_snd_splitOrigin config.base)
  unfold height at hlower
  rw [toList_parent, splitOrigin_parentChars, config.splitOrigin_url h, trimEnd_append,
    if_pos (h.trimEnd_eq_nil_iff.2 hroot)] at hlower
  dsimp only at hlower
  have hmount := length_trimEnd_le (splitOrigin config.base).2
  have hparent := length_trimEnd_append_le (splitOrigin config.base).1
    (above ((splitOrigin config.base).2 ++ address.toList))
  intro hcovers
  have hle := hcovers.length_le
  rw [keyChars, toList_parent, parentChars_eq, config.splitOrigin_url h] at hle
  simp only [List.length_append, List.length_singleton] at hle hsplit
  omega

end Config

end ResourceClient

import Mathlib.Data.List.Infix
import ResourceClient.Proofs.Address.Urls

/-!
Addresses below a base. A base that does not look like an address itself is put in front once,
however often an address is resolved. An address keeps its place below the base: its parent is
resolved to the parent of what it is resolved to.
-/
namespace ResourceClient

namespace Address

/-- On the server: it starts with a single slash, and holds no scheme separator. -/
structure IsLocal (address : String) : Prop where
  slash : address.toList.head? = some '/'
  single : ¬ ['/', '/'] <+: address.toList
  schemeless : ¬ [':', '/', '/'] <:+: address.toList

theorem splitScheme?_eq_none_iff {s : List Char} :
    splitScheme? s = none ↔ ¬ [':', '/', '/'] <:+: s := by
  fun_induction splitScheme? s with
  | case1 rest => simpa using ⟨[], rest, rfl⟩
  | case2 c rest hscheme ih =>
    rw [Option.map_eq_none_iff, ih, List.infix_cons_iff]
    have hhead : ¬ [':', '/', '/'] <+: c :: rest := by
      rintro ⟨more, hmore⟩
      obtain ⟨rfl, hrest⟩ := List.cons.inj hmore
      exact hscheme more rfl hrest.symm
    simp [hhead]
  | case3 => simp

theorem splitScheme?_append {s : List Char} {split : List Char × List Char}
    (h : splitScheme? s = some split) (t : List Char) :
    splitScheme? (s ++ t) = some (split.1, split.2 ++ t) := by
  fun_induction splitScheme? s generalizing split with
  | case1 rest =>
    obtain rfl := Option.some.inj h
    rfl
  | case2 c rest hscheme ih =>
    obtain ⟨inner, hinner, rfl⟩ := Option.map_eq_some_iff.1 h
    rw [List.cons_append, splitScheme?, ih hinner]
    · rfl
    · rintro more rfl hmore
      match rest with
      | [] => simp [splitScheme?] at hinner
      | [_] => simp [splitScheme?] at hinner
      | _ :: _ :: rest =>
        simp only [List.cons_append, List.cons.injEq] at hmore
        obtain ⟨rfl, rfl, -⟩ := hmore
        exact hscheme rest rfl rfl
  | case3 => cases h

theorem splitScheme?_append_of_none {base s : List Char} (hbase : splitScheme? base = none)
    (hlast : base.getLast? ≠ some '/') (hsingle : ¬ ['/', '/'] <+: s)
    (hs : ¬ [':', '/', '/'] <:+: s) : splitScheme? (base ++ s) = none := by
  rw [splitScheme?_eq_none_iff] at hbase ⊢
  rw [List.infix_append_iff]
  rintro (hin | hin | ⟨front, back, hsplit, hfront, hback⟩)
  · exact hbase hin
  · exact hs hin
  · rcases front with _ | ⟨a, _ | ⟨b, _ | ⟨c, front⟩⟩⟩
    · exact hs (hsplit ▸ hback.isInfix)
    · obtain ⟨-, rfl⟩ := List.cons.inj hsplit
      exact hsingle hback
    · obtain ⟨rfl, rfl, -⟩ : a = ':' ∧ b = '/' ∧ back = ['/'] := by simpa [eq_comm] using hsplit
      obtain ⟨scheme, rfl⟩ := hfront
      simp at hlast
    · obtain ⟨rfl, rfl, rfl, rfl, -⟩ : a = ':' ∧ b = '/' ∧ c = '/' ∧ front = [] ∧ back = [] := by
        simpa [eq_comm] using hsplit
      exact hbase hfront.isInfix

theorem eq_of_splitScheme? {s : List Char} {split : List Char × List Char}
    (h : splitScheme? s = some split) : s = split.1 ++ ':' :: '/' :: '/' :: split.2 := by
  fun_induction splitScheme? s generalizing split with
  | case1 rest =>
    obtain rfl := Option.some.inj h
    rfl
  | case2 c rest _ ih =>
    obtain ⟨inner, hinner, rfl⟩ := Option.map_eq_some_iff.1 h
    rw [List.cons_append, ← ih hinner]
  | case3 => cases h

theorem fst_append_snd_splitOrigin (s : List Char) :
    (splitOrigin s).1 ++ (splitOrigin s).2 = s := by
  unfold splitOrigin
  cases hscheme : splitScheme? s with
  | none => rfl
  | some split =>
    dsimp only
    rw [List.append_assoc, List.cons_append, List.cons_append, List.cons_append,
      List.takeWhile_append_dropWhile, ← eq_of_splitScheme? hscheme]

theorem takeWhile_append_slash (s below : List Char) :
    (s ++ '/' :: below).takeWhile (· ≠ '/') = s.takeWhile (· ≠ '/') := by
  induction s with
  | nil => simp
  | cons c s ih => by_cases hc : c = '/' <;> simp_all

theorem dropWhile_append_slash (s below : List Char) :
    (s ++ '/' :: below).dropWhile (· ≠ '/') = s.dropWhile (· ≠ '/') ++ '/' :: below := by
  induction s with
  | nil => simp
  | cons c s ih => by_cases hc : c = '/' <;> simp_all

theorem splitOrigin_append {base s : List Char} (hslash : s.head? = some '/')
    (h : splitScheme? base = none → splitScheme? (base ++ s) = none) :
    splitOrigin (base ++ s) = ((splitOrigin base).1, (splitOrigin base).2 ++ s) := by
  unfold splitOrigin
  cases hscheme : splitScheme? base with
  | none => rw [h hscheme]
  | some split =>
    obtain ⟨below, rfl⟩ := List.head?_eq_some_iff.1 hslash
    rw [splitScheme?_append hscheme]
    dsimp only
    rw [takeWhile_append_slash, dropWhile_append_slash]

theorem throughLastSlash_append {s t : List Char} (h : '/' ∈ t) :
    throughLastSlash (s ++ t) = s ++ throughLastSlash t := by
  have hne : t.reverse.dropWhile (· ≠ '/') ≠ [] := by
    intro hnil
    rw [List.dropWhile_eq_nil_iff] at hnil
    simpa using hnil '/' (List.mem_reverse.2 h)
  unfold throughLastSlash
  rw [List.reverse_append, List.dropWhile_append, if_neg (by simpa using hne), List.reverse_append,
    List.reverse_reverse]

theorem throughLastSlash_ne_nil {s : List Char} (h : '/' ∈ s) : throughLastSlash s ≠ [] := by
  unfold throughLastSlash
  intro hnil
  rw [List.reverse_eq_nil_iff, List.dropWhile_eq_nil_iff] at hnil
  simpa using hnil '/' (List.mem_reverse.2 h)

theorem throughLastSlash_isPrefix (s : List Char) : throughLastSlash s <+: s := by
  have hsuffix : s.reverse.dropWhile (· ≠ '/') <:+ s.reverse := List.dropWhile_suffix _
  simpa [throughLastSlash] using List.reverse_prefix.2 hsuffix

theorem slash_mem_trimEnd {s : List Char} (hslash : s.head? = some '/') (hs : trimEnd s ≠ []) :
    '/' ∈ trimEnd s := by
  have hhead := head?_of_trimEnd_eq (trimEnd_trimEnd s) (by rwa [trimEnd_trimEnd])
  exact List.mem_of_head? (hhead.trans hslash)

theorem parentChars_append (base : List Char) {s : List Char} (hslash : s.head? = some '/')
    (hs : trimEnd s ≠ []) (h : splitScheme? base = none → splitScheme? (base ++ s) = none) :
    parentChars (base ++ s) = base ++ throughLastSlash (trimEnd s) := by
  have hmem := slash_mem_trimEnd hslash hs
  have hne := throughLastSlash_ne_nil hmem
  unfold parentChars
  rw [splitOrigin_append hslash h]
  dsimp only
  rw [trimEnd_append, if_neg hs, throughLastSlash_append hmem]
  split
  · next hnil => exact absurd (List.append_eq_nil_iff.1 hnil).2 hne
  · rw [← List.append_assoc, fst_append_snd_splitOrigin]

end Address

def Config.base (config : Config) : List Char := Address.trimEnd config.restUrl.toList

namespace Config

variable (config : Config) {address : String}

theorem toList_url (h : address.toList.head? = some '/') :
    (config.url address).toList = config.base ++ address.toList := by
  unfold url Address.resolve base
  rw [String.toList_ofList, Address.resolveChars_of_head? h]

theorem url_of_head?_ne (h : address.toList.head? ≠ some '/') : config.url address = address := by
  unfold url Address.resolve
  rw [Address.resolveChars_of_head?_ne h, String.ofList_toList]

theorem head?_url (h : address.toList.head? = some '/') :
    (config.url address).toList.head? = config.base.head?.or (some '/') := by
  rw [toList_url config h, List.head?_append, h]

variable {config}

/-- What has been resolved is resolved to itself, unless the base is put in front once more. -/
theorem url_url_iff :
    config.url (config.url address) = config.url address ↔
      (address.toList.head? = some '/' → config.base.head? ≠ some '/') := by
  by_cases hslash : address.toList.head? = some '/'
  · have hhead := head?_url config hslash
    cases hbase : config.base.head? with
    | none =>
      have hself : config.url address = address := by
        rw [← String.toList_inj, toList_url config hslash, List.head?_eq_none_iff.1 hbase,
          List.nil_append]
      simp [hself]
    | some first =>
      rw [hbase, Option.or_some, Option.getD_some] at hhead
      by_cases hfirst : first = '/'
      · subst hfirst
        have hne : config.base ≠ [] := fun hnil => by simp [hnil] at hbase
        simp [← String.toList_inj, toList_url config hhead, hslash, hne]
      · have hnot : (config.url address).toList.head? ≠ some '/' := by simp [hhead, hfirst]
        simp [url_of_head?_ne config hnot, hfirst]
  · simp [url_of_head?_ne config hslash, hslash]

theorem startsWithSentinel_url (h : startsWithSentinel address = false) :
    startsWithSentinel (config.url address) = true ↔
      address.toList.head? = some '/' ∧ config.base.head? = some Path.sentinel := by
  by_cases hslash : address.toList.head? = some '/'
  · have hhead := head?_url config hslash
    have hne : '/' ≠ Path.sentinel := by decide
    cases hbase : config.base.head? <;> simp_all [startsWithSentinel]
  · simp [url_of_head?_ne config hslash, hslash, h]

/-- It is put in front once only, and nothing looks like a placeholder under it. -/
structure IsAnchored (config : Config) : Prop where
  rootless : config.base.head? ≠ some '/'
  unmarked : config.base.head? ≠ some Path.sentinel

theorem IsAnchored.url_url (h : config.IsAnchored) (address : String) :
    config.url (config.url address) = config.url address :=
  url_url_iff.2 fun _ => h.rootless

theorem IsAnchored.startsWithSentinel_url (h : config.IsAnchored)
    (haddress : startsWithSentinel address = false) :
    startsWithSentinel (config.url address) = false := by
  rw [Bool.eq_false_iff]
  intro hsentinel
  exact h.unmarked ((Config.startsWithSentinel_url haddress).1 hsentinel).2

theorem key_url_of_key {other : String} (haddress : address.toList.head? = some '/')
    (hother : other.toList.head? = some '/') (h : Address.key address = Address.key other) :
    Address.key (config.url address) = Address.key (config.url other) := by
  rw [Address.key_eq_key_iff] at h ⊢
  rw [toList_url config haddress, toList_url config hother, Address.trimEnd_append,
    Address.trimEnd_append, h]

theorem key_url_eq_iff :
    Address.key (config.url address) = Address.key address ↔
      (address.toList.head? = some '/' → config.base = []) := by
  by_cases hslash : address.toList.head? = some '/'
  · rw [Address.key_eq_key_iff, toList_url config hslash, Address.trimEnd_append]
    have hbase : Address.trimEnd config.base = config.base := Address.trimEnd_trimEnd _
    split
    · next hnil => simp [hnil, hbase, hslash]
    · simp [hslash]
  · simp [url_of_head?_ne config hslash, hslash]

end Config

namespace Address.IsLocal

variable {address : String} (h : Address.IsLocal address)
include h

theorem splitScheme?_eq : Address.splitScheme? address.toList = none :=
  Address.splitScheme?_eq_none_iff.2 h.schemeless

theorem trimEnd_eq_nil_iff :
    Address.trimEnd address.toList = [] ↔ Address.isRoot address = true := by
  rw [Address.isRoot, Address.isRootChars, Address.splitOrigin, h.splitScheme?_eq,
    List.isEmpty_iff]

theorem toList_parent (hbelow : Address.isRoot address = false) :
    (Address.parent address).toList =
      Address.throughLastSlash (Address.trimEnd address.toList) := by
  have hne : Address.trimEnd address.toList ≠ [] := by simp [h.trimEnd_eq_nil_iff, hbelow]
  rw [Address.toList_parent]
  exact Address.parentChars_append [] h.slash hne fun _ => h.splitScheme?_eq

theorem parent_of_isRoot (hroot : Address.isRoot address = true) :
    Address.parent address = "/" := by
  have hnil := h.trimEnd_eq_nil_iff.2 hroot
  rw [← String.toList_inj, Address.toList_parent, Address.parentChars, Address.splitOrigin,
    h.splitScheme?_eq]
  dsimp only
  rw [hnil]
  rfl

theorem head?_parent : (Address.parent address).toList.head? = some '/' := by
  cases hroot : Address.isRoot address with
  | true => rw [h.parent_of_isRoot hroot]; rfl
  | false =>
    have hne : Address.trimEnd address.toList ≠ [] := by simp [h.trimEnd_eq_nil_iff, hroot]
    have hmem := Address.slash_mem_trimEnd h.slash hne
    have hparent := h.toList_parent hroot
    obtain ⟨below, hbelow⟩ : (Address.parent address).toList <+: address.toList := by
      rw [hparent]
      exact (Address.throughLastSlash_isPrefix _).trans (Address.trimEnd_isPrefix _)
    have hsome : (Address.parent address).toList ≠ [] := by
      rw [hparent]
      exact Address.throughLastSlash_ne_nil hmem
    rw [← h.slash, ← hbelow, List.head?_append_of_ne_nil _ hsome]

theorem parent_url (config : Config) (hbelow : Address.isRoot address = false) :
    Address.parent (config.url address) = config.url (Address.parent address) := by
  have hne : Address.trimEnd address.toList ≠ [] := by simp [h.trimEnd_eq_nil_iff, hbelow]
  rw [← String.toList_inj, Config.toList_url config h.head?_parent, h.toList_parent hbelow,
    Address.toList_parent, Config.toList_url config h.slash]
  refine Address.parentChars_append _ h.slash hne fun hbase => ?_
  exact Address.splitScheme?_append_of_none hbase (Address.getLast?_trimEnd _) h.single
    h.schemeless

/-- The server has nothing above its root, wherever the root itself is. -/
theorem key_url_parent (config : Config) :
    Address.key (config.url (Address.parent address)) = Address.key (config.url address) ∨
      Address.key (config.url (Address.parent address)) =
        Address.key (Address.parent (config.url address)) := by
  cases hroot : Address.isRoot address with
  | true =>
    refine .inl (Config.key_url_of_key h.head?_parent h.slash ?_)
    rw [h.parent_of_isRoot hroot, Address.key_eq_key_iff, h.trimEnd_eq_nil_iff.2 hroot]
    rfl
  | false => exact .inr (congrArg Address.key (h.parent_url config hroot)).symm

end Address.IsLocal

/-- Written relative to the server or as a URL, with any number of slashes at the end. -/
def Config.Spells (config : Config) (address written : String) : Prop :=
  ∃ relative : String, relative.toList.head? = some '/' ∧
    Address.key relative = Address.key address ∧
      (written = relative ∨ written = config.url relative)

namespace Config.IsAnchored

variable {config : Config} {address written : String} (h : config.IsAnchored)
include h

theorem url_of_spells (hspells : config.Spells address written) :
    ∃ relative : String, relative.toList.head? = some '/' ∧
      Address.key relative = Address.key address ∧ config.url written = config.url relative := by
  obtain ⟨relative, hslash, hkey, rfl | rfl⟩ := hspells
  · exact ⟨written, hslash, hkey, rfl⟩
  · exact ⟨relative, hslash, hkey, h.url_url relative⟩

theorem key_url_of_spells (haddress : address.toList.head? = some '/')
    (hspells : config.Spells address written) :
    Address.key (config.url written) = Address.key (config.url address) := by
  obtain ⟨relative, hslash, hkey, hurl⟩ := h.url_of_spells hspells
  rw [hurl, Config.key_url_of_key hslash haddress hkey]

theorem unmarked_of_spells (hspells : config.Spells address written) :
    startsWithSentinel (config.url written) = false := by
  obtain ⟨relative, hslash, -, hurl⟩ := h.url_of_spells hspells
  rw [hurl]
  apply h.startsWithSentinel_url
  rw [startsWithSentinel, hslash]
  rfl

end Config.IsAnchored

end ResourceClient

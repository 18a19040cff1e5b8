import Mathlib.Data.List.TakeWhile
import ResourceClient.Config
import ResourceClient.Path

namespace ResourceClient

namespace Address

theorem trimEnd_append (s t : List Char) :
    trimEnd (s ++ t) = if trimEnd t = [] then trimEnd s else s ++ trimEnd t := by
  unfold trimEnd
  rw [List.reverse_append, List.dropWhile_append]
  by_cases h : t.reverse.dropWhile (· = '/') = [] <;> simp [h]

theorem trimEnd_isPrefix (s : List Char) : trimEnd s <+: s := by
  have hsuffix : s.reverse.dropWhile (fun c => decide (c = '/')) <:+ s.reverse :=
    List.dropWhile_suffix _
  simpa [trimEnd] using List.reverse_prefix.2 hsuffix

theorem getLast?_trimEnd (s : List Char) : (trimEnd s).getLast? ≠ some '/' := by
  intro h
  rw [trimEnd, List.getLast?_reverse] at h
  have hnot := List.head?_dropWhile_not (· = '/') s.reverse
  rw [h] at hnot
  simp at hnot

theorem head?_of_trimEnd_eq {s t : List Char} (h : trimEnd s = trimEnd t) (hs : trimEnd s ≠ []) :
    s.head? = t.head? := by
  obtain ⟨first, others, hfirst⟩ := List.exists_cons_of_ne_nil hs
  obtain ⟨slashes, hsplit⟩ := trimEnd_isPrefix s
  obtain ⟨more, hother⟩ := trimEnd_isPrefix t
  rw [hfirst] at hsplit
  rw [← h, hfirst] at hother
  rw [← hsplit, ← hother]
  rfl

theorem resolveChars_of_head? {base s : List Char} (h : s.head? = some '/') :
    resolveChars base s = trimEnd base ++ s := by
  obtain ⟨rest, rfl⟩ := List.head?_eq_some_iff.1 h
  rfl

theorem trimEnd_resolveChars_of_nil {base s : List Char}
    (h : trimEnd (resolveChars base s) = []) :
    trimEnd (resolveChars base (resolveChars base s)) = [] := by
  by_cases hslash : s.head? = some '/'
  · have hbase : trimEnd base = [] := by
      rw [resolveChars_of_head? hslash, trimEnd_append] at h
      split at h
      · rwa [trimEnd_trimEnd] at h
      · exact (List.append_eq_nil_iff.1 h).1
    have hself : resolveChars base s = s := by
      rw [resolveChars_of_head? hslash, hbase, List.nil_append]
    rw [hself] at h ⊢
    rw [hself, h]
  · rw [resolveChars_of_head?_ne hslash] at h ⊢
    rw [resolveChars_of_head?_ne hslash, h]

theorem trimEnd_resolveChars_of_ne_nil {base s t : List Char} (h : trimEnd s = trimEnd t)
    (hs : trimEnd s ≠ []) : trimEnd (resolveChars base s) = trimEnd (resolveChars base t) := by
  have hhead := head?_of_trimEnd_eq h hs
  by_cases hslash : s.head? = some '/'
  · rw [resolveChars_of_head? hslash, resolveChars_of_head? (hhead ▸ hslash), trimEnd_append,
      trimEnd_append, h]
  · rw [resolveChars_of_head?_ne hslash, resolveChars_of_head?_ne (hhead ▸ hslash), h]

theorem trimEnd_resolveChars_congr {base s t : List Char}
    (h : trimEnd (resolveChars base s) = trimEnd (resolveChars base t)) :
    trimEnd (resolveChars base (resolveChars base s)) =
      trimEnd (resolveChars base (resolveChars base t)) := by
  by_cases hnil : trimEnd (resolveChars base s) = []
  · rw [trimEnd_resolveChars_of_nil hnil, trimEnd_resolveChars_of_nil (h ▸ hnil)]
  · exact trimEnd_resolveChars_of_ne_nil h hnil

theorem eq_slash_of_trimEnd_nil {s : List Char} (h : trimEnd s = []) : ∀ c ∈ s, c = '/' := by
  intro c hc
  rw [trimEnd, List.reverse_eq_nil_iff, List.dropWhile_eq_nil_iff] at h
  simpa using h c (List.mem_reverse.2 hc)

end Address

theorem Config.key_url_congr {config : Config} {a b : String}
    (h : Address.key (config.url a) = Address.key (config.url b)) :
    Address.key (config.url (config.url a)) = Address.key (config.url (config.url b)) := by
  rw [Address.key_eq_key_iff] at h ⊢
  simp only [Config.url, Address.resolve, String.toList_ofList] at h ⊢
  exact Address.trimEnd_resolveChars_congr h

theorem startsWithSentinel_congr {a b : String} (h : Address.key a = Address.key b) :
    startsWithSentinel a = startsWithSentinel b := by
  rw [Address.key_eq_key_iff] at h
  unfold startsWithSentinel
  by_cases hnil : Address.trimEnd a.toList = []
  · have hplain : ∀ s : String, Address.trimEnd s.toList = [] →
        s.toList.head? ≠ some Path.sentinel := by
      intro s hs hsentinel
      have hslash := Address.eq_slash_of_trimEnd_nil hs _ (List.mem_of_head? hsentinel)
      exact absurd hslash (by decide)
    rw [decide_eq_false (hplain a hnil), decide_eq_false (hplain b (h ▸ hnil))]
  · rw [Address.head?_of_trimEnd_eq h hnil]

end ResourceClient

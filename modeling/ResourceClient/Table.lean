/-!
String-keyed tables kept in key order, so walking one visits its keys by code point. The
operations keep the order, and ordered tables with the same bindings are the same list. The keys
of a table serve as an ordered set.
-/
namespace ResourceClient

abbrev Table (α : Type u) := List (String × α)

namespace Table

def get? (t : Table α) (key : String) : Option α := t.lookup key

def has (t : Table α) (key : String) : Bool := (t.get? key).isSome

def insert (key : String) (value : α) : Table α → Table α
  | [] => [(key, value)]
  | (k, v) :: rest =>
    if key < k then (key, value) :: (k, v) :: rest
    else if key = k then (key, value) :: rest
    else (k, v) :: insert key value rest

def erase (key : String) (t : Table α) : Table α := t.filter (·.1 ≠ key)

/-- Later pairs replace earlier ones. -/
def ofPairs (pairs : List (String × α)) : Table α :=
  pairs.foldl (fun t p => insert p.1 p.2 t) []

def keys (t : Table α) : List String := t.map (·.1)

def distinct (strings : List String) : List String :=
  (ofPairs (strings.map fun s => (s, ()))).keys

@[simp] theorem get?_nil (key : String) : get? ([] : Table α) key = none := rfl

theorem get?_cons (k : String) (v : α) (t : Table α) (key : String) :
    get? ((k, v) :: t) key = if key = k then some v else get? t key := by
  by_cases h : key = k <;> simp [get?, List.lookup_cons, h, beq_eq_false_iff_ne.2]

theorem get?_insert (key : String) (value : α) (t : Table α) (other : String) :
    get? (insert key value t) other = if other = key then some value else get? t other := by
  induction t with
  | nil => simp [insert, get?_cons]
  | cons p t ih =>
    obtain ⟨k, v⟩ := p
    simp only [insert]
    split
    · simp [get?_cons]
    · split
      · next h => subst h; by_cases ho : other = key <;> simp [get?_cons, ho]
      · next h =>
        by_cases hk : other = k
        · subst hk; simp [get?_cons, Ne.symm h]
        · simp [get?_cons, hk, ih]

@[simp] theorem get?_insert_self (key : String) (value : α) (t : Table α) :
    get? (insert key value t) key = some value := by simp [get?_insert]

theorem get?_erase (key : String) (t : Table α) (other : String) :
    get? (erase key t) other = if other = key then none else get? t other := by
  induction t with
  | nil => simp [erase]
  | cons p t ih =>
    obtain ⟨k, v⟩ := p
    by_cases hk : k = key
    · subst hk
      by_cases ho : other = k
      · simpa [erase, ho] using ih
      · simpa [erase, get?_cons, ho] using ih
    · have hcons : erase key ((k, v) :: t) = (k, v) :: erase key t := by simp [erase, hk]
      rw [hcons]
      by_cases ho : other = k
      · subst ho; simp [get?_cons, hk]
      · simp [get?_cons, ho, ih]

def Sorted (t : Table α) : Prop := t.Pairwise fun p q => p.1 < q.1

theorem mem_insert {key : String} {value : α} {t : Table α} {p : String × α}
    (h : p ∈ insert key value t) : p = (key, value) ∨ p ∈ t := by
  induction t with
  | nil => simpa [insert] using h
  | cons q t ih =>
    obtain ⟨k, v⟩ := q
    simp only [insert] at h
    split at h
    · simpa using h
    · split at h
      · rcases List.mem_cons.1 h with h | h
        · exact .inl h
        · exact .inr (List.mem_cons_of_mem _ h)
      · rcases List.mem_cons.1 h with h | h
        · exact .inr (h ▸ List.mem_cons_self)
        · exact (ih h).imp id (List.mem_cons_of_mem _)

theorem sorted_insert (key : String) (value : α) {t : Table α} (h : Sorted t) :
    Sorted (insert key value t) := by
  induction t with
  | nil => simp [insert, Sorted]
  | cons q t ih =>
    obtain ⟨k, v⟩ := q
    obtain ⟨hhead, htail⟩ := List.pairwise_cons.1 h
    simp only [insert]
    split
    · next hlt =>
      refine List.pairwise_cons.2 ⟨fun p hp => ?_, h⟩
      rcases List.mem_cons.1 hp with rfl | hp
      · exact hlt
      · exact String.lt_trans hlt (hhead p hp)
    · next hlt =>
      split
      · next heq => exact List.pairwise_cons.2 ⟨fun p hp => heq ▸ hhead p hp, htail⟩
      · next hne =>
        refine List.pairwise_cons.2 ⟨fun p hp => ?_, ih htail⟩
        rcases mem_insert hp with rfl | hp
        · exact String.not_le.1 fun hle => hne (String.le_antisymm hle (String.not_lt.1 hlt))
        · exact hhead p hp

theorem sorted_ofPairs (pairs : List (String × α)) : Sorted (ofPairs pairs) := by
  suffices h : ∀ t : Table α, Sorted t → Sorted (pairs.foldl (fun t p => insert p.1 p.2 t) t) from
    h [] List.Pairwise.nil
  induction pairs with
  | nil => exact fun t ht => ht
  | cons p pairs ih => exact fun t ht => ih _ (sorted_insert p.1 p.2 ht)

theorem get?_eq_none_of_lt {key : String} {t : Table α} (h : ∀ p ∈ t, key < p.1) :
    get? t key = none := by
  induction t with
  | nil => rfl
  | cons p t ih =>
    obtain ⟨k, v⟩ := p
    have hne : key ≠ k := fun heq =>
      String.lt_irrefl k (heq ▸ h (k, v) List.mem_cons_self)
    rw [get?_cons, if_neg hne]
    exact ih fun q hq => h q (List.mem_cons_of_mem _ hq)

private theorem get?_tail {k : String} {v : α} {t : Table α} (h : Sorted ((k, v) :: t))
    (key : String) : get? t key = if key = k then none else get? ((k, v) :: t) key := by
  split
  · next heq => exact heq ▸ get?_eq_none_of_lt (List.pairwise_cons.1 h).1
  · next hne => rw [get?_cons, if_neg hne]

private theorem not_lt_of_get?_eq {k l : String} {v w : α} {t u : Table α}
    (hu : Sorted ((l, w) :: u))
    (h : ∀ key, get? ((k, v) :: t) key = get? ((l, w) :: u) key) : ¬ k < l := fun hlt => by
  have hnone : get? ((l, w) :: u) k = none := get?_eq_none_of_lt fun p hp => by
    rcases List.mem_cons.1 hp with rfl | hp
    · exact hlt
    · exact String.lt_trans hlt ((List.pairwise_cons.1 hu).1 p hp)
  simp [← h k, get?_cons] at hnone

/-- An ordered table is its bindings. -/
theorem ext_of_sorted {t u : Table α} (ht : Sorted t) (hu : Sorted u)
    (h : ∀ key, get? t key = get? u key) : t = u := by
  induction t generalizing u with
  | nil =>
    cases u with
    | nil => rfl
    | cons q u =>
      obtain ⟨l, w⟩ := q
      simpa [get?_cons] using h l
  | cons p t ih =>
    obtain ⟨k, v⟩ := p
    cases u with
    | nil => simpa [get?_cons] using h k
    | cons q u =>
      obtain ⟨l, w⟩ := q
      have hkl : k = l := String.le_antisymm
        (String.not_lt.1 (not_lt_of_get?_eq ht fun key => (h key).symm))
        (String.not_lt.1 (not_lt_of_get?_eq hu h))
      subst hkl
      have hvw : v = w := by simpa [get?_cons] using h k
      subst hvw
      rw [ih (List.pairwise_cons.1 ht).2 (List.pairwise_cons.1 hu).2 fun key => by
        rw [get?_tail ht, get?_tail hu, h]]

theorem mem_keys {t : Table α} {key : String} : key ∈ t.keys ↔ (t.get? key).isSome = true := by
  induction t with
  | nil => simp [keys]
  | cons p t ih =>
    obtain ⟨k, v⟩ := p
    rw [keys, List.map_cons, List.mem_cons, get?_cons]
    split
    · next h => exact iff_of_true (.inl h) rfl
    · next h => exact (or_iff_right h).trans ih

theorem get?_foldl_units (strings : List String) (t : Table Unit) (key : String) :
    get? ((strings.map fun s => (s, ())).foldl (fun t p => insert p.1 p.2 t) t) key =
      if key ∈ strings then some () else get? t key := by
  induction strings generalizing t with
  | nil => rfl
  | cons s rest ih =>
    rw [List.map_cons, List.foldl_cons, ih, get?_insert]
    by_cases hrest : key ∈ rest <;> simp [hrest, List.mem_cons]

@[simp] theorem mem_distinct {strings : List String} {s : String} :
    s ∈ distinct strings ↔ s ∈ strings := by
  rw [distinct, mem_keys, ofPairs, get?_foldl_units]
  by_cases h : s ∈ strings <;> simp [h]

theorem distinct_congr {strings others : List String} (h : ∀ s, s ∈ strings ↔ s ∈ others) :
    distinct strings = distinct others := by
  unfold distinct
  refine congrArg keys (ext_of_sorted (sorted_ofPairs _) (sorted_ofPairs _) fun key => ?_)
  rw [ofPairs, ofPairs, get?_foldl_units, get?_foldl_units]
  simp only [h key]

end Table

end ResourceClient

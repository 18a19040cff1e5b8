/-!
Addresses are the strings a path is written as, relative (`/a/b/`) or absolute (`http://h/a/b/`).
All operations work on the part after the origin, so a base URL never takes part in a parent walk.
-/
namespace ResourceClient.Address

def trimEnd (s : List Char) : List Char := (s.reverse.dropWhile (· = '/')).reverse

def trimStart (s : List Char) : List Char := s.dropWhile (· = '/')

/-- Splits at the first scheme separator, which is left out. -/
def splitScheme? : List Char → Option (List Char × List Char)
  | ':' :: '/' :: '/' :: rest => some ([], rest)
  | c :: rest => (splitScheme? rest).map fun p => (c :: p.1, p.2)
  | [] => none

/-- Origin and rest; an address without a scheme is all rest. -/
def splitOrigin (s : List Char) : List Char × List Char :=
  match splitScheme? s with
  | some (scheme, rest) =>
    (scheme ++ ':' :: '/' :: '/' :: rest.takeWhile (· ≠ '/'), rest.dropWhile (· ≠ '/'))
  | none => ([], s)

def throughLastSlash (s : List Char) : List Char := (s.reverse.dropWhile (· ≠ '/')).reverse

def keyChars (s : List Char) : List Char := trimEnd s ++ ['/']

def parentChars (s : List Char) : List Char :=
  let (origin, rest) := splitOrigin s
  match throughLastSlash (trimEnd rest) with
  | [] => origin ++ ['/']
  | above => origin ++ above

def isRootChars (s : List Char) : Bool := (trimEnd (splitOrigin s).2).isEmpty

/-- The form under which an address is cached and subscribed: exactly one slash at the end. -/
def key (address : String) : String := .ofList (keyChars address.toList)

/-- The collection above; the root is its own parent. -/
def parent (address : String) : String := .ofList (parentChars address.toList)

def isRoot (address : String) : Bool := isRootChars address.toList

def join (base segment : String) : String :=
  .ofList (trimEnd base.toList ++ '/' :: trimStart segment.toList)

/-- Only addresses that start with a slash are placed under the base. -/
def resolveChars (base : List Char) : List Char → List Char
  | '/' :: rest => trimEnd base ++ '/' :: rest
  | address => address

def resolve (base address : String) : String := .ofList (resolveChars base.toList address.toList)

def underBase (base segment : String) : String :=
  .ofList (trimEnd base.toList ++ '/' :: trimEnd (trimStart segment.toList) ++ ['/'])

theorem resolveChars_of_head?_ne {base address : List Char} (h : address.head? ≠ some '/') :
    resolveChars base address = address := by
  unfold resolveChars
  split
  · exact absurd rfl h
  · rfl

theorem trimEnd_append_slash (s : List Char) : trimEnd (s ++ ['/']) = trimEnd s := by
  simp [trimEnd]

private theorem trimStart_trimStart (s : List Char) : trimStart (trimStart s) = trimStart s := by
  induction s with
  | nil => rfl
  | cons c s ih => by_cases h : c = '/' <;> simp_all [trimStart]

theorem trimEnd_trimEnd (s : List Char) : trimEnd (trimEnd s) = trimEnd s := by
  simpa [trimEnd, trimStart] using trimStart_trimStart s.reverse

@[simp] theorem trimEnd_keyChars (s : List Char) : trimEnd (keyChars s) = trimEnd s := by
  rw [keyChars, trimEnd_append_slash, trimEnd_trimEnd]

@[simp] theorem toList_key (address : String) : (key address).toList = keyChars address.toList := by
  simp [key]

@[simp] theorem toList_parent (address : String) :
    (parent address).toList = parentChars address.toList := by simp [parent]

theorem key_eq_key_iff {a b : String} : key a = key b ↔ trimEnd a.toList = trimEnd b.toList := by
  rw [← String.toList_inj, toList_key, toList_key, keyChars, keyChars, List.append_left_inj]

@[simp] theorem key_key (address : String) : key (key address) = key address := by
  rw [key_eq_key_iff, toList_key, trimEnd_keyChars]

end ResourceClient.Address

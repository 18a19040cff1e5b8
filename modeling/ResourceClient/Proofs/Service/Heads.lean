import ResourceClient.Proofs.Service.Attempts
import ResourceClient.Proofs.Service.Reads
import ResourceClient.Proofs.Wire.Acceptance

/-!
The head that a tag names. Only the texts among its elements are looked at, and there has to be just
one of them, or else the lookup fails and tells them all. Between two texts it does not choose; but
an element that is no text, such as a resource in place of its path, is not counted.
-/
namespace ResourceClient

def Wire.tagElements (body : Json) : Option Json :=
  ((body.field? "data").bind (·.field? Known.tag)).bind (·.field? "elements")

namespace Service

/-- The texts among elements; a single text is a list of one. -/
inductive HoldsTexts : Option Json → List String → Prop where
  | one (text : String) : HoldsTexts (some (.string text)) [text]
  | among {items : List Json} {texts : List String}
      (texts_eq : items.filter Json.isString = texts.map .string) :
      HoldsTexts (some (.array items)) texts
  | nowhere {elements : Option Json} (noText : ∀ text, elements ≠ some (.string text))
      (noList : ∀ items, elements ≠ some (.array items)) : HoldsTexts elements []

/-- A list of one text and, beside it, elements of other kinds. -/
def PassesOver (elements : Option Json) : Prop :=
  ∃ items, elements = some (.array items) ∧ items.length ≠ 1 ∧
    (items.filter Json.isString).length = 1

structure Finds (item : String) (elements : Option Json) (found : Except Fault Path) : Prop where
  head : ∀ path, found = .ok path ↔ ∃ text, HoldsTexts elements [text] ∧ Path.Spells text path
  illegible : ∀ text, found = .error (.invalidPath text) ↔
    HoldsTexts elements [text] ∧ ∀ path, ¬ Path.Spells text path
  forked : ∀ heads, found = .error (.noSingleHead item heads) ↔
    HoldsTexts elements heads ∧ heads.length ≠ 1
  alone : ¬ PassesOver elements → ∀ path, found = .ok path → ∃ text, Path.Spells text path ∧
    (elements = some (.string text) ∨ elements = some (.array [.string text]))
  counted : ¬ PassesOver elements → ∀ items, elements = some (.array items) → items.length ≠ 1 →
    ∃ heads, found = .error (.noSingleHead item heads)

variable {elements : Option Json} {texts : List String} {item : String}

def textsOf : Option Json → List String
  | some (.array items) => items.filterMap Json.string?
  | some (.string text) => [text]
  | _ => []

theorem map_string_filterMap (items : List Json) :
    (items.filterMap Json.string?).map .string = items.filter Json.isString := by
  induction items with
  | nil => rfl
  | cons first rest ih =>
    rw [List.filterMap_cons, List.filter_cons]
    cases first with
    | string text => exact congrArg (Json.string text :: ·) ih
    | _ => exact ih

theorem holdsTexts_iff : HoldsTexts elements texts ↔ textsOf elements = texts := by
  have hinj : Function.Injective Json.string := fun _ _ => Json.string.inj
  constructor
  · rintro (text | heq | ⟨noText, noList⟩)
    · rfl
    · rw [← map_string_filterMap] at heq
      exact hinj.list_map heq
    · unfold textsOf
      split
      · exact absurd rfl (noList _)
      · exact absurd rfl (noText _)
      · rfl
  · rintro rfl
    unfold textsOf
    split
    · exact .among (map_string_filterMap _).symm
    · exact .one _
    · next hlist htext => exact .nowhere htext hlist

theorem textsOf_tagElements {schema : Schema} {body : Json} {tag : Resource}
    (h : Wire.TellsData schema (body.field? "data") tag.data) :
    ((tag.sheet? Known.tag).map (Sheet.stringList · "elements")).getD [] =
      textsOf (Wire.tagElements body) := by
  unfold Wire.tagElements Resource.sheet?
  generalize body.field? "data" = value at h
  generalize tag.data = data at h
  cases h with
  | absent absent =>
    rcases absent with rfl | rfl
    · rfl
    · rfl
  | sheets refers =>
    rw [Option.bind_some, Wire.field?_ofSheets]
    cases Table.get? data Known.tag with
    | none => rfl
    | some sheet => rfl

theorem soleHead_eq_ok_iff {heads : List String} {path : Path} :
    soleHead item heads = .ok path ↔ ∃ text, heads = [text] ∧ Path.Spells text path := by
  constructor
  · intro h
    obtain ⟨text, rfl, hparse⟩ := soleHead_eq_ok h
    exact ⟨text, rfl, Path.parse?_eq_some_iff.1 hparse⟩
  · rintro ⟨text, rfl, hspells⟩
    simp only [soleHead, Path.parse?_eq_some_iff.2 hspells]

theorem soleHead_eq_invalidPath_iff {heads : List String} {text : String} :
    soleHead item heads = .error (.invalidPath text) ↔
      heads = [text] ∧ ∀ path, ¬ Path.Spells text path := by
  simp only [← Path.parse?_eq_some_iff]
  constructor
  · intro h
    unfold soleHead at h
    split at h
    · next head =>
      cases hparse : Path.parse? head with
      | some path =>
        rw [hparse] at h
        cases h
      | none =>
        rw [hparse] at h
        cases h
        exact ⟨rfl, fun path hsome => nomatch hparse.symm.trans hsome⟩
    · cases h
  · rintro ⟨rfl, hno⟩
    simp only [soleHead, Option.eq_none_iff_forall_ne_some.2 hno]

theorem soleHead_eq_noSingleHead_iff {heads listed : List String} :
    soleHead item heads = .error (.noSingleHead item listed) ↔
      heads = listed ∧ listed.length ≠ 1 := by
  unfold soleHead
  split
  · next head =>
    constructor
    · intro h
      split at h <;> cases h
    · rintro ⟨rfl, hlength⟩
      exact absurd rfl hlength
  · next hother =>
    constructor
    · rintro ⟨⟩
      refine ⟨rfl, fun hlength => ?_⟩
      obtain ⟨head, rfl⟩ := List.length_eq_one_iff.1 hlength
      exact hother head rfl
    · rintro ⟨rfl, -⟩
      rfl

theorem eq_of_textsOf_singleton {text : String} (h : textsOf elements = [text])
    (hall : ¬ PassesOver elements) :
    elements = some (.string text) ∨ elements = some (.array [.string text]) := by
  unfold textsOf at h
  split at h
  · next items =>
    have hfilter : items.filter Json.isString = [.string text] := by
      rw [← map_string_filterMap, h]
      rfl
    have hlength : items.length = 1 := by
      by_contra hne
      exact hall ⟨items, rfl, hne, by rw [hfilter]; rfl⟩
    obtain ⟨entry, rfl⟩ := List.length_eq_one_iff.1 hlength
    have hentry : .string text ∈ [entry].filter Json.isString := hfilter ▸ List.mem_cons_self
    rw [List.mem_singleton.1 (List.mem_filter.1 hentry).1]
    exact .inr rfl
  · exact .inl (by rw [(List.cons.inj h).1])
  · cases h

theorem finds_soleHead (item : String) (elements : Option Json) :
    Finds item elements (soleHead item (textsOf elements)) where
  head _ := by simp only [soleHead_eq_ok_iff, holdsTexts_iff]
  illegible _ := by rw [soleHead_eq_invalidPath_iff, holdsTexts_iff]
  forked _ := by rw [soleHead_eq_noSingleHead_iff, holdsTexts_iff]
  alone hall path hfound := by
    obtain ⟨text, htexts, hspells⟩ := soleHead_eq_ok_iff.1 hfound
    exact ⟨text, hspells, eq_of_textsOf_singleton htexts hall⟩
  counted hall items helements hlength := by
    refine ⟨textsOf elements, soleHead_eq_noSingleHead_iff.2 ⟨rfl, fun hone => ?_⟩⟩
    rw [helements, textsOf] at hone
    refine hall ⟨items, helements, hlength, ?_⟩
    rw [← map_string_filterMap, List.length_map, hone]

variable {σ : Type} (net : Network σ) (meanwhile : World σ → World σ) (w : World σ)

/-- The tag of the item is asked for, and answered with what can be taken in. -/
def AnswersTag (item : String) (body : Json) : Prop :=
  ∃ request response,
    let answered := w.exchangeAmid net meanwhile request
    w.client.fetchRequest { url := w.client.url (Address.join item Known.last) } = .ok request ∧
      answered.1 = .ok response ∧ response.successBody = .ok body ∧
      (Wire.importResource answered.2.client.schema body answered.2.client.names).1.isOk = true

variable {net meanwhile w} {body : Json}

theorem fst_newest (h : AnswersTag net meanwhile w item body) :
    ((newest (.real item)).runAmid net meanwhile w).1 =
      soleHead item (textsOf (Wire.tagElements body)) := by
  obtain ⟨request, response, hrequest, hanswer, hbody, himport⟩ := h
  obtain ⟨there, hexchange⟩ :
      ∃ there, w.exchangeAmid net meanwhile request = (.ok response, there) :=
    ⟨_, Prod.ext hanswer rfl⟩
  rw [hexchange] at himport
  cases hread : Wire.importResource there.client.schema body there.client.names with
  | mk result later =>
    rw [hread] at himport
    cases result with
    | error fault => cases himport
    | ok tag =>
      have htells := Wire.importResource_eq_ok_iff.1 hread
      have htag : (there.client.absorb { url := w.client.url (Address.join item Known.last) }
          (.ok response)).1 = .ok tag := by
        rw [Client.fst_absorb rfl]
        change response.successBody.bind _ = _
        rw [hbody]
        exact congrArg Prod.fst hread
      rw [runAmid_newest, runAmid_fetch, hrequest]
      simp only [hexchange, htag, textsOf_tagElements htells.data]

/-- What the lookup of a head returns is settled by the elements of the tag alone. -/
theorem newest_finds (h : AnswersTag net meanwhile w item body) :
    Finds item (Wire.tagElements body) ((newest (.real item)).runAmid net meanwhile w).1 := by
  rw [fst_newest h]
  exact finds_soleHead item _

def tagged (elements : List Json) : Response := .ofJson 200 (.object [
  ("content_type", .string "tag"),
  ("data", .object [(Known.tag, .object [("elements", .array elements)])]),
  ("path", .string "/item/LAST/")])

def tags (elements : List Json) : Network Unit where
  answer _ remote := (.ok (tagged elements), remote)

def reader : World Unit where
  client := {
    schema := {
      sheets := [(Known.tag, { fields := [("elements",
        { name := "elements", readable := true, valueType := Known.absolutePath })] })]
      resources := [("tag", {})] } }
  remote := ()

theorem newest_finds_fork :
    let net := tags [.string "/item/v1/", .string "/item/v2/"]
    ∃ body, AnswersTag net id reader "/item/" body ∧
      ((newest (.real "/item/")).runAmid net id reader).1 =
        .error (.noSingleHead "/item/" ["/item/v1/", "/item/v2/"]) := by
  intro net
  have hsends : (reader.client.fetchRequest
      { url := reader.client.url (Address.join "/item/" Known.last) }).isOk = true := by
    decide +kernel
  have hread : (tagged [.string "/item/v1/", .string "/item/v2/"]).successBody.toOption.map
      (fun body => (textsOf (Wire.tagElements body),
        (Wire.importResource reader.client.schema body reader.client.names).1.isOk)) =
        some (["/item/v1/", "/item/v2/"], true) := by
    decide +kernel
  cases hrequest : reader.client.fetchRequest
      { url := reader.client.url (Address.join "/item/" Known.last) } with
  | error fault =>
    rw [hrequest] at hsends
    cases hsends
  | ok request =>
    cases hbody : (tagged [.string "/item/v1/", .string "/item/v2/"]).successBody with
    | error fault =>
      rw [hbody] at hread
      cases hread
    | ok body =>
      rw [hbody] at hread
      obtain ⟨htexts, himport⟩ := Prod.mk.inj (Option.some.inj hread)
      have hanswers : AnswersTag net id reader "/item/" body :=
        ⟨request, _, hrequest, rfl, hbody, himport⟩
      exact ⟨body, hanswers,
        ((newest_finds hanswers).forked _).2 ⟨holdsTexts_iff.2 htexts, by decide⟩⟩

/-- Of two elements, one is a resource in place of its path; the other one is found. -/
theorem newest_guesses :
    let elements : List Json := [.string "/item/v1/",
      .object [("content_type", .string "version"), ("path", .string "/item/v2/")]]
    let told := (tagged elements).successBody.toOption.bind Wire.tagElements
    let found := ((newest (.real "/item/")).runAmid (tags elements) id reader).1
    (match told with
      | some (.array items) => items.map Json.isString
      | _ => []) = [true, false] ∧
      found.toOption = some (.real "/item/v1/") := by
  decide +kernel

end Service

end ResourceClient

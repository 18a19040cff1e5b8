import ResourceClient.Proofs.Client.Polls
import ResourceClient.Proofs.Wire.Relistings

/-!
Imports that keep the elements of a listing. They give what the listing would give in the form that
was asked for, and leave what is left by plain imports, of the pool and then of its elements one by
one, each of which is put into the cache.
-/
namespace ResourceClient.Client

open Wire

/-- Imports an element that came with its content, and puts it into the cache. -/
def keepElement (c : Client) (element : Json) : Client :=
  if element.isObject then
    match c.importWire none element with
    | (.ok resource, c) => c.mapCache (LiveCache.put resource.path.toString "" resource)
    | (.error _, c) => c
  else c

variable {c : Client}

theorem keepElement_of_import {element : Json} {r : Resource} {names : Names}
    (hobject : element.isObject = true)
    (h : importResource c.schema element c.names = (.ok r, names)) :
    c.keepElement element = ({ c with names } : Client).seed ⟨r.path.toString, r⟩ := by
  unfold keepElement importWire
  rw [if_pos hobject, h]
  rfl

theorem exists_listElements {items : List Json} (hitems : ∀ e ∈ items, IsElement c.schema e)
    (listed : Listed) (hnames : listed.names = c.names) :
    ∃ paths seeds names,
      listElements c.schema items listed =
        (none, { paths := listed.paths ++ paths, seeds := listed.seeds ++ seeds, names }) ∧
      items.map shown = paths.map Json.string ∧
      items.foldl keepElement c = seeds.foldl (fun c s => c.seed s) { c with names } := by
  induction items generalizing c listed with
  | nil =>
    refine ⟨[], [], c.names, ?_, rfl, rfl⟩
    rw [listElements, ← hnames, List.append_nil, List.append_nil]
  | cons element rest ih =>
    obtain ⟨helement, hrest⟩ := List.forall_mem_cons.1 hitems
    rcases helement with hstring | ⟨hobject, names, r, himport⟩
    · cases element with
      | string path =>
        obtain ⟨paths, seeds, drawn, hlisted, hshown, hkept⟩ :=
          ih hrest { listed with paths := listed.paths ++ [path] } hnames
        refine ⟨path :: paths, seeds, drawn, ?_, ?_, hkept⟩
        · rw [listElements, hlisted, List.append_assoc]
          rfl
        · rw [List.map_cons, hshown]
          rfl
      | _ => cases hstring
    · obtain ⟨s, later, hread⟩ := exists_import himport c.names
      have hkeep := keepElement_of_import hobject hread
      have hshown : shown element = .string s.path.toString :=
        shown_of_importResource (congrArg Prod.fst hread)
      obtain ⟨paths, seeds, drawn, hlisted, hmore, hkept⟩ :=
        ih (c := c.keepElement element) (by rwa [hkeep])
          { paths := listed.paths ++ [s.path.toString]
            seeds := listed.seeds ++ [⟨s.path.toString, s⟩]
            names := later } (by rw [hkeep]; rfl)
      rw [hkeep] at hlisted hkept
      refine ⟨s.path.toString :: paths, ⟨s.path.toString, s⟩ :: seeds, drawn, ?_, ?_, ?_⟩
      · cases element with
        | object fields =>
          rw [listElements, hnames, hread]
          dsimp only
          rw [List.append_cons listed.paths _ paths, List.append_cons listed.seeds _ seeds]
          exact hlisted
        | _ => cases hobject
      · rw [List.map_cons, hshown, hmore]
        rfl
      · rw [List.foldl_cons, hkeep, hkept]
        rfl

variable {wire : Json} {items : List Json} {r : Resource} (mode : ElementsMode)

theorem importWire_of_no_listing (h : listing? wire = none) :
    c.importWire (some mode) wire = c.importWire none wire := by
  have hnone : ∀ r, (importResource c.schema wire c.names).1 = .ok r → elements? r = none := by
    intro r himport
    rw [elements?_eq_listing? (exists_of_importResource himport).2, h]
  unfold importWire importListing
  generalize importResource c.schema wire c.names = read at hnone
  obtain ⟨_ | r, names⟩ := read
  · rfl
  · simp only [hnone r rfl]
    rfl

theorem exists_importWire_of_elements (himport : (c.importWire none wire).1 = .ok r)
    (hlisting : listing? wire = some items) (hitems : ∀ e ∈ items, IsElement c.schema e) :
    ∃ paths, items.map shown = paths.map Json.string ∧
      c.importWire (some mode) wire =
        (.ok (restoreListing mode paths r),
          items.foldl keepElement (c.importWire none wire).2) := by
  have himport : (importResource c.schema wire c.names).1 = .ok r := himport
  have helements : elements? r = some items := by
    rw [elements?_eq_listing? (exists_of_importResource himport).2, hlisting]
  unfold importWire importListing
  generalize importResource c.schema wire c.names = read at himport
  obtain ⟨_, names⟩ := read
  obtain rfl : _ = Except.ok r := himport
  obtain ⟨paths, seeds, drawn, hlisted, hshown, hkept⟩ :=
    exists_listElements (c := { c with names }) hitems { names } rfl
  refine ⟨paths, hshown, ?_⟩
  simp only [helements, hlisted, hkept]
  rfl

theorem elements_of_importWire (hlisting : listing? wire = some items)
    (h : (c.importWire (some mode) wire).1 = .ok r) :
    (∃ r, (c.importWire none wire).1 = .ok r) ∧ ∀ e ∈ items, IsElement c.schema e := by
  have hsome : ∀ r, (importResource c.schema wire c.names).1 = .ok r →
      elements? r = some items := by
    intro r himport
    rw [elements?_eq_listing? (exists_of_importResource himport).2, hlisting]
  unfold importWire importListing at h
  unfold importWire
  generalize importResource c.schema wire c.names = read at h hsome ⊢
  obtain ⟨_ | plain, names⟩ := read
  · cases h
  · refine ⟨⟨plain, rfl⟩, ?_⟩
    simp only [hsome plain rfl] at h
    generalize hread : listElements c.schema items { names } = listing at h
    obtain ⟨_ | fault, listed⟩ := listing
    · exact isElement_of_listElements (congrArg Prod.fst hread)
    · cases h

/-- An import that keeps elements succeeds if the pool and each of its elements can be imported on
their own, and then gives what the listing gives in the form that was asked for. -/
theorem importWire_listing (mode : ElementsMode) (wire : Json) (c : Client) :
    (listing? wire = none → c.importWire (some mode) wire = c.importWire none wire) ∧
      ∀ items, listing? wire = some items →
        ((∃ r, (c.importWire (some mode) wire).1 = .ok r) ↔
          (∃ r, (c.importWire none wire).1 = .ok r) ∧ ∀ e ∈ items, IsElement c.schema e) ∧
        ∀ r, (c.importWire (some mode) wire).1 = .ok r →
          (c.importWire none (relist mode wire)).1 = .ok r ∧
            (c.importWire (some mode) wire).2 =
              items.foldl keepElement (c.importWire none wire).2 := by
  refine ⟨importWire_of_no_listing mode, fun items hlisting => ⟨⟨?_, ?_⟩, fun r hwarm => ?_⟩⟩
  · rintro ⟨r, hwarm⟩
    exact elements_of_importWire mode hlisting hwarm
  · rintro ⟨⟨r, hplain⟩, hitems⟩
    obtain ⟨paths, -, hwarm⟩ := exists_importWire_of_elements mode hplain hlisting hitems
    exact ⟨_, congrArg Prod.fst hwarm⟩
  · obtain ⟨⟨plain, hplain⟩, hitems⟩ := elements_of_importWire mode hlisting hwarm
    obtain ⟨paths, hshown, hkept⟩ := exists_importWire_of_elements mode hplain hlisting hitems
    have hrelisted := importResource_relist hplain hlisting hshown mode
    rw [hkept] at hwarm ⊢
    refine ⟨?_, rfl⟩
    unfold importWire
    rw [hrelisted]
    exact hwarm

section Mixed

def mixedItems : List Json :=
  [.string "/a", .object [("content_type", .string "item"), ("path", .string "@007")],
    .object [("content_type", .string "item"), ("path", .string "/b")]]

/-- A pool that lists a path and two items, of which the first is still to be made. -/
def mixed : Json :=
  .object [("content_type", .string "pool"),
    ("data", .object [(Known.pool, .object [("elements", .array mixedItems)])]),
    ("path", .string "/")]

def keeper : Client :=
  opened {} { resources := [("item", { superTypes := [Known.item] }), ("pool", {})] } true

theorem importWire_mixed :
    ∃ r, (keeper.importWire (some .paths) mixed).1 = .ok r ∧
      (keeper.importWire none (relist .paths mixed)).1 = .ok r ∧
      (keeper.importWire (some .paths) mixed).2 =
        mixedItems.foldl keepElement (keeper.importWire none mixed).2 ∧
      (keeper.importWire (some .paths) mixed).2.names.next = 2 ∧
      (keeper.importWire (some .paths) mixed).2.cache.entries.map (·.key) = ["@7/", "/b/"] := by
  have hwarm : (keeper.importWire (some .paths) mixed).1.isOk = true := by decide +kernel
  obtain ⟨-, hlisting⟩ := importWire_listing .paths mixed keeper
  cases hresult : (keeper.importWire (some .paths) mixed).1 with
  | error fault =>
    rw [hresult] at hwarm
    cases hwarm
  | ok r =>
    obtain ⟨-, hkept⟩ := hlisting mixedItems rfl
    obtain ⟨hrelisted, hclient⟩ := hkept r hresult
    exact ⟨r, rfl, hrelisted, hclient, by decide +kernel, by decide +kernel⟩

end Mixed

end ResourceClient.Client

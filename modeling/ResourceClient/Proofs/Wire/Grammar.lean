import ResourceClient.Path
import ResourceClient.Proofs.Json.Records
import ResourceClient.Report

/-!
How paths and reports are written, said without their readers. A path is a text that is not empty,
and one that starts with the sentinel is a number in decimal; a report is a record of lists.
-/
namespace ResourceClient

namespace Path

inductive Spells : String → Path → Prop where
  | real {text : String} (some : text ≠ "") (unmarked : startsWithSentinel text = false) :
      Spells text (.real text)
  | placeholder {text : String} {digits : List Char} {number : UInt64}
      (marked : text.toList = sentinel :: digits ∨ text.toList = sentinel :: '+' :: digits)
      (some : digits ≠ []) (decimal : ∀ c ∈ digits, c.isDigit = true)
      (value : Nat.ofDigitChars 10 digits 0 = number.toNat) : Spells text (.placeholder number)

variable {text : String} {path : Path}

theorem readNumber?_eq_some_iff {chars : List Char} {number : UInt64} :
    readNumber? chars = some number ↔
      dropPlus chars ≠ [] ∧ (∀ c ∈ dropPlus chars, c.isDigit = true) ∧
        Nat.ofDigitChars 10 (dropPlus chars) 0 = number.toNat := by
  simp only [readNumber?, Option.ite_none_right_eq_some, Option.some.injEq, List.all_eq_true,
    and_assoc]
  constructor
  · rintro ⟨hsome, hdecimal, hlt, rfl⟩
    exact ⟨hsome, hdecimal, (UInt64.toNat_ofNat_of_lt hlt).symm⟩
  · rintro ⟨hsome, hdecimal, hvalue⟩
    rw [hvalue]
    exact ⟨hsome, hdecimal, number.toNat_lt, UInt64.ofNat_toNat⟩

theorem dropPlus_eq_iff {chars digits : List Char} (h : ∀ c ∈ digits, c.isDigit = true) :
    dropPlus chars = digits ↔ chars = digits ∨ chars = '+' :: digits := by
  -- The sign is no digit.
  have hplus : ∀ rest : List Char, '+' :: rest ≠ digits := by
    rintro rest rfl
    exact absurd (h '+' List.mem_cons_self) (by decide)
  unfold dropPlus
  split
  · next rest => simp [hplus rest]
  · next hother => exact (or_iff_left (hother digits)).symm

theorem parse?_eq_some_iff : parse? text = some path ↔ Spells text path := by
  unfold parse?
  split
  · next hnil =>
    constructor
    · exact nofun
    · rintro (⟨hsome, -⟩ | ⟨hmarked, -, -, -⟩)
      · exact absurd (String.toList_eq_nil_iff.1 hnil) hsome
      · simp [hnil] at hmarked
  · next chars hchars =>
    rw [Option.map_eq_some_iff]
    constructor
    · rintro ⟨number, hnumber, rfl⟩
      obtain ⟨hsome, hdecimal, hvalue⟩ := readNumber?_eq_some_iff.1 hnumber
      refine .placeholder ?_ hsome hdecimal hvalue
      simpa [hchars, sentinel] using (dropPlus_eq_iff hdecimal).1 rfl
    · rintro (⟨-, hunmarked⟩ | ⟨hmarked, hsome, hdecimal, hvalue⟩)
      · simp [startsWithSentinel, hchars, sentinel] at hunmarked
      · rw [hchars] at hmarked
        obtain rfl := (dropPlus_eq_iff hdecimal).2 (by simpa [sentinel] using hmarked)
        exact ⟨_, readNumber?_eq_some_iff.2 ⟨hsome, hdecimal, hvalue⟩, rfl⟩
  · next hsome hunmarked =>
    constructor
    · rintro ⟨⟩
      refine .real (fun hnil => hsome (String.toList_eq_nil_iff.2 hnil)) ?_
      rw [startsWithSentinel, decide_eq_false]
      intro hhead
      obtain ⟨rest, hrest⟩ := List.head?_eq_some_iff.1 hhead
      exact hunmarked rest hrest
    · rintro (- | ⟨hmarked, -, -, -⟩)
      · rfl
      · rcases hmarked with hmarked | hmarked <;> exact absurd hmarked (hunmarked _)

theorem parse?_eq_real {address : String} (h : parse? text = some (.real address)) :
    address = text ∧ startsWithSentinel text = false := by
  cases parse?_eq_some_iff.1 h with
  | real _ unmarked => exact ⟨rfl, unmarked⟩

theorem startsWithSentinel_placeholder (number : UInt64) :
    startsWithSentinel (placeholder number).toString = true := by
  rw [startsWithSentinel, toString, String.toList_ofList]
  rfl

end Path

namespace Report

inductive Lists : Option Json → List String → Prop where
  | missing : Lists none []
  | texts (texts : List String) : Lists (some (.array (texts.map .string))) texts

/-- An object gives each list once at most; an array gives the first lists in order. -/
inductive Spells : Json → Report → Prop where
  | byName {fields : List (String × Json)} {report : Report}
      {first second third fourth : Option Json}
      (changed : under fields "changed_descendants" = first.toList)
      (ofChanged : Lists first report.changedDescendants)
      (created : under fields "created" = second.toList) (ofCreated : Lists second report.created)
      (modified : under fields "modified" = third.toList) (ofModified : Lists third report.modified)
      (removed : under fields "removed" = fourth.toList) (ofRemoved : Lists fourth report.removed) :
      Spells (.object fields) report
  | byPlace {items : List Json} {report : Report} (length : items.length ≤ 4)
      (changed : Lists items[0]? report.changedDescendants)
      (created : Lists items[1]? report.created) (modified : Lists items[2]? report.modified)
      (removed : Lists items[3]? report.removed) :
      Spells (.array items) report

theorem texts?_toDraft_iff {value : Json} {texts : List String} :
    Draft.texts? value.toDraft = some texts ↔ value = .array (texts.map .string) := by
  have htext : ∀ (item : Json) (text : String),
      item.toDraft.text? = some text ↔ item = .string text := by
    intro item text
    cases item <;> simp [Json.toDraft, Draft.text?]
  cases value with
  | array items =>
    rw [Json.toDraft, Json.draftItems_eq, Draft.texts?, Draft.list?, mapM_eq_some_iff,
      List.forall₂_map_left_iff]
    simp only [htext]
    rw [Json.array.injEq, ← List.forall₂_eq_eq_eq, List.forall₂_map_right_iff]
  | _ => simp [Json.toDraft, Draft.texts?, Draft.list?]

theorem lists_iff {value : Option Json} {texts : List String} :
    Draft.orDefault [] Draft.texts? (value.map Json.toDraft) = some texts ↔ Lists value texts := by
  cases value with
  | none =>
    constructor
    · intro h
      obtain rfl := Option.some.inj h
      exact .missing
    · rintro ⟨⟩
      rfl
  | some value =>
    rw [Option.map_some, Draft.orDefault, texts?_toDraft_iff]
    constructor
    · rintro rfl
      exact .texts texts
    · rintro ⟨⟩
      rfl

theorem ofDraft?_eq_some_iff {d : Draft} {report : Report} :
    ofDraft? d = some report ↔
      ∃ first second third fourth,
        d.fields? ["changed_descendants", "created", "modified", "removed"] =
          some [first, second, third, fourth] ∧
        Draft.orDefault [] Draft.texts? first = some report.changedDescendants ∧
        Draft.orDefault [] Draft.texts? second = some report.created ∧
        Draft.orDefault [] Draft.texts? third = some report.modified ∧
        Draft.orDefault [] Draft.texts? fourth = some report.removed := by
  constructor
  · intro h
    obtain ⟨values, hvalues, h⟩ := Option.bind_eq_some_iff.1 h
    split at h
    · next first second third fourth =>
      obtain ⟨_, hfirst, h⟩ := Option.bind_eq_some_iff.1 h
      obtain ⟨_, hsecond, h⟩ := Option.bind_eq_some_iff.1 h
      obtain ⟨_, hthird, h⟩ := Option.bind_eq_some_iff.1 h
      obtain ⟨_, hfourth, h⟩ := Option.bind_eq_some_iff.1 h
      obtain rfl := Option.some.inj h
      exact ⟨first, second, third, fourth, hvalues, hfirst, hsecond, hthird, hfourth⟩
    · cases h
  · rintro ⟨first, second, third, fourth, hvalues, hfirst, hsecond, hthird, hfourth⟩
    simp [ofDraft?, hvalues, hfirst, hsecond, hthird, hfourth]

theorem ofJson?_eq_some_iff {value : Json} {report : Report} :
    ofJson? value = some report ↔ Spells value report := by
  rw [ofJson?, ofDraft?_eq_some_iff]
  cases value with
  | object fields =>
    constructor
    · rintro ⟨_, _, _, _, hfields, hfirst, hsecond, hthird, hfourth⟩
      obtain ⟨values, hunder, hvalues⟩ := Json.fields?_object_eq_some_iff.1 hfields
      match values, hvalues with
      | [first, second, third, fourth], hvalues =>
        obtain ⟨rfl, rfl, rfl, rfl⟩ := by simpa using hvalues
        simp only [List.forall₂_cons, List.forall₂_nil_right_iff, and_true] at hunder
        obtain ⟨hchanged, hcreated, hmodified, hremoved⟩ := hunder
        exact .byName hchanged (lists_iff.1 hfirst) hcreated (lists_iff.1 hsecond) hmodified
          (lists_iff.1 hthird) hremoved (lists_iff.1 hfourth)
    · rintro ⟨hchanged, hfirst, hcreated, hsecond, hmodified, hthird, hremoved, hfourth⟩
      refine ⟨_, _, _, _, Json.fields?_object_eq_some_iff.2 ⟨[_, _, _, _], ?_, rfl⟩,
        lists_iff.2 hfirst, lists_iff.2 hsecond, lists_iff.2 hthird, lists_iff.2 hfourth⟩
      exact .cons hchanged (.cons hcreated (.cons hmodified (.cons hremoved .nil)))
  | array items =>
    constructor
    · rintro ⟨_, _, _, _, hfields, hfirst, hsecond, hthird, hfourth⟩
      obtain ⟨hlength, hvalues⟩ := Json.fields?_array_eq_some_iff.1 hfields
      cases hvalues
      exact .byPlace hlength (lists_iff.1 hfirst) (lists_iff.1 hsecond) (lists_iff.1 hthird)
        (lists_iff.1 hfourth)
    · rintro ⟨⟩
      next hlength hfirst hsecond hthird hfourth =>
      exact ⟨_, _, _, _, Json.fields?_array_eq_some_iff.2 ⟨hlength, rfl⟩, lists_iff.2 hfirst,
        lists_iff.2 hsecond, lists_iff.2 hthird, lists_iff.2 hfourth⟩
  | _ =>
    constructor
    · rintro ⟨_, _, _, _, hfields, -⟩
      cases hfields
    · intro hspells
      cases hspells

end Report

end ResourceClient

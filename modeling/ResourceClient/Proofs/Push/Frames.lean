import ResourceClient.Address
import ResourceClient.Proofs.Json.Records
import ResourceClient.Push.Frame

namespace ResourceClient.PushEvent

open Draft

def keys (event : PushEvent) : List String := event.addresses.map Address.key

inductive Leaves : Option Draft → Option String → Prop where
  | missing : Leaves none none
  | null : Leaves (some .null) none
  | text (s : String) : Leaves (some (.string (some s))) (some s)

/-- An object gives each field once at most; an array gives the fields in order, the last two only
if it likes. -/
inductive Spells : PushEvent → Draft → Prop where
  | byName {fields : List (Option String × Draft)} {e : PushEvent} {first second : Option Draft}
      (named : ∀ p ∈ fields, p.1.isSome = true)
      (event : under fields (some "event") = [.string (some e.event)])
      (resource : under fields (some "resource") = [.string (some e.resource)])
      (children : under fields (some "child") = first.toList) (child : Leaves first e.child)
      (versions : under fields (some "version") = second.toList)
      (version : Leaves second e.version) :
      Spells e (.object fields)
  | byPlace {rest : List Draft} {e : PushEvent} (length : rest.length ≤ 2)
      (child : Leaves rest[0]? e.child) (version : Leaves rest[1]? e.version) :
      Spells e (.array (.string (some e.event) :: .string (some e.resource) :: rest))

/-- The text holds the event and nothing that cannot be read. -/
def Tells (text : String) (e : PushEvent) : Prop :=
  ∃ d, Json.draft? (Json.bytesOf text) = some d ∧ (d.value? depthLimit).isSome = true ∧ Spells e d

variable {d : Draft} {e : PushEvent}

theorem leaves_iff {value : Option Draft} {result : Option String} :
    orDefault none (optional? text?) value = some result ↔ Leaves value result := by
  constructor
  · intro h
    cases value with
    | none =>
      obtain rfl := Option.some.inj h
      exact .missing
    | some d =>
      cases d with
      | null =>
        obtain rfl := Option.some.inj h
        exact .null
      | string s =>
        obtain ⟨s, rfl, rfl⟩ := Option.map_eq_some_iff.1 h
        exact .text s
      | _ => cases h
  · rintro (_ | _ | s) <;> rfl

theorem ofDraft?_eq_some_iff_fields :
    ofDraft? d = some e ↔
      ∃ child version, d.fields? ["event", "resource", "child", "version"] =
          some [some (.string (some e.event)), some (.string (some e.resource)), child, version] ∧
        Leaves child e.child ∧ Leaves version e.version := by
  constructor
  · intro h
    obtain ⟨values, hvalues, h⟩ := Option.bind_eq_some_iff.1 h
    split at h
    · next event resource child version =>
      obtain ⟨_, hevent, h⟩ := Option.bind_eq_some_iff.1 h
      obtain ⟨_, hresource, h⟩ := Option.bind_eq_some_iff.1 h
      obtain ⟨_, hchild, h⟩ := Option.bind_eq_some_iff.1 h
      obtain ⟨_, hversion, h⟩ := Option.bind_eq_some_iff.1 h
      obtain rfl := Option.some.inj h
      obtain ⟨_, rfl, hevent⟩ := required_eq_some_iff.1 hevent
      obtain ⟨_, rfl, hresource⟩ := required_eq_some_iff.1 hresource
      obtain rfl := text?_eq_some_iff.1 hevent
      obtain rfl := text?_eq_some_iff.1 hresource
      exact ⟨child, version, hvalues, leaves_iff.1 hchild, leaves_iff.1 hversion⟩
    · cases h
  · rintro ⟨child, version, hvalues, hchild, hversion⟩
    rw [← leaves_iff] at hchild hversion
    simp [ofDraft?, hvalues, required, text?, hchild, hversion]

theorem fields?_byPlace_iff {items : List Draft} {event resource : Draft}
    {child version : Option Draft} :
    (array items).fields? ["event", "resource", "child", "version"] =
        some [some event, some resource, child, version] ↔
      ∃ rest, items = event :: resource :: rest ∧ rest.length ≤ 2 ∧ rest[0]? = child ∧
        rest[1]? = version := by
  rw [fields?_array_eq_some_iff]
  change items.length ≤ 4 ∧ [items[0]?, items[1]?, items[2]?, items[3]?] =
    [some event, some resource, child, version] ↔ _
  constructor
  · rintro ⟨hlength, hvalues⟩
    obtain ⟨hevent, hresource, rfl, rfl⟩ := by simpa using hvalues
    match items, hevent, hresource with
    | _ :: _ :: rest, hevent, hresource =>
      obtain rfl := Option.some.inj hevent
      obtain rfl := Option.some.inj hresource
      have hlength : rest.length + 2 ≤ 4 := hlength
      exact ⟨rest, rfl, by omega, rfl, rfl⟩
  · rintro ⟨rest, rfl, hlength, rfl, rfl⟩
    refine ⟨?_, rfl⟩
    change rest.length + 2 ≤ 4
    omega

theorem ofDraft?_eq_some_iff : ofDraft? d = some e ↔ Spells e d := by
  rw [ofDraft?_eq_some_iff_fields]
  constructor
  · rintro ⟨child, version, hfields, hchild, hversion⟩
    cases d with
    | object fields =>
      obtain ⟨hnamed, hunder⟩ := fields?_object_eq_some_iff.1 hfields
      simp only [List.forall₂_cons, List.forall₂_nil_right_iff, and_true] at hunder
      obtain ⟨hevent, hresource, hchildren, hversions⟩ := hunder
      exact .byName hnamed hevent hresource hchildren hchild hversions hversion
    | array items =>
      obtain ⟨rest, rfl, hlength, rfl, rfl⟩ := fields?_byPlace_iff.1 hfields
      exact .byPlace hlength hchild hversion
    | _ => cases hfields
  · rintro (⟨hnamed, hevent, hresource, hchildren, hchild, hversions, hversion⟩ |
      ⟨hlength, hchild, hversion⟩)
    · refine ⟨_, _, fields?_object_eq_some_iff.2 ⟨hnamed, ?_⟩, hchild, hversion⟩
      exact .cons hevent (.cons hresource (.cons hchildren (.cons hversions .nil)))
    · exact ⟨_, _, fields?_byPlace_iff.2 ⟨_, rfl, hlength, rfl, rfl⟩, hchild, hversion⟩

theorem ofText?_eq_some_iff {text : String} : ofText? text = some e ↔ Tells text e := by
  constructor
  · intro h
    obtain ⟨d, hd, h⟩ := Option.bind_eq_some_iff.1 h
    obtain ⟨_, hvalue, h⟩ := Option.bind_eq_some_iff.1 h
    exact ⟨d, hd, Option.isSome_of_eq_some hvalue, ofDraft?_eq_some_iff.1 h⟩
  · rintro ⟨d, hd, hvalue, hspells⟩
    obtain ⟨v, hv⟩ := Option.isSome_iff_exists.1 hvalue
    simp only [ofText?, hd, hv, Option.bind_eq_bind, Option.bind_some]
    exact ofDraft?_eq_some_iff.2 hspells

end ResourceClient.PushEvent

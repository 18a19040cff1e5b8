import ResourceClient.Proofs.Cache.Registrations
import ResourceClient.Proofs.Push.Outbox

/-!
What is forgotten, and nothing else. Entries go with their registrations, a key that nobody else
listens to is unsubscribed, and all the rest stays. So only the set of the keys counts, not in which
order or how often they are named.
-/
namespace ResourceClient

/-- The key is that of a touched path, or of the collection above one that came, went or changed. -/
def Report.touches (report : Report) (posted : List String) (key : String) : Bool :=
  let moved := report.created ++ report.modified ++ report.removed ++ posted
  (report.changedDescendants ++ moved).any (fun path => Address.key path = key) ||
    moved.any fun path => Address.key (Address.parent path) = key

structure Report.SameMembers (r s : Report) : Prop where
  changedDescendants : ∀ path, path ∈ r.changedDescendants ↔ path ∈ s.changedDescendants
  created : ∀ path, path ∈ r.created ↔ path ∈ s.created
  modified : ∀ path, path ∈ r.modified ↔ path ∈ s.modified
  removed : ∀ path, path ∈ r.removed ↔ path ∈ s.removed

namespace LiveCache

/-- Without the requests that wait to be sent. -/
def silent (c : LiveCache) : LiveCache := { c with hub := { c.hub with outbox := [] } }

def outlasts (c : LiveCache) (gone : String → Bool) (s : Subscription Listener) : Bool :=
  c.entries.all fun e => !gone e.key || e.registration ≠ some s.id

/-- The request for a key that loses its entry, and with it all that was registered for it. -/
structure Unsubscribes (c : LiveCache) (gone : String → Bool) (r : PushRequest) : Prop where
  connected : c.hub.connected = true
  action : r.action = .unsubscribe
  alone : ∃ e ∈ c.entries, e.key = r.resource ∧ gone e.key = true ∧ e.registration.isSome = true ∧
    ∀ s ∈ c.hub.subscriptions, s.key = e.key → e.registration = some s.id

/-- From `c` to `d` the entries of these keys go, and nothing else does. -/
structure Forgets (gone : String → Bool) (c d : LiveCache) : Prop where
  kept : d.silent =
    { c with
      entries := c.entries.filter fun e => !gone e.key
      hub := { c.hub with
        subscriptions := c.hub.subscriptions.filter (c.outlasts gone)
        outbox := [] } }
  told : ∃ sent, d.hub.outbox = c.hub.outbox ++ sent ∧ sent.Nodup ∧
    ∀ r, r ∈ sent ↔ c.Unsubscribes gone r

/-- The same, but that requests may wait in another order. -/
structure Agrees (c d : LiveCache) : Prop where
  same : c.silent = d.silent
  sent : c.hub.outbox.Perm d.hub.outbox

variable {c d e : LiveCache} {gone more : String → Bool}

theorem Forgets.agrees (h : Forgets gone c d) (h' : Forgets gone c e) : Agrees d e where
  same := h.kept.trans h'.kept.symm
  sent := by
    obtain ⟨sent, houtbox, hnodup, hsent⟩ := h.told
    obtain ⟨others, houtbox', hnodup', hothers⟩ := h'.told
    rw [houtbox, houtbox']
    apply List.Perm.append_left
    apply (List.perm_ext_iff_of_nodup hnodup hnodup').2
    intro r
    rw [hsent, hothers]

theorem Forgets.congr (h : Forgets gone c d) (hgone : ∀ key, gone key = more key) :
    Forgets more c d := funext hgone ▸ h

theorem Forgets.entries (h : Forgets gone c d) :
    d.entries = c.entries.filter fun e => !gone e.key :=
  congrArg LiveCache.entries h.kept

theorem Forgets.subscriptions (h : Forgets gone c d) :
    d.hub.subscriptions = c.hub.subscriptions.filter (c.outlasts gone) := by
  have hhub := congrArg LiveCache.hub h.kept
  exact congrArg (·.subscriptions) hhub

theorem Forgets.connected (h : Forgets gone c d) : d.hub.connected = c.hub.connected := by
  have hhub := congrArg LiveCache.hub h.kept
  exact congrArg (·.connected) hhub

theorem outlasts_iff {s : Subscription Listener} :
    c.outlasts gone s = true ↔
      ∀ e ∈ c.entries, gone e.key = true → e.registration ≠ some s.id := by
  simp [outlasts, or_iff_not_imp_left]

theorem Registered.outlasts_of_key (h : c.Registered) {s : Subscription Listener}
    (hs : s ∈ c.hub.subscriptions) (hkey : gone s.key = false) : c.outlasts gone s = true := by
  rw [outlasts_iff]
  intro e he hgone hid
  have hheld := h.held (e.key, e.registration) (List.mem_map.2 ⟨e, he, rfl⟩)
    ⟨s.id, e.key, .entry e.key⟩ (by rw [subscriptionOf?, hid]; rfl)
  have hsame := List.inj_on_of_nodup_map h.ids hs hheld rfl
  rw [hsame, hgone] at hkey
  cases hkey

theorem Forgets.mem_entries (h : Forgets gone c d) {e : Entry} :
    e ∈ d.entries ↔ e ∈ c.entries ∧ gone e.key = false := by
  rw [h.entries, List.mem_filter, Bool.not_eq_true']

theorem Forgets.mem_subscriptions (h : Forgets gone c d) (hregistered : c.Registered)
    {s : Subscription Listener} (hkey : gone s.key = false) :
    s ∈ d.hub.subscriptions ↔ s ∈ c.hub.subscriptions := by
  rw [h.subscriptions, List.mem_filter]
  exact ⟨And.left, fun hs => ⟨hs, hregistered.outlasts_of_key hs hkey⟩⟩

theorem Forgets.outlasts_trans (h : Forgets gone c d) (s : Subscription Listener) :
    (c.outlasts gone s = true ∧ d.outlasts more s = true) ↔
      c.outlasts (fun key => gone key || more key) s = true := by
  simp only [outlasts_iff, h.mem_entries, Bool.or_eq_true]
  constructor
  · rintro ⟨hgone, hmore⟩ e he hkey
    cases hfirst : gone e.key with
    | true => exact hgone e he hfirst
    | false => exact hmore e ⟨he, hfirst⟩ (hkey.resolve_left (by simp [hfirst]))
  · intro hboth
    exact ⟨fun e he hkey => hboth e he (.inl hkey), fun e he hkey => hboth e he.1 (.inr hkey)⟩

theorem Forgets.unsubscribes_trans (h : Forgets gone c d) (hregistered : c.Registered)
    (r : PushRequest) :
    (c.Unsubscribes gone r ∨ d.Unsubscribes more r) ↔
      c.Unsubscribes (fun key => gone key || more key) r := by
  constructor
  · rintro (⟨hconnected, haction, e, he, hkey, hgone, hsome, hlast⟩ |
      ⟨hconnected, haction, e, he, hkey, hmore, hsome, hlast⟩)
    · exact ⟨hconnected, haction, e, he, hkey, by rw [hgone, Bool.true_or], hsome, hlast⟩
    · obtain ⟨he, hgone⟩ := h.mem_entries.1 he
      refine ⟨h.connected ▸ hconnected, haction, e, he, hkey, by rw [hmore, Bool.or_true],
        hsome, fun s hs hskey => hlast s ?_ hskey⟩
      exact (h.mem_subscriptions hregistered (by rw [hskey, hgone])).2 hs
  · rintro ⟨hconnected, haction, e, he, hkey, hboth, hsome, hlast⟩
    cases hgone : gone e.key with
    | true => exact .inl ⟨hconnected, haction, e, he, hkey, hgone, hsome, hlast⟩
    | false =>
      rw [hgone, Bool.false_or] at hboth
      refine .inr ⟨h.connected.trans hconnected, haction, e, h.mem_entries.2 ⟨he, hgone⟩, hkey,
        hboth, hsome, fun s hs hskey => hlast s ?_ hskey⟩
      exact (h.mem_subscriptions hregistered (by rw [hskey, hgone])).1 hs

theorem Forgets.trans (h : Forgets gone c d) (h' : Forgets more d e) (hregistered : c.Registered) :
    Forgets (fun key => gone key || more key) c e where
  kept := by
    have hentries : d.entries.filter (fun e => !more e.key) =
        c.entries.filter fun e => !(gone e.key || more e.key) := by
      rw [h.entries, List.filter_filter]
      apply List.filter_congr
      intro e _
      rw [Bool.not_or, Bool.and_comm]
    have hsubscriptions : d.hub.subscriptions.filter (d.outlasts more) =
        c.hub.subscriptions.filter (c.outlasts fun key => gone key || more key) := by
      rw [h.subscriptions, List.filter_filter]
      apply List.filter_congr
      intro s _
      rw [Bool.eq_iff_iff, ← h.outlasts_trans s, Bool.and_eq_true, and_comm]
    have hrest : ∀ entries subscriptions,
        ({ d with entries, hub := { d.hub with subscriptions, outbox := [] } } : LiveCache) =
          { d.silent with entries, hub := { d.silent.hub with subscriptions } } := fun _ _ => rfl
    rw [h'.kept, hrest, h.kept, hentries, hsubscriptions]
  told := by
    obtain ⟨sent, houtbox, hnodup, hsent⟩ := h.told
    obtain ⟨others, houtbox', hnodup', hothers⟩ := h'.told
    refine ⟨sent ++ others, ?_, ?_, fun r => ?_⟩
    · rw [houtbox', houtbox, List.append_assoc]
    · apply List.nodup_append.2 ⟨hnodup, hnodup', ?_⟩
      rintro r hr _ hr' rfl
      -- A key that has gone in the first step has no entry left for the second.
      obtain ⟨-, -, e, -, hkey, hgone, -⟩ := (hsent r).1 hr
      obtain ⟨-, -, e', he', hkey', -⟩ := (hothers r).1 hr'
      have hstays := (h.mem_entries.1 he').2
      rw [hkey', ← hkey, hgone] at hstays
      cases hstays
    · rw [List.mem_append, hsent, hothers, h.unsubscribes_trans hregistered]

theorem forgets_nothing (h : ∀ e ∈ c.entries, gone e.key = false) : Forgets gone c c where
  kept := by
    have hentries : c.entries.filter (fun e => !gone e.key) = c.entries :=
      List.filter_eq_self.2 fun e he => by rw [h e he, Bool.not_false]
    have hsubscriptions : c.hub.subscriptions.filter (c.outlasts gone) = c.hub.subscriptions := by
      apply List.filter_eq_self.2
      intro s _
      rw [outlasts_iff]
      intro e he hgone
      rw [h e he] at hgone
      cases hgone
    rw [hentries, hsubscriptions]
    rfl
  told := by
    refine ⟨[], (List.append_nil _).symm, List.nodup_nil, fun r => ?_⟩
    apply iff_of_false List.not_mem_nil
    rintro ⟨-, -, e, he, -, hgone, -⟩
    rw [h e he] at hgone
    cases hgone

theorem Registered.eq_of_key (h : c.Registered) {e other : Entry} (he : e ∈ c.entries)
    (hother : other ∈ c.entries) (hkey : other.key = e.key) : other = e := by
  have hkeys : (c.entries.map (·.key)).Nodup := by
    simpa [bindings, Function.comp_def] using h.keys
  exact List.inj_on_of_nodup_map hkeys hother he hkey

theorem silent_unregister (id : Nat) :
    ({ c with hub := c.hub.unregister id } : LiveCache).silent =
      { c with
        hub := { c.hub with
          subscriptions := c.hub.subscriptions.filter (·.id ≠ id)
          outbox := [] } } := by
  have hhub : ({ c.hub.unregister id with outbox := [] } : Hub Listener) =
      { c.hub with subscriptions := c.hub.subscriptions.filter (·.id ≠ id), outbox := [] } := by
    have heta : ∀ hub : Hub Listener, ({ hub with outbox := [] } : Hub Listener) =
        ⟨hub.connected, hub.subscriptions, hub.lossListeners, hub.nextId, []⟩ := fun _ => rfl
    rw [heta, Hub.connected_unregister, Hub.subscriptions_unregister, Hub.lossListeners_unregister,
      Hub.nextId_unregister]
  exact congrArg (fun hub => { c with hub }) hhub

theorem Registered.outbox_unregister (h : c.Registered) {s : Subscription Listener}
    (hs : s ∈ c.hub.subscriptions) :
    (c.hub.unregister s.id).outbox = c.hub.outbox ++
      if c.hub.connected = true ∧ ∀ t ∈ c.hub.subscriptions, t.key = s.key → t.id = s.id then
        [⟨.unsubscribe, s.key⟩]
      else [] := by
  have hfind : c.hub.subscriptions.find? (·.id = s.id) = some s := by
    cases hfound : c.hub.subscriptions.find? (·.id = s.id) with
    | none => simpa using List.find?_eq_none.1 hfound s hs
    | some t =>
      have hid : t.id = s.id := by simpa using List.find?_some hfound
      rw [List.inj_on_of_nodup_map h.ids (List.mem_of_find?_eq_some hfound) hs hid]
  simp only [Hub.unregister, hfind]
  by_cases halone : ∀ t ∈ c.hub.subscriptions, t.key = s.key → t.id = s.id
  · rw [if_neg, Hub.outbox_send]
    · simp only [and_iff_left halone]
    · rw [Hub.isSubscribed_iff]
      rintro ⟨t, ht, hkey⟩
      obtain ⟨ht, hother⟩ := List.mem_filter.1 ht
      exact of_decide_eq_true hother (halone t ht hkey)
  · rw [if_neg fun hboth : _ ∧ _ => halone hboth.2, List.append_nil, if_pos]
    rw [Hub.isSubscribed_iff]
    obtain ⟨t, ht, hkey, hother⟩ : ∃ t ∈ c.hub.subscriptions, t.key = s.key ∧ t.id ≠ s.id := by
      simpa using halone
    exact ⟨t, List.mem_filter.2 ⟨ht, decide_eq_true hother⟩, hkey⟩

theorem Registered.outlasts_key_iff (h : c.Registered) {e : Entry} (he : e ∈ c.entries)
    (s : Subscription Listener) :
    c.outlasts (fun key => key = e.key) s = true ↔ e.registration ≠ some s.id := by
  rw [outlasts_iff]
  constructor
  · intro hall
    exact hall e he (decide_eq_true rfl)
  · intro hne other hother hkey
    rwa [h.eq_of_key he hother (of_decide_eq_true hkey)]

theorem Registered.unsubscribes_key_iff (h : c.Registered) {e : Entry} (he : e ∈ c.entries)
    (r : PushRequest) :
    c.Unsubscribes (fun key => key = e.key) r ↔
      (c.hub.connected = true ∧ e.registration.isSome = true ∧
        ∀ s ∈ c.hub.subscriptions, s.key = e.key → e.registration = some s.id) ∧
      r = ⟨.unsubscribe, e.key⟩ := by
  obtain ⟨action, resource⟩ := r
  constructor
  · rintro ⟨hconnected, rfl, other, hother, rfl, hkey, hsome, hlast⟩
    obtain rfl := h.eq_of_key he hother (of_decide_eq_true hkey)
    exact ⟨⟨hconnected, hsome, hlast⟩, rfl⟩
  · rintro ⟨⟨hconnected, hsome, hlast⟩, hr⟩
    cases hr
    exact ⟨hconnected, rfl, e, he, rfl, decide_eq_true rfl, hsome, hlast⟩

theorem forgetKey_of_entryAt? {key : String} {e : Entry} (h : c.entryAt? key = some e) :
    c.forgetKey key =
      { c with
        entries := c.entries.filter fun other => !decide (other.key = key)
        hub := match e.registration with
          | some id => c.hub.unregister id
          | none => c.hub } := by
  have hentries : c.entries.filter (fun other => other.key ≠ key) =
      c.entries.filter fun other => !decide (other.key = key) :=
    List.filter_congr fun other _ => decide_not
  unfold forgetKey
  rw [h]
  dsimp only
  cases e.registration with
  | none => exact congrArg (fun entries => { c with entries }) hentries
  | some id =>
    exact congrArg (fun entries => { c with entries, hub := c.hub.unregister id }) hentries

theorem forgets_unregistered (hregistered : c.Registered) {e : Entry}
    (hentry : c.entryAt? e.key = some e)
    (hid : e.registration = none) : Forgets (fun key => key = e.key) c (c.forgetKey e.key) := by
  have he := mem_of_entryAt? hentry
  have hall : c.hub.subscriptions.filter (c.outlasts fun key => key = e.key) =
      c.hub.subscriptions := by
    apply List.filter_eq_self.2
    intro s _
    rw [hregistered.outlasts_key_iff he, hid]
    exact nofun
  rw [forgetKey_of_entryAt? hentry, hid]
  constructor
  · rw [hall]
    rfl
  · refine ⟨[], (List.append_nil _).symm, List.nodup_nil, fun r => ?_⟩
    apply iff_of_false List.not_mem_nil
    rw [hregistered.unsubscribes_key_iff he, hid]
    exact nofun

theorem forgets_registered (hregistered : c.Registered) {e : Entry}
    (hentry : c.entryAt? e.key = some e)
    {id : Nat} (hid : e.registration = some id) :
    Forgets (fun key => key = e.key) c (c.forgetKey e.key) := by
  have he := mem_of_entryAt? hentry
  have hheld := hregistered.held (e.key, e.registration) (List.mem_map.2 ⟨e, he, rfl⟩)
    ⟨id, e.key, .entry e.key⟩ (by rw [subscriptionOf?, hid]; rfl)
  have hsame : ∀ s : Subscription Listener, some id = some s.id ↔ s.id = id := fun s =>
    ⟨fun h => (Option.some.inj h).symm, fun h => congrArg some h.symm⟩
  have hothers : c.hub.subscriptions.filter (c.outlasts fun key => key = e.key) =
      c.hub.subscriptions.filter (·.id ≠ id) := by
    apply List.filter_congr
    intro s _
    rw [Bool.eq_iff_iff, hregistered.outlasts_key_iff he, hid, decide_eq_true_iff, ne_eq, hsame]
  rw [forgetKey_of_entryAt? hentry, hid]
  constructor
  · rw [hothers]
    exact congrArg (fun d : LiveCache => { d with
      entries := c.entries.filter fun other => !decide (other.key = e.key) }) (silent_unregister id)
  · refine ⟨_, hregistered.outbox_unregister hheld, ?_, fun r => ?_⟩
    · split
      · exact List.nodup_singleton _
      · exact List.nodup_nil
    · rw [hregistered.unsubscribes_key_iff he, hid]
      simp only [hsame, Option.isSome_some, true_and]
      split
      · next hlast => rw [List.mem_singleton, and_iff_right hlast]
      · next hlast => exact iff_of_false List.not_mem_nil fun h => hlast h.1

theorem forgets_forgetKey (hregistered : c.Registered) (key : String) :
    Forgets (fun other => other = key) c (c.forgetKey key) := by
  cases hentry : c.entryAt? key with
  | none =>
    rw [forgetKey_of_none key hentry]
    apply forgets_nothing
    intro e he
    rw [entryAt?, List.find?_eq_none] at hentry
    simpa using hentry e he
  | some e =>
    obtain rfl := key_of_entryAt? hentry
    cases hid : e.registration with
    | none => exact forgets_unregistered hregistered hentry hid
    | some id => exact forgets_registered hregistered hentry hid

theorem forgets_foldl (hregistered : c.Registered) (addresses : List String) :
    Forgets (fun key => key ∈ addresses.map Address.key) c
      (addresses.foldl (fun c address => c.forget address) c) := by
  induction addresses generalizing c with
  | nil => exact forgets_nothing fun e _ => by simp
  | cons address rest ih =>
    have hfirst := forgets_forgetKey hregistered (Address.key address)
    have hrest := ih ((preserves_forgetKey (Address.key address)).registered hregistered)
    exact (hfirst.trans hrest hregistered).congr fun key => by simp

theorem mem_touched_keys_iff (report : Report) (posted : List String) (key : String) :
    key ∈ (touched report posted).map Address.key ↔ report.touches posted key = true := by
  rw [mem_touched_keys]
  unfold Report.touches
  generalize report.created ++ report.modified ++ report.removed ++ posted = moved
  simp only [List.mem_append, List.any_eq_true, Bool.or_eq_true, decide_eq_true_iff, or_and_right,
    and_or_left, exists_or, or_assoc, @eq_comm _ key]

theorem forgets_forgetTouched (hregistered : c.Registered) (report : Report)
    (posted : List String) :
    Forgets (report.touches posted) c (c.forgetTouched report posted) :=
  (forgets_foldl hregistered (touched report posted)).congr fun key => by
    rw [Bool.eq_iff_iff, decide_eq_true_iff, mem_touched_keys_iff]

theorem touched_congr {report other : Report} {posted later : List String}
    (hreport : report.SameMembers other) (hposted : ∀ path, path ∈ posted ↔ path ∈ later) :
    touched report posted = touched other later := by
  refine Table.distinct_congr fun address => ?_
  simp only [List.mem_append, List.mem_map, List.mem_flatMap, hreport.changedDescendants,
    hreport.created, hreport.modified, hreport.removed, hposted]

theorem touches_extend (report other : Report) (posted later : List String) (key : String) :
    (report.extend other).touches (posted ++ later) key =
      (report.touches posted key || other.touches later key) := by
  simp only [Report.touches, Report.extend, List.any_append]
  ac_rfl

theorem agrees_of_touches (hregistered : c.Registered) {report other both : Report}
    {posted later all : List String}
    (htouches : ∀ key, (report.touches posted key || other.touches later key) =
      both.touches all key) :
    Agrees ((c.forgetTouched report posted).forgetTouched other later)
      (c.forgetTouched both all) := by
  have hfirst := forgets_forgetTouched hregistered report posted
  have hthen := forgets_forgetTouched
    ((preserves_forgetTouched report posted).registered hregistered) other later
  exact ((hfirst.trans hthen hregistered).congr htouches).agrees
    (forgets_forgetTouched hregistered both all)

end LiveCache

end ResourceClient

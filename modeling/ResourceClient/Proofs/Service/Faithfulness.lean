import ResourceClient.Proofs.Address.Queries
import ResourceClient.Proofs.Address.Urls
import ResourceClient.Proofs.Service.Reads

/-!
A cache in front of a server. A slot is faithful if it has what a read past the cache gives, for
every way to write its address. Calls and frames leave faithful slots only; a change of the server
leaves those faithful whose reads are answered as before.
-/
namespace ResourceClient

inductive ReadEvent (σ : Type) where
  | get (path : Path) (params : Table String) (bypass : Bool)
  | setCredentials (credentials : Option Credentials)
  | receive (text : String)
  | setConnected (connected : Bool)
  | change (remote : σ)

namespace ReadEvent

variable {σ : Type}

def IsCall : ReadEvent σ → Prop
  | .get .. | .setCredentials _ => True
  | _ => False

def Tells (key : String) : ReadEvent σ → Prop
  | .receive text => key ∈ (LiveCache.addressesIn text).map Address.key
  | _ => False

end ReadEvent

/-- What a cache counts on. A read of an address asks for `config.url (config.url address)`. -/
structure Network.Serves {σ : Type} (net : Network σ) (config : Config) (schema : Schema) :
    Prop where
  still : net.IsStill
  slashes : ∀ request url remote, request.method = .get →
    Address.key url = Address.key request.url →
    (net.answer { request with url } remote).1 = (net.answer request remote).1
  settled : ∀ request address remote other, request.method = .get →
    request.url = config.url (config.url address) →
    Address.key (config.url address) ∈ config.nonResourceUrls →
    (net.answer request remote).1 = (net.answer request other).1
  versioned : ∀ request remote response wire, request.method = .get →
    (net.answer request remote).1 = .ok response → response.successBody = .ok wire →
    Wire.IsVersioned schema wire

namespace Client

theorem alike_release (c : Client) (name : String) : c.Alike (c.release name) := by
  unfold release
  split
  · next handle _ => cases handle <;> exact ⟨rfl, rfl, rfl⟩
  · exact .refl c

theorem alike_perform (call : Call) (c : Client) : c.Alike (c.perform call).2 := by
  cases call with
  | note line => exact ⟨rfl, rfl, rfl⟩
  | react reaction =>
    cases reaction with
    | release name => exact c.alike_release name
    | _ => exact ⟨rfl, rfl, rfl⟩
  | notify listener key => cases listener <;> exact ⟨rfl, rfl, rfl⟩
  | lost listener => cases listener <;> exact ⟨rfl, rfl, rfl⟩

theorem alike_settle (calls : List Call) (c : Client) : c.Alike (c.settle calls) :=
  settle_rel .refl .trans (fun call c => (c.alike_perform call).trans ⟨rfl, rfl, rfl⟩) calls c

theorem alike_receive (text : String) (c : Client) : c.Alike (c.receive text) := by
  unfold receive
  split
  · exact alike_settle _ c
  · exact .refl c

theorem alike_setConnected (connected : Bool) (c : Client) : c.Alike (c.setConnected connected) :=
  alike_settle _ c

end Client

namespace World

variable {σ : Type} (net : Network σ)

/-- A call is done with before anything else happens. -/
def runEvent (w : World σ) : ReadEvent σ → World σ
  | .get path params bypass => ((Service.getWith path params { bypass }).runAmid net id w).2
  | .setCredentials credentials => w.mapClient (Client.setCredentials credentials)
  | .receive text => w.mapClient (Client.receive text)
  | .setConnected connected => w.mapClient (Client.setConnected connected)
  | .change remote => { w with remote }

def Differs (w : World σ) (remote : σ) (key : String) : Prop :=
  ∃ address params, Address.key (w.client.url address) = key ∧
    (net.answer (w.client.readRequest address params) remote).1 ≠
      (net.answer (w.client.readRequest address params) w.remote).1

def Mirrors (w : World σ) (key subkey : String) : Prop :=
  ∀ ticket, w.client.cache.slot? key subkey = some ticket →
    ∃ resource, w.client.cache.flights[ticket]? = some (.landed (.ok resource)) ∧
      ∀ address params, Address.key (w.client.url address) = key → Query.render params = subkey →
        w.fresh net { url := w.client.url address, params } = .ok resource

/-- Only what the server still has to tell about may be out of date. -/
structure Faithful (config : Config) (schema : Schema) (owed : String → Prop) (w : World σ) :
    Prop where
  idle : w.client.Idle config.nonResourceUrls
  configured : w.client.config = config
  typed : w.client.schema = schema
  mirrors : ∀ key subkey, (owed key → key ∈ config.nonResourceUrls) → w.Mirrors net key subkey

variable {net} {config : Config} {schema : Schema} {v w : World σ} {plan : Fetch}

theorem fresh_congr (hserves : net.Serves config schema) (hschema : w.client.schema = schema)
    (hplain : plan.listing = none) (halike : w.client.Alike v.client)
    (hanswer : ∀ request, w.client.fetchRequest plan = .ok request →
      (net.answer request v.remote).1 = (net.answer request w.remote).1) :
    v.fresh net plan = w.fresh net plan := by
  rw [fresh_eq net hplain, fresh_eq net hplain, halike.fetchRequest, halike.schema]
  cases hrequest : w.client.fetchRequest plan with
  | error fault => rfl
  | ok request =>
    change (net.answer request v.remote).1 >>= Response.successBody >>= _ =
      (net.answer request w.remote).1 >>= Response.successBody >>= _
    rw [hanswer request hrequest]
    cases hbody : (net.answer request w.remote).1 >>= Response.successBody with
    | error fault => rfl
    | ok wire =>
      obtain ⟨response, hresponse, hwire⟩ := exists_of_bind_eq_ok hbody
      have hversioned := hserves.versioned request w.remote response wire
        (Client.method_of_fetchRequest hrequest) hresponse hwire
      exact Wire.fst_importResource_of_versioned (hschema ▸ hversioned) v.client.names
        w.client.names

theorem fresh_of_key (hserves : net.Serves config schema) {address other : String}
    (hkey : Address.key (w.client.url other) = Address.key (w.client.url address))
    {params : Table String} {resource : Resource}
    (h : w.fresh net { url := w.client.url address, params } = .ok resource) :
    w.fresh net { url := w.client.url other, params } = .ok resource := by
  rw [fresh_eq net rfl, Client.fetchRequest_read] at h ⊢
  rw [startsWithSentinel_congr hkey]
  split at h
  · cases h
  · next hplain =>
    have hkeys : Address.key (w.client.url (w.client.url other)) =
        Address.key (w.client.readRequest address params).url := by
      rw [Client.url_readRequest]
      exact Config.key_url_congr hkey
    have hslashes := hserves.slashes _ _ w.remote (w.client.method_readRequest address params) hkeys
    rw [← w.client.readRequest_url address other params] at hslashes
    rw [if_neg hplain]
    change (net.answer (w.client.readRequest other params) w.remote).1 >>= Response.successBody >>=
      _ = _
    rw [hslashes]
    exact h

theorem mirrors_of_nil (h : w.client.cache.entries = []) (key subkey : String) :
    w.Mirrors net key subkey := by
  intro ticket hslot
  rw [LiveCache.slot?_of_nil h] at hslot
  cases hslot

theorem Mirrors.transfer (hserves : net.Serves config schema) (hschema : w.client.schema = schema)
    {key subkey : String} (h : w.Mirrors net key subkey) (halike : w.client.Alike v.client)
    (hslot : ∀ ticket, v.client.cache.slot? key subkey = some ticket →
      w.client.cache.slot? key subkey = some ticket ∧
        v.client.cache.flights[ticket]? = w.client.cache.flights[ticket]?)
    (hanswer : ∀ address params, Address.key (w.client.url address) = key →
      (net.answer (w.client.readRequest address params) v.remote).1 =
        (net.answer (w.client.readRequest address params) w.remote).1) :
    v.Mirrors net key subkey := by
  intro ticket hheld
  obtain ⟨hbefore, hflight⟩ := hslot ticket hheld
  obtain ⟨resource, hlanded, hfresh⟩ := h ticket hbefore
  refine ⟨resource, hflight.trans hlanded, ?_⟩
  intro address params hkey hsubkey
  rw [halike.url] at hkey ⊢
  rw [fresh_congr hserves hschema rfl halike, hfresh address params hkey hsubkey]
  intro request hrequest
  rw [Client.eq_readRequest hrequest]
  exact hanswer address params hkey

theorem Faithful.mono {owed later : String → Prop} (h : w.Faithful net config schema owed)
    (hlater : ∀ key, owed key → later key) : w.Faithful net config schema later :=
  ⟨h.idle, h.configured, h.typed,
    fun key subkey hexempt => h.mirrors key subkey fun howed => hexempt (hlater key howed)⟩

theorem faithful_opened (config : Config) (schema : Schema) (connected : Bool) (remote : σ)
    (owed : String → Prop) :
    Faithful net config schema owed { client := .opened config schema connected, remote } where
  idle := Client.idle_opened config schema connected
  configured := rfl
  typed := rfl
  mirrors := fun key subkey _ => mirrors_of_nil rfl key subkey

theorem Faithful.mirrors_of_kept {owed : String → Prop} (hserves : net.Serves config schema)
    (h : w.Faithful net config schema owed) (halike : w.client.Alike v.client)
    (hremote : v.remote = w.remote) {key subkey : String}
    (hslot : ∀ ticket, v.client.cache.slot? key subkey = some ticket →
      w.client.cache.slot? key subkey = some ticket ∧
        v.client.cache.flights[ticket]? = w.client.cache.flights[ticket]? ∧
        (owed key → key ∈ config.nonResourceUrls)) :
    v.Mirrors net key subkey := by
  intro ticket hheld
  have hmirrors := h.mirrors key subkey (hslot ticket hheld).2.2
  refine hmirrors.transfer hserves h.typed halike (fun ticket hheld => ?_) (fun _ _ _ => ?_) ticket
    hheld
  · exact ⟨(hslot ticket hheld).1, (hslot ticket hheld).2.1⟩
  · rw [hremote]

theorem HasRead.mirrors (hserves : net.Serves config schema)
    (h : w.Faithful net config schema fun _ => False) {address : String} {params : Table String}
    (hread : w.HasRead v (w.client.cache.readThrough (Address.key (w.client.url address))
      (Query.render params) (.fetch { url := w.client.url address, params })
      (w.fresh net { url := w.client.url address, params })))
    (key subkey : String) : v.Mirrors net key subkey := by
  by_cases hself : key = Address.key (w.client.url address) ∧ subkey = Query.render params
  · obtain ⟨rfl, rfl⟩ := hself
    intro ticket hslot
    rw [hread.cache, LiveCache.slot?_readThrough, if_pos ⟨rfl, rfl⟩] at hslot
    rw [hread.cache, LiveCache.flights_readThrough]
    cases hfresh : w.fresh net { url := w.client.url address, params } with
    | error fault =>
      rw [hfresh] at hslot
      cases hslot
    | ok resource =>
      rw [hfresh] at hslot
      obtain rfl := Option.some.inj hslot
      refine ⟨resource, List.getElem?_concat_length, ?_⟩
      intro other more hkey hsubkey
      rw [hread.alike.url] at hkey ⊢
      rw [Query.render_inj hsubkey, fresh_congr hserves h.typed rfl hread.alike]
      · exact fresh_of_key hserves hkey hfresh
      · intro request _
        rw [hread.remote]
  · apply h.mirrors_of_kept hserves hread.alike hread.remote
    intro ticket hslot
    rw [hread.cache, LiveCache.slot?_readThrough, if_neg hself] at hslot
    refine ⟨hslot, ?_, False.elim⟩
    obtain ⟨resource, hlanded, -⟩ := h.mirrors key subkey False.elim ticket hslot
    rw [hread.cache, LiveCache.flights_readThrough]
    exact List.getElem?_append_left (List.getElem?_eq_some_iff.1 hlanded).1

theorem Faithful.held (h : w.Faithful net config schema fun _ => False) (address : String)
    (params : Table String) (ticket : Ticket)
    (hslot : w.client.cache.slot? (Address.key (w.client.url address)) (Query.render params) =
      some ticket) :
    w.client.cache.flights[ticket]? =
      some (.landed (w.fresh net { url := w.client.url address, params })) := by
  obtain ⟨resource, hlanded, hfresh⟩ := h.mirrors _ _ False.elim ticket hslot
  rw [hfresh address params rfl rfl]
  exact hlanded

theorem Faithful.get (hserves : net.Serves config schema)
    (h : w.Faithful net config schema fun _ => False) (path : Path) (params : Table String)
    (bypass : Bool) (owed : String → Prop) :
    (w.runEvent net (.get path params bypass)).Faithful net config schema owed := by
  cases path with
  | placeholder number =>
    exact ⟨h.idle, h.configured, h.typed, fun key subkey _ => h.mirrors key subkey False.elim⟩
  | real address =>
    obtain ⟨after, cache, hrun, hread, hcache⟩ := Service.exists_runAmid_getWith net hserves.still
      h.idle.free address params bypass (h.held address params)
    rw [runEvent, hrun]
    rcases hcache with rfl | ⟨hlive, hslot, rfl⟩
    · refine ⟨hread.idle h.idle h.idle.wellFormed, hread.alike.config.trans h.configured,
        hread.alike.schema.trans h.typed, fun key subkey _ => ?_⟩
      apply h.mirrors_of_kept hserves hread.alike hread.remote
      intro ticket hheld
      rw [hread.cache] at hheld ⊢
      exact ⟨hheld, rfl, False.elim⟩
    · exact ⟨hread.idle h.idle (h.idle.wellFormed.readThrough hlive hslot),
        hread.alike.config.trans h.configured, hread.alike.schema.trans h.typed,
        fun key subkey _ => hread.mirrors hserves h key subkey⟩

theorem Faithful.setCredentials {owed : String → Prop}
    (h : w.Faithful net config schema owed) (credentials : Option Credentials)
    (later : String → Prop) :
    (w.runEvent net (.setCredentials credentials)).Faithful net config schema later where
  idle := ⟨h.idle.wellFormed.undergo .forgetAll, h.idle.free, h.idle.unheld⟩
  configured := h.configured
  typed := h.typed
  mirrors := fun key subkey _ =>
    mirrors_of_nil (LiveCache.entries_forgetAll w.client.cache) key subkey

/-- What happens to the cache alone leaves faithful what it leaves mirrored. -/
theorem Faithful.occur {owed later : String → Prop} (h : w.Faithful net config schema owed)
    (e : CacheEvent) (halike : w.client.Alike (w.client.occur e))
    (hmirrors : ∀ after : World σ, after.client.cache = w.client.cache.undergo e →
      w.client.Alike after.client → after.remote = w.remote →
      ∀ key subkey, (later key → key ∈ config.nonResourceUrls) → after.Mirrors net key subkey) :
    (w.mapClient (Client.occur e)).Faithful net config schema later where
  idle := h.idle.use (.event e)
  configured := halike.config.trans h.configured
  typed := halike.schema.trans h.typed
  mirrors := hmirrors _ (h.idle.steady.occur_eq e).1 halike rfl

theorem Faithful.receive {owed later : String → Prop} (hserves : net.Serves config schema)
    (h : w.Faithful net config schema owed) (text : String)
    (hlater : ∀ key, owed key → ¬ (ReadEvent.receive text : ReadEvent σ).Tells key → later key) :
    (w.runEvent net (.receive text)).Faithful net config schema later := by
  apply h.occur (.receive text) (w.client.alike_receive text)
  intro after hcache halike hremote key subkey hexempt
  apply h.mirrors_of_kept hserves halike hremote
  intro ticket hslot
  rw [hcache, LiveCache.undergo, LiveCache.slot?_foldl_notify, h.idle.wellFormed.exempt] at hslot
  split at hslot
  · cases hslot
  · next hkept =>
    refine ⟨hslot, ?_, fun howed => ?_⟩
    · rw [hcache, LiveCache.undergo, LiveCache.flights_foldl_notify]
    · by_cases hnamed : key ∈ (LiveCache.addressesIn text).map Address.key
      · exact Classical.byContradiction fun hnot => hkept ⟨hnamed, hnot⟩
      · exact hexempt (hlater key howed hnamed)

theorem Faithful.setConnected {owed later : String → Prop} (hserves : net.Serves config schema)
    (h : w.Faithful net config schema owed) (connected : Bool)
    (hlater : connected = true → ∀ key, owed key → later key) :
    (w.runEvent net (.setConnected connected)).Faithful net config schema later := by
  apply h.occur (.setConnected connected) (w.client.alike_setConnected connected)
  intro after hcache halike hremote key subkey hexempt
  cases connected with
  | false =>
    have hempty : after.client.cache.entries = [] := by
      rw [hcache]
      exact (h.idle.wellFormed.undergo (.setConnected false)).emptyOffline.nothing
        (LiveCache.connected_setConnection w.client.cache false)
    exact mirrors_of_nil hempty key subkey
  | true =>
    apply h.mirrors_of_kept hserves halike hremote
    intro ticket hslot
    rw [hcache, LiveCache.undergo, LiveCache.slot?_setConnection,
      if_neg fun hlost => nomatch hlost.1]
      at hslot
    refine ⟨hslot, ?_, fun howed => hexempt (hlater rfl key howed)⟩
    rw [hcache, LiveCache.undergo, LiveCache.flights_setConnection]

theorem Faithful.settled {owed : String → Prop} (hserves : net.Serves config schema)
    (h : w.Faithful net config schema owed) {address : String}
    (hkey : Address.key (w.client.url address) ∈ config.nonResourceUrls) (params : Table String)
    (remote other : σ) :
    (net.answer (w.client.readRequest address params) remote).1 =
      (net.answer (w.client.readRequest address params) other).1 := by
  have hurl : ∀ address, w.client.url address = config.url address := fun _ => by
    rw [Client.url, h.configured]
  apply hserves.settled _ address remote other (w.client.method_readRequest address params)
  · rw [Client.url_readRequest, hurl, hurl]
  · rwa [hurl] at hkey

theorem Faithful.change {owed later : String → Prop} (hserves : net.Serves config schema)
    (h : w.Faithful net config schema owed) (remote : σ)
    (hlater : ∀ key, owed key ∨ w.client.hub.connected = true ∧ w.Differs net remote key →
      later key) :
    (w.runEvent net (.change remote)).Faithful net config schema later := by
  refine ⟨h.idle, h.configured, h.typed, ?_⟩
  intro key subkey hexempt ticket hslot
  have hslot : w.client.cache.slot? key subkey = some ticket := hslot
  -- there would be no entry, and so no slot, while the channel is down
  have hconnected : w.client.hub.connected = true := by
    refine eq_true_of_ne_false fun hdown => ?_
    rw [LiveCache.slot?_of_nil (h.idle.wellFormed.emptyOffline.nothing hdown)] at hslot
    cases hslot
  have hmirrors := h.mirrors key subkey fun howed => hexempt (hlater key (.inl howed))
  refine hmirrors.transfer (v := w.runEvent net (.change remote)) hserves h.typed (.refl w.client)
    (fun _ hheld => ⟨hheld, rfl⟩) (fun address params hkey => ?_) ticket hslot
  by_cases hsettled : key ∈ config.nonResourceUrls
  · subst hkey
    exact h.settled hserves hsettled params remote w.remote
  · refine Classical.byContradiction fun hdiffers => hsettled (hexempt (hlater key (.inr ?_)))
    exact ⟨hconnected, address, params, hkey, hdiffers⟩

end World

end ResourceClient

import ResourceClient.Proofs.Cache.Occupancy
import ResourceClient.Proofs.Client.Quiet
import ResourceClient.Service.Batch

namespace ResourceClient.Client

structure Shrinks (c d : Client) : Prop where
  inSync : c.cache.InSync → d.cache.InSync
  connected : d.cache.hub.connected = c.cache.hub.connected
  flights : d.cache.flights = c.cache.flights
  slots : ∀ {key subkey ticket}, d.cache.slot? key subkey = some ticket →
    c.cache.slot? key subkey = some ticket
  credentials : d.credentials = c.credentials
  reservation : d.reservation = c.reservation
  config : d.config = c.config

namespace Shrinks

variable {c d e : Client}

theorem of_eq (hcache : d.cache = c.cache) (hcredentials : d.credentials = c.credentials)
    (hreservation : d.reservation = c.reservation) (hconfig : d.config = c.config) :
    c.Shrinks d where
  inSync := fun h => hcache ▸ h
  connected := by rw [hcache]
  flights := by rw [hcache]
  slots := by
    intro key subkey ticket h
    rwa [hcache] at h
  credentials := hcredentials
  reservation := hreservation
  config := hconfig

theorem refl (c : Client) : c.Shrinks c := of_eq rfl rfl rfl rfl

theorem trans (h : c.Shrinks d) (h' : d.Shrinks e) : c.Shrinks e where
  inSync := fun hc => h'.inSync (h.inSync hc)
  connected := h'.connected.trans h.connected
  flights := h'.flights.trans h.flights
  slots := fun hslot => h.slots (h'.slots hslot)
  credentials := h'.credentials.trans h.credentials
  reservation := h'.reservation.trans h.reservation
  config := h'.config.trans h.config

end Shrinks

variable (c : Client)

theorem shrinks_names (names : Names) : c.Shrinks { c with names } := .of_eq rfl rfl rfl rfl

theorem shrinks_forgetTouched (report : Report) (posted : List String) :
    c.Shrinks (c.forgetTouched report posted) where
  inSync := fun h => h.forgetTouched (report.map c.url) posted
  connected := LiveCache.connected_forgetTouched c.cache _ posted
  flights := LiveCache.flights_forgetTouched c.cache _ posted
  slots := by
    intro key subkey ticket h
    have hslot := LiveCache.slot?_forgetTouched c.cache key subkey (report.map c.url) posted
    rw [forgetTouched, mapCache, hslot] at h
    split at h
    · simp at h
    · exact h
  credentials := rfl
  reservation := rfl
  config := rfl

theorem shrinks_finishWrite (url : String) (body : Json) :
    c.Shrinks (c.finishWrite url body).2 := by
  unfold finishWrite
  cases readReport body with
  | error fault => exact .refl c
  | ok report =>
    dsimp only
    exact (c.shrinks_forgetTouched report _).trans (shrinks_names _ _)

theorem shrinks_finishDelete (url : String) (body : Json) :
    c.Shrinks (c.finishDelete url body).2 := by
  unfold finishDelete
  cases readReport body with
  | error fault => exact .refl c
  | ok report => exact c.shrinks_forgetTouched report _

theorem shrinks_importBodies (bodies : List Json) : c.Shrinks (c.importBodies bodies).2 := by
  induction bodies generalizing c with
  | nil => exact .refl c
  | cons body rest ih =>
    unfold importBodies
    have hnames : c.Shrinks (c.importWire none body).2 := shrinks_names c _
    split
    · next hwire =>
      rw [hwire] at hnames
      exact hnames
    · next hwire =>
      rw [hwire] at hnames
      exact hnames.trans (ih _)

theorem shrinks_finishBatch (operations : List BatchOperation) (response : Response) :
    c.Shrinks (c.finishBatch operations response).2 := by
  unfold finishBatch
  cases batchResults operations.length response with
  | error fault => exact .refl c
  | ok batch =>
    dsimp only
    cases batchReport batch with
    | error fault => exact .refl c
    | ok report => exact (c.shrinks_forgetTouched report _).trans (shrinks_importBodies _ _)

theorem shrinks_post (parent : Path) (resource : Resource) (tx : Transaction) :
    c.Shrinks (tx.post parent resource c).2.2 := by
  unfold Transaction.post
  split
  · exact .refl c
  · dsimp only
    split <;> exact shrinks_names c _

theorem shrinks_recordPosts (resources : List Resource) (order : List Nat) (tx : Transaction) :
    c.Shrinks (c.recordPosts resources order tx).2 := by
  induction order generalizing c tx with
  | nil => exact .refl c
  | cons i rest ih =>
    unfold recordPosts
    split
    · exact ih c tx
    · next resource _ =>
      split
      · exact .refl c
      · next parent _ =>
        have hpost := c.shrinks_post parent resource tx
        split
        · next hresult =>
          rw [hresult] at hpost
          exact hpost
        · next hresult =>
          rw [hresult] at hpost
          exact hpost.trans (ih _ _)

variable {c}

theorem shrinks_announce (h : c.cache.InSync) (hfree : c.reservation = none) (address : String) :
    c.Shrinks (c.announce address) := by
  rw [announce_eq h hfree]
  exact {
    inSync := fun h => h.notify address
    connected := LiveCache.connected_notify c.cache address
    flights := LiveCache.flights_notify c.cache address
    slots := by
      intro key subkey ticket hslot
      rw [LiveCache.slot?_notify] at hslot
      split at hslot
      · simp at hslot
      · exact hslot
    credentials := rfl
    reservation := rfl
    config := rfl }

theorem shrinks_receive (h : c.cache.InSync) (hfree : c.reservation = none) (text : String) :
    c.Shrinks (c.receive text) := by
  rw [receive_eq]
  cases PushEvent.ofText? text with
  | none => exact .refl c
  | some event =>
    dsimp only
    induction event.addresses generalizing c with
    | nil => exact .refl c
    | cons address rest ih =>
      have hstep := shrinks_announce h hfree address
      exact hstep.trans (ih (hstep.inSync h) (hstep.reservation.trans hfree))

end ResourceClient.Client

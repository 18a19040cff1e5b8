import ResourceClient.Proofs.Service.Visits

/-!
What becomes of placeholders. A path that is written with the sentinel belongs into a batch. Most
visits refuse it before anything is sent; those that only look at what kind of path it is let a
malformed one through.
-/
namespace ResourceClient

theorem startsWithSentinel_of_head? {address : String}
    (h : address.toList.head? = some Path.sentinel) : startsWithSentinel address = true :=
  decide_eq_true h

theorem head?_of_startsWithSentinel {address : String} (h : startsWithSentinel address = true) :
    address.toList.head? = some Path.sentinel := of_decide_eq_true h

namespace Address

theorem startsWithSentinel_parent {address : String} (h : startsWithSentinel address = true) :
    startsWithSentinel (parent address) = true ∨ parent address = "/" := by
  have hhead := head?_of_startsWithSentinel h
  have hsplit := fst_append_snd_splitOrigin address.toList
  have hparent := toList_parent address
  unfold parentChars at hparent
  generalize splitOrigin address.toList = split at hsplit hparent
  obtain ⟨origin, rest⟩ := split
  dsimp only at hsplit hparent
  rw [← hsplit] at hhead
  cases origin with
  | cons first origin =>
    obtain rfl : first = Path.sentinel := by simpa using hhead
    refine .inl (startsWithSentinel_of_head? ?_)
    rw [hparent]
    split <;> rfl
  | nil =>
    obtain ⟨below, hbelow⟩ :=
      (throughLastSlash_isPrefix (trimEnd rest)).trans (trimEnd_isPrefix rest)
    cases habove : throughLastSlash (trimEnd rest) with
    | nil =>
      rw [habove] at hparent
      exact .inr (String.toList_inj.1 hparent)
    | cons first above =>
      rw [habove] at hparent hbelow
      refine .inl (startsWithSentinel_of_head? ?_)
      rw [← hbelow] at hhead
      rw [hparent]
      exact hhead

theorem startsWithSentinel_join {address : String} (h : startsWithSentinel address = true)
    (segment : String) : startsWithSentinel (join address segment) = true := by
  obtain ⟨rest, hrest⟩ := List.head?_eq_some_iff.1 (head?_of_startsWithSentinel h)
  have hne : trimEnd address.toList ≠ [] := by
    intro hnil
    have hslash := eq_slash_of_trimEnd_nil hnil Path.sentinel (by simp [hrest])
    exact absurd hslash (by decide)
  have hhead := head?_of_trimEnd_eq (trimEnd_trimEnd address.toList) (by rwa [trimEnd_trimEnd])
  refine startsWithSentinel_of_head? ?_
  rw [join, String.toList_ofList, List.head?_append_of_ne_nil _ hne, hhead, hrest]
  rfl

end Address

theorem Config.url_of_startsWithSentinel (config : Config) {address : String}
    (h : startsWithSentinel address = true) : config.url address = address := by
  apply Config.url_of_head?_ne
  rw [head?_of_startsWithSentinel h]
  decide

namespace Client

variable (c : Client) {address : String} (h : startsWithSentinel address = true)
include h

theorem rawRequest_of_startsWithSentinel (method : Method) (verb : String) :
    c.rawRequest method verb address = .error (.placeholderPath verb address) := by
  unfold rawRequest
  rw [h, if_pos rfl]

theorem fetchRequest_of_startsWithSentinel {plan : Fetch} (hplan : plan.url = address) :
    c.fetchRequest plan = .error (.placeholderPath "get" address) := by
  unfold fetchRequest
  rw [hplan, c.rawRequest_of_startsWithSentinel h]
  rfl

end Client

namespace Service

open World

theorem toOption_bind_of_none {α β : Type} {result : Except Fault α}
    {next : α → Except Fault β} (h : ∀ value, result = .ok value → (next value).toOption = none) :
    (result >>= next).toOption = none := by
  cases result with
  | error fault => rfl
  | ok value => exact h value rfl

theorem toOption_ok_bind {α β : Type} (value : α) (next : α → Except Fault β) :
    (Except.ok value >>= next).toOption = (next value).toOption := rfl

theorem toOption_rawRequest_bind {α : Type} {c : Client} {address : String}
    (h : startsWithSentinel address = true) {method : Method} {verb : String}
    (next : Request → Except Fault α) :
    (c.rawRequest method verb address >>= next).toOption = none := by
  rw [c.rawRequest_of_startsWithSentinel h]
  rfl

section

variable {c : Client} {path : Path} (h : startsWithSentinel path.toString = true)
include h

theorem startsWithSentinel_of_requireReal {verb address : String}
    (hreal : requireReal verb path = .ok address) : startsWithSentinel address = true := by
  obtain rfl := eq_real_of_requireReal hreal
  exact h

theorem toOption_getRequest (params : Table String) (options : GetOptions) :
    (getRequest path params options c).toOption = none := by
  refine toOption_bind_of_none fun address hreal => toOption_bind_of_none fun plan hplan => ?_
  have haddress := startsWithSentinel_of_requireReal h hreal
  have hurl : plan.url = address :=
    (url_of_fetchPlan hplan).trans (c.config.url_of_startsWithSentinel haddress)
  rw [c.fetchRequest_of_startsWithSentinel haddress hurl]
  rfl

theorem toOption_request_put (resource : Resource) (options : WriteOptions) :
    ((Write.put path resource options).request c).toOption = none := by
  refine toOption_bind_of_none fun address hreal => toOption_bind_of_none fun body _ => ?_
  have haddress := startsWithSentinel_of_requireReal h hreal
  rw [Client.url, Config.url_of_startsWithSentinel _ haddress]
  exact toOption_rawRequest_bind haddress _

theorem toOption_request_post (resource : Resource) (options : WriteOptions) :
    ((Write.post path resource options).request c).toOption = none := by
  refine toOption_bind_of_none fun address hreal => toOption_bind_of_none fun body _ => ?_
  have haddress := startsWithSentinel_of_requireReal h hreal
  rw [Client.url, Config.url_of_startsWithSentinel _ haddress]
  exact toOption_rawRequest_bind haddress _

end

namespace Visit

/-- What goes out for a malformed placeholder. -/
def stray? (visit : Visit) (c : Client) : Option Request :=
  match visit with
  | .write (.delete (.real address)) => some (c.signed { method := .delete, url := address })
  | .options (.real address) => some (c.signed { method := .options, url := address })
  | .postVersion (.real address) resource rootVersions =>
    if startsWithSentinel (Address.parent address) then none
    else
      ((Write.post (.real "/") (firstVersion (.real address) resource rootVersions)
        {}).request c).toOption
  | _ => none

theorem toOption_request (visit : Visit) (c : Client)
    (h : startsWithSentinel visit.written = true) :
    (visit.request c).toOption = visit.stray? c := by
  cases visit with
  | get path params options => exact toOption_getRequest h params options
  | getRaw address params => exact toOption_rawRequest_bind h _
  | putRaw address body => exact toOption_rawRequest_bind h _
  | postRaw address body => exact toOption_rawRequest_bind h _
  | write call =>
    cases call with
    | put path resource options => exact toOption_request_put h resource options
    | post parent resource options => exact toOption_request_post h resource options
    | delete path =>
      cases path with
      | real address =>
        have hurl := c.config.url_of_startsWithSentinel h
        exact congrArg (fun url => some (c.signed { method := .delete, url })) hurl
      | placeholder number => rfl
  | hide path contentType => exact toOption_request_put h _ { keepMetadata := true }
  | options path =>
    cases path with
    | real address =>
      have hurl := c.config.url_of_startsWithSentinel h
      exact congrArg (fun url => some (c.signed { method := .options, url })) hurl
    | placeholder number => rfl
  | resolve path => exact toOption_getRequest h [] {}
  | ancestor path wanted =>
    refine toOption_bind_of_none fun start _ => ?_
    split
    · rfl
    · exact toOption_getRequest h [] {}
  | newest item =>
    have hitem : startsWithSentinel item.toString = true := h
    refine toOption_bind_of_none fun address hreal => ?_
    have haddress := startsWithSentinel_of_requireReal hitem hreal
    have htag : startsWithSentinel (Path.real (Address.join address Known.last)).toString = true :=
      Address.startsWithSentinel_join haddress Known.last
    exact toOption_getRequest htag [] { bypass := true }
  | postVersion old resource rootVersions =>
    cases old with
    | placeholder number => rfl
    | real address =>
      refine (toOption_ok_bind address _).trans ?_
      cases hparent : startsWithSentinel (Address.parent address) with
      | true =>
        have hmarked : startsWithSentinel (Path.real (Address.parent address)).toString = true :=
          hparent
        simp only [stray?, hparent, if_true]
        exact toOption_request_post hmarked (firstVersion (.real address) resource rootVersions) {}
      | false =>
        have haddress : startsWithSentinel address = true := h
        have hroot := (Address.startsWithSentinel_parent haddress).resolve_left (by simp [hparent])
        simp only [stray?, hparent, Bool.false_eq_true, if_false, ← hroot]

variable {σ : Type} (net : Network σ) (arrived : Request → Bool) (w : World σ)

/-- A visit of what is written with the sentinel fails at once, and nobody outside sees anything of
it, unless it is one of the three that let a malformed placeholder through, or a read that finds its
slot taken. -/
theorem refused_or_stray (visit : Visit) (h : startsWithSentinel visit.written = true)
    (hshared : visit.shared? w.client = none) :
    match visit.stray? w.client with
    | none => ∃ fault after,
        visit.flow.turn net arrived w = (.done (.fault fault), after) ∧ w.Unseen after
    | some request => w.Asks (visit.flow.turn net arrived w).2 request := by
  have hopens : visit.flow.Opens net arrived w (visit.request w.client) :=
    visit.opens_flow hshared
  rw [← visit.toOption_request w.client h]
  cases hrequest : (visit.request w.client).toOption with
  | none => exact hopens.refused hrequest
  | some request => exact hopens.asks hrequest

def noContent : Network Unit := { answer := fun _ remote => (.ok { status := 204 }, remote) }

theorem refused_or_stray_of_get :
    let w : World Unit := { client := Client.opened {} {} true, remote := () }
    let visit : Visit := .get (.real "@x") [] {}
    startsWithSentinel visit.written = true ∧ visit.shared? w.client = none ∧
      ∃ fault after,
        visit.flow.turn noContent (fun _ => true) w = (.done (.fault fault), after) ∧
          w.Unseen after := by
  intro w visit
  have hwritten : startsWithSentinel visit.written = true := by decide
  have hshared : visit.shared? w.client = none := by decide +kernel
  exact ⟨hwritten, hshared,
    refused_or_stray noContent (fun _ => true) w visit hwritten hshared⟩

/-- A malformed placeholder is asked about, deleted, and has a version posted after it. -/
theorem strays_of_malformed :
    let schema : Schema := { resources := [("pool", {})] }
    let w : World Unit := { client := Client.opened {} schema true, remote := () }
    let version : Resource := { contentType := "pool", path := .placeholder 0 }
    Path.ofString "@x" = .real "@x" ∧
      ∀ visit ∈ [Visit.options (.real "@x"), .write (.delete (.real "@x")),
          .postVersion (.real "@x") version none],
        startsWithSentinel visit.written = true ∧
          (visit.flow.turn noContent (fun _ => true) w).2.trace.length = 1 := by
  decide +kernel

end Visit

end Service

end ResourceClient

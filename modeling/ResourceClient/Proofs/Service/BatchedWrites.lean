import ResourceClient.Proofs.Service.Batches
import ResourceClient.Proofs.Wire.Imports

/-!
What a batch drops from the cache, beside what its writes would drop one by one. Every result of a
batch that is taken in names a path, so it is these paths, and what was reported, that the batch
drops; the targets of the writes are dropped only as far as the results lead back to them.
-/
namespace ResourceClient

structure Report.Within (r s : Report) : Prop where
  changedDescendants : r.changedDescendants ⊆ s.changedDescendants
  created : r.created ⊆ s.created
  modified : r.modified ⊆ s.modified
  removed : r.removed ⊆ s.removed

namespace Report

variable (r s : Report)

theorem within_extend_left : r.Within (r.extend s) where
  changedDescendants := List.subset_append_left _ _
  created := List.subset_append_left _ _
  modified := List.subset_append_left _ _
  removed := List.subset_append_left _ _

theorem within_extend_right : s.Within (r.extend s) where
  changedDescendants := List.subset_append_right _ _
  created := List.subset_append_right _ _
  modified := List.subset_append_right _ _
  removed := List.subset_append_right _ _

variable {r s}

theorem Within.trans {t : Report} (h : r.Within s) (hnext : s.Within t) : r.Within t where
  changedDescendants := List.Subset.trans h.changedDescendants hnext.changedDescendants
  created := List.Subset.trans h.created hnext.created
  modified := List.Subset.trans h.modified hnext.modified
  removed := List.Subset.trans h.removed hnext.removed

theorem Within.refl (r : Report) : r.Within r :=
  ⟨List.Subset.refl _, List.Subset.refl _, List.Subset.refl _, List.Subset.refl _⟩

theorem Within.map (h : r.Within s) (f : String → String) : (r.map f).Within (s.map f) where
  changedDescendants := List.map_subset f h.changedDescendants
  created := List.map_subset f h.created
  modified := List.map_subset f h.modified
  removed := List.map_subset f h.removed

end Report

namespace LiveCache

theorem mem_touched_keys_cons {report : Report} {posted : List String} {key : String} :
    key ∈ (touched report posted).map Address.key ↔
      key ∈ (touched report []).map Address.key ∨
        ∃ p ∈ posted, key = Address.key p ∨ key = Address.key (Address.parent p) := by
  simp only [mem_touched_keys, List.mem_append, List.not_mem_nil, or_false, or_and_right,
    exists_or, or_assoc]

theorem touched_keys_of_within {r s : Report} (h : r.Within s) :
    (touched r []).map Address.key ⊆ (touched s []).map Address.key := by
  intro key hkey
  simp only [mem_touched_keys, List.mem_append, List.append_nil] at hkey ⊢
  refine hkey.imp (fun ⟨p, hp, hof⟩ => ⟨p, h.changedDescendants hp, hof⟩) ?_
  rintro ⟨p, hp, hof⟩
  refine ⟨p, ?_, hof⟩
  rcases hp with (hp | hp) | hp
  · exact .inl (.inl (h.created hp))
  · exact .inl (.inr (h.modified hp))
  · exact .inr (h.removed hp)

end LiveCache

namespace Client

variable {c : Client} {response : Response} {batch : BatchResponse} {resources : List Resource}

theorem cache_importBodies (bodies : List Json) (c : Client) :
    (c.importBodies bodies).2.cache = c.cache := by
  induction bodies generalizing c with
  | nil => rfl
  | cons body rest ih =>
    rcases hbody : Wire.importResource c.schema body c.names with ⟨fault | resource, names⟩
    · simp only [importBodies, importWire, hbody]
    · simp only [importBodies, importWire, hbody, ih]

theorem within_foldlM (results : List BatchResult) {base report : Report}
    (h : results.foldlM (fun report result => (readReport result.body).map report.extend) base =
      .ok report) :
    base.Within report ∧ ∀ result ∈ results, ∃ own, readReport result.body = .ok own ∧
      own.Within report := by
  induction results generalizing base with
  | nil =>
    obtain rfl := Except.ok.inj h
    exact ⟨Report.Within.refl _, fun _ hmem => absurd hmem List.not_mem_nil⟩
  | cons result rest ih =>
    rw [List.foldlM_cons] at h
    cases hown : readReport result.body with
    | error fault => rw [hown] at h; cases h
    | ok own =>
      rw [hown] at h
      obtain ⟨hbase, hrest⟩ := ih h
      refine ⟨(base.within_extend_left own).trans hbase, fun other hother => ?_⟩
      rcases List.mem_cons.1 hother with rfl | hother
      · exact ⟨own, hown, (base.within_extend_right own).trans hbase⟩
      · exact hrest other hother

theorem within_batchReport {report : Report} (h : batchReport batch = .ok report)
    {result : BatchResult} (hresult : result ∈ batch.results) :
    ∃ own, readReport result.body = .ok own ∧ own.Within report :=
  (within_foldlM batch.results h).2 result hresult

def touchedIn (c : Client) (operations : List BatchOperation) (batch : BatchResponse) :
    List String :=
  (operations.zip batch.results).flatMap fun (o, r) => c.batchTouched o r

theorem finishBatch_of_ok {operations : List BatchOperation}
    (h : (c.finishBatch operations response).1 = .ok resources) :
    ∃ batch report, response.Carries operations.length batch ∧ batchReport batch = .ok report ∧
      batch.Unpacks c resources ∧
      (c.finishBatch operations response).2.cache =
        c.cache.forgetTouched (report.map c.url) (c.touchedIn operations batch) := by
  obtain ⟨batch, hcarries, hunpacks⟩ := finishBatch_eq_ok h
  have hresults := batchResults_eq_ok_iff.2 hcarries
  unfold finishBatch at h ⊢
  rw [hresults] at h ⊢
  dsimp only at h ⊢
  cases hreport : batchReport batch with
  | error fault => rw [hreport] at h; cases h
  | ok report => exact ⟨batch, report, hcarries, hreport, hunpacks, cache_importBodies _ _⟩

theorem cache_finishWrite {url : String} {body : Json} {report : Report}
    (hreport : readReport body = .ok report) :
    (c.finishWrite url body).2.cache = c.cache.forgetTouched (report.map c.url)
      (url :: ((body.stringField? "path").map c.url).toList) := by
  unfold finishWrite
  rw [hreport]
  dsimp only
  unfold importWire
  rcases Wire.importResource _ body _ with ⟨result, names⟩
  rfl

theorem url_mem_touchedIn {operations : List BatchOperation} {i : Nat} {o : BatchOperation}
    {result : BatchResult} {path : String} (ho : operations[i]? = some o)
    (hresult : batch.results[i]? = some result) (hwrite : o.method ≠ .get)
    (hpath : result.body.stringField? "path" = some path) :
    c.url path ∈ c.touchedIn operations batch := by
  refine List.mem_flatMap.2 ⟨(o, result), ?_, ?_⟩
  · exact List.mem_of_getElem? (List.getElem?_zip_eq_some.2 ⟨ho, hresult⟩)
  · dsimp only [batchTouched]
    rw [if_neg hwrite, hpath]
    exact List.mem_singleton_self _

end Client

/-- What becomes of the cache through a write in a batch, whose result is at `url`, beside what
would become of it through the write alone. -/
structure BatchOperation.Forgets (o : BatchOperation) (body : Json) (url : String)
    (there back : Client) : Prop where
  result : back.cache.entryAt? (Address.key url) = none
  above : back.cache.entryAt? (Address.key (Address.parent url)) = none
  alone : ∀ key, (there.finishWrite o.target body).2.cache.entryAt? key = none →
    back.cache.entryAt? key = none ∨
      (key = Address.key o.target ∧ key ≠ Address.key url) ∨
      (key = Address.key (Address.parent o.target) ∧ key ≠ Address.key (Address.parent url))

namespace Client

variable {c : Client}

theorem forgets_of_touched {back : Client} {o : BatchOperation} {body : Json} {path : String}
    {own report : Report} {posted : List String} (hpath : body.stringField? "path" = some path)
    (hown : readReport body = .ok own) (hwithin : own.Within report)
    (hposted : c.url path ∈ posted)
    (hback : back.cache = c.cache.forgetTouched (report.map c.url) posted) :
    o.Forgets body (c.url path) c back := by
  have hgone : back.cache.entryAt? (Address.key (c.url path)) = none ∧
      back.cache.entryAt? (Address.key (Address.parent (c.url path))) = none := by
    rw [hback]
    exact LiveCache.entryAt?_forgetTouched_of_posted c.cache hposted
  obtain ⟨hself, habove⟩ := hgone
  refine ⟨hself, habove, fun key hkey => ?_⟩
  rw [cache_finishWrite hown, hpath, LiveCache.entryAt?_forgetTouched] at hkey
  split at hkey
  · next hmem =>
    rcases LiveCache.mem_touched_keys_cons.1 hmem with hreported | ⟨p, hp, hof⟩
    · have hcovered := LiveCache.touched_keys_of_within (hwithin.map c.url) hreported
      refine .inl ?_
      rw [hback, LiveCache.entryAt?_forgetTouched,
        if_pos (LiveCache.mem_touched_keys_cons.2 (.inl hcovered))]
    · by_cases hresult : key = Address.key (c.url path)
      · rw [hresult]
        exact .inl hself
      · by_cases hover : key = Address.key (Address.parent (c.url path))
        · rw [hover]
          exact .inl habove
        · have htarget : p = o.target := by
            rcases List.mem_cons.1 hp with htarget | hp
            · exact htarget
            · obtain rfl : p = c.url path := by simpa using hp
              exact absurd hof (not_or.2 ⟨hresult, hover⟩)
          rw [htarget] at hof
          exact .inr (hof.imp (⟨·, hresult⟩) (⟨·, hover⟩))
  · refine .inl ?_
    rw [hback, LiveCache.entryAt?_forgetTouched, hkey, ite_self]

end Client

namespace Service

variable {σ : Type} (net : Network σ) (meanwhile : World σ → World σ) (w : World σ)

theorem exists_finishBatch {operations : List BatchOperation} (h : operations ≠ [])
    {resources : List Resource}
    (hok : ((sendBatch operations).runAmid net meanwhile w).1 = .ok resources) :
    let exchanged := w.exchangeAmid net meanwhile (w.client.batchRequest operations)
    ∃ response, exchanged.1 = .ok response ∧
      (exchanged.2.client.finishBatch operations response).1 = .ok resources ∧
      ((sendBatch operations).runAmid net meanwhile w).2.client =
        (exchanged.2.client.finishBatch operations response).2 := by
  intro exchanged
  rw [runAmid_sendBatch net meanwhile w h] at hok ⊢
  unfold exchanged
  generalize w.exchangeAmid net meanwhile _ = answered at hok ⊢
  obtain ⟨fault | response, there⟩ := answered
  · cases hok
  · exact ⟨response, rfl, hok, rfl⟩

/-- A batch that succeeds drops what its results name and report, with the collections above, and
nothing else; each of its writes drops so much of what it would drop alone. -/
theorem sendBatch_forgets {operations : List BatchOperation} (h : operations ≠ [])
    {resources : List Resource}
    (hok : ((sendBatch operations).runAmid net meanwhile w).1 = .ok resources) :
    let exchanged := w.exchangeAmid net meanwhile (w.client.batchRequest operations)
    let there := exchanged.2.client
    let back := ((sendBatch operations).runAmid net meanwhile w).2.client
    ∃ response batch report, exchanged.1 = .ok response ∧
      response.Carries operations.length batch ∧ Client.batchReport batch = .ok report ∧
      (∀ key, back.cache.entryAt? key =
        if key ∈ (LiveCache.touched (report.map there.url)
          (there.touchedIn operations batch)).map Address.key then none
        else there.cache.entryAt? key) ∧
      ∀ (i : Nat) o result, operations[i]? = some o → batch.results[i]? = some result →
        o.method ≠ .get → ∃ path, result.body.stringField? "path" = some path ∧
          o.Forgets result.body (there.url path) there back := by
  intro exchanged there back
  obtain ⟨response, hanswer, hfinish, hback⟩ := exists_finishBatch net meanwhile w h hok
  obtain ⟨batch, report, hcarries, hreport, hunpacks, hcache⟩ := Client.finishBatch_of_ok hfinish
  rw [← hback] at hcache
  refine ⟨response, batch, report, hanswer, hcarries, hreport, fun key => ?_, ?_⟩
  · rw [← LiveCache.entryAt?_forgetTouched, ← hcache]
  · intro i o result ho hresult hwrite
    obtain ⟨resource, -, himport⟩ := hunpacks.imported i result hresult
    obtain ⟨path, hpath, -⟩ := Wire.path_of_importResource himport
    obtain ⟨own, hown, hwithin⟩ :=
      Client.within_batchReport hreport (List.mem_of_getElem? hresult)
    refine ⟨path, hpath, Client.forgets_of_touched hpath hown hwithin ?_ hcache⟩
    exact Client.url_mem_touchedIn ho hresult hwrite hpath

/-- A batched write of `/a/`, which is answered as `/b/`. -/
theorem sendBatch_forgets_result :
    let body : Json := .object [("content_type", .string "pool"), ("path", .string "/b/")]
    let answer : Json := .array [.object [("body", body), ("code", .number (.int 200))]]
    let net : Network Unit := { answer := fun _ remote => (.ok (.ofJson 200 answer), remote) }
    let w : World Unit := { client := { schema := { resources := [("pool", {})] } }, remote := () }
    let operations : List BatchOperation :=
      [{ method := .put, target := "http://localhost:6541/a/" }]
    let ran := (sendBatch operations).runAmid net id w
    ran.1.isOk = true ∧
      ∃ path, ran.2.client.cache.entryAt? (Address.key (w.client.url path)) = none := by
  intro body answer net w operations ran
  have hran : ran.1.isOk = true := by decide +kernel
  refine ⟨hran, ?_⟩
  cases hok : ran.1 with
  | error fault => rw [hok] at hran; cases hran
  | ok resources =>
    obtain ⟨response, batch, report, -, hcarries, -, -, hwrites⟩ :=
      sendBatch_forgets net id w (List.cons_ne_nil _ _) hok
    obtain ⟨result, hresult⟩ : ∃ result, batch.results[0]? = some result :=
      ⟨_, List.getElem?_eq_getElem (by rw [hcarries.length]; exact Nat.one_pos)⟩
    obtain ⟨path, -, hforgets⟩ := hwrites 0 _ _ rfl hresult nofun
    exact ⟨path, hforgets.result⟩

/-- The same answer makes a write alone drop its target. -/
theorem sendBatch_keeps_target :
    let resource : Resource := { contentType := "pool", path := .real "/a/" }
    let cache : LiveCache := { hub := { connected := true } }
    let client : Client := {
      schema := { resources := [("pool", {})] }
      cache := cache.put "http://localhost:6541/a/" "" resource }
    let w : World Unit := { client, remote := () }
    let body : Json := .object [("content_type", .string "pool"), ("path", .string "/b/")]
    let alone : Network Unit := { answer := fun _ remote => (.ok (.ofJson 200 body), remote) }
    let answer : Json := .array [.object [("body", body), ("code", .number (.int 200))]]
    let batched : Network Unit := { answer := fun _ remote => (.ok (.ofJson 200 answer), remote) }
    let recorded := ({} : Transaction).put client (.real "/a/") resource
    let committed := (sendBatch recorded.2.operations).runAmid batched id w
    let written := (put (.real "/a/") resource).runAmid alone id w
    recorded.1.isOk = true ∧ committed.1.isOk = true ∧ written.1.isOk = true ∧
      committed.2.client.cache.contains (client.url "/a/") = true ∧
      written.2.client.cache.contains (client.url "/a/") = false := by
  decide +kernel

end Service

end ResourceClient

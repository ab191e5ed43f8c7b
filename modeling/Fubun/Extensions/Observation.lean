import Fubun.Extensions.Mappings
import Fubun.Relational.Table

/-! The resources that the browser extension observes, over whole runs: a call that writes back a
list in which nothing has changed since it read it turns only its own resources on and off. -/

namespace Fubun.Extensions
open Concurrency Program System Relational

/-! ## What has been written -/

def writtenOf (l : Label Nat BrowserOp.Res BrowserRequest (Except String Unit)) : Option (List BrowserResourceMapping) :=
  match l with
  | .call _ (.write written) _ => some written
  | _ => none

def stored (log : BrowserLog) : List BrowserResourceMapping := (log.filterMap writtenOf).getLast?.getD []

theorem writtenOf_eq_some {l : Label Nat BrowserOp.Res BrowserRequest (Except String Unit)}
    {written : List BrowserResourceMapping} (h : writtenOf l = some written) : ∃ i, l = .call i (.write written) () := by
  cases l with
  | call i o r =>
    cases o with
    | write written' => exact ⟨i, by rw [Option.some.inj h]⟩
    | _ => exact nomatch h
  | _ => exact nomatch h

theorem stored_snoc (log : BrowserLog) (l : Label Nat BrowserOp.Res BrowserRequest (Except String Unit)) :
    stored (log ++ [l]) = (writtenOf l).getD (stored log) := by
  rw [stored, List.filterMap_append]
  cases hl : writtenOf l with
  | none =>
    have hnone : [l].filterMap writtenOf = [] := by simp [hl]
    rw [hnone, List.append_nil]
    rfl
  | some written =>
    have hsome : [l].filterMap writtenOf = [written] := by simp [hl]
    rw [hsome, List.getLast?_concat]
    rfl

/-- The resource that an `observeCurrentPage` adds. -/
def ownResource (request : BrowserRequest) (written : List BrowserResourceMapping) : Option String :=
  match request with
  | .observe _ => written.getLast?.map (·.resourceId)
  | _ => none

/-- The write puts its own page in as active. -/
def Observes (crates : Crates) (request : BrowserRequest) (τ : BrowserTrace) (written : List BrowserResourceMapping)
    (resourceId : String) : Prop :=
  ∃ requestedCanonical canonical mapping, request = .observe requestedCanonical ∧
    PageOf crates requestedCanonical τ canonical ∧ written.getLast? = some mapping ∧
      mapping.resourceId = resourceId ∧ mapping.isActive = true ∧
        mapping.canonicalUrlHash = canonicalUrlHash crates canonical

/-- The write records a resource as locally paused that the call has read as active and applies to. -/
def Stops (crates : Crates) (request : BrowserRequest) (τ : BrowserTrace) (written : List BrowserResourceMapping)
    (resourceId : String) : Prop :=
  pausedIn written resourceId = true ∧ ∃ mapping ∈ copied τ, mapping.resourceId = resourceId ∧
    mapping.isActive = true ∧ Applies crates request τ mapping

/-- Nothing that the write carries over as active, or leaves out as not active, has changed since the
list was read, and no active resource is one that the call has completed; its own resource apart. -/
def upToDate (own : Option String) (completed : List String) (copy written store : List BrowserResourceMapping) : Bool :=
  (copy ++ store).all fun mapping =>
    own == some mapping.resourceId ||
      (! (activeIn copy mapping.resourceId && activeIn written mapping.resourceId) ||
          activeIn store mapping.resourceId) &&
        (! activeIn store mapping.resourceId ||
          activeIn copy mapping.resourceId && ! completed.contains mapping.resourceId)

section Lists
variable {crates : Crates} {request : BrowserRequest} {τ : BrowserTrace}
  {copy written store : List BrowserResourceMapping} {resourceId : String}

theorem activeIn_recorded (h : activeIn written resourceId = true) : recordedIn written resourceId = true := by
  obtain ⟨mapping, hmem, -, hid⟩ := activeIn_iff.mp h
  exact recordedIn_iff.mpr ⟨mapping, hmem, hid⟩

theorem upToDate_iff {own : Option String} {completed : List String} : upToDate own completed copy written store = true ↔
    ∀ resourceId, own ≠ some resourceId →
      (activeIn copy resourceId = true → activeIn written resourceId = true → activeIn store resourceId = true) ∧
        (activeIn store resourceId = true → activeIn copy resourceId = true ∧ resourceId ∉ completed) := by
  have hmapping {ms : List BrowserResourceMapping} {resourceId : String} (h : activeIn ms resourceId = true) :
      ∃ mapping ∈ ms, mapping.resourceId = resourceId := recordedIn_iff.mp (activeIn_recorded h)
  have hone (resourceId : String) : (own == some resourceId ||
      (! (activeIn copy resourceId && activeIn written resourceId) || activeIn store resourceId) &&
        (! activeIn store resourceId || activeIn copy resourceId && ! completed.contains resourceId)) = true ↔
      (own ≠ some resourceId →
        (activeIn copy resourceId = true → activeIn written resourceId = true → activeIn store resourceId = true) ∧
          (activeIn store resourceId = true → activeIn copy resourceId = true ∧ resourceId ∉ completed)) := by
    rw [← List.contains_iff_mem]
    simp only [Bool.or_eq_true, Bool.and_eq_true, Bool.not_eq_true', beq_iff_eq, Bool.and_eq_false_iff]
    cases activeIn copy resourceId <;> cases activeIn written resourceId <;> cases activeIn store resourceId <;>
      cases completed.contains resourceId <;> by_cases hown : own = some resourceId <;> simp [hown]
  constructor
  · intro h resourceId hown
    constructor
    · intro hcopy hwritten
      obtain ⟨mapping, hmem, rfl⟩ := hmapping hcopy
      have hall := List.all_eq_true.mp h mapping (List.mem_append_left _ hmem)
      exact ((hone _).mp hall hown).1 hcopy hwritten
    · intro hstore
      obtain ⟨mapping, hmem, rfl⟩ := hmapping hstore
      have hall := List.all_eq_true.mp h mapping (List.mem_append_right _ hmem)
      exact ((hone _).mp hall hown).2 hstore
  · intro h
    apply List.all_eq_true.mpr
    intro mapping _
    exact (hone _).mpr (h mapping.resourceId)

/-! ## Edits -/

theorem Edit.keyed (he : Edit crates request τ written) (hk : Keyed (·.resourceId) (copied τ)) :
    Keyed (·.resourceId) written := by
  cases he with
  | observe requestedCanonical canonical mapping _ _ _ _ hwritten _ =>
    rw [hwritten, observed]
    refine Keyed.insert (hk.sublist (List.filter_sublist.map _)) fun y hy => ?_
    simpa using (List.mem_filter.mp hy).2
  | pause edit _ hwritten hid _ =>
    have hmap : written.map (·.resourceId) = (copied τ).map (·.resourceId) := by
      rw [hwritten, List.map_map]
      exact List.map_congr_left fun m _ => hid m
    rw [Keyed, hmap]
    exact hk
  | forget completed _ hwritten =>
    rw [hwritten, forgotten]
    exact hk.sublist (List.filter_sublist.map _)

theorem ownResource_eq_none (h : ∀ url, request ≠ .observe url) : ownResource request written = none := by
  cases request with
  | observe url => exact absurd rfl (h url)
  | _ => rfl

theorem observed_getLast (mapping : BrowserResourceMapping) (current : List BrowserResourceMapping) :
    (observed mapping current).getLast? = some mapping := List.getLast?_concat

theorem Edit.active (he : Edit crates request τ written) (hown : ownResource request written ≠ some resourceId)
    (h : activeIn written resourceId = true) : activeIn (copied τ) resourceId = true := by
  obtain ⟨m, hmem, hactive, rfl⟩ := activeIn_iff.mp h
  cases he with
  | observe requestedCanonical canonical mapping hrequest _ _ _ hwritten =>
    rw [hrequest, ownResource, hwritten, observed_getLast] at hown
    rw [hwritten] at hmem
    rcases List.mem_append.mp hmem with hmem | hmem
    · exact activeIn_iff.mpr ⟨m, (List.mem_filter.mp hmem).1, hactive, rfl⟩
    · obtain rfl := List.mem_singleton.mp hmem
      exact absurd rfl hown
  | pause edit _ hwritten _ hedit =>
    rw [hwritten] at hmem
    obtain ⟨m', hmem', rfl⟩ := List.mem_map.mp hmem
    rcases hedit m' with hkept | ⟨hpaused, -⟩
    · rw [hkept] at hactive ⊢
      exact activeIn_iff.mpr ⟨m', hmem', hactive, rfl⟩
    · exact nomatch (not_isActive hpaused).symm.trans hactive
  | forget completed _ hwritten =>
    rw [hwritten] at hmem
    exact activeIn_iff.mpr ⟨m, (List.mem_filter.mp hmem).1, hactive, rfl⟩

theorem Edit.observes (he : Edit crates request τ written) (hown : ownResource request written = some resourceId) :
    Observes crates request τ written resourceId := by
  cases he with
  | observe requestedCanonical canonical mapping hrequest hpage hactive hhash hwritten =>
    rw [hrequest, ownResource, hwritten, observed_getLast] at hown
    obtain rfl := Option.some.inj hown
    have hlast : written.getLast? = some mapping := hwritten ▸ observed_getLast mapping _
    exact ⟨requestedCanonical, canonical, mapping, hrequest, hpage, hlast, rfl, hactive, hhash⟩
  | pause edit hrequest => exact nomatch (ownResource_eq_none hrequest).symm.trans hown
  | forget completed hrequest => exact nomatch (ownResource_eq_none hrequest).symm.trans hown

theorem Observes.own (h : Observes crates request τ written resourceId) :
    ownResource request written = some resourceId := by
  obtain ⟨requestedCanonical, canonical, mapping, rfl, -, hlast, rfl, -⟩ := h
  rw [ownResource, hlast]
  rfl

theorem Observes.active (h : Observes crates request τ written resourceId) : activeIn written resourceId = true := by
  obtain ⟨requestedCanonical, canonical, mapping, -, -, hlast, hid, hactive, -⟩ := h
  exact activeIn_iff.mpr ⟨mapping, List.mem_of_getLast? hlast, hactive, hid⟩

/-- Of the list that it is made from, a write records every resource but those that the call has completed. -/
theorem Edit.recorded (he : Edit crates request τ written) (hreads : ReadsKeyed τ)
    (hown : ownResource request written ≠ some resourceId) (hcopy : recordedIn (copied τ) resourceId = true) :
    recordedIn written resourceId = true ↔ resourceId ∉ completedBy request τ := by
  obtain ⟨m, hmem, rfl⟩ := recordedIn_iff.mp hcopy
  have hfirst (hτ : ∀ x ∈ τ, keeps x = true) (hin : recordedIn written m.resourceId = true) :
      recordedIn written m.resourceId = true ↔ m.resourceId ∉ completedBy request τ := by
    rw [completedBy_first request hτ]
    exact iff_of_true hin List.not_mem_nil
  cases he with
  | observe requestedCanonical canonical mapping hrequest _ _ _ hwritten hτ =>
    refine hfirst hτ (recordedIn_iff.mpr ⟨m, ?_, rfl⟩)
    rw [hrequest, ownResource, hwritten, observed_getLast] at hown
    rw [hwritten]
    apply List.mem_append_left
    apply List.mem_filter.mpr
    rw [bne_iff_ne]
    exact ⟨hmem, fun heq => hown (congrArg some heq.symm)⟩
  | pause edit _ hwritten hkeeps _ hτ =>
    exact hfirst hτ (recordedIn_iff.mpr ⟨edit m, hwritten ▸ List.mem_map_of_mem hmem, hkeeps m⟩)
  | forget completed _ hwritten hcompleted =>
    obtain rfl := hcompleted hreads
    rw [hwritten, recordedIn_iff]
    constructor
    · rintro ⟨m', hmem', hid⟩
      simpa [hid] using (List.mem_filter.mp hmem').2
    · intro hnot
      exact ⟨m, List.mem_filter.mpr ⟨hmem, by simpa using hnot⟩, rfl⟩

/-- A write that still records a resource of the list it is made from, and no longer as active, pauses it. -/
theorem Edit.stops (he : Edit crates request τ written) (hk : Keyed (·.resourceId) (copied τ))
    (hown : ownResource request written ≠ some resourceId) (hcopy : activeIn (copied τ) resourceId = true)
    (hrecorded : recordedIn written resourceId = true) (hoff : activeIn written resourceId = false) :
    Stops crates request τ written resourceId := by
  obtain ⟨m, hmem, hactive, rfl⟩ := activeIn_iff.mp hcopy
  have hkept {m' : BrowserResourceMapping} (h : m' ∈ written) (hm' : m' = m) : False := by
    have hon := activeIn_iff.mpr ⟨m', h, hm' ▸ hactive, by rw [hm']⟩
    exact nomatch hon.symm.trans hoff
  obtain ⟨m', hmem', hid'⟩ := recordedIn_iff.mp hrecorded
  cases he with
  | observe requestedCanonical canonical mapping hrequest _ _ _ hwritten =>
    rw [hrequest, ownResource, hwritten, observed_getLast] at hown
    have hin : m ∈ written := by
      rw [hwritten]
      apply List.mem_append_left
      apply List.mem_filter.mpr
      rw [bne_iff_ne]
      exact ⟨hmem, fun heq => hown (congrArg some heq.symm)⟩
    exact (hkept hin rfl).elim
  | pause edit _ hwritten hkeeps hedit =>
    have hin : edit m ∈ written := hwritten ▸ List.mem_map_of_mem hmem
    -- the pausing edit leaves a mapping or pauses it
    rcases hedit m with hsame | ⟨hpaused, affected, haffected, hid, hstate⟩
    · exact (hkept hin hsame).elim
    · obtain rfl := hk.eq haffected hmem hid
      refine ⟨pausedIn_iff.mpr ⟨edit affected, hin, hkeeps affected, hpaused⟩, affected, hmem, rfl, hactive, ?_⟩
      rcases hstate with hpaused' | ⟨-, happlies⟩
      · exact nomatch (not_isActive hpaused').symm.trans hactive
      · exact happlies
  | forget completed _ hwritten =>
    rw [hwritten] at hmem'
    obtain ⟨hold, hleft⟩ := List.mem_filter.mp hmem'
    have hsame := hk.eq hold hmem hid'
    exact (hkept (hwritten ▸ hmem') hsame).elim

end Lists

/-! ## Runs -/

abbrev BrowserStep := Concurrency.Event Nat BrowserRequest BrowserChoice BrowserDrift

def fresh (c : BrowserState) : BrowserStep → Bool
  | .call i _ => (c.threads i).all fun t =>
    match t.rest with
    | .call (.write written) _ =>
      upToDate (ownResource t.request written) (completedBy t.request t.trace) (copied t.trace) written c.world.store
    | _ => true
  | _ => true

abbrev Fresh (c : BrowserState) (e : BrowserStep) : Prop := fresh c e = true

/-- What follows on a log has a write that puts its own page, with this resource, in as active. -/
def ObservedIn (crates : Crates) (log more : BrowserLog) (resourceId : String) : Prop :=
  ∃ before n written after request τ, more = before ++ .call n (.write written) () :: after ∧
    Serving n request τ (log ++ before) ∧ Observes crates request τ written resourceId

/-- The lists that are read and written have one mapping for each resource. -/
structure Listed (c : BrowserState) : Prop where
  store : Keyed (·.resourceId) c.world.store
  reads : ∀ i stored, .call i .read stored ∈ c.log → Keyed (·.resourceId) stored
  writes : ∀ i written, .call i (.write written) () ∈ c.log → Keyed (·.resourceId) written

section Runs
variable {crates : Crates} {now : Int} {ok : BrowserState → BrowserStep → Prop} {c c' : BrowserState}
  {e : BrowserStep} {log more earlier : BrowserLog} {resourceId : String} {i : Nat}

theorem act_store {o : BrowserOp} {ch : BrowserChoice} {w w' : BrowserWorld} {r : o.Res}
    (h : BrowserWorld.act i o ch w = some (r, w')) : w'.store = (writtenOf (.call i o r)).getD w.store := by
  cases o with
  | enqueue key =>
    obtain rfl := (Prod.mk.inj (Option.some.inj h)).2
    show (w.enqueue key).2.store = w.store
    rw [BrowserWorld.enqueue]
    split_ifs <;> rfl
  | turn place =>
    rw [BrowserWorld.act] at h
    split_ifs at h
    obtain rfl := (Prod.mk.inj (Option.some.inj h)).2
    rfl
  | _ =>
    obtain rfl := (Prod.mk.inj (Option.some.inj h)).2
    rfl

theorem step_stored (hs : (extension crates).Step c e c') :
    ∃ l, c'.log = c.log ++ [l] ∧ c'.world.store = (writtenOf l).getD c.world.store := by
  cases hs with
  | arrive => exact ⟨_, rfl, rfl⟩
  | call _ _ hact => exact ⟨_, rfl, act_store hact⟩
  | answer => exact ⟨_, rfl, rfl⟩
  | @drift e =>
    refine ⟨_, rfl, ?_⟩
    cases e <;> rfl
  | restart => exact ⟨_, rfl, rfl⟩

theorem reaches_stored (h : (extension crates).Reaches (.start now) ok c) : c.world.store = stored c.log := by
  induction h with
  | init => rfl
  | step _ _ hs ih =>
    obtain ⟨l, hlog, hstore⟩ := step_stored hs
    rw [hstore, hlog, stored_snoc, ih]

theorem step_write (h : (extension crates).Reaches (.start now) ok c) (hs : (extension crates).Step c e c')
    {written : List BrowserResourceMapping} (hlog : c'.log = c.log ++ [.call i (.write written) ()]) :
    ∃ t ch, e = .call i ch ∧ c.threads i = some t ∧ (∃ k, t.rest = .call (.write written) k) ∧
      Edit crates t.request t.trace written ∧ c'.world.store = written := by
  obtain ⟨t, k, ch, rfl, ht, hrest, hact⟩ := hs.call_of_log hlog
  have hleads := (h.traced ht).leads
  rw [hrest] at hleads
  obtain ⟨-, hworld⟩ := Prod.mk.inj (Option.some.inj hact)
  exact ⟨t, ch, rfl, ht, ⟨k, hrest⟩, handler_write hleads, hworld ▸ rfl⟩

theorem Listed.readsKeyed (hl : Listed c) {t : Thread BrowserOp BrowserOp.Res BrowserRequest (Except String Unit)}
    (h : (extension crates).Reaches (.start now) ok c) (ht : c.threads i = some t) : ReadsKeyed t.trace :=
  fun stored hread => hl.reads i stored (h.mem_log ht hread)

theorem reaches_listed (h : (extension crates).Reaches (.start now) ok c) : Listed c := by
  induction h with
  | init => exact ⟨keyed_nil, fun _ _ hl => (nomatch hl), fun _ _ hl => (nomatch hl)⟩
  | @step c c' e hr _ hs ih =>
    have hkeep {l : Label Nat BrowserOp.Res BrowserRequest (Except String Unit)} (hlog : c'.log = c.log ++ [l])
        (hstore : Keyed (·.resourceId) c'.world.store)
        (hread : ∀ i stored, l = .call i .read stored → Keyed (·.resourceId) stored)
        (hwrite : ∀ i written, l = .call i (.write written) () → Keyed (·.resourceId) written) : Listed c' := by
      refine ⟨hstore, fun i stored hl => ?_, fun i written hl => ?_⟩
      · rw [hlog] at hl
        rcases List.mem_append.mp hl with hl | hl
        · exact ih.reads i stored hl
        · exact hread i stored (List.mem_singleton.mp hl).symm
      · rw [hlog] at hl
        rcases List.mem_append.mp hl with hl | hl
        · exact ih.writes i written hl
        · exact hwrite i written (List.mem_singleton.mp hl).symm
    obtain ⟨l, hlog, hstore⟩ := step_stored hs
    by_cases hwritten : ∃ i written, l = .call i (.write written) ()
    · obtain ⟨i, written, rfl⟩ := hwritten
      obtain ⟨t, ch, -, ht, -, hedit, hstore'⟩ := step_write hr hs hlog
      have hkeyed := hedit.keyed (copied_keyed (ih.readsKeyed hr ht))
      refine hkeep hlog (hstore' ▸ hkeyed) (fun _ _ heq => ?_) fun j written' heq => ?_
      · exact nomatch (Label.call.inj heq).2.1
      · obtain ⟨-, hop, -⟩ := Label.call.inj heq
        exact BrowserOp.write.inj hop ▸ hkeyed
    · have hsame : c'.world.store = c.world.store := by
        rw [hstore]
        cases l with
        | call i o r =>
          cases o with
          | write written => exact absurd ⟨i, written, rfl⟩ hwritten
          | _ => rfl
        | _ => rfl
      refine hkeep hlog (hsame ▸ ih.store) (fun j stored heq => ?_) fun j written heq => absurd ⟨j, written, heq⟩ hwritten
      subst heq
      obtain ⟨t, k, ch, -, ht, -, hact⟩ := hs.call_of_log hlog
      obtain rfl := (Prod.mk.inj (Option.some.inj hact)).1
      exact ih.store

/-! ## Turning on and off -/

theorem fresh_call {ch : BrowserChoice} {t : Thread BrowserOp BrowserOp.Res BrowserRequest (Except String Unit)}
    {written : List BrowserResourceMapping} (ht : c.threads i = some t)
    (hrest : ∃ k, t.rest = .call (.write written) k) :
    fresh c (.call i ch) = upToDate (ownResource t.request written) (completedBy t.request t.trace) (copied t.trace)
      written c.world.store := by
  obtain ⟨k, hrest⟩ := hrest
  rw [fresh, ht, Option.all_some, hrest]

theorem turned_on (h : (extension crates).Reaches (.start now) ok c) (hfresh : Fresh c e)
    (hs : (extension crates).Step c e c') (hoff : activeIn c.world.store resourceId = false)
    (hon : activeIn c'.world.store resourceId = true) :
    ∃ i request τ written, c'.log = c.log ++ [.call i (.write written) ()] ∧ Serving i request τ c.log ∧
      Observes crates request τ written resourceId := by
  obtain ⟨l, hlog, hstore⟩ := step_stored hs
  cases hl : writtenOf l with
  | none =>
    rw [hl] at hstore
    rw [hstore] at hon
    exact nomatch hoff.symm.trans hon
  | some written =>
    obtain ⟨i, rfl⟩ := writtenOf_eq_some hl
    obtain ⟨t, ch, rfl, ht, hrest, hedit, hwritten⟩ := step_write h hs hlog
    rw [hwritten] at hon
    refine ⟨i, t.request, t.trace, written, hlog, h.serving ht, hedit.observes ?_⟩
    by_contra hown
    rw [Fresh, fresh_call ht hrest] at hfresh
    have hstale := (upToDate_iff.mp hfresh resourceId hown).1 (hedit.active hown hon) hon
    exact nomatch hoff.symm.trans hstale

theorem turned_off (h : (extension crates).Reaches (.start now) ok c) (hfresh : Fresh c e)
    (hs : (extension crates).Step c e c') (hon : activeIn c.world.store resourceId = true)
    (hoff : activeIn c'.world.store resourceId = false) :
    ∃ i request τ written, c'.log = c.log ++ [.call i (.write written) ()] ∧ Serving i request τ c.log ∧
      Stops crates request τ written resourceId := by
  obtain ⟨l, hlog, hstore⟩ := step_stored hs
  cases hl : writtenOf l with
  | none =>
    rw [hl] at hstore
    rw [hstore] at hoff
    exact nomatch hoff.symm.trans hon
  | some written =>
    obtain ⟨i, rfl⟩ := writtenOf_eq_some hl
    obtain ⟨t, ch, rfl, ht, hrest, hedit, hwritten⟩ := step_write h hs hlog
    rw [hwritten] at hoff
    have hown : ownResource t.request written ≠ some resourceId := by
      intro hown
      exact nomatch hoff.symm.trans (hedit.observes hown).active
    rw [Fresh, fresh_call ht hrest] at hfresh
    obtain ⟨hcopy, hnot⟩ := (upToDate_iff.mp hfresh resourceId hown).2 hon
    have hreads := (reaches_listed h).readsKeyed h ht
    have hrecorded := (hedit.recorded hreads hown (activeIn_recorded hcopy)).mpr hnot
    exact ⟨i, t.request, t.trace, written, hlog, h.serving ht, hedit.stops (copied_keyed hreads) hown hcopy hrecorded hoff⟩

end Runs
end Fubun.Extensions

/-! ## Two pages -/

namespace Fubun.Sample
open Encoding Extensions

def pages : Crates where
  canonicalJson _ := none
  parseDefinition _ := none
  sha256Hex text :=
    if text = "https://a.example/" then "befde498a45b6c82084a07709548fe6ff7cad85ae6f76a971ad9afaa83f20595"
    else if text = "https://b.example/" then "5d1dd98498cb9c1e0fa2a79db2aa6f6c0cc5a03947fa0a540431ca510a131058" else ""
  parseUrl text :=
    if text = "https://a.example/" then some ⟨"https", "", none, some "a.example", none, "/", none, none⟩
    else if text = "https://b.example/" then some ⟨"https", "", none, some "b.example", none, "/", none, none⟩ else none
  urlToString url := url.scheme ++ "://" ++ url.host.getD "" ++ url.path
  formatRfc3339? _ := some "1970-01-01T00:00:00Z"

def enabledPage (resourceId scopeId : Uuid) (host : String) : Json :=
  .object [("resource", .object [("id", resourceId.toJson), ("kind", .string "web.page"), ("label", .string host)]),
    ("scope", .object [("id", scopeId.toJson), ("source", .string "browser.chromium"),
      ("resource_id", resourceId.toJson), ("status", .string "active")]),
    ("canonical_url_hash", .string (pages.sha256Hex ("https://" ++ host ++ "/"))),
    ("origin_pattern", .string ("https://" ++ host ++ "/*"))]

def tabOf (host : String) : BrowserTab := ⟨some 1, some ("https://" ++ host ++ "/"), none⟩

/-- A browser that grants what it is asked, with `host` in its active tab; the native host answers `reply`. -/
def granting (host : String) (reply : Option Json) : BrowserChoice := ⟨some (tabOf host), true, true, true, reply⟩

/-- Call `n` observes a page, up to the write of its mapping. -/
def observing (n : Nat) (resourceId scopeId : Uuid) (host : String) : List BrowserStep :=
  .arrive n (.observe (some ("https://" ++ host ++ "/"))) ::
    List.replicate 6 (.call n (granting host (some (enabledPage resourceId scopeId host))))

def observedOnce : List BrowserStep :=
  observing 0 20 21 "a.example" ++ [.call 0 (granting "a.example" none), .call 0 (granting "a.example" none), .answer 0]

/-- Call `n` stops the page of the active tab, up to the write that pauses it. -/
def stopping (n : Nat) (host : String) : List BrowserStep :=
  .arrive n .stop :: List.replicate 2 (.call n (granting host none))

def pausedScope (resourceId scopeId : Uuid) : Json :=
  .object [("id", scopeId.toJson), ("source", .string "browser.chromium"), ("resource_id", resourceId.toJson),
    ("status", .string "paused")]

/-- Call `n` stops the page of the active tab, and the core confirms it. -/
def stoppedPage (n : Nat) (resourceId scopeId : Uuid) (host : String) : List BrowserStep :=
  stopping n host ++ List.replicate 7 (.call n (granting host (some (pausedScope resourceId scopeId)))) ++ [.answer n]

def browse (es : List BrowserStep) : Option BrowserState := (extension pages).exec (.init (.start 0)) es

end Fubun.Sample

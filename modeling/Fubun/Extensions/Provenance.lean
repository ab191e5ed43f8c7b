import Fubun.Extensions.Quiet

/-! Where the mappings of the browser extension come from, over whole runs: a page is observed when the
user has asked for it, its origin is permitted and the core has enabled it, and what the extension
does for a page it does for such a mapping. -/

namespace Fubun.Extensions
open Concurrency Program System Relational

section Paths
variable {crates : Crates} {τ : BrowserTrace} {written : List BrowserResourceMapping}

theorem observePage_granted {canonical pattern label : String} {k : Unit → Browser (Except String Unit)}
    (h : Leads (observePage crates canonical pattern label) τ (.call (.write written) k)) :
    ∃ τ₁ reply τ₂ stored, ⟨.response "browser.observation.enabled", some reply⟩ ∈ τ₁ ∧
      ⟨.permissionGranted pattern, true⟩ ∈ τ₁ ∧
      τ = τ₁ ++ ⟨.permissionGranted pattern, true⟩ :: τ₂ ++ [⟨.read, stored⟩] ∧
      ∃ mapping, observedMapping crates canonical pattern reply = .ok mapping ∧
        written = observed mapping (stored.filter (·.isMapping)) := by
  unfold observePage at h
  obtain ⟨granted, τ₁, rfl, h₁⟩ := leads_perform_call h (by simp)
  cases granted with
  | false => exact absurd h₁ not_leads_ret_call
  | true =>
    obtain ⟨τ₂, response, τ₃, rfl, -, hresponse, h₂⟩ := nativeRequest_aside.leads rfl h₁
    split at h₂
    · exact absurd h₂ not_leads_ret_call
    rename_i reply
    split at h₂
    · exact absurd h₂ not_leads_ret_call
    rename_i mapping hmapping
    obtain ⟨still, τ₄, rfl, h₃⟩ := leads_perform_call h₂ (by simp)
    cases still with
    | false => exact absurd h₃ not_leads_ret_call
    | true =>
      obtain ⟨stored, τ₅, rfl, h₄⟩ := leads_mappings (by simp) h₃
      rcases leads_write h₄ with ⟨rfl, hwritten⟩ | ⟨τ₆, rfl, h₅⟩
      · refine ⟨⟨.permissionGranted pattern, true⟩ :: τ₂, reply, [], stored, ?_, List.mem_cons_self, by simp, mapping,
          hmapping, hwritten⟩
        exact List.mem_cons_of_mem _ (nativeRequest_ret hresponse)
      · exact absurd h₅ (nativeReconnect_aside.not_leads rfl)

/-- What a call has done when it writes the mapping of the page that it observes. -/
structure Observing (crates : Crates) (requestedCanonical : Option String) (τ : BrowserTrace) (canonical : String)
    (mapping : BrowserResourceMapping) : Prop where
  page : PageOf crates requestedCanonical τ canonical
  pattern : originPattern crates canonical = .ok mapping.originPattern
  granted : ⟨.permissionGranted mapping.originPattern, true⟩ ∈ τ
  enabled : ∃ reply, ⟨.response "browser.observation.enabled", some reply⟩ ∈ τ ∧
    observedMapping crates canonical mapping.originPattern reply = .ok mapping

theorem observedMapping_pattern {canonical pattern : String} {response : Encoding.Json} {mapping : BrowserResourceMapping}
    (h : observedMapping crates canonical pattern response = .ok mapping) : mapping.originPattern = pattern := by
  unfold observedMapping at h
  obtain ⟨enabled, -, h⟩ := Relational.bind_eq_ok.mp h
  split_ifs at h
  exact Except.ok.inj h ▸ rfl

theorem observeCurrentPage_observing {requestedCanonical : Option String} {k : Unit → Browser (Except String Unit)}
    (h : Leads (observeCurrentPage crates requestedCanonical) τ (.call (.write written) k)) :
    ∃ canonical mapping, Observing crates requestedCanonical τ canonical mapping ∧
      written = observed mapping (copied τ) := by
  unfold observeCurrentPage at h
  obtain ⟨τ₁, page, τ₂, rfl, -, hpage, h₁⟩ := (currentCanonical_aside crates requestedCanonical).leads rfl h
  split at h₁
  · exact absurd h₁ not_leads_ret_call
  rename_i canonical
  split at h₁
  · rename_i pattern label hpattern _
    obtain ⟨τ₃, reply, τ₄, stored, hreply, hgranted, rfl, mapping, hmapping, hwritten⟩ := observePage_granted h₁
    obtain rfl := observedMapping_pattern hmapping
    refine ⟨canonical, mapping, ⟨?_, hpattern, ?_, reply, ?_, hmapping⟩, ?_⟩
    · exact (currentCanonical_page hpage).mono (List.subset_append_left ..)
    · simp
    · simp [hreply]
    · rw [hwritten, ← List.append_assoc, copied_read]
  · exact absurd h₁ not_leads_ret_call
  · exact absurd h₁ not_leads_ret_call

theorem onNavigation_emits {tab : BrowserTab} {at' : Int} {resourceId : String}
    {k : Option Encoding.Json → Browser (Except String Unit)}
    (h : Leads (onNavigation crates tab) τ (.call (.emit at' resourceId) k)) :
    tab.incognito ≠ some true ∧ ∃ url canonical stored mapping, tab.url = some url ∧
      canonicalizeWebUrl crates url = .ok canonical ∧ ⟨.read, stored⟩ ∈ τ ∧ mapping ∈ stored ∧ mapping.isActive = true ∧
      mapping.canonicalUrlHash = canonicalUrlHash crates canonical ∧ mapping.resourceId = resourceId ∧
      ⟨.permissionGranted mapping.originPattern, true⟩ ∈ τ := by
  unfold onNavigation at h
  split at h
  · rename_i id url _ hurl
    split at h
    · exact absurd h not_leads_ret_call
    rename_i hopen
    split at h
    · exact absurd h not_leads_ret_call
    rename_i canonical hcanonical
    obtain ⟨stored, τ₁, rfl, h₁⟩ := leads_mappings (by simp) h
    split at h₁
    · exact absurd h₁ not_leads_ret_call
    rename_i mapping hfound
    have hpaged : isPage crates canonical mapping = true := List.find?_some hfound
    simp only [isPage, Bool.and_eq_true, beq_iff_eq] at hpaged
    have hmem : mapping ∈ stored := (List.mem_filter.mp (List.mem_of_find?_eq_some hfound)).1
    obtain ⟨granted, τ₂, rfl, h₂⟩ := leads_perform_call h₁ (by simp)
    cases granted with
    | true =>
      refine ⟨hopen, url, canonical, stored, mapping, hurl, hcanonical, by simp, hmem, hpaged.2, hpaged.1, ?_, by simp⟩
      rcases ((queueEvent_issues _ _).leads h₂).1 with ⟨_, heq⟩ | haside
      · exact (BrowserOp.emit.inj heq).2.symm
      · cases haside
    | false => exact absurd h₂ (onPermissionsRemoved_silent _).not_leads
  · exact absurd h not_leads_ret_call

end Paths

/-! ## Runs -/

/-- A call has put this mapping in, for the page that it observed. -/
def Introduced (crates : Crates) (log : BrowserLog) (mapping : BrowserResourceMapping) : Prop :=
  ∃ before i written after requestedCanonical τ canonical, log = before ++ .call i (.write written) () :: after ∧
    mapping ∈ written ∧ Serving i (.observe requestedCanonical) τ before ∧
      Observing crates requestedCanonical τ canonical mapping

/-- The mappings that are stored and read as active have been put in by observations. -/
structure Sourced (crates : Crates) (c : BrowserState) : Prop where
  store : ∀ mapping ∈ c.world.store, mapping.isActive = true → Introduced crates c.log mapping
  reads : ∀ i stored, .call i .read stored ∈ c.log → ∀ mapping ∈ stored, mapping.isActive = true → Introduced crates c.log mapping

section Runs
variable {crates : Crates} {now : Int} {ok : BrowserState → BrowserStep → Prop} {c c' : BrowserState} {e : BrowserStep}
  {log : BrowserLog} {mapping : BrowserResourceMapping} {i : Nat} {written : List BrowserResourceMapping}

theorem Introduced.snoc (h : Introduced crates log mapping) (l : Label Nat BrowserOp.Res BrowserRequest (Except String Unit)) :
    Introduced crates (log ++ [l]) mapping := by
  obtain ⟨before, i, written, after, requestedCanonical, τ, canonical, rfl, hrest⟩ := h
  exact ⟨before, i, written, after ++ [l], requestedCanonical, τ, canonical, by simp, hrest⟩

/-- The handler of a request at its write: it observes its page, or it writes no mapping as active that it
has not read as active. -/
theorem handler_source {request : BrowserRequest} {τ : BrowserTrace} {k : Unit → Browser (Except String Unit)}
    (h : Leads (handleBrowserRequest crates request) τ (.call (.write written) k)) (hmem : mapping ∈ written)
    (hactive : mapping.isActive = true) : mapping ∈ copied τ ∨
      ∃ requestedCanonical canonical, request = .observe requestedCanonical ∧ Observing crates requestedCanonical τ canonical mapping := by
  by_cases hobserve : ∃ requestedCanonical, request = .observe requestedCanonical
  · obtain ⟨requestedCanonical, rfl⟩ := hobserve
    obtain ⟨canonical, own, hobserving, rfl⟩ := observeCurrentPage_observing h
    rcases List.mem_append.mp hmem with hmem | hmem
    · exact .inl (List.mem_filter.mp hmem).1
    · obtain rfl := List.mem_singleton.mp hmem
      exact .inr ⟨requestedCanonical, canonical, rfl, hobserving⟩
  · refine .inl ?_
    cases handler_write h with
    | observe requestedCanonical _ _ hrequest => exact absurd ⟨requestedCanonical, hrequest⟩ hobserve
    | pause edit _ hwritten _ hedit _ =>
      rw [hwritten] at hmem
      obtain ⟨m, hm, rfl⟩ := List.mem_map.mp hmem
      rcases hedit m with hsame | ⟨hpaused, -⟩
      · exact hsame.symm ▸ hm
      · cases (not_isActive hpaused).symm.trans hactive
    | forget completed _ hwritten _ =>
      rw [hwritten] at hmem
      exact (List.mem_filter.mp hmem).1

/-- Every mapping that is active in the storage was put in by an observation of its page, to which the
core agreed. -/
theorem reaches_sourced (h : (extension crates).Reaches (.start now) ok c) : Sourced crates c := by
  induction h with
  | init => exact ⟨fun _ hm => (by cases hm), fun _ _ hl => (by cases hl)⟩
  | @step c c' e hr _ hs ih =>
    obtain ⟨l, hlog, hstore⟩ := step_stored hs
    have hkept : ∀ mapping ∈ c.world.store, mapping.isActive = true → Introduced crates c'.log mapping :=
      fun mapping hmem hactive => hlog ▸ (ih.store mapping hmem hactive).snoc l
    constructor
    · intro mapping hmem hactive
      cases hl : writtenOf l with
      | none =>
        rw [hstore, hl] at hmem
        exact hkept mapping hmem hactive
      | some written =>
        rw [hstore, hl] at hmem
        obtain ⟨i, rfl⟩ := writtenOf_eq_some hl
        obtain ⟨t, k, ch, rfl, ht, hrest, hact⟩ := hs.call_of_log hlog
        have hleads := (hr.traced ht).leads
        rw [hrest] at hleads
        -- what is active in a write was read so, or comes with the reply to an observe
        rcases handler_source hleads hmem hactive with hcopy | ⟨requestedCanonical, canonical, hrequest, hobserving⟩
        · have hne : copied t.trace ≠ [] := List.ne_nil_of_mem hcopy
          obtain ⟨stored, hread, hcopied⟩ := copied_read_mem hne
          rw [hcopied] at hcopy
          exact hlog ▸ (ih.reads i stored (hr.mem_log ht hread) mapping (List.mem_filter.mp hcopy).1 hactive).snoc _
        · exact ⟨c.log, i, written, [], requestedCanonical, t.trace, canonical, hlog, hmem, hrequest ▸ hr.serving ht, hobserving⟩
    · intro i stored hread mapping hmem hactive
      rw [hlog] at hread
      rcases List.mem_append.mp hread with hread | hread
      · exact hlog ▸ (ih.reads i stored hread mapping hmem hactive).snoc l
      · obtain rfl := List.mem_singleton.mp hread
        obtain ⟨t, k, ch, -, ht, -, hact⟩ := hs.call_of_log hlog
        obtain rfl := (Prod.mk.inj (Option.some.inj hact)).1
        exact hkept mapping hmem hactive

/-- An event is posted for the page of a tab that is not private, where the origin is permitted, and only
under a resource that the core enabled when that page was observed. -/
theorem event_of_observed (h : (extension crates).Reaches (.start now) ok c) {before after : BrowserLog} {at' : Int}
    {resourceId : String} {posted : Option Encoding.Json} (hlog : c.log = before ++ .call i (.emit at' resourceId) posted :: after) :
    ∃ tab τ url canonical mapping, Serving i (.navigation tab) τ before ∧ tab.incognito ≠ some true ∧ tab.url = some url ∧
      canonicalizeWebUrl crates url = .ok canonical ∧ mapping.canonicalUrlHash = canonicalUrlHash crates canonical ∧
      mapping.resourceId = resourceId ∧ ⟨.permissionGranted mapping.originPattern, true⟩ ∈ τ ∧ Introduced crates before mapping := by
  obtain ⟨d, d', t, k, ch, hd, rfl, -, ht, hrest, -, -, -⟩ := h.split_call hlog
  have hleads := (hd.traced ht).leads
  rw [hrest] at hleads
  obtain ⟨tab, -, -, hrequest, -⟩ := handler_emit hleads
  have hserving := hd.serving ht
  rw [hrequest] at hleads hserving
  obtain ⟨hopen, url, canonical, stored, mapping, hurl, hcanonical, hread, hmem, hactive, hhash, hid, hgranted⟩ := onNavigation_emits hleads
  exact ⟨tab, t.trace, url, canonical, mapping, hserving, hopen, hurl, hcanonical, hhash, hid, hgranted,
    (reaches_sourced hd).reads i stored (hd.mem_log ht hread) mapping hmem hactive⟩

end Runs

theorem event_of_observed_navigating : ∃ c before posted, (extension Sample.pages).Reaches (.start 0) Anywhere c ∧
    c.log = before ++ [.call 1 (.emit 0 (Uuid.text 20)) posted] ∧
      ∃ mapping, mapping.resourceId = Uuid.text 20 ∧ Introduced Sample.pages before mapping := by
  have hrun : (Sample.browse (Sample.observedOnce ++ Sample.navigating 1 "a.example")).map (fun c => Sample.nextEvent c 1) =
      some (some (0, Uuid.text 20)) := by decide +kernel
  obtain ⟨c, hc, hevent⟩ := Option.map_eq_some_iff.mp hrun
  obtain ⟨t, k, ht, hrest⟩ := Sample.nextEvent_eq_some hevent
  have hreach : (extension Sample.pages).Reaches (.start 0) Anywhere c := Reaches.init.exec hc
  have hpost := hreach.step (e := .call 1 (Sample.granting "" none)) trivial (.call ht hrest rfl)
  obtain ⟨_, _, _, _, mapping, -, -, -, -, -, hid, -, hintroduced⟩ := event_of_observed hpost rfl
  exact ⟨_, c.log, _, hpost, rfl, mapping, hid, hintroduced⟩

end Fubun.Extensions

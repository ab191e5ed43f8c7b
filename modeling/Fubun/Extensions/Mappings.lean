import Fubun.Concurrency.History
import Fubun.Extensions.Browser
import Fubun.Relational.Table

/-! What the calls of the extension write, and which events they emit, in terms of the list that
they have read last. -/

namespace Fubun.Extensions
open Concurrency Program Relational

/-- Neither the storage nor an event. -/
def BrowserOp.isAside : BrowserOp → Bool
  | .read | .write _ | .emit .. => false
  | _ => true

abbrev Aside {α : Type} (p : Browser α) : Prop := p.Issues fun o => o.isAside = true

abbrev BrowserTrace := List (Answered BrowserOp.Res)

def readOf (x : Answered BrowserOp.Res) : Option (List BrowserResourceMapping) :=
  match x with
  | ⟨.read, stored⟩ => some stored
  | _ => none

/-- The mappings that a call has read last. -/
def copied (τ : BrowserTrace) : List BrowserResourceMapping :=
  ((τ.filterMap readOf).getLast?.getD []).filter (·.isMapping)

/-! ## The states of a resource -/

def activeIn (current : List BrowserResourceMapping) (resourceId : String) : Bool :=
  current.any fun mapping => mapping.isActive && mapping.resourceId == resourceId

def recordedIn (current : List BrowserResourceMapping) (resourceId : String) : Bool :=
  current.any (·.resourceId == resourceId)

def pausedIn (current : List BrowserResourceMapping) (resourceId : String) : Bool :=
  current.any fun mapping => mapping.resourceId == resourceId && mapping.state == some .pausePending

section States
variable {current : List BrowserResourceMapping} {resourceId : String}

theorem activeIn_iff : activeIn current resourceId = true ↔
    ∃ mapping ∈ current, mapping.isActive = true ∧ mapping.resourceId = resourceId := by
  simp [activeIn]

theorem recordedIn_iff : recordedIn current resourceId = true ↔
    ∃ mapping ∈ current, mapping.resourceId = resourceId := by
  simp [recordedIn]

theorem pausedIn_iff : pausedIn current resourceId = true ↔
    ∃ mapping ∈ current, mapping.resourceId = resourceId ∧ mapping.state = some .pausePending := by
  simp [pausedIn]

theorem not_isActive {mapping : BrowserResourceMapping} (h : mapping.state = some .pausePending) :
    mapping.isActive = false := by
  rw [BrowserResourceMapping.isActive, h]
  rfl

end States

/-! ## What a call has completed -/

def keeps (x : Answered BrowserOp.Res) : Bool :=
  match x with
  | ⟨.write _, _⟩ => false
  | _ => true

/-- The call takes up the pauses that are pending. -/
def BrowserRequest.reconciles : BrowserRequest → Bool
  | .start | .reconcile => true
  | _ => false

/-- What a call pauses with `written`, which it has made from `current`. -/
def pausedBy (request : BrowserRequest) (current written : List BrowserResourceMapping) : List BrowserResourceMapping :=
  current.filter fun mapping => pausedIn written mapping.resourceId && (mapping.isActive || request.reconciles)

/-- The reply to the request that a trace begins with, and what follows on it. -/
def replied : BrowserTrace → Option Encoding.Json × BrowserTrace
  | ⟨.ensureConnected, true⟩ :: ⟨.post .., true⟩ :: ⟨.response _, reply⟩ :: τ => (reply, τ)
  | ⟨.ensureConnected, true⟩ :: ⟨.post .., false⟩ :: τ => (none, τ)
  | ⟨.ensureConnected, false⟩ :: τ => (none, τ)
  | τ => (none, τ)

/-- The resources of `affected` whose pause the core has confirmed, in the answers from their first on. -/
def confirmed : List BrowserResourceMapping → BrowserTrace → List String
  | [], _ => []
  | mapping :: affected, τ =>
    if (replied τ).1.any fun reply => (parsePausedPayload reply mapping.scopeId).isOk then
      mapping.resourceId :: confirmed affected (replied τ).2
    else confirmed affected (replied τ).2

/-- The resources that the call has paused, with the core's confirmation. -/
def completedBy (request : BrowserRequest) (τ : BrowserTrace) : List String :=
  match τ.dropWhile keeps with
  | ⟨.write written, _⟩ :: since => confirmed (pausedBy request (copied (τ.takeWhile keeps)) written) since
  | _ => []

/-- Each list that the call has read has one mapping for each resource. -/
def ReadsKeyed (τ : BrowserTrace) : Prop := ∀ stored, ⟨.read, stored⟩ ∈ τ → Keyed (·.resourceId) stored

/-! ## What a call is about -/

section Requests
variable (crates : Crates)

/-- The page of a call: the one that is asked for, or the one that the active tab shows. -/
def PageOf (requestedCanonical : Option String) (τ : BrowserTrace) (canonical : String) : Prop :=
  ∃ url, canonicalizeWebUrl crates url = .ok canonical ∧
    (requestedCanonical = some url ∨
      requestedCanonical = none ∧ ∃ tab, ⟨.activeTab, some tab⟩ ∈ τ ∧ tab.incognito ≠ some true ∧ tab.url = some url)

/-- A stop is of its page, a removal of its origins, and a reconciliation or a navigation finds
that the permission is gone. -/
def Applies (request : BrowserRequest) (τ : BrowserTrace) (mapping : BrowserResourceMapping) : Prop :=
  match request with
  | .stop => ∃ canonical, PageOf crates none τ canonical ∧
      mapping.canonicalUrlHash = canonicalUrlHash crates canonical
  | .permissionsRemoved origins => mapping.originPattern ∈ origins
  | .start | .reconcile | .navigation _ => ⟨.permissionGranted mapping.originPattern, false⟩ ∈ τ
  | .observe _ => False

/-- What a call writes, made from the list that it has read last. -/
inductive Edit (request : BrowserRequest) (τ : BrowserTrace) (written : List BrowserResourceMapping) : Prop
  | observe (requestedCanonical canonical mapping) : request = .observe requestedCanonical →
      PageOf crates requestedCanonical τ canonical → mapping.isActive = true →
        mapping.canonicalUrlHash = canonicalUrlHash crates canonical → written = observed mapping (copied τ) →
          (∀ x ∈ τ, keeps x = true) → Edit request τ written
  | pause (edit : BrowserResourceMapping → BrowserResourceMapping) : (∀ url, request ≠ .observe url) →
      written = (copied τ).map edit → (∀ m, (edit m).resourceId = m.resourceId) →
        (∀ m, edit m = m ∨ (edit m).state = some .pausePending ∧ ∃ affected ∈ copied τ,
          affected.resourceId = m.resourceId ∧
            (affected.state = some .pausePending ∨ affected.isActive = true ∧ Applies crates request τ affected)) →
          (∀ x ∈ τ, keeps x = true) → Edit request τ written
  | forget (completed) : (∀ url, request ≠ .observe url) → written = forgotten completed (copied τ) →
      (ReadsKeyed τ → completed = completedBy request τ) → Edit request τ written

end Requests

/-! ## Paths -/

section Traces
variable {τ τ' : BrowserTrace} {stored : List BrowserResourceMapping}

theorem copied_append (h : ∀ x ∈ τ', x.op ≠ .read) : copied (τ ++ τ') = copied τ := by
  have hnone : τ'.filterMap readOf = [] := by
    refine List.filterMap_eq_nil_iff.mpr fun x hx => ?_
    have hx := h x hx
    rcases x with ⟨o, r⟩
    cases o with
    | read => exact absurd rfl hx
    | _ => rfl
  rw [copied, List.filterMap_append, hnone, List.append_nil]
  rfl

theorem ne_read {o : BrowserOp} (h : o.isAside = true) : o ≠ .read := by
  rintro rfl
  exact nomatch h

theorem copied_read : copied (τ ++ [⟨.read, stored⟩]) = stored.filter (·.isMapping) := by
  have hread : [(⟨.read, stored⟩ : Answered BrowserOp.Res)].filterMap readOf = [stored] := rfl
  rw [copied, List.filterMap_append, hread, List.getLast?_concat]
  rfl

theorem copied_singleton : copied [⟨.read, stored⟩] = stored.filter (·.isMapping) := rfl

theorem copied_read_mem (h : copied τ ≠ []) :
    ∃ stored, ⟨.read, stored⟩ ∈ τ ∧ copied τ = stored.filter (·.isMapping) := by
  cases hlast : (τ.filterMap readOf).getLast? with
  | none =>
    rw [copied, hlast] at h
    exact absurd rfl h
  | some stored =>
    obtain ⟨⟨o, r⟩, hx, hread⟩ := List.mem_filterMap.mp (List.mem_of_getLast? hlast)
    cases o with
    | read =>
      obtain rfl := Option.some.inj hread
      exact ⟨r, hx, by rw [copied, hlast]; rfl⟩
    | _ => cases hread

theorem copied_keyed (h : ReadsKeyed τ) : Keyed (·.resourceId) (copied τ) := by
  by_cases hnil : copied τ = []
  · rw [hnil]
    exact keyed_nil
  · obtain ⟨stored, hmem, hcopied⟩ := copied_read_mem hnil
    rw [hcopied]
    exact (h stored hmem).sublist (List.filter_sublist.map _)

theorem ReadsKeyed.mono (h : ReadsKeyed τ') (hτ : τ ⊆ τ') : ReadsKeyed τ := fun stored hread => h stored (hτ hread)

theorem keeps_of_aside {x : Answered BrowserOp.Res} (h : x.op.isAside = true) : keeps x = true := by
  rcases x with ⟨o, r⟩
  cases o with
  | write written => exact nomatch h
  | _ => rfl

theorem completedBy_first (request : BrowserRequest) (hτ : ∀ x ∈ τ, keeps x = true) : completedBy request τ = [] := by
  rw [completedBy, List.dropWhile_eq_nil_iff.mpr hτ]

theorem completedBy_append (request : BrowserRequest) (written : List BrowserResourceMapping)
    (hτ : ∀ x ∈ τ, keeps x = true) : completedBy request (τ ++ ⟨.write written, ()⟩ :: τ') =
      confirmed (pausedBy request (copied τ) written) τ' := by
  have hwrite : ¬ keeps ⟨.write written, ()⟩ = true := Bool.false_ne_true
  rw [completedBy, List.dropWhile_append_of_pos hτ, List.takeWhile_append_of_pos hτ,
    List.dropWhile_cons_of_neg hwrite, List.takeWhile_cons_of_neg hwrite, List.append_nil]

end Traces

/-! ## Pauses -/

section Pauses
variable {request : BrowserRequest} {affected current : List BrowserResourceMapping} {mapping : BrowserResourceMapping}

theorem pausedIn_pausePending (hk : Keyed (·.resourceId) current) (hsub : affected ⊆ current) (hmem : mapping ∈ current) :
    pausedIn (pausePending affected current) mapping.resourceId = true ↔
      mapping ∈ affected ∨ mapping.state = some .pausePending := by
  have hany : affected.any (·.resourceId == mapping.resourceId) = true ↔ mapping ∈ affected := by
    rw [List.any_eq_true]
    constructor
    · rintro ⟨a, ha, hid⟩
      exact hk.eq (hsub ha) hmem (beq_iff_eq.mp hid) ▸ ha
    · exact fun ha => ⟨mapping, ha, beq_self_eq_true _⟩
  have hid (m : BrowserResourceMapping) : (if affected.any (·.resourceId == m.resourceId) then
      m.inactivated .pausePending else m).resourceId = m.resourceId := by split_ifs <;> rfl
  rw [pausedIn_iff]
  constructor
  · rintro ⟨m', hmem', hsame, hpaused⟩
    obtain ⟨m, hm, rfl⟩ := List.mem_map.mp hmem'
    obtain rfl := hk.eq hm hmem ((hid m).symm.trans hsame)
    split_ifs at hpaused with ha
    · exact .inl (hany.mp ha)
    · exact .inr hpaused
  · intro h
    refine ⟨_, List.mem_map_of_mem hmem, hid mapping, ?_⟩
    split_ifs with ha
    · rfl
    · exact h.resolve_left fun haffected => ha (hany.mpr haffected)

theorem pausedBy_pausePending (hk : Keyed (·.resourceId) current) (hsub : affected.Sublist current)
    (hon : ∀ m ∈ affected, m.isActive = true ∨ request.reconciles = true)
    (hall : request.reconciles = true → ∀ m ∈ current, m.state = some .pausePending → m ∈ affected) :
    pausedBy request current (pausePending affected current) = affected := by
  refine hk.filter_of_sublist hsub fun m hm => ?_
  rw [Bool.and_eq_true, Bool.or_eq_true, pausedIn_pausePending hk hsub.subset hm]
  constructor
  · rintro ⟨ha | hpaused, hstate⟩
    · exact ha
    · refine hall (hstate.resolve_left fun hactive => ?_) m hm hpaused
      exact nomatch (not_isActive hpaused).symm.trans hactive
  · exact fun ha => ⟨.inl ha, hon m ha⟩

theorem pausedBy_stop (hmem : mapping ∈ current) (hactive : mapping.isActive = true) (hk : Keyed (·.resourceId) current) :
    pausedBy .stop current (current.map fun candidate =>
      if candidate.resourceId = mapping.resourceId then mapping.inactivated .pausePending else candidate) = [mapping] := by
  have hwritten : (current.map fun candidate =>
      if candidate.resourceId = mapping.resourceId then mapping.inactivated .pausePending else candidate) =
      pausePending [mapping] current := by
    refine List.map_congr_left fun candidate hcandidate => ?_
    by_cases hid : candidate.resourceId = mapping.resourceId
    · obtain rfl := hk.eq hcandidate hmem hid
      simp
    · simp [hid, Ne.symm hid]
  rw [hwritten]
  exact pausedBy_pausePending hk (List.singleton_sublist.mpr hmem)
    (List.forall_mem_singleton.mpr (.inl hactive)) fun h => nomatch h

end Pauses

section Aside
variable {scopeId type expectedType : String} {payload : Encoding.Json}

theorem nativeReconnect_aside : Aside nativeReconnect :=
  .perform_bind rfl fun r => by cases r <;> trivial

theorem nativeRequest_aside : Aside (nativeRequest type payload expectedType) := by
  refine .perform_bind rfl fun connected => ?_
  cases connected with
  | false => trivial
  | true =>
    refine .perform_bind rfl fun posted => ?_
    cases posted with
    | false => trivial
    | true => exact .perform_bind rfl fun r => by cases r <;> trivial

theorem pauseCore_aside : Aside (pauseCore scopeId) :=
  nativeRequest_aside.bind fun r _ => by cases r <;> trivial

theorem pauseScopes_aside (affected : List BrowserResourceMapping) : Aside (pauseScopes affected) := by
  induction affected with
  | nil => trivial
  | cons mapping affected ih =>
    refine pauseCore_aside.bind fun r _ => ?_
    cases r with
    | error e => exact ih
    | ok u => exact ih.bind fun _ _ => trivial

theorem unreconciled_aside (current : List BrowserResourceMapping) : Aside (unreconciled current) := by
  induction current with
  | nil => trivial
  | cons mapping current ih =>
    unfold unreconciled
    split
    · exact ih.bind fun _ _ => trivial
    · split
      · refine .perform_bind rfl fun granted => ?_
        cases granted with
        | true => exact ih
        | false => exact ih.bind fun _ _ => trivial
      · exact ih

theorem currentCanonical_aside (crates : Crates) (requestedCanonical : Option String) :
    Aside (currentCanonical crates requestedCanonical) := by
  unfold currentCanonical
  split
  · trivial
  · refine .perform_bind rfl fun tab => ?_
    split
    · trivial
    · split
      · trivial
      · split <;> trivial

end Aside

/-! ## Replies -/

section Replies
variable {τ : BrowserTrace} {scopeId type expectedType : String} {payload : Encoding.Json}

theorem nativeRequest_replied {result : Except String Encoding.Json} (τ' : BrowserTrace)
    (h : Leads (nativeRequest type payload expectedType) τ (.ret result)) : replied (τ ++ τ') = (result.toOption, τ') := by
  unfold nativeRequest at h
  rcases leads_perform_bind.mp h with ⟨-, heq⟩ | ⟨connected, τ₁, rfl, hconnected⟩
  · exact nomatch heq
  cases connected with
  | false =>
    obtain ⟨rfl, heq⟩ := leads_ret_iff.mp hconnected
    obtain rfl := Program.ret.inj heq
    rfl
  | true =>
    rcases leads_perform_bind.mp hconnected with ⟨-, heq⟩ | ⟨posted, τ₂, rfl, hposted⟩
    · exact nomatch heq
    cases posted with
    | false =>
      obtain ⟨rfl, heq⟩ := leads_ret_iff.mp hposted
      obtain rfl := Program.ret.inj heq
      rfl
    | true =>
      rcases leads_perform_bind.mp hposted with ⟨-, heq⟩ | ⟨response, τ₃, rfl, hended⟩
      · exact nomatch heq
      cases response with
      | none =>
        obtain ⟨rfl, heq⟩ := leads_ret_iff.mp hended
        obtain rfl := Program.ret.inj heq
        rfl
      | some response =>
        obtain ⟨rfl, heq⟩ := leads_ret_iff.mp hended
        obtain rfl := Program.ret.inj heq
        rfl

theorem pauseCore_replied {result : Except String Unit} (τ' : BrowserTrace) (h : Leads (pauseCore scopeId) τ (.ret result)) :
    ((replied (τ ++ τ')).1.any fun reply => (parsePausedPayload reply scopeId).isOk) = result.isOk ∧
      (replied (τ ++ τ')).2 = τ' := by
  obtain ⟨τ₁, response, τ₂, rfl, hresponse, hended⟩ := leads_bind_ret h
  have hreplied := nativeRequest_replied τ' hresponse
  cases response with
  | error e =>
    obtain ⟨rfl, heq⟩ := leads_ret_iff.mp hended
    obtain rfl := Program.ret.inj heq
    rw [List.append_nil, hreplied]
    exact ⟨rfl, rfl⟩
  | ok reply =>
    obtain ⟨rfl, heq⟩ := leads_ret_iff.mp hended
    obtain rfl := Program.ret.inj heq
    rw [List.append_nil, hreplied]
    exact ⟨rfl, rfl⟩

theorem confirmed_cons {result : Except String Unit} {mapping : BrowserResourceMapping}
    (affected : List BrowserResourceMapping) (τ' : BrowserTrace) (h : Leads (pauseCore mapping.scopeId) τ (.ret result)) :
    confirmed (mapping :: affected) (τ ++ τ') =
      if result.isOk then mapping.resourceId :: confirmed affected τ' else confirmed affected τ' := by
  obtain ⟨hok, hrest⟩ := pauseCore_replied τ' h
  rw [confirmed, hok, hrest]

theorem pauseScopes_confirmed {affected : List BrowserResourceMapping} {completed : List String} (τ' : BrowserTrace)
    (h : Leads (pauseScopes affected) τ (.ret completed)) : confirmed affected (τ ++ τ') = completed := by
  induction affected generalizing τ completed with
  | nil => exact (Program.ret.inj (leads_ret_iff.mp h).2).symm
  | cons mapping affected ih =>
    obtain ⟨τ₁, result, τ₂, rfl, hpause, hrest⟩ := leads_bind_ret h
    rw [List.append_assoc, confirmed_cons affected (τ₂ ++ τ') hpause]
    cases result with
    | error e => exact ih hrest
    | ok u =>
      obtain ⟨τ₃, more, τ₄, rfl, hmore, hended⟩ := leads_bind_ret hrest
      obtain ⟨rfl, heq⟩ := leads_ret_iff.mp hended
      obtain rfl := Program.ret.inj heq
      rw [List.append_nil, ih hmore]
      rfl

end Replies

section Paths
variable {crates : Crates} {α β : Type} {τ : BrowserTrace} {o : BrowserOp} {k : o.Res → Browser β}
  {written written' : List BrowserResourceMapping} {p : Browser α} {f : α → Browser β}

/-- The way to a storage operation or an event leads past what is neither. -/
theorem Aside.leads (hp : Aside p) (ho : o.isAside = false) (h : Leads (p >>= f) τ (.call o k)) :
    ∃ τ₁ a τ₂, τ = τ₁ ++ τ₂ ∧ (∀ x ∈ τ₁, x.op.isAside = true) ∧ Leads p τ₁ (.ret a) ∧ Leads (f a) τ₂ (.call o k) := by
  obtain ⟨τ₁, a, τ₂, hτ, hl, hf⟩ := Meets.leads_past hp (by simp [ho]) h
  exact ⟨τ₁, a, τ₂, hτ, fun x hx => Meets.mem hp hl hx, hl, hf⟩

theorem Aside.not_leads {q : Browser β} (hq : Aside q) (ho : o.isAside = false) : ¬ Leads q τ (.call o k) := by
  intro h
  have hcall := (Meets.leads hq h).1
  exact nomatch hcall.symm.trans ho

theorem leads_mappings {f : List BrowserResourceMapping → Browser β} (ho : o ≠ .read)
    (h : Leads (mappings >>= f) τ (.call o k)) :
    ∃ stored τ', τ = ⟨.read, stored⟩ :: τ' ∧ Leads (f (stored.filter (·.isMapping))) τ' (.call o k) :=
  leads_perform_call (f := fun stored : List BrowserResourceMapping => f (stored.filter (·.isMapping))) h ho.symm

theorem leads_write {f : Unit → Browser β} {k : Unit → Browser β}
    (h : Leads (browser (.write written) >>= f) τ (.call (.write written') k)) :
    τ = [] ∧ written' = written ∨ ∃ τ', τ = ⟨.write written, ()⟩ :: τ' ∧ Leads (f ()) τ' (.call (.write written') k) := by
  rcases leads_perform_bind.mp h with ⟨hτ, heq⟩ | ⟨u, τ', hτ, h'⟩
  · obtain ⟨heq, -⟩ := Program.call.inj heq
    exact .inl ⟨hτ, BrowserOp.write.inj heq⟩
  · exact .inr ⟨τ', hτ, h'⟩

/-- Every write of the program leaves out of a list that it has just read what the core has confirmed of `affected`. -/
def Forgets (affected : List BrowserResourceMapping) (p : Browser α) : Prop :=
  ∀ τ written k, Leads p τ (.call (.write written) k) → ∃ τ' stored,
    τ = τ' ++ [⟨.read, stored⟩] ∧ written = forgotten (confirmed affected τ) (stored.filter (·.isMapping))

theorem leads_forgotten {completed : List String} {rest : Unit → Browser β} {k : Unit → Browser β} (hrest : ∀ u, Aside (rest u))
    (h : Leads (mappings >>= fun current => browser (.write (forgotten completed current)) >>= rest) τ
      (.call (.write written) k)) :
    ∃ stored, τ = [⟨.read, stored⟩] ∧ written = forgotten completed (stored.filter (·.isMapping)) := by
  obtain ⟨stored, τ', rfl, h₁⟩ := leads_mappings (by simp) h
  rcases leads_write h₁ with ⟨rfl, hwritten⟩ | ⟨τ'', rfl, h₂⟩
  · exact ⟨stored, rfl, hwritten⟩
  · exact absurd h₂ ((hrest ()).not_leads rfl)

theorem syncPausedScopes_forgets {affected : List BrowserResourceMapping} {rest : Unit → Browser β}
    (hrest : ∀ u, Aside (rest u)) : Forgets affected (syncPausedScopes affected >>= rest) := by
  intro τ written k h
  unfold syncPausedScopes at h
  rw [bind_bind] at h
  obtain ⟨τ₁, completed, τ₂, rfl, -, hpauses, h₁⟩ := (pauseScopes_aside affected).leads rfl h
  split at h₁
  · exact absurd h₁ ((hrest ()).not_leads rfl)
  · obtain ⟨stored, rfl, hwritten⟩ := leads_forgotten hrest h₁
    exact ⟨τ₁, stored, rfl, by rw [hwritten, pauseScopes_confirmed _ hpauses]⟩

/-- After the first write of a program whose other writes only leave mappings out. -/
theorem leads_pause {request : BrowserRequest} {affected current : List BrowserResourceMapping} (τ₀ : BrowserTrace)
    {f : Unit → Browser β} {k : Unit → Browser β} (hf : ∀ u, Forgets affected (f u)) (hτ₀ : ∀ x ∈ τ₀, keeps x = true)
    (hcopied : copied τ₀ = current) (haffected : Keyed (·.resourceId) current → pausedBy request current written = affected)
    (h : Leads (browser (.write written) >>= f) τ (.call (.write written') k)) :
    τ = [] ∧ written' = written ∨ ∃ completed, written' = forgotten completed (copied (τ₀ ++ τ)) ∧
      (ReadsKeyed (τ₀ ++ τ) → completed = completedBy request (τ₀ ++ τ)) := by
  rcases leads_write h with hpause | ⟨τ', rfl, h₁⟩
  · exact .inl hpause
  · obtain ⟨τ'', stored, rfl, hwritten⟩ := hf () _ _ _ h₁
    refine .inr ⟨confirmed affected (τ'' ++ [⟨.read, stored⟩]), ?_, fun hkeyed => ?_⟩
    · rw [hwritten, ← List.cons_append, ← List.append_assoc, copied_read]
    · have hk : Keyed (·.resourceId) current := hcopied ▸ copied_keyed (hkeyed.mono (List.subset_append_left ..))
      rw [completedBy_append request written hτ₀, hcopied, haffected hk]

end Paths

/-! ## Writes -/

section Writes
variable {crates : Crates} {τ τ' : BrowserTrace} {written : List BrowserResourceMapping}

theorem PageOf.mono {requestedCanonical : Option String} {canonical : String} (h : PageOf crates requestedCanonical τ canonical)
    (hτ : τ ⊆ τ') : PageOf crates requestedCanonical τ' canonical := by
  obtain ⟨url, hurl, hrequested | ⟨hnone, tab, htab, hopen⟩⟩ := h
  · exact ⟨url, hurl, .inl hrequested⟩
  · exact ⟨url, hurl, .inr ⟨hnone, tab, hτ htab, hopen⟩⟩

theorem currentCanonical_page {requestedCanonical : Option String} {canonical : String}
    (h : Leads (currentCanonical crates requestedCanonical) τ (.ret (.ok canonical))) :
    PageOf crates requestedCanonical τ canonical := by
  unfold currentCanonical at h
  split at h
  · rename_i requested
    exact ⟨requested, (Program.ret.inj (leads_ret_iff.mp h).2).symm, .inl rfl⟩
  · rcases leads_perform_bind.mp h with ⟨-, heq⟩ | ⟨shown, τ', rfl, h₁⟩
    · exact nomatch heq
    split at h₁
    · exact nomatch (leads_ret_iff.mp h₁).2
    rename_i tab
    split at h₁
    · exact nomatch (leads_ret_iff.mp h₁).2
    rename_i hopen
    split at h₁
    · exact nomatch (leads_ret_iff.mp h₁).2
    rename_i url hurl
    refine ⟨url, (Program.ret.inj (leads_ret_iff.mp h₁).2).symm, .inr ⟨rfl, tab, ?_, hopen, hurl⟩⟩
    exact List.mem_cons_self

theorem observedMapping_ok {canonical pattern : String} {response : Encoding.Json} {mapping : BrowserResourceMapping}
    (h : observedMapping crates canonical pattern response = .ok mapping) :
    mapping.isActive = true ∧ mapping.canonicalUrlHash = canonicalUrlHash crates canonical := by
  unfold observedMapping at h
  obtain ⟨enabled, -, h⟩ := Relational.bind_eq_ok.mp h
  split_ifs at h
  exact Except.ok.inj h ▸ ⟨rfl, rfl⟩

theorem nativeRequest_ret {type expectedType : String} {payload reply : Encoding.Json}
    (h : Leads (nativeRequest type payload expectedType) τ (.ret (.ok reply))) : ⟨.response expectedType, some reply⟩ ∈ τ := by
  unfold nativeRequest at h
  rcases leads_perform_bind.mp h with ⟨-, heq⟩ | ⟨connected, τ₁, rfl, hconnected⟩
  · exact nomatch heq
  cases connected with
  | false => exact nomatch (leads_ret_iff.mp hconnected).2
  | true =>
    rcases leads_perform_bind.mp hconnected with ⟨-, heq⟩ | ⟨posted, τ₂, rfl, hposted⟩
    · exact nomatch heq
    cases posted with
    | false => exact nomatch (leads_ret_iff.mp hposted).2
    | true =>
      rcases leads_perform_bind.mp hposted with ⟨-, heq⟩ | ⟨response, τ₃, rfl, hended⟩
      · exact nomatch heq
      cases response with
      | none => exact nomatch (leads_ret_iff.mp hended).2
      | some response =>
        obtain rfl := Except.ok.inj (Program.ret.inj (leads_ret_iff.mp hended).2)
        simp

theorem observePage_write {canonical pattern label : String} {k : Unit → Browser (Except String Unit)}
    (h : Leads (observePage crates canonical pattern label) τ (.call (.write written) k)) :
    ∃ reply mapping τ' stored, ⟨.response "browser.observation.enabled", some reply⟩ ∈ τ ∧
      observedMapping crates canonical pattern reply = .ok mapping ∧ (∀ x ∈ τ, keeps x = true) ∧
      τ = τ' ++ [⟨.read, stored⟩] ∧ written = observed mapping (stored.filter (·.isMapping)) := by
  unfold observePage at h
  obtain ⟨granted, τ₁, rfl, h₁⟩ := leads_perform_call h (by simp)
  split at h₁
  · exact absurd h₁ not_leads_ret_call
  obtain ⟨τ₂, response, τ₃, rfl, haside, hresponse, h₂⟩ := nativeRequest_aside.leads rfl h₁
  split at h₂
  · exact absurd h₂ not_leads_ret_call
  rename_i reply
  split at h₂
  · exact absurd h₂ not_leads_ret_call
  rename_i mapping hmapping
  have hreply := nativeRequest_ret hresponse
  obtain ⟨still, τ₄, rfl, h₃⟩ := leads_perform_call h₂ (by simp)
  split at h₃
  · exact absurd h₃ not_leads_ret_call
  obtain ⟨stored, τ₅, rfl, h₄⟩ := leads_mappings (by simp) h₃
  rcases leads_write h₄ with ⟨rfl, hwritten⟩ | ⟨τ₆, rfl, h₅⟩
  · refine ⟨reply, mapping, ⟨.permissionGranted pattern, granted⟩ :: (τ₂ ++ [⟨.permissionGranted pattern, still⟩]), stored,
      ?_, hmapping, ?_, ?_, hwritten⟩
    · exact List.mem_cons_of_mem _ (List.mem_append_left _ hreply)
    · simp only [List.forall_mem_cons, List.forall_mem_append]
      exact ⟨rfl, fun x hx => keeps_of_aside (haside x hx), rfl, rfl, fun _ hx => nomatch hx⟩
    · simp
  · exact absurd h₅ (nativeReconnect_aside.not_leads rfl)

theorem observeCurrentPage_writes {requestedCanonical : Option String} {k : Unit → Browser (Except String Unit)}
    (h : Leads (observeCurrentPage crates requestedCanonical) τ (.call (.write written) k)) :
    ∃ canonical pattern reply mapping, PageOf crates requestedCanonical τ canonical ∧
      ⟨.response "browser.observation.enabled", some reply⟩ ∈ τ ∧
      observedMapping crates canonical pattern reply = .ok mapping ∧ (∀ x ∈ τ, keeps x = true) ∧
      written = observed mapping (copied τ) := by
  unfold observeCurrentPage at h
  obtain ⟨τ₁, page, τ₂, rfl, haside, hpage, h₁⟩ := (currentCanonical_aside crates requestedCanonical).leads rfl h
  split at h₁
  · exact absurd h₁ not_leads_ret_call
  rename_i canonical
  split at h₁
  · rename_i pattern label _ _
    obtain ⟨reply, mapping, τ', stored, hreply, hmapping, hkeeps, rfl, hwritten⟩ := observePage_write h₁
    refine ⟨canonical, pattern, reply, mapping, ?_, List.mem_append_right _ hreply, hmapping, ?_, ?_⟩
    · exact (currentCanonical_page hpage).mono (List.subset_append_left ..)
    · exact List.forall_mem_append.mpr ⟨fun x hx => keeps_of_aside (haside x hx), hkeeps⟩
    · rw [hwritten, ← List.append_assoc, copied_read]
  · exact absurd h₁ not_leads_ret_call
  · exact absurd h₁ not_leads_ret_call

theorem observeCurrentPage_write {requestedCanonical : Option String} {k : Unit → Browser (Except String Unit)}
    (h : Leads (observeCurrentPage crates requestedCanonical) τ (.call (.write written) k)) :
    Edit crates (.observe requestedCanonical) τ written := by
  obtain ⟨canonical, pattern, reply, mapping, hpage, -, hmapping, hkeeps, hwritten⟩ := observeCurrentPage_writes h
  obtain ⟨hactive, hhash⟩ := observedMapping_ok hmapping
  exact .observe requestedCanonical canonical mapping rfl hpage hactive hhash hwritten hkeeps

theorem stop_forgets (mapping : BrowserResourceMapping) : Forgets [mapping] (do
    match ← pauseCore mapping.scopeId with
    | .error _ => return .error "observation is locally paused but Core pause is pending"
    | .ok () =>
      let current ← mappings
      browser (.write (forgotten [mapping.resourceId] current))
      nativeReconnect) := by
  intro τ written k h
  obtain ⟨τ₁, result, τ₂, rfl, -, hpause, h₁⟩ := pauseCore_aside.leads rfl h
  cases result with
  | error e => exact absurd h₁ not_leads_ret_call
  | ok u =>
    obtain ⟨stored, rfl, hwritten⟩ := leads_forgotten (fun _ => nativeReconnect_aside) h₁
    exact ⟨τ₁, stored, rfl, by rw [hwritten, confirmed_cons [] _ hpause]; rfl⟩

theorem stopCurrentPage_write {k : Unit → Browser (Except String Unit)}
    (h : Leads (stopCurrentPage crates) τ (.call (.write written) k)) : Edit crates .stop τ written := by
  unfold stopCurrentPage at h
  obtain ⟨τ₁, page, τ₂, rfl, haside, hpage, h₁⟩ := (currentCanonical_aside crates none).leads rfl h
  split at h₁
  · exact absurd h₁ not_leads_ret_call
  rename_i canonical
  obtain ⟨stored, τ₃, rfl, h₂⟩ := leads_mappings (by simp) h₁
  split at h₂
  · exact absurd h₂ not_leads_ret_call
  rename_i mapping hfound
  have hstop : ∀ url, BrowserRequest.stop ≠ .observe url := fun _ h => by cases h
  have hcopied : copied (τ₁ ++ [⟨.read, stored⟩]) = stored.filter (·.isMapping) := copied_read
  have hpaged : isPage crates canonical mapping = true := List.find?_some hfound
  rw [isPage, Bool.and_eq_true, beq_iff_eq] at hpaged
  have hkeeps : ∀ x ∈ τ₁ ++ [⟨.read, stored⟩], keeps x = true :=
    List.forall_mem_append.mpr ⟨fun x hx => keeps_of_aside (haside x hx), List.forall_mem_singleton.mpr rfl⟩
  have haffected := pausedBy_stop (List.mem_of_find?_eq_some hfound) hpaged.2
  rcases leads_pause (τ₁ ++ [⟨.read, stored⟩]) (fun _ : Unit => stop_forgets mapping) hkeeps hcopied haffected h₂ with
    ⟨rfl, hwritten⟩ | ⟨completed, hwritten, hcompleted⟩
  · refine .pause (fun candidate => if candidate.resourceId = mapping.resourceId then
      mapping.inactivated .pausePending else candidate) hstop (hcopied ▸ hwritten) (fun m => ?_) (fun m => ?_) hkeeps
    · split_ifs with hm
      · exact hm.symm
      · rfl
    · split_ifs with hm
      · refine .inr ⟨rfl, mapping, hcopied ▸ List.mem_of_find?_eq_some hfound, hm.symm, .inr ⟨hpaged.2, canonical, ?_, hpaged.1⟩⟩
        exact (currentCanonical_page hpage).mono (List.subset_append_left ..)
      · exact .inl rfl
  · rw [← List.append_cons] at hwritten hcompleted
    exact .forget completed hstop hwritten hcompleted

theorem Edit.pausePending {request : BrowserRequest} {affected : List BrowserResourceMapping}
    (hrequest : ∀ url, request ≠ .observe url)
    (haffected : ∀ a ∈ affected, a ∈ copied τ ∧
      (a.state = some .pausePending ∨ a.isActive = true ∧ Applies crates request τ a))
    (hwritten : written = pausePending affected (copied τ)) (hτ : ∀ x ∈ τ, keeps x = true) : Edit crates request τ written := by
  refine .pause (fun m => if affected.any (·.resourceId == m.resourceId) then m.inactivated .pausePending else m)
    hrequest hwritten (fun m => ?_) (fun m => ?_) hτ
  · split_ifs <;> rfl
  · split_ifs with hm
    · obtain ⟨a, ha, hid⟩ := List.any_eq_true.mp hm
      exact .inr ⟨rfl, a, (haffected a ha).1, beq_iff_eq.mp hid, (haffected a ha).2⟩
    · exact .inl rfl

/-- `τ₀` is what the call has been answered before. -/
theorem onPermissionsRemoved_write {request : BrowserRequest} {origins : List String} (τ₀ : BrowserTrace)
    (hτ₀ : ∀ x ∈ τ₀, keeps x = true) (hrequest : ∀ url, request ≠ .observe url) (hreconciles : request.reconciles = false)
    (happlies : ∀ τ m, m.originPattern ∈ origins → Applies crates request (τ₀ ++ τ) m)
    {k : Unit → Browser (Except String Unit)}
    (h : Leads (onPermissionsRemoved origins) τ (.call (.write written) k)) : Edit crates request (τ₀ ++ τ) written := by
  unfold onPermissionsRemoved at h
  obtain ⟨stored, τ₁, rfl, h₁⟩ := leads_mappings (by simp) h
  dsimp only at h₁
  split at h₁
  · exact absurd h₁ not_leads_ret_call
  have hcopied : copied (τ₀ ++ [⟨.read, stored⟩]) = stored.filter (·.isMapping) := copied_read
  have hkeeps : ∀ x ∈ τ₀ ++ [⟨.read, stored⟩], keeps x = true :=
    List.forall_mem_append.mpr ⟨hτ₀, List.forall_mem_singleton.mpr rfl⟩
  have hpaused (affected : List BrowserResourceMapping) (hsub : affected.Sublist (stored.filter (·.isMapping)))
      (hon : ∀ m ∈ affected, m.isActive = true) (hk : Keyed (·.resourceId) (stored.filter (·.isMapping))) :
      pausedBy request (stored.filter (·.isMapping)) (pausePending affected (stored.filter (·.isMapping))) = affected :=
    pausedBy_pausePending hk hsub (fun m hm => .inl (hon m hm)) fun h => nomatch hreconciles.symm.trans h
  have hon : ∀ m ∈ (stored.filter (·.isMapping)).filter fun m => m.isActive && origins.contains m.originPattern, m.isActive = true :=
    fun m hm => (Bool.and_eq_true_iff.mp (List.mem_filter.mp hm).2).1
  rcases leads_pause (τ₀ ++ [⟨.read, stored⟩]) (fun _ => syncPausedScopes_forgets fun _ => nativeReconnect_aside) hkeeps
      hcopied (hpaused _ List.filter_sublist hon) h₁ with ⟨rfl, hwritten⟩ | ⟨completed, hwritten, hcompleted⟩
  · refine .pausePending hrequest (fun a ha => ?_) (hcopied ▸ hwritten) hkeeps
    obtain ⟨ha, hselected⟩ := List.mem_filter.mp ha
    rw [Bool.and_eq_true, List.contains_iff_mem] at hselected
    exact ⟨hcopied ▸ ha, .inr ⟨hselected.1, happlies _ a hselected.2⟩⟩
  · rw [← List.append_cons] at hwritten hcompleted
    exact .forget completed hrequest hwritten hcompleted

/-- How `unreconciled` goes through the mappings, by what it asks and what it collects. -/
inductive Collects : List BrowserResourceMapping → BrowserTrace → List BrowserResourceMapping → Prop
  | nil : Collects [] [] []
  | paused {mapping : BrowserResourceMapping} {current affected : List BrowserResourceMapping} {τ : BrowserTrace}
      (hpaused : mapping.state = some .pausePending) (hrest : Collects current τ affected) :
      Collects (mapping :: current) τ (mapping :: affected)
  | refused {mapping : BrowserResourceMapping} {current affected : List BrowserResourceMapping} {τ : BrowserTrace}
      (hactive : mapping.isActive = true) (hrest : Collects current τ affected) :
      Collects (mapping :: current) (⟨.permissionGranted mapping.originPattern, false⟩ :: τ) (mapping :: affected)
  | left {mapping : BrowserResourceMapping} {current affected : List BrowserResourceMapping} {τ : BrowserTrace}
      (asked : BrowserTrace) (hstate : mapping.state ≠ some .pausePending) (hrest : Collects current τ affected) :
      Collects (mapping :: current) (asked ++ τ) affected

theorem unreconciled_collects {current affected : List BrowserResourceMapping}
    (h : Leads (unreconciled current) τ (.ret affected)) : Collects current τ affected := by
  induction current generalizing τ affected with
  | nil =>
    obtain ⟨rfl, heq⟩ := leads_ret_iff.mp h
    obtain rfl := Program.ret.inj heq
    exact .nil
  | cons mapping current ih =>
    have htakes {τ' : BrowserTrace} (hret : Leads (do return mapping :: (← unreconciled current)) τ' (.ret affected)) :
        ∃ rest, affected = mapping :: rest ∧ Collects current τ' rest := by
      obtain ⟨τ₁, rest, τ₂, rfl, hrest, hret⟩ := leads_bind_ret hret
      obtain ⟨rfl, heq⟩ := leads_ret_iff.mp hret
      rw [List.append_nil]
      exact ⟨rest, Program.ret.inj heq, ih hrest⟩
    unfold unreconciled at h
    split at h
    · rename_i hpaused
      obtain ⟨rest, rfl, hrest⟩ := htakes h
      exact .paused hpaused hrest
    rename_i hstate
    split at h
    · rename_i hactive
      rcases leads_perform_bind.mp h with ⟨-, heq⟩ | ⟨granted, τ', rfl, h₁⟩
      · exact nomatch heq
      cases granted with
      | true => exact .left [_] hstate (ih h₁)
      | false =>
        obtain ⟨rest, rfl, hrest⟩ := htakes h₁
        exact .refused hactive hrest
    · exact .left [] hstate (ih h)

/-- What is collected is paused locally, or active without the permission. -/
theorem Collects.reason {current affected : List BrowserResourceMapping} (h : Collects current τ affected) :
    ∀ a ∈ affected, a.state = some .pausePending ∨ a.isActive = true ∧ ⟨.permissionGranted a.originPattern, false⟩ ∈ τ := by
  induction h with
  | nil => exact fun a ha => nomatch ha
  | paused hpaused _ ih => exact List.forall_mem_cons.mpr ⟨.inl hpaused, ih⟩
  | refused hactive _ ih =>
    refine List.forall_mem_cons.mpr ⟨.inr ⟨hactive, List.mem_cons_self⟩, fun a ha => ?_⟩
    exact (ih a ha).imp_right (And.imp_right (List.mem_cons_of_mem _))
  | left _ _ _ ih => exact fun a ha => (ih a ha).imp_right (And.imp_right (List.mem_append_right _))

theorem Collects.sublist {current affected : List BrowserResourceMapping} (h : Collects current τ affected) :
    affected.Sublist current := by
  induction h with
  | nil => exact .slnil
  | paused _ _ ih | refused _ _ ih => exact ih.cons_cons _
  | left _ _ _ ih => exact ih.cons _

theorem Collects.paused_mem {current affected : List BrowserResourceMapping} (h : Collects current τ affected) :
    ∀ m ∈ current, m.state = some .pausePending → m ∈ affected := by
  induction h with
  | nil => exact fun m hm => nomatch hm
  | paused _ _ ih | refused _ _ ih =>
    refine List.forall_mem_cons.mpr ⟨fun _ => List.mem_cons_self, fun m hm hpaused => ?_⟩
    exact List.mem_cons_of_mem _ (ih m hm hpaused)
  | left _ hstate _ ih => exact List.forall_mem_cons.mpr ⟨fun hpaused => absurd hpaused hstate, ih⟩

theorem reconcilePermissions_write {request : BrowserRequest} (hrequest : request = .start ∨ request = .reconcile)
    {k : Unit → Browser (Except String Unit)}
    (h : Leads reconcilePermissions τ (.call (.write written) k)) : Edit crates request τ written := by
  have hother : ∀ url, request ≠ .observe url := by
    rcases hrequest with rfl | rfl <;> exact fun _ h => (nomatch h)
  have happlies : ∀ {τ m}, ⟨.permissionGranted m.originPattern, false⟩ ∈ τ → Applies crates request τ m := by
    rcases hrequest with rfl | rfl <;> exact fun hm => hm
  have hreconciles : request.reconciles = true := by
    rcases hrequest with rfl | rfl <;> rfl
  unfold reconcilePermissions at h
  obtain ⟨stored, τ₁, rfl, h₁⟩ := leads_mappings (by simp) h
  obtain ⟨τ₂, affected, τ₃, rfl, haside, hcollected, h₂⟩ := (unreconciled_aside _).leads rfl h₁
  split at h₂
  · exact absurd h₂ not_leads_ret_call
  have hcopied : copied (⟨.read, stored⟩ :: τ₂) = stored.filter (·.isMapping) := by
    rw [← List.singleton_append, copied_append fun x hx => ne_read (haside x hx)]
    exact copied_singleton
  have hkeeps : ∀ x ∈ (⟨.read, stored⟩ :: τ₂ : BrowserTrace), keeps x = true :=
    List.forall_mem_cons.mpr ⟨rfl, fun x hx => keeps_of_aside (haside x hx)⟩
  -- what is collected is what the first write pauses
  have hcollects := unreconciled_collects hcollected
  have hsub := hcollects.sublist
  have haffected (hk : Keyed (·.resourceId) (stored.filter (·.isMapping))) :=
    pausedBy_pausePending hk hsub (fun _ _ => .inr hreconciles) fun _ => hcollects.paused_mem
  have hforgets : ∀ u : Unit, Forgets affected (syncPausedScopes affected >>= fun _ => nativeReconnect >>= fun _ =>
      (pure (.ok ()) : Browser (Except String Unit))) := by
    refine fun u => syncPausedScopes_forgets fun _ => ?_
    exact nativeReconnect_aside.bind fun _ _ => trivial
  rcases leads_pause (⟨.read, stored⟩ :: τ₂) hforgets hkeeps hcopied haffected h₂ with
    ⟨rfl, hwritten⟩ | ⟨completed, hwritten, hcompleted⟩
  · rw [List.append_nil]
    refine .pausePending hother (fun a ha => ?_) (hcopied ▸ hwritten) hkeeps
    exact ⟨hcopied ▸ hsub.subset ha, (hcollects.reason a ha).imp_right fun hactive => ⟨hactive.1, happlies (List.mem_cons_of_mem _ hactive.2)⟩⟩
  · exact .forget completed hother hwritten hcompleted

theorem emitEvent_issues (now : Int) (resourceId : String) :
    (emitEvent now resourceId).Issues fun o => o = .emit now resourceId ∨ o.isAside = true := by
  refine .perform_bind (.inr rfl) fun connected => ?_
  cases connected with
  | false => trivial
  | true =>
    refine .perform_bind (.inl rfl) fun payload => ?_
    cases payload with
    | none => trivial
    | some payload => exact .perform_bind (.inr rfl) fun r => by cases r <;> trivial

/-- An event goes out under the time of its place on the chain, for the resource it was queued for. -/
theorem queueEvent_issues (key resourceId : String) :
    (queueEvent key resourceId).Issues fun o => (∃ now, o = .emit now resourceId) ∨ o.isAside = true := by
  refine .perform_bind (.inr rfl) fun place => ?_
  rcases place with _ | ⟨now, place⟩
  · trivial
  · refine .perform_bind (.inr rfl) fun _ => ?_
    refine ((emitEvent_issues now resourceId).mono (fun o ho => ?_) fun _ h => h).bind fun _ _ =>
      .perform_bind (.inr rfl) fun _ => trivial
    exact ho.imp_left fun h => ⟨now, h⟩

/-- A navigation that comes to a write or an event has found its page active; it writes when the
permission is gone, and emits when it is there. -/
theorem onNavigation_leads {tab : BrowserTab} {o : BrowserOp} {k : o.Res → Browser (Except String Unit)}
    (ho : o.isAside = false) (hread : o ≠ .read) (h : Leads (onNavigation crates tab) τ (.call o k)) :
    ∃ stored mapping, mapping ∈ stored.filter (·.isMapping) ∧ mapping.isActive = true ∧
      ((∃ τ', τ = ⟨.read, stored⟩ :: ⟨.permissionGranted mapping.originPattern, true⟩ :: τ' ∧
          ∃ key, Leads (queueEvent key mapping.resourceId) τ' (.call o k)) ∨
        ∃ τ', τ = ⟨.read, stored⟩ :: ⟨.permissionGranted mapping.originPattern, false⟩ :: τ' ∧
          Leads (onPermissionsRemoved [mapping.originPattern]) τ' (.call o k)) := by
  unfold onNavigation at h
  split at h
  · split at h
    · exact absurd h not_leads_ret_call
    split at h
    · exact absurd h not_leads_ret_call
    rename_i canonical hcanonical
    obtain ⟨stored, τ₁, rfl, h₁⟩ := leads_mappings hread h
    split at h₁
    · exact absurd h₁ not_leads_ret_call
    rename_i mapping hfound
    have hpaged : isPage crates canonical mapping = true := List.find?_some hfound
    rw [isPage, Bool.and_eq_true] at hpaged
    have haside : BrowserOp.permissionGranted mapping.originPattern ≠ o := by
      rintro rfl
      exact nomatch ho
    obtain ⟨granted, τ₂, rfl, h₂⟩ := leads_perform_call h₁ haside
    refine ⟨stored, mapping, List.mem_of_find?_eq_some hfound, hpaged.2, ?_⟩
    cases granted with
    | true => exact .inl ⟨τ₂, rfl, _, h₂⟩
    | false => exact .inr ⟨τ₂, rfl, h₂⟩
  · exact absurd h not_leads_ret_call

theorem onNavigation_write {tab : BrowserTab} {k : Unit → Browser (Except String Unit)}
    (h : Leads (onNavigation crates tab) τ (.call (.write written) k)) : Edit crates (.navigation tab) τ written := by
  obtain ⟨stored, mapping, -, -, ⟨τ', rfl, key, h₁⟩ | ⟨τ', rfl, h₁⟩⟩ := onNavigation_leads rfl (by simp) h
  · have hwrite := ((queueEvent_issues key mapping.resourceId).leads h₁).1
    rcases hwrite with ⟨now, heq⟩ | haside
    · exact nomatch heq
    · exact nomatch haside
  · refine onPermissionsRemoved_write [⟨.read, stored⟩, ⟨.permissionGranted mapping.originPattern, false⟩]
        (List.forall_mem_cons.mpr ⟨rfl, List.forall_mem_singleton.mpr rfl⟩) (fun _ h => nomatch h) rfl (fun τ m hm => ?_) h₁
    obtain hpattern := List.mem_singleton.mp hm
    show (⟨.permissionGranted m.originPattern, false⟩ : Answered BrowserOp.Res) ∈ _
    rw [hpattern]
    exact List.mem_cons_of_mem _ List.mem_cons_self

/-- Whatever a call writes is made from the list that it has read last. -/
theorem handler_write {request : BrowserRequest} {k : Unit → Browser (Except String Unit)}
    (h : Leads (handleBrowserRequest crates request) τ (.call (.write written) k)) : Edit crates request τ written := by
  cases request with
  | start =>
    rcases leads_bind_call h with ⟨k', h₁⟩ | ⟨τ₁, r, τ₂, rfl, -, h₁⟩
    · exact reconcilePermissions_write (.inl rfl) h₁
    · obtain ⟨connected, τ₃, rfl, h₂⟩ := leads_perform_call h₁ (by simp)
      cases connected <;> exact absurd h₂ not_leads_ret_call
  | observe requestedCanonical => exact observeCurrentPage_write h
  | stop => exact stopCurrentPage_write h
  | permissionsRemoved origins =>
    exact onPermissionsRemoved_write [] (fun _ h => nomatch h) (fun _ h => nomatch h) rfl (fun τ m hm => hm) h
  | reconcile => exact reconcilePermissions_write (.inr rfl) h
  | navigation tab => exact onNavigation_write h

end Writes

/-! ## Events -/

abbrev Silent {α : Type} (p : Browser α) : Prop := p.Issues fun o => ∀ now resourceId, o ≠ .emit now resourceId

section Events
variable {crates : Crates} {α : Type} {p : Browser α} {τ : BrowserTrace}

theorem Aside.silent (hp : Aside p) : Silent p := by
  refine hp.mono (fun o ho now resourceId heq => ?_) fun _ h => h
  subst heq
  exact nomatch ho

theorem silent_write {written : List BrowserResourceMapping} {f : Unit → Browser α} (hf : ∀ u, Silent (f u)) :
    Silent (browser (.write written) >>= f) := .perform_bind (fun _ _ h => nomatch h) hf

theorem silent_mappings {f : List BrowserResourceMapping → Browser α} (hf : ∀ current, Silent (f current)) :
    Silent (mappings >>= f) := .perform_bind (fun _ _ h => nomatch h) fun _ => hf _

theorem syncPausedScopes_silent (affected : List BrowserResourceMapping) : Silent (syncPausedScopes affected) := by
  refine (pauseScopes_aside affected).silent.bind fun completed _ => ?_
  split
  · trivial
  · exact silent_mappings fun current => silent_write fun _ => trivial

theorem onPermissionsRemoved_silent (origins : List String) : Silent (onPermissionsRemoved origins) := by
  refine silent_mappings fun current => ?_
  dsimp only
  split
  · trivial
  · exact silent_write fun _ => (syncPausedScopes_silent _).bind fun _ _ => nativeReconnect_aside.silent

theorem reconcilePermissions_silent : Silent reconcilePermissions := by
  refine silent_mappings fun current => (unreconciled_aside current).silent.bind fun affected _ => ?_
  split
  · trivial
  · exact silent_write fun _ => (syncPausedScopes_silent _).bind fun _ _ => nativeReconnect_aside.silent.bind fun _ _ => trivial

theorem stopCurrentPage_silent : Silent (stopCurrentPage crates) := by
  refine (currentCanonical_aside crates none).silent.bind fun page _ => ?_
  split
  · trivial
  refine silent_mappings fun current => ?_
  split
  · trivial
  refine silent_write fun _ => pauseCore_aside.silent.bind fun r _ => ?_
  split
  · trivial
  · exact silent_mappings fun current => silent_write fun _ => nativeReconnect_aside.silent

theorem observeCurrentPage_silent (requestedCanonical : Option String) :
    Silent (observeCurrentPage crates requestedCanonical) := by
  refine (currentCanonical_aside crates requestedCanonical).silent.bind fun page _ => ?_
  split
  · trivial
  split
  · unfold observePage
    refine .perform_bind (fun _ _ h => nomatch h) fun granted => ?_
    split
    · trivial
    refine nativeRequest_aside.silent.bind fun response _ => ?_
    split
    · trivial
    split
    · trivial
    refine .perform_bind (fun _ _ h => nomatch h) fun still => ?_
    split
    · trivial
    · exact silent_mappings fun current => silent_write fun _ => nativeReconnect_aside.silent
  · trivial
  · trivial

theorem Silent.not_leads {now : Int} {resourceId : String} {k : Option Encoding.Json → Browser α} (hp : Silent p) :
    ¬ Leads p τ (.call (.emit now resourceId) k) := fun h => (hp.leads h).1 now resourceId rfl

/-- Only a navigation emits an event, and only of a resource that is active in the one list it has read. -/
theorem handler_emit {request : BrowserRequest} {now : Int} {resourceId : String}
    {k : Option Encoding.Json → Browser (Except String Unit)}
    (h : Leads (handleBrowserRequest crates request) τ (.call (.emit now resourceId) k)) :
    ∃ tab stored τ', request = .navigation tab ∧ τ = ⟨.read, stored⟩ :: τ' ∧ (∀ x ∈ τ', x.op ≠ .read) ∧
      activeIn stored resourceId = true := by
  cases request with
  | start =>
    have hsilent : Silent startIntegration := by
      refine reconcilePermissions_silent.bind fun _ _ => .perform_bind (fun _ _ h => nomatch h) fun connected => ?_
      cases connected <;> trivial
    exact absurd h hsilent.not_leads
  | observe requestedCanonical => exact absurd h (observeCurrentPage_silent requestedCanonical).not_leads
  | stop => exact absurd h stopCurrentPage_silent.not_leads
  | permissionsRemoved origins => exact absurd h (onPermissionsRemoved_silent origins).not_leads
  | reconcile => exact absurd h reconcilePermissions_silent.not_leads
  | navigation tab =>
    obtain ⟨stored, mapping, hmem, hactive, ⟨τ', rfl, key, h₁⟩ | ⟨τ', rfl, h₁⟩⟩ := onNavigation_leads rfl (by simp) h
    · have hissues := queueEvent_issues key mapping.resourceId
      have hemit := (hissues.leads h₁).1
      have hresource : resourceId = mapping.resourceId := by
        rcases hemit with ⟨_, heq⟩ | haside
        · exact (BrowserOp.emit.inj heq).2
        · exact nomatch haside
      refine ⟨tab, stored, _, rfl, rfl, ?_, activeIn_iff.mpr ⟨mapping, (List.mem_filter.mp hmem).1, hactive, hresource.symm⟩⟩
      intro x hx
      rcases List.mem_cons.mp hx with rfl | hx
      · exact ne_read rfl
      · rcases hissues.mem h₁ hx with ⟨_, heq⟩ | haside
        · exact fun hread => nomatch heq.symm.trans hread
        · exact ne_read haside
    · exact absurd h₁ (onPermissionsRemoved_silent _).not_leads

end Events
end Fubun.Extensions

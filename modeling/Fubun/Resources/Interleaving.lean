import Fubun.Resources.Enabling
import Mathlib.Data.Fintype.EquivFin

/-! The enabling of one page by any number of requests, among pauses and registrations: it comes to one
resource and one scope, whose state is that of the last operation on it. -/

namespace Fubun
open Relational Concurrency Program System

/-! ## Operations on a scope -/

inductive ScopeOperation where
  | enable
  | pause
deriving DecidableEq

def ScopeOperation.status : ScopeOperation → ObservationStatus
  | .enable => .active
  | .pause => .paused

def scopeOperation (scopeId : Uuid) : (o : Operation) → Except StorageError o.Reply → Option ScopeOperation
  | .ensureObservationScope _, .ok scope => if scope.id = scopeId then some .enable else none
  | .pauseObservationScope _, .ok scope => if scope.id = scopeId then some .pause else none
  | _, _ => none

def scopeOperations (scopeId : Uuid) (log : Log) : List ScopeOperation :=
  log.filterMap (committed (scopeOperation scopeId))

section Scopes
variable {crates : Crates} {now : OffsetDateTime} {db db' : Database} {o : Operation} {r : Except StorageError o.Reply}
  {scopeId : Uuid}

/-- An enabling leaves the scope active if it asks for an active one, and a pause leaves it paused. -/
theorem Effect.scopeOperation (h : Effect crates now db db' o r)
    (hactive : ∀ scope, o = .ensureObservationScope scope → scope.status = .active) :
    scopeWrite scopeId o r = (scopeOperation scopeId o r).map (·.status) := by
  cases o with
  | ensureObservationScope scope =>
    cases r with
    | error e => rfl
    | ok reply =>
      have hstatus : reply.status = .active := by
        rcases h with ⟨existing, -, hreply, -⟩ | ⟨-, hreply, -⟩
        · rw [hreply]
        · rw [hreply]
          exact hactive scope rfl
      show (if reply.id = scopeId then some reply.status else none) =
        (if reply.id = scopeId then some ScopeOperation.enable else none).map (·.status)
      split_ifs
      · rw [hstatus]
        rfl
      · rfl
  | pauseObservationScope id =>
    cases r with
    | error e => rfl
    | ok reply =>
      have hstatus : reply.status = .paused := by
        obtain ⟨found, -, ⟨-, hreply, -⟩ | ⟨hpaused, hreply, -⟩⟩ := h
        · rw [hreply]
        · rw [hreply, hpaused]
      show (if reply.id = scopeId then some reply.status else none) =
        (if reply.id = scopeId then some ScopeOperation.pause else none).map (·.status)
      split_ifs
      · rw [hstatus]
        rfl
      · rfl
  | _ => rfl

end Scopes

/-! ## Paths -/

section Paths
variable {crates : Crates} {id : Uuid} {candidate resource : Resource} {canonical label url : String}
  {τ τ' : List (Answered Op.Res)}

/-- The storage has offered the resource of a locator, as a new one or among those it has listed. -/
def Offers (canonical : String) (resource : Resource) (τ : List (Answered Op.Res)) : Prop :=
  (∃ candidate : Resource, candidate.canonicalLocator = canonical ∧
    (⟨.storage (.createResource candidate), .ok resource⟩ : Answered Op.Res) ∈ τ) ∨
  (resource.canonicalLocator = canonical ∧ ∃ resources : List Resource, resource ∈ resources ∧
    (⟨.storage .listResources, .ok resources⟩ : Answered Op.Res) ∈ τ)

theorem Offers.mono (h : Offers canonical resource τ) (hτ : ∀ x ∈ τ, x ∈ τ') : Offers canonical resource τ' := by
  rcases h with ⟨candidate, hlocator, hx⟩ | ⟨hlocator, resources, hmem, hx⟩
  · exact .inl ⟨candidate, hlocator, hτ _ hx⟩
  · exact .inr ⟨hlocator, resources, hmem, hτ _ hx⟩

theorem createOrFind_offers {conflict : String} (h : Leads (createOrFind id candidate conflict) τ (.ret (.ok resource))) :
    Offers candidate.canonicalLocator resource τ := by
  unfold createOrFind at h
  rcases leads_perform_bind.mp h with ⟨-, heq⟩ | ⟨r, τ₁, rfl, hcreated⟩
  · exact nomatch heq
  rcases r with e | created
  · cases e with
    | duplicateResource =>
      rcases leads_perform_bind.mp hcreated with ⟨-, heq⟩ | ⟨r, τ₂, rfl, hlisted⟩
      · exact nomatch heq
      rcases r with e | resources
      · exact nomatch (leads_ret_iff.mp hlisted).2
      · dsimp only at hlisted
        cases hfind : resources.find? fun resource => resource.kind == candidate.kind &&
            resource.canonicalLocator == candidate.canonicalLocator with
        | none =>
          rw [hfind] at hlisted
          exact nomatch (leads_ret_iff.mp hlisted).2
        | some found =>
          rw [hfind] at hlisted
          obtain rfl := Except.ok.inj (Program.ret.inj (leads_ret_iff.mp hlisted).2)
          have hmatches := List.find?_some hfind
          simp only [Bool.and_eq_true, beq_iff_eq] at hmatches
          exact .inr ⟨hmatches.2, resources, List.mem_of_find?_eq_some hfind, by simp⟩
    | _ => exact nomatch (leads_ret_iff.mp hcreated).2
  · obtain rfl := Except.ok.inj (Program.ret.inj (leads_ret_iff.mp hcreated).2)
    exact .inl ⟨candidate, rfl, List.mem_cons_self⟩

theorem createOrFind_call {conflict : String} {operation : Operation} {k : (Op.storage operation).Res → Core (Except ResponseEnvelope Resource)}
    (h : Leads (createOrFind id candidate conflict) τ (.call (.storage operation) k)) :
    operation = .createResource candidate ∨ operation = .listResources := by
  have hissues : (createOrFind id candidate conflict).Issues fun o =>
      o = .storage (.createResource candidate) ∨ o = .storage .listResources := by
    unfold createOrFind
    refine .perform_bind (.inl rfl) fun r => ?_
    split
    · trivial
    · refine .perform_bind (.inr rfl) fun r => ?_
      split
      · split <;> trivial
      · trivial
    · trivial
  rcases (hissues.leads h).1 with heq | heq
  · exact .inl (Op.storage.inj heq)
  · exact .inr (Op.storage.inj heq)

/-- What an enabling of a page asks of the storage: the resource of the page, or the scope of a resource that
it was offered for the page. -/
theorem leads_browserEnable {operation : Operation} {k : (Op.storage operation).Res → Core ResponseEnvelope}
    (h : Leads (browserObservationEnableResponse crates id label url) τ (.call (.storage operation) k)) :
    ∃ canonical, canonicalizeWebUrl crates url = .ok canonical ∧
      ((∃ candidate : Resource, operation = .createResource candidate ∧ candidate.canonicalLocator = canonical) ∨
        operation = .listResources ∨
        ∃ scopeId resource now, Offers canonical resource τ ∧
          operation = .ensureObservationScope ⟨scopeId, .browserChromium, resource.id, .active, now, now⟩) := by
  unfold browserObservationEnableResponse at h
  cases hcanonical : canonicalizeWebUrl crates url with
  | error e =>
    rw [hcanonical] at h
    exact absurd h not_leads_ret_call
  | ok canonical =>
    rw [hcanonical] at h
    refine ⟨canonical, rfl, ?_⟩
    obtain ⟨now, τ₁, rfl, hnow⟩ := leads_perform_call h (by simp)
    obtain ⟨resourceId, τ₂, rfl, hdrawn⟩ := leads_perform_call hnow (by simp)
    dsimp only at hdrawn
    split at hdrawn
    · exact absurd hdrawn not_leads_ret_call
    rcases leads_bind_call hdrawn with ⟨k', hfinding⟩ | ⟨τ₃, result, τ₄, rfl, hfound, hafter⟩
    -- the call comes from the search for the resource
    · rcases createOrFind_call hfinding with rfl | rfl
      · exact .inl ⟨_, rfl, rfl⟩
      · exact .inr (.inl rfl)
    · cases result with
      | error response => exact absurd hafter not_leads_ret_call
      | ok resource =>
        -- the resource is found, which the reply on the trace shows
        have hoffers := createOrFind_offers hfound
        obtain ⟨scopeId, τ₅, rfl, hscope⟩ := leads_perform_call hafter (by simp)
        rcases leads_perform_bind.mp hscope with ⟨-, heq⟩ | ⟨r, τ₆, rfl, hended⟩
        · obtain rfl := Op.storage.inj (Program.call.inj heq).1
          exact .inr (.inr ⟨scopeId, resource, now, hoffers.mono fun x hx => by simp [hx], rfl⟩)
        · cases r with
          | error e => exact absurd hended not_leads_ret_call
          | ok scope =>
            dsimp only at hended
            split at hended <;> exact absurd hended not_leads_ret_call

theorem observationPause_call {scopeId : Uuid} {operation : Operation} {k : (Op.storage operation).Res → Core ResponseEnvelope}
    (h : Leads (observationPauseResponse id scopeId) τ (.call (.storage operation) k)) :
    operation = .pauseObservationScope scopeId := by
  have hissues : (observationPauseResponse id scopeId).Issues fun o => o = .storage (.pauseObservationScope scopeId) := by
    unfold observationPauseResponse
    refine .perform_bind rfl fun r => ?_
    split <;> trivial
  exact Op.storage.inj (hissues.leads h).1

theorem resourceCreate_call {sensitivity : Sensitivity} {path : String} {operation : Operation}
    {k : (Op.storage operation).Res → Core ResponseEnvelope}
    (h : Leads (resourceCreateResponse crates id label path sensitivity) τ (.call (.storage operation) k)) :
    ∃ resource : Resource, operation = .createResource resource ∧ isAbsolute resource.canonicalLocator = true := by
  have hissues : (resourceCreateResponse crates id label path sensitivity).Issues fun o =>
      ∀ operation, o = .storage operation →
        ∃ resource : Resource, operation = .createResource resource ∧ isAbsolute resource.canonicalLocator = true := by
    -- whatever is not a web page is kept under an absolute path
    have hpath {kind : ResourceKind} (hkind : kind ≠ .webPage) (now : OffsetDateTime) (resourceId : Uuid)
        (canonical : String) (hvalid : Resource.validate crates
          ⟨resourceId, kind, label, path, canonical, sensitivity, .exact, now, now⟩ = .ok ()) :
        isAbsolute canonical = true := validatePathString_absolute hvalid hkind
    unfold resourceCreateResponse
    split
    · trivial
    refine .perform_bind (fun _ ho => nomatch ho) fun metadata => ?_
    split
    · trivial
    rename_i metadata
    refine .perform_bind (fun _ ho => nomatch ho) fun canonical => ?_
    split
    · trivial
    dsimp only
    split
    · trivial
    rename_i kind hkind
    have hne : kind ≠ .webPage := by
      rintro rfl
      cases metadata <;> exact nomatch hkind
    refine .perform_bind (fun _ ho => nomatch ho) fun now => ?_
    refine .perform_bind (fun _ ho => nomatch ho) fun resourceId => ?_
    split
    · trivial
    · rename_i hvalid
      refine .perform_bind (fun operation ho => ?_) fun r => ?_
      · obtain rfl := Op.storage.inj ho
        exact ⟨_, rfl, hpath hne now resourceId _ hvalid⟩
      · split <;> trivial
  exact (hissues.leads h).1 operation rfl

/-! ## What the handlers change -/

/-- Resources of one kind are added, scopes of one kind are changed, and all the others stay. -/
structure Changes (resources : Resource → Prop) (scopes : ObservationScope → Prop) (db db' : Database) : Prop where
  kept : ∀ row ∈ db.resources, row ∈ db'.resources
  added : ∀ row ∈ db'.resources, row ∈ db.resources ∨ resources row
  scopes : ∀ row, ¬ scopes row → (row ∈ db'.observationScopes ↔ row ∈ db.observationScopes)

def ObservesPage (canonical : String) (db : Database) (scope : ObservationScope) : Prop :=
  scope.source = .browserChromium ∧
    ∃ row ∈ db.resources, row.id = scope.resourceId ∧ row.canonicalLocator = canonical

/-- What a request may change: an enabling its page and the scope of it, a pause its scope, and a registration of a
path adds the path. -/
def Confined (crates : Crates) (body : RequestBody) (db db' : Database) : Prop :=
  match body with
  | .browserObservationEnable _ url => ∀ canonical, canonicalizeWebUrl crates url = .ok canonical →
    Changes (·.canonicalLocator = canonical) (ObservesPage canonical db') db db'
  | .observationPause scopeId => Changes (fun _ => False) (·.id = scopeId) db db'
  | .resourceCreate .. => Changes (fun row => isAbsolute row.canonicalLocator = true) (fun _ => False) db db'
  | _ => True

section Confined
variable {now : OffsetDateTime} {db db' : Database} {P : Resource → Prop} {Q : ObservationScope → Prop}

theorem Changes.refl (db : Database) : Changes P Q db db :=
  ⟨fun _ h => h, fun _ h => .inl h, fun _ _ => Iff.rfl⟩

theorem Effect.same_changes {o : Operation} {r : Except StorageError o.Reply} (h : Effect crates now db db' o r)
    (hresources : TableName.resources ∉ o.writes) (hscopes : TableName.observationScopes ∉ o.writes) :
    Changes P Q db db' := by
  have hsameResources : db'.resources = db.resources := h.frame hresources
  have hsameScopes : db'.observationScopes = db.observationScopes := h.frame hscopes
  exact ⟨fun row hrow => hsameResources ▸ hrow, fun row hrow => .inl (hsameResources ▸ hrow), fun row _ => by rw [hsameScopes]⟩

theorem mem_updateRows_of_not {α : Type} {p : α → Bool} {f : α → α} {rows : List α} {row : α} (hp : row ∈ rows → ¬ p row = true)
    (hf : ∀ x ∈ rows, p x = true → f x ≠ row) : row ∈ updateRows p f rows ↔ row ∈ rows := by
  rw [mem_updateRows]
  constructor
  · rintro ⟨x, hx, heq⟩
    split_ifs at heq with hpx
    · exact absurd heq (hf x hx hpx)
    · exact heq ▸ hx
  · intro hrow
    exact ⟨row, hrow, if_neg (hp hrow)⟩

theorem Effect.createResource_changes {candidate : Resource} {r : Except StorageError Resource}
    (h : Effect crates now db db' (.createResource candidate) r) (hP : P { candidate with updatedAt := candidate.createdAt }) :
    Changes P Q db db' := by
  have hscopes : db'.observationScopes = db.observationScopes :=
    h.frame (by simp [Operation.writes] : TableName.observationScopes ∉ _)
  have hsame : ∀ row, ¬ Q row → (row ∈ db'.observationScopes ↔ row ∈ db.observationScopes) := fun row _ => by rw [hscopes]
  rcases h.resources with hresources | ⟨resource, hx, -, hresources⟩
  · exact ⟨fun row hrow => hresources ▸ hrow, fun row hrow => .inl (hresources ▸ hrow), hsame⟩
  · cases hx
    refine ⟨fun row hrow => hresources ▸ List.mem_append_left _ hrow, fun row hrow => ?_, hsame⟩
    rw [hresources] at hrow
    rcases List.mem_append.mp hrow with hrow | hrow
    · exact .inl hrow
    · rw [List.mem_singleton.mp hrow]
      exact .inr hP

theorem Effect.ensureScope_changes {scope : ObservationScope} {r : Except StorageError ObservationScope}
    (h : Effect crates now db db' (.ensureObservationScope scope) r) (hkeys : db.Keys)
    (hQ : ∀ row, row.key = scope.key → Q row) :
    Changes P Q db db' := by
  have hresources : db'.resources = db.resources := h.frame (by simp [Operation.writes] : TableName.resources ∉ _)
  refine ⟨fun row hrow => hresources ▸ hrow, fun row hrow => .inl (hresources ▸ hrow), fun row hrow => ?_⟩
  have hne : row.key ≠ scope.key := fun heq => hrow (hQ row heq)
  cases r with
  | error e =>
    have hdb : db' = db := h
    rw [hdb]
  | ok reply =>
    rcases h with ⟨existing, hfind, -, hdb⟩ | ⟨-, -, hinsert⟩
    · have hmatches := List.find?_some hfind
      simp only [Bool.and_eq_true, beq_iff_eq] at hmatches
      have hkey : existing.key = scope.key := Prod.ext hmatches.1 hmatches.2
      have hexisting : ∀ x ∈ db.observationScopes, (x.id == existing.id) = true → x.key = scope.key := by
        intro x hx hid
        rw [hkeys.scopeIds.eq hx (List.mem_of_find?_eq_some hfind) (eq_of_beq hid), hkey]
      rw [hdb]
      refine mem_updateRows_of_not (fun hmem hid => hne (hexisting row hmem hid)) fun x hx hid heq => hne ?_
      rw [← heq]
      exact hexisting x hx hid
    · obtain ⟨-, -, hdb⟩ := insertScope_ok hinsert
      rw [hdb]
      refine List.mem_append.trans (or_iff_left fun hmem => hne ?_)
      rw [List.mem_singleton.mp hmem]

theorem Effect.pauseScope_changes {scopeId : Uuid} {r : Except StorageError ObservationScope}
    (h : Effect crates now db db' (.pauseObservationScope scopeId) r) (hQ : ∀ row, row.id = scopeId → Q row) :
    Changes P Q db db' := by
  have hresources : db'.resources = db.resources := h.frame (by simp [Operation.writes] : TableName.resources ∉ _)
  refine ⟨fun row hrow => hresources ▸ hrow, fun row hrow => .inl (hresources ▸ hrow), fun row hrow => ?_⟩
  have hne : row.id ≠ scopeId := fun heq => hrow (hQ row heq)
  cases r with
  | error e =>
    have hdb : db' = db := h
    rw [hdb]
  | ok reply =>
    obtain ⟨scope, -, ⟨-, -, hdb⟩ | ⟨-, -, hdb⟩⟩ := h
    · rw [hdb]
      refine mem_updateRows_of_not (fun _ hmatches => ?_) fun x _ hmatches heq => ?_
      · exact hne (eq_of_beq (Bool.and_eq_true_iff.mp hmatches).1)
      · have hid : x.id = scopeId := eq_of_beq (Bool.and_eq_true_iff.mp hmatches).1
        exact hne (heq ▸ hid)
    · rw [hdb]

end Confined

def Offered (o : Op) (r : o.Res) (w : World) : Prop :=
  ∀ canonical resource, Offers canonical resource [⟨o, r⟩] →
    ∃ row ∈ w.db.resources, row.id = resource.id ∧ row.canonicalLocator = canonical

theorem Offered.mono {o : Op} {r : o.Res} {w w' : World} (h : Offered o r w) (hg : Grows w.db w'.db) :
    Offered o r w' := by
  intro canonical resource hoffers
  obtain ⟨row, hrow, heq⟩ := h canonical resource hoffers
  exact ⟨row, hg.resources row hrow, heq⟩

theorem offered_learned {i : Nat} {o : Op} {ch : Choice} {r : o.Res} {w w' : World}
    (h : World.act crates i o ch w = some (r, w')) : Offered o r w' := by
  rintro canonical resource (⟨candidate, hlocator, hx⟩ | ⟨hlocator, resources, hmem, hx⟩)
  · cases List.mem_singleton.mp hx
    obtain ⟨rfl, -, hdb⟩ := createResource_ok.mp (act_storage h).1
    refine ⟨{ resource with updatedAt := resource.createdAt }, ?_, rfl, hlocator⟩
    rw [hdb]
    exact List.mem_append_right _ (List.mem_singleton_self _)
  · cases List.mem_singleton.mp hx
    obtain ⟨rfl, hdb⟩ := (act_storage h).1
    rw [hdb]
    exact ⟨resource, mem_orderBy.mp hmem, rfl, hlocator⟩

def offered (crates : Crates) : (daemon crates).Persistent where
  holds := Offered
  learned h := offered_learned h
  act h hact := by
    rcases act_effect hact with ⟨_, _, -, he⟩ | hdb
    · exact h.mono he.grows
    · exact h.mono (hdb ▸ Grows.refl _)
  drift e h := h.mono ((drift_db e).symm ▸ Grows.refl _)
  restart ch h := by
    obtain ⟨_, he, -⟩ := restart_effect crates ch _
    exact h.mono he.grows

end Paths

/-! ## Runs -/

section Runs
variable {crates : Crates} {now : Int} {instant : Nat} {files : Files} {path : String} {c c' : State} {i : Nat}
  {t : Thread Op Op.Res Frame Reply} {request : RequestEnvelope} {canonical : String}
  {ok : State → Concurrency.Event Nat Frame Choice Drift → Prop}

theorem offers_stored (h : (daemon crates).Reaches (World.start now instant files path) ok c)
    (ht : c.threads i = some t) {resource : Resource} (hoffers : Offers canonical resource t.trace) :
    ∃ row ∈ c.world.db.resources, row.id = resource.id ∧ row.canonicalLocator = canonical := by
  rcases hoffers with ⟨candidate, hlocator, hx⟩ | ⟨hlocator, resources, hmem, hx⟩
  · have hheld : Offered _ _ c.world := h.persistent (offered crates) (h.mem_log ht hx)
    exact hheld canonical resource (.inl ⟨candidate, hlocator, List.mem_singleton_self _⟩)
  · have hheld : Offered _ _ c.world := h.persistent (offered crates) (h.mem_log ht hx)
    exact hheld canonical resource (.inr ⟨hlocator, resources, hmem, List.mem_singleton_self _⟩)

theorem reaches_confined (h : (daemon crates).Reaches (World.start now instant files path) ok c) {ch : Choice}
    (hs : (daemon crates).Step c (.call i ch) c') (ht : c.threads i = some t) (hrequest : t.request = .request request) :
    Confined crates request.body c.world.db c'.world.db := by
  cases hs with
  | @call _ u o k _ r w hu hrest hact =>
    obtain rfl := Option.some.inj (ht.symm.trans hu)
    have hleads : Leads (handleFrame crates t.request) t.trace (.call o k) := hrest ▸ (h.traced ht).leads
    rw [hrequest] at hleads
    obtain ⟨k', hleads⟩ := leads_request hleads
    have hkeys := reaches_keys h rfl
    show Confined crates request.body c.world.db w.db
    rcases act_effect hact with ⟨operation, reply, hx, he⟩ | hdb
    · cases hx
      cases hbody : request.body with
      | browserObservationEnable label url =>
        rw [hbody] at hleads
        intro canonical hcanonical
        obtain ⟨canonical', hcanonical', hop⟩ := leads_browserEnable hleads
        obtain rfl := Except.ok.inj (hcanonical.symm.trans hcanonical')
        rcases hop with ⟨candidate, rfl, hlocator⟩ | rfl | ⟨scopeId, resource, at', hoffers, rfl⟩
        · exact he.createResource_changes hlocator
        · exact he.same_changes (by simp [Operation.writes]) (by simp [Operation.writes])
        · have hresources : w.db.resources = c.world.db.resources :=
            he.frame (by simp [Operation.writes] : TableName.resources ∉ _)
          obtain ⟨row, hrow, hid, hlocator⟩ := offers_stored h ht hoffers
          -- the scope is of the resource that this request has found
          refine he.ensureScope_changes hkeys fun scope hkey => ?_
          obtain ⟨hsource, hresource⟩ := Prod.mk.inj hkey
          exact ⟨hsource, row, hresources ▸ hrow, hid.trans hresource.symm, hlocator⟩
      | observationPause scopeId =>
        rw [hbody] at hleads
        obtain rfl := observationPause_call hleads
        exact he.pauseScope_changes fun _ hid => hid
      | resourceCreate label path sensitivity =>
        rw [hbody] at hleads
        obtain ⟨resource, rfl, habsolute⟩ := resourceCreate_call hleads
        exact he.createResource_changes habsolute
      | _ => trivial
    · rw [hdb]
      cases request.body with
      | browserObservationEnable label url => exact fun _ _ => .refl _
      | observationPause scopeId => exact .refl _
      | resourceCreate label path sensitivity => exact .refl _
      | _ => trivial

/-! ## Answers -/

/-- A connection has answered a request, after what it had been answered itself for the request. -/
def AnsweredIn (log : Log) (i : Nat) (request : RequestEnvelope) (τ : List (Answered Op.Res))
    (response : ResponseEnvelope) : Prop :=
  ∃ before after, log = before ++ .answer i (.response response) :: after ∧ Serving i (.request request) τ before

theorem step_grows {e : Concurrency.Event Nat Frame Choice Drift} (hs : (daemon crates).Step c e c') :
    Grows c.world.db c'.world.db := by
  cases hs with
  | arrive => exact .refl _
  | call _ _ hact =>
    rcases act_effect hact with ⟨_, _, -, he⟩ | hdb
    · exact he.grows
    · exact hdb ▸ .refl _
  | answer => exact .refl _
  | @drift drift =>
    have hdb : (World.drift drift c.world).db = c.world.db := drift_db drift
    exact hdb.symm ▸ .refl _
  | @restart ch =>
    obtain ⟨_, he, -⟩ := restart_effect crates ch c.world
    exact he.grows

/-- What an answer says of the page that it enables stays true. -/
theorem concludes_of_answered (h : (daemon crates).Reaches (World.start now instant files path) ok c)
    {τ : List (Answered Op.Res)} {response : ResponseEnvelope} (ha : AnsweredIn c.log i request τ response) :
    Registration.Concludes crates request τ response c.world := by
  induction h with
  | init =>
    obtain ⟨before, after, hlog, -⟩ := ha
    cases before <;> exact nomatch hlog
  | @step c c' e hr hok hs ih =>
    obtain ⟨before, after, hlog, hserving⟩ := ha
    obtain ⟨l, hl⟩ := hs.log
    rcases split_snoc (hl.symm.trans hlog) with ⟨rfl, hx, rfl⟩ | ⟨after', rfl, hc⟩
    · rw [← hx] at hl
      cases hs with
      | @answer j u a hu hrest =>
        obtain ⟨rfl, ha⟩ := Label.answer.inj (List.cons.inj (List.append_cancel_left hl)).1
        obtain ⟨hrequest, htrace⟩ := (hr.serving hu).unique hserving
        obtain ⟨response', hreply, hconcludes⟩ := Registration.concludes_of_ret hr hu hrequest hrest
        obtain rfl := Reply.response.inj (ha.symm.trans hreply)
        exact htrace ▸ hconcludes
      | arrive => exact nomatch (List.cons.inj (List.append_cancel_left hl)).1
      | call => exact nomatch (List.cons.inj (List.append_cancel_left hl)).1
      | drift => exact nomatch (List.cons.inj (List.append_cancel_left hl)).1
      | restart => exact nomatch (List.cons.inj (List.append_cancel_left hl)).1
    · exact (ih ⟨before, after', hc, hserving⟩).mono (step_grows hs)

/-! ## The page -/

/-- A page is stored under one id, and observed under one. -/
theorem HasPage.unique (h : (daemon crates).Reaches (World.start now instant files path) ok c)
    {resourceId resourceId' scopeId scopeId' : Uuid} (hpage : c.world.db.HasPage canonical resourceId scopeId)
    (hpage' : c.world.db.HasPage canonical resourceId' scopeId') : resourceId = resourceId' ∧ scopeId = scopeId' := by
  have hcat := (Registration.reaches_catalogued h).1
  obtain ⟨⟨row, hrow, rfl, hlocator⟩, scope, hscope, rfl, hkey⟩ := hpage
  obtain ⟨⟨row', hrow', rfl, hlocator'⟩, scope', hscope', rfl, hkey'⟩ := hpage'
  have hresource : row = row' := hcat.locators.eq hrow hrow' (hlocator.trans hlocator'.symm)
  subst hresource
  exact ⟨rfl, congrArg _ (hcat.keys.scopes.eq hscope hscope' (hkey.trans hkey'.symm))⟩

/-- What is stored of a page once it has been enabled: one resource, and one scope that is active if the last
operation on it was an enabling. -/
structure PageSettled (canonical : String) (resourceId scopeId : Uuid) (log : Log) (db : Database) : Prop where
  resource : ∃ resource : Resource, resource.id = resourceId ∧ resource.canonicalLocator = canonical ∧
    db.resources.filter (·.canonicalLocator == canonical) = [resource]
  scope : ∃ scope : ObservationScope, scope.id = scopeId ∧ scope.key = (.browserChromium, resourceId) ∧
    db.observationScopes.filter (·.key == (.browserChromium, resourceId)) = [scope] ∧
    (scope.status = .active ↔ (scopeOperations scopeId log).getLast? = some .enable)

def EnsuresActive (o : Op) : Prop :=
  ∀ scope, o = .storage (.ensureObservationScope scope) → scope.status = .active

theorem ensuresActive_of_targets {o : Op} {targets : List Target} (ho : o.targets ⊆ targets)
    (hscopes : .table .observationScopes ∉ targets) : EnsuresActive o := by
  rintro scope rfl
  exact absurd (ho (by simp [Op.targets, Operation.writes])) hscopes

theorem ActsOn.ensuresActive {α : Type} {p : Core α} {targets : List Target} (h : ActsOn targets p)
    (hscopes : .table .observationScopes ∉ targets) : p.Issues EnsuresActive :=
  Meets.mono h (fun _ ho => ensuresActive_of_targets ho hscopes) fun _ _ => trivial

theorem browserObservationEnableResponse_ensuresActive (id : Uuid) (label url : String) :
    (browserObservationEnableResponse crates id label url).Issues EnsuresActive := by
  unfold browserObservationEnableResponse
  split
  · trivial
  refine .perform_bind (fun _ ho => nomatch ho) fun now => ?_
  refine .perform_bind (fun _ ho => nomatch ho) fun resourceId => ?_
  dsimp only
  split
  · trivial
  refine Meets.bind ((createOrFind_actsOn _ _).ensuresActive (by simp)) fun result _ => ?_
  split
  · trivial
  refine .perform_bind (fun _ ho => nomatch ho) fun scopeId => ?_
  refine .perform_bind (fun scope ho => ?_) fun r => ?_
  · obtain rfl := Operation.ensureObservationScope.inj (Op.storage.inj ho)
    rfl
  · split
    · trivial
    · split <;> trivial

theorem vscodeObservationEnableResponse_ensuresActive (id : Uuid) (label path : String) :
    (vscodeObservationEnableResponse crates id label path).Issues EnsuresActive := by
  unfold vscodeObservationEnableResponse
  split
  · trivial
  refine .perform_bind (fun _ ho => nomatch ho) fun canonical => ?_
  split
  · trivial
  refine .perform_bind (fun _ ho => nomatch ho) fun metadata => ?_
  split
  · trivial
  refine .perform_bind (fun _ ho => nomatch ho) fun now => ?_
  refine .perform_bind (fun _ ho => nomatch ho) fun resourceId => ?_
  dsimp only
  split
  · trivial
  refine Meets.bind ((createOrFind_actsOn _ _).ensuresActive (by simp)) fun result _ => ?_
  split
  · trivial
  refine .perform_bind (fun _ ho => nomatch ho) fun scopeId => ?_
  refine .perform_bind (fun scope ho => ?_) fun r => ?_
  · obtain rfl := Operation.ensureObservationScope.inj (Op.storage.inj ho)
    rfl
  · split <;> trivial

theorem ensuresActive_of_leads {frame : Frame} {o : Op} {τ : List (Answered Op.Res)} {k : o.Res → Core Reply}
    (h : Leads (handleFrame crates frame) τ (.call o k)) : EnsuresActive o := by
  by_cases hscopes : .table .observationScopes ∈ frame.targets
  · cases frame with
    | request request =>
      obtain ⟨k', hleads⟩ := leads_request h
      rw [Frame.targets] at hscopes
      cases hbody : request.body with
      | browserObservationEnable label url =>
        rw [hbody] at hleads
        exact ((browserObservationEnableResponse_ensuresActive request.requestId label url).leads hleads).1
      | vscodeObservationEnable label path =>
        rw [hbody] at hleads
        exact ((vscodeObservationEnableResponse_ensuresActive request.requestId label path).leads hleads).1
      | observationPause scopeId =>
        rw [hbody] at hleads
        rintro scope rfl
        cases observationPause_call hleads
      | _ => simp [hbody, RequestBody.targets, executionTargets] at hscopes
    | _ => simp [Frame.targets] at hscopes
  · exact ensuresActive_of_targets (leads_targets h) hscopes

theorem scopeWrites_eq (h : (daemon crates).Reaches (World.start now instant files path) ok c) (scopeId : Uuid) :
    (scopeReplay crates scopeId).writes c.log = (scopeOperations scopeId c.log).map (·.status) := by
  have hlabel : ∀ l ∈ c.log, (scopeReplay crates scopeId).write l =
      (committed (scopeOperation scopeId) l).map (·.status) := by
    intro l hl
    obtain ⟨before, after, hlog⟩ := List.append_of_mem hl
    cases l with
    | call j o r =>
      cases o with
      | storage operation =>
        obtain ⟨d, d', t, k, ch, hd, -, -, ht, hrest, hact, -, -⟩ := h.split_call hlog
        have hleads : Leads (handleFrame crates t.request) t.trace (.call (.storage operation) k) :=
          hrest ▸ (hd.traced ht).leads
        refine (daemon_storage hact).scopeOperation fun scope heq => ?_
        exact ensuresActive_of_leads hleads scope (congrArg _ heq)
      | _ => rfl
    | _ => rfl
  rw [Replayed.writes, List.filterMap_congr hlabel, scopeOperations, List.map_filterMap]

theorem foldl_scopeOperation (operations : List ScopeOperation) :
    (operations.map (·.status)).foldl (fun _ status => some status) none = some .active ↔
      operations.getLast? = some .enable := by
  induction operations using List.reverseRecOn with
  | nil => simp
  | append_singleton operations operation =>
    rw [List.map_append, List.map_singleton, List.foldl_concat, List.getLast?_concat]
    cases operation <;> simp [ScopeOperation.status]

theorem active_iff_enable (h : (daemon crates).Reaches (World.start now instant files path) ok c)
    {scope : ObservationScope} (hscope : scope ∈ c.world.db.observationScopes) :
    scope.status = .active ↔ (scopeOperations scope.id c.log).getLast? = some .enable := by
  have hfound : c.world.db.observationScopes.find? (·.id == scope.id) = some scope :=
    (reaches_keys h rfl).scopeIds.find?_eq_some.mpr ⟨hscope, rfl⟩
  have hreplay : scopeStatus scope.id c.world.db =
      ((scopeReplay crates scope.id).writes c.log).foldl (fun _ status => some status) none :=
    h.replay (scopeReplay crates scope.id)
  rw [scopeWrites_eq h, scopeStatus, hfound, Option.map_some] at hreplay
  rw [← foldl_scopeOperation, ← hreplay, Option.some_inj]

theorem HasPage.pageSettled (h : (daemon crates).Reaches (World.start now instant files path) ok c)
    {resourceId scopeId : Uuid} (hpage : c.world.db.HasPage canonical resourceId scopeId) :
    PageSettled canonical resourceId scopeId c.log c.world.db := by
  have hcat := (Registration.reaches_catalogued h).1
  obtain ⟨⟨row, hrow, hid, hlocator⟩, scope, hscope, hscopeId, hkey⟩ := hpage
  refine ⟨⟨row, hid, hlocator, hcat.locators.filter_eq hrow hlocator⟩, scope, hscopeId, hkey, ?_, ?_⟩
  · exact hcat.keys.scopes.filter_eq hscope hkey
  · rw [← hscopeId]
    exact active_iff_enable h hscope

/-! ## Every enabling comes to its end -/

theorem createOrFind_within (id : Uuid) (candidate : Resource) (conflict : String) :
    (createOrFind id candidate conflict).Within 2 := by
  unfold createOrFind
  refine .perform_bind fun r => ?_
  split
  · trivial
  · refine .perform_bind fun r => ?_
    split
    · split <;> trivial
    · trivial
  · trivial

theorem browserObservationEnableResponse_within (id : Uuid) (label url : String) :
    (browserObservationEnableResponse crates id label url).Within 6 := by
  unfold browserObservationEnableResponse
  split
  · trivial
  refine .perform_bind fun now => .perform_bind fun resourceId => ?_
  dsimp only
  split
  · trivial
  refine Within.bind (m := 2) (n := 2) (createOrFind_within _ _ _) fun result => ?_
  split
  · trivial
  refine .perform_bind fun scopeId => .perform_bind fun r => ?_
  split
  · trivial
  · split <;> trivial

def Unhindered : Op → Prop
  | .nowUtc | .newUuid | .storage _ => True
  | _ => False

theorem browserObservationEnableResponse_unhindered (id : Uuid) (label url : String) :
    (browserObservationEnableResponse crates id label url).Issues Unhindered := by
  unfold browserObservationEnableResponse createOrFind
  split
  · trivial
  refine .perform_bind trivial fun now => .perform_bind trivial fun resourceId => ?_
  dsimp only
  split
  · trivial
  refine Meets.bind (R := fun _ => True) ?_ fun result _ => ?_
  · refine .perform_bind trivial fun r => ?_
    split
    · trivial
    · refine .perform_bind trivial fun r => ?_
      split
      · split <;> trivial
      · trivial
    · trivial
  split
  · trivial
  refine .perform_bind trivial fun scopeId => .perform_bind trivial fun r => ?_
  split
  · trivial
  · split <;> trivial

theorem Unhindered.act {o : Op} (ho : Unhindered o) (i : Nat) (w : World) :
    ∃ ch r w', World.act crates i o ch w = some (r, w') := by
  obtain ⟨fresh, hfresh⟩ := Infinite.exists_notMem_finset (w.issued.map (·.1)).toFinset
  rw [List.mem_toFinset] at hfresh
  let ch : Choice := ⟨fresh, none, .timeout⟩
  refine ⟨ch, ?_⟩
  cases o with
  | storage operation =>
    exact ⟨_, _, rfl⟩
  | nowUtc => exact ⟨_, _, rfl⟩
  | newUuid => exact ⟨fresh, w.drew i fresh, if_neg hfresh⟩
  | _ => exact nomatch ho

/-- An enabling that is served takes at most six operations, and is always free to take the next. -/
def Prompt (crates : Crates) (c : State) : Prop :=
  ∀ i t request label url, c.threads i = some t → t.request = .request request →
    request.body = .browserObservationEnable label url →
    t.trace.length ≤ 6 ∧ ((∃ reply, t.rest = .ret reply) ∨ ∃ ch c', (daemon crates).Step c (.call i ch) c')

theorem reaches_prompt (h : (daemon crates).Reaches (World.start now instant files path) ok c) : Prompt crates c := by
  intro i t request label url ht hrequest hbody
  have hleads : Leads (handleFrame crates t.request) t.trace t.rest := (h.traced ht).leads
  rw [hrequest] at hleads
  constructor
  · have hwithin : (handleFrame crates (.request request)).Within 6 := by
      refine Within.bind (m := 6) (n := 0) ?_ fun response => trivial
      unfold processRequest
      split
      · trivial
      · rw [hbody]
        exact browserObservationEnableResponse_within _ _ _
    exact hwithin.leads hleads
  · cases hrest : t.rest with
    | ret reply => exact .inl ⟨reply, rfl⟩
    | call o k =>
      right
      rw [hrest] at hleads
      obtain ⟨k', hbodyLeads⟩ := leads_request hleads
      rw [hbody] at hbodyLeads
      have hfree : Unhindered o := ((browserObservationEnableResponse_unhindered _ _ _).leads hbodyLeads).1
      obtain ⟨ch, r, w, hact⟩ : ∃ ch r w, World.act crates i o ch c.world = some (r, w) := hfree.act i c.world
      exact ⟨ch, _, .call ht hrest hact⟩

/-! ## Stability -/

/-- However the enablings of a page, the pauses and the registrations of paths are mixed. -/
structure StablyEnabled (crates : Crates) (canonical : String) (c : State) : Prop where
  /-- Whatever the storage did not fail is answered with one resource and one scope, which are there. -/
  identity : ∃ resourceId scopeId, ∀ i request label url τ response, Enables crates request label url canonical →
    AnsweredIn c.log i request τ response → ¬ Registration.Faulted τ →
    (∃ resource scope pattern,
      response = .ok request.requestId
        (.browserObservationEnabled resource scope (canonicalWebUrlHash crates canonical) pattern) ∧
      EnablesPage crates canonical resource scope pattern c.world.db ∧ resource.id = resourceId ∧ scope.id = scopeId) ∧
    PageSettled canonical resourceId scopeId c.log c.world.db
  confined : ∀ i ch c' t request, (daemon crates).Step c (.call i ch) c' → c.threads i = some t →
    t.request = .request request → Confined crates request.body c.world.db c'.world.db
  prompt : Prompt crates c

theorem enabling_stable (hp : crates.ParsesWeb)
    (h : (daemon crates).Reaches (World.start now instant files path) Anywhere c) (canonical : String) :
    StablyEnabled crates canonical c := by
  refine ⟨?_, fun i ch c' t request hs ht hrequest => reaches_confined h hs ht hrequest, reaches_prompt h⟩
  -- the ids are those of the page that is stored, if it is
  by_cases hstored : ∃ resourceId scopeId, c.world.db.HasPage canonical resourceId scopeId
  · obtain ⟨resourceId, scopeId, hpage⟩ := hstored
    refine ⟨resourceId, scopeId, fun i request label url τ response he ha hτ => ⟨?_, HasPage.pageSettled h hpage⟩⟩
    have hanswers := (concludes_of_answered h ha label url canonical hp he).resolve_left hτ
    obtain ⟨resource, scope, pattern, hresponse, henables⟩ := hanswers
    obtain ⟨hresource, hscope⟩ := HasPage.unique h henables.stored hpage
    exact ⟨resource, scope, pattern, hresponse, henables, hresource, hscope⟩
  · refine ⟨0, 0, fun i request label url τ response he ha hτ => ?_⟩
    have hanswers := (concludes_of_answered h ha label url canonical hp he).resolve_left hτ
    obtain ⟨resource, scope, pattern, -, henables⟩ := hanswers
    exact absurd ⟨_, _, henables.stored⟩ hstored

end Runs

namespace Sample

def home : String := "http://a.b/"

def homeUrl : Url := ⟨"http", "", none, some "a.b", none, "/", none, none⟩

def homeCrates : Crates :=
  { crates with
    parseUrl := fun input =>
      if input = home then some homeUrl else if input = home ++ "?q" then some { homeUrl with query := some "q" } else none
    urlToString := fun url => url.scheme ++ "://" ++ url.host.getD "" ++ url.path }

theorem homeCrates_parsesWeb : homeCrates.ParsesWeb := by
  have hparsed {input : String} {url : Url} (h : homeCrates.parseUrl input = some url) :
      (input = home ∨ input = home ++ "?q") ∧ url.page = homeUrl ∧ url.password = none ∧ url.host = some "a.b" := by
    unfold homeCrates at h
    dsimp only at h
    split_ifs at h with hhome hsearch
    · exact Option.some.inj h ▸ ⟨.inl hhome, rfl, rfl, rfl⟩
    · exact Option.some.inj h ▸ ⟨.inr hsearch, rfl, rfl, rfl⟩
  refine ⟨?_, ?_, ?_, ?_, ?_⟩
  · intro input h
    cases hparse : homeCrates.parseUrl input with
    | none => rfl
    | some url =>
      rcases (hparsed hparse).1 with rfl | rfl <;> exact absurd h (by decide)
  · intro input url h
    rw [(hparsed h).2.2.1]
    exact (nomatch ·)
  · intro input url h _
    rw [(hparsed h).2.2.2]
    rfl
  · intro input url h _
    rw [(hparsed h).2.1]
    exact List.all_iff_forall_prop.mp (by decide)
  · intro input url h _ _
    rw [(hparsed h).2.1]
    decide

/-- Two connections enable the page at once and a third pauses it: the second connection has registered the page
when the first one tries to, and finds the scope that the first one has inserted. -/
def enablings : Schedule :=
  connected 0 ++ connected 1 ++ connected 2 ++
    request 0 (.browserObservationEnable "a.b" home) [0, 10] ++
    request 1 (.browserObservationEnable "A B" (home ++ "?q")) [0, 20, 0] ++
    calls 0 [0, 0, 11, 0] ++ .answer 0 :: served 2 (.observationPause 11) [0] ++ calls 1 [21, 0] ++ [.answer 1]

end Sample

theorem enabling_stable_contended : ∃ c, (daemon Sample.homeCrates).Reaches Sample.world Anywhere c ∧
    c.world.db.resources.map (·.id) = [20] ∧
    c.world.db.observationScopes.map (fun scope => (scope.id, scope.status)) = [(11, .active)] ∧
    StablyEnabled Sample.homeCrates Sample.home c := by
  have hrun : ((daemon Sample.homeCrates).exec (.init Sample.world) Sample.enablings).map (fun c =>
      (c.world.db.resources.map (·.id), c.world.db.observationScopes.map fun scope => (scope.id, scope.status))) =
        some ([20], [(11, .active)]) := by decide +kernel
  obtain ⟨c, hc, heq⟩ := Option.map_eq_some_iff.mp hrun
  have hreach : (daemon Sample.homeCrates).Reaches Sample.world Anywhere c := System.Reaches.init.exec hc
  obtain ⟨hresources, hscopes⟩ := Prod.mk.inj heq
  exact ⟨c, hreach, hresources, hscopes, enabling_stable Sample.homeCrates_parsesWeb hreach Sample.home⟩

end Fubun

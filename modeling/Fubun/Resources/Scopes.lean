import Fubun.Concurrency.Tracking
import Fubun.Resources.Interleaving

/-! What an observation scope observes. Its resource is stored, and of the kind that its source reports on. -/

namespace Fubun
open Relational Concurrency Program System

def ObservationSource.resourceKind : ObservationSource → ResourceKind
  | .browserChromium => .webPage
  | .vscodeWorkspace => .directory

/-- The storage has answered with a resource of the kind and with the id, as a new one or in a list. -/
def Presented (kind : ResourceKind) (resourceId : Uuid) (τ : List (Answered Op.Res)) : Prop :=
  (∃ candidate resource : Resource, (⟨.storage (.createResource candidate), .ok resource⟩ : Answered Op.Res) ∈ τ ∧
    candidate.kind = kind ∧ resource.id = resourceId) ∨
  ∃ (resources : List Resource) (resource : Resource), (⟨.storage .listResources, .ok resources⟩ : Answered Op.Res) ∈ τ ∧
    resource ∈ resources ∧ resource.kind = kind ∧ resource.id = resourceId

/-- A scope is asked for only when its resource has been offered. -/
def AsksPresented (τ : List (Answered Op.Res)) (o : Op) : Prop :=
  ∀ scope, o = .storage (.ensureObservationScope scope) → Presented scope.source.resourceKind scope.resourceId τ

abbrev Presenting {α : Type} (p : Core α) : Prop := Follows AsksPresented (fun _ => True) p fun _ _ => True

/-! ## Handlers -/

section Handlers
variable {crates : Crates} {id : Uuid} {α : Type}

theorem Presented.snoc {kind : ResourceKind} {resourceId : Uuid} {τ : List (Answered Op.Res)} (h : Presented kind resourceId τ)
    (x : Answered Op.Res) : Presented kind resourceId (τ ++ [x]) := by
  rcases h with ⟨candidate, resource, hx, h⟩ | ⟨resources, resource, hx, h⟩
  · exact .inl ⟨candidate, resource, List.mem_append_left _ hx, h⟩
  · exact .inr ⟨resources, resource, List.mem_append_left _ hx, h⟩

theorem asks {A : List (Answered Op.Res) → Prop} {Q : List (Answered Op.Res) → α → Prop} {o : Op} {f : o.Res → Core α}
    (ho : ∀ scope, o ≠ .storage (.ensureObservationScope scope)) (hA : ∀ τ x, A τ → A (τ ++ [x]))
    (hf : ∀ r, Follows AsksPresented A (f r) Q) : Follows AsksPresented A (perform o >>= f) Q :=
  Follows.perform (fun _ _ scope heq => absurd heq (ho scope)) (fun τ _ h => hA τ _ h) hf

theorem Presenting.of_issues {S : Op → Prop} {p : Core α} (h : p.Issues S)
    (hS : ∀ scope, ¬ S (.storage (.ensureObservationScope scope))) : Presenting p := by
  refine (Follows.of_meets h (A := fun _ => True) ?_ fun _ _ _ _ _ => trivial).mono (fun _ h => h) fun _ _ _ => trivial
  rintro τ o ho - scope rfl
  exact absurd ho (hS scope)

def Finds (kind : ResourceKind) (τ : List (Answered Op.Res)) : Except ResponseEnvelope Resource → Prop
  | .ok resource => Presented kind resource.id τ
  | .error _ => True

theorem createOrFind_finds (candidate : Resource) (conflict : String) :
    Follows AsksPresented (fun _ => True) (createOrFind id candidate conflict) (Finds candidate.kind) := by
  unfold createOrFind
  refine Follows.perform (R := fun r τ => (⟨.storage (.createResource candidate), r⟩ : Answered Op.Res) ∈ τ)
    (fun _ _ scope ho => by cases ho) (fun _ _ _ => by simp) fun r => ?_
  split
  · rename_i resource
    exact Follows.ret fun τ hx => .inl ⟨candidate, resource, hx, rfl, rfl⟩
  · refine Follows.perform (R := fun r τ => (⟨.storage .listResources, r⟩ : Answered Op.Res) ∈ τ)
      (fun _ _ scope ho => by cases ho) (fun _ _ _ => by simp) fun r => ?_
    split
    · rename_i resources
      split
      · rename_i resource hfound
        have hsame := List.find?_some hfound
        simp only [Bool.and_eq_true, beq_iff_eq] at hsame
        exact Follows.ret fun τ hx => .inr ⟨resources, resource, hx, List.mem_of_find?_eq_some hfound, hsame.1, rfl⟩
      · exact Follows.ret fun _ _ => trivial
    · exact Follows.ret fun _ _ => trivial
  · exact Follows.ret fun _ _ => trivial

/-- What comes behind a resource that was found: the scope of it, and nothing else that is asked for. -/
theorem ensures_presented {kind : ResourceKind} {resourceId : Uuid} {scope : Uuid → ObservationScope}
    {f : Uuid → (Op.storage (.ensureObservationScope (scope 0))).Res → Core α}
    (hkind : ∀ scopeId, (scope scopeId).source.resourceKind = kind) (hid : ∀ scopeId, (scope scopeId).resourceId = resourceId)
    (hf : ∀ scopeId r, Presenting (f scopeId r)) :
    Follows AsksPresented (Presented kind resourceId)
      (perform .newUuid >>= fun scopeId => perform (.storage (.ensureObservationScope (scope scopeId))) >>= f scopeId)
      fun _ _ => True := by
  refine asks (fun _ ho => by cases ho) (fun _ x h => h.snoc x) fun scopeId => ?_
  refine Follows.perform (R := fun _ _ => True) (fun τ h asked ho => ?_) (fun _ _ _ => trivial) (hf scopeId)
  obtain rfl := Operation.ensureObservationScope.inj (Op.storage.inj ho)
  rw [hkind, hid]
  exact h

theorem browserObservationEnableResponse_presenting (label url : String) :
    Presenting (browserObservationEnableResponse crates id label url) := by
  unfold browserObservationEnableResponse
  split
  · exact Follows.ret fun _ _ => trivial
  refine asks (fun _ ho => by cases ho) (fun _ _ h => h) fun now => asks (fun _ ho => by cases ho) (fun _ _ h => h) fun resourceId => ?_
  dsimp only
  split
  · exact Follows.ret fun _ _ => trivial
  refine (createOrFind_finds _ _).bind fun r => ?_
  split
  · exact Follows.ret fun _ _ => trivial
  refine ensures_presented (fun _ => rfl) (fun _ => rfl) fun scopeId r => ?_
  split
  · exact Follows.ret fun _ _ => trivial
  split <;> exact Follows.ret fun _ _ => trivial

theorem vscodeObservationEnableResponse_presenting (label path : String) :
    Presenting (vscodeObservationEnableResponse crates id label path) := by
  unfold vscodeObservationEnableResponse
  split
  · exact Follows.ret fun _ _ => trivial
  refine asks (fun _ ho => by cases ho) (fun _ _ h => h) fun canonical => ?_
  split
  · exact Follows.ret fun _ _ => trivial
  refine asks (fun _ ho => by cases ho) (fun _ _ h => h) fun metadata => ?_
  split
  · exact Follows.ret fun _ _ => trivial
  refine asks (fun _ ho => by cases ho) (fun _ _ h => h) fun now => asks (fun _ ho => by cases ho) (fun _ _ h => h) fun resourceId => ?_
  dsimp only
  split
  · exact Follows.ret fun _ _ => trivial
  refine (createOrFind_finds _ _).bind fun r => ?_
  split
  · exact Follows.ret fun _ _ => trivial
  refine ensures_presented (fun _ => rfl) (fun _ => rfl) fun scopeId r => ?_
  split <;> exact Follows.ret fun _ _ => trivial

theorem observationPauseResponse_presenting (scopeId : Uuid) : Presenting (observationPauseResponse id scopeId) := by
  unfold observationPauseResponse
  refine asks (fun _ ho => by cases ho) (fun _ _ h => h) fun r => ?_
  split <;> exact Follows.ret fun _ _ => trivial

theorem processBody_presenting (crates : Crates) (id : Uuid) (body : RequestBody) : Presenting (processBody crates id body) := by
  by_cases hscopes : .table .observationScopes ∈ body.targets
  · cases body with
    | browserObservationEnable label url => exact browserObservationEnableResponse_presenting label url
    | vscodeObservationEnable label path => exact vscodeObservationEnableResponse_presenting label path
    | observationPause scopeId => exact observationPauseResponse_presenting scopeId
    | _ => simp [RequestBody.targets, executionTargets] at hscopes
  · exact Presenting.of_issues (processBody_actsOn crates id body) fun scope hs =>
      hscopes (hs (by simp [Op.targets, Operation.writes]))

theorem handleFrame_presenting (frame : Frame) : Presenting (handleFrame crates frame) := by
  by_cases hscopes : .table .observationScopes ∈ frame.targets
  · cases frame with
    | request request =>
      show Presenting (processRequest crates request >>= fun r => .ret (Reply.response r))
      refine Follows.bind (Q := fun _ _ => True) ?_ fun _ => Follows.ret fun _ _ => trivial
      unfold processRequest
      split
      · exact Follows.ret fun _ _ => trivial
      · exact processBody_presenting _ _ _
    | _ => simp [Frame.targets] at hscopes
  · exact Presenting.of_issues (handleFrame_actsOn crates frame) fun scope hs =>
      hscopes (hs (by simp [Op.targets, Operation.writes]))

end Handlers

/-! ## The table -/

def Database.Holds (kind : ResourceKind) (resourceId : Uuid) (db : Database) : Prop :=
  ∃ resource ∈ db.resources, resource.id = resourceId ∧ resource.kind = kind

def Database.Scoped (db : Database) : Prop :=
  ∀ x ∈ db.observationScopes.map fun scope => (scope.source, scope.resourceId), db.Holds x.1.resourceKind x.2

section Table
variable {crates : Crates} {now : OffsetDateTime} {db db' : Database}

theorem Database.Holds.mono {kind : ResourceKind} {resourceId : Uuid} (h : db.Holds kind resourceId) (hg : Grows db db') :
    db'.Holds kind resourceId := by
  obtain ⟨resource, hresource, hsame⟩ := h
  exact ⟨resource, hg.resources resource hresource, hsame⟩

theorem Database.Scoped.kept (h : db.Scoped) (hg : Grows db db')
    (hscopes : db'.observationScopes.map (fun scope => (scope.source, scope.resourceId)) =
      db.observationScopes.map fun scope => (scope.source, scope.resourceId)) : db'.Scoped := by
  intro x hx
  rw [hscopes] at hx
  exact (h x hx).mono hg

theorem Effect.scoped {o : Operation} {r : Except StorageError o.Reply} (he : Effect crates now db db' o r)
    (hpresented : ∀ scope, o = .ensureObservationScope scope → db.Holds scope.source.resourceKind scope.resourceId)
    (h : db.Scoped) : db'.Scoped := by
  have hgrows := he.grows
  cases o with
  | ensureObservationScope scope =>
    cases r with
    | error _ => exact h.kept hgrows (by rw [show db' = db from he])
    | ok reply =>
      -- a scope that is there gets its status, a new one has been asked for with a stored resource
      rcases he with ⟨existing, -, -, rfl⟩ | ⟨-, -, hinserted⟩
      · exact h.kept hgrows (map_updateRows fun _ => rfl)
      · obtain ⟨-, -, rfl⟩ := insertScope_ok hinserted
        intro x hx
        rw [List.map_append, List.map_singleton] at hx
        rcases List.mem_append.mp hx with hold | hnew
        · exact (h x hold).mono hgrows
        · obtain rfl := List.mem_singleton.mp hnew
          exact (hpresented scope rfl).mono hgrows
  | pauseObservationScope scopeId =>
    cases r with
    | error _ => exact h.kept hgrows (by rw [show db' = db from he])
    | ok reply =>
      obtain ⟨scope, -, ⟨-, -, rfl⟩ | ⟨-, -, rfl⟩⟩ := he
      · exact h.kept hgrows (map_updateRows fun _ => rfl)
      · exact h
  | _ =>
    have hsame : TableName.observationScopes.Same db db' := he.frame (by simp [Operation.writes])
    exact h.kept hgrows (congrArg (List.map _) hsame)

end Table

/-! ## Runs -/

/-- What the storage has answered about resources stays stored. -/
def HoldsPresented (o : Op) (r : o.Res) (w : World) : Prop :=
  ∀ kind resourceId, Presented kind resourceId [⟨o, r⟩] → w.db.Holds kind resourceId

section Runs
variable {crates : Crates} {now : Int} {instant : Nat} {files : Files} {path : String} {c : State}
  {ok : State → Concurrency.Event Nat Frame Choice Drift → Prop} {i : Nat}

theorem holdsPresented_learned {o : Op} {ch : Choice} {w w' : World} {r : o.Res}
    (h : World.act crates i o ch w = some (r, w')) : HoldsPresented o r w' := by
  rintro kind resourceId (⟨candidate, resource, hx, hkind, hid⟩ | ⟨resources, resource, hx, hmem, hkind, hid⟩)
  · cases List.mem_singleton.mp hx
    obtain ⟨rfl, -, hdb⟩ := createResource_ok.mp (act_storage h).1
    rw [hdb]
    exact ⟨_, List.mem_append_right _ List.mem_cons_self, hid, hkind⟩
  · cases List.mem_singleton.mp hx
    obtain ⟨rfl, hdb⟩ := (act_storage h).1
    rw [hdb]
    exact ⟨resource, mem_orderBy.mp hmem, hid, hkind⟩

def offers (crates : Crates) : (daemon crates).Persistent where
  holds := HoldsPresented
  learned h := holdsPresented_learned h
  act h hact kind resourceId ho := by
    rcases act_effect hact with ⟨_, _, -, he⟩ | hdb
    · exact (h kind resourceId ho).mono he.grows
    · exact hdb ▸ h kind resourceId ho
  drift e h kind resourceId ho := (drift_db e).symm ▸ h kind resourceId ho
  restart ch h kind resourceId ho := by
    obtain ⟨_, he, -⟩ := restart_effect crates ch _
    exact (h kind resourceId ho).mono he.grows

theorem presented_holds (h : (daemon crates).Reaches (World.start now instant files path) ok c)
    {t : Thread Op Op.Res Frame Reply} (ht : c.threads i = some t) {kind : ResourceKind} {resourceId : Uuid}
    (ho : Presented kind resourceId t.trace) : c.world.db.Holds kind resourceId := by
  rcases ho with ⟨candidate, resource, hx, hsame⟩ | ⟨resources, resource, hx, hsame⟩
  · exact h.persistent (offers crates) (h.mem_log ht hx) kind resourceId (.inl ⟨candidate, resource, List.mem_cons_self, hsame⟩)
  · exact h.persistent (offers crates) (h.mem_log ht hx) kind resourceId (.inr ⟨resources, resource, List.mem_cons_self, hsame⟩)

theorem reaches_scoped (h : (daemon crates).Reaches (World.start now instant files path) ok c) : c.world.db.Scoped := by
  refine h.invariant_called (I := fun w => w.db.Scoped) (fun _ hx => absurd hx List.not_mem_nil) ?_ ?_ ?_
  · intro c i t o k ch r w' hc ht hrest hact hscoped
    have hasks : t.rest.Along AsksPresented (fun _ _ => True) t.trace :=
      hc.along (fun frame => handleFrame_presenting frame [] trivial) ht
    rw [hrest] at hasks
    rcases act_effect hact with ⟨operation, reply, hx, he⟩ | hsame
    · cases hx
      refine he.scoped (fun scope ho => presented_holds hc ht (hasks.1 scope ?_)) hscoped
      rw [ho]
    · exact hsame ▸ hscoped
  · intro e w hscoped
    exact (drift_db e).symm ▸ hscoped
  · intro ch w hscoped
    obtain ⟨reply, he, -⟩ := restart_effect crates ch w
    exact he.scoped (fun _ ho => by cases ho) hscoped

/-- Every scope observes one stored resource, of the kind of its source, and no other scope of that source does. -/
theorem scope_observes (h : (daemon crates).Reaches (World.start now instant files path) ok c) {scope : ObservationScope}
    (hscope : scope ∈ c.world.db.observationScopes) :
    (∃! resource, resource ∈ c.world.db.resources ∧ resource.id = scope.resourceId) ∧
      (∀ resource ∈ c.world.db.resources, resource.id = scope.resourceId → resource.kind = scope.source.resourceKind) ∧
      ∀ other ∈ c.world.db.observationScopes, other.source = scope.source → other.resourceId = scope.resourceId → other = scope := by
  have hids := (Registration.reaches_catalogued h).1.resourceIds
  obtain ⟨resource, hresource, hid, hkind⟩ := reaches_scoped h _ (List.mem_map_of_mem hscope)
  refine ⟨⟨resource, ⟨hresource, hid⟩, ?_⟩, fun other hother hsame => ?_, fun other hother hsource hsame => ?_⟩
  · rintro other ⟨hother, hsame⟩
    exact hids.eq hother hresource (hsame.trans hid.symm)
  · rw [hids.eq hother hresource (hsame.trans hid.symm)]
    exact hkind
  · exact (reaches_keys h rfl).scopes.eq hother hscope (Prod.ext hsource hsame)

end Runs

theorem scope_observes_enabled : ∃ (c : State) (scope : ObservationScope), (daemon Sample.homeCrates).Reaches Sample.world Anywhere c ∧
    scope ∈ c.world.db.observationScopes ∧ scope.id = 11 ∧
      ∃! resource, resource ∈ c.world.db.resources ∧ resource.id = scope.resourceId := by
  have hrun : ((daemon Sample.homeCrates).exec (.init Sample.world) (Sample.connected 0 ++
      Sample.request 0 (.browserObservationEnable "a.b" Sample.home) [0, 10, 0, 11, 0])).map
        (fun c => c.world.db.observationScopes.map (·.id)) = some [11] := by decide +kernel
  obtain ⟨c, hc, hscopes⟩ := Option.map_eq_some_iff.mp hrun
  have heleven : 11 ∈ c.world.db.observationScopes.map (·.id) := hscopes ▸ List.mem_cons_self
  obtain ⟨scope, hscope, hid⟩ := List.mem_map.mp heleven
  have hreach : (daemon Sample.homeCrates).Reaches Sample.world Anywhere c := System.Reaches.init.exec hc
  exact ⟨c, scope, hreach, hscope, hid, (scope_observes hreach hscope).1⟩

end Fubun

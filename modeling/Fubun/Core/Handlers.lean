import Fubun.Core.Runs

/-! What each request can change, on every path through its handler. -/

namespace Fubun
open Relational Concurrency Program

/-- What an operation acts on: a table, an adapter that gets an action to execute, or a client that
gets the stored events to see. -/
inductive Target where
  | table (name : TableName)
  | adapter
  | listing
deriving DecidableEq

def Op.targets : Op → List Target
  | .storage (.listEvents ..) => [.listing]
  | .storage operation => operation.writes.map .table
  | .execute .. => [.adapter]
  | _ => []

theorem table_mem_targets {operation : Operation} {name : TableName} :
    .table name ∈ (Op.storage operation).targets ↔ name ∈ operation.writes := by
  cases operation <;> simp [Op.targets, Operation.writes]

/-- Every operation that the program issues acts only on targets of the list. -/
abbrev ActsOn {α : Type} (targets : List Target) (p : Core α) : Prop :=
  p.Issues fun o => o.targets ⊆ targets

theorem ActsOn.mono {α : Type} {targets targets' : List Target} {p : Core α}
    (h : ActsOn targets p) (ht : targets ⊆ targets') : ActsOn targets' p :=
  Meets.mono h (fun _ ho => List.Subset.trans ho ht) fun _ _ => trivial

section
variable {crates : Crates} {id : Uuid}

/-! ## Events and observation -/

theorem storageInsertEvent_actsOn (event : Event) :
    ActsOn [.table .adapters, .table .events] (storageInsertEvent event) := by
  unfold storageInsertEvent
  split
  · trivial
  · exact ⟨List.Subset.refl _, fun _ => trivial⟩

theorem ingestResponse_actsOn (event : Event) :
    ActsOn [.table .adapters, .table .events] (ingestResponse id event) := by
  unfold ingestResponse
  split
  · trivial
  · refine .perform_bind (List.nil_subset _) fun now => ?_
    dsimp only
    split
    · trivial
    · refine (storageInsertEvent_actsOn _).bind fun r _ => ?_
      split <;> trivial

theorem ingestAdapterEvent_actsOn (hello : AdapterHello) (payload : AdapterEventEmitRequest) :
    ActsOn [.table .adapters, .table .events] (ingestAdapterEvent hello payload) := by
  unfold ingestAdapterEvent
  refine .perform_bind (List.nil_subset _) fun eventId => ?_
  split
  · trivial
  split
  · trivial
  refine .perform_bind (List.nil_subset _) fun resource => ?_
  split
  · trivial
  split
  · trivial
  refine .perform_bind (List.nil_subset _) fun scopes => ?_
  split
  · trivial
  split
  · trivial
  refine .perform_bind (List.nil_subset _) fun receivedAt => ?_
  split
  · trivial
  · refine (storageInsertEvent_actsOn _).bind fun r _ => ?_
    split <;> trivial

theorem resourceCreateResponse_actsOn (label path : String) (sensitivity : Sensitivity) :
    ActsOn [.table .resources] (resourceCreateResponse crates id label path sensitivity) := by
  unfold resourceCreateResponse
  split
  · trivial
  refine .perform_bind (List.nil_subset _) fun metadata => ?_
  split
  · trivial
  refine .perform_bind (List.nil_subset _) fun canonical => ?_
  split
  · trivial
  dsimp only
  split
  · trivial
  refine .perform_bind (List.nil_subset _) fun now => .perform_bind (List.nil_subset _) fun resourceId => ?_
  split
  · trivial
  refine .perform_bind (List.Subset.refl _) fun r => ?_
  split <;> trivial

theorem createOrFind_actsOn (candidate : Resource) (conflict : String) :
    ActsOn [.table .resources] (createOrFind id candidate conflict) := by
  unfold createOrFind
  refine .perform_bind (List.Subset.refl _) fun r => ?_
  split
  · trivial
  · refine .perform_bind (List.nil_subset _) fun resources => ?_
    split
    · split <;> trivial
    · trivial
  · trivial

theorem browserObservationEnableResponse_actsOn (label url : String) :
    ActsOn [.table .resources, .table .observationScopes]
      (browserObservationEnableResponse crates id label url) := by
  unfold browserObservationEnableResponse
  split
  · trivial
  refine .perform_bind (List.nil_subset _) fun now => .perform_bind (List.nil_subset _) fun resourceId => ?_
  dsimp only
  split
  · trivial
  refine ((createOrFind_actsOn _ _).mono (by simp)).bind fun r _ => ?_
  split
  · trivial
  refine .perform_bind (List.nil_subset _) fun scopeId => .perform_bind (by simp [Op.targets, Operation.writes]) fun scope => ?_
  split
  · trivial
  · split <;> trivial

theorem vscodeObservationEnableResponse_actsOn (label path : String) :
    ActsOn [.table .resources, .table .observationScopes]
      (vscodeObservationEnableResponse crates id label path) := by
  unfold vscodeObservationEnableResponse
  split
  · trivial
  refine .perform_bind (List.nil_subset _) fun canonical => ?_
  split
  · trivial
  refine .perform_bind (List.nil_subset _) fun metadata => ?_
  split
  · trivial
  refine .perform_bind (List.nil_subset _) fun now => .perform_bind (List.nil_subset _) fun resourceId => ?_
  dsimp only
  split
  · trivial
  refine ((createOrFind_actsOn _ _).mono (by simp)).bind fun r _ => ?_
  split
  · trivial
  refine .perform_bind (List.nil_subset _) fun scopeId => .perform_bind (by simp [Op.targets, Operation.writes]) fun scope => ?_
  split <;> trivial

theorem observationPauseResponse_actsOn (scopeId : Uuid) :
    ActsOn [.table .observationScopes] (observationPauseResponse id scopeId) := by
  unfold observationPauseResponse
  refine .perform_bind (List.Subset.refl _) fun r => ?_
  split <;> trivial

/-! ## Rituals -/

theorem ritualCreateResponse_actsOn (definition : RitualDefinition) :
    ActsOn [.table .rituals, .table .ritualVersions] (ritualCreateResponse crates id definition) := by
  unfold ritualCreateResponse
  split
  · trivial
  split
  · trivial
  refine .perform_bind (List.nil_subset _) fun now => .perform_bind (List.nil_subset _) fun ritualId =>
    .perform_bind (List.nil_subset _) fun versionId => .perform_bind (List.Subset.refl _) fun r => ?_
  split <;> trivial

theorem ritualUpdateResponse_actsOn (ritualId : Uuid) (definition : RitualDefinition) :
    ActsOn [.table .rituals, .table .ritualVersions] (ritualUpdateResponse crates id ritualId definition) := by
  unfold ritualUpdateResponse
  split
  · trivial
  split
  · trivial
  refine .perform_bind (List.nil_subset _) fun r => ?_
  split
  · trivial
  · trivial
  refine .perform_bind (List.nil_subset _) fun now => .perform_bind (List.nil_subset _) fun versionId =>
    .perform_bind (List.Subset.refl _) fun r => ?_
  split <;> trivial

theorem ritualShowResponse_actsOn (ritualId : Uuid) : ActsOn [] (ritualShowResponse id ritualId) := by
  unfold ritualShowResponse
  refine .perform_bind (List.nil_subset _) fun r => ?_
  split <;> trivial

theorem pathExists_actsOn (path : String) : ActsOn [] (pathExists path) :=
  .perform_bind (List.nil_subset _) fun _ => trivial

theorem canonicalPathMatches_actsOn (resource : Resource) :
    ActsOn [] (canonicalPathMatches resource) :=
  .perform_bind (List.nil_subset _) fun _ => trivial

theorem pathKindMatches_actsOn (resource : Resource) : ActsOn [] (pathKindMatches resource) := by
  unfold pathKindMatches
  refine .perform_bind (List.nil_subset _) fun r => ?_
  split <;> trivial

theorem ifExists_actsOn (path : String) {check : Core Bool} (h : ActsOn [] check) :
    ActsOn [] (ifExists path check) := by
  refine (pathExists_actsOn _).bind fun found _ => ?_
  split
  · exact h
  · trivial

theorem inspectPath_actsOn (resource : Resource) : ActsOn [] (inspectPath resource) := by
  refine (pathExists_actsOn _).bind fun found _ => ?_
  refine (ifExists_actsOn _ (canonicalPathMatches_actsOn resource)).bind fun pathMatches _ => ?_
  exact (ifExists_actsOn _ (pathKindMatches_actsOn resource)).bind fun _ _ => trivial

theorem inspectWebPage_actsOn (resourceId : Uuid) (resource : Resource) :
    ActsOn [] (inspectWebPage crates resourceId resource) := by
  unfold inspectWebPage
  refine .perform_bind (List.nil_subset _) fun r => ?_
  split <;> trivial

theorem inspectAction_actsOn (eligible : Bool) (action : ActionSpec) :
    ActsOn [] (inspectAction crates eligible action) := by
  unfold inspectAction
  split
  · refine .perform_bind (List.nil_subset _) fun r => ?_
    split
    · exact (inspectPath_actsOn _).bind fun _ _ => trivial
    · trivial
  · trivial
  · trivial
  · refine .perform_bind (List.nil_subset _) fun r => ?_
    split
    · exact inspectWebPage_actsOn _ _
    · trivial

theorem previewAction_actsOn (index : Nat) (action : ActionSpec) :
    ActsOn [] (previewAction crates index action) := by
  unfold previewAction
  refine .perform_bind (List.nil_subset _) fun found => (inspectAction_actsOn _ _).bind fun r _ => ?_
  split <;> trivial

theorem previewActions_actsOn (index : Nat) (actions : List ActionSpec) :
    ActsOn [] (previewActions crates index actions) := by
  induction actions generalizing index with
  | nil => trivial
  | cons action actions ih =>
    refine (previewAction_actsOn _ _).bind fun r _ => ?_
    split
    · trivial
    · refine (ih _).bind fun r _ => ?_
      split <;> trivial

theorem buildPreview_actsOn (ritual : Ritual) (version : RitualVersion) (definition : RitualDefinition) :
    ActsOn [] (buildPreview crates ritual version definition) := by
  refine (previewActions_actsOn _ _).bind fun r _ => ?_
  split <;> trivial

theorem ritualPreviewResponse_actsOn (ritualId : Uuid) :
    ActsOn [] (ritualPreviewResponse crates id ritualId) := by
  unfold ritualPreviewResponse
  refine .perform_bind (List.nil_subset _) fun r => ?_
  split
  · trivial
  · trivial
  · refine (buildPreview_actsOn _ _ _).bind fun r _ => ?_
    split <;> trivial

theorem newApprovals_actsOn (version : RitualVersion) (now : OffsetDateTime) (actions : List ActionSpec) :
    ActsOn [] (newApprovals version now actions) := by
  induction actions with
  | nil => trivial
  | cons action actions ih =>
    exact .perform_bind (List.nil_subset _) fun id => ih.bind fun _ _ => trivial

theorem ritualActivateResponse_actsOn (ritualId : Uuid) (approve : Bool) :
    ActsOn [.table .rituals, .table .ritualApprovals] (ritualActivateResponse crates id ritualId approve) := by
  unfold ritualActivateResponse
  split
  · trivial
  refine .perform_bind (List.nil_subset _) fun r => ?_
  split
  · trivial
  · trivial
  refine ((buildPreview_actsOn _ _ _).mono (List.nil_subset _)).bind fun r _ => ?_
  split
  · trivial
  split
  · trivial
  refine .perform_bind (List.nil_subset _) fun now =>
    ((newApprovals_actsOn _ _ _).mono (List.nil_subset _)).bind fun approvals _ =>
      .perform_bind (by simp [Op.targets, Operation.writes]) fun r => ?_
  split
  · trivial
  refine .perform_bind (by simp [Op.targets, Operation.writes]) fun r => ?_
  split <;> trivial

theorem ritualPauseResponse_actsOn (ritualId : Uuid) :
    ActsOn [.table .rituals] (ritualPauseResponse id ritualId) := by
  unfold ritualPauseResponse
  refine .perform_bind (List.nil_subset _) fun r => ?_
  split
  · trivial
  · trivial
  split
  · trivial
  refine .perform_bind (List.Subset.refl _) fun r => ?_
  split <;> trivial

theorem preflightResource_actsOn (action : ActionSpec) :
    ActsOn [] (preflightResource crates action) := by
  unfold preflightResource
  split
  · refine .perform_bind (List.nil_subset _) fun r => ?_
    split
    · trivial
    refine (pathExists_actsOn _).bind fun found _ => ?_
    split
    · trivial
    refine (canonicalPathMatches_actsOn _).bind fun pathMatches _ => ?_
    split
    · trivial
    refine (pathKindMatches_actsOn _).bind fun kindMatches _ => ?_
    split <;> trivial
  · trivial
  · trivial
  · refine .perform_bind (List.nil_subset _) fun r => ?_
    split
    · trivial
    split
    · trivial
    refine .perform_bind (List.nil_subset _) fun r => ?_
    split
    · trivial
    · split <;> trivial

theorem preflightAction_actsOn (version : RitualVersion) (approvals : List Approval)
    (action : ActionSpec) : ActsOn [] (preflightAction crates version approvals action) := by
  unfold preflightAction
  split
  · trivial
  split
  · trivial
  refine .perform_bind (List.nil_subset _) fun r => ?_
  split
  · trivial
  split
  · trivial
  · exact preflightResource_actsOn action

theorem preflightActions_actsOn (version : RitualVersion) (approvals : List Approval)
    (actions : List ActionSpec) : ActsOn [] (preflightActions crates version approvals actions) := by
  induction actions with
  | nil => trivial
  | cons action actions ih =>
    refine (preflightAction_actsOn _ _ _).bind fun r _ => ?_
    split
    · trivial
    · exact ih

theorem preflight_actsOn (version : RitualVersion) (definition : RitualDefinition) :
    ActsOn [] (preflight crates version definition) := by
  unfold preflight
  refine .perform_bind (List.nil_subset _) fun r => ?_
  split
  · trivial
  · exact preflightActions_actsOn _ _ _

/-! ## Executions -/

def executionTargets : List Target :=
  [.table .executions, .table .executionSteps, .table .ritualExecutionLocks, .adapter]

/-- A property of the operations that the execution of some actions issues. -/
structure HoldsOfRun (P : Op → Prop) (actions : List ActionSpec) : Prop where
  instantNow : P .instantNow
  nowUtc : P .nowUtc
  getResource : ∀ resourceId, P (.storage (.getResource resourceId))
  updateStep : ∀ step, P (.storage (.updateStep step))
  updateExecution : ∀ execution, P (.storage (.updateExecution execution))
  execute : ∀ action ∈ actions, ∀ resolved timeout, P (.execute action resolved timeout)

section Run
variable {P : Op → Prop}

theorem resolveResource_issues {actions : List ActionSpec} (hP : HoldsOfRun P actions)
    (action : ActionSpec) : (resolveResource action).Issues P := by
  unfold resolveResource
  split
  · refine .perform_bind (hP.getResource _) fun r => ?_
    split <;> trivial
  · refine .perform_bind (hP.getResource _) fun r => ?_
    split <;> trivial
  · trivial

theorem recordDispatch_issues (execution : Execution) (successful : Nat) (step : ExecutionStep)
    (deadlineBound : Bool) (finished : OffsetDateTime)
    (actionResult : Except DispatchedActionError DispatchedActionResult)
    (hP : ∀ step, P (.storage (.updateStep step))) :
    (recordDispatch execution successful step deadlineBound finished actionResult).Issues P := by
  unfold recordDispatch
  split
  · refine .perform_bind (hP _) fun r => ?_
    split
    · trivial
    split <;> trivial
  · dsimp only
    split
    · trivial
    refine .perform_bind (hP _) fun r => ?_
    split <;> trivial

theorem executeAction_issues (deadline : Nat) (execution : Execution) (successful : Nat)
    {action : ActionSpec} {actions : List ActionSpec} (step : ExecutionStep) (hP : HoldsOfRun P actions)
    (ha : action ∈ actions) : (executeAction deadline execution successful action step).Issues P := by
  unfold executeAction
  refine .perform_bind hP.instantNow fun instant => ?_
  dsimp only
  split
  · trivial
  refine .perform_bind hP.nowUtc fun started => .perform_bind (hP.updateStep _) fun r => ?_
  split
  · trivial
  refine (resolveResource_issues hP _).bind fun r _ => ?_
  split
  · trivial
  exact .perform_bind (hP.execute action ha _ _) fun _ => .perform_bind hP.nowUtc fun _ =>
    recordDispatch_issues _ _ _ _ _ _ hP.updateStep

theorem executeActions_issues (deadline : Nat) {actions : List ActionSpec} (execution : Execution)
    (successful : Nat) (done steps : List ExecutionStep) (hP : HoldsOfRun P actions) :
    (executeActions deadline execution successful done actions steps).Issues P := by
  induction actions generalizing successful done steps with
  | nil =>
    unfold executeActions
    trivial
  | cons action actions ih =>
    have hrest : HoldsOfRun P actions :=
      { hP with execute := fun a ha => hP.execute a (List.mem_cons_of_mem _ ha) }
    cases steps with
    | nil =>
      unfold executeActions
      trivial
    | cons step steps =>
      unfold executeActions
      refine (executeAction_issues _ _ _ _ hP List.mem_cons_self).bind fun r _ => ?_
      split
      · trivial
      · exact ih _ _ _ hrest
      · trivial

theorem finalizeUnfinishedSteps_issues (hP : ∀ step, P (.storage (.updateStep step)))
    (finishedAt : OffsetDateTime) (code message : String) (steps : List ExecutionStep) :
    (finalizeUnfinishedSteps finishedAt code message steps).Issues P := by
  induction steps with
  | nil => trivial
  | cons step steps ih =>
    unfold finalizeUnfinishedSteps
    split
    · refine .perform_bind (hP _) fun r => ?_
      split
      · trivial
      refine ih.bind fun r _ => ?_
      split <;> trivial
    · refine ih.bind fun r _ => ?_
      split <;> trivial

theorem finishSteps_issues (hP : ∀ step, P (.storage (.updateStep step))) (finishedAt : OffsetDateTime)
    (progress : Progress) : (finishSteps finishedAt progress).Issues P := by
  unfold finishSteps
  split
  · refine (finalizeUnfinishedSteps_issues hP _ _ _ _).bind fun r _ => ?_
    split <;> trivial
  split
  · trivial
  · refine (finalizeUnfinishedSteps_issues hP _ _ _ _).bind fun r _ => ?_
    split <;> trivial

theorem concludeExecution_issues (hP : ∀ execution, P (.storage (.updateExecution execution)))
    (finishedAt : OffsetDateTime) (execution : Execution) (steps : List ExecutionStep) :
    (concludeExecution finishedAt execution steps).Issues P := by
  unfold concludeExecution
  dsimp only
  split
  · trivial
  refine .perform_bind (hP _) fun r => ?_
  split
  · trivial
  · split <;> trivial

theorem executeSteps_issues {definition : RitualDefinition} (hP : HoldsOfRun P definition.actions)
    (execution : Execution) (steps : List ExecutionStep) :
    (executeSteps execution steps definition).Issues P := by
  unfold executeSteps
  refine .perform_bind hP.instantNow fun instant => (executeActions_issues _ _ _ _ _ hP).bind fun r _ => ?_
  split
  · trivial
  refine .perform_bind hP.nowUtc fun finished => (finishSteps_issues hP.updateStep _ _).bind fun r _ => ?_
  split
  · trivial
  · exact concludeExecution_issues hP.updateExecution _ _ _

theorem executeSteps_actsOn (execution : Execution) (steps : List ExecutionStep)
    (definition : RitualDefinition) :
    ActsOn executionTargets (executeSteps execution steps definition) := by
  apply executeSteps_issues
  constructor <;> simp [Op.targets, Operation.writes, executionTargets]

end Run

theorem newSteps_actsOn (executionId : Uuid) (now : OffsetDateTime) (index : Nat)
    (actions : List ActionSpec) : ActsOn [] (newSteps executionId now index actions) := by
  induction actions generalizing index with
  | nil => trivial
  | cons action actions ih =>
    exact .perform_bind (List.nil_subset _) fun id => (ih _).bind fun _ _ => trivial

theorem startAndExecute_actsOn (ritualId : Uuid) (version : RitualVersion) (definition : RitualDefinition) :
    ActsOn executionTargets (startAndExecute id ritualId version definition) := by
  unfold startAndExecute
  refine .perform_bind (List.nil_subset _) fun now => .perform_bind (List.nil_subset _) fun executionId =>
    ((newSteps_actsOn _ _ _ _).mono (List.nil_subset _)).bind fun steps _ =>
      .perform_bind (by simp [Op.targets, Operation.writes, executionTargets]) fun r => ?_
  split
  · trivial
  · trivial
  · refine (executeSteps_actsOn _ _ _).bind fun r _ => ?_
    split <;> trivial

theorem ritualRunResponse_actsOn (ritualId : Uuid) :
    ActsOn executionTargets (ritualRunResponse crates id ritualId) := by
  unfold ritualRunResponse
  refine .perform_bind (List.nil_subset _) fun r => ?_
  split
  · trivial
  · trivial
  split
  · trivial
  refine ((preflight_actsOn _ _).mono (List.nil_subset _)).bind fun r _ => ?_
  split
  · trivial
  · exact startAndExecute_actsOn _ _ _

/-! ## Requests -/

theorem statusResponse_actsOn : ActsOn [] (statusResponse id) := by
  unfold statusResponse
  refine .perform_bind (List.nil_subset _) fun r => ?_
  split <;> trivial

theorem scopesOrNone_actsOn (source : Option ObservationSource) : ActsOn [] (scopesOrNone source) := by
  unfold scopesOrNone
  refine .perform_bind (List.nil_subset _) fun r => ?_
  split <;> trivial

theorem doctorResponse_actsOn : ActsOn [] (doctorResponse id) := by
  unfold doctorResponse
  refine .perform_bind (List.nil_subset _) fun schemaVersion => .perform_bind (List.nil_subset _) fun counts => ?_
  split
  · refine .perform_bind (List.nil_subset _) fun _ => .perform_bind (List.nil_subset _) fun _ =>
      .perform_bind (List.nil_subset _) fun _ => .perform_bind (List.nil_subset _) fun _ =>
      .perform_bind (List.nil_subset _) fun _ => .perform_bind (List.nil_subset _) fun _ =>
      .perform_bind (List.nil_subset _) fun _ => ?_
    exact (scopesOrNone_actsOn _).bind fun _ _ => (scopesOrNone_actsOn _).bind fun _ _ => trivial
  · trivial

theorem integrationsResponse_actsOn : ActsOn [] (integrationsResponse id) := by
  unfold integrationsResponse
  refine .perform_bind (List.nil_subset _) fun reports => (scopesOrNone_actsOn _).bind fun scopes _ => ?_
  exact .perform_bind (List.nil_subset _) fun _ => trivial

theorem readResponse_actsOn {operation : Operation} {targets : List Target}
    (ho : (Op.storage operation).targets ⊆ targets) (payload : operation.Reply → ResponsePayload) :
    ActsOn targets (readResponse operation id payload) := by
  unfold readResponse
  refine .perform_bind ho fun r => ?_
  split <;> trivial

theorem showResponse_actsOn {operation : Operation} {targets : List Target}
    (ho : (Op.storage operation).targets ⊆ targets) (code message : String)
    (payload : operation.Reply → ResponsePayload) :
    ActsOn targets (showResponse operation id code message payload) := by
  unfold showResponse
  refine .perform_bind ho fun r => ?_
  split <;> trivial

end

def RequestBody.targets : RequestBody → List Target
  | .eventIngest _ => [.table .adapters, .table .events]
  | .browserObservationEnable .. | .vscodeObservationEnable .. => [.table .resources, .table .observationScopes]
  | .observationPause _ => [.table .observationScopes]
  | .resourceCreate .. => [.table .resources]
  | .ritualCreate _ | .ritualUpdate .. => [.table .rituals, .table .ritualVersions]
  | .ritualActivate .. => [.table .rituals, .table .ritualApprovals]
  | .ritualPause _ => [.table .rituals]
  | .ritualRun _ => executionTargets
  | .eventsList .. => [.listing]
  | .clientHello _ | .observationsList _ | .systemStatus | .systemDoctor | .adapterHello _
  | .resourceList | .resourceShow _ | .ritualList | .ritualShow _ | .ritualPreview _ | .adapterList
  | .adapterStatus | .executionList | .executionShow _ | .integrationsStatus => []

def Frame.targets : Frame → List Target
  | .request r => r.body.targets
  | .adapter .. => [.table .adapters, .table .events]
  | .first _ | .hangup .. => []

theorem processBody_actsOn (crates : Crates) (id : Uuid) (body : RequestBody) :
    ActsOn body.targets (processBody crates id body) := by
  cases body with
  | clientHello | adapterHello => trivial
  | eventIngest event => exact ingestResponse_actsOn _
  | browserObservationEnable label url => exact browserObservationEnableResponse_actsOn _ _
  | vscodeObservationEnable label path => exact vscodeObservationEnableResponse_actsOn _ _
  | observationPause scopeId => exact observationPauseResponse_actsOn _
  | observationsList source => exact readResponse_actsOn (List.Subset.refl _) _
  | eventsList since limit => exact readResponse_actsOn (List.Subset.refl _) _
  | systemStatus => exact statusResponse_actsOn
  | systemDoctor => exact doctorResponse_actsOn
  | resourceCreate label path sensitivity => exact resourceCreateResponse_actsOn _ _ _
  | resourceList => exact readResponse_actsOn (List.Subset.refl _) _
  | resourceShow resourceId => exact showResponse_actsOn (List.Subset.refl _) _ _ _
  | ritualCreate definition => exact ritualCreateResponse_actsOn _
  | ritualUpdate ritualId definition => exact ritualUpdateResponse_actsOn _ _
  | ritualList => exact readResponse_actsOn (List.Subset.refl _) _
  | ritualShow ritualId => exact ritualShowResponse_actsOn _
  | ritualPreview ritualId => exact ritualPreviewResponse_actsOn _
  | ritualActivate ritualId approve => exact ritualActivateResponse_actsOn _ _
  | ritualPause ritualId => exact ritualPauseResponse_actsOn _
  | ritualRun ritualId => exact ritualRunResponse_actsOn _
  | adapterList | adapterStatus => exact .perform_bind (List.nil_subset _) fun _ => trivial
  | executionList => exact readResponse_actsOn (List.Subset.refl _) _
  | executionShow executionId => exact showResponse_actsOn (List.Subset.refl _) _ _ _
  | integrationsStatus => exact integrationsResponse_actsOn

theorem processRequest_actsOn (crates : Crates) (request : RequestEnvelope) :
    ActsOn request.body.targets (processRequest crates request) := by
  unfold processRequest
  split
  · trivial
  · exact processBody_actsOn _ _ _

theorem handleFirst_actsOn (request : RequestEnvelope) : ActsOn [] (handleFirst request) := by
  unfold handleFirst
  dsimp only
  split
  · trivial
  split
  · split
    · trivial
    refine .perform_bind (List.nil_subset _) fun r => ?_
    split <;> trivial
  · split
    · trivial
    · exact .perform_bind (List.nil_subset _) fun _ => trivial
  · trivial

theorem handleFrame_actsOn (crates : Crates) (frame : Frame) :
    ActsOn frame.targets (handleFrame crates frame) := by
  cases frame with
  | first request =>
    show ActsOn _ (handleFirst request >>= fun r => .ret (Reply.response r))
    exact (handleFirst_actsOn request).bind fun _ _ => trivial
  | request request =>
    show ActsOn _ (processRequest crates request >>= fun r => .ret (Reply.response r))
    exact (processRequest_actsOn crates request).bind fun _ _ => trivial
  | adapter hello token response =>
    show ActsOn _ (handleAdapterFrame hello response)
    unfold handleAdapterFrame
    split
    · trivial
    split
    · exact (ingestAdapterEvent_actsOn _ _).bind fun _ _ => trivial
    · trivial
  | hangup hello token => exact .perform_bind (List.nil_subset _) fun _ => trivial

/-! ## Where a running request can stand -/

section Leads
variable {crates : Crates} {frame : Frame} {request : RequestEnvelope} {o : Op}
  {τ : List (Answered Op.Res)}

theorem leads_targets {k : o.Res → Core Reply} (h : Leads (handleFrame crates frame) τ (.call o k)) :
    o.targets ⊆ frame.targets := ((handleFrame_actsOn crates frame).leads h).1

/-- A request that is at an operation stands in the handler of its body. -/
theorem leads_request {k : o.Res → Core Reply}
    (h : Leads (handleFrame crates (.request request)) τ (.call o k)) :
    ∃ k', Leads (processBody crates request.requestId request.body) τ (.call o k') := by
  rcases leads_bind_call h with ⟨k', hl⟩ | ⟨τ₁, a, τ₂, -, -, hl⟩
  · unfold processRequest at hl
    split at hl
    · exact absurd hl not_leads_ret_call
    · exact ⟨k', hl⟩
  · exact absurd hl not_leads_ret_call

theorem not_targets_nil {target : Target} (ht : target ∈ o.targets) : ¬ o.targets ⊆ [] :=
  fun h => nomatch h ht

end Leads
end Fubun

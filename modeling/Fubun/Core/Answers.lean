import Fubun.Concurrency.Tracking
import Fubun.Core.Handlers
import Fubun.Core.Runs
import Fubun.Rituals.Dispatch
import Fubun.Storage.Effect

/-! What the daemon answers to what it is asked. Every answer carries the id of its request, and one that
is no error is of the request's own kind and about what the request names. -/

namespace Fubun
open Relational Concurrency Program

/-! ## Replies -/

/-- What a reply of the storage says about what it was asked. -/
def Op.Tells : (o : Op) → o.Res → Prop
  | .storage (.listEvents _ limit), .ok events => events.length ≤ min limit 1000
  | .storage (.createResource resource), .ok stored => stored = resource
  | .storage (.getResource id), .ok resource => resource.id = id
  | .storage (.createRitual ritual version definition), .ok reply => reply = (ritual, version, definition)
  | .storage (.updateRitual ritual version definition), .ok reply => reply = (ritual, version, definition)
  | .storage (.getRitual id), .ok reply => reply.1.id = id ∧ reply.2.1.id = reply.1.currentVersionId
  | .storage (.getExecution id), .ok reply => reply.1.id = id ∧ ∀ step ∈ reply.2, step.executionId = id
  | .storage (.ensureObservationScope scope), .ok stored =>
    stored.source = scope.source ∧ stored.resourceId = scope.resourceId ∧ (scope.status = .active → stored.status = .active)
  | .storage (.listObservationScopes (some source)), .ok scopes => ∀ scope ∈ scopes, scope.source = source
  | .storage (.pauseObservationScope id), .ok scope => scope.id = id ∧ scope.status = .paused
  | _, _ => True

section Replies
variable {crates : Crates} {now : OffsetDateTime} {c c' : Connection Database}

theorem findExecution_ok {executionId : Uuid} {db : Database} {execution : Execution}
    (h : findExecution executionId db = .ok execution) : execution.id = executionId := by
  unfold findExecution at h
  split at h
  · rename_i row hfound
    obtain rfl := Except.ok.inj h
    simpa using List.find?_some hfound
  · cases h

theorem findScopeById_id {scopeId : Uuid} {db : Database} {scope : ObservationScope}
    (h : findScopeById scopeId db = .ok scope) : scope.id = scopeId := by
  unfold findScopeById at h
  split at h
  · rename_i row hfound
    obtain rfl := Except.ok.inj h
    simpa using List.find?_some hfound
  · cases h

theorem getExecution_tells {executionId : Uuid} {reply : Execution × List ExecutionStep}
    (h : getExecution executionId c = (.ok reply, c')) : reply.1.id = executionId ∧ ∀ step ∈ reply.2, step.executionId = executionId := by
  obtain ⟨execution, c₁, h₁, h⟩ := Command.bind_ok.mp h
  obtain ⟨steps, c₂, h₂, h⟩ := Command.bind_ok.mp h
  obtain rfl := Except.ok.inj (Prod.mk.inj h).1
  refine ⟨findExecution_ok (select_reply h₁).1, fun step hstep => ?_⟩
  rw [← Except.ok.inj (select_reply h₂).1] at hstep
  exact beq_iff_eq.mp (List.mem_filter.mp (mem_orderBy.mp hstep)).2

theorem executeOperation_tells {operation : Operation} {r : Except StorageError operation.Reply}
    (h : executeOperation crates now operation c = (r, c')) : (Op.storage operation).Tells r := by
  cases r with
  -- an error says nothing about the tables
  | error e => cases operation <;> first | trivial | (rename_i source; cases source <;> trivial)
  | ok reply =>
    have heffect := executeOperation_effect h
    cases operation with
    | listEvents since limit =>
      rw [executeOperation] at h
      split_ifs at h
      · have hlist := (select_reply h).1
        rw [← Except.ok.inj hlist]
        exact List.length_take_le ..
      · cases (Prod.mk.inj h).1
    | createResource resource =>
      exact (createResource_ok.mp heffect).1
    | getResource resourceId => exact (getResource_ok heffect.1).2
    | createRitual => exact heffect.1
    | updateRitual => exact heffect.1
    | getRitual ritualId => exact ⟨(findRitual_ok heffect.1).2, (findVersion_ok heffect.2.1).2⟩
    | getExecution => exact getExecution_tells h
    | ensureObservationScope scope =>
      rcases heffect with ⟨existing, hfound, hreply, -⟩ | ⟨-, hreply, -⟩
      · have hkey := List.find?_some hfound
        simp only [Bool.and_eq_true, beq_iff_eq] at hkey
        rw [hreply]
        exact ⟨hkey.1, hkey.2, fun _ => rfl⟩
      · rw [hreply]
        exact ⟨rfl, rfl, id⟩
    | listObservationScopes source =>
      cases source with
      | none => trivial
      | some source =>
        intro scope hscope
        rw [heffect.1] at hscope
        exact beq_iff_eq.mp (List.mem_filter.mp (mem_orderBy.mp hscope)).2
    | pauseObservationScope scopeId =>
      obtain ⟨scope, hfound, hreply⟩ := heffect
      have hid := findScopeById_id hfound
      rcases hreply with ⟨-, rfl, -⟩ | ⟨hpaused, rfl, -⟩
      · exact ⟨hid, rfl⟩
      · exact ⟨hid, hpaused⟩
    | _ => trivial

theorem act_tells {i : Nat} {o : Op} {ch : Choice} {w w' : World} {r : o.Res}
    (h : World.act crates i o ch w = some (r, w')) : o.Tells r := by
  cases o with
  | storage operation => exact executeOperation_tells (Prod.ext (Prod.mk.inj (Option.some.inj h)).1 rfl)
  | _ => trivial

end Replies

/-! ## Answers -/

section Answers
variable (crates : Crates)

def RequestBody.Answers : RequestBody → ResponsePayload → Prop
  | .clientHello _, .clientHelloAck _ => True
  | .adapterHello _, .adapterHelloAck _ => True
  | .eventIngest event, .eventIngested eventId stored duplicate => eventId = event.id ∧ stored = true ∧ duplicate = false
  | .browserObservationEnable _ url, .browserObservationEnabled resource scope hash pattern =>
    resource.kind = .webPage ∧ canonicalizeWebUrl crates url = .ok resource.canonicalLocator ∧ scope.source = .browserChromium ∧
      scope.resourceId = resource.id ∧ scope.status = .active ∧ hash = canonicalWebUrlHash crates resource.canonicalLocator ∧
      webOriginPattern crates resource.canonicalLocator = .ok pattern
  | .vscodeObservationEnable .., .vscodeObservationEnabled resource scope _ =>
    resource.kind = .directory ∧ scope.source = .vscodeWorkspace ∧ scope.resourceId = resource.id ∧ scope.status = .active
  | .observationPause scopeId, .observationPaused scope => scope.id = scopeId ∧ scope.status = .paused
  | .observationsList source, .observationList scopes => ∀ s, source = some s → ∀ scope ∈ scopes, scope.source = s
  | .eventsList _ limit, .eventList events => events.length ≤ min limit 1000
  | .systemStatus, .status _ => True
  | .systemDoctor, .doctor _ => True
  | .resourceCreate label path sensitivity, .resourceCreated resource =>
    resource.label = label ∧ resource.locator = path ∧ resource.sensitivity = sensitivity
  | .resourceList, .resourceList _ => True
  | .resourceShow resourceId, .resourceShow resource => resource.id = resourceId
  | .ritualCreate definition, .ritualCreated ritual version stored => stored = definition ∧ ritual.name = definition.name ∧
    ritual.status = .draft ∧ ritual.currentVersionId = version.id ∧ version.ritualId = ritual.id ∧ version.version = 1
  | .ritualUpdate ritualId definition, .ritualUpdated ritual version stored => stored = definition ∧
    ritual.id = ritualId ∧ ritual.name = definition.name ∧ ritual.status = .draft ∧ ritual.currentVersionId = version.id ∧
      version.ritualId = ritualId
  | .ritualList, .ritualList _ => True
  | .ritualShow ritualId, .ritualShow ritual version _ => ritual.id = ritualId ∧ version.id = ritual.currentVersionId
  | .ritualPreview ritualId, .ritualPreview preview => preview.ritualId = ritualId
  | .ritualActivate ritualId approve, .ritualActivated ritual => approve = true ∧ ritual.id = ritualId ∧ ritual.status = .active
  | .ritualPause ritualId, .ritualPaused ritual => ritual.id = ritualId ∧ ritual.status = .paused
  | .ritualRun ritualId, .ritualRun execution steps => execution.ritualId = ritualId ∧ execution.status.isTerminal = true ∧
    ∀ step ∈ steps, step.executionId = execution.id ∧ step.status.isTerminal = true
  | .adapterList, .adapterList _ => True
  | .adapterStatus, .adapterList _ => True
  | .executionList, .executionList _ => True
  | .executionShow executionId, .executionShow execution steps =>
    execution.id = executionId ∧ ∀ step ∈ steps, step.executionId = executionId
  | .integrationsStatus, .integrationsStatus _ => True
  | _, _ => False

structure Responds (id : Uuid) (body : RequestBody) (response : ResponseEnvelope) : Prop where
  version : response.protocolVersion = currentProtocolVersion
  requestId : response.requestId = id
  payload : ∀ payload, response.body = .ok payload → body.Answers crates payload

/-- The program responds to the request while the storage tells it what it asks. -/
abbrev Responding (id : Uuid) (body : RequestBody) (p : Core ResponseEnvelope) : Prop :=
  p.MeetsIf (fun x => x.op.Tells x.res) (fun _ => True) (Responds crates id body)

end Answers

section Handlers
variable {crates : Crates} {id : Uuid} {body : RequestBody}

theorem Responds.error (code message : String) : Responds crates id body (.error id code message) :=
  ⟨rfl, rfl, fun _ h => (by cases h)⟩

theorem Responds.ok {payload : ResponsePayload} (h : body.Answers crates payload) : Responds crates id body (.ok id payload) :=
  ⟨rfl, rfl, fun _ hp => ResponseBody.ok.inj hp ▸ h⟩

theorem Responds.storageError (error : StorageError) : Responds crates id body (storageError id error) := by
  unfold Fubun.storageError
  split <;> exact .error ..

theorem meets_true {α : Type} (p : Core α) : p.Meets (fun _ => True) fun _ => True := by
  induction p with
  | ret a => trivial
  | call o k ih => exact ⟨trivial, ih⟩

theorem passes {α : Type} (p : Core α) : p.MeetsIf (fun x => x.op.Tells x.res) (fun _ => True) fun _ => True :=
  (meets_true p).meetsIf

theorem ingestResponse_responds (event : Event) : Responding crates id (.eventIngest event) (ingestResponse id event) := by
  unfold ingestResponse
  split
  · exact .error ..
  refine .perform_bind trivial fun now _ => ?_
  dsimp only
  split
  · exact .error ..
  refine (passes (storageInsertEvent _)).bind fun r _ => ?_
  split
  · exact .ok ⟨rfl, rfl, rfl⟩
  · exact .error ..
  · exact .storageError _

theorem resourceCreateResponse_responds (label path : String) (sensitivity : Sensitivity) :
    Responding crates id (.resourceCreate label path sensitivity) (resourceCreateResponse crates id label path sensitivity) := by
  unfold resourceCreateResponse
  split
  · exact .error ..
  refine .perform_bind trivial fun metadata _ => ?_
  split
  · exact .error ..
  refine .perform_bind trivial fun canonical _ => ?_
  split
  · exact .error ..
  dsimp only
  split
  · exact .error ..
  refine .perform_bind trivial fun now _ => .perform_bind trivial fun resourceId _ => ?_
  split
  · exact .error ..
  refine .perform_bind trivial fun r htells => ?_
  split
  · exact .ok ⟨congrArg Resource.label htells, congrArg Resource.locator htells, congrArg Resource.sensitivity htells⟩
  · exact .error ..
  · exact .storageError _

/-- The resource that is observed is of the candidate's kind and has its canonical locator. -/
def Found (crates : Crates) (id : Uuid) (body : RequestBody) (candidate : Resource) : Except ResponseEnvelope Resource → Prop
  | .ok resource => resource.kind = candidate.kind ∧ resource.canonicalLocator = candidate.canonicalLocator
  | .error response => Responds crates id body response

variable (crates body) in
theorem createOrFind_responds (candidate : Resource) (conflict : String) :
    (createOrFind id candidate conflict).MeetsIf (fun x => x.op.Tells x.res) (fun _ => True) (Found crates id body candidate) := by
  unfold createOrFind
  refine .perform_bind trivial fun r htells => ?_
  split
  -- what is created is the candidate, and what is found has been chosen by the two fields
  · exact ⟨congrArg Resource.kind htells, congrArg Resource.canonicalLocator htells⟩
  · refine .perform_bind trivial fun r _ => ?_
    split
    · split
      · rename_i resource hfound
        have hsame := List.find?_some hfound
        simp only [Bool.and_eq_true, beq_iff_eq] at hsame
        exact hsame
      · exact .error ..
    · exact .storageError _
  · exact .storageError _

theorem browserObservationEnableResponse_responds (label url : String) :
    Responding crates id (.browserObservationEnable label url) (browserObservationEnableResponse crates id label url) := by
  unfold browserObservationEnableResponse
  split
  · exact .error ..
  rename_i canonical hcanonical
  refine .perform_bind trivial fun now _ => .perform_bind trivial fun resourceId _ => ?_
  dsimp only
  split
  · exact .error ..
  refine (createOrFind_responds crates (.browserObservationEnable label url) _ _).bind fun r hr => ?_
  split
  · exact hr
  obtain ⟨hkind, hlocator⟩ := hr
  refine .perform_bind trivial fun scopeId _ => .perform_bind trivial fun r htells => ?_
  split
  · exact .storageError _
  obtain ⟨hsource, hresource, hactive⟩ := htells
  split
  · exact .error ..
  rename_i pattern hpattern
  refine .ok ⟨hkind, ?_, hsource, hresource, hactive rfl, ?_, ?_⟩
  · rw [hlocator]
    exact hcanonical
  · rw [hlocator]
  · rw [hlocator]
    exact hpattern

theorem vscodeObservationEnableResponse_responds (label path : String) :
    Responding crates id (.vscodeObservationEnable label path) (vscodeObservationEnableResponse crates id label path) := by
  unfold vscodeObservationEnableResponse
  split
  · exact .error ..
  refine .perform_bind trivial fun canonical _ => ?_
  split
  · exact .error ..
  refine .perform_bind trivial fun metadata _ => ?_
  split
  · exact .error ..
  refine .perform_bind trivial fun now _ => .perform_bind trivial fun resourceId _ => ?_
  dsimp only
  split
  · exact .error ..
  refine (createOrFind_responds crates (.vscodeObservationEnable label path) _ _).bind fun r hr => ?_
  split
  · exact hr
  refine .perform_bind trivial fun scopeId _ => .perform_bind trivial fun r htells => ?_
  split
  · exact .storageError _
  obtain ⟨hsource, hresource, hactive⟩ := htells
  exact .ok ⟨hr.1, hsource, hresource, hactive rfl⟩

theorem observationPauseResponse_responds (scopeId : Uuid) :
    Responding crates id (.observationPause scopeId) (observationPauseResponse id scopeId) := by
  unfold observationPauseResponse
  refine .perform_bind trivial fun r htells => ?_
  split
  · exact .ok htells
  · exact .error ..
  · exact .storageError _

theorem readResponse_responds {operation : Operation} {payload : operation.Reply → ResponsePayload}
    (h : ∀ reply, (Op.storage operation).Tells (.ok reply) → body.Answers crates (payload reply)) :
    Responding crates id body (readResponse operation id payload) := by
  unfold readResponse
  refine .perform_bind trivial fun r htells => ?_
  split
  · exact .ok (h _ htells)
  · exact .storageError _

theorem showResponse_responds {operation : Operation} {code message : String} {payload : operation.Reply → ResponsePayload}
    (h : ∀ reply, (Op.storage operation).Tells (.ok reply) → body.Answers crates (payload reply)) :
    Responding crates id body (showResponse operation id code message payload) := by
  unfold showResponse
  refine .perform_bind trivial fun r htells => ?_
  split
  · exact .ok (h _ htells)
  · exact .error ..
  · exact .storageError _

/-! ## Rituals -/

theorem ritualCreateResponse_responds (definition : RitualDefinition) :
    Responding crates id (.ritualCreate definition) (ritualCreateResponse crates id definition) := by
  unfold ritualCreateResponse
  split
  · exact .error ..
  split
  · exact .error ..
  refine .perform_bind trivial fun now _ => .perform_bind trivial fun ritualId _ => .perform_bind trivial fun versionId _ =>
    .perform_bind trivial fun r htells => ?_
  split
  · obtain ⟨rfl, hrest⟩ := Prod.mk.inj htells
    obtain ⟨rfl, rfl⟩ := Prod.mk.inj hrest
    exact .ok ⟨rfl, rfl, rfl, rfl, rfl, rfl⟩
  · exact .storageError _

theorem ritualUpdateResponse_responds (ritualId : Uuid) (definition : RitualDefinition) :
    Responding crates id (.ritualUpdate ritualId definition) (ritualUpdateResponse crates id ritualId definition) := by
  unfold ritualUpdateResponse
  split
  · exact .error ..
  split
  · exact .error ..
  refine .perform_bind trivial fun r hfound => ?_
  split
  · exact .error ..
  · exact .storageError _
  obtain ⟨hid, -⟩ := hfound
  refine .perform_bind trivial fun now _ => .perform_bind trivial fun versionId _ => .perform_bind trivial fun r htells => ?_
  split
  · obtain ⟨rfl, hrest⟩ := Prod.mk.inj htells
    obtain ⟨rfl, rfl⟩ := Prod.mk.inj hrest
    exact .ok ⟨rfl, hid, rfl, rfl, rfl, rfl⟩
  · exact .storageError _

theorem ritualShowResponse_responds (ritualId : Uuid) :
    Responding crates id (.ritualShow ritualId) (ritualShowResponse id ritualId) := by
  unfold ritualShowResponse
  refine .perform_bind trivial fun r htells => ?_
  split
  · obtain ⟨hid, hcurrent⟩ := htells
    exact .ok ⟨hid, hcurrent⟩
  · exact .error ..
  · exact .storageError _

def IfOk {ε α : Type} (Q : α → Prop) : Except ε α → Prop
  | .ok a => Q a
  | .error _ => True

theorem buildPreview_ritualId (ritual : Ritual) (version : RitualVersion) (definition : RitualDefinition) :
    (buildPreview crates ritual version definition).Meets (fun _ => True) (IfOk (·.ritualId = ritual.id)) := by
  unfold buildPreview
  refine (meets_true _).bind fun r _ => ?_
  split
  · trivial
  · exact rfl

theorem ritualPreviewResponse_responds (ritualId : Uuid) :
    Responding crates id (.ritualPreview ritualId) (ritualPreviewResponse crates id ritualId) := by
  unfold ritualPreviewResponse
  refine .perform_bind trivial fun r hfound => ?_
  split
  · exact .error ..
  · exact .storageError _
  obtain ⟨hid, -⟩ := hfound
  refine (buildPreview_ritualId _ _ _).meetsIf.bind fun r hr => ?_
  split
  · exact .ok (Eq.trans hr hid)
  · exact .error ..

theorem ritualActivateResponse_responds (ritualId : Uuid) (approve : Bool) :
    Responding crates id (.ritualActivate ritualId approve) (ritualActivateResponse crates id ritualId approve) := by
  unfold ritualActivateResponse
  split
  · exact .error ..
  rename_i happrove
  refine .perform_bind trivial fun r hfound => ?_
  split
  · exact .error ..
  · exact .storageError _
  obtain ⟨hid, -⟩ := hfound
  refine (passes _).bind fun r _ => ?_
  split
  · exact .error ..
  split
  · exact .error ..
  refine .perform_bind trivial fun now _ => (passes _).bind fun approvals _ => .perform_bind trivial fun r _ => ?_
  split
  · exact .storageError _
  refine .perform_bind trivial fun r _ => ?_
  split
  · exact .storageError _
  · exact .ok ⟨by simpa using happrove, hid, rfl⟩

theorem ritualPauseResponse_responds (ritualId : Uuid) :
    Responding crates id (.ritualPause ritualId) (ritualPauseResponse id ritualId) := by
  unfold ritualPauseResponse
  refine .perform_bind trivial fun r hfound => ?_
  split
  · exact .error ..
  · exact .storageError _
  obtain ⟨hid, -⟩ := hfound
  split
  · exact .error ..
  refine .perform_bind trivial fun r _ => ?_
  split
  · exact .storageError _
  · exact .ok ⟨hid, rfl⟩

end Handlers

/-! ## Runs -/

/-- The execution where the loop over its actions has left it: unless all were done or the deadline came,
it has its last status. -/
structure Execution.Leaves (started execution : Execution) : Prop where
  id : execution.id = started.id
  ritualId : execution.ritualId = started.ritualId
  stopped : execution.failureCode = none ∨ execution.failureCode = some "ritual_timeout" ∨ execution.status.isTerminal = true

def Execution.Owns (execution : Execution) (steps : List ExecutionStep) : Prop :=
  ∀ step ∈ steps, step.executionId = execution.id

def Round.Leaves (started : Execution) : Round → Prop
  | .next step => step.executionId = started.id
  | .stop execution step => started.Leaves execution ∧ step.executionId = started.id

/-- The execution at its end, with its steps. -/
structure Execution.Ends (started : Execution) (x : Execution × List ExecutionStep) : Prop where
  id : x.1.id = started.id
  ritualId : x.1.ritualId = started.ritualId
  status : x.1.status.isTerminal = true
  steps : started.Owns x.2

section Runs
variable {execution : Execution} {step : ExecutionStep} {done steps : List ExecutionStep} {finished : OffsetDateTime}

theorem stoppedStatus_isTerminal (successful : Nat) : (stoppedStatus successful).isTerminal = true := by
  unfold stoppedStatus
  split <;> rfl

theorem selected_executionId (step : ExecutionStep) (identity : Option EligibleAdapter) :
    (step.selected identity).executionId = step.executionId := by
  cases identity <;> rfl

theorem recordDispatch_leaves (successful : Nat) (deadlineBound : Bool)
    (actionResult : Except DispatchedActionError DispatchedActionResult) (hstep : step.executionId = execution.id) :
    (recordDispatch execution successful step deadlineBound finished actionResult).Meets (fun _ => True)
      (IfOk (Round.Leaves execution)) := by
  unfold recordDispatch
  split
  · refine .perform_bind trivial fun r => ?_
    split
    · trivial
    split
    · exact hstep
    · exact ⟨⟨rfl, rfl, .inr (.inr (stoppedStatus_isTerminal _))⟩, hstep⟩
  · rename_i error
    have hselected := (selected_executionId step error.identity).trans hstep
    dsimp only
    split
    -- the deadline leaves the status to `finishSteps`
    · exact ⟨⟨rfl, rfl, .inr (.inl rfl)⟩, hselected⟩
    refine .perform_bind trivial fun r => ?_
    split
    · trivial
    · exact ⟨⟨rfl, rfl, .inr (.inr (stoppedStatus_isTerminal _))⟩, hselected⟩

theorem executeAction_leaves (deadline successful : Nat) (action : ActionSpec) (hstep : step.executionId = execution.id) :
    (executeAction deadline execution successful action step).Meets (fun _ => True) (IfOk (Round.Leaves execution)) := by
  unfold executeAction
  refine .perform_bind trivial fun instant => ?_
  dsimp only
  split
  · exact ⟨⟨rfl, rfl, .inr (.inl rfl)⟩, hstep⟩
  refine .perform_bind trivial fun started => .perform_bind trivial fun r => ?_
  split
  · trivial
  refine (meets_true _).bind fun r _ => ?_
  split
  · trivial
  exact .perform_bind trivial fun _ => .perform_bind trivial fun _ => recordDispatch_leaves _ _ _ hstep

theorem executeActions_leaves (deadline successful : Nat) (actions : List ActionSpec) (hnew : execution.failureCode = none)
    (hdone : execution.Owns done) (hsteps : execution.Owns steps) :
    (executeActions deadline execution successful done actions steps).Meets (fun _ => True)
      (IfOk fun progress => execution.Leaves progress.execution ∧ execution.Owns progress.steps) := by
  induction actions generalizing successful done steps with
  | nil =>
    unfold executeActions
    exact ⟨⟨rfl, rfl, .inl hnew⟩, List.forall_mem_append.mpr ⟨hdone, hsteps⟩⟩
  | cons action actions ih =>
    cases steps with
    | nil =>
      unfold executeActions
      exact ⟨⟨rfl, rfl, .inl hnew⟩, hdone⟩
    | cons step steps =>
      obtain ⟨hstep, hsteps⟩ := List.forall_mem_cons.mp hsteps
      unfold executeActions
      refine (executeAction_leaves deadline successful action hstep).bind fun r hr => ?_
      split
      · trivial
      · exact ih _ (List.forall_mem_append.mpr ⟨hdone, List.forall_mem_singleton.mpr hr⟩) hsteps
      · exact ⟨hr.1, List.forall_mem_append.mpr ⟨hdone, List.forall_mem_cons.mpr ⟨hr.2, hsteps⟩⟩⟩

theorem finalizeUnfinishedSteps_owns (code message : String) (hsteps : execution.Owns steps) :
    (finalizeUnfinishedSteps finished code message steps).Meets (fun _ => True) (IfOk execution.Owns) := by
  induction steps with
  | nil => exact hsteps
  | cons step steps ih =>
    obtain ⟨hstep, hrest⟩ := List.forall_mem_cons.mp hsteps
    unfold finalizeUnfinishedSteps
    split
    · refine .perform_bind trivial fun r => ?_
      split
      · trivial
      refine (ih hrest).bind fun r hr => ?_
      split
      · trivial
      · exact List.forall_mem_cons.mpr ⟨hstep, hr⟩
    · refine (ih hrest).bind fun r hr => ?_
      split
      · trivial
      · exact List.forall_mem_cons.mpr ⟨hstep, hr⟩

theorem finishSteps_ends {progress : Progress} (h : execution.Leaves progress.execution) (hsteps : execution.Owns progress.steps) :
    (finishSteps finished progress).Meets (fun _ => True) (IfOk execution.Ends) := by
  unfold finishSteps
  split
  · refine (finalizeUnfinishedSteps_owns _ _ hsteps).bind fun r hr => ?_
    split
    · trivial
    · exact ⟨h.id, h.ritualId, stoppedStatus_isTerminal _, hr⟩
  rename_i htimeout
  split
  · exact ⟨h.id, h.ritualId, rfl, hsteps⟩
  -- a failure has set the status when it stopped the loop
  rename_i hfailed
  refine (finalizeUnfinishedSteps_owns _ _ hsteps).bind fun r hr => ?_
  split
  · trivial
  · exact ⟨h.id, h.ritualId, (h.stopped.resolve_left hfailed).resolve_left htimeout, hr⟩

theorem concludeExecution_ends {x : Execution × List ExecutionStep} (h : execution.Ends x) :
    (concludeExecution finished x.1 x.2).Meets (fun _ => True)
      (IfOk fun y => execution.Ends y ∧ ∀ step ∈ y.2, step.status.isTerminal = true) := by
  unfold concludeExecution
  dsimp only
  split
  · trivial
  rename_i hinvariant
  refine .perform_bind trivial fun r => ?_
  split
  · trivial
  split
  · trivial
  · refine ⟨⟨h.id, h.ritualId, h.status, h.steps⟩, ?_⟩
    simpa [terminalStepInvariant, h.status] using hinvariant

theorem executeSteps_ends (definition : RitualDefinition) (hnew : execution.failureCode = none) (hsteps : execution.Owns steps) :
    (executeSteps execution steps definition).Meets (fun _ => True)
      (IfOk fun y => execution.Ends y ∧ ∀ step ∈ y.2, step.status.isTerminal = true) := by
  unfold executeSteps
  refine .perform_bind trivial fun instant => (executeActions_leaves _ 0 _ hnew (List.forall_mem_nil _) hsteps).bind fun r hr => ?_
  split
  · trivial
  refine .perform_bind trivial fun finished => (finishSteps_ends hr.1 hr.2).bind fun r hr => ?_
  split
  · trivial
  · exact concludeExecution_ends hr

theorem newSteps_executionId (executionId : Uuid) (now : OffsetDateTime) (index : Nat) (actions : List ActionSpec) :
    (newSteps executionId now index actions).Meets (fun _ => True) fun steps => ∀ step ∈ steps, step.executionId = executionId := by
  induction actions generalizing index with
  | nil => exact List.forall_mem_nil _
  | cons action actions ih =>
    exact .perform_bind trivial fun id => (ih _).bind fun steps hsteps => List.forall_mem_cons.mpr ⟨rfl, hsteps⟩

end Runs

section Requests
variable {crates : Crates} {id : Uuid}

theorem startAndExecute_responds (ritualId : Uuid) (version : RitualVersion) (definition : RitualDefinition) :
    Responding crates id (.ritualRun ritualId) (startAndExecute id ritualId version definition) := by
  unfold startAndExecute
  refine .perform_bind trivial fun now _ => .perform_bind trivial fun executionId _ =>
    (newSteps_executionId executionId now 0 definition.actions).meetsIf.bind fun steps hsteps => .perform_bind trivial fun r _ => ?_
  split
  · exact .error ..
  · exact .storageError _
  have howns : (newExecution executionId ritualId version now).Owns steps := hsteps
  refine (executeSteps_ends definition rfl howns).meetsIf.bind fun r hr => ?_
  split
  · obtain ⟨hends, hterminal⟩ := hr
    exact .ok ⟨hends.ritualId, hends.status, fun step hstep => ⟨(hends.steps step hstep).trans hends.id.symm, hterminal step hstep⟩⟩
  · exact .error ..

theorem ritualRunResponse_responds (ritualId : Uuid) :
    Responding crates id (.ritualRun ritualId) (ritualRunResponse crates id ritualId) := by
  unfold ritualRunResponse
  refine .perform_bind trivial fun r _ => ?_
  split
  · exact .error ..
  · exact .storageError _
  split
  · exact .error ..
  refine (passes _).bind fun r _ => ?_
  split
  · exact .error ..
  · exact startAndExecute_responds ..

/-! ## Requests -/

theorem statusResponse_responds : Responding crates id .systemStatus (statusResponse id) := by
  unfold statusResponse
  refine .perform_bind trivial fun r _ => ?_
  split
  · exact .ok trivial
  · exact .storageError _

theorem doctorResponse_responds : Responding crates id .systemDoctor (doctorResponse id) := by
  unfold doctorResponse
  refine .perform_bind trivial fun schemaVersion _ => .perform_bind trivial fun counts _ => ?_
  split
  · refine .perform_bind trivial fun _ _ => .perform_bind trivial fun _ _ => .perform_bind trivial fun _ _ =>
      .perform_bind trivial fun _ _ => .perform_bind trivial fun _ _ => .perform_bind trivial fun _ _ =>
      .perform_bind trivial fun _ _ => ?_
    exact (passes _).bind fun _ _ => (passes _).bind fun _ _ => Responds.ok trivial
  · exact .error ..

theorem integrationsResponse_responds : Responding crates id .integrationsStatus (integrationsResponse id) := by
  unfold integrationsResponse
  exact .perform_bind trivial fun reports _ => (passes _).bind fun scopes _ => .perform_bind trivial fun _ _ => Responds.ok trivial

/-- Every request is answered under its id, with an error or with what answers it. -/
theorem processBody_responds (crates : Crates) (id : Uuid) (body : RequestBody) :
    Responding crates id body (processBody crates id body) := by
  cases body with
  | clientHello | adapterHello => exact .error ..
  | eventIngest event => exact ingestResponse_responds _
  | browserObservationEnable label url => exact browserObservationEnableResponse_responds _ _
  | vscodeObservationEnable label path => exact vscodeObservationEnableResponse_responds _ _
  | observationPause scopeId => exact observationPauseResponse_responds _
  | observationsList source =>
    refine readResponse_responds fun scopes htells s hs => ?_
    subst hs
    exact htells
  | eventsList since limit => exact readResponse_responds fun _ htells => htells
  | systemStatus => exact statusResponse_responds
  | systemDoctor => exact doctorResponse_responds
  | resourceCreate label path sensitivity => exact resourceCreateResponse_responds _ _ _
  | resourceList => exact readResponse_responds fun _ _ => trivial
  | resourceShow resourceId => exact showResponse_responds fun _ htells => htells
  | ritualCreate definition => exact ritualCreateResponse_responds _
  | ritualUpdate ritualId definition => exact ritualUpdateResponse_responds _ _
  | ritualList => exact readResponse_responds fun _ _ => trivial
  | ritualShow ritualId => exact ritualShowResponse_responds _
  | ritualPreview ritualId => exact ritualPreviewResponse_responds _
  | ritualActivate ritualId approve => exact ritualActivateResponse_responds _ _
  | ritualPause ritualId => exact ritualPauseResponse_responds _
  | ritualRun ritualId => exact ritualRunResponse_responds _
  | adapterList | adapterStatus => exact .perform_bind trivial fun _ _ => Responds.ok trivial
  | executionList => exact readResponse_responds fun _ _ => trivial
  | executionShow executionId => exact showResponse_responds fun _ htells => htells
  | integrationsStatus => exact integrationsResponse_responds

theorem processRequest_responds (request : RequestEnvelope) :
    Responding crates request.requestId request.body (processRequest crates request) := by
  unfold processRequest
  split
  · exact .error ..
  · exact processBody_responds ..

theorem handleFirst_responds (request : RequestEnvelope) :
    Responding crates request.requestId request.body (handleFirst request) := by
  unfold handleFirst
  dsimp only
  split
  · exact .error ..
  split
  · rename_i hello hbody
    split
    · exact .error ..
    refine .perform_bind trivial fun r _ => ?_
    have hack : request.body.Answers crates (.adapterHelloAck helloAck) := by
      rw [hbody]
      trivial
    split
    · exact .error ..
    · exact .ok hack
  · rename_i hello hbody
    have hack : request.body.Answers crates (.clientHelloAck helloAck) := by
      rw [hbody]
      trivial
    split
    · exact .error ..
    · exact .perform_bind trivial fun _ _ => Responds.ok hack
  · exact .error ..

/-- The request that a frame of a client or of a handshake carries. -/
def Frame.request? : Frame → Option RequestEnvelope
  | .first asked | .request asked => some asked
  | .adapter .. | .hangup .. => none

theorem handleFrame_responds {frame : Frame} {request : RequestEnvelope} (h : frame.request? = some request) :
    (handleFrame crates frame).MeetsIf (fun x => x.op.Tells x.res) (fun _ => True)
      fun reply => ∃ response, reply = .response response ∧ Responds crates request.requestId request.body response := by
  cases frame with
  | first first =>
    obtain rfl := Option.some.inj h
    show MeetsIf _ _ _ (handleFirst first >>= fun r => .ret (Reply.response r))
    exact (handleFirst_responds first).bind fun response hresponds => ⟨response, rfl, hresponds⟩
  | request first =>
    obtain rfl := Option.some.inj h
    show MeetsIf _ _ _ (processRequest crates first >>= fun r => .ret (Reply.response r))
    exact (processRequest_responds first).bind fun response hresponds => ⟨response, rfl, hresponds⟩
  | adapter hello token response => cases h
  | hangup hello token => cases h

end Requests

/-! ## The client -/

/-- The errors of a client, but for those of the socket and of its frames. -/
inductive ClientError where
  | connectionClosed
  | requestIdMismatch
  | rejected (code message : String)
  | unexpectedPayload
deriving DecidableEq, Repr

namespace FubunClient

/-- What a client makes of the frame that it reads after its request, or of the end of the stream. -/
def request (requestId : Uuid) (frame : Option ResponseEnvelope) : Except ClientError ResponsePayload :=
  match frame with
  | none => .error .connectionClosed
  | some response =>
    if response.requestId ≠ requestId then .error .requestIdMismatch
    else
      match response.body with
      | .ok payload => .ok payload
      | .error code message => .error (.rejected code message)

def connect (requestId : Uuid) (frame : Option ResponseEnvelope) : Except ClientError Unit :=
  match request requestId frame with
  | .ok (.clientHelloAck _) => .ok ()
  | .ok _ => .error .unexpectedPayload
  | .error error => .error error

def status (requestId : Uuid) (frame : Option ResponseEnvelope) : Except ClientError StatusReport :=
  match request requestId frame with
  | .ok (.status report) => .ok report
  | .ok _ => .error .unexpectedPayload
  | .error error => .error error

/-- The client takes the response for an answer to its request or for the daemon's refusal, and neither its
handshake nor its status request meets a payload that it does not expect. -/
structure Understands (crates : Crates) (asked : RequestEnvelope) (response : ResponseEnvelope) : Prop where
  answer : (∃ payload, request asked.requestId (some response) = .ok payload ∧ asked.body.Answers crates payload) ∨
    ∃ code message, request asked.requestId (some response) = .error (.rejected code message)
  connect : ∀ hello, asked.body = .clientHello hello → connect asked.requestId (some response) ≠ .error .unexpectedPayload
  status : asked.body = .systemStatus → status asked.requestId (some response) ≠ .error .unexpectedPayload

variable {crates : Crates} {asked : RequestEnvelope} {response : ResponseEnvelope}

theorem request_ok {payload : ResponsePayload} (hid : response.requestId = asked.requestId) (h : response.body = .ok payload) :
    request asked.requestId (some response) = .ok payload := by
  simp [request, hid, h]

theorem request_error {code message : String} (hid : response.requestId = asked.requestId) (h : response.body = .error code message) :
    request asked.requestId (some response) = .error (.rejected code message) := by
  simp [request, hid, h]

theorem understands (h : Responds crates asked.requestId asked.body response) : Understands crates asked response := by
  cases hbody : response.body with
  | error code message =>
    have hrequest := request_error h.requestId hbody
    refine ⟨.inr ⟨code, message, hrequest⟩, fun _ _ => ?_, fun _ => ?_⟩
    · simp [connect, hrequest]
    · simp [status, hrequest]
  | ok payload =>
    have hrequest := request_ok h.requestId hbody
    have hanswers := h.payload payload hbody
    -- no payload of another kind answers the handshake or the status request
    refine ⟨.inl ⟨payload, hrequest, hanswers⟩, fun hello hhello => ?_, fun hstatus => ?_⟩
    · rw [hhello] at hanswers
      cases payload <;> first | exact False.elim hanswers | simp [connect, hrequest]
    · rw [hstatus] at hanswers
      cases payload <;> first | exact False.elim hanswers | simp [status, hrequest]

end FubunClient

section System
open System
variable {crates : Crates} {now : Int} {instant : Nat} {files : Files} {path : String} {c : State}
  {ok : State → Concurrency.Event Nat Frame Choice Drift → Prop} {i : Nat} {τ : List (Answered Op.Res)}

theorem reaches_tells (h : (daemon crates).Reaches (World.start now instant files path) ok c) {o : Op} {r : o.Res}
    (hcall : .call i o r ∈ c.log) : o.Tells r := by
  obtain ⟨before, after, hlog⟩ := List.append_of_mem hcall
  obtain ⟨d, d', t, k, ch, -, -, -, -, -, hact, -, -⟩ := h.split_call hlog
  exact act_tells hact

/-- Every request that the daemon answers, in any interleaving with the others, it answers with one response
that its client understands: under the request's id, and of the kind and about the records that it names. -/
theorem client_answered (h : (daemon crates).Reaches (World.start now instant files path) ok c) {before after : Log}
    {reply : Reply} {frame : Frame} {request : RequestEnvelope} (hlog : c.log = before ++ .answer i reply :: after)
    (hserving : Serving i frame τ before) (hframe : frame.request? = some request) :
    ∃ response, reply = .response response ∧ response.protocolVersion = currentProtocolVersion ∧
      FubunClient.Understands crates request response := by
  obtain ⟨d, e, d', hd, -, hs, rfl, hdlog⟩ := h.split hlog
  obtain ⟨t, ht, hrest⟩ := hs.answer_of_log hdlog
  -- the answer is the end of the path that the request has taken
  obtain ⟨rfl, rfl⟩ := (hd.serving ht).unique hserving
  have hleads : Leads (handleFrame crates t.request) t.trace (.ret reply) := hrest ▸ (hd.traced ht).leads
  obtain ⟨response, rfl, hresponds⟩ := (handleFrame_responds hframe).leads hleads fun x hx => reaches_tells hd (hd.mem_log ht hx)
  exact ⟨response, rfl, hresponds.version, FubunClient.understands hresponds⟩

end System

namespace Sample

/-- The frame of a connection whose handler has come to its answer. -/
def toAnswer (c : State) (i : Nat) : Option Frame :=
  match c.threads i with
  | some ⟨frame, _, .ret _⟩ => some frame
  | _ => none

theorem toAnswer_eq_some {c : State} {i : Nat} {frame : Frame} (h : toAnswer c i = some frame) :
    ∃ t a, c.threads i = some t ∧ t.request = frame ∧ t.rest = .ret a := by
  unfold toAnswer at h
  split at h
  · rename_i request trace a ht
    exact ⟨_, a, ht, Option.some.inj h, rfl⟩
  · cases h

def listing : RequestEnvelope := ⟨currentProtocolVersion, 0, .ritualList⟩

end Sample

theorem client_answered_listing : ∃ c before response, (daemon Sample.crates).Reaches Sample.world System.Anywhere c ∧
    c.log = before ++ [.answer 0 (.response response)] ∧ FubunClient.Understands Sample.crates Sample.listing response := by
  have hrun : (Sample.exec (Sample.connected 0 ++ Sample.request 0 .ritualList [0])).map (Sample.toAnswer · 0) =
      some (some (.request Sample.listing)) := by decide +kernel
  obtain ⟨c, hc, hanswer⟩ := Option.map_eq_some_iff.mp hrun
  obtain ⟨t, a, ht, hrequest, hrest⟩ := Sample.toAnswer_eq_some hanswer
  have hreach : (daemon Sample.crates).Reaches Sample.world System.Anywhere c := System.Reaches.init.exec hc
  have hanswered := hreach.step (e := .answer 0) trivial (.answer ht hrest)
  obtain ⟨response, rfl, -, hunderstands⟩ := client_answered hanswered rfl (hrequest ▸ hreach.serving ht) rfl
  exact ⟨_, c.log, response, hanswered, rfl, hunderstands⟩

end Fubun

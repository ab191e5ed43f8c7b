import Fubun.Core.Rituals

/-! Running a ritual: the steps of an execution one after another, up to a failure
or the deadline, and the bookkeeping of what was not executed. -/

namespace Fubun
open Relational Concurrency Program

def nanosPerSecond : Nat := 1000000000
def nanosPerMilli : Nat := 1000000

def dispatchErrorCode : AdapterDispatchErrorKind → String
  | .unavailable => "adapter_unavailable"
  | .capabilityUnavailable => "capability_unavailable"
  | .timeout => "action_timeout"
  | .disconnected => "adapter_disconnected"
  | .protocol => "protocol_error"

def dispatchErrorMessage : AdapterDispatchErrorKind → String
  | .unavailable => "no adapter is connected"
  | .capabilityUnavailable => "required capability is unavailable"
  | .timeout => "adapter action timed out"
  | .disconnected => "adapter disconnected"
  | .protocol => "adapter protocol error"

def redactMessage (message : String) : String :=
  String.ofList ((message.toList.filter fun c => ! isControl c).take 160)

def terminalStepInvariant (status : ExecutionStatus) (steps : List ExecutionStep) : Bool :=
  ! status.isTerminal || steps.all (·.status.isTerminal)

def AdapterActionStatus.stepStatus : AdapterActionStatus → ExecutionStepStatus
  | .succeeded => .succeeded
  | .skipped => .skipped
  | .failed => .failed

/-- The status of an execution that stops after `successful` good steps. -/
def stoppedStatus (successful : Nat) : ExecutionStatus := if successful = 0 then .failed else .partially

def stepUpdateError : CoreError := ("internal_error", "execution step could not be updated")

def resolveResource (action : ActionSpec) : Core (Except CoreError (Option ResolvedResource)) := do
  match action with
  | .linuxPathOpen resourceId | .browserTabEnsureOpen resourceId =>
    match ← storage (.getResource resourceId) with
    | .error _ => return .error ("resource_not_found", "resource was not found")
    | .ok resource => return .ok (some ⟨resourceId, resource.kind, resource.canonicalLocator⟩)
  | _ => return .ok none

/-- How far an execution has come: its record, its steps and the number of good ones. -/
structure Progress where
  execution : Execution
  steps : List ExecutionStep
  successful : Nat
deriving DecidableEq, Repr

def ExecutionStep.answered (step : ExecutionStep) (dispatched : DispatchedActionResult)
    (finished : OffsetDateTime) : ExecutionStep :=
  { step with
    adapterId := some dispatched.identity.adapterId
    adapterInstanceId := some dispatched.identity.instanceId
    status := dispatched.result.status.stepStatus
    resultCode := some dispatched.result.resultCode
    redactedMessage := some (redactMessage dispatched.result.redactedMessage)
    finishedAt := some finished }

/-- The identity that a dispatch error names, if it names one. -/
def ExecutionStep.selected (step : ExecutionStep) (identity : Option EligibleAdapter) : ExecutionStep :=
  match identity with
  | some identity =>
    { step with
      adapterId := some identity.adapterId, adapterInstanceId := some identity.instanceId }
  | none => step

def ExecutionStep.undispatched (step : ExecutionStep) (kind : AdapterDispatchErrorKind)
    (finished : OffsetDateTime) : ExecutionStep :=
  { step with
    status := .failed
    resultCode := some (dispatchErrorCode kind)
    redactedMessage := some (dispatchErrorMessage kind)
    finishedAt := some finished }

/-- How a round of the loop ends: with its step done, or by breaking off. -/
inductive Round where
  | next (step : ExecutionStep)
  | stop (execution : Execution) (step : ExecutionStep)

/-- What a round makes of the answer of its dispatch. -/
def recordDispatch (execution : Execution) (successful : Nat) (step : ExecutionStep)
    (deadlineBound : Bool) (finished : OffsetDateTime)
    (actionResult : Except DispatchedActionError DispatchedActionResult) :
    Core (Except CoreError Round) := do
  match actionResult with
  | .ok dispatched =>
    let step := step.answered dispatched finished
    match ← storage (.updateStep step) with
    | .error _ => return .error stepUpdateError
    | .ok () =>
      if step.status = .succeeded ∨ step.status = .skipped then return .ok (.next step)
      else
        return .ok (.stop { execution with
          status := stoppedStatus successful, failureCode := some "action_failed" } step)
  | .error error =>
    let step := step.selected error.identity
    if error.kind = .timeout ∧ deadlineBound then
      return .ok (.stop { execution with failureCode := some "ritual_timeout" } step)
    else
      let step := step.undispatched error.kind finished
      match ← storage (.updateStep step) with
      | .error _ => return .error stepUpdateError
      | .ok () =>
        return .ok (.stop { execution with
          status := stoppedStatus successful
          failureCode := some (dispatchErrorCode error.kind) } step)

/-- One round of the loop of `execute_steps`. -/
def executeAction (deadline : Nat) (execution : Execution) (successful : Nat) (action : ActionSpec)
    (step : ExecutionStep) : Core (Except CoreError Round) := do
  let remaining := deadline - (← await .instantNow)
  if remaining = 0 then
    return .ok (.stop { execution with failureCode := some "ritual_timeout" } step)
  else
    let started ← await .nowUtc
    let step := { step with status := .running, startedAt := started }
    match ← storage (.updateStep step) with
    | .error _ => return .error stepUpdateError
    | .ok () =>
      match ← resolveResource action with
      | .error error => return .error error
      | .ok resolved =>
        let defaultTimeout := (descriptor action).defaultTimeoutMs * nanosPerMilli
        let actionResult ← await (.execute action resolved (min defaultTimeout remaining))
        let finished ← await .nowUtc
        recordDispatch execution successful step (decide (remaining ≤ defaultTimeout)) finished
          actionResult

/-- The loop of `execute_steps`; `done` are the steps before the current index. Every action has
its step, so the branch without one is not taken. -/
def executeActions (deadline : Nat) (execution : Execution) (successful : Nat)
    (done : List ExecutionStep) :
    List ActionSpec → List ExecutionStep → Core (Except CoreError Progress)
  | [], steps => return .ok ⟨execution, done ++ steps, successful⟩
  | _ :: _, [] => return .ok ⟨execution, done, successful⟩
  | action :: actions, step :: steps => do
    match ← executeAction deadline execution successful action step with
    | .error error => return .error error
    | .ok (.next step) =>
      executeActions deadline execution (successful + 1) (done ++ [step]) actions steps
    | .ok (.stop execution step) => return .ok ⟨execution, done ++ step :: steps, successful⟩

def ExecutionStep.aborted (step : ExecutionStep) (finishedAt : OffsetDateTime)
    (resultCode redactedMessage : String) : ExecutionStep :=
  { step with
    status := .aborted
    finishedAt := some finishedAt
    resultCode := some resultCode
    redactedMessage := some redactedMessage }

def finalizeUnfinishedSteps (finishedAt : OffsetDateTime) (resultCode redactedMessage : String) :
    List ExecutionStep → Core (Except CoreError (List ExecutionStep))
  | [] => return .ok []
  | step :: steps => do
    if step.status = .pending ∨ step.status = .running then
      let step := step.aborted finishedAt resultCode redactedMessage
      match ← storage (.updateStep step) with
      | .error _ => return .error ("internal_error", "execution step could not be finalized")
      | .ok () =>
        match ← finalizeUnfinishedSteps finishedAt resultCode redactedMessage steps with
        | .error error => return .error error
        | .ok steps => return .ok (step :: steps)
    else
      match ← finalizeUnfinishedSteps finishedAt resultCode redactedMessage steps with
      | .error error => return .error error
      | .ok steps => return .ok (step :: steps)

/-- The three ways out of the loop: the final status, and the finalisation of what is left. -/
def finishSteps (executionFinished : OffsetDateTime) (progress : Progress) :
    Core (Except CoreError (Execution × List ExecutionStep)) := do
  if progress.execution.failureCode = some "ritual_timeout" then
    match ← finalizeUnfinishedSteps executionFinished "ritual_timeout" "ritual timed out"
        progress.steps with
    | .error error => return .error error
    | .ok steps =>
      return .ok ({ progress.execution with status := stoppedStatus progress.successful }, steps)
  else if progress.execution.failureCode = none then
    return .ok ({ progress.execution with status := .succeeded }, progress.steps)
  else
    match ← finalizeUnfinishedSteps executionFinished "stopped_after_failure"
        "action was not executed because an earlier action failed" progress.steps with
    | .error error => return .error error
    | .ok steps => return .ok (progress.execution, steps)

def concludeExecution (executionFinished : OffsetDateTime) (execution : Execution)
    (steps : List ExecutionStep) : Core (Except CoreError (Execution × List ExecutionStep)) := do
  let execution := { execution with finishedAt := some executionFinished }
  if ! terminalStepInvariant execution.status steps then
    return .error ("internal_error", "terminal execution has a non-terminal step")
  else
    match ← storage (.updateExecution execution) with
    | .error _ => return .error ("internal_error", "execution could not be finalized")
    | .ok () =>
      if (execution.status = .failed ∨ execution.status = .partially) ∧
          execution.failureCode = none then
        return .error ("action_failed", "execution failed")
      else return .ok (execution, steps)

def executeSteps (execution : Execution) (steps : List ExecutionStep) (definition : RitualDefinition) :
    Core (Except CoreError (Execution × List ExecutionStep)) := do
  let deadline := (← await .instantNow) + definition.execution.timeoutSeconds * nanosPerSecond
  match ← executeActions deadline execution 0 [] definition.actions steps with
  | .error error => return .error error
  | .ok progress =>
    let executionFinished ← await .nowUtc
    match ← finishSteps executionFinished progress with
    | .error error => return .error error
    | .ok (execution, steps) => concludeExecution executionFinished execution steps

/-! ## The run request -/

def newExecution (executionId ritualId : Uuid) (version : RitualVersion) (now : OffsetDateTime) :
    Execution :=
  ⟨executionId, ritualId, version.id, .running, .manual, now, none, none, now⟩

def newStep (executionId : Uuid) (now : OffsetDateTime) (index : Nat) (id : Uuid)
    (action : ActionSpec) : ExecutionStep :=
  ⟨id, executionId, index, action.actionType, .pending, none, none, now, none, none, none⟩

def newSteps (executionId : Uuid) (now : OffsetDateTime) (index : Nat) :
    List ActionSpec → Core (List ExecutionStep)
  | [] => return []
  | action :: actions => do
    let id ← await .newUuid
    let steps ← newSteps executionId now (index + 1) actions
    return newStep executionId now index id action :: steps

/-- The answer of a run to a ritual that is not active. -/
def notActiveMessage : RitualStatus → Option String
  | .active => none
  | .draft => some "draft rituals must be activated before execution"
  | .paused => some "paused rituals cannot execute"
  | .archived => some "archived rituals cannot execute"

/-- A run after its preflight: start the execution and execute its steps. -/
def startAndExecute (id ritualId : Uuid) (version : RitualVersion) (definition : RitualDefinition) :
    Core ResponseEnvelope := do
  let now ← await .nowUtc
  let executionId ← await .newUuid
  let execution := newExecution executionId ritualId version now
  let steps ← newSteps executionId now 0 definition.actions
  match ← storage (.startExecution execution steps) with
  | .error .ritualAlreadyRunning =>
    return .error id "ritual_already_running" "the ritual already has a running execution"
  | .error error => return storageError id error
  | .ok () =>
    match ← executeSteps execution steps definition with
    | .ok (execution, steps) => return .ok id (.ritualRun execution steps)
    | .error (code, message) => return .error id code message

def ritualRunResponse (crates : Crates) (id ritualId : Uuid) : Core ResponseEnvelope := do
  match ← storage (.getRitual ritualId) with
  | .error .notFound => return .error id "ritual_not_found" "ritual was not found"
  | .error error => return storageError id error
  | .ok (ritual, version, definition) =>
    match notActiveMessage ritual.status with
    | some message => return .error id "ritual_not_active" message
    | none =>
      match ← preflight crates version definition with
      | .error (code, message) => return .error id code message
      | .ok () => startAndExecute id ritualId version definition

end Fubun

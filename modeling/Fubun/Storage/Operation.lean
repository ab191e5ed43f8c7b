import Fubun.Storage.Database

/-! The operations of the storage writer. It executes them one at a time; each
is a command of the connection, one or several statements long. -/

namespace Fubun
open Relational

inductive Operation where
  | insertEvent (event : Event)
  | listEvents (since : Option OffsetDateTime) (limit : Nat)
  | schemaVersion
  | createResource (resource : Resource)
  | listResources
  | getResource (resourceId : Uuid)
  | createRitual (ritual : Ritual) (version : RitualVersion) (definition : RitualDefinition)
  | updateRitual (ritual : Ritual) (version : RitualVersion) (definition : RitualDefinition)
  | listRituals
  | getRitual (ritualId : Uuid)
  | setRitualStatus (ritualId : Uuid) (status : RitualStatus)
  | createApprovals (approvals : List Approval)
  | listApprovals (versionId : Uuid)
  | startExecution (execution : Execution) (steps : List ExecutionStep)
  | updateExecution (execution : Execution)
  | updateStep (step : ExecutionStep)
  | listExecutions
  | getExecution (executionId : Uuid)
  | abortRunningExecutions
  | counts
  | ensureObservationScope (scope : ObservationScope)
  | listObservationScopes (source : Option ObservationSource)
  | pauseObservationScope (scopeId : Uuid)
deriving DecidableEq

/-- `StorageResponse::Counts`. -/
structure Counts where
  running : Nat
  draft : Nat
  active : Nat
deriving DecidableEq, Repr

/-- The response that an operation is answered with when it succeeds. -/
abbrev Operation.Reply : Operation → Type
  | .listEvents .. => List Event
  | .schemaVersion => Nat
  | .createResource _ | .getResource _ => Resource
  | .listResources => List Resource
  | .createRitual .. | .updateRitual .. | .getRitual _ => Ritual × RitualVersion × RitualDefinition
  | .listRituals => List Ritual
  | .listApprovals _ => List Approval
  | .listExecutions => List Execution
  | .getExecution _ => Execution × List ExecutionStep
  | .counts => Counts
  | .ensureObservationScope _ | .pauseObservationScope _ => ObservationScope
  | .listObservationScopes _ => List ObservationScope
  | .insertEvent _ | .setRitualStatus .. | .createApprovals _ | .startExecution .. | .updateExecution _
  | .updateStep _ | .abortRunningExecutions => Unit

abbrev StorageCommand (α : Type) := Command Database StorageError α

/-- A statement of the storage connection; what else can go wrong with it is an I/O error. -/
def statement {α : Type} (t : Transaction Database StorageError α) : StorageCommand α :=
  Command.statement (.sqlite .io) t

def select {α : Type} (f : Database → Except StorageError α) : StorageCommand α := statement (query f)

section Commands
variable (crates : Crates) (now : OffsetDateTime)

def insertEvent (event : Event) : StorageCommand Unit :=
  if ! (crates.formats event.occurredAt && crates.formats event.receivedAt) then Command.fail .time
  else if event.adapter.sequenceNo > i64Max then Command.fail (.validation .sequenceOutOfRange)
  else statement (Database.insertEvent event)

def getRitual (ritualId : Uuid) : StorageCommand (Ritual × RitualVersion × RitualDefinition) := do
  let ritual ← select (findRitual ritualId)
  let version ← select (findVersion ritual.currentVersionId)
  match crates.parseDefinition version.canonicalJson with
  | some definition => pure (ritual, version, definition)
  | none => Command.fail .json

def updateExecution (execution : Execution) : StorageCommand Unit := do
  statement (Database.setExecution execution)
  if execution.status ≠ .running then statement (Database.releaseLock execution.id) else pure ()

def getExecution (executionId : Uuid) : StorageCommand (Execution × List ExecutionStep) := do
  let execution ← select (findExecution executionId)
  let steps ← select fun db => .ok (stepsOf executionId db)
  pure (execution, steps)

def abortRunningExecutions : StorageCommand Unit := do
  statement (Database.abortExecutions now)
  statement (Database.abortSteps now)
  statement Database.releaseLocks

def counts : StorageCommand Counts := do
  let running ← select fun db => .ok (db.executions.countP (·.status == .running))
  let draft ← select fun db => .ok (db.rituals.countP (·.status == .draft))
  let active ← select fun db => .ok (db.rituals.countP (·.status == .active))
  pure ⟨running, draft, active⟩

def ensureObservationScope (scope : ObservationScope) : StorageCommand ObservationScope := do
  match ← select fun db => .ok (findScope scope.source scope.resourceId db) with
  | some existing => do
    statement (Database.activateScope existing.id scope.updatedAt)
    pure { existing with status := .active, updatedAt := scope.updatedAt }
  | none => do
    statement (Database.insertScope scope)
    pure scope

def pauseObservationScope (scopeId : Uuid) : StorageCommand ObservationScope := do
  let scope ← select (findScopeById scopeId)
  if scope.status = .active then do
    statement (Database.pauseScope now scopeId)
    pure { scope with status := .paused, updatedAt := now }
  else pure scope

def executeOperation : (operation : Operation) → StorageCommand operation.Reply
  | .insertEvent event => insertEvent crates event
  | .listEvents since limit =>
    if since.all crates.formats then select fun db => .ok (listEvents crates since limit db) else Command.fail .time
  | .schemaVersion => select fun db => .ok (db.schemaMigrations.foldl max 0)
  | .createResource resource => statement (Database.createResource resource)
  | .listResources => select fun db => .ok (listResources crates db)
  | .getResource resourceId => select (getResource resourceId)
  | .createRitual ritual version definition => do
    statement (Database.createRitual ritual version)
    pure (ritual, version, definition)
  | .updateRitual ritual version definition => do
    statement (Database.updateRitual ritual version)
    pure (ritual, version, definition)
  | .listRituals => select fun db => .ok (listRituals crates db)
  | .getRitual ritualId => getRitual crates ritualId
  | .setRitualStatus ritualId status => statement (Database.setRitualStatus now ritualId status)
  | .createApprovals approvals => statement (Database.createApprovals approvals)
  | .listApprovals versionId => select fun db => .ok (listApprovals versionId db)
  | .startExecution execution steps => statement (Database.startExecution execution steps)
  | .updateExecution execution => updateExecution execution
  | .updateStep step => statement (Database.updateStep step)
  | .listExecutions => select fun db => .ok (listExecutions crates db)
  | .getExecution executionId => getExecution executionId
  | .abortRunningExecutions => abortRunningExecutions now
  | .counts => counts
  | .ensureObservationScope scope => ensureObservationScope scope
  | .listObservationScopes source => select fun db => .ok (listObservationScopes crates source db)
  | .pauseObservationScope scopeId => pauseObservationScope now scopeId

end Commands
end Fubun

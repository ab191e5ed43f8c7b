import Fubun.Policy

/-! The tables of the daemon's database and the transactions over them. A row
holds the value that the storage layer writes to and reads back from its columns. -/

namespace Fubun
open Relational

inductive SqliteError where
  | constraintViolation
  | queryReturnedNoRows
  | io
deriving DecidableEq, Repr

inductive StorageError where
  | sqlite (error : SqliteError)
  | json
  | time
  | validation (error : ValidationError)
  | duplicateEvent
  | notFound
  | duplicateResource
  | ritualAlreadyRunning
deriving DecidableEq, Repr

structure AdapterRow where
  instanceId : Uuid
  adapterId : String
  adapterVersion : String
  lastSequenceNo : Nat
  createdAt : OffsetDateTime
  updatedAt : OffsetDateTime
deriving DecidableEq, Repr

structure RitualExecutionLock where
  ritualId : Uuid
  executionId : Uuid
deriving DecidableEq, Repr

structure Database where
  schemaMigrations : List Nat
  adapters : List AdapterRow
  events : List Event
  resources : List Resource
  rituals : List Ritual
  ritualVersions : List RitualVersion
  ritualApprovals : List Approval
  executions : List Execution
  executionSteps : List ExecutionStep
  ritualExecutionLocks : List RitualExecutionLock
  observationScopes : List ObservationScope
deriving DecidableEq, Repr

/-- A fresh database after all migrations. -/
def Database.empty : Database := ⟨[1, 2, 3, 4], [], [], [], [], [], [], [], [], [], []⟩

/-! ## Keys -/

/-- `PRIMARY KEY(id)` and `UNIQUE(adapter_instance_id, sequence_no)`. -/
def Event.clashes (a b : Event) : Bool :=
  a.id == b.id ||
    (a.adapter.instanceId == b.adapter.instanceId && a.adapter.sequenceNo == b.adapter.sequenceNo)

/-- `PRIMARY KEY(id)` and `UNIQUE(canonical_locator)`. -/
def Resource.clashes (a b : Resource) : Bool := a.id == b.id || a.canonicalLocator == b.canonicalLocator

def Ritual.clashes (a b : Ritual) : Bool := a.id == b.id

/-- `PRIMARY KEY(id)` and `UNIQUE(ritual_id, version)`. -/
def RitualVersion.clashes (a b : RitualVersion) : Bool :=
  a.id == b.id || (a.ritualId == b.ritualId && a.version == b.version)

def Approval.clashes (a b : Approval) : Bool := a.id == b.id

def Execution.clashes (a b : Execution) : Bool := a.id == b.id

/-- `PRIMARY KEY(id)` and `UNIQUE(execution_id, step_index)`. -/
def ExecutionStep.clashes (a b : ExecutionStep) : Bool :=
  a.id == b.id || (a.executionId == b.executionId && a.stepIndex == b.stepIndex)

def RitualExecutionLock.clashes (a b : RitualExecutionLock) : Bool := a.ritualId == b.ritualId

/-- `PRIMARY KEY(id)` and `UNIQUE(source, resource_id)`. -/
def ObservationScope.clashes (a b : ObservationScope) : Bool :=
  a.id == b.id || (a.source == b.source && a.resourceId == b.resourceId)

def constraintViolation : StorageError := .sqlite .constraintViolation

/-! ## Statements on the rows of one table -/

def adapterRow (event : Event) : AdapterRow :=
  ⟨event.adapter.instanceId, event.adapter.id, event.adapter.version, event.adapter.sequenceNo,
    event.receivedAt, event.receivedAt⟩

def upsertAdapter (event : Event) : List AdapterRow → List AdapterRow :=
  upsertRow (·.instanceId == event.adapter.instanceId)
    (fun row => { row with
      adapterId := event.adapter.id
      adapterVersion := event.adapter.version
      lastSequenceNo := max row.lastSequenceNo event.adapter.sequenceNo
      updatedAt := event.receivedAt })
    (adapterRow event)

def updateRitualRow (ritual : Ritual) (versionId : Uuid) : List Ritual → List Ritual :=
  updateRows (·.id == ritual.id) fun row => { row with
    name := ritual.name
    status := ritual.status
    currentVersionId := versionId
    updatedAt := ritual.updatedAt }

def setStatusRow (now : OffsetDateTime) (ritualId : Uuid) (status : RitualStatus) :
    List Ritual → List Ritual :=
  updateRows (·.id == ritualId) fun row => { row with status := status, updatedAt := now }

def updateExecutionRow (execution : Execution) : List Execution → List Execution :=
  updateRows (·.id == execution.id) fun row => { row with
    status := execution.status
    startedAt := execution.startedAt
    finishedAt := execution.finishedAt
    failureCode := execution.failureCode }

def releaseLockRow (executionId : Uuid) : List RitualExecutionLock → List RitualExecutionLock :=
  deleteRows (·.executionId == executionId)

def updateStepRow (step : ExecutionStep) : List ExecutionStep → List ExecutionStep :=
  updateRows (·.id == step.id) fun row => { row with
    status := step.status
    adapterId := step.adapterId
    adapterInstanceId := step.adapterInstanceId
    startedAt := step.startedAt
    finishedAt := step.finishedAt
    resultCode := step.resultCode
    redactedMessage := step.redactedMessage }

def Execution.abort (now : OffsetDateTime) (execution : Execution) : Execution :=
  { execution with status := .aborted, finishedAt := some now, failureCode := some "daemon_restarted" }

/-- The `WHERE` clause that selects what a restart has aborted. -/
def Execution.restarted (execution : Execution) : Bool :=
  execution.status == .aborted && execution.failureCode == some "daemon_restarted"

def ExecutionStep.abort (now : OffsetDateTime) (step : ExecutionStep) : ExecutionStep :=
  { step with
    status := .aborted
    finishedAt := some now
    resultCode := some "daemon_restarted"
    redactedMessage := some "execution aborted because daemon restarted" }

def abortExecutionRows (now : OffsetDateTime) : List Execution → List Execution :=
  updateRows (·.status == .running) (·.abort now)

def abortStepRows (now : OffsetDateTime) (executions : List Execution) :
    List ExecutionStep → List ExecutionStep :=
  updateRows
    (fun row => (row.status == .running || row.status == .pending) &&
      executions.any fun execution => execution.id == row.executionId && execution.restarted)
    (·.abort now)

def activateScopeRow (scopeId : Uuid) (updatedAt : OffsetDateTime) :
    List ObservationScope → List ObservationScope :=
  updateRows (·.id == scopeId) fun row => { row with status := .active, updatedAt := updatedAt }

def pauseScopeRow (now : OffsetDateTime) (scopeId : Uuid) :
    List ObservationScope → List ObservationScope :=
  updateRows (fun row => row.id == scopeId && row.status == .active)
    fun row => { row with status := .paused, updatedAt := now }

/-! ## Transactions -/

namespace Database

/-- The transaction of `insert_event`; its second insertion is the one that can violate a key. -/
def insertEvent (event : Event) : Transaction Database StorageError Unit := fun db => do
  let events ← insertRow Event.clashes .duplicateEvent db.events event
  .ok ((), { db with adapters := upsertAdapter event db.adapters, events })

/-- The statement binds `created_at` to both timestamps. -/
def createResource (resource : Resource) : Transaction Database StorageError Resource := fun db => do
  let resources ← insertRow Resource.clashes .duplicateResource db.resources
    { resource with updatedAt := resource.createdAt }
  .ok (resource, { db with resources })

def insertRitualVersion (version : RitualVersion) : Transaction Database StorageError Unit := fun db => do
  require (db.rituals.any (·.id == version.ritualId)) constraintViolation
  let ritualVersions ← insertRow RitualVersion.clashes constraintViolation db.ritualVersions version
  .ok ((), { db with ritualVersions })

def createRitual (ritual : Ritual) (version : RitualVersion) :
    Transaction Database StorageError Unit := fun db => do
  let rituals ← insertRow Ritual.clashes constraintViolation db.rituals
    { ritual with currentVersionId := version.id }
  insertRitualVersion version { db with rituals }

def updateRitual (ritual : Ritual) (version : RitualVersion) :
    Transaction Database StorageError Unit := fun db => do
  require (db.rituals.any (·.id == ritual.id)) .notFound
  insertRitualVersion version { db with rituals := updateRitualRow ritual version.id db.rituals }

def setRitualStatus (now : OffsetDateTime) (ritualId : Uuid) (status : RitualStatus) :
    Transaction Database StorageError Unit := fun db => do
  require (db.rituals.any (·.id == ritualId)) .notFound
  .ok ((), { db with rituals := setStatusRow now ritualId status db.rituals })

def createApprovals (approvals : List Approval) : Transaction Database StorageError Unit := fun db => do
  require (approvals.all fun approval => db.ritualVersions.any (·.id == approval.ritualVersionId))
    constraintViolation
  let ritualApprovals ← insertRows Approval.clashes constraintViolation db.ritualApprovals approvals
  .ok ((), { db with ritualApprovals })

/-- The execution's row goes in first; a lock that is held undoes it with the transaction. -/
def startExecution (execution : Execution) (steps : List ExecutionStep) :
    Transaction Database StorageError Unit := fun db => do
  require (db.rituals.any (·.id == execution.ritualId)) constraintViolation
  require (db.ritualVersions.any (·.id == execution.ritualVersionId)) constraintViolation
  let executions ← insertRow Execution.clashes constraintViolation db.executions execution
  let ritualExecutionLocks ← insertRow RitualExecutionLock.clashes .ritualAlreadyRunning
    db.ritualExecutionLocks ⟨execution.ritualId, execution.id⟩
  require (steps.all fun step => executions.any (·.id == step.executionId)) constraintViolation
  let executionSteps ← insertRows ExecutionStep.clashes constraintViolation db.executionSteps steps
  .ok ((), { db with executions, executionSteps, ritualExecutionLocks })

/-- The first statement of `update_execution`. -/
def setExecution (execution : Execution) : Transaction Database StorageError Unit := fun db => do
  require (db.executions.any (·.id == execution.id)) .notFound
  .ok ((), { db with executions := updateExecutionRow execution db.executions })

/-- The second statement of `update_execution`. -/
def releaseLock (executionId : Uuid) : Transaction Database StorageError Unit := fun db =>
  .ok ((), { db with ritualExecutionLocks := releaseLockRow executionId db.ritualExecutionLocks })

def updateStep (step : ExecutionStep) : Transaction Database StorageError Unit := fun db => do
  require (db.executionSteps.any (·.id == step.id)) .notFound
  .ok ((), { db with executionSteps := updateStepRow step db.executionSteps })

/-! The three statements of `abort_running_executions`. -/

def executionsAborted (now : OffsetDateTime) (db : Database) : Database :=
  { db with executions := abortExecutionRows now db.executions }

def stepsAborted (now : OffsetDateTime) (db : Database) : Database :=
  { db with executionSteps := abortStepRows now db.executions db.executionSteps }

def unlocked (db : Database) : Database := { db with ritualExecutionLocks := [] }

def abortExecutions (now : OffsetDateTime) : Transaction Database StorageError Unit := fun db =>
  .ok ((), db.executionsAborted now)

def abortSteps (now : OffsetDateTime) : Transaction Database StorageError Unit := fun db =>
  .ok ((), db.stepsAborted now)

def releaseLocks : Transaction Database StorageError Unit := fun db => .ok ((), db.unlocked)

def activateScope (scopeId : Uuid) (updatedAt : OffsetDateTime) :
    Transaction Database StorageError Unit := fun db =>
  .ok ((), { db with observationScopes := activateScopeRow scopeId updatedAt db.observationScopes })

def insertScope (scope : ObservationScope) : Transaction Database StorageError Unit := fun db => do
  require (db.resources.any (·.id == scope.resourceId)) constraintViolation
  let observationScopes ← insertRow ObservationScope.clashes constraintViolation
    db.observationScopes scope
  .ok ((), { db with observationScopes })

def pauseScope (now : OffsetDateTime) (scopeId : Uuid) :
    Transaction Database StorageError Unit := fun db =>
  .ok ((), { db with observationScopes := pauseScopeRow now scopeId db.observationScopes })

end Database

/-! ## Reads -/

/-- `ORDER BY created_at ASC, id ASC`, on the text of the timestamp. -/
def createdBefore (a b : String × Uuid) : Bool := a.1 < b.1 || (a.1 == b.1 && a.2 ≤ b.2)

section Reads
variable (crates : Crates)

def formatTs (instant : OffsetDateTime) : String := crates.formatRfc3339 instant

def listEvents (since : Option OffsetDateTime) (limit : Nat) (db : Database) : List Event :=
  let received := db.events.filter fun event =>
    (since.map fun since => decide (formatTs crates since ≤ formatTs crates event.receivedAt)).getD true
  (orderBy (fun a b => createdBefore (formatTs crates a.receivedAt, a.id)
    (formatTs crates b.receivedAt, b.id)) received).take (min limit 1000)

def listResources (db : Database) : List Resource :=
  orderBy (fun a b => createdBefore (formatTs crates a.createdAt, a.id)
    (formatTs crates b.createdAt, b.id)) db.resources

def getResource (resourceId : Uuid) (db : Database) : Except StorageError Resource :=
  match db.resources.find? (·.id == resourceId) with
  | some resource => .ok resource
  | none => .error .notFound

def listRituals (db : Database) : List Ritual :=
  orderBy (fun a b => createdBefore (formatTs crates a.createdAt, a.id)
    (formatTs crates b.createdAt, b.id)) db.rituals

def findRitual (ritualId : Uuid) (db : Database) : Except StorageError Ritual :=
  match db.rituals.find? (·.id == ritualId) with
  | some ritual => .ok ritual
  | none => .error .notFound

def findVersion (versionId : Uuid) (db : Database) : Except StorageError RitualVersion :=
  match db.ritualVersions.find? (·.id == versionId) with
  | some version => .ok version
  | none => .error (.sqlite .queryReturnedNoRows)

def listApprovals (versionId : Uuid) (db : Database) : List Approval :=
  orderBy (fun a b => decide (a.id ≤ b.id))
    (db.ritualApprovals.filter (·.ritualVersionId == versionId))

/-- `ORDER BY created_at DESC, id DESC`. -/
def listExecutions (db : Database) : List Execution :=
  orderBy (fun a b => createdBefore (formatTs crates b.createdAt, b.id)
    (formatTs crates a.createdAt, a.id)) db.executions

def findExecution (executionId : Uuid) (db : Database) : Except StorageError Execution :=
  match db.executions.find? (·.id == executionId) with
  | some execution => .ok execution
  | none => .error .notFound

def stepsOf (executionId : Uuid) (db : Database) : List ExecutionStep :=
  orderBy (fun a b => decide (a.stepIndex ≤ b.stepIndex))
    (db.executionSteps.filter (·.executionId == executionId))

def findScope (source : ObservationSource) (resourceId : Uuid) (db : Database) :
    Option ObservationScope :=
  db.observationScopes.find? fun scope => scope.source == source && scope.resourceId == resourceId

def findScopeById (scopeId : Uuid) (db : Database) : Except StorageError ObservationScope :=
  match db.observationScopes.find? (·.id == scopeId) with
  | some scope => .ok scope
  | none => .error .notFound

def listObservationScopes (source : Option ObservationSource) (db : Database) :
    List ObservationScope :=
  orderBy (fun a b => createdBefore (formatTs crates a.createdAt, a.id)
    (formatTs crates b.createdAt, b.id))
    (db.observationScopes.filter fun scope => (source.map (scope.source == ·)).getD true)

end Reads
end Fubun

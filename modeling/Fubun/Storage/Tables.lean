import Fubun.Storage.Effect

/-! What can happen to each table: an operation leaves it alone, or it is one of
the few that write it. -/

namespace Fubun
open Relational

inductive TableName where
  | adapters
  | events
  | resources
  | rituals
  | ritualVersions
  | ritualApprovals
  | executions
  | executionSteps
  | ritualExecutionLocks
  | observationScopes
deriving DecidableEq

def TableName.Same (db db' : Database) : TableName → Prop
  | .adapters => db'.adapters = db.adapters
  | .events => db'.events = db.events
  | .resources => db'.resources = db.resources
  | .rituals => db'.rituals = db.rituals
  | .ritualVersions => db'.ritualVersions = db.ritualVersions
  | .ritualApprovals => db'.ritualApprovals = db.ritualApprovals
  | .executions => db'.executions = db.executions
  | .executionSteps => db'.executionSteps = db.executionSteps
  | .ritualExecutionLocks => db'.ritualExecutionLocks = db.ritualExecutionLocks
  | .observationScopes => db'.observationScopes = db.observationScopes

theorem TableName.same_refl (table : TableName) (db : Database) : table.Same db db := by
  cases table <;> rfl

def Operation.writes : Operation → List TableName
  | .insertEvent _ => [.adapters, .events]
  | .createResource _ => [.resources]
  | .createRitual .. | .updateRitual .. => [.rituals, .ritualVersions]
  | .setRitualStatus .. => [.rituals]
  | .createApprovals _ => [.ritualApprovals]
  | .startExecution .. | .abortRunningExecutions =>
    [.executions, .executionSteps, .ritualExecutionLocks]
  | .updateExecution _ => [.executions, .ritualExecutionLocks]
  | .updateStep _ => [.executionSteps]
  | .ensureObservationScope _ | .pauseObservationScope _ => [.observationScopes]
  | .listEvents .. | .schemaVersion | .listResources | .getResource _ | .listRituals | .getRitual _
  | .listApprovals _ | .listExecutions | .getExecution _ | .counts | .listObservationScopes _ => []

section Frame
variable {crates : Crates} {now : OffsetDateTime} {db db' : Database} {o : Operation}
  {r : Except StorageError o.Reply} {table : TableName}

theorem Effect.same_of_eq (h : db' = db) : table.Same db db' := h ▸ table.same_refl db

theorem Effect.eq_of_reads (h : Effect crates now db db' o r) (ho : o.writes = []) : db' = db := by
  cases o with
  | getResource resourceId => cases r with
    | ok _ => exact h.2
    | error _ => exact h
  | getRitual ritualId => cases r with
    | ok _ => exact h.2.2.2
    | error _ => exact h
  | listApprovals versionId => cases r with
    | ok _ => exact h.2
    | error _ => exact h
  | listResources => cases r with
    | ok _ => exact h.2
    | error _ => exact h
  | listObservationScopes source => cases r with
    | ok _ => exact h.2
    | error _ => exact h
  | listEvents since limit => cases r <;> exact h
  | schemaVersion => cases r <;> exact h
  | listRituals => cases r <;> exact h
  | listExecutions => cases r <;> exact h
  | getExecution executionId => cases r <;> exact h
  | counts => cases r <;> exact h
  | _ => simp [Operation.writes] at ho

/-- What failed has left everything as it was, unless it commits more than once. -/
theorem Effect.frame_error {error : StorageError} (h : Effect crates now db db' o (.error error)) (ht : table ∉ o.writes) :
    table.Same db db' := by
  cases o with
  | updateExecution execution => rcases h with rfl | rfl <;> cases table <;> first | rfl | simp [Operation.writes] at ht
  | abortRunningExecutions => rcases h with rfl | rfl | rfl <;> cases table <;> first | rfl | simp [Operation.writes] at ht
  | _ => exact same_of_eq h

theorem Effect.frame_ok {reply : o.Reply} (h : Effect crates now db db' o (.ok reply)) (ht : table ∉ o.writes) :
    table.Same db db' := by
  cases o with
  | insertEvent event =>
    -- every table that is not written is the same in both databases
    obtain ⟨-, rfl⟩ := insertEvent_ok.mp h.2
    cases table <;> first | rfl | simp [Operation.writes] at ht
  | createResource resource =>
    obtain ⟨-, -, rfl⟩ := createResource_ok.mp h
    cases table <;> first | rfl | simp [Operation.writes] at ht
  | createRitual ritual version definition =>
    obtain ⟨-, -, -, rfl⟩ := createRitual_ok.mp h.2
    cases table <;> first | rfl | simp [Operation.writes] at ht
  | updateRitual ritual version definition =>
    obtain ⟨-, -, -, rfl⟩ := updateRitual_ok.mp h.2
    cases table <;> first | rfl | simp [Operation.writes] at ht
  | setRitualStatus ritualId status =>
    obtain ⟨-, rfl⟩ := setRitualStatus_ok.mp h
    cases table <;> first | rfl | simp [Operation.writes] at ht
  | createApprovals approvals =>
    obtain ⟨-, rfl⟩ := createApprovals_ok h
    cases table <;> first | rfl | simp [Operation.writes] at ht
  | startExecution execution steps =>
    obtain ⟨-, -, -, rfl⟩ := startExecution_ok h
    cases table <;> first | rfl | simp [Operation.writes] at ht
  | updateExecution execution =>
    obtain ⟨-, rfl⟩ := h
    cases table <;> first | rfl | simp [Operation.writes] at ht
  | updateStep step =>
    obtain ⟨-, rfl⟩ := updateStep_ok.mp h
    cases table <;> first | rfl | simp [Operation.writes] at ht
  | abortRunningExecutions =>
    obtain rfl := h
    cases table <;> first | rfl | simp [Operation.writes] at ht
  | ensureObservationScope scope =>
    rcases h with ⟨existing, -, -, rfl⟩ | ⟨-, -, h⟩
    · cases table <;> first | rfl | simp [Operation.writes] at ht
    · obtain ⟨-, -, rfl⟩ := insertScope_ok h
      cases table <;> first | rfl | simp [Operation.writes] at ht
  | pauseObservationScope scopeId =>
    obtain ⟨scope, -, ⟨-, -, rfl⟩ | ⟨-, -, h⟩⟩ := h
    · cases table <;> first | rfl | simp [Operation.writes] at ht
    · exact same_of_eq h
  | _ => exact same_of_eq (h.eq_of_reads rfl)

theorem Effect.frame (h : Effect crates now db db' o r) (ht : table ∉ o.writes) : table.Same db db' := by
  cases r with
  | ok reply => exact h.frame_ok ht
  | error error => exact h.frame_error ht

/-! ## Table by table -/

abbrev Answer := (o : Operation) × Except StorageError o.Reply

theorem Effect.events (h : Effect crates now db db' o r) : db'.events = db.events ∨
    ∃ event, (⟨o, r⟩ : Answer) = ⟨.insertEvent event, .ok ()⟩ ∧
      event.IsStorable crates ∧ (∀ row ∈ db.events, row.clashes event = false) ∧
      db'.events = db.events ++ [event] := by
  by_cases ht : TableName.events ∈ o.writes
  · cases o with
    | insertEvent event =>
      cases r with
      | ok _ =>
        obtain ⟨hc, rfl⟩ := insertEvent_ok.mp h.2
        exact .inr ⟨event, rfl, h.1, hc, rfl⟩
      | error _ => exact .inl (h ▸ rfl)
    | _ => simp [Operation.writes] at ht
  · exact .inl (h.frame ht)

theorem Effect.resources (h : Effect crates now db db' o r) : db'.resources = db.resources ∨
    ∃ resource, (⟨o, r⟩ : Answer) = ⟨.createResource resource, .ok resource⟩ ∧
      (∀ row ∈ db.resources, row.clashes resource = false) ∧
      db'.resources = db.resources ++ [{ resource with updatedAt := resource.createdAt }] := by
  by_cases ht : TableName.resources ∈ o.writes
  · cases o with
    | createResource resource =>
      cases r with
      | ok reply =>
        obtain ⟨hreply, hc, hdb⟩ := createResource_ok.mp h
        exact .inr ⟨resource, by rw [hreply], hc, by rw [hdb]⟩
      | error _ => exact .inl (h ▸ rfl)
    | _ => simp [Operation.writes] at ht
  · exact .inl (h.frame ht)

theorem Effect.rituals (h : Effect crates now db db' o r) : db'.rituals = db.rituals ∨
    (∃ ritual version definition,
      (⟨o, r⟩ : Answer) = ⟨.createRitual ritual version definition, .ok (ritual, version, definition)⟩ ∧
      (∀ row ∈ db.rituals, row.clashes ritual = false) ∧
      (∀ row ∈ db.ritualVersions, row.clashes version = false) ∧
      db'.rituals = db.rituals ++ [{ ritual with currentVersionId := version.id }]) ∨
    (∃ ritual version definition,
      (⟨o, r⟩ : Answer) = ⟨.updateRitual ritual version definition, .ok (ritual, version, definition)⟩ ∧
      (∀ row ∈ db.ritualVersions, row.clashes version = false) ∧
      db'.rituals = updateRitualRow ritual version.id db.rituals) ∨
    (∃ ritualId status, (⟨o, r⟩ : Answer) = ⟨.setRitualStatus ritualId status, .ok ()⟩ ∧
      db'.rituals = setStatusRow now ritualId status db.rituals) := by
  by_cases ht : TableName.rituals ∈ o.writes
  · cases o with
    | createRitual ritual version definition =>
      cases r with
      | ok _ =>
        obtain ⟨rfl, h⟩ := h
        obtain ⟨hr, -, hv, rfl⟩ := createRitual_ok.mp h
        exact .inr (.inl ⟨ritual, version, definition, rfl, hr, hv, rfl⟩)
      | error _ => exact .inl (h ▸ rfl)
    | updateRitual ritual version definition =>
      cases r with
      | ok _ =>
        obtain ⟨rfl, h⟩ := h
        obtain ⟨-, -, hv, rfl⟩ := updateRitual_ok.mp h
        exact .inr (.inr (.inl ⟨ritual, version, definition, rfl, hv, rfl⟩))
      | error _ => exact .inl (h ▸ rfl)
    | setRitualStatus ritualId status =>
      cases r with
      | ok _ =>
        obtain ⟨-, rfl⟩ := setRitualStatus_ok.mp h
        exact .inr (.inr (.inr ⟨ritualId, status, rfl, rfl⟩))
      | error _ => exact .inl (h ▸ rfl)
    | _ => simp [Operation.writes] at ht
  · exact .inl (h.frame ht)

theorem Effect.ritualVersions (h : Effect crates now db db' o r) :
    db'.ritualVersions = db.ritualVersions ∨
    ∃ ritual version definition,
      ((⟨o, r⟩ : Answer) = ⟨.createRitual ritual version definition, .ok (ritual, version, definition)⟩ ∨
        (⟨o, r⟩ : Answer) = ⟨.updateRitual ritual version definition, .ok (ritual, version, definition)⟩) ∧
      (∀ row ∈ db.ritualVersions, row.clashes version = false) ∧
      db'.ritualVersions = db.ritualVersions ++ [version] := by
  by_cases ht : TableName.ritualVersions ∈ o.writes
  · cases o with
    | createRitual ritual version definition =>
      cases r with
      | ok _ =>
        obtain ⟨rfl, h⟩ := h
        obtain ⟨-, -, hv, rfl⟩ := createRitual_ok.mp h
        exact .inr ⟨ritual, version, definition, .inl rfl, hv, rfl⟩
      | error _ => exact .inl (h ▸ rfl)
    | updateRitual ritual version definition =>
      cases r with
      | ok _ =>
        obtain ⟨rfl, h⟩ := h
        obtain ⟨-, -, hv, rfl⟩ := updateRitual_ok.mp h
        exact .inr ⟨ritual, version, definition, .inr rfl, hv, rfl⟩
      | error _ => exact .inl (h ▸ rfl)
    | _ => simp [Operation.writes] at ht
  · exact .inl (h.frame ht)

theorem Effect.ritualApprovals (h : Effect crates now db db' o r) :
    db'.ritualApprovals = db.ritualApprovals ∨
    ∃ approvals, (⟨o, r⟩ : Answer) = ⟨.createApprovals approvals, .ok ()⟩ ∧
      (∀ approval ∈ approvals, ∃ row ∈ db.ritualVersions, row.id = approval.ritualVersionId) ∧
      db'.ritualApprovals = db.ritualApprovals ++ approvals := by
  by_cases ht : TableName.ritualApprovals ∈ o.writes
  · cases o with
    | createApprovals approvals =>
      cases r with
      | ok _ =>
        obtain ⟨hv, rfl⟩ := createApprovals_ok h
        exact .inr ⟨approvals, rfl, hv, rfl⟩
      | error _ => exact .inl (h ▸ rfl)
    | _ => simp [Operation.writes] at ht
  · exact .inl (h.frame ht)

theorem Effect.observationScopes (h : Effect crates now db db' o r) :
    db'.observationScopes = db.observationScopes ∨
    (∃ scope existing, (⟨o, r⟩ : Answer) =
        ⟨.ensureObservationScope scope,
          .ok { existing with status := .active, updatedAt := scope.updatedAt }⟩ ∧
      findScope scope.source scope.resourceId db = some existing ∧
      db'.observationScopes = activateScopeRow existing.id scope.updatedAt db.observationScopes) ∨
    (∃ scope, (⟨o, r⟩ : Answer) = ⟨.ensureObservationScope scope, .ok scope⟩ ∧
      (∃ row ∈ db.resources, row.id = scope.resourceId) ∧
      (∀ row ∈ db.observationScopes, row.clashes scope = false) ∧
      db'.observationScopes = db.observationScopes ++ [scope]) ∨
    (∃ scopeId scope, (⟨o, r⟩ : Answer) =
        ⟨.pauseObservationScope scopeId, .ok { scope with status := .paused, updatedAt := now }⟩ ∧
      findScopeById scopeId db = .ok scope ∧
      db'.observationScopes = pauseScopeRow now scopeId db.observationScopes) := by
  by_cases ht : TableName.observationScopes ∈ o.writes
  · cases o with
    | ensureObservationScope scope =>
      cases r with
      | ok reply =>
        rcases h with ⟨existing, hf, rfl, rfl⟩ | ⟨-, hreply, h⟩
        · exact .inr (.inl ⟨scope, existing, rfl, hf, rfl⟩)
        · obtain ⟨hr, hc, hdb⟩ := insertScope_ok h
          exact .inr (.inr (.inl ⟨scope, by rw [hreply], hr, hc, by rw [hdb]⟩))
      | error _ => exact .inl (h ▸ rfl)
    | pauseObservationScope scopeId =>
      cases r with
      | ok _ =>
        obtain ⟨scope, hf, ⟨-, rfl, rfl⟩ | ⟨-, -, rfl⟩⟩ := h
        · exact .inr (.inr (.inr ⟨scopeId, scope, rfl, hf, rfl⟩))
        · exact .inl rfl
      | error _ => exact .inl (h ▸ rfl)
    | _ => simp [Operation.writes] at ht
  · exact .inl (h.frame ht)

end Frame

/-! ## Executions, their steps and locks -/

/-- What can happen to the three tables of executions; an update and a restart can stop between
their statements. -/
inductive ExecutionChange (now : OffsetDateTime) (db db' : Database) : Answer → Prop
  | same {x : Answer} (executions : db'.executions = db.executions)
      (steps : db'.executionSteps = db.executionSteps)
      (locks : db'.ritualExecutionLocks = db.ritualExecutionLocks) : ExecutionChange now db db' x
  | start (execution : Execution) (rows : List ExecutionStep)
      (fresh : ∀ row ∈ db.executions, row.clashes execution = false)
      (unlocked : ∀ lock ∈ db.ritualExecutionLocks,
        lock.clashes ⟨execution.ritualId, execution.id⟩ = false)
      (inserted : insertRows ExecutionStep.clashes constraintViolation db.executionSteps rows =
        .ok (db.executionSteps ++ rows))
      (executions : db'.executions = db.executions ++ [execution])
      (steps : db'.executionSteps = db.executionSteps ++ rows)
      (locks : db'.ritualExecutionLocks =
        db.ritualExecutionLocks ++ [⟨execution.ritualId, execution.id⟩]) :
      ExecutionChange now db db' ⟨.startExecution execution rows, .ok ()⟩
  | update (execution : Execution) (found : ∃ row ∈ db.executions, row.id = execution.id)
      (executions : db'.executions = updateExecutionRow execution db.executions)
      (steps : db'.executionSteps = db.executionSteps)
      (locks : db'.ritualExecutionLocks =
        if execution.status ≠ .running then releaseLockRow execution.id db.ritualExecutionLocks
        else db.ritualExecutionLocks) :
      ExecutionChange now db db' ⟨.updateExecution execution, .ok ()⟩
  | updateHalf (execution : Execution) (e : StorageError)
      (executions : db'.executions = updateExecutionRow execution db.executions)
      (steps : db'.executionSteps = db.executionSteps)
      (locks : db'.ritualExecutionLocks = db.ritualExecutionLocks) :
      ExecutionChange now db db' ⟨.updateExecution execution, .error e⟩
  | step (step : ExecutionStep) (found : ∃ row ∈ db.executionSteps, row.id = step.id)
      (executions : db'.executions = db.executions)
      (steps : db'.executionSteps = updateStepRow step db.executionSteps)
      (locks : db'.ritualExecutionLocks = db.ritualExecutionLocks) :
      ExecutionChange now db db' ⟨.updateStep step, .ok ()⟩
  | abortExecutions (e : StorageError)
      (executions : db'.executions = abortExecutionRows now db.executions)
      (steps : db'.executionSteps = db.executionSteps)
      (locks : db'.ritualExecutionLocks = db.ritualExecutionLocks) :
      ExecutionChange now db db' ⟨.abortRunningExecutions, .error e⟩
  | abortSteps (e : StorageError)
      (executions : db'.executions = abortExecutionRows now db.executions)
      (steps : db'.executionSteps =
        abortStepRows now (abortExecutionRows now db.executions) db.executionSteps)
      (locks : db'.ritualExecutionLocks = db.ritualExecutionLocks) :
      ExecutionChange now db db' ⟨.abortRunningExecutions, .error e⟩
  | abort (executions : db'.executions = abortExecutionRows now db.executions)
      (steps : db'.executionSteps =
        abortStepRows now (abortExecutionRows now db.executions) db.executionSteps)
      (locks : db'.ritualExecutionLocks = []) :
      ExecutionChange now db db' ⟨.abortRunningExecutions, .ok ()⟩

theorem Effect.executions {crates : Crates} {now : OffsetDateTime} {db db' : Database} {o : Operation}
    {r : Except StorageError o.Reply} (h : Effect crates now db db' o r) :
    ExecutionChange now db db' ⟨o, r⟩ := by
  by_cases ht : TableName.executions ∈ o.writes ∨ TableName.executionSteps ∈ o.writes ∨
      TableName.ritualExecutionLocks ∈ o.writes
  · cases o with
    | startExecution execution steps =>
      cases r with
      | ok _ =>
        obtain ⟨hf, hl, hi, rfl⟩ := startExecution_ok h
        exact .start execution steps hf hl hi rfl rfl rfl
      | error _ => exact .same (h ▸ rfl) (h ▸ rfl) (h ▸ rfl)
    | updateExecution execution =>
      cases r with
      | ok _ =>
        obtain ⟨hf, rfl⟩ := h
        exact .update execution hf rfl rfl rfl
      | error e =>
        -- a failing update has written nothing, or the row and not its lock
        rcases h with rfl | rfl
        · exact .same rfl rfl rfl
        · exact .updateHalf execution e rfl rfl rfl
    | updateStep step =>
      cases r with
      | ok _ =>
        obtain ⟨hf, rfl⟩ := updateStep_ok.mp h
        exact .step step hf rfl rfl rfl
      | error _ => exact .same (h ▸ rfl) (h ▸ rfl) (h ▸ rfl)
    | abortRunningExecutions =>
      cases r with
      | ok _ =>
        obtain rfl := h
        exact .abort rfl rfl rfl
      | error e =>
        -- the tables are written one after the other, and the failure comes in between
        rcases h with rfl | rfl | rfl
        · exact .same rfl rfl rfl
        · exact .abortExecutions e rfl rfl rfl
        · exact .abortSteps e rfl rfl rfl
    | _ => simp [Operation.writes] at ht
  · simp only [not_or] at ht
    exact .same (h.frame ht.1) (h.frame ht.2.1) (h.frame ht.2.2)

end Fubun

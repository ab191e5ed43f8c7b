import Fubun.Relational.Ignores
import Fubun.Storage.Operation

/-! The operations that do not look at the stored events: all but the two that are about them. -/

namespace Fubun
open Relational

def Database.withEvents (adapters : List AdapterRow) (events : List Event) (db : Database) : Database :=
  { db with adapters := adapters, events := events }

section Transactions
variable {adapters : List AdapterRow} {events : List Event} {now : OffsetDateTime}

theorem createResource_ignores (resource : Resource) :
    (Database.createResource resource).Ignores (Database.withEvents adapters events) := by
  intro db
  unfold Database.createResource
  rw [map_bind]
  rfl

theorem insertRitualVersion_ignores (version : RitualVersion) :
    (Database.insertRitualVersion version).Ignores (Database.withEvents adapters events) := by
  intro db
  unfold Database.insertRitualVersion
  simp only [map_bind]
  rfl

theorem createRitual_ignores (ritual : Ritual) (version : RitualVersion) :
    (Database.createRitual ritual version).Ignores (Database.withEvents adapters events) := by
  intro db
  unfold Database.createRitual
  rw [map_bind]
  exact congrArg _ (funext fun rituals => insertRitualVersion_ignores version { db with rituals := rituals })

theorem updateRitual_ignores (ritual : Ritual) (version : RitualVersion) :
    (Database.updateRitual ritual version).Ignores (Database.withEvents adapters events) := by
  intro db
  unfold Database.updateRitual
  rw [map_bind]
  exact congrArg _ (funext fun _ =>
    insertRitualVersion_ignores version { db with rituals := updateRitualRow ritual version.id db.rituals })

theorem setRitualStatus_ignores (ritualId : Uuid) (status : RitualStatus) :
    (Database.setRitualStatus now ritualId status).Ignores (Database.withEvents adapters events) := by
  intro db
  unfold Database.setRitualStatus
  rw [map_bind]
  rfl

theorem createApprovals_ignores (approvals : List Approval) :
    (Database.createApprovals approvals).Ignores (Database.withEvents adapters events) := by
  intro db
  unfold Database.createApprovals
  simp only [map_bind]
  rfl

theorem startExecution_ignores (execution : Execution) (steps : List ExecutionStep) :
    (Database.startExecution execution steps).Ignores (Database.withEvents adapters events) := by
  intro db
  unfold Database.startExecution
  simp only [map_bind]
  rfl

theorem setExecution_ignores (execution : Execution) :
    (Database.setExecution execution).Ignores (Database.withEvents adapters events) := by
  intro db
  unfold Database.setExecution
  rw [map_bind]
  rfl

theorem updateStep_ignores (step : ExecutionStep) :
    (Database.updateStep step).Ignores (Database.withEvents adapters events) := by
  intro db
  unfold Database.updateStep
  rw [map_bind]
  rfl

theorem insertScope_ignores (scope : ObservationScope) :
    (Database.insertScope scope).Ignores (Database.withEvents adapters events) := by
  intro db
  unfold Database.insertScope
  simp only [map_bind]
  rfl

end Transactions

section Operations
variable {adapters : List AdapterRow} {events : List Event} {crates : Crates} {now : OffsetDateTime}

theorem ignores_select {α : Type} {f : Database → Except StorageError α}
    (h : ∀ db, f (db.withEvents adapters events) = f db) : (select f).Ignores (Database.withEvents adapters events) :=
  Command.ignores_statement (query_ignores h)

theorem getRitual_ignores (ritualId : Uuid) :
    (getRitual crates ritualId).Ignores (Database.withEvents adapters events) := by
  refine (ignores_select fun _ => rfl).bind fun ritual => (ignores_select fun _ => rfl).bind fun version => ?_
  split
  · exact Command.ignores_pure _
  · exact Command.ignores_fail _

theorem updateExecution_ignores (execution : Execution) :
    (updateExecution execution).Ignores (Database.withEvents adapters events) := by
  refine (Command.ignores_statement (setExecution_ignores execution)).bind fun _ => ?_
  split
  · exact Command.ignores_statement fun _ => rfl
  · exact Command.ignores_pure _

theorem ensureObservationScope_ignores (scope : ObservationScope) :
    (ensureObservationScope scope).Ignores (Database.withEvents adapters events) := by
  refine (ignores_select fun _ => rfl).bind fun found => ?_
  cases found with
  | some existing => exact (Command.ignores_statement fun _ => rfl).bind fun _ => Command.ignores_pure _
  | none => exact (Command.ignores_statement (insertScope_ignores scope)).bind fun _ => Command.ignores_pure _

theorem pauseObservationScope_ignores (scopeId : Uuid) :
    (pauseObservationScope now scopeId).Ignores (Database.withEvents adapters events) := by
  refine (ignores_select fun _ => rfl).bind fun scope => ?_
  split
  · exact (Command.ignores_statement fun _ => rfl).bind fun _ => Command.ignores_pure _
  · exact Command.ignores_pure _

theorem executeOperation_ignores {operation : Operation} (hinsert : ∀ event, operation ≠ .insertEvent event)
    (hlist : ∀ since limit, operation ≠ .listEvents since limit) :
    (executeOperation crates now operation).Ignores (Database.withEvents adapters events) := by
  cases operation with
  | insertEvent event => exact absurd rfl (hinsert event)
  | listEvents since limit => exact absurd rfl (hlist since limit)
  | createResource resource => exact Command.ignores_statement (createResource_ignores resource)
  | createRitual ritual version definition =>
    exact (Command.ignores_statement (createRitual_ignores ritual version)).bind fun _ => Command.ignores_pure _
  | updateRitual ritual version definition =>
    exact (Command.ignores_statement (updateRitual_ignores ritual version)).bind fun _ => Command.ignores_pure _
  | getRitual ritualId => exact getRitual_ignores ritualId
  | setRitualStatus ritualId status => exact Command.ignores_statement (setRitualStatus_ignores ritualId status)
  | createApprovals approvals => exact Command.ignores_statement (createApprovals_ignores approvals)
  | startExecution execution steps => exact Command.ignores_statement (startExecution_ignores execution steps)
  | updateExecution execution => exact updateExecution_ignores execution
  | updateStep step => exact Command.ignores_statement (updateStep_ignores step)
  | getExecution executionId =>
    exact (ignores_select fun _ => rfl).bind fun _ => (ignores_select fun _ => rfl).bind fun _ => Command.ignores_pure _
  | abortRunningExecutions =>
    exact (Command.ignores_statement fun _ => rfl).bind fun _ =>
      (Command.ignores_statement fun _ => rfl).bind fun _ => Command.ignores_statement fun _ => rfl
  | counts =>
    exact (ignores_select fun _ => rfl).bind fun _ => (ignores_select fun _ => rfl).bind fun _ =>
      (ignores_select fun _ => rfl).bind fun _ => Command.ignores_pure _
  | ensureObservationScope scope => exact ensureObservationScope_ignores scope
  | pauseObservationScope scopeId => exact pauseObservationScope_ignores scopeId
  | _ => exact ignores_select fun _ => rfl

end Operations
end Fubun

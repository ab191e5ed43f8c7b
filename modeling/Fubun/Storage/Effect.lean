import Fubun.Storage.Operation

/-! What an operation does to the tables, for each answer it can give. Everything
later proofs know of the storage layer comes from here. -/

namespace Fubun
open Relational

section Transactions
variable {db db' : Database} {e : StorageError}

theorem insertEvent_ok {event : Event} :
    Database.insertEvent event db = .ok ((), db') ↔
      (∀ row ∈ db.events, row.clashes event = false) ∧
        db' = { db with
          adapters := upsertAdapter event db.adapters, events := db.events ++ [event] } := by
  unfold Database.insertEvent
  rw [bind_eq_ok]
  simp only [insertRow_eq_ok]
  constructor
  · rintro ⟨_, ⟨hc, rfl⟩, h⟩
    exact ⟨hc, (Prod.mk.inj (Except.ok.inj h)).2.symm⟩
  · rintro ⟨hc, rfl⟩
    exact ⟨_, ⟨hc, rfl⟩, rfl⟩

theorem createResource_ok {resource reply : Resource} :
    Database.createResource resource db = .ok (reply, db') ↔
      reply = resource ∧ (∀ row ∈ db.resources, row.clashes resource = false) ∧
        db' = { db with
          resources := db.resources ++ [{ resource with updatedAt := resource.createdAt }] } := by
  unfold Database.createResource
  rw [bind_eq_ok]
  simp only [insertRow_eq_ok]
  constructor
  · rintro ⟨_, ⟨hc, rfl⟩, h⟩
    obtain ⟨rfl, rfl⟩ := Prod.mk.inj (Except.ok.inj h)
    exact ⟨rfl, hc, rfl⟩
  · rintro ⟨rfl, hc, rfl⟩
    exact ⟨_, ⟨hc, rfl⟩, rfl⟩

theorem insertRitualVersion_ok {version : RitualVersion} :
    Database.insertRitualVersion version db = .ok ((), db') ↔
      (∃ row ∈ db.rituals, row.id = version.ritualId) ∧
        (∀ row ∈ db.ritualVersions, row.clashes version = false) ∧
          db' = { db with ritualVersions := db.ritualVersions ++ [version] } := by
  unfold Database.insertRitualVersion
  rw [bind_eq_ok]
  simp only [bind_eq_ok, insertRow_eq_ok, require_eq_ok, List.any_eq_true, beq_iff_eq]
  constructor
  · rintro ⟨_, hr, _, ⟨hc, rfl⟩, h⟩
    exact ⟨hr, hc, (Prod.mk.inj (Except.ok.inj h)).2.symm⟩
  · rintro ⟨hr, hc, rfl⟩
    exact ⟨(), hr, _, ⟨hc, rfl⟩, rfl⟩

theorem createRitual_ok {ritual : Ritual} {version : RitualVersion} :
    Database.createRitual ritual version db = .ok ((), db') ↔
      (∀ row ∈ db.rituals, row.clashes ritual = false) ∧
        (∃ row ∈ db.rituals ++ [{ ritual with currentVersionId := version.id }],
          row.id = version.ritualId) ∧
        (∀ row ∈ db.ritualVersions, row.clashes version = false) ∧
        db' = { db with
          rituals := db.rituals ++ [{ ritual with currentVersionId := version.id }]
          ritualVersions := db.ritualVersions ++ [version] } := by
  unfold Database.createRitual
  rw [bind_eq_ok]
  simp only [insertRow_eq_ok]
  constructor
  · rintro ⟨_, ⟨hc, rfl⟩, h⟩
    exact ⟨hc, insertRitualVersion_ok.mp h⟩
  · rintro ⟨hc, h⟩
    exact ⟨_, ⟨hc, rfl⟩, insertRitualVersion_ok.mpr h⟩

theorem updateRitual_ok {ritual : Ritual} {version : RitualVersion} :
    Database.updateRitual ritual version db = .ok ((), db') ↔
      (∃ row ∈ db.rituals, row.id = ritual.id) ∧
        (∃ row ∈ updateRitualRow ritual version.id db.rituals, row.id = version.ritualId) ∧
        (∀ row ∈ db.ritualVersions, row.clashes version = false) ∧
        db' = { db with
          rituals := updateRitualRow ritual version.id db.rituals
          ritualVersions := db.ritualVersions ++ [version] } := by
  unfold Database.updateRitual
  rw [bind_eq_ok]
  simp only [require_eq_ok, List.any_eq_true, beq_iff_eq]
  constructor
  · rintro ⟨_, hr, h⟩
    exact ⟨hr, insertRitualVersion_ok.mp h⟩
  · rintro ⟨hr, h⟩
    exact ⟨(), hr, insertRitualVersion_ok.mpr h⟩

theorem guarded_ok {b : Bool} {d : Database} :
    (require b e >>= fun _ => (.ok ((), d) : Except StorageError (Unit × Database))) = .ok ((), db') ↔
      b = true ∧ db' = d := by
  rw [bind_eq_ok]
  simp only [require_eq_ok]
  constructor
  · rintro ⟨_, hb, h⟩
    exact ⟨hb, (Prod.mk.inj (Except.ok.inj h)).2.symm⟩
  · rintro ⟨hb, rfl⟩
    exact ⟨(), hb, rfl⟩

theorem setRitualStatus_ok {now : OffsetDateTime} {ritualId : Uuid} {status : RitualStatus} :
    Database.setRitualStatus now ritualId status db = .ok ((), db') ↔
      (∃ row ∈ db.rituals, row.id = ritualId) ∧
        db' = { db with rituals := setStatusRow now ritualId status db.rituals } := by
  unfold Database.setRitualStatus
  rw [guarded_ok]
  simp only [List.any_eq_true, beq_iff_eq]

theorem createApprovals_ok {approvals : List Approval}
    (h : Database.createApprovals approvals db = .ok ((), db')) :
    (∀ approval ∈ approvals, ∃ row ∈ db.ritualVersions, row.id = approval.ritualVersionId) ∧
      db' = { db with ritualApprovals := db.ritualApprovals ++ approvals } := by
  unfold Database.createApprovals at h
  obtain ⟨_, hr, h⟩ := bind_eq_ok.mp h
  obtain ⟨rows, hi, h⟩ := bind_eq_ok.mp h
  simp only [require_eq_ok, List.all_eq_true, List.any_eq_true, beq_iff_eq] at hr
  obtain rfl := insertRows_eq_ok hi
  exact ⟨hr, (Prod.mk.inj (Except.ok.inj h)).2.symm⟩

theorem startExecution_ok {execution : Execution} {steps : List ExecutionStep}
    (h : Database.startExecution execution steps db = .ok ((), db')) :
    (∀ row ∈ db.executions, row.clashes execution = false) ∧
      (∀ lock ∈ db.ritualExecutionLocks, lock.clashes ⟨execution.ritualId, execution.id⟩ = false) ∧
      insertRows ExecutionStep.clashes constraintViolation db.executionSteps steps =
        .ok (db.executionSteps ++ steps) ∧
      db' = { db with
        executions := db.executions ++ [execution]
        executionSteps := db.executionSteps ++ steps
        ritualExecutionLocks := db.ritualExecutionLocks ++ [⟨execution.ritualId, execution.id⟩] } := by
  unfold Database.startExecution at h
  obtain ⟨_, hr, h⟩ := bind_eq_ok.mp h
  obtain ⟨_, hv, h⟩ := bind_eq_ok.mp h
  obtain ⟨executions, he, h⟩ := bind_eq_ok.mp h
  obtain ⟨locks, hl, h⟩ := bind_eq_ok.mp h
  obtain ⟨_, hs, h⟩ := bind_eq_ok.mp h
  obtain ⟨rows, hi, h⟩ := bind_eq_ok.mp h
  obtain ⟨hce, rfl⟩ := insertRow_eq_ok.mp he
  obtain ⟨hcl, rfl⟩ := insertRow_eq_ok.mp hl
  obtain rfl := insertRows_eq_ok hi
  exact ⟨hce, hcl, hi, (Prod.mk.inj (Except.ok.inj h)).2.symm⟩

theorem setExecution_ok {execution : Execution} :
    Database.setExecution execution db = .ok ((), db') ↔
      (∃ row ∈ db.executions, row.id = execution.id) ∧
        db' = { db with executions := updateExecutionRow execution db.executions } := by
  unfold Database.setExecution
  rw [guarded_ok]
  simp only [List.any_eq_true, beq_iff_eq]

theorem updateStep_ok {step : ExecutionStep} :
    Database.updateStep step db = .ok ((), db') ↔
      (∃ row ∈ db.executionSteps, row.id = step.id) ∧
        db' = { db with executionSteps := updateStepRow step db.executionSteps } := by
  unfold Database.updateStep
  rw [guarded_ok]
  simp only [List.any_eq_true, beq_iff_eq]

theorem insertScope_ok {scope : ObservationScope}
    (h : Database.insertScope scope db = .ok ((), db')) :
    (∃ row ∈ db.resources, row.id = scope.resourceId) ∧
      (∀ row ∈ db.observationScopes, row.clashes scope = false) ∧
        db' = { db with observationScopes := db.observationScopes ++ [scope] } := by
  unfold Database.insertScope at h
  obtain ⟨_, hr, h⟩ := bind_eq_ok.mp h
  obtain ⟨_, hi, h⟩ := bind_eq_ok.mp h
  simp only [require_eq_ok, List.any_eq_true, beq_iff_eq] at hr
  obtain ⟨hc, rfl⟩ := insertRow_eq_ok.mp hi
  exact ⟨hr, hc, (Prod.mk.inj (Except.ok.inj h)).2.symm⟩

end Transactions

/-! ## Commands -/

section Commands
variable {α : Type} {c c' : Connection Database} {t : Transaction Database StorageError α}
  {f : Database → Except StorageError α} {a : α} {e : StorageError}

theorem statement_reply (h : statement t c = (.ok a, c')) : t c.db = .ok (a, c'.db) :=
  (Command.statement_ok h).1

theorem select_reply (h : select f c = (.ok a, c')) : f c.db = .ok a ∧ c'.db = c.db := by
  have hq := statement_reply h
  unfold query at hq
  cases hf : f c.db with
  | error e => rw [hf] at hq; exact nomatch hq
  | ok b =>
    rw [hf] at hq
    obtain ⟨rfl, hdb⟩ := Prod.mk.inj (Except.ok.inj hq)
    exact ⟨rfl, hdb.symm⟩

theorem statement_failed (h : statement t c = (.error e, c')) : c'.db = c.db :=
  Command.statement_error h

end Commands

/-! ## Effects -/

/-- The timestamps format, and the sequence number is one of SQLite's integers. -/
structure Event.IsStorable (crates : Crates) (event : Event) : Prop where
  occurredAt : crates.formats event.occurredAt = true
  receivedAt : crates.formats event.receivedAt = true
  sequenceNo : event.adapter.sequenceNo ≤ i64Max

/-- What the operation did, given its reply; `db` is the database before it. -/
def Effect (crates : Crates) (now : OffsetDateTime) (db db' : Database) :
    (o : Operation) → Except StorageError o.Reply → Prop
  | .insertEvent event, .ok _ =>
    event.IsStorable crates ∧ Database.insertEvent event db = .ok ((), db')
  | .createResource resource, .ok reply => Database.createResource resource db = .ok (reply, db')
  | .createRitual ritual version definition, .ok reply =>
    reply = (ritual, version, definition) ∧ Database.createRitual ritual version db = .ok ((), db')
  | .updateRitual ritual version definition, .ok reply =>
    reply = (ritual, version, definition) ∧ Database.updateRitual ritual version db = .ok ((), db')
  | .setRitualStatus ritualId status, .ok _ =>
    Database.setRitualStatus now ritualId status db = .ok ((), db')
  | .createApprovals approvals, .ok _ => Database.createApprovals approvals db = .ok ((), db')
  | .startExecution execution steps, .ok _ =>
    Database.startExecution execution steps db = .ok ((), db')
  | .updateExecution execution, .ok _ =>
    (∃ row ∈ db.executions, row.id = execution.id) ∧
      db' = { db with
        executions := updateExecutionRow execution db.executions
        ritualExecutionLocks :=
          if execution.status ≠ .running then releaseLockRow execution.id db.ritualExecutionLocks
          else db.ritualExecutionLocks }
  -- the status may be in while the lock is still held
  | .updateExecution execution, .error _ =>
    db' = db ∨ db' = { db with executions := updateExecutionRow execution db.executions }
  | .updateStep step, .ok _ => Database.updateStep step db = .ok ((), db')
  | .abortRunningExecutions, .ok _ => db' = ((db.executionsAborted now).stepsAborted now).unlocked
  | .abortRunningExecutions, .error _ =>
    db' = db ∨ db' = db.executionsAborted now ∨ db' = (db.executionsAborted now).stepsAborted now
  | .ensureObservationScope scope, .ok reply =>
    (∃ existing, findScope scope.source scope.resourceId db = some existing ∧
      reply = { existing with status := .active, updatedAt := scope.updatedAt } ∧
      db' = { db with
        observationScopes := activateScopeRow existing.id scope.updatedAt db.observationScopes }) ∨
    (findScope scope.source scope.resourceId db = none ∧ reply = scope ∧
      Database.insertScope scope db = .ok ((), db'))
  | .pauseObservationScope scopeId, .ok reply =>
    ∃ scope, findScopeById scopeId db = .ok scope ∧
      ((scope.status = .active ∧ reply = { scope with status := .paused, updatedAt := now } ∧
        db' = { db with observationScopes := pauseScopeRow now scopeId db.observationScopes }) ∨
      (scope.status = .paused ∧ reply = scope ∧ db' = db))
  | .getResource resourceId, .ok reply => getResource resourceId db = .ok reply ∧ db' = db
  | .getRitual ritualId, .ok reply =>
    findRitual ritualId db = .ok reply.1 ∧ findVersion reply.1.currentVersionId db = .ok reply.2.1 ∧
      crates.parseDefinition reply.2.1.canonicalJson = some reply.2.2 ∧ db' = db
  | .listApprovals versionId, .ok reply => reply = listApprovals versionId db ∧ db' = db
  | .listResources, .ok reply => reply = listResources crates db ∧ db' = db
  | .listObservationScopes source, .ok reply =>
    reply = listObservationScopes crates source db ∧ db' = db
  | _, _ => db' = db

section Effect
variable {crates : Crates} {now : OffsetDateTime} {c c' : Connection Database}

/-- An operation of one statement that is answered with the statement's own result. -/
theorem statement_effect {α : Type} {t : Transaction Database StorageError α} {P : Except StorageError α → Prop}
    {r : Except StorageError α} (h : statement t c = (r, c'))
    (hok : ∀ a, t c.db = .ok (a, c'.db) → P (.ok a)) (herr : ∀ e, c'.db = c.db → P (.error e)) : P r := by
  cases r with
  | ok a => exact hok a (statement_reply h)
  | error e => exact herr e (statement_failed h)

theorem select_effect {α : Type} {f : Database → Except StorageError α} {P : Except StorageError α → Prop}
    {r : Except StorageError α} (h : select f c = (r, c'))
    (hok : ∀ a, f c.db = .ok a → c'.db = c.db → P (.ok a)) (herr : ∀ e, c'.db = c.db → P (.error e)) :
    P r := by
  cases r with
  | ok a => exact hok a (select_reply h).1 (select_reply h).2
  | error e => exact herr e (statement_failed h)

theorem insertEvent_effect {event : Event} {r : Except StorageError Unit}
    (h : insertEvent crates event c = (r, c')) : Effect crates now c.db c'.db (.insertEvent event) r := by
  unfold insertEvent at h
  split_ifs at h with hformats hseq
  · obtain ⟨rfl, rfl⟩ := Prod.mk.inj h
    exact rfl
  · obtain ⟨rfl, rfl⟩ := Prod.mk.inj h
    exact rfl
  · simp only [Bool.not_eq_true', Bool.not_eq_false, Bool.and_eq_true] at hformats
    exact statement_effect h (fun _ ht => ⟨⟨hformats.1, hformats.2, Nat.not_lt.mp hseq⟩, ht⟩) fun _ hdb => hdb

theorem getRitual_effect {ritualId : Uuid}
    {r : Except StorageError (Ritual × RitualVersion × RitualDefinition)}
    (h : getRitual crates ritualId c = (r, c')) :
    Effect crates now c.db c'.db (.getRitual ritualId) r := by
  unfold getRitual at h
  cases r with
  | ok reply =>
    obtain ⟨ritual, c₁, h₁, h⟩ := Command.bind_ok.mp h
    obtain ⟨version, c₂, h₂, h⟩ := Command.bind_ok.mp h
    obtain ⟨hr, hc₁⟩ := select_reply h₁
    obtain ⟨hv, hc₂⟩ := select_reply h₂
    cases hd : crates.parseDefinition version.canonicalJson with
    | some definition =>
      rw [hd] at h
      obtain ⟨hreply, rfl⟩ := Prod.mk.inj h
      obtain rfl := Except.ok.inj hreply
      exact ⟨hr, hc₁ ▸ hv, hd, hc₂.trans hc₁⟩
    | none =>
      rw [hd] at h
      exact nomatch (Prod.mk.inj h).1
  | error e =>
    rcases Command.bind_error h with h | ⟨ritual, c₁, h₁, h⟩
    · exact statement_failed h
    rcases Command.bind_error h with h | ⟨version, c₂, h₂, h⟩
    · exact (statement_failed h).trans (select_reply h₁).2
    · have hdb : c₂.db = c.db := (select_reply h₂).2.trans (select_reply h₁).2
      cases hd : crates.parseDefinition version.canonicalJson with
      | some definition =>
        rw [hd] at h
        exact nomatch (Prod.mk.inj h).1
      | none =>
        rw [hd] at h
        exact (Prod.mk.inj h).2 ▸ hdb

theorem updateExecution_effect {execution : Execution} {r : Except StorageError Unit}
    (h : updateExecution execution c = (r, c')) :
    Effect crates now c.db c'.db (.updateExecution execution) r := by
  unfold updateExecution at h
  cases r with
  | ok u =>
    obtain ⟨_, c₁, h₁, h⟩ := Command.bind_ok.mp h
    obtain ⟨hrow, hdb⟩ := setExecution_ok.mp (statement_reply h₁)
    refine ⟨hrow, ?_⟩
    split_ifs at h with hs
    · have hl := (Prod.mk.inj (Except.ok.inj (statement_reply h))).2
      rw [if_pos hs, ← hl, hdb]
    · rw [if_neg hs, ← (Prod.mk.inj h).2, hdb]
  | error e =>
    rcases Command.bind_error h with h | ⟨_, c₁, h₁, h⟩
    · exact .inl (statement_failed h)
    · obtain ⟨hrow, hdb⟩ := setExecution_ok.mp (statement_reply h₁)
      split_ifs at h with hs
      · exact .inr ((statement_failed h).trans hdb)
      · exact nomatch (Prod.mk.inj h).1

theorem abortRunningExecutions_effect {r : Except StorageError Unit}
    (h : abortRunningExecutions now c = (r, c')) :
    Effect crates now c.db c'.db .abortRunningExecutions r := by
  unfold abortRunningExecutions at h
  have hexec : ∀ {c c₁ u}, statement (Database.abortExecutions now) c = (.ok u, c₁) →
      c₁.db = c.db.executionsAborted now :=
    fun h => ((Prod.mk.inj (Except.ok.inj (statement_reply h))).2).symm
  have hsteps : ∀ {c c₁ u}, statement (Database.abortSteps now) c = (.ok u, c₁) →
      c₁.db = c.db.stepsAborted now :=
    fun h => ((Prod.mk.inj (Except.ok.inj (statement_reply h))).2).symm
  cases r with
  | ok u =>
    obtain ⟨_, c₁, h₁, h⟩ := Command.bind_ok.mp h
    obtain ⟨_, c₂, h₂, h⟩ := Command.bind_ok.mp h
    have hlocks := (Prod.mk.inj (Except.ok.inj (statement_reply h))).2
    show c'.db = _
    rw [← hlocks, hsteps h₂, hexec h₁]
  | error e =>
    rcases Command.bind_error h with h | ⟨_, c₁, h₁, h⟩
    · exact .inl (statement_failed h)
    rcases Command.bind_error h with h | ⟨_, c₂, h₂, h⟩
    · exact .inr (.inl ((statement_failed h).trans (hexec h₁)))
    · have hdb : c₂.db = (c.db.executionsAborted now).stepsAborted now := by
        rw [hsteps h₂, hexec h₁]
      exact .inr (.inr ((statement_failed h).trans hdb))

theorem ensureObservationScope_effect {scope : ObservationScope}
    {r : Except StorageError ObservationScope} (h : ensureObservationScope scope c = (r, c')) :
    Effect crates now c.db c'.db (.ensureObservationScope scope) r := by
  unfold ensureObservationScope at h
  cases r with
  | ok reply =>
    obtain ⟨found, c₁, h₁, h⟩ := Command.bind_ok.mp h
    obtain ⟨hfound, hc₁⟩ := select_reply h₁
    have hfind := Except.ok.inj hfound
    cases found with
    -- a scope of this key is updated
    | some existing =>
      obtain ⟨_, c₂, h₂, h⟩ := Command.bind_ok.mp h
      have hdb := (Prod.mk.inj (Except.ok.inj (statement_reply h₂))).2
      obtain ⟨hreply, rfl⟩ := Prod.mk.inj h
      refine .inl ⟨existing, hfind, (Except.ok.inj hreply).symm, ?_⟩
      rw [← hdb, hc₁]
    | none =>
      obtain ⟨_, c₂, h₂, h⟩ := Command.bind_ok.mp h
      -- without one it is inserted
      have hinsert := statement_reply h₂
      obtain ⟨hreply, rfl⟩ := Prod.mk.inj h
      exact .inr ⟨hfind, (Except.ok.inj hreply).symm, hc₁ ▸ hinsert⟩
  | error e =>
    rcases Command.bind_error h with h | ⟨found, c₁, h₁, h⟩
    · exact statement_failed h
    · have hc₁ := (select_reply h₁).2
      cases found with
      | some existing =>
        rcases Command.bind_error h with h | ⟨_, c₂, h₂, h⟩
        · exact (statement_failed h).trans hc₁
        · exact nomatch (Prod.mk.inj h).1
      | none =>
        rcases Command.bind_error h with h | ⟨_, c₂, h₂, h⟩
        · exact (statement_failed h).trans hc₁
        · exact nomatch (Prod.mk.inj h).1

theorem pauseObservationScope_effect {scopeId : Uuid} {r : Except StorageError ObservationScope}
    (h : pauseObservationScope now scopeId c = (r, c')) :
    Effect crates now c.db c'.db (.pauseObservationScope scopeId) r := by
  unfold pauseObservationScope at h
  cases r with
  | ok reply =>
    obtain ⟨scope, c₁, h₁, h⟩ := Command.bind_ok.mp h
    obtain ⟨hfind, hc₁⟩ := select_reply h₁
    refine ⟨scope, hfind, ?_⟩
    split_ifs at h with hactive
    · obtain ⟨_, c₂, h₂, h⟩ := Command.bind_ok.mp h
      have hdb := (Prod.mk.inj (Except.ok.inj (statement_reply h₂))).2
      obtain ⟨hreply, rfl⟩ := Prod.mk.inj h
      refine .inl ⟨hactive, (Except.ok.inj hreply).symm, ?_⟩
      rw [← hdb, hc₁]
    · obtain ⟨hreply, rfl⟩ := Prod.mk.inj h
      refine .inr ⟨?_, (Except.ok.inj hreply).symm, hc₁⟩
      cases hs : scope.status with
      | active => exact absurd hs hactive
      | paused => rfl
  | error e =>
    rcases Command.bind_error h with h | ⟨scope, c₁, h₁, h⟩
    · exact statement_failed h
    · have hc₁ := (select_reply h₁).2
      split_ifs at h with hactive
      · rcases Command.bind_error h with h | ⟨_, c₂, h₂, h⟩
        · exact (statement_failed h).trans hc₁
        · exact nomatch (Prod.mk.inj h).1
      · exact nomatch (Prod.mk.inj h).1

theorem select_bind_same {α β : Type} {f : Database → Except StorageError α} {g : α → StorageCommand β}
    (hg : ∀ a (c c' : Connection Database) r, g a c = (r, c') → c'.db = c.db)
    {r : Except StorageError β} (h : (select f >>= g) c = (r, c')) : c'.db = c.db := by
  cases r with
  | ok b =>
    obtain ⟨a, c₁, h₁, h⟩ := Command.bind_ok.mp h
    exact (hg a c₁ c' _ h).trans (select_reply h₁).2
  | error e =>
    rcases Command.bind_error h with h | ⟨a, c₁, h₁, h⟩
    · exact statement_failed h
    · exact (hg a c₁ c' _ h).trans (select_reply h₁).2

theorem pure_same {β : Type} {b : β} {r : Except StorageError β}
    (h : (pure b : StorageCommand β) c = (r, c')) : c'.db = c.db := (Prod.mk.inj h).2 ▸ rfl

theorem getExecution_same {executionId : Uuid} {r : Except StorageError (Execution × List ExecutionStep)}
    (h : getExecution executionId c = (r, c')) : c'.db = c.db :=
  select_bind_same (fun _ _ _ _ => select_bind_same fun _ _ _ _ => pure_same) h

theorem counts_same {r : Except StorageError Counts} (h : counts c = (r, c')) : c'.db = c.db :=
  select_bind_same
    (fun _ _ _ _ => select_bind_same fun _ _ _ _ => select_bind_same fun _ _ _ _ => pure_same) h

theorem statement_echo {α : Type} {t : Transaction Database StorageError Unit} {b : α}
    {P : Except StorageError α → Prop} {r : Except StorageError α}
    (h : (statement t >>= fun _ => pure b) c = (r, c'))
    (hok : t c.db = .ok ((), c'.db) → P (.ok b)) (herr : ∀ e, c'.db = c.db → P (.error e)) : P r := by
  cases r with
  | ok a =>
    obtain ⟨_, c₁, h₁, h⟩ := Command.bind_ok.mp h
    obtain ⟨hreply, rfl⟩ := Prod.mk.inj h
    obtain rfl := Except.ok.inj hreply
    exact hok (statement_reply h₁)
  | error e =>
    rcases Command.bind_error h with h | ⟨_, c₁, h₁, h⟩
    · exact herr e (statement_failed h)
    · exact nomatch (Prod.mk.inj h).1

theorem executeOperation_effect {o : Operation} {r : Except StorageError o.Reply}
    (h : executeOperation crates now o c = (r, c')) : Effect crates now c.db c'.db o r := by
  cases o with
  | insertEvent event => exact insertEvent_effect h
  | listEvents since limit =>
    rw [executeOperation] at h
    split_ifs at h
    · exact select_effect h (fun _ _ hdb => hdb) fun _ hdb => hdb
    · obtain ⟨rfl, rfl⟩ := Prod.mk.inj h
      rfl
  | schemaVersion => exact select_effect h (fun _ _ hdb => hdb) fun _ hdb => hdb
  | createResource resource => exact statement_effect h (fun _ ht => ht) fun _ hdb => hdb
  | listResources =>
    exact select_effect h (fun _ hf hdb => ⟨(Except.ok.inj hf).symm, hdb⟩) fun _ hdb => hdb
  | getResource resourceId => exact select_effect h (fun _ hf hdb => ⟨hf, hdb⟩) fun _ hdb => hdb
  | createRitual ritual version definition =>
    exact statement_echo h (fun ht => ⟨rfl, ht⟩) fun _ hdb => hdb
  | updateRitual ritual version definition =>
    exact statement_echo h (fun ht => ⟨rfl, ht⟩) fun _ hdb => hdb
  | listRituals => exact select_effect h (fun _ _ hdb => hdb) fun _ hdb => hdb
  | getRitual ritualId => exact getRitual_effect h
  | setRitualStatus ritualId status => exact statement_effect h (fun _ ht => ht) fun _ hdb => hdb
  | createApprovals approvals => exact statement_effect h (fun _ ht => ht) fun _ hdb => hdb
  | listApprovals versionId =>
    exact select_effect h (fun _ hf hdb => ⟨(Except.ok.inj hf).symm, hdb⟩) fun _ hdb => hdb
  | startExecution execution steps => exact statement_effect h (fun _ ht => ht) fun _ hdb => hdb
  | updateExecution execution => exact updateExecution_effect h
  | updateStep step => exact statement_effect h (fun _ ht => ht) fun _ hdb => hdb
  | listExecutions => exact select_effect h (fun _ _ hdb => hdb) fun _ hdb => hdb
  | getExecution executionId => cases r <;> exact getExecution_same h
  | abortRunningExecutions => exact abortRunningExecutions_effect h
  | counts => cases r <;> exact counts_same h
  | ensureObservationScope scope => exact ensureObservationScope_effect h
  | listObservationScopes source =>
    exact select_effect h (fun _ hf hdb => ⟨(Except.ok.inj hf).symm, hdb⟩) fun _ hdb => hdb
  | pauseObservationScope scopeId => exact pauseObservationScope_effect h

end Effect
end Fubun

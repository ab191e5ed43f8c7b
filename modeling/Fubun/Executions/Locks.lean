import Fubun.Executions.Bookkeeping

/-! The execution locks in runs without I/O errors: a ritual is locked exactly while
an execution of it runs. -/

namespace Fubun
open Relational Concurrency Program System

/-! ## Operations without a fault -/

section NoFault
variable {crates : Crates} {now : OffsetDateTime} {db : Database} {i : Nat} {w w' : World}

/-- No statement of the step fails for I/O reasons. -/
def NoFault (_ : State) : Concurrency.Event Nat Frame Choice Drift → Prop
  | .call _ ch | .restart ch => ch.fault = none
  | _ => True

instance (c : State) (e : Concurrency.Event Nat Frame Choice Drift) : Decidable (NoFault c e) :=
  match e with
  | .call _ ch => inferInstanceAs (Decidable (ch.fault = none))
  | .restart ch => inferInstanceAs (Decidable (ch.fault = none))
  | .arrive _ _ | .answer _ | .drift _ => .isTrue trivial

/-- Without a fault an update of an execution happens as a whole or not at all. -/
theorem updateExecution_no_fault (db : Database) (execution : Execution) :
    (∃ u c, updateExecution execution ⟨db, none⟩ = (.ok u, c)) ∨
      ∃ e, updateExecution execution ⟨db, none⟩ = (.error e, ⟨db, none⟩) := by
  unfold updateExecution
  rw [Command.bind_apply, statement, Command.statement_no_fault]
  cases Database.setExecution execution db with
  | error e => exact .inr ⟨e, rfl⟩
  | ok x =>
    dsimp only
    split_ifs
    · exact .inl ⟨_, _, rfl⟩
    · exact .inl ⟨_, _, rfl⟩

theorem abort_no_fault : abortRunningExecutions now ⟨db, none⟩ =
    (.ok (), ⟨((db.executionsAborted now).stepsAborted now).unlocked, none⟩) := rfl

structure SameExecutions (db db' : Database) : Prop where
  executions : db'.executions = db.executions
  steps : db'.executionSteps = db.executionSteps
  locks : db'.ritualExecutionLocks = db.ritualExecutionLocks

/-! ## Locks and running executions -/

/-- A lock is held exactly for a running execution of its ritual. -/
def LocksRunning (db : Database) : Prop :=
  ∀ ritualId executionId, ⟨ritualId, executionId⟩ ∈ db.ritualExecutionLocks ↔
    ∃ x ∈ db.executions, x.id = executionId ∧ x.ritualId = ritualId ∧ x.status = .running

variable {db' : Database} {execution : Execution}

theorem LocksRunning.same (h : LocksRunning db) (hexecutions : db'.executions = db.executions)
    (hlocks : db'.ritualExecutionLocks = db.ritualExecutionLocks) : LocksRunning db' := by
  unfold LocksRunning
  rw [hexecutions, hlocks]
  exact h

theorem LocksRunning.start (h : LocksRunning db) (hrunning : execution.status = .running)
    (hexecutions : db'.executions = db.executions ++ [execution])
    (hlocks : db'.ritualExecutionLocks =
      db.ritualExecutionLocks ++ [⟨execution.ritualId, execution.id⟩]) : LocksRunning db' := by
  intro ritualId executionId
  rw [hexecutions, hlocks]
  constructor
  · intro hl
    rcases List.mem_append.mp hl with hl | hl
    · obtain ⟨x, hx, hall⟩ := (h ritualId executionId).mp hl
      exact ⟨x, List.mem_append_left _ hx, hall⟩
    · obtain ⟨rfl, rfl⟩ := RitualExecutionLock.mk.inj (List.mem_singleton.mp hl)
      exact ⟨execution, by simp, rfl, rfl, hrunning⟩
  · rintro ⟨x, hx, rfl, rfl, hx'⟩
    rcases List.mem_append.mp hx with hx | hx
    · exact List.mem_append_left _ ((h x.ritualId x.id).mpr ⟨x, hx, rfl, rfl, hx'⟩)
    · rw [List.mem_singleton.mp hx]
      simp

theorem LocksRunning.update (h : LocksRunning db) (hended : execution.status ≠ .running)
    (hexecutions : db'.executions = updateExecutionRow execution db.executions)
    (hlocks : db'.ritualExecutionLocks = releaseLockRow execution.id db.ritualExecutionLocks) :
    LocksRunning db' := by
  intro ritualId executionId
  rw [hexecutions, hlocks, releaseLockRow, mem_deleteRows]
  constructor
  · rintro ⟨hl, hne⟩
    obtain ⟨x, hx, rfl, hritual, hrunning⟩ := (h ritualId executionId).mp hl
    exact ⟨x, mem_updateRows.mpr ⟨x, hx, if_neg (by simpa using hne)⟩, rfl, hritual, hrunning⟩
  · rintro ⟨x, hx, rfl, rfl, hrunning⟩
    obtain ⟨y, hy, rfl⟩ := mem_updateRows.mp hx
    split_ifs at hrunning ⊢ with hid
    · exact absurd hrunning hended
    · exact ⟨(h _ _).mpr ⟨y, hy, rfl, rfl, hrunning⟩, by simpa using hid⟩

theorem LocksRunning.abort (hexecutions : db'.executions = abortExecutionRows now db.executions)
    (hlocks : db'.ritualExecutionLocks = []) : LocksRunning db' := by
  intro ritualId executionId
  rw [hexecutions, hlocks]
  constructor
  · exact fun hl => nomatch hl
  · rintro ⟨x, hx, -, -, hrunning⟩
    obtain ⟨y, hy, rfl⟩ := mem_updateRows.mp hx
    split_ifs at hrunning with hy'
    · exact nomatch hrunning
    · exact absurd (by simpa using hrunning) hy'

variable {operation : Operation} {ch : Choice} {r : Except StorageError operation.Reply}

theorem LocksRunning.act (h : LocksRunning w.db) (hp : Permitted i w (.storage operation))
    (hfault : ch.fault = none) (hact : World.act crates i (.storage operation) ch w = some (r, w')) :
    LocksRunning w'.db := by
  have he := (act_storage hact).1
  cases operation with
  | updateExecution execution =>
    have hended : execution.status ≠ .running := by
      intro hrunning
      have hterminal := hp.2.1
      rw [hrunning] at hterminal
      cases hterminal
    cases r with
    | ok _ =>
      obtain ⟨-, hdb⟩ := he
      exact h.update hended (by rw [hdb]) (by rw [hdb, if_pos hended])
    -- without a fault a failing update writes nothing
    | error e =>
      have hstore : w.store crates (.updateExecution execution) ch.fault = (.error e, w') :=
        Option.some.inj hact
      rw [hfault, World.store, executeOperation] at hstore
      rcases updateExecution_no_fault w.db execution with ⟨u, c, hrun⟩ | ⟨e', hrun⟩
      · rw [hrun] at hstore
        cases (Prod.mk.inj hstore).1
      · rw [hrun] at hstore
        obtain ⟨-, rfl⟩ := Prod.mk.inj hstore
        exact h
  | startExecution execution steps =>
    cases r with
    | ok _ =>
      obtain ⟨-, -, -, hdb⟩ := startExecution_ok he
      exact h.start hp.running (by rw [hdb]) (by rw [hdb])
    | error e => exact h.same (by rw [he]) (by rw [he])
  | abortRunningExecutions => exact hp.elim
  | _ =>
    have hexecutions : TableName.executions.Same w.db w'.db := he.frame (by simp [Operation.writes])
    have hlocks : TableName.ritualExecutionLocks.Same w.db w'.db := he.frame (by simp [Operation.writes])
    exact h.same hexecutions hlocks

end NoFault

/-! ## Refusals -/

section Refusal
variable {crates : Crates} {id ritualId : Uuid} {execution : Execution} {definition : RitualDefinition}
  {τ : List (Answered Op.Res)}

/-- An error that is not the refusal of a second run. -/
def OtherError {α : Type} (r : Except CoreError α) : Prop :=
  ∀ e, r = .error e → e.1 ≠ "ritual_already_running"

theorem otherError_ok {α : Type} (a : α) : OtherError (.ok a) := fun _ h => nomatch h

theorem otherError_error {α : Type} {code message : String} (h : code ≠ "ritual_already_running") :
    OtherError (.error (code, message) : Except CoreError α) := by
  intro e he
  obtain rfl := Except.error.inj he
  exact h

abbrev NeverRefuses {α : Type} (p : Core (Except CoreError α)) : Prop := p.Meets (fun _ => True) OtherError

theorem resolveResource_neverRefuses (action : ActionSpec) : NeverRefuses (resolveResource action) := by
  unfold resolveResource
  split
  · refine .perform_bind trivial fun r => ?_
    cases r with
    | error e => exact otherError_error (by decide)
    | ok resource => exact otherError_ok _
  · refine .perform_bind trivial fun r => ?_
    cases r with
    | error e => exact otherError_error (by decide)
    | ok resource => exact otherError_ok _
  · exact otherError_ok _

theorem recordDispatch_neverRefuses (execution : Execution) (successful : Nat) (step : ExecutionStep)
    (bound : Bool) (finished : OffsetDateTime)
    (actionResult : Except DispatchedActionError DispatchedActionResult) :
    NeverRefuses (recordDispatch execution successful step bound finished actionResult) := by
  unfold recordDispatch
  split
  · refine .perform_bind trivial fun r => ?_
    split
    · exact otherError_error (by decide)
    · split <;> exact otherError_ok _
  · dsimp only
    split
    · exact otherError_ok _
    refine .perform_bind trivial fun r => ?_
    split
    · exact otherError_error (by decide)
    · exact otherError_ok _

theorem executeAction_neverRefuses (deadline : Nat) (execution : Execution) (successful : Nat)
    (action : ActionSpec) (step : ExecutionStep) :
    NeverRefuses (executeAction deadline execution successful action step) := by
  unfold executeAction
  refine .perform_bind trivial fun instant => ?_
  dsimp only
  split
  · exact otherError_ok _
  refine .perform_bind trivial fun started => .perform_bind trivial fun r => ?_
  split
  · exact otherError_error (by decide)
  refine (resolveResource_neverRefuses action).bind fun r hr => ?_
  split
  · exact fun e he => hr e (congrArg _ (Except.error.inj he))
  · exact .perform_bind trivial fun _ => .perform_bind trivial fun _ =>
      recordDispatch_neverRefuses _ _ _ _ _ _

theorem executeActions_neverRefuses (deadline : Nat) (execution : Execution) (successful : Nat)
    (done : List ExecutionStep) (actions : List ActionSpec) (steps : List ExecutionStep) :
    NeverRefuses (executeActions deadline execution successful done actions steps) := by
  induction actions generalizing successful done steps with
  | nil =>
    unfold executeActions
    exact otherError_ok _
  | cons action actions ih =>
    cases steps with
    | nil =>
      unfold executeActions
      exact otherError_ok _
    | cons step steps =>
      unfold executeActions
      refine (executeAction_neverRefuses _ _ _ _ _).bind fun r hr => ?_
      split
      · exact fun e he => hr e (congrArg _ (Except.error.inj he))
      · exact ih _ _ _
      · exact otherError_ok _

theorem finalizeUnfinishedSteps_neverRefuses (finishedAt : OffsetDateTime) (code message : String)
    (steps : List ExecutionStep) :
    NeverRefuses (finalizeUnfinishedSteps finishedAt code message steps) := by
  induction steps with
  | nil => exact otherError_ok _
  | cons step steps ih =>
    unfold finalizeUnfinishedSteps
    split
    · refine .perform_bind trivial fun r => ?_
      split
      · exact otherError_error (by decide)
      refine ih.bind fun r hr => ?_
      split
      · exact fun e he => hr e (congrArg _ (Except.error.inj he))
      · exact otherError_ok _
    · refine ih.bind fun r hr => ?_
      split
      · exact fun e he => hr e (congrArg _ (Except.error.inj he))
      · exact otherError_ok _

theorem finishSteps_neverRefuses (finishedAt : OffsetDateTime) (progress : Progress) :
    NeverRefuses (finishSteps finishedAt progress) := by
  unfold finishSteps
  split
  · refine (finalizeUnfinishedSteps_neverRefuses _ _ _ _).bind fun r hr => ?_
    split
    · exact fun e he => hr e (congrArg _ (Except.error.inj he))
    · exact otherError_ok _
  split
  · exact otherError_ok _
  · refine (finalizeUnfinishedSteps_neverRefuses _ _ _ _).bind fun r hr => ?_
    split
    · exact fun e he => hr e (congrArg _ (Except.error.inj he))
    · exact otherError_ok _

theorem concludeExecution_neverRefuses (finishedAt : OffsetDateTime) (execution : Execution)
    (steps : List ExecutionStep) : NeverRefuses (concludeExecution finishedAt execution steps) := by
  unfold concludeExecution
  dsimp only
  split
  · exact otherError_error (by decide)
  refine .perform_bind trivial fun r => ?_
  split
  · exact otherError_error (by decide)
  split
  · exact otherError_error (by decide)
  · exact otherError_ok _

theorem executeSteps_neverRefuses (execution : Execution) (steps : List ExecutionStep)
    (definition : RitualDefinition) : NeverRefuses (executeSteps execution steps definition) := by
  unfold executeSteps
  refine .perform_bind trivial fun instant => (executeActions_neverRefuses _ _ _ _ _ _).bind fun r hr => ?_
  split
  · exact fun e he => hr e (congrArg _ (Except.error.inj he))
  refine .perform_bind trivial fun finished => (finishSteps_neverRefuses _ _).bind fun r hr => ?_
  split
  · exact fun e he => hr e (congrArg _ (Except.error.inj he))
  · exact concludeExecution_neverRefuses _ _ _

/-- An answered operation that has left the tables of executions alone: one that writes none of
them, or a start that was refused. -/
def LeavesExecutions (x : Answered Op.Res) : Prop :=
  x.op.Quiet ∨ ∃ execution steps e, x = ⟨.storage (.startExecution execution steps), .error e⟩

theorem LeavesExecutions.same {i : Nat} {o : Op} {ch : Choice} {w w' : World} {r : o.Res}
    (h : LeavesExecutions ⟨o, r⟩) (hact : World.act crates i o ch w = some (r, w')) :
    SameExecutions w.db w'.db := by
  rcases h with hquiet | ⟨execution, steps, e, hx⟩
  · rcases act_effect hact with ⟨operation, reply, hx, he⟩ | hdb
    · cases hx
      have hsame : ∀ name, Target.table name ∈ executionTables → name ∉ operation.writes := by
        intro name hname hw
        exact hquiet _ hname (table_mem_targets.mpr hw)
      exact ⟨he.frame (hsame .executions (by simp [executionTables])),
        he.frame (hsame .executionSteps (by simp [executionTables])),
        he.frame (hsame .ritualExecutionLocks (by simp [executionTables]))⟩
    · exact ⟨by rw [hdb], by rw [hdb], by rw [hdb]⟩
  · cases hx
    have hdb : w'.db = w.db := (act_storage hact).1
    exact ⟨by rw [hdb], by rw [hdb], by rw [hdb]⟩

theorem leaves_of_actsOn {α : Type} {p q : Core α} {targets : List Target} (hp : ActsOn targets p)
    (ht : ∀ target ∈ executionTables, target ∉ targets) (h : Leads p τ q) :
    ∀ x ∈ τ, LeavesExecutions x := fun _ hx => .inl (quiet_of_targets ht (hp.mem h hx))

variable {response : ResponseEnvelope} {message : String} {version : RitualVersion}

/-- A run that is answered with the refusal has stored nothing. -/
theorem startAndExecute_refused
    (h : Leads (startAndExecute id ritualId version definition) τ (.ret response))
    (hrefused : response.body = .error "ritual_already_running" message) :
    ∀ x ∈ τ, LeavesExecutions x := by
  unfold startAndExecute at h
  rcases leads_perform_bind.mp h with ⟨-, heq⟩ | ⟨now, τ₁, hτ, h₁⟩
  · exact nomatch heq
  subst hτ
  rcases leads_perform_bind.mp h₁ with ⟨-, heq⟩ | ⟨executionId, τ₂, hτ, h₂⟩
  · exact nomatch heq
  subst hτ
  obtain ⟨τ₃, steps, τ₄, hτ, hsteps, h₄⟩ := leads_bind_ret h₂
  subst hτ
  have hnew := leaves_of_actsOn (newSteps_actsOn _ _ _ _) (by simp) hsteps
  rcases leads_perform_bind.mp h₄ with ⟨-, heq⟩ | ⟨r, τ₅, hτ, h₅⟩
  · exact nomatch heq
  subst hτ
  have hquiet : ∀ {o : Op} (r : o.Res), o.targets = [] → LeavesExecutions ⟨o, r⟩ := by
    intro o r ho
    refine .inl fun target _ ht => ?_
    rw [ho] at ht
    exact nomatch ht
  cases r with
  | error e =>
    -- the start was refused, and nothing comes behind it
    have hτ₅ : τ₅ = [] := by
      cases e <;> exact (leads_ret_iff.mp h₅).1
    rw [hτ₅]
    refine List.forall_mem_cons.mpr ⟨hquiet _ rfl, List.forall_mem_cons.mpr ⟨hquiet _ rfl, ?_⟩⟩
    refine List.forall_mem_append.mpr ⟨hnew, List.forall_mem_singleton.mpr ?_⟩
    exact .inr ⟨_, _, _, rfl⟩
  | ok _ =>
    exfalso
    -- once it has started, a run ends with other errors
    obtain ⟨τ₆, r, τ₇, -, hexecute, h₇⟩ := leads_bind_ret h₅
    have hother : OtherError r := (executeSteps_neverRefuses _ _ _).leads hexecute
    match r with
    | .ok (execution, steps') =>
      obtain rfl := Program.ret.inj (leads_ret_iff.mp h₇).2
      exact nomatch hrefused
    | .error (code, message') =>
      obtain rfl := Program.ret.inj (leads_ret_iff.mp h₇).2
      exact hother _ rfl (ResponseBody.error.inj hrefused).1

theorem ritualRunResponse_refused
    (h : Leads (ritualRunResponse crates id ritualId) τ (.ret response))
    (hrefused : response.body = .error "ritual_already_running" message) :
    ∀ x ∈ τ, LeavesExecutions x := by
  have hread : ∀ {operation : Operation} (r : Except StorageError operation.Reply),
      operation.writes = [] → LeavesExecutions ⟨.storage operation, r⟩ :=
    fun r ho => .inl (quiet_of_writes ho)
  unfold ritualRunResponse at h
  rcases leads_perform_bind.mp h with ⟨-, heq⟩ | ⟨r, τ₁, hτ, h₁⟩
  · exact nomatch heq
  subst hτ
  refine List.forall_mem_cons.mpr ⟨hread r rfl, ?_⟩
  match r with
  | .error e =>
    have hτ₁ : τ₁ = [] := by
      cases e <;> exact (leads_ret_iff.mp h₁).1
    exact hτ₁ ▸ fun _ hx => nomatch hx
  | .ok (ritual, version, definition) =>
    dsimp only at h₁
    split at h₁
    · exact (leads_ret_iff.mp h₁).1 ▸ fun _ hx => nomatch hx
    obtain ⟨τ₂, r, τ₃, hτ, hpreflight, h₃⟩ := leads_bind_ret h₁
    subst hτ
    refine List.forall_mem_append.mpr ⟨leaves_of_actsOn (preflight_actsOn _ _) (by simp) hpreflight, ?_⟩
    match r with
    | .error (code, message') => exact (leads_ret_iff.mp h₃).1 ▸ fun _ hx => nomatch hx
    | .ok () => exact startAndExecute_refused h₃ hrefused

theorem handleFrame_refused {frame : Frame}
    (h : Leads (handleFrame crates frame) τ (.ret (.response response)))
    (hrefused : response.body = .error "ritual_already_running" message) :
    ∀ x ∈ τ, LeavesExecutions x := by
  cases frame with
  | request request =>
    obtain ⟨τ₁, response', τ₂, hτ, hrequest, hret⟩ := leads_bind_ret h
    obtain ⟨rfl, heq⟩ := leads_ret_iff.mp hret
    obtain rfl := Reply.response.inj (Program.ret.inj heq)
    rw [hτ, List.append_nil]
    unfold processRequest at hrequest
    split at hrequest
    · exact (leads_ret_iff.mp hrequest).1 ▸ fun _ hx => nomatch hx
    have hactsOn := processBody_actsOn crates request.requestId request.body
    generalize request.body = body at hactsOn hrequest
    cases body with
    | ritualRun ritualId => exact ritualRunResponse_refused hrequest hrefused
    | _ => exact leaves_of_actsOn hactsOn (by simp [executionTables, RequestBody.targets]) hrequest
  | _ => exact leaves_of_actsOn (handleFrame_actsOn crates _) (by simp [executionTables, Frame.targets]) h

end Refusal

/-! ## Runs without a fault -/

section Runs
variable {crates : Crates} {now : Int} {instant : Nat} {files : Files} {path : String} {c : State}

theorem reaches_locksRunning
    (h : (daemon crates).Reaches (World.start now instant files path) NoFault c) :
    LocksRunning c.world.db := by
  generalize hw₀ : World.start now instant files path = w₀ at h
  induction h with
  | init =>
    subst hw₀
    intro ritualId executionId
    exact ⟨fun hl => (nomatch hl), fun ⟨_, hx, _⟩ => nomatch hx⟩
  | @step c c' e hr hok hs ih =>
    subst hw₀
    cases hs with
    | arrive => exact ih
    | @call i t o k ch r w ht hrest hact =>
      have hp := reaches_permitted hr ht hrest hact
      have hact' : World.act crates i o ch c.world = some (r, w) := hact
      cases o with
      | storage operation => exact ih.act hp hok hact'
      | _ =>
        have hdb := act_other hact' (by simp)
        exact ih.same (by rw [Config.called_world, hdb]) (by rw [Config.called_world, hdb])
    | answer => exact ih
    | drift => exact ih.same (by simp [daemon]) (by simp [daemon])
    | @restart ch =>
      have hfault : ch.fault = none := hok
      have hdb : (c.restarted ((daemon crates).restart ch c.world)).world.db =
          ((c.world.db.executionsAborted c.world.nowUtc).stepsAborted c.world.nowUtc).unlocked := by
        simp [daemon, World.restart, World.store, executeOperation, hfault, abort_no_fault]
      have hexecutions : (c.restarted ((daemon crates).restart ch c.world)).world.db.executions =
          abortExecutionRows c.world.nowUtc c.world.db.executions := by rw [hdb]; rfl
      exact LocksRunning.abort hexecutions (by rw [hdb]; rfl)

/-- A start whose ritual is not locked commits. -/
theorem Startable.commits {i : Nat} {w : World} {execution : Execution} {steps : List ExecutionStep}
    (h : Startable i w execution steps)
    (hfree : ∀ lock ∈ w.db.ritualExecutionLocks, lock.ritualId ≠ execution.ritualId) :
    ∃ db, Database.startExecution execution steps w.db = .ok ((), db) := by
  have hritual : w.db.rituals.any (·.id == execution.ritualId) = true := by
    simpa using h.ritual
  have hversion : w.db.ritualVersions.any (·.id == execution.ritualVersionId) = true := by
    simpa using h.version
  have hexecutions : insertRow Execution.clashes constraintViolation w.db.executions execution =
      .ok (w.db.executions ++ [execution]) := by
    refine insertRow_eq_ok.mpr ⟨fun x hx => ?_, rfl⟩
    rw [Execution.clashes, beq_eq_false_iff_ne]
    intro hid
    have hm := mem_slice_executions.mpr ⟨hx, hid⟩
    cases h.fresh.1 ▸ hm
  have hlocks : insertRow RitualExecutionLock.clashes StorageError.ritualAlreadyRunning w.db.ritualExecutionLocks
      ⟨execution.ritualId, execution.id⟩ =
      .ok (w.db.ritualExecutionLocks ++ [⟨execution.ritualId, execution.id⟩]) := by
    refine insertRow_eq_ok.mpr ⟨fun lock hl => ?_, rfl⟩
    rw [RitualExecutionLock.clashes, beq_eq_false_iff_ne]
    exact hfree lock hl
  have hreferences : (steps.all fun step =>
      (w.db.executions ++ [execution]).any (·.id == step.executionId)) = true := by
    rw [List.all_eq_true]
    intro s hs
    simp [(h.drawn s hs).2.1]
  have hsteps : insertRows ExecutionStep.clashes constraintViolation w.db.executionSteps steps =
      .ok (w.db.executionSteps ++ steps) := by
    refine insertRows_ok (fun y hy s hs => ?_) ?_
    -- neither the steps nor the execution have ids that were used
    · obtain ⟨-, hexecution, hunused⟩ := h.drawn s hs
      have hid : y.id ≠ s.id := by
        intro hid
        have hm := mem_slice_step.mpr ⟨hy, hid⟩
        cases hunused ▸ hm
      have hexecution' : y.executionId ≠ s.executionId := by
        intro heq
        have hm := mem_slice_steps.mpr ⟨hy, heq.trans hexecution⟩
        cases h.fresh.2 ▸ hm
      simp [ExecutionStep.clashes, hid, hexecution']
    · have hids := List.pairwise_map.mp h.ids
      have hindices := List.pairwise_map.mp h.indices
      refine (hids.and hindices).imp fun {a b} hab => ?_
      simp [ExecutionStep.clashes, hab.1, hab.2]
  unfold Database.startExecution
  exact ⟨_, bind_eq_ok.mpr ⟨(), require_eq_ok.mpr hritual, bind_eq_ok.mpr ⟨(), require_eq_ok.mpr hversion,
    bind_eq_ok.mpr ⟨_, hexecutions, bind_eq_ok.mpr ⟨_, hlocks, bind_eq_ok.mpr
      ⟨(), require_eq_ok.mpr hreferences, bind_eq_ok.mpr ⟨_, hsteps, rfl⟩⟩⟩⟩⟩⟩⟩

/-- In runs without a fault a ritual is locked exactly while an execution of it runs, so it has
at most one; a request that is answered with the refusal has left the executions alone; and a
start of a ritual without a running execution commits. -/
theorem single_running
    (h : (daemon crates).Reaches (World.start now instant files path) NoFault c) :
    LocksRunning c.world.db ∧
    (∀ x ∈ c.world.db.executions, ∀ y ∈ c.world.db.executions, x.status = .running →
      y.status = .running → x.ritualId = y.ritualId → x = y) ∧
    (∀ i t o k ch r w' τ response message, c.threads i = some t → t.rest = .call o k →
      World.act crates i o ch c.world = some (r, w') → Leads (k r) τ (.ret (.response response)) →
      response.body = .error "ritual_already_running" message → SameExecutions c.world.db w'.db) ∧
    ∀ i t execution steps k ch r w', c.threads i = some t →
      t.rest = .call (.storage (.startExecution execution steps)) k → ch.fault = none →
      World.act crates i (.storage (.startExecution execution steps)) ch c.world = some (r, w') →
      (∀ x ∈ c.world.db.executions, x.ritualId = execution.ritualId → x.status ≠ .running) → r = .ok () := by
  have hlocks := reaches_locksRunning h
  have hkeys := (reaches_owned h).1.keys
  refine ⟨hlocks, ?_, ?_, ?_⟩
  · intro x hx y hy hx' hy' hritual
    have hxlock := (hlocks x.ritualId x.id).mpr ⟨x, hx, rfl, rfl, hx'⟩
    have hylock := (hlocks y.ritualId y.id).mpr ⟨y, hy, rfl, rfl, hy'⟩
    have hlock := hkeys.ritualExecutionLocks.eq hxlock hylock hritual
    exact hkeys.executions.eq hx hy (RitualExecutionLock.mk.inj hlock).2
  · intro i t o k ch r w' τ response message ht hrest hact hpath hrefused
    -- the operations of the request up to its answer
    have hleads := (h.traced ht).leads
    rw [hrest] at hleads
    have hall := handleFrame_refused ((hleads.snoc r).trans hpath) hrefused
    exact (hall ⟨o, r⟩ (by simp)).same hact
  · intro i t execution steps k ch r w' ht hrest hfault hact hidle
    have hstartable : Startable i c.world execution steps := reaches_permitted h ht hrest hact
    have hfree : ∀ lock ∈ c.world.db.ritualExecutionLocks, lock.ritualId ≠ execution.ritualId := by
      intro lock hl hritual
      obtain ⟨x, hx, -, hx', hrunning⟩ := (hlocks lock.ritualId lock.executionId).mp hl
      exact hidle x hx (hx'.trans hritual) hrunning
    obtain ⟨db, hcommit⟩ := hstartable.commits hfree
    have hstore : c.world.store crates (.startExecution execution steps) ch.fault = (r, w') :=
      Option.some.inj hact
    rw [hfault, World.store, executeOperation, statement, Command.statement_no_fault, hcommit] at hstore
    exact (Prod.mk.inj hstore).1.symm

end Runs

/-- One client runs ritual 2 while another one's run of it waits for the adapter. -/
def Sample.overlapping : Sample.Schedule :=
  Sample.activated ++ Sample.request 0 (.ritualRun 2) [0, 0, 0, 0, 5, 6, 0, 0, 0, 0] ++
    Sample.request 1 (.ritualRun 2) [0, 0, 0, 0, 7, 8, 0]

theorem single_running_overlapping : ∃ c,
    (daemon Sample.crates).Reaches Sample.world NoFault c ∧
      c.world.db.ritualExecutionLocks = [⟨2, 5⟩] ∧ LocksRunning c.world.db ∧
      ∀ x ∈ c.world.db.executions, ∀ y ∈ c.world.db.executions, x.status = .running →
        y.status = .running → x.ritualId = y.ritualId → x = y := by
  have hrun : ((daemon Sample.crates).execIf NoFault (.init Sample.world)
      Sample.overlapping).map (fun c => c.world.db.ritualExecutionLocks) = some [⟨2, 5⟩] := by
    decide +kernel
  obtain ⟨c, hc, hlocks⟩ := Option.map_eq_some_iff.mp hrun
  have hreach := System.Reaches.init.execIf hc
  obtain ⟨hrunning, hsingle, -⟩ := single_running hreach
  exact ⟨c, hreach, hlocks, hrunning, hsingle⟩

end Fubun

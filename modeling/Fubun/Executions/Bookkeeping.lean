import Fubun.Executions.Outcome
import Fubun.Executions.Ownership

/-! What a run knows of its execution from operation to operation. While its storage
calls succeed, the stored steps have the statuses of the steps in its memory; with
the first one that fails, it answers and leaves the execution and its lock behind. -/

namespace Fubun
open Relational Concurrency Program System

/-! ## The committed start of a run -/

/-- The execution that a run has started, with what it has been answered since. -/
def afterStart : List (Answered Op.Res) → Option (Execution × List (Answered Op.Res))
  | [] => none
  | ⟨.storage (.startExecution execution _), .ok _⟩ :: τ => some (execution, τ)
  | _ :: τ => afterStart τ

section AfterStart
variable {τ τ' post : List (Answered Op.Res)} {execution : Execution} {steps : List ExecutionStep}

theorem afterStart_append (h : afterStart τ = some (execution, post)) :
    afterStart (τ ++ τ') = some (execution, post ++ τ') := by
  induction τ using afterStart.induct with
  | case1 => exact nomatch h
  | case2 execution' steps u τ =>
    obtain ⟨rfl, rfl⟩ := Prod.mk.inj (Option.some.inj h)
    rfl
  | case3 x τ hx ih =>
    rw [afterStart.eq_3 _ _ hx] at h
    rw [List.cons_append, afterStart.eq_3 _ _ hx]
    exact ih h

theorem afterStart_append_none (h : afterStart τ = none) : afterStart (τ ++ τ') = afterStart τ' := by
  induction τ using afterStart.induct with
  | case1 => rfl
  | case2 => exact nomatch h
  | case3 x τ hx ih =>
    rw [afterStart.eq_3 _ _ hx] at h
    rw [List.cons_append, afterStart.eq_3 _ _ hx]
    exact ih h

end AfterStart

section Bookkeeping
variable {crates : Crates} {i : Nat} {w w' : World} {τ post : List (Answered Op.Res)} {o : Op}
  {ch : Choice} {started execution : Execution} {done later steps : List ExecutionStep}
  {step step' : ExecutionStep}

/-! ## Operations that leave executions alone -/

def executionTables : List Target :=
  [.table .executions, .table .executionSteps, .table .ritualExecutionLocks]

/-- The operation writes no table of executions. -/
def Op.Quiet (o : Op) : Prop := ∀ target ∈ executionTables, target ∉ o.targets

theorem quiet_of_targets {targets : List Target} (ht : ∀ target ∈ executionTables, target ∉ targets)
    (ho : o.targets ⊆ targets) : o.Quiet := fun target hm hmem => ht target hm (ho hmem)

theorem Op.Quiet.permitted (ho : o.Quiet) : Permitted i w o := by
  have hnot : ∀ target, target ∈ executionTables ∧ target ∈ o.targets → False :=
    fun target h => ho target h.1 h.2
  cases o with
  | storage operation =>
    cases operation with
    | startExecution =>
      exact (hnot (.table .executions) (by simp [executionTables, Op.targets, Operation.writes])).elim
    | updateExecution =>
      exact (hnot (.table .executions) (by simp [executionTables, Op.targets, Operation.writes])).elim
    | updateStep =>
      exact (hnot (.table .executionSteps) (by simp [executionTables, Op.targets, Operation.writes])).elim
    | abortRunningExecutions =>
      exact (hnot (.table .executions) (by simp [executionTables, Op.targets, Operation.writes])).elim
    | _ => trivial
  | _ => trivial

theorem Op.Quiet.relies {r : o.Res} (ho : o.Quiet) (h : World.act crates i o ch w = some (r, w')) :
    ∀ j, Relies j w w' := by
  intro j
  have hmono := act_issued_mono h
  rcases act_effect h with ⟨operation, reply, hx, he⟩ | hdb
  · cases hx
    have hsame : ∀ name, Target.table name ∈ executionTables → name ∉ operation.writes := by
      intro name hname hw
      exact ho _ hname (table_mem_targets.mpr hw)
    refine ⟨he.grows, hmono, fun id _ => slice_same ?_ ?_ ?_⟩
    · exact he.frame (hsame .executions (by simp [executionTables]))
    · exact he.frame (hsame .executionSteps (by simp [executionTables]))
    · exact he.frame (hsame .ritualExecutionLocks (by simp [executionTables]))
  · exact .of_eq hdb hmono

/-- A quiet operation keeps what is stable, if the assertion allows for its answer. -/
theorem Op.Quiet.performs {A : List (Answered Op.Res) → World → Prop}
    {R : o.Res → List (Answered Op.Res) → World → Prop} (ho : o.Quiet)
    (hA : (ownership crates).Stable i A) (hR : ∀ τ w r, A τ w → R r (τ ++ [⟨o, r⟩]) w) :
    (ownership crates).Performs i A o R := by
  intro τ w ch r w' hw hA' hact
  have howned := Owned.act hw ho.permitted hact
  exact ⟨⟨howned.1, ho.permitted, howned.2⟩, hR τ w' r (hA τ w w' (ho.relies hact i) howned.1 hA')⟩

/-! ## What a run knows -/

/-- The run has drawn the id, and nothing is stored under it. -/
structure Unused (i : Nat) (id : Uuid) (w : World) : Prop where
  owned : (id, i) ∈ w.issued
  executions : (w.db.slice id).executions = []
  steps : (w.db.slice id).steps = []
  step : (w.db.slice id).step = []

theorem Unused.mono {id : Uuid} (h : Unused i id w) (hr : Relies i w w') : Unused i id w' where
  owned := hr.issued _ h.owned
  executions := by rw [hr.slices id h.owned]; exact h.executions
  steps := by rw [hr.slices id h.owned]; exact h.steps
  step := by rw [hr.slices id h.owned]; exact h.step

/-- The execution runs under its lock, and its stored steps have the statuses of those in memory. -/
structure Holding (i : Nat) (started : Execution) (steps : List ExecutionStep) (w : World) : Prop where
  owned : (started.id, i) ∈ w.issued
  running : ∀ row ∈ (w.db.slice started.id).executions, row.status = .running
  locked : ⟨started.ritualId, started.id⟩ ∈ (w.db.slice started.id).locks
  mirrored : ∀ row ∈ (w.db.slice started.id).steps, ∃ s ∈ steps, s.id = row.id ∧ s.status = row.status
  drawn : ∀ s ∈ steps, (s.id, i) ∈ w.issued ∧ ∀ row ∈ (w.db.slice s.id).step, row.executionId = started.id

theorem Holding.mono (h : Holding i started steps w) (hr : Relies i w w') :
    Holding i started steps w' := by
  have hslice := hr.slices started.id h.owned
  refine ⟨hr.issued _ h.owned, hslice ▸ h.running, hslice ▸ h.locked, hslice ▸ h.mirrored, ?_⟩
  intro s hs
  obtain ⟨howned, hrows⟩ := h.drawn s hs
  exact ⟨hr.issued _ howned, (hr.slices s.id howned) ▸ hrows⟩

/-- The execution has ended: no step of it is unfinished, and its lock is gone. -/
structure Settled (db : Database) (id : Uuid) : Prop where
  execution : ∃ row ∈ db.executions, row.id = id ∧ row.status.isTerminal = true
  steps : ∀ s ∈ db.executionSteps, s.executionId = id → s.status.isTerminal = true
  unlocked : ∀ lock ∈ db.ritualExecutionLocks, lock.executionId ≠ id

theorem settled_iff {db : Database} {id : Uuid} : Settled db id ↔
    (∃ row ∈ (db.slice id).executions, row.status.isTerminal = true) ∧
      (∀ s ∈ (db.slice id).steps, s.status.isTerminal = true) ∧ (db.slice id).locks = [] := by
  constructor
  · rintro ⟨⟨row, hr, hid, hterminal⟩, hsteps, hlocks⟩
    refine ⟨⟨row, mem_slice_executions.mpr ⟨hr, hid⟩, hterminal⟩, fun s hs => ?_, ?_⟩
    · exact hsteps s (mem_slice_steps.mp hs).1 (mem_slice_steps.mp hs).2
    · refine List.eq_nil_iff_forall_not_mem.mpr fun lock hl => ?_
      exact hlocks lock (mem_slice_locks.mp hl).1 (mem_slice_locks.mp hl).2
  · rintro ⟨⟨row, hr, hterminal⟩, hsteps, hlocks⟩
    obtain ⟨hr, hid⟩ := mem_slice_executions.mp hr
    refine ⟨⟨row, hr, hid, hterminal⟩, fun s hs heq => hsteps s (mem_slice_steps.mpr ⟨hs, heq⟩), ?_⟩
    intro lock hl heq
    have hmem := mem_slice_locks.mpr ⟨hl, heq⟩
    exact nomatch hlocks ▸ hmem

/-! ## Where a run stands -/

/-- The run goes on: its storage calls have succeeded since the start. -/
def Going (i : Nat) (started : Execution) (steps : List ExecutionStep) (τ : List (Answered Op.Res))
    (w : World) : Prop :=
  ∃ post, afterStart τ = some (started, post) ∧ StorageSucceeds post ∧ Holding i started steps w

/-- A storage call of the run has failed, and the execution is still locked. -/
def Stuck (i : Nat) (started : Execution) (τ : List (Answered Op.Res)) (w : World) : Prop :=
  ∃ post, afterStart τ = some (started, post) ∧ ¬ StorageSucceeds post ∧
    (started.id, i) ∈ w.issued ∧ ⟨started.ritualId, started.id⟩ ∈ (w.db.slice started.id).locks

/-- The storage calls of the run have succeeded, and the execution has ended. -/
def Done (i : Nat) (started : Execution) (τ : List (Answered Op.Res)) (w : World) : Prop :=
  ∃ post, afterStart τ = some (started, post) ∧ StorageSucceeds post ∧
    (started.id, i) ∈ w.issued ∧ Settled w.db started.id

theorem going_stable : (ownership crates).Stable i (Going i started steps) := by
  rintro τ w w' hr - ⟨post, hstart, hpost, hholding⟩
  exact ⟨post, hstart, hpost, hholding.mono hr⟩

theorem Stuck.mono (h : Stuck i started τ w) (hr : Relies i w w') : Stuck i started τ w' := by
  obtain ⟨post, hstart, hpost, howned, hlocked⟩ := h
  exact ⟨post, hstart, hpost, hr.issued _ howned, (hr.slices started.id howned) ▸ hlocked⟩

theorem Done.mono (h : Done i started τ w) (hr : Relies i w w') : Done i started τ w' := by
  obtain ⟨post, hstart, hpost, howned, hsettled⟩ := h
  refine ⟨post, hstart, hpost, hr.issued _ howned, ?_⟩
  rw [settled_iff, hr.slices started.id howned]
  exact settled_iff.mp hsettled

theorem StorageSucceeds.snoc (h : StorageSucceeds post) {x : Answered Op.Res}
    (hx : storageSucceeded x = true) : StorageSucceeds (post ++ [x]) := by
  intro y hy
  rcases List.mem_append.mp hy with hy | hy
  · exact h y hy
  · exact List.mem_singleton.mp hy ▸ hx

theorem not_succeeds_snoc {x : Answered Op.Res} (hx : storageSucceeded x = false) :
    ¬ StorageSucceeds (post ++ [x]) := by
  intro h
  rw [h x (List.mem_append_right _ (List.mem_singleton_self x))] at hx
  exact nomatch hx

theorem Going.succeeded (h : Going i started steps τ w) {x : Answered Op.Res}
    (hx : storageSucceeded x = true) : Going i started steps (τ ++ [x]) w := by
  obtain ⟨post, hstart, hpost, hholding⟩ := h
  exact ⟨post ++ [x], afterStart_append hstart, hpost.snoc hx, hholding⟩

theorem Going.failed (h : Going i started steps τ w) {x : Answered Op.Res}
    (hx : storageSucceeded x = false) : Stuck i started (τ ++ [x]) w := by
  obtain ⟨post, hstart, -, hholding⟩ := h
  exact ⟨post ++ [x], afterStart_append hstart, not_succeeds_snoc hx, hholding.owned, hholding.locked⟩

/-! ## The operations of a run -/

theorem mem_replace {s : ExecutionStep} (h : s ∈ done ++ step :: later) (hne : s.id ≠ step.id) :
    s ∈ done ++ step' :: later := by
  rcases List.mem_append.mp h with h | h
  · exact List.mem_append_left _ h
  rcases List.mem_cons.mp h with rfl | h
  · exact absurd rfl hne
  · exact List.mem_append_right _ (List.mem_cons_of_mem _ h)

theorem Holding.updateStep (h : Holding i started (done ++ step :: later) w) (hid : step'.id = step.id)
    (hissued : w'.issued = w.issued) (hexecutions : w'.db.executions = w.db.executions)
    (hsteps : w'.db.executionSteps = updateStepRow step' w.db.executionSteps)
    (hlocks : w'.db.ritualExecutionLocks = w.db.ritualExecutionLocks) :
    Holding i started (done ++ step' :: later) w' where
  owned := hissued ▸ h.owned
  running row hr := by
    refine h.running row ?_
    rw [mem_slice_executions] at hr ⊢
    exact hexecutions ▸ hr
  locked := by
    have hlocked := h.locked
    rw [mem_slice_locks] at hlocked ⊢
    exact hlocks ▸ hlocked
  mirrored row hr := by
    rw [mem_slice_steps, hsteps] at hr
    obtain ⟨hm, hexecution⟩ := hr
    obtain ⟨y, hy, rfl⟩ := mem_updateRows.mp hm
    -- the row is the one that is written, or it stays
    split_ifs at hexecution ⊢ with hyid
    · have hyid' : y.id = step'.id := by simpa using hyid
      exact ⟨step', by simp, hyid'.symm, rfl⟩
    · obtain ⟨s, hs, hsid, hstatus⟩ := h.mirrored y (mem_slice_steps.mpr ⟨hy, hexecution⟩)
      have hyid' : y.id ≠ step'.id := by simpa using hyid
      exact ⟨s, mem_replace hs (hsid.trans_ne (hyid'.trans_eq hid)), hsid, hstatus⟩
  drawn s hs := by
    have hkept : ∀ {id : Uuid}, (∀ row ∈ (w.db.slice id).step, row.executionId = started.id) →
        ∀ row ∈ (w'.db.slice id).step, row.executionId = started.id := by
      intro id hrows row hr
      rw [mem_slice_step, hsteps] at hr
      obtain ⟨hm, hrid⟩ := hr
      obtain ⟨y, hy, rfl⟩ := mem_updateRows.mp hm
      split_ifs at hrid ⊢
      · exact hrows y (mem_slice_step.mpr ⟨hy, hrid⟩)
      · exact hrows y (mem_slice_step.mpr ⟨hy, hrid⟩)
    rw [hissued]
    -- the step is the one that is written, or one of the others
    rcases eq_or_ne s step' with rfl | hne
    · rw [hid]
      obtain ⟨howned, hrows⟩ := h.drawn step (by simp)
      exact ⟨howned, hkept hrows⟩
    · have hs' : s ∈ done ++ step :: later := by
        rcases List.mem_append.mp hs with hs | hs
        · exact List.mem_append_left _ hs
        · exact List.mem_append_right _ (List.mem_cons_of_mem _ ((List.mem_cons.mp hs).resolve_left hne))
      obtain ⟨howned, hrows⟩ := h.drawn s hs'
      exact ⟨howned, hkept hrows⟩

theorem performs_updateStep (step' : ExecutionStep) (hid : step'.id = step.id) :
    (ownership crates).Performs i (Going i started (done ++ step :: later)) (.storage (.updateStep step'))
      fun r => match r with
        | .ok _ => Going i started (done ++ step' :: later)
        | .error _ => Stuck i started := by
  intro τ w ch r w' hw hgoing hact
  obtain ⟨post, hstart, hpost, hholding⟩ := id hgoing
  obtain ⟨howned, hrows⟩ := hholding.drawn step (by simp)
  have hp : Permitted i w (.storage (.updateStep step')) := by
    refine ⟨hid ▸ howned, fun row hrow x hx => ?_⟩
    rw [hid] at hrow
    rw [hrows row hrow] at hx
    exact hholding.running x hx
  have hkept := Owned.act hw hp hact
  refine ⟨⟨hkept.1, hp, hkept.2⟩, ?_⟩
  obtain ⟨he, hw'⟩ := act_storage (i := i) hact
  have hissued : w'.issued = w.issued := by rw [hw']
  cases r with
  | error e =>
    have hdb : w'.db = w.db := he
    have hrelies : Relies i w w' := .of_eq hdb fun _ hx => hissued ▸ hx
    exact (hgoing.failed rfl).mono hrelies
  | ok u =>
    obtain ⟨-, hdb⟩ := updateStep_ok.mp he
    refine ⟨post ++ [_], afterStart_append hstart, hpost.snoc rfl, ?_⟩
    exact hholding.updateStep hid hissued (by rw [hdb]) (by rw [hdb]) (by rw [hdb])

theorem quiet_of_writes {operation : Operation} (h : operation.writes = []) :
    (Op.storage operation).Quiet := by
  intro target htable ht
  cases target with
  | table name =>
    rw [table_mem_targets, h] at ht
    exact nomatch ht
  | _ => simp [executionTables] at htable

theorem performs_getResource (resourceId : Uuid) :
    (ownership crates).Performs i (Going i started steps) (.storage (.getResource resourceId))
      fun r => match r with
        | .ok _ => Going i started steps
        | .error _ => Stuck i started := by
  refine Op.Quiet.performs (quiet_of_writes rfl) going_stable fun τ w r h => ?_
  cases r with
  | ok _ => exact h.succeeded rfl
  | error _ => exact h.failed rfl

theorem performs_other (ho : o.targets ⊆ [.adapter]) (hs : ∀ operation, o ≠ .storage operation) :
    (ownership crates).Performs i (Going i started steps) o fun _ => Going i started steps := by
  have hquiet : o.Quiet := quiet_of_targets (by simp [executionTables]) ho
  refine hquiet.performs going_stable fun τ w r h => h.succeeded ?_
  unfold storageSucceeded
  split
  · rename_i operation e heq
    exact absurd (congrArg Answered.op heq) (hs operation)
  · rfl

/-! ## The parts of a run -/

theorem Going.congr (h : Going i started (done ++ step :: later) τ w) (hid : step'.id = step.id)
    (hstatus : step'.status = step.status) : Going i started (done ++ step' :: later) τ w := by
  obtain ⟨post, hstart, hpost, hholding⟩ := h
  refine ⟨post, hstart, hpost, hholding.owned, hholding.running, hholding.locked, ?_, ?_⟩
  · intro row hr
    obtain ⟨s, hs, hsid, hs'⟩ := hholding.mirrored row hr
    rcases eq_or_ne s step with rfl | hne
    · exact ⟨step', by simp, hid.trans hsid, hstatus.trans hs'⟩
    · refine ⟨s, ?_, hsid, hs'⟩
      rcases List.mem_append.mp hs with hs | hs
      · exact List.mem_append_left _ hs
      · exact List.mem_append_right _ (List.mem_cons_of_mem _ ((List.mem_cons.mp hs).resolve_left hne))
  · intro s hs
    rcases eq_or_ne s step' with rfl | hne
    · rw [hid]
      exact hholding.drawn step (by simp)
    · refine hholding.drawn s ?_
      rcases List.mem_append.mp hs with hs | hs
      · exact List.mem_append_left _ hs
      · exact List.mem_append_right _ (List.mem_cons_of_mem _ ((List.mem_cons.mp hs).resolve_left hne))

/-- How the loop leaves its execution when it breaks off. -/
structure BrokenOff (execution execution' : Execution) : Prop where
  id : execution'.id = execution.id
  failureCode : execution'.failureCode ≠ none
  status : execution'.failureCode = some "ritual_timeout" ∨ execution'.status.isTerminal = true

def AfterRound (i : Nat) (started : Execution) (done later : List ExecutionStep) (execution : Execution)
    (τ : List (Answered Op.Res)) (r : Except CoreError Round) (w : World) : Prop :=
  match r with
  | .error _ => Stuck i started τ w
  | .ok (.next step) => step.status.isTerminal = true ∧ Going i started (done ++ step :: later) τ w
  | .ok (.stop execution' step) =>
    BrokenOff execution execution' ∧ Going i started (done ++ step :: later) τ w

@[simp] theorem selected_id (step : ExecutionStep) (identity : Option EligibleAdapter) :
    (step.selected identity).id = step.id := by
  cases identity <;> rfl

theorem recordDispatch_triple (successful : Nat) (bound : Bool) (finished : OffsetDateTime)
    (actionResult : Except DispatchedActionError DispatchedActionResult) :
    (ownership crates).Triple i (Going i started (done ++ step :: later))
      (recordDispatch execution successful step bound finished actionResult)
      (AfterRound i started done later execution) := by
  unfold recordDispatch
  split
  · rename_i dispatched
    refine Contract.Triple.perform going_stable
      (performs_updateStep (step.answered dispatched finished) rfl) fun r => ?_
    cases r with
    | error e => exact Contract.Triple.ret fun _ _ h => h
    | ok _ =>
      dsimp only
      split
      · rename_i hgood
        refine Contract.Triple.ret fun _ _ h => ⟨?_, h⟩
        rcases hgood with hs | hs <;> rw [hs] <;> rfl
      · exact Contract.Triple.ret fun _ _ h => ⟨⟨rfl, by simp, .inr (stoppedStatus_terminal _)⟩, h⟩
  · rename_i error
    dsimp only
    split
    · refine Contract.Triple.ret fun _ _ h => ⟨⟨rfl, by simp, .inl rfl⟩, ?_⟩
      exact h.congr (selected_id _ _) (selected_status _ _)
    · refine Contract.Triple.perform going_stable (performs_updateStep
        ((step.selected error.identity).undispatched error.kind finished) (selected_id _ _))
        fun r => ?_
      cases r with
      | error e => exact Contract.Triple.ret fun _ _ h => h
      | ok _ =>
        exact Contract.Triple.ret fun _ _ h => ⟨⟨rfl, by simp, .inr (stoppedStatus_terminal _)⟩, h⟩

theorem resolveResource_triple (action : ActionSpec) :
    (ownership crates).Triple i (Going i started steps) (resolveResource action) fun τ r w =>
      match r with
      | .error _ => Stuck i started τ w
      | .ok _ => Going i started steps τ w := by
  unfold resolveResource
  split
  · refine Contract.Triple.perform going_stable (performs_getResource _) fun r => ?_
    cases r <;> exact Contract.Triple.ret fun _ _ h => h
  · refine Contract.Triple.perform going_stable (performs_getResource _) fun r => ?_
    cases r <;> exact Contract.Triple.ret fun _ _ h => h
  · exact Contract.Triple.ret fun _ _ h => h

theorem executeAction_triple (deadline successful : Nat) (action : ActionSpec) :
    (ownership crates).Triple i (Going i started (done ++ step :: later))
      (executeAction deadline execution successful action step)
      (AfterRound i started done later execution) := by
  unfold executeAction
  refine Contract.Triple.perform going_stable (performs_other (by simp [Op.targets]) (by simp))
    fun instant => ?_
  dsimp only
  split
  · exact Contract.Triple.ret fun _ _ h => ⟨⟨rfl, by simp, .inl rfl⟩, h⟩
  refine Contract.Triple.perform going_stable (performs_other (by simp [Op.targets]) (by simp))
    fun started' => ?_
  refine Contract.Triple.perform going_stable
    (performs_updateStep { step with status := .running, startedAt := started' } rfl) fun r => ?_
  cases r with
  | error e => exact Contract.Triple.ret fun _ _ h => h
  | ok _ =>
    refine Contract.Triple.bind (resolveResource_triple action) fun r => ?_
    cases r with
    | error e => exact Contract.Triple.ret fun _ _ h => h
    | ok resolved =>
      refine Contract.Triple.perform going_stable (performs_other (by simp [Op.targets]) (by simp))
        fun actionResult => ?_
      refine Contract.Triple.perform going_stable (performs_other (by simp [Op.targets]) (by simp))
        fun finished => ?_
      exact recordDispatch_triple _ _ _ _

def AfterLoop (i : Nat) (started execution : Execution) (τ : List (Answered Op.Res))
    (r : Except CoreError Progress) (w : World) : Prop :=
  match r with
  | .error _ => Stuck i started τ w
  | .ok progress => Going i started progress.steps τ w ∧
    ((progress.execution = execution ∧ ∀ s ∈ progress.steps, s.status.isTerminal = true) ∨
      BrokenOff execution progress.execution)

theorem executeActions_triple (deadline : Nat) {actions : List ActionSpec} (successful : Nat)
    (hlength : steps.length = actions.length) (hdone : ∀ s ∈ done, s.status.isTerminal = true) :
    (ownership crates).Triple i (Going i started (done ++ steps))
      (executeActions deadline execution successful done actions steps)
      (AfterLoop i started execution) := by
  induction actions generalizing successful done steps with
  | nil =>
    obtain rfl := List.eq_nil_of_length_eq_zero hlength
    unfold executeActions
    refine Contract.Triple.ret fun _ _ h => ⟨h, .inl ⟨rfl, ?_⟩⟩
    simpa using hdone
  | cons action actions ih =>
    cases steps with
    | nil => cases hlength
    | cons step later =>
      unfold executeActions
      refine Contract.Triple.bind (executeAction_triple _ _ _) fun r => ?_
      rcases r with e | step' | ⟨execution', step'⟩
      · exact Contract.Triple.ret fun _ _ h => h
      · intro τ w hw h
        have hdone' : ∀ s ∈ done ++ [step'], s.status.isTerminal = true :=
          List.forall_mem_append.mpr ⟨hdone, by simpa using h.1⟩
        refine ih _ (Nat.succ.inj hlength) hdone' τ w hw ?_
        rw [List.append_assoc, List.singleton_append]
        exact h.2
      · exact Contract.Triple.ret fun _ _ h => ⟨h.2, .inr h.1⟩

def AfterFinalization (i : Nat) (started : Execution) (done : List ExecutionStep)
    (τ : List (Answered Op.Res)) (r : Except CoreError (List ExecutionStep)) (w : World) : Prop :=
  match r with
  | .error _ => Stuck i started τ w
  | .ok steps => Going i started (done ++ steps) τ w ∧ ∀ s ∈ steps, s.status.isTerminal = true

theorem finalizeUnfinishedSteps_triple (finishedAt : OffsetDateTime) (code message : String) :
    (ownership crates).Triple i (Going i started (done ++ steps))
      (finalizeUnfinishedSteps finishedAt code message steps) (AfterFinalization i started done) := by
  induction steps generalizing done with
  | nil => exact Contract.Triple.ret fun _ _ h => ⟨h, fun _ hs => nomatch hs⟩
  | cons step later ih =>
    -- what comes behind a step that is finished
    have hrest : ∀ {step' : ExecutionStep}, step'.status.isTerminal = true →
        (ownership crates).Triple i (Going i started (done ++ step' :: later))
          (finalizeUnfinishedSteps finishedAt code message later >>= fun r =>
            match r with
            | .error error => return .error error
            | .ok steps => return .ok (step' :: steps)) (AfterFinalization i started done) := by
      intro step' hterminal
      have hlater : (ownership crates).Triple i (Going i started (done ++ [step'] ++ later))
          (finalizeUnfinishedSteps finishedAt code message later)
          (AfterFinalization i started (done ++ [step'])) := ih
      rw [List.append_assoc, List.singleton_append] at hlater
      refine Contract.Triple.bind hlater fun r => ?_
      cases r with
      | error e => exact Contract.Triple.ret fun _ _ h => h
      | ok steps' =>
        refine Contract.Triple.ret fun _ _ h => ⟨?_, List.forall_mem_cons.mpr ⟨hterminal, h.2⟩⟩
        simpa using h.1
    unfold finalizeUnfinishedSteps
    split
    · refine Contract.Triple.perform going_stable
        (performs_updateStep (step.aborted finishedAt code message) rfl) fun r => ?_
      cases r with
      | error e => exact Contract.Triple.ret fun _ _ h => h
      | ok _ => exact hrest rfl
    · rename_i hfinished
      refine hrest ?_
      cases hs : step.status with
      | pending => exact absurd (.inl hs) hfinished
      | running => exact absurd (.inr hs) hfinished
      | _ => rfl

/-- The run has its final status and finished steps, all of them stored. -/
def AfterFinish (i : Nat) (started execution : Execution) (τ : List (Answered Op.Res))
    (r : Except CoreError (Execution × List ExecutionStep)) (w : World) : Prop :=
  match r with
  | .error _ => Stuck i started τ w
  | .ok (execution', steps) => Going i started steps τ w ∧ execution'.id = execution.id ∧
    execution'.status.isTerminal = true ∧ ∀ s ∈ steps, s.status.isTerminal = true

theorem finishSteps_triple (finishedAt : OffsetDateTime) (progress : Progress)
    (hcode : execution.failureCode = none)
    (hends : (progress.execution = execution ∧ ∀ s ∈ progress.steps, s.status.isTerminal = true) ∨
      BrokenOff execution progress.execution) :
    (ownership crates).Triple i (Going i started progress.steps)
      (finishSteps finishedAt progress) (AfterFinish i started execution) := by
  have hfinalize : ∀ {code message : String} {execution' : Execution}, execution'.id = execution.id →
      execution'.status.isTerminal = true →
      (ownership crates).Triple i (Going i started progress.steps)
        (finalizeUnfinishedSteps finishedAt code message progress.steps >>= fun r =>
          match r with
          | .error error => return .error error
          | .ok steps => return .ok (execution', steps)) (AfterFinish i started execution) := by
    intro code message execution' hid hterminal
    have hsteps : (ownership crates).Triple i (Going i started ([] ++ progress.steps))
        (finalizeUnfinishedSteps finishedAt code message progress.steps)
        (AfterFinalization i started []) := finalizeUnfinishedSteps_triple _ _ _
    refine Contract.Triple.bind hsteps fun r => ?_
    cases r with
    | error e => exact Contract.Triple.ret fun _ _ h => h
    | ok steps => exact Contract.Triple.ret fun _ _ h => ⟨h.1, hid, hterminal, h.2⟩
  unfold finishSteps
  rcases hends with ⟨hsame, hsteps⟩ | hbroken
  · have hnone : progress.execution.failureCode = none := hsame ▸ hcode
    rw [if_neg (by simp [hnone]), if_pos hnone]
    have hid : progress.execution.id = execution.id := congrArg Execution.id hsame
    exact Contract.Triple.ret fun _ _ h => ⟨h, hid, rfl, hsteps⟩
  · split_ifs with htimeout hnone
    · exact hfinalize hbroken.id (stoppedStatus_terminal _)
    · exact absurd hnone hbroken.failureCode
    · exact hfinalize hbroken.id (hbroken.status.resolve_left htimeout)

/-- The last write of a run ends its execution, or leaves it locked. -/
theorem performs_updateExecution (hid : execution.id = started.id)
    (hterminal : execution.status.isTerminal = true) (hsteps : ∀ s ∈ steps, s.status.isTerminal = true) :
    (ownership crates).Performs i (Going i started steps) (.storage (.updateExecution execution))
      fun r => match r with
        | .ok _ => Done i started
        | .error _ => Stuck i started := by
  intro τ w ch r w' hw ⟨post, hstart, hpost, hholding⟩ hact
  have hstored : ∀ s ∈ (w.db.slice started.id).steps, s.status.isTerminal = true := by
    intro s hs
    obtain ⟨s', hs', -, hstatus⟩ := hholding.mirrored s hs
    exact hstatus ▸ hsteps s' hs'
  have hp : Permitted i w (.storage (.updateExecution execution)) :=
    ⟨hid ▸ hholding.owned, hterminal, hid ▸ hstored⟩
  have hkept := Owned.act hw hp hact
  refine ⟨⟨hkept.1, hp, hkept.2⟩, ?_⟩
  obtain ⟨he, hw'⟩ := act_storage (i := i) hact
  have howned : (started.id, i) ∈ w'.issued := by
    rw [hw']
    exact hholding.owned
  cases r with
  | error e =>
    -- the write is lost, and the lock is still there
    have hlocks : w'.db.ritualExecutionLocks = w.db.ritualExecutionLocks := by
      rcases he with hdb | hdb <;> rw [hdb]
    refine ⟨post ++ [_], afterStart_append hstart, not_succeeds_snoc rfl, howned, ?_⟩
    have hlocked := hholding.locked
    rw [mem_slice_locks] at hlocked ⊢
    exact hlocks ▸ hlocked
  | ok _ =>
    obtain ⟨⟨row, hrow, hrowid⟩, hdb⟩ := he
    -- the row takes its last status, its steps are finished, and the lock goes with the write
    refine ⟨post ++ [_], afterStart_append hstart, hpost.snoc rfl, howned, ?_, ?_, ?_⟩
    · refine ⟨{ row with
        status := execution.status, startedAt := execution.startedAt, finishedAt := execution.finishedAt,
        failureCode := execution.failureCode }, ?_, hrowid.trans hid, hterminal⟩
      rw [hdb]
      exact mem_updateRows.mpr ⟨row, hrow, if_pos (by simpa using hrowid)⟩
    · intro s hs heq
      refine hstored s (mem_slice_steps.mpr ⟨?_, heq⟩)
      rw [hdb] at hs
      exact hs
    · intro lock hl
      have hended : execution.status ≠ .running := by
        intro hrunning
        rw [hrunning] at hterminal
        exact nomatch hterminal
      rw [hdb] at hl
      dsimp only at hl
      rw [if_pos hended] at hl
      have hreleased := (mem_deleteRows.mp hl).2
      rw [← hid]
      simpa using hreleased

theorem concludeExecution_triple (finishedAt : OffsetDateTime) (hid : execution.id = started.id)
    (hterminal : execution.status.isTerminal = true) (hsteps : ∀ s ∈ steps, s.status.isTerminal = true) :
    (ownership crates).Triple i (Going i started steps) (concludeExecution finishedAt execution steps)
      fun τ _ w => Stuck i started τ w ∨ Done i started τ w := by
  have hinvariant : terminalStepInvariant execution.status steps = true := by
    rw [terminalStepInvariant, List.all_eq_true.mpr hsteps, Bool.or_true]
  unfold concludeExecution
  dsimp only
  rw [hinvariant, if_neg (by simp)]
  refine Contract.Triple.perform going_stable (performs_updateExecution hid hterminal hsteps) fun r => ?_
  cases r with
  | error e => exact Contract.Triple.ret fun _ _ h => .inl h
  | ok _ =>
    dsimp only
    split
    · exact Contract.Triple.ret fun _ _ h => .inr h
    · exact Contract.Triple.ret fun _ _ h => .inr h

theorem executeSteps_triple {definition : RitualDefinition}
    (hid : execution.id = started.id) (hcode : execution.failureCode = none)
    (hlength : steps.length = definition.actions.length) :
    (ownership crates).Triple i (Going i started steps) (executeSteps execution steps definition)
      fun τ _ w => Stuck i started τ w ∨ Done i started τ w := by
  unfold executeSteps
  refine Contract.Triple.perform going_stable (performs_other (by simp [Op.targets]) (by simp))
    fun instant => ?_
  have hloop : (ownership crates).Triple i (Going i started ([] ++ steps))
      (executeActions (instant + definition.execution.timeoutSeconds * nanosPerSecond) execution 0 []
        definition.actions steps) (AfterLoop i started execution) :=
    executeActions_triple _ _ hlength (by simp)
  refine Contract.Triple.bind hloop fun r => ?_
  cases r with
  | error e => exact Contract.Triple.ret fun _ _ h => .inl h
  | ok progress =>
    rintro τ w hw ⟨hgoing, hends⟩
    refine Contract.Triple.perform going_stable (performs_other (by simp [Op.targets]) (by simp))
      (fun finished => ?_) τ w hw hgoing
    refine Contract.Triple.bind (finishSteps_triple finished progress hcode hends) fun r => ?_
    rcases r with e | ⟨execution', steps'⟩
    · exact Contract.Triple.ret fun _ _ h => .inl h
    · rintro τ w hw ⟨hgoing, hid', hterminal, hsteps⟩
      exact concludeExecution_triple finished (hid'.trans hid) hterminal hsteps τ w hw hgoing

/-! ## Before the start -/

theorem afterStart_quiet {r : o.Res} (ho : o.Quiet) (h : afterStart τ = none) :
    afterStart (τ ++ [⟨o, r⟩]) = none := by
  rw [afterStart_append_none h]
  unfold afterStart
  split
  · rfl
  · rename_i heq
    obtain ⟨hx, -⟩ := List.cons.inj heq
    have hop : o = _ := congrArg Answered.op hx
    exact absurd (ho (.table .executions)) (by rw [hop]; simp [executionTables, Op.targets, Operation.writes])
  · rename_i heq
    obtain ⟨-, rfl⟩ := List.cons.inj heq
    rfl

/-- The run has not started an execution, and knows this of the world. -/
def Before (B : World → Prop) (τ : List (Answered Op.Res)) (w : World) : Prop :=
  afterStart τ = none ∧ B w

/-- What the other tasks do does not undo it. -/
def Lasts (i : Nat) (B : World → Prop) : Prop := ∀ w w', Relies i w w' → B w → B w'

theorem Lasts.stable {B : World → Prop} (hB : Lasts i B) : (ownership crates).Stable i (Before B) :=
  fun _ w w' hr _ h => ⟨h.1, hB w w' hr h.2⟩

theorem Lasts.and {B B' : World → Prop} (hB : Lasts i B) (hB' : Lasts i B') :
    Lasts i fun w => B w ∧ B' w :=
  fun w w' hr h => ⟨hB w w' hr h.1, hB' w w' hr h.2⟩

theorem Lasts.performs {B : World → Prop} (hB : Lasts i B) (ho : o.Quiet) :
    (ownership crates).Performs i (Before B) o fun _ => Before B :=
  ho.performs hB.stable fun _ _ _ h => ⟨afterStart_quiet ho h.1, h.2⟩

theorem Lasts.triple {B : World → Prop} {α : Type} {p : Core α} {targets : List Target}
    (hB : Lasts i B) (hp : ActsOn targets p) (ht : ∀ target ∈ executionTables, target ∉ targets) :
    (ownership crates).Triple i (Before B) p fun τ _ w => Before B τ w := by
  have hquiet : (ownership crates).Triple i (Before B) p fun τ _ w => True ∧ Before B τ w :=
    Contract.Triple.of_meets hB.stable hp fun o ho => hB.performs (quiet_of_targets ht ho)
  simpa using hquiet

theorem newUuid_quiet : Op.newUuid.Quiet := fun _ _ ht => nomatch ht

/-- A new id has not been drawn before, and nothing is stored under it. -/
theorem newUuid_unused {id : Uuid} (crates : Crates) (hw : Owned w)
    (h : World.act crates i .newUuid ch w = some (id, w')) :
    Unused i id w' ∧ id ∉ w.issued.map (·.1) := by
  have hdb := act_other h (by simp)
  simp only [World.act] at h
  split_ifs at h with hfresh
  obtain ⟨rfl, rfl⟩ := Prod.mk.inj (Option.some.inj h)
  have hnot : ∀ {j}, (ch.uuid, j) ∉ w.issued := fun hm => hfresh (List.mem_map_of_mem hm)
  refine ⟨⟨List.mem_cons_self, ?_, ?_, ?_⟩, hfresh⟩
  · refine List.eq_nil_iff_forall_not_mem.mpr fun row hr => ?_
    obtain ⟨hm, heq⟩ := mem_slice_executions.mp hr
    obtain ⟨j, hj⟩ := hw.executions row hm
    exact hnot (heq ▸ hj)
  · refine List.eq_nil_iff_forall_not_mem.mpr fun row hr => ?_
    obtain ⟨hm, heq⟩ := mem_slice_steps.mp hr
    obtain ⟨j, -, hj⟩ := hw.steps row hm
    exact hnot (heq ▸ hj)
  · refine List.eq_nil_iff_forall_not_mem.mpr fun row hr => ?_
    obtain ⟨hm, heq⟩ := mem_slice_step.mp hr
    obtain ⟨j, hj, -⟩ := hw.steps row hm
    exact hnot (heq ▸ hj)

theorem unused_lasts (i : Nat) (id : Uuid) : Lasts i (Unused i id) := fun _ _ hr h => h.mono hr

/-- What a run that has not started yet gets with a new id; `used` are ids that it has drawn. -/
theorem Lasts.performs_newUuid {B : World → Prop} (hB : Lasts i B) (used : List Uuid) :
    (ownership crates).Performs i (Before fun w => B w ∧ ∀ id ∈ used, (id, i) ∈ w.issued) .newUuid
      fun id τ w => Before (fun w => (B w ∧ Unused i id w) ∧ ∀ id' ∈ id :: used, (id', i) ∈ w.issued) τ w ∧
        id ∉ used := by
  intro τ w ch id w' hw h hact
  have howned : Lasts i fun w => ∀ id ∈ used, (id, i) ∈ w.issued :=
    fun _ _ hr hall id hid => hr.issued _ (hall id hid)
  obtain ⟨hkept, hbefore⟩ := (hB.and howned).performs newUuid_quiet τ w ch id w' hw h hact
  obtain ⟨hunused, hfresh⟩ := newUuid_unused crates hw hact
  refine ⟨hkept, ⟨hbefore.1, ⟨hbefore.2.1, hunused⟩, ?_⟩, fun hid => ?_⟩
  · exact List.forall_mem_cons.mpr ⟨hunused.owned, hbefore.2.2⟩
  · exact hfresh (List.mem_map_of_mem (f := Prod.fst) (h.2.2 id hid))

/-- Steps of an execution numbered from `index`, whose ids are new. -/
structure Numbered (i : Nat) (executionId : Uuid) (index length : Nat) (steps : List ExecutionStep)
    (w : World) : Prop where
  length : steps.length = length
  unused : ∀ s ∈ steps, Unused i s.id w ∧ s.executionId = executionId
  ids : Keyed ExecutionStep.id steps
  indices : Keyed ExecutionStep.stepIndex steps
  from_index : ∀ s ∈ steps, index ≤ s.stepIndex

theorem numbered_lasts (i : Nat) (executionId : Uuid) (index length : Nat) (steps : List ExecutionStep) :
    Lasts i (Numbered i executionId index length steps) :=
  fun _ _ hr h => ⟨h.length, fun s hs => ⟨(h.unused s hs).1.mono hr, (h.unused s hs).2⟩, h.ids,
    h.indices, h.from_index⟩

theorem newSteps_triple {B : World → Prop} (hB : Lasts i B) (executionId : Uuid) (now : OffsetDateTime)
    (index : Nat) (actions : List ActionSpec) (used : List Uuid) :
    (ownership crates).Triple i (Before fun w => B w ∧ ∀ id ∈ used, (id, i) ∈ w.issued)
      (newSteps executionId now index actions)
      fun τ steps w => Before (fun w => B w ∧ Numbered i executionId index actions.length steps w) τ w ∧
        ∀ s ∈ steps, s.id ∉ used := by
  induction actions generalizing index used B with
  | nil =>
    refine Contract.Triple.ret fun _ _ h => ⟨⟨h.1, h.2.1, rfl, ?_, keyed_nil, keyed_nil, ?_⟩, ?_⟩
    · exact fun _ hs => nomatch hs
    · exact fun _ hs => nomatch hs
    · exact fun _ hs => nomatch hs
  | cons action actions ih =>
    have howned : Lasts i fun w => ∀ id ∈ used, (id, i) ∈ w.issued :=
      fun _ _ hr hall id hid => hr.issued _ (hall id hid)
    unfold newSteps
    refine Contract.Triple.perform (hB.and howned).stable (hB.performs_newUuid used) fun id => ?_
    rintro τ w hw ⟨hbefore, hid⟩
    -- the new id joins those that the later steps may not draw
    refine Contract.Triple.bind (ih (hB.and (unused_lasts i id)) (index + 1) (id :: used))
      (fun steps => ?_) τ w hw hbefore
    refine Contract.Triple.ret fun τ w h => ?_
    obtain ⟨⟨hstart, ⟨hBw, hunused⟩, hsteps⟩, hnew⟩ := h
    refine ⟨⟨hstart, hBw, congrArg (· + 1) hsteps.length, ?_, ?_, ?_, ?_⟩, ?_⟩
    · exact List.forall_mem_cons.mpr ⟨⟨hunused, rfl⟩, hsteps.unused⟩
    · rw [Keyed, List.map_cons]
      refine List.nodup_cons.mpr ⟨fun hm => ?_, hsteps.ids⟩
      obtain ⟨s, hs, hsid⟩ := List.mem_map.mp hm
      exact hnew s hs (hsid ▸ List.mem_cons_self)
    · rw [Keyed, List.map_cons]
      refine List.nodup_cons.mpr ⟨fun hm => ?_, hsteps.indices⟩
      obtain ⟨s, hs, hsindex⟩ := List.mem_map.mp hm
      have hlater := hsteps.from_index s hs
      have hindex : s.stepIndex = index := hsindex
      omega
    · refine List.forall_mem_cons.mpr ⟨Nat.le_refl _, fun s hs => ?_⟩
      exact Nat.le_of_succ_le (hsteps.from_index s hs)
    · exact List.forall_mem_cons.mpr ⟨hid, fun s hs hm => hnew s hs (List.mem_cons_of_mem _ hm)⟩

/-! ## The start -/

def Known (ritualId : Uuid) (version : RitualVersion) (w : World) : Prop :=
  (∃ row ∈ w.db.rituals, row.id = ritualId) ∧ version ∈ w.db.ritualVersions

theorem known_lasts (i : Nat) (ritualId : Uuid) (version : RitualVersion) :
    Lasts i (Known ritualId version) := by
  rintro w w' hr ⟨⟨row, hrow, hid⟩, hversion⟩
  obtain ⟨row', hrow', hid'⟩ := hr.grows.rituals row hrow
  exact ⟨⟨row', hrow', hid'.trans hid⟩, hr.grows.versions _ hversion⟩

section Start
variable {executionId ritualId : Uuid} {version : RitualVersion} {now : OffsetDateTime} {length : Nat}

def Ready (i : Nat) (executionId ritualId : Uuid) (version : RitualVersion) (length : Nat)
    (steps : List ExecutionStep) (w : World) : Prop :=
  (Known ritualId version w ∧ Unused i executionId w) ∧ Numbered i executionId 0 length steps w

theorem Ready.startable (h : Ready i executionId ritualId version length steps w) :
    Startable i w (newExecution executionId ritualId version now) steps where
  owned := h.1.2.owned
  fresh := ⟨h.1.2.executions, h.1.2.steps⟩
  running := rfl
  ritual := h.1.1.1
  version := ⟨version, h.1.1.2, rfl⟩
  drawn s hs := ⟨(h.2.unused s hs).1.owned, (h.2.unused s hs).2, (h.2.unused s hs).1.step⟩
  ids := h.2.ids
  indices := h.2.indices

theorem Ready.holding (h : Ready i executionId ritualId version length steps w)
    (hissued : w'.issued = w.issued)
    (hexecutions : w'.db.executions = w.db.executions ++ [newExecution executionId ritualId version now])
    (hsteps : w'.db.executionSteps = w.db.executionSteps ++ steps)
    (hlocks : w'.db.ritualExecutionLocks = w.db.ritualExecutionLocks ++ [⟨ritualId, executionId⟩]) :
    Holding i (newExecution executionId ritualId version now) steps w' where
  owned := hissued ▸ h.1.2.owned
  running row hr := by
    obtain ⟨hm, hid⟩ := mem_slice_executions.mp hr
    rw [hexecutions] at hm
    -- nothing of the execution was there before, since its id is new
    rcases List.mem_append.mp hm with hm | hm
    · have hold := mem_slice_executions.mpr ⟨hm, hid⟩
      exact nomatch h.1.2.executions ▸ hold
    · exact List.mem_singleton.mp hm ▸ rfl
  locked := by
    rw [mem_slice_locks, hlocks]
    exact ⟨List.mem_append_right _ (List.mem_singleton_self _), rfl⟩
  mirrored row hr := by
    obtain ⟨hm, hid⟩ := mem_slice_steps.mp hr
    rw [hsteps] at hm
    rcases List.mem_append.mp hm with hm | hm
    · have hold := mem_slice_steps.mpr ⟨hm, hid⟩
      exact nomatch h.1.2.steps ▸ hold
    · exact ⟨row, hm, rfl, rfl⟩
  drawn s hs := by
    obtain ⟨hunused, -⟩ := h.2.unused s hs
    refine ⟨hissued ▸ hunused.owned, fun row hr => ?_⟩
    obtain ⟨hm, hid⟩ := mem_slice_step.mp hr
    rw [hsteps] at hm
    rcases List.mem_append.mp hm with hm | hm
    · have hold := mem_slice_step.mpr ⟨hm, hid⟩
      exact nomatch hunused.step ▸ hold
    · exact (h.2.unused row hm).2

theorem performs_startExecution :
    (ownership crates).Performs i (Before (Ready i executionId ritualId version length steps))
      (.storage (.startExecution (newExecution executionId ritualId version now) steps))
      fun r => match r with
        | .ok _ => Going i (newExecution executionId ritualId version now) steps
        | .error _ => fun τ _ => afterStart τ = none := by
  intro τ w ch r w' hw ⟨hstart, hready⟩ hact
  have hp : Permitted i w (.storage (.startExecution (newExecution executionId ritualId version now) steps)) :=
    hready.startable
  have hkept := Owned.act hw hp hact
  refine ⟨⟨hkept.1, hp, hkept.2⟩, ?_⟩
  obtain ⟨he, hw'⟩ := act_storage (i := i) hact
  cases r with
  | error e => exact afterStart_append_none hstart
  | ok _ =>
    obtain ⟨-, -, -, hdb⟩ := startExecution_ok he
    refine ⟨[], afterStart_append_none hstart, fun _ hx => (nomatch hx), ?_⟩
    exact hready.holding (by rw [hw']) (by rw [hdb]) (by rw [hdb]) (by rw [hdb]; rfl)

/-- The run has started nothing, or its execution has ended, or is left locked after an error. -/
def Concluded (i : Nat) (τ : List (Answered Op.Res)) (w : World) : Prop :=
  afterStart τ = none ∨ ∃ started, Stuck i started τ w ∨ Done i started τ w

theorem concluded_stable : (ownership crates).Stable i (Concluded i) := by
  rintro τ w w' hr - (hnone | ⟨started, h | h⟩)
  · exact .inl hnone
  · exact .inr ⟨started, .inl (h.mono hr)⟩
  · exact .inr ⟨started, .inr (h.mono hr)⟩

theorem startAndExecute_triple (id ritualId : Uuid) (version : RitualVersion)
    (definition : RitualDefinition) :
    (ownership crates).Triple i (Before (Known ritualId version))
      (startAndExecute id ritualId version definition) fun τ _ w => Concluded i τ w := by
  have hknown := known_lasts i ritualId version
  unfold startAndExecute
  refine Contract.Triple.perform hknown.stable (hknown.performs fun _ _ ht => nomatch ht) fun now => ?_
  intro τ w hw hbefore
  have hnone : Before (fun w => Known ritualId version w ∧ ∀ id ∈ [], (id, i) ∈ w.issued) τ w :=
    ⟨hbefore.1, hbefore.2, fun _ hid => nomatch hid⟩
  refine Contract.Triple.perform (Lasts.stable ?_) (hknown.performs_newUuid []) (fun executionId => ?_)
    τ w hw hnone
  · exact hknown.and fun _ _ _ _ _ hid => nomatch hid
  rintro τ w hw ⟨hdrawn, -⟩
  have hboth := hknown.and (unused_lasts i executionId)
  refine Contract.Triple.bind (newSteps_triple hboth executionId now 0 definition.actions [executionId])
    (fun steps => ?_) τ w hw hdrawn
  rintro τ w hw ⟨hready, -⟩
  have hlength : steps.length = definition.actions.length := hready.2.2.length
  refine Contract.Triple.perform (Lasts.stable (hboth.and (numbered_lasts _ _ _ _ _)))
    performs_startExecution (fun r => ?_) τ w hw hready
  cases r with
  | error e =>
    cases e <;> exact Contract.Triple.ret fun _ _ h => .inl h
  | ok _ =>
    refine Contract.Triple.bind (executeSteps_triple rfl rfl hlength) fun r => ?_
    match r with
    | .ok (execution, steps') => exact Contract.Triple.ret fun _ _ h => .inr ⟨_, h⟩
    | .error (code, message) => exact Contract.Triple.ret fun _ _ h => .inr ⟨_, h⟩

def Unknown : World → Prop := fun _ => True

theorem unknown_lasts (i : Nat) : Lasts i Unknown := fun _ _ _ h => h

theorem performs_getRitual (ritualId : Uuid) :
    (ownership crates).Performs i (Before Unknown) (.storage (.getRitual ritualId))
      fun r => match r with
        | .ok (_, version, _) => Before (Known ritualId version)
        | .error _ => fun τ _ => afterStart τ = none := by
  intro τ w ch r w' hw h hact
  obtain ⟨hkept, hbefore⟩ := (unknown_lasts i).performs (quiet_of_writes rfl) τ w ch r w' hw h hact
  refine ⟨hkept, ?_⟩
  have he := (act_storage (i := i) hact).1
  match r with
  | .error e => exact hbefore.1
  | .ok (ritual, version, definition) =>
    obtain ⟨hritual, hversion, -, hdb⟩ := he
    obtain ⟨hrow, hid⟩ := findRitual_ok hritual
    refine ⟨hbefore.1, ⟨ritual, hdb ▸ hrow, hid⟩, ?_⟩
    rw [hdb]
    exact (findVersion_ok hversion).1

theorem ritualRunResponse_triple (id ritualId : Uuid) :
    (ownership crates).Triple i (Before Unknown) (ritualRunResponse crates id ritualId)
      fun τ _ w => Concluded i τ w := by
  unfold ritualRunResponse
  refine Contract.Triple.perform (unknown_lasts i).stable (performs_getRitual ritualId) fun r => ?_
  match r with
  | .error e => cases e <;> exact Contract.Triple.ret fun _ _ h => .inl h
  | .ok (ritual, version, definition) =>
    dsimp only
    split
    · exact Contract.Triple.ret fun _ _ h => .inl h.1
    have hknown := known_lasts i ritualId version
    refine Contract.Triple.bind (hknown.triple (preflight_actsOn version definition) (by simp)) fun r => ?_
    match r with
    | .error (code, message) => exact Contract.Triple.ret fun _ _ h => .inl h.1
    | .ok () => exact startAndExecute_triple _ _ _ _

/-- Whatever a connection sends, its task keeps the contract and concludes what it starts. -/
theorem handleFrame_triple (frame : Frame) :
    (ownership crates).Triple i (Before Unknown) (handleFrame crates frame)
      fun τ _ w => Concluded i τ w := by
  have hquiet : ∀ {α : Type} {p : Core α} {targets : List Target}, ActsOn targets p →
      (∀ target ∈ executionTables, target ∉ targets) →
      (ownership crates).Triple i (Before Unknown) p fun τ _ w => Concluded i τ w :=
    fun hp ht => ((unknown_lasts i).triple hp ht).mono fun _ _ _ h => .inl h.1
  cases frame with
  | request request =>
    have hbody : (ownership crates).Triple i (Before Unknown) (processRequest crates request)
        fun τ _ w => Concluded i τ w := by
      unfold processRequest
      split
      · exact Contract.Triple.ret fun _ _ h => .inl h.1
      have hactsOn := processBody_actsOn crates request.requestId request.body
      generalize request.body = body at hactsOn ⊢
      cases body with
      | ritualRun ritualId => exact ritualRunResponse_triple _ _
      | _ => exact hquiet hactsOn (by simp [executionTables, RequestBody.targets])
    exact Contract.Triple.bind hbody fun _ => Contract.Triple.ret fun _ _ h => h
  | _ => exact hquiet (handleFrame_actsOn crates _) (by simp [executionTables, Frame.targets])

end Start

/-! ## Runs -/

variable {now : Int} {instant : Nat} {files : Files} {path : String} {c : State}
  {ok : State → Concurrency.Event Nat Frame Choice Drift → Prop}

theorem reaches_owned (h : (daemon crates).Reaches (World.start now instant files path) ok c) :
    Owned c.world ∧ ∀ i t, c.threads i = some t →
      (ownership crates).Safe i (fun τ _ w => Concluded i τ w) t.rest t.trace c.world :=
  Contract.reaches_safe (ownership crates) (fun i _ τ _ w => Concluded i τ w)
    (fun _ _ _ => concluded_stable) (Owned.start now instant files path)
    (fun _ frame w hw _ => handleFrame_triple frame [] w hw ⟨rfl, trivial⟩) h

theorem reaches_permitted (h : (daemon crates).Reaches (World.start now instant files path) ok c)
    {t : Thread Op Op.Res Frame Reply} {k : o.Res → Core Reply} (ht : c.threads i = some t)
    (hrest : t.rest = .call o k) {r : o.Res} (hact : World.act crates i o ch c.world = some (r, w')) :
    Permitted i c.world o := by
  obtain ⟨howned, hsafe⟩ := reaches_owned h
  have hstep := hsafe i t ht
  rw [hrest] at hstep
  exact (hstep c.world (.refl i c.world) howned ch r w' hact).1.2.1

end Bookkeeping
end Fubun

import Fubun.Concurrency.Tracking
import Fubun.Executions.Bookkeeping

/-! What a run has committed of its execution, read off what it has been answered. A run writes its
steps one after another: it turns to a step when those before it have gone well, and its actions go
out from steps that are stored as running. -/

namespace Fubun
open Relational Concurrency Program System

/-! ## The ledger of a run -/

/-- The execution that a run has started, its steps as they are stored, the step it wrote last, the
steps whose actions have gone out, and whether the last write has been tried. -/
structure Ledger where
  execution : Execution
  steps : List ExecutionStep
  written : Option ExecutionStep
  dispatched : List Uuid
  concluded : Bool

def Ledger.enter : Option Ledger → Answered Op.Res → Option Ledger
  | _, ⟨.storage (.startExecution execution steps), .ok _⟩ => some ⟨execution, steps, none, [], false⟩
  | some ledger, ⟨.storage (.updateStep step), .ok _⟩ =>
    some { ledger with steps := updateStepRow step ledger.steps, written := some step }
  | some ledger, ⟨.storage (.updateExecution _), _⟩ => some { ledger with concluded := true }
  | some ledger, ⟨.execute .., _⟩ =>
    some { ledger with dispatched := ledger.dispatched ++ (ledger.written.map (·.id)).toList }
  | ledger, _ => ledger

def ledgerOf (τ : List (Answered Op.Res)) : Option Ledger := τ.foldl Ledger.enter none

@[simp] theorem ledgerOf_nil : ledgerOf [] = none := rfl

@[simp] theorem ledgerOf_snoc (τ : List (Answered Op.Res)) (x : Answered Op.Res) :
    ledgerOf (τ ++ [x]) = Ledger.enter (ledgerOf τ) x := by
  simp [ledgerOf]

def ExecutionStepStatus.rank : ExecutionStepStatus → Nat
  | .pending => 0
  | .running => 1
  | .succeeded | .skipped | .failed | .aborted => 2

theorem ExecutionStepStatus.rank_lt_two {status : ExecutionStepStatus} : status.rank < 2 ↔ status.isTerminal = false := by
  cases status <;> simp [rank, isTerminal]

def ExecutionStep.IsDone (step : ExecutionStep) : Prop := step.status = .succeeded ∨ step.status = .skipped

theorem ExecutionStep.IsDone.isTerminal {step : ExecutionStep} (h : step.IsDone) : step.status.isTerminal = true := by
  rcases h with h | h <;> rw [h] <;> rfl

/-- What no write of a step but that of its status changes. -/
def ExecutionStep.face (step : ExecutionStep) : Uuid × String × ExecutionStepStatus :=
  (step.id, step.actionType, step.status)

/-- A write of the step with this id comes in its turn: the steps before it have gone well unless
it gives the step up, and those after it are untouched. -/
structure Ledger.Turns (ledger : Ledger) (step : ExecutionStep) (done : List ExecutionStep) (row : ExecutionStep)
    (later : List ExecutionStep) : Prop where
  steps : ledger.steps = done ++ row :: later
  id : row.id = step.id
  advances : row.status.rank < step.status.rank
  later : ∀ s ∈ later, s.status = .pending
  done : step.status = .aborted ∨ ∀ s ∈ done, s.IsDone

/-- An action goes out from the step that is stored as running, and none has before. -/
structure Ledger.Sends (ledger : Ledger) (step : ExecutionStep) (done : List ExecutionStep) (row : ExecutionStep)
    (later : List ExecutionStep) : Prop where
  steps : ledger.steps = done ++ row :: later
  id : row.id = step.id
  running : row.status = .running
  actionType : row.actionType = step.actionType
  later : ∀ s ∈ later, s.status = .pending
  dispatched : ledger.dispatched = done.map (·.id)
  done : ∀ s ∈ done, s.IsDone

/-- The operations of a run in their order. -/
def InTurn (τ : List (Answered Op.Res)) : Op → Prop
  | .storage (.startExecution _ steps) =>
    (∀ s ∈ steps, s.status = .pending) ∧ steps.Pairwise (·.stepIndex < ·.stepIndex)
  | .storage (.updateStep step) => ∃ ledger, ledgerOf τ = some ledger ∧ ledger.concluded = false ∧
    (Keyed ExecutionStep.id ledger.steps → ∃ done row later, ledger.Turns step done row later)
  | .storage (.updateExecution execution) => ∃ ledger, ledgerOf τ = some ledger ∧ ledger.concluded = false ∧
    ledger.execution.id = execution.id
  | .execute action _ _ => ∃ ledger step, ledgerOf τ = some ledger ∧ ledger.concluded = false ∧
    ledger.written = some step ∧ step.status = .running ∧ step.actionType = action.actionType ∧
    (Keyed ExecutionStep.id ledger.steps → ∃ done row later, ledger.Sends step done row later)
  | _ => True

/-! ## The steps in memory -/

section Memory
variable {τ : List (Answered Op.Res)} {started execution : Execution} {out : List Uuid} {o : Op} {r : o.Res}
  {done later steps rows : List ExecutionStep} {step step' : ExecutionStep} {action : ActionSpec} {ledger : Ledger}

/-- The stored steps show what is in the memory of the run. -/
structure Ledger.Shows (ledger : Ledger) (started : Execution) (steps : List ExecutionStep) (out : List Uuid) : Prop where
  execution : ledger.execution = started
  unconcluded : ledger.concluded = false
  steps : Keyed ExecutionStep.id ledger.steps → ledger.steps.map (·.face) = steps.map (·.face)
  dispatched : Keyed ExecutionStep.id ledger.steps → ledger.dispatched = out

/-- The run has this execution open, with these steps in memory, and these have been sent out. -/
def Open (started : Execution) (steps : List ExecutionStep) (out : List Uuid) (τ : List (Answered Op.Res)) : Prop :=
  ∃ ledger, ledgerOf τ = some ledger ∧ ledger.Shows started steps out

theorem Open.idle (h : Open started steps out τ) (hr : ∀ ledger, Ledger.enter ledger ⟨o, r⟩ = ledger) :
    Open started steps out (τ ++ [⟨o, r⟩]) := by
  obtain ⟨ledger, hledger, hshows⟩ := h
  exact ⟨ledger, by rw [ledgerOf_snoc, hr, hledger], hshows⟩

theorem Open.congr (h : Open started (done ++ step :: later) out τ) (hface : step'.face = step.face) :
    Open started (done ++ step' :: later) out τ := by
  obtain ⟨ledger, hledger, hshows⟩ := h
  refine ⟨ledger, hledger, hshows.execution, hshows.unconcluded, fun hkeyed => ?_, hshows.dispatched⟩
  simpa [hface] using hshows.steps hkeyed

theorem rows_split (h : rows.map (·.face) = (done ++ step :: later).map (·.face)) :
    ∃ done' row later', rows = done' ++ row :: later' ∧ done'.map (·.face) = done.map (·.face) ∧
      row.face = step.face ∧ later'.map (·.face) = later.map (·.face) := by
  rw [List.map_append, List.map_cons] at h
  obtain ⟨done', rest, rfl, hdone, hrest⟩ := List.map_eq_append_iff.mp h
  obtain ⟨row, later', rfl, hrow, hlater⟩ := List.map_eq_cons_iff.mp hrest
  exact ⟨done', row, later', rfl, hdone, hrow, hlater⟩

theorem forall_status {φ : ExecutionStepStatus → Prop} (h : rows.map (·.face) = steps.map (·.face))
    (hsteps : ∀ s ∈ steps, φ s.status) : ∀ s ∈ rows, φ s.status := by
  intro s hs
  have hmem : s.face ∈ steps.map (·.face) := h ▸ List.mem_map_of_mem hs
  obtain ⟨s', hs', hface⟩ := List.mem_map.mp hmem
  simp only [ExecutionStep.face, Prod.mk.injEq] at hface
  exact hface.2.2 ▸ hsteps s' hs'

theorem map_id_eq (h : rows.map (·.face) = steps.map (·.face)) : rows.map (·.id) = steps.map (·.id) := by
  have hids := congrArg (List.map Prod.fst) h
  simpa [ExecutionStep.face, Function.comp_def] using hids

theorem keyed_updateStepRow : Keyed ExecutionStep.id (updateStepRow step rows) ↔ Keyed ExecutionStep.id rows := by
  rw [Keyed, Keyed, updateStepRow, map_updateRows]
  exact fun _ => rfl

def ExecutionStep.written (row step : ExecutionStep) : ExecutionStep :=
  { row with
    status := step.status
    adapterId := step.adapterId
    adapterInstanceId := step.adapterInstanceId
    startedAt := step.startedAt
    finishedAt := step.finishedAt
    resultCode := step.resultCode
    redactedMessage := step.redactedMessage }

theorem updateStepRow_split {row : ExecutionStep} (hkeyed : Keyed ExecutionStep.id (done ++ row :: later))
    (hid : row.id = step.id) : updateStepRow step (done ++ row :: later) = done ++ row.written step :: later := by
  rw [Keyed, List.map_append, List.map_cons, List.nodup_append, List.nodup_cons] at hkeyed
  obtain ⟨-, ⟨hlater, -⟩, hdone⟩ := hkeyed
  have hd : updateStepRow step done = done := by
    refine updateRows_of_forall_not fun s hs => ?_
    rw [← hid, beq_eq_false_iff_ne]
    exact hdone s.id (List.mem_map_of_mem hs) row.id List.mem_cons_self
  have hl : updateStepRow step later = later := by
    refine updateRows_of_forall_not fun s hs => ?_
    rw [← hid, beq_eq_false_iff_ne]
    exact fun heq => hlater (heq ▸ List.mem_map_of_mem hs)
  have hrow : updateStepRow step [row] = [row.written step] := by
    simp [updateStepRow, updateRows, hid, ExecutionStep.written]
  have happend : updateStepRow step (done ++ row :: later) =
      updateStepRow step done ++ (updateStepRow step [row] ++ updateStepRow step later) := by
    simp [updateStepRow, updateRows]
  rw [happend, hd, hl, hrow]
  rfl

theorem Open.write (h : Open started (done ++ step :: later) out τ) (hid : step'.id = step.id)
    (htype : step'.actionType = step.actionType) :
    Open started (done ++ step' :: later) out (τ ++ [⟨.storage (.updateStep step'), .ok ()⟩]) := by
  obtain ⟨ledger, hledger, hshows⟩ := h
  refine ⟨{ ledger with steps := updateStepRow step' ledger.steps, written := some step' }, ?_, hshows.execution,
    hshows.unconcluded, ?_, ?_⟩
  · rw [ledgerOf_snoc, hledger]
    rfl
  · intro hkeyed
    have hkeyed' := keyed_updateStepRow.mp hkeyed
    obtain ⟨done', row, later', hrows, hdone, hrow, hlater⟩ := rows_split (hshows.steps hkeyed')
    simp only [ExecutionStep.face, Prod.mk.injEq] at hrow
    dsimp only
    rw [hrows] at hkeyed' ⊢
    rw [updateStepRow_split hkeyed' (hrow.1.trans hid.symm)]
    have hface : (row.written step').face = step'.face := by
      simp [ExecutionStep.face, ExecutionStep.written, hrow.1, hrow.2.1, hid, htype]
    simp only [List.map_append, List.map_cons, hdone, hlater, hface]
  · exact fun hkeyed => hshows.dispatched (keyed_updateStepRow.mp hkeyed)

theorem Open.reaches (h : Open started (done ++ step :: later) out τ) (hid : step'.id = step.id)
    (hadvances : step.status.rank < step'.status.rank) (hlater : ∀ s ∈ later, s.status = .pending)
    (hdone : step'.status = .aborted ∨ ∀ s ∈ done, s.IsDone) : InTurn τ (.storage (.updateStep step')) := by
  obtain ⟨ledger, hledger, hshows⟩ := h
  refine ⟨ledger, hledger, hshows.unconcluded, fun hkeyed => ?_⟩
  obtain ⟨done', row, later', hrows, hdone', hrow, hlater'⟩ := rows_split (hshows.steps hkeyed)
  simp only [ExecutionStep.face, Prod.mk.injEq] at hrow
  refine ⟨done', row, later', hrows, hrow.1.trans hid.symm, hrow.2.2 ▸ hadvances, ?_, ?_⟩
  · exact forall_status (φ := (· = .pending)) hlater' hlater
  · exact hdone.imp_right fun hall => forall_status (φ := fun status => status = .succeeded ∨ status = .skipped) hdone' hall

def Current (step : ExecutionStep) (τ : List (Answered Op.Res)) : Prop :=
  ∃ ledger, ledgerOf τ = some ledger ∧ ledger.written = some step

/-- The run has the execution open, and wrote the step at hand last. -/
def OpenAt (started : Execution) (done : List ExecutionStep) (step : ExecutionStep) (later : List ExecutionStep)
    (out : List Uuid) (τ : List (Answered Op.Res)) : Prop := Open started (done ++ step :: later) out τ ∧ Current step τ

theorem Open.writeAt (h : Open started (done ++ step :: later) out τ) (hid : step'.id = step.id)
    (htype : step'.actionType = step.actionType) :
    OpenAt started done step' later out (τ ++ [⟨.storage (.updateStep step'), .ok ()⟩]) := by
  refine ⟨h.write hid htype, ?_⟩
  obtain ⟨ledger, hledger, -⟩ := h
  exact ⟨{ ledger with steps := updateStepRow step' ledger.steps, written := some step' },
    by rw [ledgerOf_snoc, hledger]; rfl, rfl⟩

theorem OpenAt.idle (h : OpenAt started done step later out τ) (hr : ∀ ledger, Ledger.enter ledger ⟨o, r⟩ = ledger) :
    OpenAt started done step later out (τ ++ [⟨o, r⟩]) := by
  refine ⟨h.1.idle hr, ?_⟩
  obtain ⟨ledger, hledger, hwritten⟩ := h.2
  exact ⟨ledger, by rw [ledgerOf_snoc, hr, hledger], hwritten⟩

theorem OpenAt.sends (h : OpenAt started done step later (done.map (·.id)) τ) (hrunning : step.status = .running)
    (htype : step.actionType = action.actionType) (hlater : ∀ s ∈ later, s.status = .pending)
    (hdone : ∀ s ∈ done, s.IsDone) (resolved : Option ResolvedResource) (timeout : Nat) :
    InTurn τ (.execute action resolved timeout) := by
  obtain ⟨⟨ledger, hledger, hshows⟩, ledger', hledger', hwritten⟩ := h
  obtain rfl := Option.some.inj (hledger.symm.trans hledger')
  refine ⟨ledger, step, hledger, hshows.unconcluded, hwritten, hrunning, htype, fun hkeyed => ?_⟩
  obtain ⟨done', row, later', hrows, hdone', hrow, hlater'⟩ := rows_split (hshows.steps hkeyed)
  simp only [ExecutionStep.face, Prod.mk.injEq] at hrow
  refine ⟨done', row, later', hrows, hrow.1, hrow.2.2.trans hrunning, hrow.2.1, ?_, ?_, ?_⟩
  · exact forall_status (φ := (· = .pending)) hlater' hlater
  · rw [hshows.dispatched hkeyed, map_id_eq hdone']
  · exact forall_status (φ := fun status => status = .succeeded ∨ status = .skipped) hdone' hdone

theorem OpenAt.sent (h : OpenAt started done step later (done.map (·.id)) τ) {resolved : Option ResolvedResource}
    {timeout : Nat} (reply : Except DispatchedActionError DispatchedActionResult) :
    Open started (done ++ step :: later) ((done ++ [step]).map (·.id)) (τ ++ [⟨.execute action resolved timeout, reply⟩]) := by
  obtain ⟨⟨ledger, hledger, hshows⟩, ledger', hledger', hwritten⟩ := h
  obtain rfl := Option.some.inj (hledger.symm.trans hledger')
  refine ⟨{ ledger with dispatched := ledger.dispatched ++ (ledger.written.map (·.id)).toList }, ?_, hshows.execution,
    hshows.unconcluded, hshows.steps, fun hkeyed => ?_⟩
  · rw [ledgerOf_snoc, hledger]
    rfl
  · simp [hshows.dispatched hkeyed, hwritten]

end Memory

/-! ## The steps one after another -/

section Turns
variable {started execution : Execution} {out : List Uuid} {done later steps : List ExecutionStep}
  {step step' : ExecutionStep} {actions : List ActionSpec}

/-- From `A`, the program keeps to the order of a run and ends in `Q`. -/
abbrev KeepsTurns {α : Type} (A : List (Answered Op.Res) → Prop) (p : Core α) (Q : List (Answered Op.Res) → α → Prop) :
    Prop := Follows InTurn A p Q

/-- A step that is not finished has only untouched ones behind it. -/
abbrev Untouched (steps : List ExecutionStep) : Prop :=
  steps.Pairwise fun s t => s.status.isTerminal = false → t.status = .pending

theorem untouched_done (hdone : ∀ s ∈ done, s.IsDone) : Untouched done :=
  List.pairwise_of_forall_mem_list fun s hs _ _ hunfinished => by
    cases hunfinished.symm.trans (hdone s hs).isTerminal

theorem untouched_split (hdone : ∀ s ∈ done, s.IsDone) (hlater : ∀ s ∈ later, s.status = .pending) :
    Untouched (done ++ step :: later) := by
  refine List.pairwise_append.mpr ⟨?_, List.pairwise_cons.mpr ⟨fun t ht _ => hlater t ht, ?_⟩, ?_⟩
  · refine List.pairwise_of_forall_mem_list fun s hs _ _ hunfinished => ?_
    cases hunfinished.symm.trans (hdone s hs).isTerminal
  · exact List.pairwise_of_forall_mem_list fun _ _ t ht _ => hlater t ht
  · intro s hs t _ hunfinished
    cases hunfinished.symm.trans (hdone s hs).isTerminal

def AfterTurn (started execution : Execution) (done later : List ExecutionStep) (τ : List (Answered Op.Res)) :
    Except CoreError Round → Prop
  | .error _ => True
  | .ok (.next step) => step.IsDone ∧ Open started (done ++ step :: later) ((done ++ [step]).map (·.id)) τ
  | .ok (.stop execution' step) => execution'.id = execution.id ∧ ∃ out, Open started (done ++ step :: later) out τ

theorem resolveResource_turns (action : ActionSpec) :
    KeepsTurns (OpenAt started done step later out) (resolveResource action) fun τ r =>
      match r with
      | .error _ => True
      | .ok _ => OpenAt started done step later out τ := by
  have hread : ∀ (resourceId : Uuid) (τ : List (Answered Op.Res)) r, OpenAt started done step later out τ →
      OpenAt started done step later out (τ ++ [⟨.storage (.getResource resourceId), r⟩]) :=
    fun _ _ _ h => h.idle fun ledger => by cases ledger <;> rfl
  unfold resolveResource
  split
  · refine Follows.perform (fun _ _ => trivial) (hread _) fun r => ?_
    rcases r with error | resource
    · exact Follows.ret fun _ _ => trivial
    · exact Follows.ret fun _ h => h
  · refine Follows.perform (fun _ _ => trivial) (hread _) fun r => ?_
    rcases r with error | resource
    · exact Follows.ret fun _ _ => trivial
    · exact Follows.ret fun _ h => h
  · exact Follows.ret fun _ h => h

/-- What the write of a step leaves: an error ends the run. -/
def Wrote (A : List (Answered Op.Res) → Prop) : Except StorageError Unit → List (Answered Op.Res) → Prop
  | .error _, _ => True
  | .ok _, τ => A τ

variable (step') in
theorem Open.wrote (hid : step'.id = step.id) (htype : step'.actionType = step.actionType) (τ : List (Answered Op.Res))
    (r : Except StorageError Unit) (h : Open started (done ++ step :: later) out τ) :
    Wrote (Open started (done ++ step' :: later) out) r (τ ++ [⟨.storage (.updateStep step'), r⟩]) := by
  rcases r with error | _
  · trivial
  · exact h.write hid htype

@[simp] theorem selected_actionType (step : ExecutionStep) (identity : Option EligibleAdapter) :
    (step.selected identity).actionType = step.actionType := by
  cases identity <;> rfl

theorem recordDispatch_turns (successful : Nat) (bound : Bool) (finished : OffsetDateTime)
    (actionResult : Except DispatchedActionError DispatchedActionResult) (hrunning : step.status = .running)
    (hlater : ∀ s ∈ later, s.status = .pending) (hdone : ∀ s ∈ done, s.IsDone) :
    KeepsTurns (Open started (done ++ step :: later) ((done ++ [step]).map (·.id)))
      (recordDispatch execution successful step bound finished actionResult)
      (AfterTurn started execution done later) := by
  have hanswered (status : AdapterActionStatus) : step.status.rank < status.stepStatus.rank := by
    rw [hrunning]
    cases status <;> simp [AdapterActionStatus.stepStatus, ExecutionStepStatus.rank]
  unfold recordDispatch
  split
  · rename_i dispatched
    refine Follows.perform (fun _ h => h.reaches rfl (hanswered dispatched.result.status) hlater (.inr hdone))
      (Open.wrote (step.answered dispatched finished) rfl rfl) fun r => ?_
    cases r with
    | error e => exact Follows.ret fun _ _ => trivial
    | ok _ =>
      dsimp only
      split
      · rename_i hgood
        refine Follows.ret fun _ h => ⟨hgood, ?_⟩
        have hid : (step.answered dispatched finished).id = step.id := rfl
        simpa [Wrote, hid] using h
      · exact Follows.ret fun _ h => ⟨rfl, _, h⟩
  · rename_i error
    dsimp only
    split
    · refine Follows.ret fun _ h => ⟨rfl, _, Open.congr h ?_⟩
      simp [ExecutionStep.face]
    · refine Follows.perform (fun _ h => h.reaches (selected_id _ _) (hanswered .failed) hlater (.inr hdone))
        (Open.wrote ((step.selected error.identity).undispatched error.kind finished) (selected_id _ _)
          (selected_actionType _ _)) fun r => ?_
      cases r with
      | error e => exact Follows.ret fun _ _ => trivial
      | ok _ => exact Follows.ret fun _ h => ⟨rfl, _, h⟩

theorem executeAction_turns (deadline successful : Nat) (action : ActionSpec) (hpending : step.status = .pending)
    (htype : step.actionType = action.actionType) (hlater : ∀ s ∈ later, s.status = .pending)
    (hdone : ∀ s ∈ done, s.IsDone) :
    KeepsTurns (Open started (done ++ step :: later) (done.map (·.id)))
      (executeAction deadline execution successful action step) (AfterTurn started execution done later) := by
  have hbegun : step.status.rank < ExecutionStepStatus.running.rank := by
    rw [hpending]
    exact Nat.zero_lt_one
  unfold executeAction
  refine Follows.perform (fun _ _ => trivial) (fun _ _ h => h.idle fun ledger => by cases ledger <;> rfl) fun instant => ?_
  dsimp only
  split
  -- the deadline has come
  · exact Follows.ret fun _ h => ⟨rfl, _, h⟩
  refine Follows.perform (fun _ _ => trivial) (fun _ _ h => h.idle fun ledger => by cases ledger <;> rfl) fun now => ?_
  refine Follows.perform (R := Wrote (OpenAt started done { step with status := .running, startedAt := now } later
    (done.map (·.id)))) (fun _ h => h.reaches rfl hbegun hlater (.inr hdone)) ?_ fun r => ?_
  · intro τ r h
    rcases r with error | _
    · trivial
    · exact h.writeAt rfl rfl
  cases r with
  | error e => exact Follows.ret fun _ _ => trivial
  | ok _ =>
    refine Follows.bind (resolveResource_turns action) fun r => ?_
    cases r with
    | error e => exact Follows.ret fun _ _ => trivial
    | ok resolved =>
      refine Follows.perform (fun _ h => h.sends rfl htype hlater hdone _ _) (fun _ r h => h.sent r)
        fun actionResult => ?_
      refine Follows.perform (fun _ _ => trivial) (fun _ _ h => h.idle fun ledger => by cases ledger <;> rfl)
        fun finished => ?_
      exact recordDispatch_turns _ _ _ _ rfl hlater hdone

def AfterTurns (started execution : Execution) (τ : List (Answered Op.Res)) : Except CoreError Progress → Prop
  | .error _ => True
  | .ok progress => progress.execution.id = execution.id ∧ Untouched progress.steps ∧
    ∃ out, Open started progress.steps out τ

/-- The steps of a run are those of its actions, and none has been touched. -/
abbrev AreFresh (actions : List ActionSpec) (steps : List ExecutionStep) : Prop :=
  List.Forall₂ (fun action step => step.status = .pending ∧ step.actionType = action.actionType) actions steps

theorem AreFresh.pending (h : AreFresh actions steps) : ∀ s ∈ steps, s.status = .pending := by
  induction h with
  | nil => simp
  | cons hstep _ ih => exact List.forall_mem_cons.mpr ⟨hstep.1, ih⟩

theorem executeActions_turns (deadline successful : Nat) (hnew : AreFresh actions steps) (hdone : ∀ s ∈ done, s.IsDone) :
    KeepsTurns (Open started (done ++ steps) (done.map (·.id)))
      (executeActions deadline execution successful done actions steps) (AfterTurns started execution) := by
  induction hnew generalizing successful done with
  | nil =>
    unfold executeActions
    refine Follows.ret fun _ h => ⟨rfl, ?_, _, h⟩
    simpa using untouched_done hdone
  | @cons action step actions later hstep hlater ih =>
    unfold executeActions
    refine Follows.bind (executeAction_turns _ _ _ hstep.1 hstep.2 (AreFresh.pending hlater) hdone) fun r => ?_
    rcases r with error | step' | ⟨execution', step'⟩
    · exact Follows.ret fun _ _ => trivial
    · rintro τ ⟨hgood, hopen⟩
      have hdone' : ∀ s ∈ done ++ [step'], s.IsDone := List.forall_mem_append.mpr ⟨hdone, by simpa using hgood⟩
      apply ih _ hdone'
      rw [List.append_assoc, List.singleton_append]
      exact hopen
    · rintro τ ⟨hid, hopen⟩
      exact ⟨hid, untouched_split hdone (AreFresh.pending hlater), hopen⟩

def OpenFor (started : Execution) (steps : List ExecutionStep) (τ : List (Answered Op.Res)) : Prop :=
  ∃ out, Open started steps out τ

def AfterFinal (started : Execution) (done : List ExecutionStep) (τ : List (Answered Op.Res)) :
    Except CoreError (List ExecutionStep) → Prop
  | .error _ => True
  | .ok steps => OpenFor started (done ++ steps) τ

theorem finalizeRest_turns {finishedAt : OffsetDateTime} {code message : String}
    (hlater : KeepsTurns (OpenFor started (done ++ [step] ++ later)) (finalizeUnfinishedSteps finishedAt code message later)
      (AfterFinal started (done ++ [step]))) :
    KeepsTurns (OpenFor started (done ++ step :: later))
      (finalizeUnfinishedSteps finishedAt code message later >>= fun r =>
        match r with
        | .error error => return .error error
        | .ok steps => return .ok (step :: steps)) (AfterFinal started done) := by
  rw [List.append_assoc, List.singleton_append] at hlater
  refine Follows.bind hlater fun r => ?_
  rcases r with error | steps
  · exact Follows.ret fun _ _ => trivial
  · refine Follows.ret fun τ h => ?_
    rw [AfterFinal, List.append_assoc, List.singleton_append] at h
    exact h

theorem finalizeUnfinishedSteps_turns (finishedAt : OffsetDateTime) (code message : String) (hsteps : Untouched steps) :
    KeepsTurns (OpenFor started (done ++ steps)) (finalizeUnfinishedSteps finishedAt code message steps)
      (AfterFinal started done) := by
  induction steps generalizing done with
  | nil => exact Follows.ret fun _ h => h
  | cons step later ih =>
    obtain ⟨hstep, hrest⟩ := List.pairwise_cons.mp hsteps
    unfold finalizeUnfinishedSteps
    split
    · rename_i hstatus
      have hunfinished : step.status.isTerminal = false := by rcases hstatus with h | h <;> rw [h] <;> rfl
      refine Follows.perform (R := Wrote (OpenFor started (done ++ step.aborted finishedAt code message :: later)))
        ?_ ?_ fun r => ?_
      · rintro τ ⟨out, h⟩
        exact h.reaches rfl (ExecutionStepStatus.rank_lt_two.mpr hunfinished) (fun s hs => hstep s hs hunfinished) (.inl rfl)
      · rintro τ r ⟨out, h⟩
        rcases r with error | _
        · trivial
        · exact ⟨out, h.write rfl rfl⟩
      · rcases r with error | _
        · exact Follows.ret fun _ _ => trivial
        · exact finalizeRest_turns (ih hrest)
    · exact finalizeRest_turns (ih hrest)

def AfterSteps (started execution : Execution) (τ : List (Answered Op.Res)) :
    Except CoreError (Execution × List ExecutionStep) → Prop
  | .error _ => True
  | .ok (execution', steps) => execution'.id = execution.id ∧ OpenFor started steps τ

theorem finishSteps_turns (finishedAt : OffsetDateTime) (progress : Progress) (hid : progress.execution.id = execution.id)
    (hsteps : Untouched progress.steps) :
    KeepsTurns (OpenFor started progress.steps) (finishSteps finishedAt progress) (AfterSteps started execution) := by
  have hfinal (code message : String) : KeepsTurns (OpenFor started ([] ++ progress.steps))
      (finalizeUnfinishedSteps finishedAt code message progress.steps) (AfterFinal started []) :=
    finalizeUnfinishedSteps_turns finishedAt code message hsteps
  unfold finishSteps
  split
  · refine Follows.bind (hfinal _ _) fun r => ?_
    rcases r with error | steps'
    · exact Follows.ret fun _ _ => trivial
    · exact Follows.ret fun _ h => ⟨hid, h⟩
  split
  · exact Follows.ret fun _ h => ⟨hid, h⟩
  · refine Follows.bind (hfinal _ _) fun r => ?_
    rcases r with error | steps'
    · exact Follows.ret fun _ _ => trivial
    · exact Follows.ret fun _ h => ⟨hid, h⟩

theorem concludeExecution_turns (finishedAt : OffsetDateTime) (hid : execution.id = started.id) :
    KeepsTurns (OpenFor started steps) (concludeExecution finishedAt execution steps) fun _ _ => True := by
  unfold concludeExecution
  dsimp only
  split
  · exact Follows.ret fun _ _ => trivial
  · refine Follows.perform (R := fun _ _ => True) ?_ (fun _ _ _ => trivial) fun r => ?_
    · rintro τ ⟨out, ledger, hledger, hshows⟩
      exact ⟨ledger, hledger, hshows.unconcluded, by rw [hshows.execution]; exact hid.symm⟩
    · rcases r with error | _
      · exact Follows.ret fun _ _ => trivial
      · dsimp only
        split
        · exact Follows.ret fun _ _ => trivial
        · exact Follows.ret fun _ _ => trivial

theorem executeSteps_turns {definition : RitualDefinition} (hid : execution.id = started.id)
    (hnew : AreFresh definition.actions steps) :
    KeepsTurns (Open started steps []) (executeSteps execution steps definition) fun _ _ => True := by
  unfold executeSteps
  refine Follows.perform (fun _ _ => trivial) (fun _ _ h => h.idle fun ledger => by cases ledger <;> rfl) fun instant => ?_
  have hloop : KeepsTurns (Open started ([] ++ steps) (([] : List ExecutionStep).map (·.id)))
      (executeActions (instant + definition.execution.timeoutSeconds * nanosPerSecond) execution 0 [] definition.actions steps)
      (AfterTurns started execution) := executeActions_turns _ _ hnew (by simp)
  refine Follows.bind hloop fun r => ?_
  rcases r with error | progress
  · exact Follows.ret fun _ _ => trivial
  rintro τ ⟨hsame, hsteps, hopen⟩
  refine Follows.perform (A := OpenFor started progress.steps) (R := fun _ => OpenFor started progress.steps) (fun _ _ => trivial) ?_ (fun finished => ?_) τ hopen
  · rintro τ r ⟨out, h⟩
    exact ⟨out, h.idle fun ledger => by cases ledger <;> rfl⟩
  refine Follows.bind (finishSteps_turns finished progress hsame hsteps) fun r => ?_
  rcases r with error | ⟨execution', steps'⟩
  · exact Follows.ret fun _ _ => trivial
  · rintro τ ⟨hid', hopen⟩
    exact concludeExecution_turns finished (hid'.trans hid) τ hopen

end Turns

/-! ## Runs and other requests -/

section Requests
variable {crates : Crates} {o : Op}

theorem newSteps_new (executionId : Uuid) (now : OffsetDateTime) (index : Nat) (actions : List ActionSpec) :
    (newSteps executionId now index actions).Meets (· = .newUuid) fun steps =>
      AreFresh actions steps ∧ (∀ s ∈ steps, index ≤ s.stepIndex) ∧ steps.Pairwise (·.stepIndex < ·.stepIndex) := by
  induction actions generalizing index with
  | nil => exact ⟨.nil, by simp, .nil⟩
  | cons action actions ih =>
    refine .perform_bind rfl fun id => (ih (index + 1)).bind ?_
    rintro steps ⟨hnew, hfrom, hsorted⟩
    refine ⟨.cons ⟨rfl, rfl⟩ hnew, ?_, List.pairwise_cons.mpr ⟨hfrom, hsorted⟩⟩
    exact List.forall_mem_cons.mpr ⟨le_refl index, fun s hs => Nat.le_of_succ_le (hfrom s hs)⟩

theorem inTurn_of_targets (ho : ∀ target ∈ executionTargets, target ∉ o.targets) (τ : List (Answered Op.Res)) :
    InTurn τ o := by
  cases o with
  | storage operation =>
    cases operation with
    | startExecution => exact absurd (by simp [Op.targets, Operation.writes]) (ho (.table .executions) (by simp [executionTargets]))
    | updateExecution => exact absurd (by simp [Op.targets, Operation.writes]) (ho (.table .executions) (by simp [executionTargets]))
    | updateStep => exact absurd (by simp [Op.targets, Operation.writes]) (ho (.table .executionSteps) (by simp [executionTargets]))
    | _ => trivial
  | execute => exact absurd (by simp [Op.targets]) (ho .adapter (by simp [executionTargets]))
  | _ => trivial

theorem follows_of_actsOn {α : Type} {p : Core α} {targets : List Target} (hp : ActsOn targets p)
    (ht : ∀ target ∈ executionTargets, target ∉ targets) :
    KeepsTurns (fun _ => True) p fun _ _ => True := by
  refine (Follows.of_meets hp (fun τ o ho _ => ?_) fun _ _ _ _ _ => trivial).mono (fun _ h => h) fun _ _ _ => trivial
  exact inTurn_of_targets (fun target hmem hin => ht target hmem (ho hin)) τ

theorem startAndExecute_turns (id ritualId : Uuid) (version : RitualVersion) (definition : RitualDefinition) :
    KeepsTurns (fun _ => True) (startAndExecute id ritualId version definition) fun _ _ => True := by
  unfold startAndExecute
  refine Follows.perform (R := fun _ _ => True) (fun _ _ => trivial) (fun _ _ _ => trivial) fun now => ?_
  refine Follows.perform (R := fun _ _ => True) (fun _ _ => trivial) (fun _ _ _ => trivial) fun executionId => ?_
  have hsteps := Follows.of_meets (P := InTurn) (A := fun _ => True) (newSteps_new executionId now 0 definition.actions)
    (fun _ _ ho _ => ho ▸ trivial) fun _ _ _ _ _ => trivial
  refine Follows.bind hsteps fun steps => ?_
  rintro τ ⟨⟨hnew, -, hsorted⟩, -⟩
  refine Follows.perform (A := fun _ => True) (R := fun r τ => ∀ u, r = .ok u →
    Open (newExecution executionId ritualId version now) steps [] τ) ?_ ?_ (fun r => ?_) τ trivial
  · exact fun _ _ => ⟨hnew.pending, hsorted⟩
  · rintro τ r - u rfl
    exact ⟨⟨_, steps, none, [], false⟩, by rw [ledgerOf_snoc]; rfl, rfl, rfl, fun _ => rfl, fun _ => rfl⟩
  · rcases r with error | _
    · cases error <;> exact Follows.ret fun _ _ => trivial
    · refine Follows.bind ((executeSteps_turns rfl hnew).mono (fun τ h => h () rfl) fun _ _ h => h) fun r => ?_
      rcases r with ⟨code, message⟩ | ⟨execution, steps⟩
      · exact Follows.ret fun _ _ => trivial
      · exact Follows.ret fun _ _ => trivial

theorem ritualRunResponse_turns (id ritualId : Uuid) :
    KeepsTurns (fun _ => True) (ritualRunResponse crates id ritualId) fun _ _ => True := by
  unfold ritualRunResponse
  refine Follows.perform (R := fun _ _ => True) (fun _ _ => trivial) (fun _ _ _ => trivial) fun r => ?_
  rcases r with error | ⟨ritual, version, definition⟩
  · cases error <;> exact Follows.ret fun _ _ => trivial
  dsimp only
  split
  · exact Follows.ret fun _ _ => trivial
  refine Follows.bind (follows_of_actsOn (preflight_actsOn version definition) (by simp)) fun r => ?_
  rcases r with ⟨code, message⟩ | _
  · exact Follows.ret fun _ _ => trivial
  · exact startAndExecute_turns _ _ _ _

/-- Whatever a connection sends, its task keeps to the order of a run. -/
theorem handleFrame_turns (frame : Frame) : KeepsTurns (fun _ => True) (handleFrame crates frame) fun _ _ => True := by
  cases frame with
  | request request =>
    have hbody : KeepsTurns (fun _ => True) (processRequest crates request) fun _ _ => True := by
      unfold processRequest
      split
      · exact Follows.ret fun _ _ => trivial
      have hactsOn := processBody_actsOn crates request.requestId request.body
      generalize request.body = body at hactsOn ⊢
      cases body with
      | ritualRun ritualId => exact ritualRunResponse_turns _ _
      | _ => exact follows_of_actsOn hactsOn (by simp [executionTargets, RequestBody.targets])
    exact Follows.bind hbody fun _ => Follows.ret fun _ _ => trivial
  | _ => exact follows_of_actsOn (handleFrame_actsOn crates _) (by simp [executionTargets, Frame.targets])

end Requests
end Fubun

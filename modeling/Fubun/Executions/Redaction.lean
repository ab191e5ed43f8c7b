import Fubun.Rituals.Dispatch

/-! What an execution keeps of the outcome of its actions. Messages are redacted before
they are stored; result codes are stored as the adapter gives them. -/

namespace Fubun
open Relational Concurrency Program System

/-! ## Redacted texts -/

/-- No more than 160 characters, and no control among them. -/
structure Redacted (text : String) : Prop where
  length : text.length ≤ 160
  clean : text.toList.any isControl = false

instance (text : String) : Decidable (Redacted text) :=
  decidable_of_iff (text.length ≤ 160 ∧ text.toList.any isControl = false) ⟨fun h => ⟨h.1, h.2⟩, fun h => ⟨h.1, h.2⟩⟩

theorem redacted_redactMessage (message : String) : Redacted (redactMessage message) := by
  unfold redactMessage
  constructor
  · rw [String.length_ofList]
    exact List.length_take_le ..
  · rw [String.toList_ofList, List.any_eq_false]
    intro c hc
    have hkept := (List.mem_filter.mp (List.mem_of_mem_take hc)).2
    simpa using hkept

/-- Redaction leaves exactly the redacted texts as they are. -/
theorem redactMessage_eq_self_iff {text : String} : redactMessage text = text ↔ Redacted text := by
  constructor
  · intro h
    exact h ▸ redacted_redactMessage text
  · intro h
    have hclean : text.toList.filter (fun c => ! isControl c) = text.toList := by
      rw [List.filter_eq_self]
      intro c hc
      simpa using List.any_eq_false.mp h.clean c hc
    have hlength : text.toList.length ≤ 160 := String.length_toList ▸ h.length
    rw [redactMessage, hclean, List.take_of_length_le hlength, String.ofList_toList]

theorem redacted_dispatchErrorCode (kind : AdapterDispatchErrorKind) : Redacted (dispatchErrorCode kind) := by
  cases kind <;> decide

theorem redacted_dispatchErrorMessage (kind : AdapterDispatchErrorKind) : Redacted (dispatchErrorMessage kind) := by
  cases kind <;> decide

structure Execution.IsRedacted (execution : Execution) : Prop where
  failureCode : ∀ code ∈ execution.failureCode, Redacted code

structure ExecutionStep.IsRedacted (step : ExecutionStep) : Prop where
  resultCode : ∀ code ∈ step.resultCode, Redacted code
  redactedMessage : ∀ message ∈ step.redactedMessage, Redacted message

/-- Every text about an outcome that an execution or a step stores is redacted. -/
structure Database.IsRedacted (db : Database) : Prop where
  executions : ∀ execution ∈ db.executions, execution.IsRedacted
  steps : ∀ step ∈ db.executionSteps, step.IsRedacted

/-! ## What a run writes -/

def actingAdapterIds : List String := [linuxAdapterId, browserAdapterId]

/-- A step as a run writes it. -/
structure ExecutionStep.IsBrief (step : ExecutionStep) : Prop extends step.IsRedacted where
  adapterId : ∀ adapterId ∈ step.adapterId, adapterId ∈ actingAdapterIds

/-- What a run needs to be answered to write nothing that is not redacted. -/
def AnsweredBriefly : Answered Op.Res → Prop
  | ⟨.execute .., .ok dispatched⟩ =>
    Redacted dispatched.result.resultCode ∧ dispatched.identity.adapterId ∈ actingAdapterIds
  | ⟨.execute .., .error error⟩ => ∀ identity ∈ error.identity, identity.adapterId ∈ actingAdapterIds
  | _ => True

def Op.WritesBriefly : Op → Prop
  | .storage (.startExecution execution steps) => execution.IsRedacted ∧ ∀ step ∈ steps, step.IsBrief
  | .storage (.updateExecution execution) => execution.IsRedacted
  | .storage (.updateStep step) => step.IsBrief
  | _ => True

abbrev IsBrief {α : Type} (p : Core α) (Q : α → Prop) : Prop := p.MeetsIf AnsweredBriefly Op.WritesBriefly Q

/-- How a round of the loop leaves its step, and the execution if it stops there. -/
def Round.IsBrief : Except CoreError Round → Prop
  | .error _ => True
  | .ok (.next step) => step.IsBrief
  | .ok (.stop execution step) => execution.IsRedacted ∧ step.IsBrief

def Progress.IsBrief : Except CoreError Progress → Prop
  | .error _ => True
  | .ok progress => progress.execution.IsRedacted ∧ ∀ step ∈ progress.steps, step.IsBrief

section Run
variable {execution : Execution} {step : ExecutionStep} {steps done : List ExecutionStep} {finished : OffsetDateTime}

theorem Execution.IsRedacted.of_code {code : String} (h : execution.failureCode = some code) (hcode : Redacted code) :
    execution.IsRedacted := ⟨fun _ hc => Option.some.inj (h.symm.trans hc) ▸ hcode⟩

theorem ExecutionStep.IsBrief.answered {dispatched : DispatchedActionResult} (hcode : Redacted dispatched.result.resultCode)
    (hadapter : dispatched.identity.adapterId ∈ actingAdapterIds) : (step.answered dispatched finished).IsBrief where
  resultCode _ hc := Option.some.inj hc ▸ hcode
  redactedMessage _ hm := Option.some.inj hm ▸ redacted_redactMessage _
  adapterId _ ha := Option.some.inj ha ▸ hadapter

theorem ExecutionStep.IsBrief.selected (h : step.IsBrief) {identity : Option EligibleAdapter}
    (hadapter : ∀ adapter ∈ identity, adapter.adapterId ∈ actingAdapterIds) : (step.selected identity).IsBrief := by
  cases identity with
  | none => exact h
  | some adapter => exact ⟨⟨h.resultCode, h.redactedMessage⟩, fun _ ha => Option.some.inj ha ▸ hadapter adapter rfl⟩

theorem ExecutionStep.IsBrief.undispatched (h : step.IsBrief) (kind : AdapterDispatchErrorKind) :
    (step.undispatched kind finished).IsBrief where
  resultCode _ hc := Option.some.inj hc ▸ redacted_dispatchErrorCode kind
  redactedMessage _ hm := Option.some.inj hm ▸ redacted_dispatchErrorMessage kind
  adapterId := h.adapterId

theorem ExecutionStep.IsBrief.aborted (h : step.IsBrief) {code message : String} (hcode : Redacted code)
    (hmessage : Redacted message) : (step.aborted finished code message).IsBrief where
  resultCode _ hc := Option.some.inj hc ▸ hcode
  redactedMessage _ hm := Option.some.inj hm ▸ hmessage
  adapterId := h.adapterId

theorem resolveResource_brief (action : ActionSpec) : IsBrief (resolveResource action) fun _ => True := by
  unfold resolveResource
  split
  · refine .perform_bind trivial fun r _ => ?_
    split <;> trivial
  · refine .perform_bind trivial fun r _ => ?_
    split <;> trivial
  · trivial

theorem recordDispatch_brief (successful : Nat) (deadlineBound : Bool)
    {actionResult : Except DispatchedActionError DispatchedActionResult} {action : ActionSpec}
    {resolved : Option ResolvedResource} {timeout : Nat} (h : step.IsBrief)
    (hanswer : AnsweredBriefly ⟨.execute action resolved timeout, actionResult⟩) :
    IsBrief (recordDispatch execution successful step deadlineBound finished actionResult) Round.IsBrief := by
  unfold recordDispatch
  split
  · rename_i dispatched
    obtain ⟨hcode, hadapter⟩ := hanswer
    have hstep : (step.answered dispatched finished).IsBrief := .answered hcode hadapter
    refine .perform_bind hstep fun r _ => ?_
    split
    · trivial
    split
    · exact hstep
    · exact ⟨.of_code rfl (by decide), hstep⟩
  · rename_i error
    have hselected : (step.selected error.identity).IsBrief := h.selected hanswer
    dsimp only
    split
    · exact ⟨.of_code rfl (by decide), hselected⟩
    have hstep : ((step.selected error.identity).undispatched error.kind finished).IsBrief :=
      hselected.undispatched error.kind
    refine .perform_bind hstep fun r _ => ?_
    split
    · trivial
    · exact ⟨.of_code rfl (redacted_dispatchErrorCode _), hstep⟩

theorem executeAction_brief (deadline successful : Nat) (action : ActionSpec) (h : step.IsBrief) :
    IsBrief (executeAction deadline execution successful action step) Round.IsBrief := by
  unfold executeAction
  refine .perform_bind trivial fun instant _ => ?_
  dsimp only
  split
  · exact ⟨.of_code rfl (by decide), h⟩
  refine .perform_bind trivial fun started _ => ?_
  have hstarted : ({ step with status := .running, startedAt := started } : ExecutionStep).IsBrief :=
    ⟨⟨h.resultCode, h.redactedMessage⟩, h.adapterId⟩
  refine .perform_bind hstarted fun r _ => ?_
  split
  · trivial
  refine (resolveResource_brief action).bind fun r _ => ?_
  split
  · trivial
  exact .perform_bind trivial fun answer hanswer => .perform_bind trivial fun _ _ =>
    recordDispatch_brief _ _ hstarted hanswer

theorem executeActions_brief (deadline successful : Nat) (actions : List ActionSpec)
    (hexecution : execution.IsRedacted) (hdone : ∀ s ∈ done, s.IsBrief) (hsteps : ∀ s ∈ steps, s.IsBrief) :
    IsBrief (executeActions deadline execution successful done actions steps) Progress.IsBrief := by
  induction actions generalizing successful done steps with
  | nil =>
    unfold executeActions
    exact ⟨hexecution, List.forall_mem_append.mpr ⟨hdone, hsteps⟩⟩
  | cons action actions ih =>
    cases steps with
    | nil =>
      unfold executeActions
      exact ⟨hexecution, hdone⟩
    | cons step steps =>
      obtain ⟨hstep, hsteps⟩ := List.forall_mem_cons.mp hsteps
      unfold executeActions
      refine (executeAction_brief deadline successful action hstep).bind fun r hr => ?_
      rcases r with error | step | ⟨execution, step⟩
      · trivial
      · exact ih _ (List.forall_mem_append.mpr ⟨hdone, List.forall_mem_singleton.mpr hr⟩) hsteps
      · obtain ⟨hstopped, hlast⟩ := hr
        exact ⟨hstopped, List.forall_mem_append.mpr ⟨hdone, List.forall_mem_cons.mpr ⟨hlast, hsteps⟩⟩⟩

theorem finalizeUnfinishedSteps_brief {code message : String} (hcode : Redacted code) (hmessage : Redacted message)
    (hsteps : ∀ s ∈ steps, s.IsBrief) :
    IsBrief (finalizeUnfinishedSteps finished code message steps) fun _ => True := by
  induction steps with
  | nil => trivial
  | cons step steps ih =>
    obtain ⟨hstep, hsteps⟩ := List.forall_mem_cons.mp hsteps
    unfold finalizeUnfinishedSteps
    split
    · refine .perform_bind (hstep.aborted hcode hmessage) fun r _ => ?_
      split
      · trivial
      refine (ih hsteps).bind fun r _ => ?_
      split <;> trivial
    · refine (ih hsteps).bind fun r _ => ?_
      split <;> trivial

theorem finishSteps_brief {progress : Progress} (hexecution : progress.execution.IsRedacted)
    (hsteps : ∀ s ∈ progress.steps, s.IsBrief) :
    IsBrief (finishSteps finished progress) fun r => ∀ x ∈ r.toOption, x.1.IsRedacted := by
  unfold finishSteps
  split
  · refine (finalizeUnfinishedSteps_brief (by decide) (by decide) hsteps).bind fun r _ => ?_
    split
    · exact fun _ hx => nomatch hx
    · exact fun _ hx => Option.some.inj hx ▸ ⟨hexecution.failureCode⟩
  split
  · exact fun _ hx => Option.some.inj hx ▸ ⟨hexecution.failureCode⟩
  · refine (finalizeUnfinishedSteps_brief (by decide) (by decide) hsteps).bind fun r _ => ?_
    split
    · exact fun _ hx => nomatch hx
    · exact fun _ hx => Option.some.inj hx ▸ hexecution

theorem concludeExecution_brief (hexecution : execution.IsRedacted) :
    IsBrief (concludeExecution finished execution steps) fun _ => True := by
  unfold concludeExecution
  dsimp only
  split
  · trivial
  refine .perform_bind (show Execution.IsRedacted _ from ⟨hexecution.failureCode⟩) fun r _ => ?_
  split
  · trivial
  · split <;> trivial

theorem executeSteps_brief {definition : RitualDefinition} (hexecution : execution.IsRedacted)
    (hsteps : ∀ s ∈ steps, s.IsBrief) : IsBrief (executeSteps execution steps definition) fun _ => True := by
  unfold executeSteps
  refine .perform_bind trivial fun instant _ => ?_
  refine (executeActions_brief _ 0 _ hexecution (List.forall_mem_nil _) hsteps).bind fun r hr => ?_
  split
  · trivial
  rename_i progress
  obtain ⟨hstopped, hleft⟩ := hr
  refine .perform_bind trivial fun finished _ => (finishSteps_brief hstopped hleft).bind fun r hr => ?_
  split
  · trivial
  · exact concludeExecution_brief (hr _ rfl)

theorem newSteps_brief (executionId : Uuid) (now : OffsetDateTime) (index : Nat) (actions : List ActionSpec) :
    IsBrief (newSteps executionId now index actions) fun steps => ∀ s ∈ steps, s.IsBrief := by
  induction actions generalizing index with
  | nil => exact fun _ hs => nomatch hs
  | cons action actions ih =>
    refine .perform_bind trivial fun id _ => (ih (index + 1)).bind fun steps hsteps => ?_
    refine List.forall_mem_cons.mpr ⟨⟨⟨?_, ?_⟩, ?_⟩, hsteps⟩
    · exact fun _ hc => nomatch hc
    · exact fun _ hm => nomatch hm
    · exact fun _ ha => nomatch ha

theorem startAndExecute_brief (id ritualId : Uuid) (version : RitualVersion) (definition : RitualDefinition) :
    IsBrief (startAndExecute id ritualId version definition) fun _ => True := by
  unfold startAndExecute
  refine .perform_bind trivial fun now _ => .perform_bind trivial fun executionId _ => ?_
  have hexecution : (newExecution executionId ritualId version now).IsRedacted := ⟨fun _ hc => nomatch hc⟩
  refine (newSteps_brief executionId now 0 definition.actions).bind fun steps hsteps => ?_
  refine .perform_bind ⟨hexecution, hsteps⟩ fun r _ => ?_
  split
  · trivial
  · trivial
  · refine (executeSteps_brief hexecution hsteps).bind fun r _ => ?_
    split <;> trivial

end Run

/-! ## What is stored -/

section Stored
variable {crates : Crates} {w₀ : World} {ok : State → Concurrency.Event Nat Frame Choice Drift → Prop} {c : State}
  {now : OffsetDateTime} {db db' : Database} {o : Operation} {r : Except StorageError o.Reply}

theorem run_of_not_brief {o : Op} (h : ¬ o.WritesBriefly) : ∃ target ∈ o.targets, target ∈ executionTargets := by
  cases o with
  | storage operation =>
    cases operation with
    | startExecution => exact ⟨.table .executions, by simp [Op.targets, Operation.writes], by simp [executionTargets]⟩
    | updateExecution => exact ⟨.table .executions, by simp [Op.targets, Operation.writes], by simp [executionTargets]⟩
    | updateStep => exact ⟨.table .executionSteps, by simp [Op.targets, Operation.writes], by simp [executionTargets]⟩
    | _ => exact absurd trivial h
  | _ => exact absurd trivial h

/-- Whatever a connection is at that was answered briefly, it writes briefly. -/
theorem handleFrame_brief {frame : Frame} {o : Op} {k : o.Res → Core Reply} {τ : List (Answered Op.Res)}
    (hl : Leads (handleFrame crates frame) τ (.call o k)) (hτ : ∀ x ∈ τ, AnsweredBriefly x) : o.WritesBriefly := by
  by_contra hnot
  obtain ⟨target, ht, hrun⟩ := run_of_not_brief hnot
  obtain ⟨request, ritualId, k', -, -, hpath⟩ := leads_run ht hrun hl
  obtain ⟨ritual, version, definition, preflighted, rest, rfl, -, -, hstart⟩ := run_path ht hpath
  have hrest : ∀ x ∈ rest, AnsweredBriefly x := by
    intro x hx
    exact hτ x (List.mem_cons_of_mem _ (List.mem_append_right _ hx))
  exact hnot ((startAndExecute_brief _ _ version definition).leads hstart hrest).1

/-- The history with the names of the adapters in it. -/
structure Database.IsBrief (db : Database) : Prop where
  executions : ∀ execution ∈ db.executions, execution.IsRedacted
  steps : ∀ step ∈ db.executionSteps, step.IsBrief

theorem Database.IsBrief.isRedacted (h : db.IsBrief) : db.IsRedacted :=
  ⟨h.executions, fun step hs => (h.steps step hs).toIsRedacted⟩

theorem forall_updateRows {α : Type} {p : α → Bool} {f : α → α} {rows : List α} {φ : α → Prop} (h : ∀ row ∈ rows, φ row)
    (hf : ∀ row, φ row → φ (f row)) : ∀ row ∈ updateRows p f rows, φ row := by
  intro row hr
  obtain ⟨x, hx, rfl⟩ := mem_updateRows.mp hr
  split_ifs
  · exact hf x (h x hx)
  · exact h x hx

theorem ExecutionStep.IsBrief.abort {step : ExecutionStep} (h : step.IsBrief) (now : OffsetDateTime) : (step.abort now).IsBrief where
  resultCode _ hc := Option.some.inj hc ▸ by decide
  redactedMessage _ hm := Option.some.inj hm ▸ by decide
  adapterId := h.adapterId

theorem Effect.isBrief (he : Effect crates now db db' o r) (ho : (Op.storage o).WritesBriefly) (h : db.IsBrief) :
    db'.IsBrief := by
  have habort : ∀ execution : Execution, execution.IsRedacted → (execution.abort now).IsRedacted :=
    fun _ _ => .of_code rfl (by decide)
  have haborted : ∀ step : ExecutionStep, step.IsBrief → (step.abort now).IsBrief := fun _ hs => hs.abort now
  cases he.executions with
  | same hexecutions hsteps => exact ⟨hexecutions ▸ h.executions, hsteps ▸ h.steps⟩
  | start execution rows _ _ _ hexecutions hsteps =>
    obtain ⟨hexecution, hrows⟩ := ho
    constructor
    · rw [hexecutions]
      exact List.forall_mem_append.mpr ⟨h.executions, List.forall_mem_singleton.mpr hexecution⟩
    · rw [hsteps]
      exact List.forall_mem_append.mpr ⟨h.steps, hrows⟩
  | update execution _ hexecutions hsteps | updateHalf execution _ hexecutions hsteps =>
    refine ⟨?_, hsteps ▸ h.steps⟩
    rw [hexecutions]
    -- the row takes its code from the execution that is written
    have hexecution : execution.IsRedacted := ho
    exact forall_updateRows h.executions fun _ _ => ⟨hexecution.failureCode⟩
  | step step _ hexecutions hsteps =>
    refine ⟨hexecutions ▸ h.executions, ?_⟩
    have hstep : step.IsBrief := ho
    rw [hsteps]
    exact forall_updateRows h.steps fun _ _ => ⟨⟨hstep.resultCode, hstep.redactedMessage⟩, hstep.adapterId⟩
  | abortExecutions _ hexecutions hsteps =>
    refine ⟨?_, hsteps ▸ h.steps⟩
    rw [hexecutions]
    exact forall_updateRows h.executions habort
  | abortSteps _ hexecutions hsteps | abort hexecutions hsteps =>
    constructor
    · rw [hexecutions]
      exact forall_updateRows h.executions habort
    · rw [hsteps]
      exact forall_updateRows h.steps haborted

theorem reaches_isBrief (h : (daemon crates).Reaches w₀ ok c) (h₀ : w₀.db = .empty)
    (hlog : ∀ i o r, .call i o r ∈ c.log → AnsweredBriefly ⟨o, r⟩) : c.world.db.IsBrief := by
  by_contra hnot
  have hempty : ¬ ¬ w₀.db.IsBrief := by
    rw [h₀]
    exact not_not_intro ⟨List.forall_mem_nil _, List.forall_mem_nil _⟩
  obtain ⟨before, i, operation, reply, after, hsplit, hwrite⟩ := reaches_origin h (P := fun db => ¬ db.IsBrief)
    (Q := fun x => ¬ (Op.storage x.1).WritesBriefly) hempty (by
      intro now db db' o r he hbad
      by_cases hgood : db.IsBrief
      · exact .inr fun ho => hbad (he.isBrief ho hgood)
      · exact .inl hgood)
    (fun _ hx => hx trivial) hnot
  obtain ⟨earlier, frame, later, k, rfl, -, hleads⟩ := h.called hsplit
  refine hwrite (handleFrame_brief hleads fun x hx => hlog i x.op x.res ?_)
  have hmem := (mem_callsOf i later).mp hx
  rw [hsplit]
  simp [hmem]

/-! ## What adapters answer -/

def answeredCode? (c : State) : Concurrency.Event Nat Frame Choice Drift → Option String
  | .call i ch =>
    match c.next? i, ch.reply with
    | some (.execute action _ _), .result result =>
      if (c.world.connections.selectEligible (.fromAction action)).isOk then some result.resultCode else none
    | _, _ => none
  | _ => none

/-- No adapter answers with a result code that redaction would change. -/
def AnswersRedacted (c : State) (e : Concurrency.Event Nat Frame Choice Drift) : Prop :=
  ∀ code ∈ answeredCode? c e, Redacted code

instance (c : State) (e : Concurrency.Event Nat Frame Choice Drift) : Decidable (AnswersRedacted c e) :=
  inferInstanceAs (Decidable (∀ code ∈ answeredCode? c e, Redacted code))

theorem selectEligible_acts {connections : Registry} {requirements : AdapterRequirements} {identity : EligibleAdapter}
    {token : Uuid} (h : connections.selectEligible requirements = .ok (identity, token)) :
    identity.adapterId ∈ actingAdapterIds := by
  unfold Registry.selectEligible at h
  split_ifs at h
  dsimp only at h
  split at h
  · rename_i candidate rest hcandidates
    obtain rfl := Except.ok.inj h
    have hmem : (identity, token) ∈ orderBy _ _ := hcandidates ▸ List.mem_cons_self
    obtain ⟨connection, hconnection, heq⟩ := List.mem_map.mp (mem_orderBy.mp hmem)
    have hallowed : adapterIdAllowedForCapability connection.hello.adapterId requirements.capability = true := by
      have hsatisfies := (List.mem_filter.mp hconnection).2
      simp only [connectionSatisfies, Bool.and_eq_true] at hsatisfies
      exact hsatisfies.1.1.1.1
    obtain ⟨rfl, -⟩ := Prod.mk.inj heq
    unfold adapterIdAllowedForCapability at hallowed
    split_ifs at hallowed
    · simp [actingAdapterIds, beq_iff_eq.mp hallowed]
    · simp [actingAdapterIds, beq_iff_eq.mp hallowed]
  · exact nomatch h

theorem answered_briefly (h : (daemon crates).Reaches w₀ AnswersRedacted c) {i : Nat} {o : Op} {r : o.Res}
    (hl : .call i o r ∈ c.log) : AnsweredBriefly ⟨o, r⟩ := by
  obtain ⟨before, after, hlog⟩ := List.append_of_mem hl
  obtain ⟨d, d', t, k, ch, -, -, hok, ht, hrest, hact, -⟩ := h.split_call hlog
  cases o with
  | execute action resolved timeout =>
    have hnext : d.next? i = some (.execute action resolved timeout) := Config.next?_eq_some.mpr ⟨t, k, ht, hrest⟩
    have hreply : (d.world.execute action ch.reply).1 = r := congrArg Prod.fst (Option.some.inj hact)
    subst hreply
    unfold World.execute
    cases hselected : d.world.connections.selectEligible (.fromAction action) with
    | error e => exact fun _ hidentity => nomatch hidentity
    | ok selected =>
      have hadapter := selectEligible_acts hselected
      dsimp only
      cases hch : ch.reply with
      | result result =>
        have hcode : answeredCode? d (.call i ch) = some result.resultCode := by
          simp [answeredCode?, hnext, hch, hselected, Except.isOk, Except.toBool]
        exact ⟨hok _ hcode, hadapter⟩
      | _ => exact fun _ hidentity => Option.some.inj hidentity ▸ hadapter
  | _ => trivial

end Stored

end Fubun

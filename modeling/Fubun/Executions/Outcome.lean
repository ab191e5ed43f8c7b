import Fubun.Rituals.Dispatch

/-! The outcome of an execution whose storage calls succeed: some actions go well, in
order, and then the execution is over, has failed or has run out of time. -/

namespace Fubun
open Relational Concurrency Program

section Outcome
variable {deadline successful : Nat} {execution : Execution} {done steps : List ExecutionStep}
  {actions : List ActionSpec} {τ τ' : List (Answered Op.Res)}

/-! ## What a run was answered -/

def storageSucceeded : Answered Op.Res → Bool
  | ⟨.storage _, .error _⟩ => false
  | _ => true

def StorageSucceeds (τ : List (Answered Op.Res)) : Prop := ∀ x ∈ τ, storageSucceeded x = true

theorem StorageSucceeds.of_append (h : StorageSucceeds (τ ++ τ')) :
    StorageSucceeds τ ∧ StorageSucceeds τ' :=
  ⟨fun x hx => h x (List.mem_append_left _ hx), fun x hx => h x (List.mem_append_right _ hx)⟩

theorem StorageSucceeds.tail {x : Answered Op.Res} (h : StorageSucceeds (x :: τ)) :
    StorageSucceeds τ := fun y hy => h y (List.mem_cons_of_mem _ hy)

theorem StorageSucceeds.not_error {operation : Operation} {e : StorageError}
    (h : StorageSucceeds (⟨.storage operation, .error e⟩ :: τ)) : False :=
  nomatch h _ List.mem_cons_self

/-- An action that was handed to the adapters, the time it was given and how it came back. -/
structure Dispatch where
  action : ActionSpec
  timeout : Nat
  answer : Except DispatchedActionError DispatchedActionResult

def dispatch? : Answered Op.Res → Option Dispatch
  | ⟨.execute action _ timeout, answer⟩ => some ⟨action, timeout, answer⟩
  | _ => none

def dispatches (τ : List (Answered Op.Res)) : List Dispatch := τ.filterMap dispatch?

def instant? : Answered Op.Res → Option Nat
  | ⟨.instantNow, instant⟩ => some instant
  | _ => none

def instants (τ : List (Answered Op.Res)) : List Nat := τ.filterMap instant?

@[simp] theorem dispatches_nil : dispatches [] = [] := rfl

@[simp] theorem instants_nil : instants [] = [] := rfl

@[simp] theorem dispatches_append : dispatches (τ ++ τ') = dispatches τ ++ dispatches τ' :=
  List.filterMap_append

@[simp] theorem instants_append : instants (τ ++ τ') = instants τ ++ instants τ' :=
  List.filterMap_append

theorem filterMap_cons_toList {α β : Type} (f : α → Option β) (x : α) (xs : List α) :
    (x :: xs).filterMap f = (f x).toList ++ xs.filterMap f := by
  rw [List.filterMap_cons]
  cases f x <;> rfl

theorem dispatches_cons (x : Answered Op.Res) :
    dispatches (x :: τ) = (dispatch? x).toList ++ dispatches τ := filterMap_cons_toList _ _ _

theorem instants_cons (x : Answered Op.Res) :
    instants (x :: τ) = (instant? x).toList ++ instants τ := filterMap_cons_toList _ _ _

theorem quiet_of_storage {α : Type} {p q : Core α} (hp : p.Issues fun o => ∃ operation, o = .storage operation)
    (h : Leads p τ q) : dispatches τ = [] ∧ instants τ = [] := by
  have hall : ∀ x ∈ τ, dispatch? x = none ∧ instant? x = none := by
    intro x hx
    obtain ⟨operation, hop⟩ := hp.mem h hx
    obtain ⟨o, reply⟩ := x
    obtain rfl : o = .storage operation := hop
    exact ⟨rfl, rfl⟩
  exact ⟨List.filterMap_eq_nil_iff.mpr fun x hx => (hall x hx).1,
    List.filterMap_eq_nil_iff.mpr fun x hx => (hall x hx).2⟩

def Dispatch.identity (d : Dispatch) : Option EligibleAdapter :=
  match d.answer with
  | .ok dispatched => some dispatched.identity
  | .error error => error.identity

/-- The failure code that a dispatch gives its execution. -/
def Dispatch.failureCode (d : Dispatch) : Option String :=
  match d.answer with
  | .ok dispatched => if dispatched.result.status = .failed then some "action_failed" else none
  | .error error => some (dispatchErrorCode error.kind)

structure ExecutionStep.Carries (step : ExecutionStep) (identity : Option EligibleAdapter) : Prop where
  adapterId : step.adapterId = identity.map (·.adapterId)
  adapterInstanceId : step.adapterInstanceId = identity.map (·.instanceId)

structure ExecutionStep.Fresh (step : ExecutionStep) : Prop where
  status : step.status = .pending
  carries : step.Carries none

/-- The dispatch came back succeeded or skipped, and the step says so. -/
structure Dispatch.WentWell (d : Dispatch) (step : ExecutionStep) : Prop where
  answered : ∃ dispatched, d.answer = .ok dispatched ∧ step.status = dispatched.result.status.stepStatus
  status : step.status = .succeeded ∨ step.status = .skipped
  finished : step.finishedAt.isSome
  carries : step.Carries d.identity

/-! ## The loop -/

/-- How the loop stops after its last good round: `last` is the dispatch of the action it stops
at, if there was one, and `left` are the steps from that action on. -/
inductive Stopped (deadline successful : Nat) (execution : Execution) :
    List Nat → List ActionSpec → List Dispatch → Execution → List ExecutionStep → Prop
  | finished {instants : List Nat} : Stopped deadline successful execution instants [] [] execution []
  | late {instants : List Nat} {instant : Nat} {action : ActionSpec} {rest : List ActionSpec}
      {step : ExecutionStep} {later : List ExecutionStep} (reading : instants.getLast? = some instant)
      (passed : deadline ≤ instant) (fresh : ∀ s ∈ step :: later, s.Fresh)
      (length : later.length = rest.length) :
      Stopped deadline successful execution instants (action :: rest) []
        { execution with failureCode := some "ritual_timeout" } (step :: later)
  | timedOut {instants : List Nat} {instant timeout : Nat} {error : DispatchedActionError}
      {action : ActionSpec} {rest : List ActionSpec} {step : ExecutionStep} {later : List ExecutionStep}
      (reading : instants.getLast? = some instant) (kind : error.kind = .timeout)
      (passed : instant + timeout = deadline) (running : step.status = .running)
      (carries : step.Carries error.identity) (fresh : ∀ s ∈ later, s.Fresh)
      (length : later.length = rest.length) :
      Stopped deadline successful execution instants (action :: rest) [⟨action, timeout, .error error⟩]
        { execution with failureCode := some "ritual_timeout" } (step :: later)
  | failed {instants : List Nat} {instant : Nat} {d : Dispatch} {code : String}
      {rest : List ActionSpec} {step : ExecutionStep} {later : List ExecutionStep}
      (reading : instants.getLast? = some instant) (failure : d.failureCode = some code)
      (intime : ∀ error, d.answer = .error error → error.kind = .timeout → instant + d.timeout < deadline)
      (status : step.status = .failed) (finished : step.finishedAt.isSome)
      (carries : step.Carries d.identity) (fresh : ∀ s ∈ later, s.Fresh)
      (length : later.length = rest.length) :
      Stopped deadline successful execution instants (d.action :: rest) [d]
        { execution with status := stoppedStatus successful, failureCode := some code } (step :: later)

theorem Stopped.cons {readings : List Nat} {rest : List ActionSpec} {last : List Dispatch}
    {execution' : Execution} {left : List ExecutionStep}
    (h : Stopped deadline successful execution readings rest last execution' left) (instant : Nat) :
    Stopped deadline successful execution (instant :: readings) rest last execution' left := by
  have hlast : ∀ {x : Nat}, readings.getLast? = some x → (instant :: readings).getLast? = some x := by
    intro x hx
    rw [List.getLast?_cons, hx]
    rfl
  cases h with
  | finished => exact .finished
  | late reading passed fresh length => exact .late (hlast reading) passed fresh length
  | timedOut reading kind passed running carries fresh length =>
    exact .timedOut (hlast reading) kind passed running carries fresh length
  | failed reading failure intime status finished carries fresh length =>
    exact .failed (hlast reading) failure intime status finished carries fresh length

theorem selected_carries {step : ExecutionStep} (h : step.Carries none) (identity : Option EligibleAdapter) :
    (step.selected identity).Carries identity := by
  cases identity with
  | none => exact h
  | some identity => exact ⟨rfl, rfl⟩

@[simp] theorem selected_status (step : ExecutionStep) (identity : Option EligibleAdapter) :
    (step.selected identity).status = step.status := by
  cases identity <;> rfl

theorem readResource_ret {resourceId : Uuid} {r : Except CoreError (Option ResolvedResource)}
    (h : Leads (storage (.getResource resourceId) >>= fun reply =>
      match reply with
      | .error _ => return .error ("resource_not_found", "resource was not found")
      | .ok resource => return .ok (some ⟨resourceId, resource.kind, resource.canonicalLocator⟩))
      τ (.ret r)) (hτ : StorageSucceeds τ) :
    (∃ resolved, r = .ok resolved) ∧ dispatches τ = [] ∧ instants τ = [] := by
  rcases leads_perform_bind.mp h with ⟨-, heq⟩ | ⟨reply, τ', hτ', h'⟩
  · cases heq
  subst hτ'
  cases reply with
  | error e => exact hτ.not_error.elim
  | ok resource =>
    obtain ⟨rfl, heq⟩ := leads_ret_iff.mp h'
    exact ⟨⟨_, Program.ret.inj heq⟩, rfl, rfl⟩

theorem resolveResource_ret {action : ActionSpec} {r : Except CoreError (Option ResolvedResource)}
    (h : Leads (resolveResource action) τ (.ret r)) (hτ : StorageSucceeds τ) :
    (∃ resolved, r = .ok resolved) ∧ dispatches τ = [] ∧ instants τ = [] := by
  unfold resolveResource at h
  split at h
  · exact readResource_ret h hτ
  · exact readResource_ret h hτ
  · obtain ⟨rfl, heq⟩ := leads_ret_iff.mp h
    exact ⟨⟨_, Program.ret.inj heq⟩, rfl, rfl⟩

/-- What the loop has done when it ends: its good rounds, and then one way of stopping. -/
def LoopResult (deadline successful : Nat) (execution : Execution) (done : List ExecutionStep)
    (actions : List ActionSpec) (τ : List (Answered Op.Res)) (r : Except CoreError Progress) : Prop :=
  ∃ good rest last kept left execution',
    actions = good.map (·.action) ++ rest ∧ dispatches τ = good ++ last ∧
    List.Forall₂ Dispatch.WentWell good kept ∧
    Stopped deadline (successful + good.length) execution (instants τ) rest last execution' left ∧
    r = .ok ⟨execution', done ++ (kept ++ left), successful + good.length⟩

theorem LoopResult.stopped {r : Except CoreError Progress} {last : List Dispatch}
    {execution' : Execution} {left : List ExecutionStep} (hd : dispatches τ = last)
    (h : Stopped deadline successful execution (instants τ) actions last execution' left)
    (hr : r = .ok ⟨execution', done ++ left, successful⟩) :
    LoopResult deadline successful execution done actions τ r :=
  ⟨[], actions, last, [], left, execution', rfl, hd, .nil, h, hr⟩

theorem LoopResult.cons {r : Except CoreError Progress} {d : Dispatch} {step : ExecutionStep}
    {round : List (Answered Op.Res)} {instant : Nat}
    (h : LoopResult deadline (successful + 1) execution (done ++ [step]) actions τ r)
    (hd : dispatches round = [d]) (hi : instants round = [instant]) (hwell : d.WentWell step) :
    LoopResult deadline successful execution done (d.action :: actions) (round ++ τ) r := by
  obtain ⟨good, rest, last, kept, left, execution', hactions, hdispatches, hgood, hstopped, hr⟩ := h
  refine ⟨d :: good, rest, last, step :: kept, left, execution', ?_, ?_, .cons hwell hgood, ?_, ?_⟩
  · rw [hactions]
    rfl
  · rw [dispatches_append, hd, hdispatches]
    rfl
  · have hlength : successful + 1 + good.length = successful + (d :: good).length := by
      rw [List.length_cons]
      omega
    rw [instants_append, hi, ← hlength]
    exact hstopped.cons instant
  · rw [hr]
    simp
    omega

/-- What a round has done when it ends: the action went well, or the loop stops at it. -/
def RoundResult (deadline successful : Nat) (execution : Execution) (action : ActionSpec)
    (τ : List (Answered Op.Res)) (r : Except CoreError Round) : Prop :=
  ∃ instant, instants τ = [instant] ∧
    ((∃ d step, r = .ok (.next step) ∧ dispatches τ = [d] ∧ d.action = action ∧ d.WentWell step) ∨
      ∃ execution' step, r = .ok (.stop execution' step) ∧
        ∀ rest later, later.length = rest.length → (∀ s ∈ later, s.Fresh) →
          Stopped deadline successful execution [instant] (action :: rest) (dispatches τ) execution'
            (step :: later))

theorem answered_carries (step : ExecutionStep) (dispatched : DispatchedActionResult)
    (finished : OffsetDateTime) :
    (step.answered dispatched finished).Carries (some dispatched.identity) := ⟨rfl, rfl⟩

/-- The answer of a dispatch that got the rest of the time, or less, decides the round. -/
theorem recordDispatch_result {action : ActionSpec} {step : ExecutionStep} {instant timeout remaining : Nat}
    {finished : OffsetDateTime} {actionResult : Except DispatchedActionError DispatchedActionResult}
    {r : Except CoreError Round} (before : List (Answered Op.Res))
    (h : Leads (recordDispatch execution successful step (decide (remaining ≤ timeout)) finished
      actionResult) τ (.ret r))
    (hτ : StorageSucceeds τ) (hremaining : instant + remaining = deadline)
    (hrunning : step.status = .running) (hcarries : step.Carries none)
    (hd : dispatches before = [⟨action, min timeout remaining, actionResult⟩])
    (hi : instants before = [instant]) :
    RoundResult deadline successful execution action (before ++ τ) r := by
  have hquiet := quiet_of_storage (recordDispatch_issues _ _ _ _ _ _ fun _ => ⟨_, rfl⟩) h
  rw [RoundResult, instants_append, dispatches_append, hquiet.1, hquiet.2, hd, hi]
  refine ⟨instant, rfl, ?_⟩
  unfold recordDispatch at h
  split at h
  · -- the adapter answered
    rename_i dispatched
    rcases leads_perform_bind.mp h with ⟨-, heq⟩ | ⟨updated, τ₁, rfl, h₁⟩
    · exact nomatch heq
    cases updated with
    | error e => exact hτ.not_error.elim
    | ok _ =>
    dsimp only at h₁
    split at h₁
    · rename_i hgood
      obtain ⟨-, heq⟩ := leads_ret_iff.mp h₁
      exact .inl ⟨_, _, Program.ret.inj heq, rfl, rfl,
        ⟨dispatched, rfl, rfl⟩, hgood, rfl, answered_carries _ _ _⟩
    · rename_i hbad
      obtain ⟨-, heq⟩ := leads_ret_iff.mp h₁
      have hfailed : dispatched.result.status = .failed := by
        cases hs : dispatched.result.status with
        | failed => rfl
        | succeeded => simp [ExecutionStep.answered, AdapterActionStatus.stepStatus, hs] at hbad
        | skipped => simp [ExecutionStep.answered, AdapterActionStatus.stepStatus, hs] at hbad
      refine .inr ⟨_, _, Program.ret.inj heq, fun rest later hlen hfresh => ?_⟩
      have hcode : Dispatch.failureCode ⟨action, min timeout remaining, .ok dispatched⟩ =
          some "action_failed" := if_pos hfailed
      have hstatus : (step.answered dispatched finished).status = .failed := by
        rw [ExecutionStep.answered, hfailed]
        rfl
      exact .failed rfl hcode (fun _ he => nomatch he) hstatus rfl (answered_carries _ _ _) hfresh hlen
  · rename_i error
    dsimp only at h
    split at h
    · -- it took all the time that was left
      rename_i htimeout
      obtain ⟨hkind, hbound⟩ := htimeout
      obtain ⟨-, heq⟩ := leads_ret_iff.mp h
      refine .inr ⟨_, _, Program.ret.inj heq, fun rest later hlen hfresh => ?_⟩
      have hall : min timeout remaining = remaining := Nat.min_eq_right (by simpa using hbound)
      have hpassed : instant + min timeout remaining = deadline := by rw [hall, hremaining]
      exact .timedOut rfl hkind hpassed (by simpa using hrunning) (selected_carries hcarries _) hfresh hlen
    · rename_i htimeout
      rcases leads_perform_bind.mp h with ⟨-, heq⟩ | ⟨updated, τ₁, rfl, h₁⟩
      · exact nomatch heq
      cases updated with
      | error e => exact hτ.not_error.elim
      | ok _ =>
      obtain ⟨-, heq⟩ := leads_ret_iff.mp h₁
      refine .inr ⟨_, _, Program.ret.inj heq, fun rest later hlen hfresh => ?_⟩
      have hselected := selected_carries hcarries error.identity
      have hcode : Dispatch.failureCode ⟨action, min timeout remaining, .error error⟩ =
          some (dispatchErrorCode error.kind) := rfl
      refine .failed rfl hcode ?_ rfl rfl ⟨hselected.adapterId, hselected.adapterInstanceId⟩ hfresh hlen
      intro error' he hkind
      obtain rfl := Except.error.inj he
      have hbound : ¬ remaining ≤ timeout := fun hb => htimeout ⟨hkind, by simpa using hb⟩
      show instant + min timeout remaining < deadline
      omega

theorem executeAction_result {action : ActionSpec} {step : ExecutionStep} {r : Except CoreError Round}
    (h : Leads (executeAction deadline execution successful action step) τ (.ret r))
    (hτ : StorageSucceeds τ) (hfresh : step.Fresh) :
    RoundResult deadline successful execution action τ r := by
  unfold executeAction at h
  rcases leads_perform_bind.mp h with ⟨-, heq⟩ | ⟨instant, τ₁, hτ₁, h₁⟩
  · exact nomatch heq
  subst hτ₁
  dsimp only at h₁
  split at h₁
  · -- the deadline has passed before the action
    rename_i hremaining
    obtain ⟨rfl, heq⟩ := leads_ret_iff.mp h₁
    have hpassed : deadline ≤ instant := Nat.le_of_sub_eq_zero hremaining
    refine ⟨instant, rfl, .inr ⟨_, _, Program.ret.inj heq, fun rest later hlen hlater => ?_⟩⟩
    exact .late rfl hpassed (List.forall_mem_cons.mpr ⟨hfresh, hlater⟩) hlen
  rename_i hremaining
  rcases leads_perform_bind.mp h₁ with ⟨-, heq⟩ | ⟨started, τ₂, hτ₂, h₂⟩
  · exact nomatch heq
  subst hτ₂
  rcases leads_perform_bind.mp h₂ with ⟨-, heq⟩ | ⟨updated, τ₃, hτ₃, h₃⟩
  · exact nomatch heq
  subst hτ₃
  cases updated with
  | error e => exact hτ.tail.tail.not_error.elim
  | ok _ =>
  obtain ⟨τ₄, resolution, τ₅, hτ₄, hresolve, h₅⟩ := leads_bind_ret h₃
  subst hτ₄
  obtain ⟨⟨resolved, rfl⟩, hd, hi⟩ := resolveResource_ret hresolve hτ.tail.tail.tail.of_append.1
  have hτ₅ : StorageSucceeds τ₅ := hτ.tail.tail.tail.of_append.2
  rcases leads_perform_bind.mp h₅ with ⟨-, heq⟩ | ⟨actionResult, τ₆, hτ₆, h₆⟩
  · exact nomatch heq
  subst hτ₆
  rcases leads_perform_bind.mp h₆ with ⟨-, heq⟩ | ⟨finished, τ₇, hτ₇, h₇⟩
  · exact nomatch heq
  subst hτ₇
  have hleft : instant + (deadline - instant) = deadline :=
    Nat.add_sub_of_le (Nat.le_of_lt (Nat.lt_of_sub_ne_zero hremaining))
  have hround : RoundResult deadline successful execution action _ r :=
    recordDispatch_result (⟨.instantNow, instant⟩ :: ⟨.nowUtc, started⟩ ::
    ⟨.storage (.updateStep { step with status := .running, startedAt := started }), .ok ()⟩ ::
    (τ₄ ++ [⟨.execute action resolved _, actionResult⟩, ⟨.nowUtc, finished⟩])) h₇ hτ₅.tail.tail hleft
    rfl ⟨hfresh.carries.adapterId, hfresh.carries.adapterInstanceId⟩
    (by simp [dispatches_cons, dispatch?, hd]) (by simp [instants_cons, instant?, hi])
  simpa using hround

/-- The loop of an execution, on a path without storage errors. -/
theorem executeActions_result {r : Except CoreError Progress}
    (h : Leads (executeActions deadline execution successful done actions steps) τ (.ret r))
    (hτ : StorageSucceeds τ) (hlength : steps.length = actions.length)
    (hfresh : ∀ s ∈ steps, s.Fresh) : LoopResult deadline successful execution done actions τ r := by
  induction actions generalizing successful done steps τ with
  | nil =>
    obtain rfl := List.eq_nil_of_length_eq_zero hlength
    unfold executeActions at h
    obtain ⟨rfl, heq⟩ := leads_ret_iff.mp h
    exact .stopped rfl .finished (Program.ret.inj heq)
  | cons action actions ih =>
    cases steps with
    | nil => cases hlength
    | cons step steps =>
      have hlater : ∀ s ∈ steps, s.Fresh := fun s hs => hfresh s (List.mem_cons_of_mem _ hs)
      have hlen : steps.length = actions.length := Nat.succ.inj hlength
      unfold executeActions at h
      obtain ⟨τ₁, ending, τ₂, hτ', hround, hrest⟩ := leads_bind_ret h
      subst hτ'
      obtain ⟨instant, hi, hresult⟩ :=
        executeAction_result hround hτ.of_append.1 (hfresh step List.mem_cons_self)
      rcases hresult with ⟨d, step', rfl, hd, rfl, hwell⟩ | ⟨execution', step', rfl, hstop⟩
      · exact (ih hrest hτ.of_append.2 hlen hlater).cons hd hi hwell
      · obtain ⟨rfl, heq⟩ := leads_ret_iff.mp hrest
        rw [List.append_nil]
        exact .stopped rfl (hi ▸ hstop actions steps hlen hlater) (Program.ret.inj heq)

/-! ## What is left over -/

def ExecutionStep.finalized (finishedAt : OffsetDateTime) (code message : String) (step : ExecutionStep) :
    ExecutionStep :=
  if step.status = .pending ∨ step.status = .running then step.aborted finishedAt code message else step

theorem finalizeRest_result {finishedAt : OffsetDateTime} {code message : String} {step : ExecutionStep}
    {r : Except CoreError (List ExecutionStep)}
    (hfinalized : ∀ {τ : List (Answered Op.Res)} {r : Except CoreError (List ExecutionStep)},
      Leads (finalizeUnfinishedSteps finishedAt code message steps) τ (.ret r) → StorageSucceeds τ →
      r = .ok (steps.map (·.finalized finishedAt code message)))
    (h : Leads (finalizeUnfinishedSteps finishedAt code message steps >>= fun r =>
      match r with
      | .error error => return .error error
      | .ok steps => return .ok (step :: steps)) τ (.ret r))
    (hτ : StorageSucceeds τ) : r = .ok (step :: steps.map (·.finalized finishedAt code message)) := by
  obtain ⟨τ₁, r', τ₂, heq, hsteps, hlast⟩ := leads_bind_ret h
  subst heq
  obtain rfl := hfinalized hsteps hτ.of_append.1
  exact Program.ret.inj (leads_ret_iff.mp hlast).2

theorem finalizeUnfinishedSteps_result {finishedAt : OffsetDateTime} {code message : String}
    {r : Except CoreError (List ExecutionStep)}
    (h : Leads (finalizeUnfinishedSteps finishedAt code message steps) τ (.ret r))
    (hτ : StorageSucceeds τ) : r = .ok (steps.map (·.finalized finishedAt code message)) := by
  induction steps generalizing τ r with
  | nil => exact Program.ret.inj (leads_ret_iff.mp h).2
  | cons step steps ih =>
    unfold finalizeUnfinishedSteps at h
    rw [List.map_cons]
    split at h
    · rename_i hunfinished
      rcases leads_perform_bind.mp h with ⟨-, heq⟩ | ⟨updated, τ', hτ', h'⟩
      · cases heq
      subst hτ'
      cases updated with
      | error e => exact hτ.not_error.elim
      | ok _ =>
      rw [ExecutionStep.finalized, if_pos hunfinished]
      exact finalizeRest_result ih h' hτ.tail
    · rename_i hfinished
      rw [ExecutionStep.finalized, if_neg hfinished]
      exact finalizeRest_result ih h hτ

theorem Dispatch.WentWell.finalized {d : Dispatch} {step : ExecutionStep} (h : d.WentWell step)
    (finishedAt : OffsetDateTime) (code message : String) :
    step.finalized finishedAt code message = step := by
  rw [ExecutionStep.finalized, if_neg]
  rcases h.status with hs | hs <;> simp [hs]

structure ExecutionStep.AbortedWith (step : ExecutionStep) (code : String) : Prop where
  status : step.status = .aborted
  resultCode : step.resultCode = some code
  finished : step.finishedAt.isSome

theorem finalized_aborted {step : ExecutionStep} (h : step.status = .pending ∨ step.status = .running)
    (finishedAt : OffsetDateTime) (code message : String) :
    (step.finalized finishedAt code message).AbortedWith code := by
  rw [ExecutionStep.finalized, if_pos h]
  exact ⟨rfl, rfl, rfl⟩

theorem finalized_carries {step : ExecutionStep} {identity : Option EligibleAdapter}
    (h : step.Carries identity) (finishedAt : OffsetDateTime) (code message : String) :
    (step.finalized finishedAt code message).Carries identity := by
  unfold ExecutionStep.finalized
  split
  · exact ⟨h.adapterId, h.adapterInstanceId⟩
  · exact h

/-- Every step names the adapter that its dispatch selected, and the steps that were not
dispatched name none. -/
def Carried : List ExecutionStep → List Dispatch → Prop
  | steps, [] => ∀ s ∈ steps, s.Carries none
  | step :: steps, d :: ds => step.Carries d.identity ∧ Carried steps ds
  | [], _ :: _ => False

theorem Carried.append {good last : List Dispatch} {kept left : List ExecutionStep}
    (hleft : Carried left last) (hgood : List.Forall₂ Dispatch.WentWell good kept) :
    Carried (kept ++ left) (good ++ last) := by
  induction hgood with
  | nil => exact hleft
  | cons hwell _ ih => exact ⟨hwell.carries, ih⟩

theorem carried_nil (h : ∀ s ∈ steps, s.Carries none) : Carried steps [] := by
  cases steps <;> exact h

theorem Carried.map {ds : List Dispatch} {f : ExecutionStep → ExecutionStep}
    (hf : ∀ (s : ExecutionStep) identity, s.Carries identity → (f s).Carries identity)
    (h : Carried steps ds) : Carried (steps.map f) ds := by
  induction ds generalizing steps with
  | nil =>
    have hall : ∀ s ∈ steps, s.Carries none := by
      cases steps <;> exact h
    refine carried_nil fun s hs => ?_
    obtain ⟨s', hs', rfl⟩ := List.mem_map.mp hs
    exact hf s' none (hall s' hs')
  | cons d ds ih =>
    cases steps with
    | nil => exact h
    | cons step steps => exact ⟨hf _ _ h.1, ih h.2⟩

theorem Stopped.carried {readings : List Nat} {rest : List ActionSpec} {last : List Dispatch}
    {execution' : Execution} {left : List ExecutionStep}
    (h : Stopped deadline successful execution readings rest last execution' left) :
    Carried left last := by
  cases h with
  | finished => exact carried_nil fun _ hs => nomatch hs
  | late _ _ fresh => exact carried_nil fun s hs => (fresh s hs).carries
  | timedOut _ _ _ _ carries fresh => exact ⟨carries, carried_nil fun s hs => (fresh s hs).carries⟩
  | failed _ _ _ _ _ carries fresh => exact ⟨carries, carried_nil fun s hs => (fresh s hs).carries⟩

/-! ## The law -/

/-- How an execution ends after its first `k` actions went well: `rest` are the other actions,
`last` the dispatch of the first of them, if there was one, and `left` their steps. -/
inductive Ending (deadline k : Nat) (readings : List Nat) (execution : Execution) :
    List ActionSpec → List Dispatch → List ExecutionStep → Prop
  | succeeded (status : execution.status = .succeeded) (code : execution.failureCode = none) :
      Ending deadline k readings execution [] [] []
  | failed {d : Dispatch} {rest : List ActionSpec} {step : ExecutionStep} {later : List ExecutionStep}
      (status : execution.status = stoppedStatus k) (isSome : d.failureCode.isSome)
      (code : execution.failureCode = d.failureCode)
      (failed : step.status = .failed) (finished : step.finishedAt.isSome)
      (aborted : ∀ s ∈ later, s.AbortedWith "stopped_after_failure") (length : later.length = rest.length) :
      Ending deadline k readings execution (d.action :: rest) [d] (step :: later)
  | late {action : ActionSpec} {rest : List ActionSpec} {left : List ExecutionStep} {instant : Nat}
      (reading : readings.getLast? = some instant) (passed : deadline ≤ instant)
      (status : execution.status = stoppedStatus k)
      (code : execution.failureCode = some "ritual_timeout")
      (aborted : ∀ s ∈ left, s.AbortedWith "ritual_timeout") (length : left.length = rest.length + 1) :
      Ending deadline k readings execution (action :: rest) [] left
  | timedOut {action : ActionSpec} {rest : List ActionSpec} {left : List ExecutionStep}
      {instant timeout : Nat} {error : DispatchedActionError}
      (reading : readings.getLast? = some instant) (passed : instant + timeout = deadline)
      (kind : error.kind = .timeout) (status : execution.status = stoppedStatus k)
      (code : execution.failureCode = some "ritual_timeout")
      (aborted : ∀ s ∈ left, s.AbortedWith "ritual_timeout") (length : left.length = rest.length + 1) :
      Ending deadline k readings execution (action :: rest) [⟨action, timeout, .error error⟩] left

theorem Ending.congr {execution' : Execution} {k : Nat} {readings : List Nat} {rest : List ActionSpec}
    {last : List Dispatch} {left : List ExecutionStep}
    (h : Ending deadline k readings execution rest last left) (hs : execution'.status = execution.status)
    (hc : execution'.failureCode = execution.failureCode) :
    Ending deadline k readings execution' rest last left := by
  cases h with
  | succeeded status code => exact .succeeded (hs.trans status) (hc.trans code)
  | failed status isSome code failed finished aborted length =>
    exact .failed (hs.trans status) isSome (hc.trans code) failed finished aborted length
  | late reading passed status code aborted length =>
    exact .late reading passed (hs.trans status) (hc.trans code) aborted length
  | timedOut reading passed kind status code aborted length =>
    exact .timedOut reading passed kind (hs.trans status) (hc.trans code) aborted length

theorem failureCode_ne {d : Dispatch} {code : String} (h : d.failureCode = some code) :
    code ≠ "ritual_timeout" := by
  unfold Dispatch.failureCode at h
  split at h
  · split_ifs at h
    obtain rfl := Option.some.inj h
    decide
  · rename_i error _
    obtain rfl := Option.some.inj h
    cases error.kind <;> decide

theorem finishSteps_result {finishedAt : OffsetDateTime} {good last : List Dispatch}
    {kept left : List ExecutionStep} {k : Nat} {readings : List Nat} {rest : List ActionSpec}
    {execution' : Execution} {r : Except CoreError (Execution × List ExecutionStep)}
    (h : Leads (finishSteps finishedAt ⟨execution', kept ++ left, k⟩) τ (.ret r))
    (hτ : StorageSucceeds τ) (hcode : execution.failureCode = none)
    (hgood : List.Forall₂ Dispatch.WentWell good kept)
    (hstopped : Stopped deadline k execution readings rest last execution' left) :
    ∃ execution'' left', r = .ok (execution'', kept ++ left') ∧
      Ending deadline k readings execution'' rest last left' ∧ Carried left' last := by
  -- the good steps are finished, so the finalisation goes over what is left
  have hmap : ∀ code message, (kept ++ left).map (·.finalized finishedAt code message) =
      kept ++ left.map (·.finalized finishedAt code message) := by
    intro code message
    rw [List.map_append]
    congr 1
    clear h hstopped
    induction hgood with
    | nil => rfl
    | cons hwell _ ih => rw [List.map_cons, ih, hwell.finalized]
  have hcarried : ∀ code message, Carried (left.map (·.finalized finishedAt code message)) last :=
    fun code message => hstopped.carried.map fun s identity hs => finalized_carries hs _ _ _
  have hfresh : ∀ {later : List ExecutionStep} (code message : String), (∀ s ∈ later, s.Fresh) →
      ∀ s ∈ later.map (·.finalized finishedAt code message), s.AbortedWith code := by
    intro later code message hlater s hs
    obtain ⟨s', hs', rfl⟩ := List.mem_map.mp hs
    exact finalized_aborted (.inl (hlater s' hs').status) _ _ _
  unfold finishSteps at h
  cases hstopped with
  | finished =>
    rw [if_neg (by simp [hcode]), if_pos hcode] at h
    exact ⟨_, [], Program.ret.inj (leads_ret_iff.mp h).2, .succeeded rfl hcode, carried_nil fun _ hs => nomatch hs⟩
  | late reading passed fresh length =>
    rw [if_pos rfl] at h
    obtain ⟨τ₁, r', τ₂, hτ', hfinal, hlast⟩ := leads_bind_ret h
    subst hτ'
    obtain rfl := finalizeUnfinishedSteps_result hfinal hτ.of_append.1
    refine ⟨_, _, (Program.ret.inj (leads_ret_iff.mp hlast).2).trans (by rw [hmap]), ?_, hcarried _ _⟩
    exact .late reading passed rfl rfl (hfresh _ _ fresh) (by simp [length])
  | timedOut reading kind passed running carries fresh length =>
    rw [if_pos rfl] at h
    obtain ⟨τ₁, r', τ₂, hτ', hfinal, hlast⟩ := leads_bind_ret h
    subst hτ'
    obtain rfl := finalizeUnfinishedSteps_result hfinal hτ.of_append.1
    refine ⟨_, _, (Program.ret.inj (leads_ret_iff.mp hlast).2).trans (by rw [hmap]), ?_, hcarried _ _⟩
    refine .timedOut reading passed kind rfl rfl ?_ (by simp [length])
    exact List.forall_mem_cons.mpr ⟨finalized_aborted (.inr running) _ _ _, hfresh _ _ fresh⟩
  | failed reading failure intime status finished carries fresh length =>
    rw [if_neg (by simpa using failureCode_ne failure), if_neg (by simp)] at h
    obtain ⟨τ₁, r', τ₂, hτ', hfinal, hlast⟩ := leads_bind_ret h
    subst hτ'
    obtain rfl := finalizeUnfinishedSteps_result hfinal hτ.of_append.1
    refine ⟨_, _, (Program.ret.inj (leads_ret_iff.mp hlast).2).trans (by rw [hmap]), ?_, hcarried _ _⟩
    rw [List.map_cons, ExecutionStep.finalized, if_neg (by simp [status])]
    exact .failed rfl (by simp [failure]) failure.symm status finished (hfresh _ _ fresh) (by simp [length])

/-- The outcome of an execution, told by what its run was answered: the first `k` actions were
dispatched and went well, and then it ended. -/
def OutcomeLaw (definition : RitualDefinition) (τ : List (Answered Op.Res)) (execution : Execution)
    (steps : List ExecutionStep) (k : Nat) : Prop :=
  ∃ start good rest last kept left, (instants τ).head? = some start ∧ good.length = k ∧
    definition.actions = good.map (·.action) ++ rest ∧ dispatches τ = good ++ last ∧
    steps = kept ++ left ∧ List.Forall₂ Dispatch.WentWell good kept ∧
    Ending (start + definition.execution.timeoutSeconds * nanosPerSecond) k (instants τ) execution
      rest last left

theorem stoppedStatus_terminal (k : Nat) : (stoppedStatus k).isTerminal = true := by
  unfold stoppedStatus
  split <;> rfl

theorem Ending.settled {k : Nat} {readings : List Nat} {rest : List ActionSpec} {last : List Dispatch}
    {left : List ExecutionStep} (h : Ending deadline k readings execution rest last left) :
    execution.status.isTerminal = true ∧
      ((execution.status = .failed ∨ execution.status = .partially) → execution.failureCode ≠ none) ∧
      ∀ s ∈ left, s.status.isTerminal = true ∧ s.finishedAt.isSome = true := by
  have haborted : ∀ {left : List ExecutionStep} {code : String}, (∀ s ∈ left, s.AbortedWith code) →
      ∀ s ∈ left, s.status.isTerminal = true ∧ s.finishedAt.isSome = true := by
    intro left code hall s hs
    exact ⟨by rw [(hall s hs).status]; rfl, (hall s hs).finished⟩
  cases h with
  | succeeded status code =>
    exact ⟨by rw [status]; rfl, by simp [status], fun _ hs => nomatch hs⟩
  | failed status isSome code failed finished aborted length =>
    refine ⟨status ▸ stoppedStatus_terminal k, fun _ => ?_, List.forall_mem_cons.mpr ⟨⟨by rw [failed]; rfl, finished⟩,
      haborted aborted⟩⟩
    rw [code]
    exact Option.isSome_iff_ne_none.mp isSome
  | late reading passed status code aborted length =>
    exact ⟨status ▸ stoppedStatus_terminal k, by simp [code], haborted aborted⟩
  | timedOut reading passed kind status code aborted length =>
    exact ⟨status ▸ stoppedStatus_terminal k, by simp [code], haborted aborted⟩

theorem Dispatch.WentWell.settled {good : List Dispatch} {kept : List ExecutionStep}
    (h : List.Forall₂ Dispatch.WentWell good kept) :
    ∀ s ∈ kept, s.status.isTerminal = true ∧ s.finishedAt.isSome = true := by
  induction h with
  | nil => exact fun _ hs => nomatch hs
  | cons hwell _ ih =>
    refine List.forall_mem_cons.mpr ⟨⟨?_, hwell.finished⟩, ih⟩
    rcases hwell.status with hs | hs <;> rw [hs] <;> rfl

theorem concludeExecution_result {finishedAt : OffsetDateTime}
    {r : Except CoreError (Execution × List ExecutionStep)}
    (h : Leads (concludeExecution finishedAt execution steps) τ (.ret r)) (hτ : StorageSucceeds τ)
    (hsteps : ∀ s ∈ steps, s.status.isTerminal = true)
    (hcode : (execution.status = .failed ∨ execution.status = .partially) → execution.failureCode ≠ none) :
    r = .ok ({ execution with finishedAt := some finishedAt }, steps) := by
  have hinvariant : terminalStepInvariant execution.status steps = true := by
    rw [terminalStepInvariant, List.all_eq_true.mpr hsteps, Bool.or_true]
  unfold concludeExecution at h
  dsimp only at h
  rw [hinvariant, if_neg (by simp)] at h
  rcases leads_perform_bind.mp h with ⟨-, heq⟩ | ⟨updated, τ', hτ', h'⟩
  · exact nomatch heq
  subst hτ'
  cases updated with
  | error e => exact hτ.not_error.elim
  | ok _ =>
  have hnot : ¬ ((execution.status = .failed ∨ execution.status = .partially) ∧
      execution.failureCode = none) := fun hbad => hcode hbad.1 hbad.2
  dsimp only at h'
  rw [if_neg hnot] at h'
  exact Program.ret.inj (leads_ret_iff.mp h').2

/-- Whatever the clocks and the adapters answer, an execution whose storage calls succeed
returns, and the law holds of what it returns. -/
theorem execution_outcome {answer : List (Answered Op.Res) → (o : Op) → o.Res}
    {definition : RitualDefinition} (hcode : execution.failureCode = none)
    (hlength : steps.length = definition.actions.length) (hfresh : ∀ s ∈ steps, s.Fresh)
    (hstorage : StorageSucceeds ((executeSteps execution steps definition).run answer []).2) :
    ∃ execution' steps' k,
      ((executeSteps execution steps definition).run answer []).1 = .ok (execution', steps') ∧
      k ≤ definition.actions.length ∧
      OutcomeLaw definition ((executeSteps execution steps definition).run answer []).2 execution' steps' k ∧
      (∀ s ∈ steps', s.status.isTerminal = true ∧ s.finishedAt.isSome = true) ∧
      Carried steps' (dispatches ((executeSteps execution steps definition).run answer []).2) := by
  obtain ⟨τ, hτ, h, -⟩ := run_leads answer (executeSteps execution steps definition) []
  rw [List.nil_append] at hτ
  rw [hτ] at hstorage ⊢
  generalize ((executeSteps execution steps definition).run answer []).1 = r at h
  clear hτ
  unfold executeSteps at h
  rcases leads_perform_bind.mp h with ⟨-, heq⟩ | ⟨start, τ₁, hτ₁, h₁⟩
  · exact nomatch heq
  subst hτ₁
  obtain ⟨τ₂, ending, τ₃, hτ₂, hloop, h₃⟩ := leads_bind_ret h₁
  subst hτ₂
  obtain ⟨good, rest, last, kept, left, execution', hactions, hdispatches, hgood, hstopped, rfl⟩ :=
    executeActions_result hloop hstorage.tail.of_append.1 hlength hfresh
  rw [List.nil_append, Nat.zero_add] at h₃
  rw [Nat.zero_add] at hstopped
  have hτ₃ : StorageSucceeds τ₃ := hstorage.tail.of_append.2
  rcases leads_perform_bind.mp h₃ with ⟨-, heq⟩ | ⟨finished, τ₄, hτ₄, h₄⟩
  · exact nomatch heq
  subst hτ₄
  obtain ⟨τ₅, r', τ₆, hτ₅, hfinish, h₆⟩ := leads_bind_ret h₄
  subst hτ₅
  obtain ⟨execution'', left', rfl, hending, hcarried⟩ :=
    finishSteps_result hfinish hτ₃.tail.of_append.1 hcode hgood (hstopped.cons start)
  obtain ⟨-, hfailure, hleft⟩ := hending.settled
  have hsettled : ∀ s ∈ kept ++ left', s.status.isTerminal = true ∧ s.finishedAt.isSome = true :=
    List.forall_mem_append.mpr ⟨Dispatch.WentWell.settled hgood, hleft⟩
  obtain rfl := concludeExecution_result h₆ hτ₃.tail.of_append.2 (fun s hs => (hsettled s hs).1) hfailure
  -- after the loop there are only storage calls and a reading of the wall clock
  obtain ⟨hd₅, hi₅⟩ := quiet_of_storage (finishSteps_issues (fun _ => ⟨_, rfl⟩) _ _) hfinish
  obtain ⟨hd₆, hi₆⟩ := quiet_of_storage (concludeExecution_issues (fun _ => ⟨_, rfl⟩) _ _ _) h₆
  have hds : dispatches (⟨.instantNow, start⟩ :: (τ₂ ++ ⟨.nowUtc, finished⟩ :: (τ₅ ++ τ₆))) =
      good ++ last := by
    simp [dispatches_cons, dispatch?, hdispatches, hd₅, hd₆]
  have his : instants (⟨.instantNow, start⟩ :: (τ₂ ++ ⟨.nowUtc, finished⟩ :: (τ₅ ++ τ₆))) =
      start :: instants τ₂ := by
    simp [instants_cons, instant?, hi₅, hi₆]
  refine ⟨_, _, good.length, rfl, ?_, ?_, hsettled, ?_⟩
  · rw [hactions, List.length_append, List.length_map]
    exact Nat.le_add_right _ _
  · refine ⟨start, good, rest, last, kept, left', ?_, rfl, hactions, hds, rfl, hgood, ?_⟩
    · rw [his]
      rfl
    · rw [his]
      exact hending.congr rfl rfl
  · rw [hds]
    exact hcarried.append hgood

end Outcome

namespace Sample

def three : RitualDefinition :=
  ⟨ritualSchemaVersion, "Focus", [notify now, notify later, notify now], ⟨.sequential, .stop, 30⟩⟩

def started : Execution := newExecution 5 2 ⟨3, 2, 1, ritualSchemaVersion, "", "", ⟨0, 0⟩⟩ ⟨0, 0⟩

def pending : List ExecutionStep :=
  [newStep 5 ⟨0, 0⟩ 0 6 (notify now), newStep 5 ⟨0, 0⟩ 1 7 (notify later), newStep 5 ⟨0, 0⟩ 2 8 (notify now)]

/-- What an execution is answered over tables that hold it, by an adapter that shows one body only. -/
def answer : List (Answered Op.Res) → (o : Op) → o.Res
  | _, .storage operation =>
    (executeOperation crates ⟨0, 0⟩ operation
      ⟨{ Database.empty with executions := [started], executionSteps := pending }, none⟩).1
  | _, .execute action _ _ =>
    .ok ⟨⟨linuxAdapterId, 100⟩, ⟨if action = notify now then .succeeded else .failed, "done", ""⟩⟩
  | _, .findEligible _ => .ok ⟨linuxAdapterId, 100⟩
  | _, .register _ => .ok 1
  | _, .disconnectIfCurrent .. => ()
  | _, .reports => []
  | _, .connectedCount => 1
  | _, .connectedCountById _ => 1
  | _, .toolAvailable _ => true
  | _, .acceptClient => ()
  | τ, .newUuid => τ.length
  | _, .nowUtc => ⟨0, 0⟩
  | τ, .instantNow => τ.length
  | _, .metadata _ => none
  | _, .canonicalize _ => none
  | _, .databasePath => "fubun.db"

def executed : Except CoreError (Execution × List ExecutionStep) × List (Answered Op.Res) :=
  (executeSteps started pending three).run answer []

end Sample

theorem execution_outcome_partially : ∃ execution steps k, Sample.executed.1 = .ok (execution, steps) ∧
    k ≤ 3 ∧ OutcomeLaw Sample.three Sample.executed.2 execution steps k ∧
    (∀ s ∈ steps, s.status.isTerminal = true ∧ s.finishedAt.isSome = true) ∧
    Carried steps (dispatches Sample.executed.2) := by
  have hfresh : ∀ s ∈ Sample.pending, s.Fresh := by
    simp only [Sample.pending, List.forall_mem_cons]
    exact ⟨⟨rfl, rfl, rfl⟩, ⟨rfl, rfl, rfl⟩, ⟨rfl, rfl, rfl⟩, fun _ h => nomatch h⟩
  have hstorage : StorageSucceeds Sample.executed.2 := List.all_eq_true.mp (by decide +kernel)
  exact execution_outcome rfl rfl hfresh hstorage

end Fubun

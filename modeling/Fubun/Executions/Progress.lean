import Fubun.Executions.Ledger
import Fubun.Executions.Records

/-! How executions progress, over whole runs of the daemon: the steps of one are taken in their order,
and what has ended stays as it ended. -/

namespace Fubun
open Relational Concurrency Program System

/-! ## The ledger and the tables -/

section Booked
variable {crates : Crates} {i : Nat} {w w' : World} {τ : List (Answered Op.Res)} {o : Op} {ch : Choice}
  {ledger ledger' : Ledger} {execution : Execution} {steps : List ExecutionStep} {step : ExecutionStep}

/-- The tables hold what the ledger says; of the execution only until its last write. -/
structure Ledger.Kept (ledger : Ledger) (i : Nat) (w : World) : Prop where
  owned : (ledger.execution.id, i) ∈ w.issued
  running : ledger.execution.status = .running
  sorted : ledger.steps.Pairwise (·.stepIndex < ·.stepIndex)
  steps : (w.db.slice ledger.execution.id).steps = ledger.steps
  execution : ledger.concluded = false → (w.db.slice ledger.execution.id).executions = [ledger.execution]

theorem Ledger.Kept.mono (h : ledger.Kept i w) (hr : Relies i w w') : ledger.Kept i w' := by
  have hslice := hr.slices ledger.execution.id h.owned
  exact ⟨hr.issued _ h.owned, h.running, h.sorted, hslice ▸ h.steps, fun hopen => hslice ▸ h.execution hopen⟩

def Booked (i : Nat) (τ : List (Answered Op.Res)) (w : World) : Prop :=
  ∀ ledger, ledgerOf τ = some ledger → ledger.Kept i w

theorem Booked.quiet {r : o.Res} (h : Booked i τ w) (ho : o.Quiet) (hact : World.act crates i o ch w = some (r, w'))
    (henter : ∀ ledger, Ledger.enter ledger ⟨o, r⟩ = ledger) : Booked i (τ ++ [⟨o, r⟩]) w' := by
  intro ledger hledger
  rw [ledgerOf_snoc, henter] at hledger
  exact (h ledger hledger).mono (ho.relies hact i)

theorem Booked.execute {action : ActionSpec} {resolved : Option ResolvedResource} {timeout : Nat}
    {r : (Op.execute action resolved timeout).Res} (h : Booked i τ w)
    (hact : World.act crates i (.execute action resolved timeout) ch w = some (r, w')) :
    Booked i (τ ++ [⟨.execute action resolved timeout, r⟩]) w' := by
  have hquiet : (Op.execute action resolved timeout).Quiet := by
    simp [Op.Quiet, executionTables, Op.targets]
  intro ledger hledger
  rw [ledgerOf_snoc] at hledger
  cases hτ : ledgerOf τ with
  | none =>
    rw [hτ] at hledger
    cases hledger
  | some before =>
    rw [hτ] at hledger
    obtain rfl := Option.some.inj hledger
    have hkept := (h before hτ).mono (hquiet.relies hact i)
    exact ⟨hkept.owned, hkept.running, hkept.sorted, hkept.steps, hkept.execution⟩

theorem Booked.start {r : Except StorageError Unit} (h : Booked i τ w) (hp : Startable i w execution steps)
    (hsorted : steps.Pairwise (·.stepIndex < ·.stepIndex))
    (hact : World.act crates i (.storage (.startExecution execution steps)) ch w = some (r, w')) :
    Booked i (τ ++ [⟨.storage (.startExecution execution steps), r⟩]) w' := by
  intro ledger hledger
  rw [ledgerOf_snoc] at hledger
  obtain ⟨he, hw'⟩ := act_storage hact
  have hissued : w'.issued = w.issued := by rw [hw']
  cases r with
  | error e =>
    have hsame : Ledger.enter (ledgerOf τ) ⟨.storage (.startExecution execution steps), .error e⟩ = ledgerOf τ := by
      cases ledgerOf τ <;> rfl
    rw [hsame] at hledger
    exact (h ledger hledger).mono (.of_eq he fun _ hx => hissued ▸ hx)
  | ok u =>
    obtain rfl := Option.some.inj hledger
    obtain ⟨-, -, -, hdb⟩ := startExecution_ok he
    have hexecutions := hp.fresh.1
    have hsteps := hp.fresh.2
    simp only [Database.slice] at hexecutions hsteps
    refine ⟨hissued ▸ hp.owned, hp.running, hsorted, ?_, fun _ => ?_⟩
    · have hall : steps.filter (·.executionId == execution.id) = steps := by
        rw [List.filter_eq_self]
        intro s hs
        simp [(hp.drawn s hs).2.1]
      simp [Database.slice, hdb, hsteps, hall]
    · simp [Database.slice, hdb, hexecutions]

theorem Booked.updateStep {r : Except StorageError Unit} (h : Booked i τ w)
    (hact : World.act crates i (.storage (.updateStep step)) ch w = some (r, w')) :
    Booked i (τ ++ [⟨.storage (.updateStep step), r⟩]) w' := by
  intro ledger hledger
  rw [ledgerOf_snoc] at hledger
  obtain ⟨he, hw'⟩ := act_storage hact
  have hissued : w'.issued = w.issued := by rw [hw']
  cases hτ : ledgerOf τ with
  | none =>
    rw [hτ] at hledger
    cases r <;> cases hledger
  | some before =>
    rw [hτ] at hledger
    have hkept := h before hτ
    cases r with
    | error e =>
      obtain rfl := Option.some.inj hledger
      exact hkept.mono (.of_eq he fun _ hx => hissued ▸ hx)
    | ok u =>
      obtain rfl := Option.some.inj hledger
      obtain ⟨-, hdb⟩ := updateStep_ok.mp he
      refine ⟨hissued ▸ hkept.owned, hkept.running, ?_, ?_, fun hopen => ?_⟩
      · have hmap : (updateStepRow step before.steps).map (·.stepIndex) = before.steps.map (·.stepIndex) :=
          map_updateRows fun _ => rfl
        have hindices := List.pairwise_map.mpr hkept.sorted
        rw [← hmap] at hindices
        exact List.pairwise_map.mp hindices
      · have hrows := hkept.steps
        simp only [Database.slice] at hrows
        simp only [Database.slice, hdb, ← hrows]
        exact filter_updateRows fun _ => rfl
      · have hrow := hkept.execution hopen
        simp only [Database.slice] at hrow
        simp only [Database.slice, hdb, hrow]

theorem Booked.updateExecution {r : Except StorageError Unit} (h : Booked i τ w)
    (hact : World.act crates i (.storage (.updateExecution execution)) ch w = some (r, w')) :
    Booked i (τ ++ [⟨.storage (.updateExecution execution), r⟩]) w' := by
  intro ledger hledger
  rw [ledgerOf_snoc] at hledger
  obtain ⟨he, hw'⟩ := act_storage hact
  have hissued : w'.issued = w.issued := by rw [hw']
  cases hτ : ledgerOf τ with
  | none =>
    rw [hτ] at hledger
    cases hledger
  | some before =>
    rw [hτ] at hledger
    obtain rfl := Option.some.inj hledger
    have hkept := h before hτ
    have hsteps : w'.db.executionSteps = w.db.executionSteps := by
      cases r with
      | ok u => rw [he.2]
      | error e => rcases he with he | he <;> rw [he]
    refine ⟨hissued ▸ hkept.owned, hkept.running, hkept.sorted, ?_, fun hopen => by cases hopen⟩
    have hrows := hkept.steps
    simp only [Database.slice] at hrows
    simp only [Database.slice, hsteps, hrows]

theorem Booked.act {r : o.Res} (h : Booked i τ w) (hturn : InTurn τ o) (hp : Permitted i w o)
    (hact : World.act crates i o ch w = some (r, w')) : Booked i (τ ++ [⟨o, r⟩]) w' := by
  cases o with
  | storage operation =>
    cases operation with
    | startExecution execution steps => exact h.start hp hturn.2 hact
    | updateExecution execution => exact h.updateExecution hact
    | updateStep step => exact h.updateStep hact
    | abortRunningExecutions => exact hp.elim
    | _ =>
      refine h.quiet ?_ hact fun ledger => by cases ledger <;> rfl
      simp [Op.Quiet, executionTables, Op.targets, Operation.writes]
  | execute => exact h.execute hact
  | _ =>
    refine h.quiet ?_ hact fun ledger => by cases ledger <;> rfl
    simp [Op.Quiet, executionTables, Op.targets]

/-- The ledger of a running handler is tied to the tables. -/
def books (crates : Crates) : (ownership crates).Tie InTurn where
  holds := Booked
  stable _ _ _ _ hr _ h ledger hledger := (h ledger hledger).mono hr
  nil _ _ _ hledger := by cases hledger
  own _ h hturn hg hact := h.act hturn hg.1 hact

end Booked

/-! ## One operation -/

section Advance
variable {crates : Crates} {i : Nat} {now : Int} {instant : Nat} {files : Files} {path : String} {c : State}
  {ok : State → Concurrency.Event Nat Frame Choice Drift → Prop} {t : Thread Op Op.Res Frame Reply} {o : Op}
  {k : o.Res → Core Reply} {ch : Choice} {w w' : World} {ledger : Ledger} {db db' : Database}

theorem reaches_booked (h : (daemon crates).Reaches (World.start now instant files path) ok c)
    (ht : c.threads i = some t) : Booked i t.trace c.world :=
  Contract.reaches_tied (books crates) (fun frame => handleFrame_turns frame [] trivial)
    (fun i _ τ _ w => Concluded i τ w) (fun _ _ _ => concluded_stable) (Owned.start now instant files path)
    (fun _ frame w hw _ => handleFrame_triple frame [] w hw ⟨rfl, trivial⟩) h ht

theorem reaches_inTurn (h : (daemon crates).Reaches (World.start now instant files path) ok c)
    (ht : c.threads i = some t) (hrest : t.rest = .call o k) : InTurn t.trace o := by
  have halong := h.along (fun frame => handleFrame_turns frame [] trivial) ht
  rw [hrest] at halong
  exact halong.1

/-- What the operations of a reachable daemon do to the executions and their steps. -/
inductive Advance (db db' : Database) : Prop
  | same (executions : db'.executions = db.executions) (steps : db'.executionSteps = db.executionSteps)
  | start (execution : Execution) (rows : List ExecutionStep) (running : execution.status = .running)
      (fresh : ∀ x ∈ db.executions, x.id ≠ execution.id) (free : ∀ s ∈ db.executionSteps, s.executionId ≠ execution.id)
      (new : ∀ s ∈ rows, s.executionId = execution.id ∧ s.status = .pending)
      (executions : db'.executions = db.executions ++ [execution]) (steps : db'.executionSteps = db.executionSteps ++ rows)
  | turn (row step : ExecutionStep) (mem : row ∈ db.executionSteps) (id : row.id = step.id)
      (advances : row.status.rank < step.status.rank)
      (earlier : step.status = .aborted ∨
        ∀ s ∈ db.executionSteps, s.executionId = row.executionId → s.stepIndex < row.stepIndex → s.IsDone)
      (later : ∀ s ∈ db.executionSteps, s.executionId = row.executionId → row.stepIndex < s.stepIndex → s.status = .pending)
      (executions : db'.executions = db.executions) (steps : db'.executionSteps = updateStepRow step db.executionSteps)
  | finish (execution : Execution) (ended : execution.status.isTerminal = true)
      (running : ∀ x ∈ db.executions, x.id = execution.id → x.status = .running)
      (executions : db'.executions = updateExecutionRow execution db.executions)
      (steps : db'.executionSteps = db.executionSteps)

theorem Ledger.Kept.mem_steps (h : ledger.Kept i w) {s : ExecutionStep} :
    s ∈ ledger.steps ↔ s ∈ w.db.executionSteps ∧ s.executionId = ledger.execution.id := by
  rw [← h.steps, mem_slice_steps]

theorem Ledger.Kept.keyed (h : ledger.Kept i w) (hw : Owned w) : Keyed ExecutionStep.id ledger.steps := by
  rw [← h.steps]
  exact hw.keys.executionSteps.sublist (List.filter_sublist.map _)

theorem mem_of_sorted {done later : List ExecutionStep} {row s : ExecutionStep}
    (h : (done ++ row :: later).Pairwise (·.stepIndex < ·.stepIndex)) (hs : s ∈ done ++ row :: later) :
    (s.stepIndex < row.stepIndex → s ∈ done) ∧ (row.stepIndex < s.stepIndex → s ∈ later) := by
  obtain ⟨-, hrest, hdone⟩ := List.pairwise_append.mp h
  have hlater := (List.pairwise_cons.mp hrest).1
  rcases List.mem_append.mp hs with hs | hs
  · exact ⟨fun _ => hs, fun hlt => absurd hlt (Nat.lt_asymm (hdone s hs row List.mem_cons_self))⟩
  rcases List.mem_cons.mp hs with rfl | hs
  · exact ⟨fun hlt => absurd hlt (Nat.lt_irrefl _), fun hlt => absurd hlt (Nat.lt_irrefl _)⟩
  · exact ⟨fun hlt => absurd hlt (Nat.lt_asymm (hlater s hs)), fun _ => hs⟩

theorem advance_turn {step : ExecutionStep} (hw : Owned w) (hkept : ledger.Kept i w)
    (hturn : Keyed ExecutionStep.id ledger.steps → ∃ done row later, ledger.Turns step done row later)
    (hexecutions : w'.db.executions = w.db.executions)
    (hsteps : w'.db.executionSteps = updateStepRow step w.db.executionSteps) : Advance w.db w'.db := by
  obtain ⟨done, row, later, hturns⟩ := hturn (hkept.keyed hw)
  have hmem (s : ExecutionStep) := hkept.mem_steps (s := s)
  have hsorted := hkept.sorted
  rw [hturns.steps] at hmem hsorted
  obtain ⟨hrow, hid⟩ := (hmem row).mp (List.mem_append_right done List.mem_cons_self)
  refine .turn row step hrow hturns.id hturns.advances (hturns.done.imp_right fun hdone s hs hexecution hlt => ?_)
    (fun s hs hexecution hlt => ?_) hexecutions hsteps
  · have hin := (hmem s).mpr ⟨hs, hexecution.trans hid⟩
    exact hdone s ((mem_of_sorted hsorted hin).1 hlt)
  · have hin := (hmem s).mpr ⟨hs, hexecution.trans hid⟩
    exact hturns.later s ((mem_of_sorted hsorted hin).2 hlt)

theorem reaches_advance (h : (daemon crates).Reaches (World.start now instant files path) ok c)
    (ht : c.threads i = some t) (hrest : t.rest = .call o k) {r : o.Res}
    (hact : World.act crates i o ch c.world = some (r, w')) : Advance c.world.db w'.db := by
  have hw := (reaches_owned h).1
  have hp := reaches_permitted h ht hrest hact
  have hturn := reaches_inTurn h ht hrest
  have hbooked := reaches_booked h ht
  rcases act_effect hact with ⟨operation, reply, hx, he⟩ | hdb
  · cases hx
    cases he.executions with
    | same hexecutions hsteps => exact .same hexecutions hsteps
    | start execution rows _ _ _ hexecutions hsteps =>
      obtain ⟨hfresh, hfree⟩ := hp.fresh
      refine .start execution rows hp.running (fun x hx hid => ?_) (fun s hs hid => ?_) (fun s hs => ?_) hexecutions hsteps
      · have hmem := mem_slice_executions.mpr ⟨hx, hid⟩
        rw [hfresh] at hmem
        cases hmem
      · have hmem := mem_slice_steps.mpr ⟨hs, hid⟩
        rw [hfree] at hmem
        cases hmem
      · exact ⟨(hp.drawn s hs).2.1, hturn.1 s hs⟩
    | update execution _ hexecutions hsteps | updateHalf execution _ hexecutions hsteps =>
      -- the last write of a run ends an execution that was running
      obtain ⟨ledger, hledger, hopen, hid⟩ := hturn
      have hkept := hbooked ledger hledger
      refine .finish execution hp.2.1 (fun x hx hxid => ?_) hexecutions hsteps
      have hmem := mem_slice_executions.mpr ⟨hx, hxid.trans hid.symm⟩
      rw [hkept.execution hopen, List.mem_singleton] at hmem
      exact hmem ▸ hkept.running
    | step step _ hexecutions hsteps =>
      obtain ⟨ledger, hledger, -, hturns⟩ := hturn
      exact advance_turn hw (hbooked ledger hledger) hturns hexecutions hsteps
    | abortExecutions => exact hp.elim
    | abortSteps => exact hp.elim
    | abort => exact hp.elim
  · exact .same (by rw [hdb]) (by rw [hdb])

/-- What the statements of a restart that have committed do to the executions and their steps. -/
theorem restart_advance (crates : Crates) (ch : Choice) (w : World) :
    ((World.restart crates ch w).db.executions = w.db.executions ∨
      (World.restart crates ch w).db.executions = abortExecutionRows w.nowUtc w.db.executions) ∧
    ((World.restart crates ch w).db.executionSteps = w.db.executionSteps ∨
      (World.restart crates ch w).db.executionSteps =
        abortStepRows w.nowUtc (abortExecutionRows w.nowUtc w.db.executions) w.db.executionSteps) := by
  obtain ⟨reply, he, -⟩ := restart_effect crates ch w
  cases reply with
  | ok _ => exact ⟨.inr (by rw [he]; rfl), .inr (by rw [he]; rfl)⟩
  | error _ =>
    rcases he with he | he | he
    · exact ⟨.inl (by rw [he]), .inl (by rw [he])⟩
    · exact ⟨.inr (by rw [he]; rfl), .inl (by rw [he]; rfl)⟩
    · exact ⟨.inr (by rw [he]; rfl), .inr (by rw [he]; rfl)⟩

end Advance

/-! ## Steps in their order -/

section Order
variable {db db' : Database}

/-- Before a step that has been turned to, every step of its execution has gone well. -/
def Database.InOrder (db : Database) : Prop := ∀ s ∈ db.executionSteps, ∀ t ∈ db.executionSteps,
  s.executionId = t.executionId → s.stepIndex < t.stepIndex → t.status ≠ .pending → t.status ≠ .aborted → s.IsDone

theorem Database.InOrder.advance (hkeys : db.Keys) (h : db.InOrder) (ha : Advance db db') : db'.InOrder := by
  cases ha with
  | same _ hsteps | finish _ _ _ _ hsteps =>
    rw [InOrder, hsteps]
    exact h
  | start execution rows _ _ hfree hnew _ hsteps =>
    rw [InOrder, hsteps]
    intro s hs t ht hexecution hlt hpending haborted
    rcases List.mem_append.mp ht with ht | ht
    · rcases List.mem_append.mp hs with hs | hs
      · exact h s hs t ht hexecution hlt hpending haborted
      · exact absurd (hexecution.symm.trans (hnew s hs).1) (hfree t ht)
    · exact absurd (hnew t ht).2 hpending
  | turn row step hrow hid _ hearlier hlater _ hsteps =>
    rw [InOrder, hsteps]
    intro s' hs' t' ht' hexecution hlt hpending haborted
    obtain ⟨s, hs, rfl⟩ := mem_updateRows.mp hs'
    obtain ⟨t, ht, rfl⟩ := mem_updateRows.mp ht'
    -- the id of the step is that of one row
    have hone : ∀ x ∈ db.executionSteps, (x.id == step.id) = true → x = row := fun x hx hxid =>
      hkeys.executionSteps.eq hx hrow ((beq_iff_eq.mp hxid).trans hid.symm)
    by_cases htid : (t.id == step.id) = true
    · obtain rfl := hone t ht htid
      by_cases hsid : (s.id == step.id) = true
      · obtain rfl := hone s hs hsid
        simp [hid] at hlt
      · simp only [htid, hsid, if_true, if_false, Bool.false_eq_true] at hexecution hlt hpending haborted ⊢
        exact (hearlier.resolve_left haborted) s hs hexecution hlt
    · by_cases hsid : (s.id == step.id) = true
      · obtain rfl := hone s hs hsid
        simp only [htid, hsid, if_true, if_false, Bool.false_eq_true] at hexecution hlt hpending
        exact absurd (hlater t ht hexecution.symm hlt) hpending
      · simp only [htid, hsid, if_false, Bool.false_eq_true] at hexecution hlt hpending haborted ⊢
        exact h s hs t ht hexecution hlt hpending haborted

/-- A restart gives up what is pending or running, and that comes last. -/
theorem Database.InOrder.abort {now : OffsetDateTime} {executions : List Execution} (h : db.InOrder)
    (hsteps : db'.executionSteps = abortStepRows now executions db.executionSteps) : db'.InOrder := by
  rw [InOrder, hsteps]
  intro s' hs' t' ht' hexecution hlt hpending haborted
  obtain ⟨s, hs, rfl⟩ := mem_updateRows.mp hs'
  obtain ⟨t, ht, rfl⟩ := mem_updateRows.mp ht'
  split_ifs at hexecution hlt hpending haborted ⊢ with hsgone htgone
  · exact absurd rfl haborted
  · have hdone := h s hs t ht hexecution hlt hpending haborted
    rcases hdone with hs | hs <;> simp [hs] at hsgone
  · exact absurd rfl haborted
  · exact h s hs t ht hexecution hlt hpending haborted

end Order

/-! ## What has ended stays -/

section Since
variable {db db' db'' : Database}

/-- Nothing recorded is lost: an execution is as it was, or it was running and has ended, and a step
is as it was or has come further. -/
structure Since (db db' : Database) : Prop where
  executions : ∀ x ∈ db.executions, ∃ y ∈ db'.executions, y.id = x.id ∧ y.ritualId = x.ritualId ∧
    y.ritualVersionId = x.ritualVersionId ∧ (y = x ∨ x.status = .running ∧ y.status.isTerminal = true)
  steps : ∀ s ∈ db.executionSteps, ∃ t ∈ db'.executionSteps, t.id = s.id ∧ t.executionId = s.executionId ∧
    t.stepIndex = s.stepIndex ∧ t.actionType = s.actionType ∧ (t = s ∨ s.status.rank < t.status.rank)

theorem kept_executions (h : ∀ x ∈ db.executions, x ∈ db'.executions) : ∀ x ∈ db.executions, ∃ y ∈ db'.executions,
    y.id = x.id ∧ y.ritualId = x.ritualId ∧ y.ritualVersionId = x.ritualVersionId ∧
      (y = x ∨ x.status = .running ∧ y.status.isTerminal = true) :=
  fun x hx => ⟨x, h x hx, rfl, rfl, rfl, .inl rfl⟩

theorem kept_steps (h : ∀ s ∈ db.executionSteps, s ∈ db'.executionSteps) : ∀ s ∈ db.executionSteps,
    ∃ t ∈ db'.executionSteps, t.id = s.id ∧ t.executionId = s.executionId ∧ t.stepIndex = s.stepIndex ∧
      t.actionType = s.actionType ∧ (t = s ∨ s.status.rank < t.status.rank) :=
  fun s hs => ⟨s, h s hs, rfl, rfl, rfl, rfl, .inl rfl⟩

theorem Since.refl (db : Database) : Since db db := ⟨kept_executions fun _ h => h, kept_steps fun _ h => h⟩

theorem Since.trans (h : Since db db') (h' : Since db' db'') : Since db db'' where
  executions x hx := by
    obtain ⟨y, hy, hid, hritual, hversion, hyx⟩ := h.executions x hx
    obtain ⟨z, hz, hid', hritual', hversion', hzy⟩ := h'.executions y hy
    refine ⟨z, hz, hid'.trans hid, hritual'.trans hritual, hversion'.trans hversion, ?_⟩
    rcases hyx with rfl | ⟨hrunning, hended⟩
    · exact hzy
    · rcases hzy with rfl | ⟨hstill, -⟩
      · exact .inr ⟨hrunning, hended⟩
      · rw [hstill] at hended
        cases hended
  steps s hs := by
    obtain ⟨t, ht, hid, hexecution, hindex, htype, hts⟩ := h.steps s hs
    obtain ⟨u, hu, hid', hexecution', hindex', htype', hut⟩ := h'.steps t ht
    refine ⟨u, hu, hid'.trans hid, hexecution'.trans hexecution, hindex'.trans hindex, htype'.trans htype, ?_⟩
    rcases hts with rfl | hlt
    · exact hut
    · rcases hut with rfl | hlt'
      · exact .inr hlt
      · exact .inr (hlt.trans hlt')

theorem Since.advance (hkeys : db.Keys) (ha : Advance db db') : Since db db' := by
  cases ha with
  | same hexecutions hsteps =>
    exact ⟨kept_executions fun _ h => hexecutions ▸ h, kept_steps fun _ h => hsteps ▸ h⟩
  | start execution rows _ _ _ _ hexecutions hsteps =>
    refine ⟨kept_executions fun x hx => ?_, kept_steps fun s hs => ?_⟩
    · rw [hexecutions]
      exact List.mem_append_left _ hx
    · rw [hsteps]
      exact List.mem_append_left _ hs
  | turn row step hrow hid hadvances _ _ hexecutions hsteps =>
    refine ⟨kept_executions fun _ h => hexecutions ▸ h, fun s hs => ?_⟩
    rw [hsteps]
    refine ⟨_, mem_updateRows.mpr ⟨s, hs, rfl⟩, ?_⟩
    split_ifs with hsid
    · obtain rfl := hkeys.executionSteps.eq hs hrow ((beq_iff_eq.mp hsid).trans hid.symm)
      exact ⟨rfl, rfl, rfl, rfl, .inr hadvances⟩
    · exact ⟨rfl, rfl, rfl, rfl, .inl rfl⟩
  | finish execution hended hrunning hexecutions hsteps =>
    refine ⟨fun x hx => ?_, kept_steps fun _ h => hsteps ▸ h⟩
    rw [hexecutions]
    refine ⟨_, mem_updateRows.mpr ⟨x, hx, rfl⟩, ?_⟩
    split_ifs with hxid
    · exact ⟨rfl, rfl, rfl, .inr ⟨hrunning x hx (beq_iff_eq.mp hxid), hended⟩⟩
    · exact ⟨rfl, rfl, rfl, .inl rfl⟩

theorem Since.restart (crates : Crates) (ch : Choice) (w : World) : Since w.db (World.restart crates ch w).db := by
  obtain ⟨hexecutions, hsteps⟩ := restart_advance crates ch w
  constructor
  · rcases hexecutions with heq | heq
    · exact kept_executions fun _ h => heq ▸ h
    · intro x hx
      rw [heq]
      refine ⟨_, mem_updateRows.mpr ⟨x, hx, rfl⟩, ?_⟩
      split_ifs with hrunning
      · exact ⟨rfl, rfl, rfl, .inr ⟨beq_iff_eq.mp hrunning, rfl⟩⟩
      · exact ⟨rfl, rfl, rfl, .inl rfl⟩
  · rcases hsteps with heq | heq
    · exact kept_steps fun _ h => heq ▸ h
    · intro s hs
      rw [heq]
      refine ⟨_, mem_updateRows.mpr ⟨s, hs, rfl⟩, ?_⟩
      split_ifs with hgone
      · refine ⟨rfl, rfl, rfl, rfl, .inr ?_⟩
        simp only [Bool.and_eq_true, Bool.or_eq_true, beq_iff_eq] at hgone
        rcases hgone.1 with hs | hs <;> simp [hs, ExecutionStep.abort, ExecutionStepStatus.rank]
      · exact ⟨rfl, rfl, rfl, rfl, .inl rfl⟩

end Since

namespace Sample

def both : RitualDefinition :=
  ⟨ritualSchemaVersion, "Focus", [notify now, notify later], ⟨.sequential, .stop, 30⟩⟩

def bothJson : String :=
  "\x7b\"schema_version\":\"dev.fubun.ritual/1\",\"name\":\"Focus\",\"actions\":[" ++
    "\x7b\"type\":\"desktop.notification.show.v1\",\"title\":\"Focus\",\"body\":\"Start now\"\x7d," ++
    "\x7b\"type\":\"desktop.notification.show.v1\",\"title\":\"Focus\",\"body\":\"Start later\"\x7d]," ++
    "\"execution\":\x7b\"mode\":\"sequential\",\"on_failure\":\"stop\",\"timeout_seconds\":30\x7d\x7d"

def bothCrates : Crates :=
  { crates with
    canonicalJson := fun d => if d = both then some bothJson else none
    parseDefinition := fun s => if s = bothJson then some both else none
    sha256Hex := fun s =>
      if s = bothJson then "e71588efcd06af6fe839eee19ea5c17d74953703bebd49f515e1c8a4766b88fe" else "" }

/-- Ritual 2 runs up to the dispatch of its second action. -/
def between : Schedule :=
  connected 0 ++ connected 1 ++ adapterConnected 2 1 ++
    served 0 (.ritualCreate both) [0, 2, 3, 0] ++ served 0 (.ritualActivate 2 true) [0, 0, 0, 0, 4, 5, 0, 0] ++
    request 0 (.ritualRun 2) [0, 0, 0, 0, 0, 6, 7, 8, 0, 0, 0, 0, 0] ++
    [.call 0 ⟨0, none, .result ⟨.succeeded, "shown", ""⟩⟩] ++ calls 0 [0, 0, 0, 0, 0]

def execBoth (es : Schedule) : Option State := (daemon bothCrates).exec (.init world) es

end Sample

section Runs
variable {crates : Crates} {now : Int} {instant : Nat} {files : Files} {path : String} {c c' : State}
  {ok : State → Concurrency.Event Nat Frame Choice Drift → Prop} {e : Concurrency.Event Nat Frame Choice Drift}

theorem steps_in_order (h : (daemon crates).Reaches (World.start now instant files path) ok c) {s t : ExecutionStep}
    (hs : s ∈ c.world.db.executionSteps) (ht : t ∈ c.world.db.executionSteps) (hexecution : s.executionId = t.executionId) :
    (s.stepIndex < t.stepIndex → t.status ≠ .pending → t.status ≠ .aborted →
      s.status = .succeeded ∨ s.status = .skipped) ∧
    (s.status = .running → t.status = .running → s = t) := by
  have horder : c.world.db.InOrder := by
    refine h.invariant_called (I := fun w => w.db.InOrder) (fun _ hs => by cases hs) ?_ ?_ ?_
    · intro c i t o k ch r w' hc ht hrest hact hinorder
      exact hinorder.advance (reaches_owned hc).1.keys (reaches_advance hc ht hrest hact)
    · intro e w hinorder
      rw [show (daemon crates).drift e w = World.drift e w from rfl, drift_db]
      exact hinorder
    · intro ch w hinorder
      rcases (restart_advance crates ch w).2 with heq | heq
      · rw [Database.InOrder, show (daemon crates).restart ch w = World.restart crates ch w from rfl, heq]
        exact hinorder
      · exact hinorder.abort heq
  refine ⟨horder s hs t ht hexecution, fun hsrunning htrunning => ?_⟩
  -- of two running steps, the earlier would have gone well
  have hnot : ∀ {x y : ExecutionStep}, x ∈ c.world.db.executionSteps → y ∈ c.world.db.executionSteps →
      x.executionId = y.executionId → x.status = .running → y.status = .running → ¬ x.stepIndex < y.stepIndex := by
    intro x y hx hy hxy hxrunning hyrunning hlt
    rcases horder x hx y hy hxy hlt (by simp [hyrunning]) (by simp [hyrunning]) with hx | hx
    · cases hxrunning.symm.trans hx
    · cases hxrunning.symm.trans hx
  have hindex : s.stepIndex = t.stepIndex := Nat.le_antisymm
    (Nat.not_lt.mp (hnot ht hs hexecution.symm htrunning hsrunning)) (Nat.not_lt.mp (hnot hs ht hexecution hsrunning htrunning))
  exact (reaches_indices h rfl).eq hs ht (Prod.ext hexecution hindex)

theorem steps_in_order_between : ∃ c s t, (daemon Sample.bothCrates).Reaches Sample.world Anywhere c ∧
    s ∈ c.world.db.executionSteps ∧ t ∈ c.world.db.executionSteps ∧ s.executionId = t.executionId ∧ s.stepIndex < t.stepIndex ∧
    t.status = .running ∧ (s.status = .succeeded ∨ s.status = .skipped) := by
  have hrun : (Sample.execBoth Sample.between).map (fun c => decide (∃ s ∈ c.world.db.executionSteps,
      ∃ t ∈ c.world.db.executionSteps, s.executionId = t.executionId ∧ s.stepIndex < t.stepIndex ∧ t.status = .running)) =
      some true := by decide +kernel
  obtain ⟨c, hc, hsteps⟩ := Option.map_eq_some_iff.mp hrun
  obtain ⟨s, hs, t, ht, hexecution, hlt, hrunning⟩ := of_decide_eq_true hsteps
  have hreach := System.Reaches.init.exec hc
  exact ⟨c, s, t, hreach, hs, ht, hexecution, hlt, hrunning,
    (steps_in_order hreach hs ht hexecution).1 hlt (by simp [hrunning]) (by simp [hrunning])⟩

theorem step_since (h : (daemon crates).Reaches (World.start now instant files path) ok c) (hs : (daemon crates).Step c e c') :
    Since c.world.db c'.world.db := by
  cases hs with
  | arrive => exact .refl _
  | call ht hrest hact => exact .advance (reaches_owned h).1.keys (reaches_advance h ht hrest hact)
  | answer => exact .refl _
  | @drift e =>
    rw [Config.drifted_world, show ((daemon crates).drift e c.world).db = _ from drift_db e]
    exact .refl _
  | restart => exact .restart crates _ _

/-- Whatever happens after a state, the executions and steps that it shows are still there: what had
ended is as it was, and what had not has at most come further. -/
theorem history_kept (h : (daemon crates).Reaches (World.start now instant files path) Anywhere c)
    {es : List (Concurrency.Event Nat Frame Choice Drift)} (hes : (daemon crates).exec c es = some c') :
    (∀ x ∈ c.world.db.executions, x.status.isTerminal = true → x ∈ c'.world.db.executions) ∧
    (∀ s ∈ c.world.db.executionSteps, s.status.isTerminal = true → s ∈ c'.world.db.executionSteps) ∧
    Since c.world.db c'.world.db := by
  have hsince : Since c.world.db c'.world.db := by
    induction es generalizing c with
    | nil => exact Option.some.inj hes ▸ .refl _
    | cons e es ih =>
      rw [System.exec, List.foldlM_cons] at hes
      obtain ⟨d, hd, hrest⟩ := Option.bind_eq_some_iff.mp hes
      have hstep := step_cases hd
      exact (step_since h hstep).trans (ih (.step h trivial hstep) hrest)
  refine ⟨fun x hx hended => ?_, fun s hs hended => ?_, hsince⟩
  · obtain ⟨y, hy, -, -, -, rfl | ⟨hrunning, -⟩⟩ := hsince.executions x hx
    · exact hy
    · rw [hrunning] at hended
      cases hended
  · obtain ⟨t, ht, -, -, -, -, rfl | hlt⟩ := hsince.steps s hs
    · exact ht
    · have hrank : s.status.rank = 2 := by
        cases hstatus : s.status <;> simp_all [ExecutionStepStatus.isTerminal, ExecutionStepStatus.rank]
      have hbound : t.status.rank ≤ 2 := by
        cases t.status <;> simp [ExecutionStepStatus.rank]
      exact absurd (hrank ▸ hlt) (Nat.not_lt.mpr hbound)

theorem history_kept_crashed : ∃ c c' s, (daemon Sample.bothCrates).Reaches Sample.world Anywhere c ∧
    s ∈ c.world.db.executionSteps ∧ s.status = .succeeded ∧
    (daemon Sample.bothCrates).exec c [.restart ⟨0, none, .timeout⟩] = some c' ∧ s ∈ c'.world.db.executionSteps := by
  have hrun : (Sample.execBoth Sample.between).map (fun c => decide (∃ s ∈ c.world.db.executionSteps, s.status = .succeeded)) =
      some true := by decide +kernel
  obtain ⟨c, hc, hsteps⟩ := Option.map_eq_some_iff.mp hrun
  obtain ⟨s, hs, hstatus⟩ := of_decide_eq_true hsteps
  have hreach := System.Reaches.init.exec hc
  have hes : (daemon Sample.bothCrates).exec c [.restart ⟨0, none, .timeout⟩] =
      some (c.restarted (World.restart Sample.bothCrates ⟨0, none, .timeout⟩ c.world)) := System.exec_singleton ..
  exact ⟨c, _, s, hreach, hs, hstatus, hes, (history_kept hreach hes).2.1 s hs (by rw [hstatus]; rfl)⟩

end Runs
end Fubun

import Fubun.Rituals.Dispatch

/-! Who writes an execution: the connection whose task drew its id. The tables of
executions fall into slices, one for each id; a task changes only the slices of ids
that it has drawn, so what it knows of them stays true while the others run. -/

namespace Fubun
open Relational Concurrency Program System

/-! ## Slices -/

/-- What the tables of executions hold under an id. -/
@[ext] structure Slice where
  executions : List Execution
  steps : List ExecutionStep
  step : List ExecutionStep
  locks : List RitualExecutionLock

def Database.slice (db : Database) (id : Uuid) : Slice where
  executions := db.executions.filter (·.id == id)
  steps := db.executionSteps.filter (·.executionId == id)
  step := db.executionSteps.filter (·.id == id)
  locks := db.ritualExecutionLocks.filter (·.executionId == id)

section Slices
variable {db db' : Database} {id : Uuid} {execution x : Execution} {steps : List ExecutionStep}
  {step s : ExecutionStep} {lock : RitualExecutionLock}

@[simp] theorem mem_slice_executions :
    x ∈ (db.slice id).executions ↔ x ∈ db.executions ∧ x.id = id := by
  simp [Database.slice]

@[simp] theorem mem_slice_steps :
    s ∈ (db.slice id).steps ↔ s ∈ db.executionSteps ∧ s.executionId = id := by
  simp [Database.slice]

@[simp] theorem mem_slice_step : s ∈ (db.slice id).step ↔ s ∈ db.executionSteps ∧ s.id = id := by
  simp [Database.slice]

@[simp] theorem mem_slice_locks :
    lock ∈ (db.slice id).locks ↔ lock ∈ db.ritualExecutionLocks ∧ lock.executionId = id := by
  simp [Database.slice]

theorem slice_same (hexecutions : db'.executions = db.executions)
    (hsteps : db'.executionSteps = db.executionSteps)
    (hlocks : db'.ritualExecutionLocks = db.ritualExecutionLocks) : db'.slice id = db.slice id := by
  simp only [Database.slice, hexecutions, hsteps, hlocks]

theorem slice_start (hid : execution.id ≠ id)
    (hrows : ∀ s ∈ steps, s.id ≠ id ∧ s.executionId = execution.id)
    (hexecutions : db'.executions = db.executions ++ [execution])
    (hsteps : db'.executionSteps = db.executionSteps ++ steps)
    (hlocks : db'.ritualExecutionLocks =
      db.ritualExecutionLocks ++ [⟨execution.ritualId, execution.id⟩]) :
    db'.slice id = db.slice id := by
  have hnone : steps.filter (·.executionId == id) = [] := by
    rw [List.filter_eq_nil_iff]
    intro s hs
    simpa [(hrows s hs).2] using hid
  have hnone' : steps.filter (·.id == id) = [] := by
    rw [List.filter_eq_nil_iff]
    intro s hs
    simpa using (hrows s hs).1
  simp [Database.slice, hexecutions, hsteps, hlocks, hid, hnone, hnone']

theorem slice_update (hid : execution.id ≠ id)
    (hexecutions : db'.executions = updateExecutionRow execution db.executions)
    (hsteps : db'.executionSteps = db.executionSteps)
    (hlocks : db'.ritualExecutionLocks = db.ritualExecutionLocks ∨
      db'.ritualExecutionLocks = releaseLockRow execution.id db.ritualExecutionLocks) :
    db'.slice id = db.slice id := by
  refine Slice.ext ?_ ?_ ?_ ?_
  · rw [Database.slice, hexecutions]
    refine filter_updateRows_of_not (fun _ => rfl) fun y _ hy => ?_
    have hyid : y.id = id := by simpa using hy
    simpa [hyid] using Ne.symm hid
  · simp only [Database.slice, hsteps]
  · simp only [Database.slice, hsteps]
  · rcases hlocks with h | h
    · simp only [Database.slice, h]
    · rw [Database.slice, h]
      refine filter_deleteRows_of_not fun l _ hl => ?_
      have hlid : l.executionId = id := by simpa using hl
      simpa [hlid] using Ne.symm hid

theorem slice_step (hid : step.id ≠ id)
    (hrow : ∀ row ∈ db.executionSteps, row.id = step.id → row.executionId ≠ id)
    (hexecutions : db'.executions = db.executions)
    (hsteps : db'.executionSteps = updateStepRow step db.executionSteps)
    (hlocks : db'.ritualExecutionLocks = db.ritualExecutionLocks) : db'.slice id = db.slice id := by
  refine Slice.ext ?_ ?_ ?_ ?_
  · simp only [Database.slice, hexecutions]
  · rw [Database.slice, hsteps]
    refine filter_updateRows_of_not (fun _ => rfl) fun y hy hy' => ?_
    have hyid : y.executionId = id := by simpa using hy'
    have hne : y.id ≠ step.id := fun heq => hrow y hy heq hyid
    simpa using hne
  · rw [Database.slice, hsteps]
    refine filter_updateRows_of_not (fun _ => rfl) fun y _ hy => ?_
    have hyid : y.id = id := by simpa using hy
    simpa [hyid] using Ne.symm hid
  · simp only [Database.slice, hlocks]

end Slices

/-! ## The invariant -/

/-- One connection drew the id of an execution and those of its steps, and an execution that has
ended on its own has no unfinished step. -/
structure Owned (w : World) : Prop where
  keys : w.db.Keys
  issued : Keyed Prod.fst w.issued
  executions : ∀ row ∈ w.db.executions, ∃ j, (row.id, j) ∈ w.issued
  steps : ∀ row ∈ w.db.executionSteps, ∃ j, (row.id, j) ∈ w.issued ∧ (row.executionId, j) ∈ w.issued
  settled : ∀ row ∈ w.db.executions, row.status.isTerminal = true → row.restarted = false →
    ∀ s ∈ w.db.executionSteps, s.executionId = row.id → s.status.isTerminal = true

section Owned
variable {crates : Crates} {i j : Nat} {o : Op} {ch : Choice} {w w' : World} {id : Uuid}

theorem Owned.start (now : Int) (instant : Nat) (files : Files) (path : String) :
    Owned (.start now instant files path) where
  keys := .empty
  issued := keyed_nil
  executions _ h := nomatch h
  steps _ h := nomatch h
  settled _ h := nomatch h

theorem Owned.owner (h : Owned w) (hi : (id, i) ∈ w.issued) (hj : (id, j) ∈ w.issued) : i = j :=
  congrArg Prod.snd (h.issued.eq hi hj rfl)

theorem Owned.draws (h : Owned w) (hdb : w'.db = w.db) (hkeys : Keyed Prod.fst w'.issued)
    (hissued : ∀ x ∈ w.issued, x ∈ w'.issued) : Owned w' where
  keys := hdb ▸ h.keys
  issued := hkeys
  executions row hr := by
    obtain ⟨j, hj⟩ := h.executions row (hdb ▸ hr)
    exact ⟨j, hissued _ hj⟩
  steps row hr := by
    obtain ⟨j, hj, hj'⟩ := h.steps row (hdb ▸ hr)
    exact ⟨j, hissued _ hj, hissued _ hj'⟩
  settled row hr := by
    rw [hdb] at hr ⊢
    exact h.settled row hr

/-! ## What a task may do -/

/-- The start of an execution whose ids the task has drawn and not used. -/
structure Startable (i : Nat) (w : World) (execution : Execution) (steps : List ExecutionStep) :
    Prop where
  owned : (execution.id, i) ∈ w.issued
  fresh : (w.db.slice execution.id).executions = [] ∧ (w.db.slice execution.id).steps = []
  running : execution.status = .running
  ritual : ∃ row ∈ w.db.rituals, row.id = execution.ritualId
  version : ∃ row ∈ w.db.ritualVersions, row.id = execution.ritualVersionId
  drawn : ∀ s ∈ steps, (s.id, i) ∈ w.issued ∧ s.executionId = execution.id ∧ (w.db.slice s.id).step = []
  ids : Keyed ExecutionStep.id steps
  indices : Keyed ExecutionStep.stepIndex steps

/-- An execution ends after its steps, and steps change while it runs. -/
def Permitted (i : Nat) (w : World) : Op → Prop
  | .storage (.startExecution execution steps) => Startable i w execution steps
  | .storage (.updateExecution execution) => (execution.id, i) ∈ w.issued ∧
    execution.status.isTerminal = true ∧
    ∀ s ∈ (w.db.slice execution.id).steps, s.status.isTerminal = true
  | .storage (.updateStep step) => (step.id, i) ∈ w.issued ∧
    ∀ row ∈ (w.db.slice step.id).step, ∀ x ∈ (w.db.slice row.executionId).executions, x.status = .running
  | .storage .abortRunningExecutions => False
  | _ => True

/-- What the other tasks leave to the task of connection `i`. -/
structure Relies (i : Nat) (w w' : World) : Prop where
  grows : Grows w.db w'.db
  issued : ∀ x ∈ w.issued, x ∈ w'.issued
  slices : ∀ id, (id, i) ∈ w.issued → w'.db.slice id = w.db.slice id

theorem Relies.refl (i : Nat) (w : World) : Relies i w w := ⟨.refl _, fun _ h => h, fun _ _ => rfl⟩

theorem Relies.trans {w'' : World} (h : Relies i w w') (h' : Relies i w' w'') : Relies i w w'' where
  grows := h.grows.trans h'.grows
  issued x hx := h'.issued x (h.issued x hx)
  slices id hid := (h'.slices id (h.issued _ hid)).trans (h.slices id hid)

theorem Relies.of_eq (hdb : w'.db = w.db) (hissued : ∀ x ∈ w.issued, x ∈ w'.issued) :
    Relies i w w' where
  grows := hdb ▸ .refl _
  issued := hissued
  slices _ _ := by rw [hdb]

theorem act_issued {r : o.Res} (h : World.act crates i o ch w = some (r, w')) :
    w'.issued = w.issued ∨
      ((o = .newUuid ∨ ∃ hello, o = .register hello) ∧ ch.uuid ∉ w.issued.map (·.1) ∧
        w'.issued = (ch.uuid, i) :: w.issued) := by
  cases o with
  | storage operation =>
    rw [(act_storage h).2]
    exact .inl rfl
  | execute action resolved timeout =>
    have hw : (w.execute action ch.reply).2 = w' := congrArg Prod.snd (Option.some.inj h)
    rw [← hw, execute_world]
    exact .inl rfl
  | register hello =>
    simp only [World.act] at h
    split at h
    · exact .inl ((Prod.mk.inj (Option.some.inj h)).2 ▸ rfl)
    · split_ifs at h with hfresh
      exact .inr ⟨.inr ⟨hello, rfl⟩, hfresh, (Prod.mk.inj (Option.some.inj h)).2 ▸ rfl⟩
  | newUuid =>
    simp only [World.act] at h
    split_ifs at h with hfresh
    exact .inr ⟨.inl rfl, hfresh, (Prod.mk.inj (Option.some.inj h)).2 ▸ rfl⟩
  | _ => exact .inl ((Prod.mk.inj (Option.some.inj h)).2 ▸ rfl)

theorem act_issued_mono {r : o.Res} (h : World.act crates i o ch w = some (r, w')) :
    ∀ x ∈ w.issued, x ∈ w'.issued := by
  intro x hx
  rcases act_issued h with heq | ⟨-, -, heq⟩
  · exact heq ▸ hx
  · exact heq ▸ List.mem_cons_of_mem _ hx

theorem act_issued_keyed {r : o.Res} (h : World.act crates i o ch w = some (r, w'))
    (hw : Keyed Prod.fst w.issued) : Keyed Prod.fst w'.issued := by
  rcases act_issued h with heq | ⟨-, hfresh, heq⟩
  · rw [heq]
    exact hw
  · rw [heq, Keyed, List.map_cons]
    exact List.nodup_cons.mpr ⟨hfresh, hw⟩

/-! ## Changes of the tables of executions -/

variable {execution : Execution} {steps : List ExecutionStep} {step : ExecutionStep}

theorem Owned.startExecution (h : Owned w) (hp : Startable i w execution steps) (hkeys : w'.db.Keys)
    (hissued : w'.issued = w.issued) (hexecutions : w'.db.executions = w.db.executions ++ [execution])
    (hsteps : w'.db.executionSteps = w.db.executionSteps ++ steps) : Owned w' where
  keys := hkeys
  issued := hissued ▸ h.issued
  executions row hr := by
    rw [hissued]
    rw [hexecutions] at hr
    rcases List.mem_append.mp hr with hr | hr
    · exact h.executions row hr
    · exact List.mem_singleton.mp hr ▸ ⟨i, hp.owned⟩
  steps row hr := by
    rw [hissued]
    rw [hsteps] at hr
    rcases List.mem_append.mp hr with hr | hr
    · exact h.steps row hr
    · obtain ⟨hid, hexecution, -⟩ := hp.drawn row hr
      exact ⟨i, hid, hexecution ▸ hp.owned⟩
  settled row hr hterminal hrestarted s hs heq := by
    rw [hexecutions] at hr
    rw [hsteps] at hs
    have hfresh : ∀ x ∈ w.db.executions, x.id ≠ execution.id := by
      intro x hx hid
      have hmem : x ∈ (w.db.slice execution.id).executions := mem_slice_executions.mpr ⟨hx, hid⟩
      exact nomatch hp.fresh.1 ▸ hmem
    rcases List.mem_append.mp hr with hr | hr
    · rcases List.mem_append.mp hs with hs | hs
      · exact h.settled row hr hterminal hrestarted s hs heq
      · exact absurd (heq.symm.trans (hp.drawn s hs).2.1) (hfresh row hr)
    · -- the new execution has only begun
      rw [List.mem_singleton.mp hr, hp.running] at hterminal
      exact nomatch hterminal

theorem Owned.updateExecution (h : Owned w) (hp : Permitted i w (.storage (.updateExecution execution)))
    (hkeys : w'.db.Keys) (hissued : w'.issued = w.issued)
    (hexecutions : w'.db.executions = updateExecutionRow execution w.db.executions)
    (hsteps : w'.db.executionSteps = w.db.executionSteps) : Owned w' where
  keys := hkeys
  issued := hissued ▸ h.issued
  executions row hr := by
    rw [hissued]
    rw [hexecutions] at hr
    obtain ⟨y, hy, rfl⟩ := mem_updateRows.mp hr
    split
    · exact h.executions y hy
    · exact h.executions y hy
  steps row hr := by
    rw [hissued]
    exact h.steps row (hsteps ▸ hr)
  settled row hr hterminal hrestarted s hs heq := by
    rw [hexecutions] at hr
    rw [hsteps] at hs
    obtain ⟨y, hy, rfl⟩ := mem_updateRows.mp hr
    split_ifs at hterminal hrestarted heq with hid
    · have hyid : y.id = execution.id := by simpa using hid
      exact hp.2.2 s (mem_slice_steps.mpr ⟨hs, heq.trans hyid⟩)
    · exact h.settled y hy hterminal hrestarted s hs heq

theorem Owned.updateStep (h : Owned w) (hp : Permitted i w (.storage (.updateStep step)))
    (hkeys : w'.db.Keys) (hissued : w'.issued = w.issued)
    (hexecutions : w'.db.executions = w.db.executions)
    (hsteps : w'.db.executionSteps = updateStepRow step w.db.executionSteps) : Owned w' where
  keys := hkeys
  issued := hissued ▸ h.issued
  executions row hr := by
    rw [hissued]
    exact h.executions row (hexecutions ▸ hr)
  steps row hr := by
    rw [hissued]
    rw [hsteps] at hr
    obtain ⟨y, hy, rfl⟩ := mem_updateRows.mp hr
    split
    · exact h.steps y hy
    · exact h.steps y hy
  settled row hr hterminal hrestarted s hs heq := by
    rw [hexecutions] at hr
    rw [hsteps] at hs
    obtain ⟨y, hy, rfl⟩ := mem_updateRows.mp hs
    split_ifs at heq ⊢ with hid
    · -- the execution of the step is still running
      have hyid : y.id = step.id := by simpa using hid
      have hrunning := hp.2 y (mem_slice_step.mpr ⟨hy, hyid⟩) row
        (mem_slice_executions.mpr ⟨hr, heq.symm⟩)
      rw [hrunning] at hterminal
      exact nomatch hterminal
    · exact h.settled row hr hterminal hrestarted y hy heq

/-- The statements of a restart that have committed leave the invariant. -/
theorem Owned.abort {now : OffsetDateTime} (h : Owned w) (hkeys : w'.db.Keys)
    (hissued : w'.issued = w.issued)
    (hexecutions : w'.db.executions = abortExecutionRows now w.db.executions)
    (hsteps : w'.db.executionSteps = w.db.executionSteps ∨ w'.db.executionSteps =
      abortStepRows now (abortExecutionRows now w.db.executions) w.db.executionSteps) : Owned w' where
  keys := hkeys
  issued := hissued ▸ h.issued
  executions row hr := by
    rw [hissued]
    rw [hexecutions] at hr
    obtain ⟨y, hy, rfl⟩ := mem_updateRows.mp hr
    split
    · exact h.executions y hy
    · exact h.executions y hy
  steps row hr := by
    rw [hissued]
    rcases hsteps with heq | heq
    · exact h.steps row (heq ▸ hr)
    · rw [heq] at hr
      obtain ⟨y, hy, rfl⟩ := mem_updateRows.mp hr
      split
      · exact h.steps y hy
      · exact h.steps y hy
  settled row hr hterminal hrestarted s hs hid := by
    rw [hexecutions] at hr
    obtain ⟨y, hy, rfl⟩ := mem_updateRows.mp hr
    split_ifs at hterminal hrestarted hid
    · exact nomatch hrestarted
    -- a restart does not touch an execution that had ended
    · rcases hsteps with heq | heq
      · exact h.settled y hy hterminal hrestarted s (heq ▸ hs) hid
      · rw [heq] at hs
        obtain ⟨z, hz, rfl⟩ := mem_updateRows.mp hs
        split_ifs at hid ⊢
        · rfl
        · exact h.settled y hy hterminal hrestarted z hz hid

/-! ## The contract -/

/-- A permitted change of the tables of executions keeps the invariant, and the slices of what
the other connections have drawn. -/
theorem Owned.change (answer : Answer) (h : Owned w) (hp : Permitted i w (.storage answer.1))
    (hkeys : w'.db.Keys) (hissued : w'.issued = w.issued)
    (hchange : ExecutionChange w.nowUtc w.db w'.db answer) :
    Owned w' ∧ ∀ id j, j ≠ i → (id, j) ∈ w.issued → w'.db.slice id = w.db.slice id := by
  have hother : ∀ {id id' j}, (id, i) ∈ w.issued → j ≠ i → (id', j) ∈ w.issued → id ≠ id' := by
    rintro id id' j hid hj hid' rfl
    exact hj (h.owner hid' hid)
  cases hchange with
  | same hexecutions hsteps hlocks =>
    refine ⟨?_, fun id j _ _ => slice_same hexecutions hsteps hlocks⟩
    exact ⟨hkeys, hissued ▸ h.issued, by rw [hexecutions, hissued]; exact h.executions,
      by rw [hsteps, hissued]; exact h.steps, by rw [hexecutions, hsteps]; exact h.settled⟩
  | start execution rows _ _ _ hexecutions hsteps hlocks =>
    refine ⟨h.startExecution hp hkeys hissued hexecutions hsteps, fun id j hj hid => ?_⟩
    refine slice_start (hother hp.owned hj hid) (fun s hs => ?_) hexecutions hsteps hlocks
    exact ⟨hother (hp.drawn s hs).1 hj hid, (hp.drawn s hs).2.1⟩
  | update execution _ hexecutions hsteps hlocks =>
    refine ⟨h.updateExecution hp hkeys hissued hexecutions hsteps, fun id j hj hid => ?_⟩
    refine slice_update (hother hp.1 hj hid) hexecutions hsteps ?_
    split_ifs at hlocks
    · exact .inr hlocks
    · exact .inl hlocks
  | updateHalf execution e hexecutions hsteps hlocks =>
    refine ⟨h.updateExecution hp hkeys hissued hexecutions hsteps, fun id j hj hid => ?_⟩
    exact slice_update (hother hp.1 hj hid) hexecutions hsteps (.inl hlocks)
  | step step _ hexecutions hsteps hlocks =>
    refine ⟨h.updateStep hp hkeys hissued hexecutions hsteps, fun id j hj hid => ?_⟩
    refine slice_step (hother hp.1 hj hid) (fun row hrow heq => ?_) hexecutions hsteps hlocks
    -- a step and its execution have one owner
    obtain ⟨j', hrowid, hexecution⟩ := h.steps row hrow
    obtain rfl := h.owner hrowid (heq ▸ hp.1)
    exact hother hexecution hj hid
  | abortExecutions => exact hp.elim
  | abortSteps => exact hp.elim
  | abort => exact hp.elim

theorem Owned.act {r : o.Res} (h : Owned w) (hp : Permitted i w o)
    (hact : World.act crates i o ch w = some (r, w')) : Owned w' ∧ ∀ j, j ≠ i → Relies j w w' := by
  have hmono := act_issued_mono hact
  cases o with
  | storage operation =>
    obtain ⟨he, hw'⟩ := act_storage hact
    have hissued : w'.issued = w.issued := by rw [hw']
    obtain ⟨howned, hslices⟩ := h.change ⟨operation, r⟩ hp (he.keys h.keys) hissued he.executions
    exact ⟨howned, fun j hj => ⟨he.grows, hmono, fun id hid => hslices id j hj hid⟩⟩
  | _ =>
    have hdb := act_other hact (fun _ ho => nomatch ho)
    exact ⟨h.draws hdb (act_issued_keyed hact h.issued) hmono, fun _ _ => .of_eq hdb hmono⟩

theorem Owned.restart (h : Owned w) (crates : Crates) (ch : Choice) : Owned (World.restart crates ch w) := by
  obtain ⟨reply, he, -⟩ := restart_effect crates ch w
  have hkeys := he.keys h.keys
  have hissued : (World.restart crates ch w).issued = w.issued := rfl
  cases reply with
  | ok _ => exact h.abort hkeys hissued (by rw [he]; rfl) (.inr (by rw [he]; rfl))
  | error _ =>
    rcases he with he | he | he
    · exact h.draws he (hissued ▸ h.issued) fun _ hx => hx
    · exact h.abort hkeys hissued (by rw [he]; rfl) (.inl (by rw [he]; rfl))
    · exact h.abort hkeys hissued (by rw [he]; rfl) (.inr (by rw [he]; rfl))

@[simp] theorem drift_issued (e : Drift) : (World.drift e w).issued = w.issued := by
  cases e <;> rfl

theorem Owned.drift (h : Owned w) (e : Drift) : Owned (World.drift e w) := by
  have hissued := drift_issued (w := w) e
  exact h.draws (drift_db e) (hissued ▸ h.issued) fun _ hx => hissued ▸ hx

theorem Relies.drift (i : Nat) (w : World) (e : Drift) : Relies i w (World.drift e w) :=
  .of_eq (drift_db e) fun _ hx => (drift_issued (w := w) e) ▸ hx

def ownership (crates : Crates) : Contract (daemon crates) where
  inv := Owned
  rely := Relies
  guarantee i o w w' := Permitted i w o ∧ ∀ j, j ≠ i → Relies j w w'
  refl := Relies.refl
  trans := Relies.trans
  compat hj _ h := h.2 _ hj.symm
  drift_inv e h := h.drift e
  drift_rely i e _ := .drift i _ e
  restart_inv ch h := h.restart crates ch

end Owned
end Fubun

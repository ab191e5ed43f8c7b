import Fubun.Concurrency.Tracking
import Fubun.Executions.Records
import Fubun.Rituals.Versions

/-! What the store says of an execution is what its version defines. The version is one of the execution's
own ritual, and the steps are the actions of its definition, one for each and at their places. -/

namespace Fubun
open Relational Concurrency Program System

def Execution.sources (execution : Execution) : Uuid × Uuid × Uuid :=
  (execution.id, execution.ritualId, execution.ritualVersionId)

def ExecutionStep.place (step : ExecutionStep) : Uuid × Nat × String := (step.executionId, step.stepIndex, step.actionType)

def placesFrom (executionId : Uuid) (index : Nat) (actions : List ActionSpec) : List (Uuid × Nat × String) :=
  (actions.zipIdx index).map fun x => (executionId, x.2, x.1.actionType)

/-- The steps at the execution's places are the actions of the definition. -/
def Transcribes (definition : RitualDefinition) (executionId : Uuid) (places : List (Uuid × Nat × String)) : Prop :=
  ∀ index actionType, (executionId, index, actionType) ∈ places ↔
    ∃ action, definition.actions[index]? = some action ∧ action.actionType = actionType

/-- The version is one of the ritual, and this is its definition. -/
structure RitualVersion.Defines (crates : Crates) (version : RitualVersion) (ritualId versionId : Uuid)
    (definition : RitualDefinition) : Prop where
  id : version.id = versionId
  ritualId : version.ritualId = ritualId
  parse : crates.parseDefinition version.canonicalJson = some definition

structure Database.Transcribed (crates : Crates) (db : Database) : Prop where
  executions : ∀ x ∈ db.executions.map Execution.sources, ∃ version ∈ db.ritualVersions, ∃ definition,
    version.Defines crates x.2.1 x.2.2 definition ∧ Transcribes definition x.1 (db.executionSteps.map ExecutionStep.place)
  steps : ∀ p ∈ db.executionSteps.map ExecutionStep.place, ∃ x ∈ db.executions.map Execution.sources, x.1 = p.1

section Places
variable {executionId : Uuid} {definition : RitualDefinition} {places : List (Uuid × Nat × String)}

theorem mem_placesFrom {id : Uuid} {index : Nat} {actionType : String} {actions : List ActionSpec} :
    (id, index, actionType) ∈ placesFrom executionId 0 actions ↔
      id = executionId ∧ ∃ action, actions[index]? = some action ∧ action.actionType = actionType := by
  simp only [placesFrom, List.mem_map, Prod.mk.injEq, Prod.exists, List.mk_mem_zipIdx_iff_getElem?]
  constructor
  · rintro ⟨action, j, haction, rfl, rfl, rfl⟩
    exact ⟨rfl, action, haction, rfl⟩
  · rintro ⟨rfl, action, haction, rfl⟩
    exact ⟨action, index, haction, rfl, rfl, rfl⟩

theorem Transcribes.append {id : Uuid} {actions : List ActionSpec} (h : Transcribes definition executionId places)
    (hne : executionId ≠ id) : Transcribes definition executionId (places ++ placesFrom id 0 actions) := by
  intro index actionType
  rw [List.mem_append, mem_placesFrom, h index actionType]
  simp [hne]

theorem transcribes_new (hfree : ∀ p ∈ places, p.1 ≠ executionId) :
    Transcribes definition executionId (places ++ placesFrom executionId 0 definition.actions) := by
  intro index actionType
  have hnone : (executionId, index, actionType) ∉ places := fun hmem => hfree _ hmem rfl
  rw [List.mem_append, mem_placesFrom]
  simp [hnone]

end Places

section Tables
variable {crates : Crates} {now : OffsetDateTime} {db db' : Database}

namespace Database.Transcribed

theorem empty : Database.empty.Transcribed crates :=
  ⟨fun _ hx => absurd hx List.not_mem_nil, fun _ hp => absurd hp List.not_mem_nil⟩

theorem kept (h : db.Transcribed crates) (hgrows : Grows db db')
    (hexecutions : db'.executions.map Execution.sources = db.executions.map Execution.sources)
    (hsteps : db'.executionSteps.map ExecutionStep.place = db.executionSteps.map ExecutionStep.place) :
    db'.Transcribed crates := by
  refine ⟨fun x hx => ?_, ?_⟩
  · rw [hexecutions] at hx
    obtain ⟨version, hversion, definition, hdefines, htranscribes⟩ := h.executions x hx
    exact ⟨version, hgrows.versions version hversion, definition, hdefines, hsteps ▸ htranscribes⟩
  · rw [hexecutions, hsteps]
    exact h.steps

theorem start (h : db.Transcribed crates) (hgrows : Grows db db') {execution : Execution} {rows : List ExecutionStep}
    (hfresh : ∀ row ∈ db.executions, row.clashes execution = false) {version : RitualVersion}
    {definition : RitualDefinition} (hversion : version ∈ db.ritualVersions)
    (hdefines : version.Defines crates execution.ritualId execution.ritualVersionId definition)
    (hrows : rows.map ExecutionStep.place = placesFrom execution.id 0 definition.actions)
    (hexecutions : db'.executions = db.executions ++ [execution]) (hsteps : db'.executionSteps = db.executionSteps ++ rows) :
    db'.Transcribed crates := by
  have hplaces : db'.executionSteps.map ExecutionStep.place =
      db.executionSteps.map ExecutionStep.place ++ placesFrom execution.id 0 definition.actions := by
    rw [hsteps, List.map_append, hrows]
  have hsources : db'.executions.map Execution.sources = db.executions.map Execution.sources ++ [execution.sources] := by
    rw [hexecutions, List.map_append, List.map_singleton]
  -- every stored step is of an earlier execution, so the new one has none yet
  have hnew : ∀ x ∈ db.executions.map Execution.sources, x.1 ≠ execution.id := by
    intro x hx
    obtain ⟨row, hrow, rfl⟩ := List.mem_map.mp hx
    simpa [Execution.clashes, Execution.sources] using hfresh row hrow
  constructor
  · intro x hx
    rw [hsources] at hx
    rw [hplaces]
    rcases List.mem_append.mp hx with hold | hstarted
    · obtain ⟨earlier, hearlier, defined, hdefined, htranscribes⟩ := h.executions x hold
      exact ⟨earlier, hgrows.versions earlier hearlier, defined, hdefined, htranscribes.append (hnew x hold)⟩
    · obtain rfl := List.mem_singleton.mp hstarted
      refine ⟨version, hgrows.versions version hversion, definition, hdefines, transcribes_new fun p hp hid => ?_⟩
      obtain ⟨x, hx, hxp⟩ := h.steps p hp
      exact hnew x hx (hxp.trans hid)
  · intro p hp
    rw [hplaces] at hp
    rw [hsources]
    rcases List.mem_append.mp hp with hold | hplaced
    · obtain ⟨x, hx, hxp⟩ := h.steps p hold
      exact ⟨x, List.mem_append_left _ hx, hxp⟩
    · obtain ⟨_, index, actionType⟩ := p
      obtain ⟨rfl, -⟩ := mem_placesFrom.mp hplaced
      exact ⟨execution.sources, List.mem_append_right _ List.mem_cons_self, rfl⟩

end Database.Transcribed

/-- An execution starts with a stored version of its ritual and a step for each of its actions. -/
def StartsTranscribed (crates : Crates) (db : Database) (o : Op) : Prop :=
  ∀ execution rows, o = .storage (.startExecution execution rows) → ∃ version ∈ db.ritualVersions, ∃ definition,
    version.Defines crates execution.ritualId execution.ritualVersionId definition ∧
      rows.map ExecutionStep.place = placesFrom execution.id 0 definition.actions

theorem Effect.transcribed {o : Operation} {r : Except StorageError o.Reply} (he : Effect crates now db db' o r)
    (hstart : StartsTranscribed crates db (.storage o)) (h : db.Transcribed crates) : db'.Transcribed crates := by
  cases he.executions with
  | same hexecutions hsteps => exact h.kept he.grows (by rw [hexecutions]) (by rw [hsteps])
  | start execution rows hfresh _ _ hexecutions hsteps =>
    obtain ⟨version, hversion, definition, hdefines, hrows⟩ := hstart execution rows rfl
    exact h.start he.grows hfresh hversion hdefines hrows hexecutions hsteps
  -- the other writes change how far the execution and its steps have come, and nothing of what they are
  | update _ _ hexecutions hsteps | updateHalf _ _ hexecutions hsteps | abortExecutions _ hexecutions hsteps =>
    refine h.kept he.grows ?_ (by rw [hsteps])
    rw [hexecutions]
    exact map_updateRows fun _ => rfl
  | step _ _ hexecutions hsteps =>
    refine h.kept he.grows (by rw [hexecutions]) ?_
    rw [hsteps]
    exact map_updateRows fun _ => rfl
  | abortSteps _ hexecutions hsteps | abort hexecutions hsteps =>
    refine h.kept he.grows ?_ ?_
    · rw [hexecutions]
      exact map_updateRows fun _ => rfl
    · rw [hsteps]
      exact map_updateRows fun _ => rfl

end Tables

/-! ## The start of a run -/

section Starts

/-- Every execution that is started is of this ritual and version, with a step for each of the actions. -/
def StartsOf (ritualId : Uuid) (version : RitualVersion) (definition : RitualDefinition) (o : Op) : Prop :=
  ∀ execution rows, o = .storage (.startExecution execution rows) → execution.ritualId = ritualId ∧
    execution.ritualVersionId = version.id ∧ rows.map ExecutionStep.place = placesFrom execution.id 0 definition.actions

theorem newSteps_places (executionId : Uuid) (now : OffsetDateTime) (index : Nat) (actions : List ActionSpec) :
    (newSteps executionId now index actions).Meets (fun o => o = .newUuid) fun steps =>
      steps.map ExecutionStep.place = placesFrom executionId index actions := by
  induction actions generalizing index with
  | nil => exact rfl
  | cons action actions ih =>
    refine .perform_bind rfl fun id => (ih (index + 1)).bind fun steps hsteps => ?_
    show List.map _ (newStep executionId now index id action :: steps) = _
    rw [List.map_cons, hsteps]
    rfl

theorem startAndExecute_startsOf (id ritualId : Uuid) (version : RitualVersion) (definition : RitualDefinition) :
    (startAndExecute id ritualId version definition).Issues (StartsOf ritualId version definition) := by
  have hdraws : ∀ o : Op, o = .newUuid → StartsOf ritualId version definition o := by
    rintro _ rfl execution rows ho
    cases ho
  unfold startAndExecute
  refine .perform_bind (fun _ _ ho => by cases ho) fun now => .perform_bind (hdraws _ rfl) fun executionId => ?_
  refine ((newSteps_places executionId now 0 definition.actions).mono hdraws fun _ h => h).bind fun steps hsteps => ?_
  refine .perform_bind (fun _ _ ho => ?_) fun r => ?_
  · obtain ⟨rfl, rfl⟩ := Operation.startExecution.inj (Op.storage.inj ho)
    exact ⟨rfl, rfl, hsteps⟩
  split
  · trivial
  · trivial
  · have hrun : HoldsOfRun (StartsOf ritualId version definition) definition.actions := by
      constructor <;> simp [StartsOf]
    refine (executeSteps_issues hrun _ _).bind fun r _ => ?_
    split <;> trivial

end Starts

/-! ## Runs -/

section Runs
variable {crates : Crates} {w₀ : World} {now : Int} {instant : Nat} {files : Files} {path : String} {c : State}
  {ok : State → Concurrency.Event Nat Frame Choice Drift → Prop} {i : Nat}

/-- A run that starts an execution has read the version from the store, where versions stay. -/
theorem startsTranscribed (h : (daemon crates).Reaches w₀ ok c) (h₀ : w₀.db = .empty) {t : Thread Op Op.Res Frame Reply}
    (ht : c.threads i = some t) {o : Op} {k : o.Res → Core Reply} (hrest : t.rest = .call o k) :
    StartsTranscribed crates c.world.db o := by
  rintro execution rows rfl
  have hleads := (h.traced ht).leads
  rw [hrest] at hleads
  have htarget : Target.table .executions ∈ (Op.storage (.startExecution execution rows)).targets := by
    simp [Op.targets, Operation.writes]
  obtain ⟨request, ritualId, k', -, -, hpath⟩ := leads_run htarget (by simp [executionTargets]) hleads
  obtain ⟨ritual, version, definition, preflighted, rest, htrace, -, -, hstart⟩ := run_path htarget hpath
  have hread := h.mem_log ht (htrace ▸ List.mem_cons_self)
  -- the version was read as the ritual's own, and it is still stored
  obtain ⟨-, howner⟩ := (reaches_versioned h h₀).2 i ritualId ritual version definition hread
  obtain ⟨hstored, hparse⟩ := h.persistent (lasting crates) hread
  obtain ⟨hritual, hversion, hrows⟩ := ((startAndExecute_startsOf _ ritualId version definition).leads hstart).1 execution rows rfl
  exact ⟨version, hstored, definition, ⟨hversion.symm, howner.trans hritual.symm, hparse⟩, hrows⟩

theorem reaches_transcribed (h : (daemon crates).Reaches w₀ ok c) (h₀ : w₀.db = .empty) : c.world.db.Transcribed crates := by
  refine h.invariant_called (I := fun w => w.db.Transcribed crates) (h₀ ▸ .empty) ?_ ?_ ?_
  · intro c i t o k ch r w' hc ht hrest hact htranscribed
    have hstart := startsTranscribed hc h₀ ht hrest
    rcases act_effect hact with ⟨operation, reply, hx, he⟩ | hsame
    · cases hx
      exact he.transcribed hstart htranscribed
    · exact hsame ▸ htranscribed
  · intro e w htranscribed
    exact (drift_db e).symm ▸ htranscribed
  · intro ch w htranscribed
    obtain ⟨reply, he, -⟩ := restart_effect crates ch w
    exact he.transcribed (fun _ _ ho => by cases ho) htranscribed

/-- Every stored execution is of a stored version of its own ritual, and its steps are the actions of that
version's definition: each action has exactly one step, at its index, and there is no other. -/
theorem execution_transcribes (h : (daemon crates).Reaches (World.start now instant files path) ok c) {execution : Execution}
    (hexecution : execution ∈ c.world.db.executions) :
    ∃ version ∈ c.world.db.ritualVersions, ∃ definition,
      version.Defines crates execution.ritualId execution.ritualVersionId definition ∧
      (∀ index action, definition.actions[index]? = some action → ∃! step, step ∈ c.world.db.executionSteps ∧
        step.executionId = execution.id ∧ step.stepIndex = index ∧ step.actionType = action.actionType) ∧
      ∀ step ∈ c.world.db.executionSteps, step.executionId = execution.id →
        ∃ action, definition.actions[step.stepIndex]? = some action ∧ action.actionType = step.actionType := by
  obtain ⟨version, hversion, definition, hdefines, htranscribes⟩ :=
    (reaches_transcribed h rfl).executions _ (List.mem_map_of_mem hexecution)
  refine ⟨version, hversion, definition, hdefines, fun index action haction => ?_, fun step hstep hid => ?_⟩
  · obtain ⟨step, hstep, hplace⟩ := List.mem_map.mp ((htranscribes index action.actionType).mpr ⟨action, haction, rfl⟩)
    obtain ⟨hid, hplace⟩ := Prod.mk.inj hplace
    obtain ⟨hindex, htype⟩ := Prod.mk.inj hplace
    refine ⟨step, ⟨hstep, hid, hindex, htype⟩, ?_⟩
    rintro other ⟨hother, hotherId, hotherIndex, -⟩
    exact (reaches_indices h rfl).eq hother hstep (Prod.ext (hotherId.trans hid.symm) (hotherIndex.trans hindex.symm))
  · refine (htranscribes step.stepIndex step.actionType).mp ?_
    rw [← show execution.id = execution.sources.1 from rfl, ← hid]
    exact List.mem_map_of_mem hstep

end Runs

theorem execution_transcribes_running : ∃ (c : State) (execution : Execution) (version : RitualVersion) (definition : RitualDefinition),
    (daemon Sample.crates).Reaches Sample.world Anywhere c ∧ execution ∈ c.world.db.executions ∧ execution.ritualVersionId = 3 ∧
      version.Defines Sample.crates execution.ritualId execution.ritualVersionId definition ∧
      ∀ step ∈ c.world.db.executionSteps, step.executionId = execution.id →
        ∃ action, definition.actions[step.stepIndex]? = some action ∧ action.actionType = step.actionType := by
  have hrun : (Sample.exec (Sample.activated ++ Sample.request 0 (.ritualRun 2) [0, 0, 0, 0, 5, 6, 0, 0])).map
      (fun c => c.world.db.executions.map (·.ritualVersionId)) = some [3] := by decide +kernel
  obtain ⟨c, hc, hversions⟩ := Option.map_eq_some_iff.mp hrun
  have hthree : 3 ∈ c.world.db.executions.map (·.ritualVersionId) := hversions ▸ List.mem_cons_self
  obtain ⟨execution, hexecution, hid⟩ := List.mem_map.mp hthree
  have hreach : (daemon Sample.crates).Reaches Sample.world Anywhere c := System.Reaches.init.exec hc
  obtain ⟨version, -, definition, hdefines, -, hsteps⟩ := execution_transcribes hreach hexecution
  exact ⟨c, execution, version, definition, hreach, hexecution, hid, hdefines, hsteps⟩

end Fubun

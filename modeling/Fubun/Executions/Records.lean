import Fubun.Executions.Recovery
import Fubun.Executions.Redaction
import Fubun.Relational.Order
import Fubun.Rituals.Sizes

/-! The record of an execution as `execution.show` answers with it. With redacted texts
the record of at most 16 steps fits into a frame. -/

namespace Fubun
open Encoding Relational Concurrency Program System

/-! ## JSON -/

def TriggerKind.name : TriggerKind → String
  | .manual => "manual"

def ExecutionStatus.name : ExecutionStatus → String
  | .planned => "planned"
  | .running => "running"
  | .succeeded => "succeeded"
  | .failed => "failed"
  | .partially => "partial"
  | .aborted => "aborted"

def ExecutionStepStatus.name : ExecutionStepStatus → String
  | .pending => "pending"
  | .running => "running"
  | .succeeded => "succeeded"
  | .skipped => "skipped"
  | .failed => "failed"
  | .aborted => "aborted"

section Json
variable (crates : Crates)

def optionalTimestampJson : Option OffsetDateTime → Json
  | some t => timestampJson crates t
  | none => .null

def Execution.toJson (execution : Execution) : Json :=
  .object ([("id", execution.id.toJson), ("ritual_id", execution.ritualId.toJson),
    ("ritual_version_id", execution.ritualVersionId.toJson), ("status", .string execution.status.name),
    ("trigger_kind", .string execution.triggerKind.name), ("started_at", timestampJson crates execution.startedAt),
    ("finished_at", optionalTimestampJson crates execution.finishedAt)] ++
    execution.failureCode.toList.map (fun code => ("failure_code", .string code)) ++
    [("created_at", timestampJson crates execution.createdAt)])

def ExecutionStep.toJson (step : ExecutionStep) : Json :=
  .object ([("id", step.id.toJson), ("execution_id", step.executionId.toJson), ("step_index", .number step.stepIndex),
    ("action_type", .string step.actionType), ("status", .string step.status.name)] ++
    step.adapterId.toList.map (fun adapterId => ("adapter_id", .string adapterId)) ++
    step.adapterInstanceId.toList.map (fun instanceId => ("adapter_instance_id", instanceId.toJson)) ++
    [("started_at", timestampJson crates step.startedAt),
      ("finished_at", optionalTimestampJson crates step.finishedAt)] ++
    step.resultCode.toList.map (fun code => ("result_code", .string code)) ++
    step.redactedMessage.toList.map (fun message => ("redacted_message", .string message)))

def executionRecordJson (execution : Execution) (steps : List ExecutionStep) : Json :=
  .object [("execution", execution.toJson crates), ("steps", .array (steps.map (ExecutionStep.toJson crates)))]

end Json

/-! ## Sizes -/

theorem Redacted.isShort {text : String} (h : Redacted text) : IsShort 160 text :=
  ⟨h.length, clean_of_not_control h.clean⟩

/-- A step as it is started: one of at most 16, with an action that exists. -/
structure ExecutionStep.IsPlaced (step : ExecutionStep) : Prop where
  stepIndex : step.stepIndex < 16
  actionType : IsShort 28 step.actionType

section Sizes
variable {crates : Crates} {execution : Execution} {step : ExecutionStep}

theorem cost_optional_le {α : Type} {weight : Char → Nat} {n : Nat} {value : Option α} {field : α → String × Json}
    (h : ∀ a ∈ value, cost weight (renderField (field a)) ≤ n) :
    ((value.toList.map field).map fun field => cost weight (renderField field)).sum ≤ n ∧ (value.toList.map field).length ≤ 1 := by
  cases value with
  | none => exact ⟨Nat.zero_le n, Nat.zero_le 1⟩
  | some a => simpa using h a rfl

theorem cost_optionalTimestamp_le (hformat : ∀ t, IsShort 35 (crates.formatRfc3339 t)) (t : Option OffsetDateTime) :
    cost Char.utf8Size (renderField ("finished_at", optionalTimestampJson crates t)) ≤ 189 := by
  cases t with
  | none =>
    show cost Char.utf8Size (renderField ("finished_at", .null)) ≤ 189
    decide +kernel
  | some t => exact field_timestamp_le t (hformat t) (by decide)

theorem cost_redacted_le {key text : String} (hkey : IsShort 16 key) (h : Redacted text) :
    cost Char.utf8Size (renderField (key, .string text)) ≤ 709 := by
  have hfield := cost_field_le light_utf8Size hkey (h.isShort.cost_le light_utf8Size)
  exact hfield

theorem cost_executed_le (hformat : ∀ t, IsShort 35 (crates.formatRfc3339 t)) (h : execution.IsRedacted) :
    cost Char.utf8Size (execution.toJson crates).render ≤ 3000 := by
  have hstatusName : IsShort 9 execution.status.name := by cases execution.status <;> decide
  have htriggerName : IsShort 6 execution.triggerKind.name := by cases execution.triggerKind; decide
  have hid := field_uuid_le execution.id (show IsShort 18 "id" by decide)
  have hritual := field_uuid_le execution.ritualId (show IsShort 18 "ritual_id" by decide)
  have hversion := field_uuid_le execution.ritualVersionId (show IsShort 18 "ritual_version_id" by decide)
  have hstatus := cost_field_le light_utf8Size (show IsShort 6 "status" by decide) (hstatusName.cost_le light_utf8Size)
  have htrigger := cost_field_le light_utf8Size (show IsShort 12 "trigger_kind" by decide) (htriggerName.cost_le light_utf8Size)
  have hstarted := field_timestamp_le execution.startedAt (hformat _) (show IsShort 11 "started_at" by decide)
  have hfinished := cost_optionalTimestamp_le hformat execution.finishedAt
  have hcreated := field_timestamp_le execution.createdAt (hformat _) (show IsShort 11 "created_at" by decide)
  obtain ⟨hfailure, hcount⟩ := cost_optional_le
    fun code hc => cost_redacted_le (show IsShort 16 "failure_code" by decide) (h.failureCode code hc)
  rw [Execution.toJson, cost_object light_utf8Size]
  simp only [List.map_append, List.sum_append, List.length_append, List.map_cons, List.map_nil, List.sum_cons, List.sum_nil,
    List.length_cons, List.length_nil]
  omega

theorem short_actingAdapterId {adapterId : String} (h : adapterId ∈ actingAdapterIds) : IsShort 26 adapterId := by
  have hshort : ∀ adapterId ∈ actingAdapterIds, IsShort 26 adapterId := by decide
  exact hshort adapterId h

theorem cost_step_le (hformat : ∀ t, IsShort 35 (crates.formatRfc3339 t)) (h : step.IsBrief) (hplaced : step.IsPlaced) :
    cost Char.utf8Size (step.toJson crates).render ≤ 4000 := by
  have hstatusName : IsShort 9 step.status.name := by cases step.status <;> decide
  have hid := field_uuid_le step.id (show IsShort 18 "id" by decide)
  have hexecution := field_uuid_le step.executionId (show IsShort 18 "execution_id" by decide)
  have hindex := cost_field_le light_utf8Size (show IsShort 10 "step_index" by decide)
    (cost_natural_le light_utf8Size (show 0 < 2 by decide) (show step.stepIndex < 10 ^ 2 from hplaced.stepIndex.trans (by decide)))
  have haction := cost_field_le light_utf8Size (show IsShort 11 "action_type" by decide)
    (hplaced.actionType.cost_le light_utf8Size)
  have hstatus := cost_field_le light_utf8Size (show IsShort 6 "status" by decide) (hstatusName.cost_le light_utf8Size)
  have hstarted := field_timestamp_le step.startedAt (hformat _) (show IsShort 11 "started_at" by decide)
  have hfinished := cost_optionalTimestamp_le hformat step.finishedAt
  obtain ⟨hadapter, hadapters⟩ := cost_optional_le fun adapterId ha => cost_field_le light_utf8Size
    (show IsShort 10 "adapter_id" by decide) ((short_actingAdapterId (h.adapterId adapterId ha)).cost_le light_utf8Size)
  obtain ⟨hinstance, hinstances⟩ := cost_optional_le fun instanceId (_ : instanceId ∈ step.adapterInstanceId) =>
    cost_field_le light_utf8Size (show IsShort 19 "adapter_instance_id" by decide) ((short_uuid instanceId).cost_le light_utf8Size)
  obtain ⟨hcode, hcodes⟩ := cost_optional_le fun code hc =>
    cost_redacted_le (show IsShort 16 "result_code" by decide) (h.resultCode code hc)
  obtain ⟨hmessage, hmessages⟩ := cost_optional_le fun message hm =>
    cost_redacted_le (show IsShort 16 "redacted_message" by decide) (h.redactedMessage message hm)
  rw [ExecutionStep.toJson, cost_object light_utf8Size]
  simp only [List.map_append, List.sum_append, List.length_append, List.map_cons, List.map_nil, List.sum_cons, List.sum_nil,
    List.length_cons, List.length_nil]
  unfold Uuid.toJson at *
  omega

theorem cost_executionRecord_le (hformat : ∀ t, IsShort 35 (crates.formatRfc3339 t)) {steps : List ExecutionStep}
    (hexecution : execution.IsRedacted) (hcount : steps.length ≤ 16) (hsteps : ∀ step ∈ steps, step.IsBrief ∧ step.IsPlaced) :
    cost Char.utf8Size (executionRecordJson crates execution steps).render ≤ 160000 := by
  have hfirst := cost_field_le light_utf8Size (show IsShort 9 "execution" by decide) (cost_executed_le hformat hexecution)
  have harray : cost Char.utf8Size (Json.array (steps.map (ExecutionStep.toJson crates))).render ≤ 16 * 4000 + 16 + 2 := by
    refine cost_array_le light_utf8Size (by rw [List.length_map]; exact hcount) ?_
    rw [List.forall_mem_map]
    exact fun step hs => cost_step_le hformat (hsteps step hs).1 (hsteps step hs).2
  have hsecond := cost_field_le light_utf8Size (show IsShort 5 "steps" by decide) harray
  rw [executionRecordJson, cost_object light_utf8Size]
  simp only [List.map_cons, List.map_nil, List.sum_cons, List.sum_nil, List.length_cons, List.length_nil]
  omega

end Sizes

/-! ## The steps of an execution -/

section Steps
variable {crates : Crates} {w₀ : World} {ok : State → Concurrency.Event Nat Frame Choice Drift → Prop} {c : State}
  {db db' : Database} {executionId : Uuid} {now : OffsetDateTime} {definition : RitualDefinition}
  {τ : List (Answered Op.Res)}

theorem short_actionType (action : ActionSpec) : IsShort 28 action.actionType := by
  cases action
  · exact show IsShort 28 "linux.app.ensure_running.v1" by decide
  · exact show IsShort 28 "linux.path.open.v1" by decide
  · exact show IsShort 28 "desktop.notification.show.v1" by decide
  · exact show IsShort 28 "browser.tab.ensure_open.v1" by decide

/-- A start has no more steps than actions. -/
def StartsPlaced (n : Nat) (o : Op) : Prop :=
  ∀ execution steps, o = .storage (.startExecution execution steps) →
    ∀ step ∈ steps, step.stepIndex < n ∧ IsShort 28 step.actionType

theorem newSteps_placed (index : Nat) (actions : List ActionSpec) {n : Nat} :
    (newSteps executionId now index actions).Meets (StartsPlaced n) fun steps =>
      ∀ step ∈ steps, step.stepIndex < index + actions.length ∧ IsShort 28 step.actionType := by
  induction actions generalizing index with
  | nil => exact fun _ hs => nomatch hs
  | cons action actions ih =>
    refine .perform_bind (fun _ _ ho => nomatch ho) fun id => (ih (index + 1)).bind fun steps hsteps => ?_
    refine List.forall_mem_cons.mpr ⟨⟨?_, short_actionType action⟩, fun step hs => ?_⟩
    · show index < index + (actions.length + 1)
      omega
    · obtain ⟨hindex, htype⟩ := hsteps step hs
      rw [List.length_cons]
      exact ⟨by omega, htype⟩

theorem startAndExecute_placed (id ritualId : Uuid) (version : RitualVersion) (definition : RitualDefinition) :
    (startAndExecute id ritualId version definition).Issues (StartsPlaced definition.actions.length) := by
  unfold startAndExecute
  refine .perform_bind (fun _ _ ho => nomatch ho) fun now => .perform_bind (fun _ _ ho => nomatch ho) fun executionId => ?_
  refine (newSteps_placed 0 definition.actions).bind fun steps hsteps => ?_
  rw [Nat.zero_add] at hsteps
  refine .perform_bind (fun _ _ ho => ?_) fun r => ?_
  · obtain ⟨-, rfl⟩ := Operation.startExecution.inj (Op.storage.inj ho)
    exact hsteps
  split
  · trivial
  · trivial
  · have hrun : HoldsOfRun (StartsPlaced definition.actions.length) definition.actions := by
      constructor <;> simp [StartsPlaced]
    refine (executeSteps_issues hrun _ _).bind fun r _ => ?_
    split <;> trivial

/-! ## Definitions that were read -/

theorem validateRitualDefinition_valid {canonical : String} (h : validateRitualDefinition crates definition = .ok canonical) :
    definition.validate = .ok () := by
  unfold validateRitualDefinition at h
  split at h
  · exact nomatch h
  · assumption

theorem create_valid {id : Uuid} {o : Op} {k : o.Res → Core ResponseEnvelope}
    (h : Leads (ritualCreateResponse crates id definition) τ (.call o k)) : definition.validate = .ok () := by
  unfold ritualCreateResponse at h
  split at h
  · exact absurd h not_leads_ret_call
  · rename_i hvalid
    exact validateRitualDefinition_valid hvalid

theorem update_valid {id ritualId : Uuid} {o : Op} {k : o.Res → Core ResponseEnvelope}
    (h : Leads (ritualUpdateResponse crates id ritualId definition) τ (.call o k)) : definition.validate = .ok () := by
  unfold ritualUpdateResponse at h
  split at h
  · exact absurd h not_leads_ret_call
  · rename_i hvalid
    exact validateRitualDefinition_valid hvalid

theorem leads_valid {frame : Frame} {o : Op} {k : o.Res → Core Reply} {ritual : Ritual} {version : RitualVersion}
    (ho : o = .storage (.createRitual ritual version definition) ∨ o = .storage (.updateRitual ritual version definition))
    (h : Leads (handleFrame crates frame) τ (.call o k)) : definition.validate = .ok () := by
  have ht : Target.table .rituals ∈ o.targets := by
    rcases ho with rfl | rfl <;> simp [Op.targets, Operation.writes]
  obtain ⟨request, k', rfl, hbody⟩ := leads_rituals ht h
  rcases hbody with ⟨definition', -, hpath⟩ | ⟨ritualId, definition', -, hpath⟩ | ⟨ritualId, approve, -, hpath⟩ | ⟨ritualId, -, hpath⟩
  · obtain ⟨_, _, hop, -⟩ := create_path ht hpath
    have hvalid := create_valid hpath
    rcases ho with ho | ho
    · obtain ⟨-, -, rfl⟩ := Operation.createRitual.inj (Op.storage.inj (ho.symm.trans hop))
      exact hvalid
    · cases ho.symm.trans hop
  · obtain ⟨_, _, hop, -⟩ := update_path ht hpath
    have hvalid := update_valid hpath
    rcases ho with ho | ho
    · cases ho.symm.trans hop
    · obtain ⟨-, -, rfl⟩ := Operation.updateRitual.inj (Op.storage.inj (ho.symm.trans hop))
      exact hvalid
  · obtain ⟨-, _, _, _, _, _, _, _, -, -, _, -, ⟨hop, -⟩ | ⟨hop, -⟩⟩ := activate_path ht hpath
    · rcases ho with ho | ho <;> cases ho.symm.trans hop
    · rcases ho with ho | ho <;> cases ho.symm.trans hop
  · have hop := pause_path ht hpath
    rcases ho with ho | ho <;> cases ho.symm.trans hop

/-- What was read of a ritual is a definition that was stored, so a valid one. -/
theorem read_valid (hdecodes : crates.Decodes) (h : (daemon crates).Reaches w₀ ok c) (h₀ : w₀.db = .empty) {i : Nat}
    {ritualId : Uuid} {ritual : Ritual} {version : RitualVersion}
    (hl : .call i (.storage (.getRitual ritualId)) (.ok (ritual, version, definition)) ∈ c.log) :
    definition.validate = .ok () := by
  obtain ⟨hversion, hparse⟩ := h.persistent (lasting crates) hl
  obtain ⟨stored, ⟨j, ritual', hdefined⟩, hstores⟩ := version_defined h h₀ hversion
  obtain rfl : stored = definition := by
    have hdecoded := hdecodes stored _ hstores.canonicalJson
    exact Option.some.inj (hdecoded.symm.trans hparse)
  rcases hdefined with hl | hl
  · obtain ⟨before, after, hlog⟩ := List.append_of_mem hl
    obtain ⟨_, _, _, _, -, -, hleads⟩ := h.called hlog
    exact leads_valid (.inl rfl) hleads
  · obtain ⟨before, after, hlog⟩ := List.append_of_mem hl
    obtain ⟨_, _, _, _, -, -, hleads⟩ := h.called hlog
    exact leads_valid (.inr rfl) hleads

/-! ## At most 16 steps -/

theorem Effect.placed {o : Operation} {r : Except StorageError o.Reply} (he : Effect crates now db db' o r)
    (ho : StartsPlaced 16 (.storage o)) (h : ∀ step ∈ db.executionSteps, step.IsPlaced) :
    ∀ step ∈ db'.executionSteps, step.IsPlaced := by
  cases he.executions with
  | same _ heq | update _ _ _ heq | updateHalf _ _ _ heq | abortExecutions _ _ heq => exact heq ▸ h
  | start execution rows _ _ _ _ heq =>
    rw [heq]
    refine List.forall_mem_append.mpr ⟨h, fun step hs => ?_⟩
    obtain ⟨hindex, htype⟩ := ho execution rows rfl step hs
    exact ⟨hindex, htype⟩
  | step _ _ _ heq | abortSteps _ _ heq | abort _ heq =>
    rw [heq]
    exact forall_updateRows h fun _ hrow => ⟨hrow.stepIndex, hrow.actionType⟩

theorem reaches_placed (hdecodes : crates.Decodes) (h : (daemon crates).Reaches w₀ ok c) (h₀ : w₀.db = .empty) :
    ∀ step ∈ c.world.db.executionSteps, step.IsPlaced := by
  by_contra hnot
  have hempty : ¬ ¬ ∀ step ∈ w₀.db.executionSteps, step.IsPlaced := by
    rw [h₀]
    exact not_not_intro (List.forall_mem_nil _)
  obtain ⟨before, i, operation, reply, after, hlog, hstart⟩ := reaches_origin h
    (P := fun db => ¬ ∀ step ∈ db.executionSteps, step.IsPlaced) (Q := fun x => ¬ StartsPlaced 16 (.storage x.1)) hempty (by
      intro now db db' o r he hbad
      by_cases hgood : ∀ step ∈ db.executionSteps, step.IsPlaced
      · exact .inr fun ho => hbad (he.placed ho hgood)
      · exact .inl hgood)
    (fun _ hx => hx fun _ _ ho => nomatch ho) hnot
  obtain ⟨earlier, frame, later, k, rfl, -, hleads⟩ := h.called hlog
  -- the operation is the start of a run, which has read a valid definition
  refine hstart fun execution steps ho => ?_
  cases ho
  have ht : Target.table .executions ∈ (Op.storage (.startExecution execution steps)).targets := by
    simp [Op.targets, Operation.writes]
  obtain ⟨request, ritualId, k', -, -, hpath⟩ := leads_run ht (by simp [executionTargets]) hleads
  obtain ⟨ritual, version, definition, preflighted, rest, htrace, -, -, hrest⟩ := run_path ht hpath
  have hread : .call i (.storage (.getRitual ritualId)) (.ok (ritual, version, definition)) ∈ c.log := by
    have hmem := (mem_callsOf i later).mp (htrace ▸ List.mem_cons_self)
    rw [hlog]
    simp [hmem]
  have hcount := (RitualDefinition.isValid (read_valid hdecodes h h₀ hread)).actions
  intro step hs
  obtain ⟨hindex, htype⟩ := ((startAndExecute_placed _ _ version definition).leads hrest).1 execution steps rfl step hs
  exact ⟨hindex.trans_le hcount, htype⟩

/-- `UNIQUE(execution_id, step_index)`. -/
theorem reaches_indices (h : (daemon crates).Reaches w₀ ok c) (h₀ : w₀.db = .empty) :
    Keyed (fun step : ExecutionStep => (step.executionId, step.stepIndex)) c.world.db.executionSteps := by
  refine reaches_database h (I := fun db => Keyed (fun step : ExecutionStep => (step.executionId, step.stepIndex)) db.executionSteps)
    (h₀ ▸ keyed_nil) ?_
  intro now db db' o r he hk
  cases he.executions with
  | same _ heq | update _ _ _ heq | updateHalf _ _ _ heq | abortExecutions _ _ heq =>
    rw [heq]
    exact hk
  | start _ rows _ _ hins _ heq =>
    rw [heq]
    refine hk.insertRows (fun a b hab => ?_) hins
    simp only [ExecutionStep.clashes, Bool.or_eq_false_iff, Bool.and_eq_false_iff, beq_eq_false_iff_ne] at hab
    intro hsame
    obtain ⟨hexecution, hindex⟩ := Prod.mk.inj hsame
    exact hab.2.elim (fun hne => hne hexecution) fun hne => hne hindex
  | step _ _ _ heq | abortSteps _ _ heq | abort _ heq =>
    rw [heq]
    exact hk.update fun _ => rfl

theorem stepsOf_length_le (hkeyed : Keyed (fun step : ExecutionStep => (step.executionId, step.stepIndex)) db.executionSteps)
    (hplaced : ∀ step ∈ db.executionSteps, step.IsPlaced) : (stepsOf executionId db).length ≤ 16 := by
  let own := db.executionSteps.filter (·.executionId == executionId)
  have hown : ∀ step ∈ own, step ∈ db.executionSteps ∧ step.executionId = executionId := by
    intro step hs
    obtain ⟨hmem, hid⟩ := List.mem_filter.mp hs
    exact ⟨hmem, beq_iff_eq.mp hid⟩
  have hnodup : (own.map ExecutionStep.stepIndex).Nodup := by
    have hsub : (own.map fun step => (step.executionId, step.stepIndex)).Nodup :=
      hkeyed.sublist (List.filter_sublist.map _)
    have hpairs : (own.map fun step => (step.executionId, step.stepIndex)) =
        (own.map ExecutionStep.stepIndex).map (Prod.mk executionId) := by
      rw [List.map_map]
      exact List.map_congr_left fun step hs => congrArg (·, step.stepIndex) (hown step hs).2
    rw [hpairs] at hsub
    exact hsub.of_map _
  have hrange : own.map ExecutionStep.stepIndex ⊆ List.range 16 := by
    intro index hindex
    obtain ⟨step, hs, rfl⟩ := List.mem_map.mp hindex
    exact List.mem_range.mpr (hplaced step (hown step hs).1).stepIndex
  have hle := (List.subperm_of_subset hnodup hrange).length_le
  rw [List.length_map, List.length_range] at hle
  rw [stepsOf, length_orderBy_filter, List.countP_eq_length_filter]
  exact hle

/-! ## What is shown -/

theorem getExecution_ok {fault : Option Nat} {w : World} {execution : Execution} {steps : List ExecutionStep}
    (h : (w.store crates (.getExecution executionId) fault).1 = .ok (execution, steps)) :
    execution ∈ w.db.executions ∧ steps = stepsOf executionId w.db := by
  obtain ⟨found, connection, hfound, hread⟩ := Command.bind_ok.mp (Prod.ext h rfl :
    getExecution executionId ⟨w.db, fault⟩ = (.ok (execution, steps), _))
  obtain ⟨hexecution, hdb⟩ := select_reply hfound
  obtain ⟨read, connection', hsteps, hret⟩ := Command.bind_ok.mp hread
  obtain ⟨heq, -⟩ := Prod.mk.inj hret
  obtain ⟨rfl, rfl⟩ := Prod.mk.inj (Except.ok.inj heq)
  refine ⟨?_, ?_⟩
  · unfold findExecution at hexecution
    split at hexecution
    · rename_i row hrow
      obtain rfl := Except.ok.inj hexecution
      exact List.mem_of_find?_eq_some hrow
    · exact nomatch hexecution
  · have hlisted : stepsOf executionId connection.db = read := Except.ok.inj (select_reply hsteps).1
    rw [← hlisted, hdb]

variable {epoch : Int} {instant : Nat} {files : Files} {path : String}

/-- While no adapter answers with a result code that redaction would change, the history has only redacted texts, and
the record of every execution fits into a frame. -/
theorem history_redacted (h : (daemon crates).Reaches (World.start epoch instant files path) AnswersRedacted c) :
    c.world.db.IsRedacted ∧
      (crates.Decodes → (∀ t, IsShort 35 (crates.formatRfc3339 t)) → ∀ requestId executionId fault execution steps,
        (c.world.store crates (.getExecution executionId) fault).1 = .ok (execution, steps) →
          (encodeJsonFrame (okResponseJson requestId "execution.show"
            (executionRecordJson crates execution steps))).isOk = true) := by
  have hbrief := reaches_isBrief h rfl fun i o r hl => answered_briefly h hl
  refine ⟨hbrief.isRedacted, fun hdecodes hformat requestId executionId fault execution steps hread => ?_⟩
  have hplaced := reaches_placed hdecodes h rfl
  obtain ⟨hexecution, rfl⟩ := getExecution_ok hread
  refine response_framed requestId (by decide) (cost_executionRecord_le hformat (hbrief.executions execution hexecution)
    (stepsOf_length_le (reaches_indices h rfl) hplaced) fun step hs => ?_)
  have hstored : step ∈ c.world.db.executionSteps := (List.mem_filter.mp (mem_orderBy.mp hs)).1
  exact ⟨hbrief.steps step hstored, hplaced step hstored⟩

end Steps

def Sample.answering (code message : String) : Sample.Schedule :=
  Sample.runOn (Sample.calls 0 [0] ++ [.call 0 ⟨0, none, .result ⟨.succeeded, code, message⟩⟩] ++ Sample.calls 0 [0, 0, 0, 0])

theorem history_redacted_shown : ∃ c execution steps, (daemon Sample.crates).Reaches Sample.world AnswersRedacted c ∧
    c.world.db.executionSteps.map (·.resultCode) = [some "shown"] ∧ c.world.db.IsRedacted ∧
      (c.world.store Sample.crates (.getExecution 5) none).1 = .ok (execution, steps) ∧
        (encodeJsonFrame (okResponseJson 1 "execution.show"
          (executionRecordJson Sample.crates execution steps))).isOk = true := by
  have hrun : ((daemon Sample.crates).execIf AnswersRedacted (.init Sample.world) (Sample.answering "shown" "done")).map (fun c =>
      (c.world.db.executionSteps.map (·.resultCode), (c.world.store Sample.crates (.getExecution 5) none).1.isOk)) =
        some ([some "shown"], true) := by decide +kernel
  obtain ⟨c, hc, hread⟩ := Option.map_eq_some_iff.mp hrun
  obtain ⟨hcodes, hisOk⟩ := Prod.mk.inj hread
  have hreach := System.Reaches.init.execIf hc
  have hformat : ∀ t, IsShort 35 (Sample.crates.formatRfc3339 t) := fun _ => show IsShort 35 "1970-01-01T00:00:00Z" by decide
  obtain ⟨hredacted, hfits⟩ := history_redacted hreach
  cases hstored : (c.world.store Sample.crates (.getExecution 5) none).1 with
  | error e =>
    rw [hstored] at hisOk
    exact nomatch hisOk
  | ok reply =>
    obtain ⟨execution, steps⟩ := reply
    exact ⟨c, execution, steps, hreach, hcodes, hredacted, hstored, hfits Sample.decodes hformat 1 5 none execution steps hstored⟩

/-- A code of 161 tabs is stored as it is; the same text as a message is redacted to nothing. -/
theorem history_unredacted : ∃ c, (daemon Sample.crates).Reaches Sample.world Anywhere c ∧
    c.world.db.executionSteps.map (fun step => (step.resultCode, step.redactedMessage)) =
      [(some (.ofList (List.replicate 161 '\t')), some "")] ∧ ¬ c.world.db.IsRedacted := by
  have hrun : (Sample.exec (Sample.answering (.ofList (List.replicate 161 '\t')) (.ofList (List.replicate 161 '\t')))).map (fun c =>
      c.world.db.executionSteps.map fun step => (step.resultCode, step.redactedMessage)) =
        some [(some (.ofList (List.replicate 161 '\t')), some "")] := by decide +kernel
  obtain ⟨c, hc, hsteps⟩ := Option.map_eq_some_iff.mp hrun
  refine ⟨c, System.Reaches.init.exec hc, hsteps, fun hredacted => ?_⟩
  have hmem : (some (.ofList (List.replicate 161 '\t')), some "") ∈
      c.world.db.executionSteps.map fun step => (step.resultCode, step.redactedMessage) := hsteps ▸ List.mem_cons_self
  obtain ⟨step, hstep, heq⟩ := List.mem_map.mp hmem
  have hcode := (hredacted.steps step hstep).resultCode _ (Prod.mk.inj heq).1
  have hlength := hcode.length
  rw [String.length_ofList, List.length_replicate] at hlength
  omega

end Fubun

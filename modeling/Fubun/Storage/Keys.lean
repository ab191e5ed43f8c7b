import Fubun.Storage.Tables

/-! The keys of the tables: no operation puts two rows with one key in a table. -/

namespace Fubun
open Relational

structure Database.Keys (db : Database) : Prop where
  rituals : Keyed Ritual.id db.rituals
  ritualVersions : Keyed RitualVersion.id db.ritualVersions
  executions : Keyed Execution.id db.executions
  executionSteps : Keyed ExecutionStep.id db.executionSteps
  ritualExecutionLocks : Keyed RitualExecutionLock.ritualId db.ritualExecutionLocks
  scopeIds : Keyed ObservationScope.id db.observationScopes
  scopes : Keyed (fun scope : ObservationScope => (scope.source, scope.resourceId)) db.observationScopes

theorem Database.Keys.empty : Database.empty.Keys :=
  ⟨keyed_nil, keyed_nil, keyed_nil, keyed_nil, keyed_nil, keyed_nil, keyed_nil⟩

section Keys
variable {crates : Crates} {now : OffsetDateTime} {db db' : Database} {o : Operation}
  {r : Except StorageError o.Reply}

theorem Effect.keys_rituals (h : Effect crates now db db' o r) (hk : Keyed Ritual.id db.rituals) :
    Keyed Ritual.id db'.rituals := by
  rcases h.rituals with heq | ⟨ritual, version, _, -, hfresh, -, heq⟩ | ⟨ritual, version, _, -, -, heq⟩ |
    ⟨ritualId, status, -, heq⟩
  · rw [heq]
    exact hk
  · rw [heq]
    refine hk.insert fun row hrow => ?_
    have hne := hfresh row hrow
    simpa only [Ritual.clashes, beq_eq_false_iff_ne] using hne
  · rw [heq]
    exact hk.update fun _ => rfl
  · rw [heq]
    exact hk.update fun _ => rfl

theorem Effect.keys_ritualVersions (h : Effect crates now db db' o r)
    (hk : Keyed RitualVersion.id db.ritualVersions) : Keyed RitualVersion.id db'.ritualVersions := by
  rcases h.ritualVersions with heq | ⟨_, version, _, -, hfresh, heq⟩
  · rw [heq]
    exact hk
  · rw [heq]
    refine hk.insert fun row hrow => ?_
    have hne := hfresh row hrow
    simp only [RitualVersion.clashes, Bool.or_eq_false_iff, beq_eq_false_iff_ne] at hne
    exact hne.1

theorem Effect.keys_executions (h : Effect crates now db db' o r)
    (hk : Keyed Execution.id db.executions) : Keyed Execution.id db'.executions := by
  cases h.executions with
  | same heq | step _ _ heq =>
    rw [heq]
    exact hk
  | start execution rows hfresh _ _ heq =>
    rw [heq]
    refine hk.insert fun row hrow => ?_
    have hne := hfresh row hrow
    simpa only [Execution.clashes, beq_eq_false_iff_ne] using hne
  | update _ _ heq | updateHalf _ _ heq | abortExecutions _ heq | abortSteps _ heq | abort heq =>
    rw [heq]
    exact hk.update fun _ => rfl

theorem Effect.keys_executionSteps (h : Effect crates now db db' o r)
    (hk : Keyed ExecutionStep.id db.executionSteps) : Keyed ExecutionStep.id db'.executionSteps := by
  cases h.executions with
  | same _ heq | update _ _ _ heq | updateHalf _ _ _ heq | abortExecutions _ _ heq =>
    rw [heq]
    exact hk
  | start _ rows _ _ hins _ heq =>
    rw [heq]
    refine hk.insertRows (fun a b hab => ?_) hins
    simp only [ExecutionStep.clashes, Bool.or_eq_false_iff, beq_eq_false_iff_ne] at hab
    exact hab.1
  | step _ _ _ heq | abortSteps _ _ heq | abort _ heq =>
    rw [heq]
    exact hk.update fun _ => rfl

theorem Effect.keys_ritualExecutionLocks (h : Effect crates now db db' o r)
    (hk : Keyed RitualExecutionLock.ritualId db.ritualExecutionLocks) :
    Keyed RitualExecutionLock.ritualId db'.ritualExecutionLocks := by
  cases h.executions with
  | same _ _ heq | step _ _ _ _ heq | updateHalf _ _ _ _ heq | abortExecutions _ _ _ heq
  | abortSteps _ _ _ heq =>
    rw [heq]
    exact hk
  | start execution _ _ hfresh _ _ _ heq =>
    rw [heq]
    refine hk.insert fun lock hlock => ?_
    have hne := hfresh lock hlock
    simpa only [RitualExecutionLock.clashes, beq_eq_false_iff_ne] using hne
  | update _ _ _ _ heq =>
    rw [heq]
    split
    · exact hk.delete
    · exact hk
  | abort _ _ heq =>
    rw [heq]
    exact keyed_nil

theorem Effect.keys_observationScopes {κ : Type} {key : ObservationScope → κ}
    (hkey : ∀ scope status updatedAt,
      key { scope with status := status, updatedAt := updatedAt } = key scope)
    (hclash : ∀ a b : ObservationScope, a.clashes b = false → key a ≠ key b)
    (h : Effect crates now db db' o r) (hk : Keyed key db.observationScopes) :
    Keyed key db'.observationScopes := by
  rcases h.observationScopes with heq | ⟨_, _, -, -, heq⟩ | ⟨scope, -, -, hfresh, heq⟩ | ⟨_, _, -, -, heq⟩
  · rw [heq]
    exact hk
  · rw [heq]
    exact hk.update fun _ => hkey _ _ _
  · rw [heq]
    exact hk.insert fun row hrow => hclash row scope (hfresh row hrow)
  · rw [heq]
    exact hk.update fun _ => hkey _ _ _

theorem Effect.keys (h : Effect crates now db db' o r) (hk : db.Keys) : db'.Keys where
  rituals := h.keys_rituals hk.rituals
  ritualVersions := h.keys_ritualVersions hk.ritualVersions
  executions := h.keys_executions hk.executions
  executionSteps := h.keys_executionSteps hk.executionSteps
  ritualExecutionLocks := h.keys_ritualExecutionLocks hk.ritualExecutionLocks
  scopeIds := by
    refine h.keys_observationScopes (fun _ _ _ => rfl) (fun a b hab => ?_) hk.scopeIds
    simp only [ObservationScope.clashes, Bool.or_eq_false_iff, beq_eq_false_iff_ne] at hab
    exact hab.1
  scopes := by
    refine h.keys_observationScopes (fun _ _ _ => rfl) (fun a b hab heq => ?_) hk.scopes
    obtain ⟨hsource, hresource⟩ := Prod.mk.inj heq
    simp [ObservationScope.clashes, hsource, hresource] at hab

end Keys
end Fubun

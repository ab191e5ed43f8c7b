import Fubun.Executions.Ownership
import Fubun.Core.Handlers

/-! The registration of resources and of their observation scopes. A task registers under ids that it
has drawn and nobody has used, so only an equal locator can stand in the way of a resource. -/

namespace Fubun
open Relational Concurrency Program System

/-! ## How an operation fails -/

section Failures
variable {crates : Crates} {i : Nat} {ch : Choice} {w w' : World} {db : Database} {e : StorageError}

def ioError : StorageError := .sqlite .io

theorem statement_error_cases {α : Type} {t : Transaction Database StorageError α} {c c' : Connection Database}
    (h : statement t c = (.error e, c')) : e = ioError ∨ t c.db = .error e := by
  unfold statement Command.statement at h
  split_ifs at h with hfault
  · exact .inl (Except.error.inj (Prod.mk.inj h).1).symm
  · split at h
    · exact nomatch (Prod.mk.inj h).1
    · rename_i e' he
      obtain rfl := Except.error.inj (Prod.mk.inj h).1
      exact .inr he

theorem select_error_cases {α : Type} {f : Database → Except StorageError α} {c c' : Connection Database}
    (h : select f c = (.error e, c')) : e = ioError ∨ f c.db = .error e := by
  rcases statement_error_cases h with he | he
  · exact .inl he
  · right
    unfold query at he
    cases hf : f c.db with
    | ok a =>
      rw [hf] at he
      exact nomatch he
    | error e' =>
      rw [hf] at he
      rw [Except.error.inj he]

theorem insertRow_error {α : Type} {clash : α → α → Bool} {e e' : StorageError} {rows : List α} {row : α}
    (h : insertRow clash e rows row = .error e') : e' = e ∧ ∃ y ∈ rows, clash y row = true := by
  unfold insertRow at h
  split_ifs at h with hany
  obtain rfl := Except.error.inj h
  exact ⟨rfl, List.any_eq_true.mp hany⟩

theorem createResource_error {resource : Resource} (h : Database.createResource resource db = .error e) :
    e = .duplicateResource ∧ ∃ row ∈ db.resources, row.clashes resource = true := by
  unfold Database.createResource at h
  cases hins : insertRow Resource.clashes StorageError.duplicateResource db.resources
      { resource with updatedAt := resource.createdAt } with
  | ok rows =>
    rw [hins] at h
    exact nomatch h
  | error e' =>
    rw [hins] at h
    obtain ⟨rfl, hrow⟩ := insertRow_error hins
    exact ⟨(Except.error.inj h).symm, hrow⟩

theorem insertScope_error {scope : ObservationScope} (h : Database.insertScope scope db = .error e) :
    (∀ row ∈ db.resources, row.id ≠ scope.resourceId) ∨ ∃ row ∈ db.observationScopes, row.clashes scope = true := by
  unfold Database.insertScope at h
  cases hany : db.resources.any (·.id == scope.resourceId) with
  | false =>
    left
    intro row hrow heq
    have hnone := List.any_eq_false.mp hany row hrow
    exact hnone (by simpa using heq)
  | true =>
    right
    rw [hany] at h
    cases hins : insertRow ObservationScope.clashes constraintViolation db.observationScopes scope with
    | ok rows =>
      rw [hins] at h
      exact nomatch h
    | error e' => exact (insertRow_error hins).2

theorem act_failed {operation : Operation} {r : Except StorageError operation.Reply}
    (h : World.act crates i (.storage operation) ch w = some (r, w')) :
    executeOperation crates w.nowUtc operation ⟨w.db, ch.fault⟩ =
      (r, (executeOperation crates w.nowUtc operation ⟨w.db, ch.fault⟩).2) := by
  have hs : w.store crates operation ch.fault = (r, w') := Option.some.inj h
  unfold World.store at hs
  exact Prod.ext (Prod.mk.inj hs).1 rfl

theorem createResource_failed {resource : Resource}
    (h : World.act crates i (.storage (.createResource resource)) ch w = some (.error e, w')) :
    e = ioError ∨ e = .duplicateResource ∧ ∃ row ∈ w.db.resources, row.clashes resource = true := by
  rcases statement_error_cases (act_failed h) with he | he
  · exact .inl he
  · exact .inr (createResource_error he)

theorem listResources_failed (h : World.act crates i (.storage .listResources) ch w = some (.error e, w')) :
    e = ioError := by
  rcases select_error_cases (act_failed h) with he | he
  · exact he
  · exact nomatch he

theorem ensureObservationScope_failed {scope : ObservationScope}
    (h : World.act crates i (.storage (.ensureObservationScope scope)) ch w = some (.error e, w')) :
    e = ioError ∨ (∀ row ∈ w.db.resources, row.id ≠ scope.resourceId) ∨
      ∃ row ∈ w.db.observationScopes, row.id = scope.id := by
  have hrun := act_failed h
  rcases Command.bind_error hrun with hsel | ⟨found, c₁, hsel, hrest⟩
  · rcases select_error_cases hsel with he | he
    · exact .inl he
    · cases he
  obtain ⟨hfound, hc₁⟩ := select_reply hsel
  have hfind := Except.ok.inj hfound
  cases found with
  | some existing =>
    rcases Command.bind_error hrest with hstatement | ⟨_, _, _, hpure⟩
    · rcases statement_error_cases hstatement with he | he
      · exact .inl he
      · cases he
    · cases (Prod.mk.inj hpure).1
  | none =>
    rcases Command.bind_error hrest with hstatement | ⟨_, _, _, hpure⟩
    · rcases statement_error_cases hstatement with he | he
      · exact .inl he
      · rw [hc₁] at he
        rcases insertScope_error he with hnone | ⟨row, hrow, hclash⟩
        · exact .inr (.inl hnone)
        · -- no row has the key, so it is the id
          have hkey := List.find?_eq_none.mp hfind row hrow
          simp only [ObservationScope.clashes, Bool.or_eq_true, beq_iff_eq] at hclash
          exact .inr (.inr ⟨row, hrow, hclash.resolve_right fun h' => hkey (by simpa using h')⟩)
    · cases (Prod.mk.inj hpure).1

end Failures

namespace Registration

/-! ## The invariant -/

def Taken (db : Database) (id : Uuid) : Prop :=
  (∃ row ∈ db.resources, row.id = id) ∨ ∃ row ∈ db.observationScopes, row.id = id

/-- What is stored has ids that were drawn, one locator belongs to one resource, and what is no web
page has a path for its locator. -/
structure Catalogued (w : World) : Prop where
  keys : w.db.Keys
  issued : Keyed Prod.fst w.issued
  taken : ∀ id, Taken w.db id → ∃ j, (id, j) ∈ w.issued
  resourceIds : Keyed Resource.id w.db.resources
  locators : Keyed Resource.canonicalLocator w.db.resources
  located : ∀ row ∈ w.db.resources, row.kind ≠ .webPage → isAbsolute row.canonicalLocator = true

section Catalogued
variable {crates : Crates} {i j : Nat} {o : Op} {ch : Choice} {w w' : World} {id : Uuid}

theorem Catalogued.start (now : Int) (instant : Nat) (files : Files) (path : String) :
    Catalogued (.start now instant files path) where
  keys := .empty
  issued := keyed_nil
  taken := by rintro id (⟨_, h, -⟩ | ⟨_, h, -⟩) <;> exact nomatch h
  resourceIds := keyed_nil
  locators := keyed_nil
  located _ h := nomatch h

/-- An id that the connection has drawn and nothing is stored under. -/
structure Unused (i : Nat) (id : Uuid) (w : World) : Prop where
  owned : (id, i) ∈ w.issued
  free : ¬ Taken w.db id

/-- What the other tasks leave to the task of connection `i`. -/
structure Relies (i : Nat) (w w' : World) : Prop where
  grows : Grows w.db w'.db
  issued : ∀ x ∈ w.issued, x ∈ w'.issued
  free : ∀ id, (id, i) ∈ w.issued → ¬ Taken w.db id → ¬ Taken w'.db id

theorem Relies.refl (i : Nat) (w : World) : Relies i w w := ⟨.refl _, fun _ h => h, fun _ _ h => h⟩

theorem Relies.trans {w'' : World} (h : Relies i w w') (h' : Relies i w' w'') : Relies i w w'' where
  grows := h.grows.trans h'.grows
  issued x hx := h'.issued x (h.issued x hx)
  free id hid hfree := h'.free id (h.issued _ hid) (h.free id hid hfree)

theorem Relies.of_eq (hdb : w'.db = w.db) (hissued : ∀ x ∈ w.issued, x ∈ w'.issued) : Relies i w w' where
  grows := hdb ▸ .refl _
  issued := hissued
  free _ _ h := by rwa [hdb]

theorem Unused.mono (h : Unused i id w) (hr : Relies i w w') : Unused i id w' :=
  ⟨hr.issued _ h.owned, hr.free id h.owned h.free⟩

theorem Taken.congr {db db' : Database} (hresources : db'.resources = db.resources)
    (hscopes : db'.observationScopes.map (·.id) = db.observationScopes.map (·.id)) : Taken db' id ↔ Taken db id := by
  have hids : (∃ row ∈ db'.observationScopes, row.id = id) ↔ ∃ row ∈ db.observationScopes, row.id = id := by
    rw [← List.mem_map, ← List.mem_map, hscopes]
  rw [Taken, Taken, hresources, hids]

/-! ## What a task may do -/

/-- A task registers under ids that it has drawn and nobody has used. -/
def Permitted (i : Nat) (w : World) : Op → Prop
  | .storage (.createResource resource) => Unused i resource.id w ∧
    (resource.kind ≠ .webPage → isAbsolute resource.canonicalLocator = true)
  | .storage (.ensureObservationScope scope) => Unused i scope.id w
  | _ => True

/-- A step that leaves the tables of the catalogue alone, but for the state of scopes. -/
theorem Catalogued.same (h : Catalogued w) (hkeys : w'.db.Keys) (hissued : Keyed Prod.fst w'.issued)
    (hmono : ∀ x ∈ w.issued, x ∈ w'.issued) (hresources : w'.db.resources = w.db.resources)
    (hscopes : w'.db.observationScopes.map (·.id) = w.db.observationScopes.map (·.id)) : Catalogued w' where
  keys := hkeys
  issued := hissued
  taken id hid := by
    obtain ⟨j, hj⟩ := h.taken id ((Taken.congr hresources hscopes).mp hid)
    exact ⟨j, hmono _ hj⟩
  resourceIds := hresources ▸ h.resourceIds
  locators := hresources ▸ h.locators
  located row hrow := by
    rw [hresources] at hrow
    exact h.located row hrow

theorem Catalogued.registers {resource : Resource} (h : Catalogued w)
    (hp : Permitted i w (.storage (.createResource resource)))
    (hkeys : w'.db.Keys) (hissued : w'.issued = w.issued)
    (hclash : ∀ row ∈ w.db.resources, row.clashes resource = false)
    (hresources : w'.db.resources = w.db.resources ++ [{ resource with updatedAt := resource.createdAt }])
    (hscopes : w'.db.observationScopes = w.db.observationScopes) :
    Catalogued w' ∧ ∀ j id, j ≠ i → (id, j) ∈ w.issued → ¬ Taken w.db id → ¬ Taken w'.db id := by
  have htaken (id : Uuid) : Taken w'.db id ↔ Taken w.db id ∨ resource.id = id := by
    rw [Taken, Taken, hresources, hscopes]
    simp only [List.mem_append, List.mem_singleton, or_and_right, exists_or, exists_eq_left]
    exact or_right_comm
  have hne : ∀ row ∈ w.db.resources, row.id ≠ resource.id ∧ row.canonicalLocator ≠ resource.canonicalLocator := by
    intro row hrow
    have hfalse := hclash row hrow
    simpa only [Resource.clashes, Bool.or_eq_false_iff, beq_eq_false_iff_ne] using hfalse
  refine ⟨⟨hkeys, hissued ▸ h.issued, ?_, ?_, ?_, ?_⟩, ?_⟩
  · intro id hid
    rw [hissued]
    rcases (htaken id).mp hid with hid | rfl
    · exact h.taken id hid
    · exact ⟨i, hp.1.owned⟩
  · rw [hresources]
    exact h.resourceIds.insert fun row hrow => (hne row hrow).1
  · rw [hresources]
    exact h.locators.insert fun row hrow => (hne row hrow).2
  · intro row hrow
    rw [hresources] at hrow
    rcases List.mem_append.mp hrow with hrow | hrow
    · exact h.located row hrow
    · rw [List.mem_singleton.mp hrow]
      exact hp.2
  · intro j id hj hid hfree htaken'
    rcases (htaken id).mp htaken' with htaken' | rfl
    · exact hfree htaken'
    · exact hj (congrArg Prod.snd (h.issued.eq hid hp.1.owned rfl))

theorem Catalogued.scopes {scope : ObservationScope} (h : Catalogued w)
    (hp : Permitted i w (.storage (.ensureObservationScope scope)))
    (hkeys : w'.db.Keys) (hissued : w'.issued = w.issued) (hresources : w'.db.resources = w.db.resources)
    (hscopes : w'.db.observationScopes = w.db.observationScopes ++ [scope]) :
    Catalogued w' ∧ ∀ j id, j ≠ i → (id, j) ∈ w.issued → ¬ Taken w.db id → ¬ Taken w'.db id := by
  have htaken (id : Uuid) : Taken w'.db id ↔ Taken w.db id ∨ scope.id = id := by
    rw [Taken, Taken, hresources, hscopes]
    simp only [List.mem_append, List.mem_singleton, or_and_right, exists_or, exists_eq_left]
    exact or_assoc.symm
  refine ⟨⟨hkeys, hissued ▸ h.issued, ?_, hresources ▸ h.resourceIds, hresources ▸ h.locators, ?_⟩, ?_⟩
  · intro id hid
    rw [hissued]
    rcases (htaken id).mp hid with hid | rfl
    · exact h.taken id hid
    · exact ⟨i, hp.owned⟩
  · rw [hresources]
    exact h.located
  · intro j id hj hid hfree htaken'
    rcases (htaken id).mp htaken' with htaken' | rfl
    · exact hfree htaken'
    · exact hj (congrArg Prod.snd (h.issued.eq hid hp.owned rfl))

/-! ## The contract -/

theorem Catalogued.act {r : o.Res} (h : Catalogued w) (hp : Permitted i w o)
    (hact : World.act crates i o ch w = some (r, w')) : Catalogued w' ∧ ∀ j, j ≠ i → Relies j w w' := by
  have hmono := act_issued_mono hact
  have hissued := act_issued_keyed hact h.issued
  cases o with
  | storage operation =>
    obtain ⟨he, hw'⟩ := act_storage hact
    have hsame : w'.issued = w.issued := by rw [hw']
    have hids (hresources : w'.db.resources = w.db.resources)
        (hscopes : w'.db.observationScopes.map (·.id) = w.db.observationScopes.map (·.id)) :
        Catalogued w' ∧ ∀ j, j ≠ i → Relies j w w' := by
      refine ⟨h.same (he.keys h.keys) hissued hmono hresources hscopes, fun j _ => ⟨he.grows, hmono, ?_⟩⟩
      intro id _ hfree htaken
      exact hfree ((Taken.congr hresources hscopes).mp htaken)
    rcases he.observationScopes with hscopes | ⟨scope, existing, hx, -, hscopes⟩ | ⟨scope, hx, -, -, hscopes⟩ |
      ⟨scopeId, scope, hx, -, hscopes⟩
    -- the scopes stay, so that only a new resource matters
    · rcases he.resources with hresources | ⟨resource, hx, hclash, hresources⟩
      · exact hids hresources (by rw [hscopes])
      · cases hx
        obtain ⟨hcat, hfree⟩ := h.registers hp (he.keys h.keys) hsame hclash hresources hscopes
        exact ⟨hcat, fun j hj => ⟨he.grows, hmono, fun id => hfree j id hj⟩⟩
    · cases hx
      have hresources : w'.db.resources = w.db.resources := he.frame (by simp [Operation.writes] : TableName.resources ∉ _)
      exact hids hresources ((congrArg _ hscopes).trans (map_updateRows fun _ => rfl))
    · cases hx
      have hresources : w'.db.resources = w.db.resources := he.frame (by simp [Operation.writes] : TableName.resources ∉ _)
      obtain ⟨hcat, hfree⟩ := h.scopes hp (he.keys h.keys) hsame hresources hscopes
      exact ⟨hcat, fun j hj => ⟨he.grows, hmono, fun id => hfree j id hj⟩⟩
    · cases hx
      have hresources : w'.db.resources = w.db.resources := he.frame (by simp [Operation.writes] : TableName.resources ∉ _)
      exact hids hresources ((congrArg _ hscopes).trans (map_updateRows fun _ => rfl))
  | _ =>
    have hdb := act_other hact (fun _ ho => by cases ho)
    have hsame : w'.db.resources = w.db.resources := by rw [hdb]
    exact ⟨h.same (hdb ▸ h.keys) hissued hmono hsame (by rw [hdb]), fun _ _ => .of_eq hdb hmono⟩

theorem Catalogued.restart (h : Catalogued w) (crates : Crates) (ch : Choice) :
    Catalogued (World.restart crates ch w) := by
  obtain ⟨reply, he, -⟩ := restart_effect crates ch w
  have hresources : (World.restart crates ch w).db.resources = w.db.resources :=
    he.frame (by simp [Operation.writes] : TableName.resources ∉ _)
  have hscopes : (World.restart crates ch w).db.observationScopes = w.db.observationScopes :=
    he.frame (by simp [Operation.writes] : TableName.observationScopes ∉ _)
  exact h.same (he.keys h.keys) h.issued (fun _ hx => hx) hresources (by rw [hscopes])

theorem Catalogued.drift (h : Catalogued w) (e : Drift) : Catalogued (World.drift e w) := by
  have hissued := drift_issued (w := w) e
  have hdb := drift_db (w := w) e
  exact h.same (hdb ▸ h.keys) (hissued ▸ h.issued) (fun _ hx => hissued ▸ hx) (by rw [hdb]) (by rw [hdb])

theorem Relies.drift (i : Nat) (w : World) (e : Drift) : Relies i w (World.drift e w) :=
  .of_eq (drift_db e) fun _ hx => (drift_issued (w := w) e) ▸ hx

def registration (crates : Crates) : Contract (daemon crates) where
  inv := Catalogued
  rely := Relies
  guarantee i _ w w' := ∀ j, j ≠ i → Relies j w w'
  refl := Relies.refl
  trans := Relies.trans
  compat hj _ h := h _ hj.symm
  drift_inv e h := h.drift e
  drift_rely i e _ := .drift i _ e
  restart_inv ch h := h.restart crates ch

/-! ## Rules -/

def Lasts (i : Nat) (B : World → Prop) : Prop := ∀ w w', Relies i w w' → B w → B w'

theorem Lasts.stable {B : World → Prop} (hB : Lasts i B) : (registration crates).Stable i fun _ w => B w :=
  fun _ w w' hr _ h => hB w w' hr h

theorem Lasts.and {B B' : World → Prop} (hB : Lasts i B) (hB' : Lasts i B') : Lasts i fun w => B w ∧ B' w :=
  fun w w' hr h => ⟨hB w w' hr h.1, hB' w w' hr h.2⟩

theorem Lasts.of_grows {B : World → Prop} (hB : ∀ w w', Grows w.db w'.db → B w → B w') : Lasts i B :=
  fun w w' hr h => hB w w' hr.grows h

theorem unused_lasts (i : Nat) (id : Uuid) : Lasts i (Unused i id) := fun _ _ hr h => h.mono hr

theorem lasts_true (i : Nat) : Lasts i fun _ => True := fun _ _ _ h => h

def Registers : Op → Bool
  | .storage (.createResource _) | .storage (.ensureObservationScope _) => true
  | _ => false

theorem permitted_of_quiet (w : World) (ho : Registers o = false) : Permitted i w o := by
  cases o with
  | storage operation =>
    cases operation with
    | createResource resource => exact nomatch ho
    | ensureObservationScope scope => exact nomatch ho
    | _ => trivial
  | _ => trivial

/-- An operation that registers nothing takes no id, not even from its own task. -/
theorem quiet_relies {r : o.Res} (ho : Registers o = false) (hact : World.act crates i o ch w = some (r, w')) :
    ∀ j, Relies j w w' := by
  have hmono := act_issued_mono hact
  intro j
  cases o with
  | storage operation =>
    have he := (act_storage hact).1
    have hresources : w'.db.resources = w.db.resources := by
      rcases he.resources with h | ⟨resource, hx, -⟩
      · exact h
      · cases hx
        exact nomatch ho
    have hscopes : w'.db.observationScopes.map (·.id) = w.db.observationScopes.map (·.id) := by
      rcases he.observationScopes with h | ⟨_, _, hx, -⟩ | ⟨_, hx, -⟩ | ⟨_, _, hx, -, h⟩
      · rw [h]
      · cases hx
        exact nomatch ho
      · cases hx
        exact nomatch ho
      · exact (congrArg _ h).trans (map_updateRows fun _ => rfl)
    exact ⟨he.grows, hmono, fun _ _ hfree htaken => hfree ((Taken.congr hresources hscopes).mp htaken)⟩
  | _ => exact .of_eq (act_other hact (fun _ ho => nomatch ho)) hmono

theorem Lasts.performs {B : World → Prop} (hB : Lasts i B) (ho : Registers o = false) :
    (registration crates).Performs i (fun _ w => B w) o fun _ _ w => B w := by
  intro τ w ch r w' hw h hact
  have hr := quiet_relies ho hact
  exact ⟨⟨(hw.act (permitted_of_quiet w ho) hact).1, fun j _ => hr j⟩, hB w w' (hr i) h⟩

theorem Lasts.performs_newUuid {B : World → Prop} (hB : Lasts i B) :
    (registration crates).Performs i (fun _ w => B w) .newUuid fun id _ w => B w ∧ Unused i id w := by
  intro τ w ch id w' hw h hact
  have hquiet : (registration crates).Performs i (fun _ w => B w) .newUuid fun _ _ w => B w := hB.performs rfl
  obtain ⟨hkept, hB'⟩ := hquiet τ w ch id w' hw h hact
  refine ⟨hkept, hB', ?_⟩
  have hnew : World.act crates i .newUuid ch w = some (id, w') := hact
  simp only [World.act] at hnew
  split_ifs at hnew with hfresh
  obtain ⟨rfl, rfl⟩ := Prod.mk.inj (Option.some.inj hnew)
  refine ⟨List.mem_cons_self, fun htaken => ?_⟩
  have hcat : Catalogued w := hw
  obtain ⟨j, hj⟩ := hcat.taken ch.uuid htaken
  exact hfresh (List.mem_map_of_mem hj)

theorem registers_of_targets {targets : List Target} (ho : o.targets ⊆ targets)
    (hresources : .table .resources ∉ targets) (hscopes : .table .observationScopes ∉ targets) :
    Registers o = false := by
  unfold Registers
  split
  · exact absurd (ho (by simp [Op.targets, Operation.writes])) hresources
  · exact absurd (ho (by simp [Op.targets, Operation.writes])) hscopes
  · rfl

theorem quiet_triple {α : Type} {p : Core α} {targets : List Target} (hp : ActsOn targets p)
    (hresources : .table .resources ∉ targets) (hscopes : .table .observationScopes ∉ targets) :
    (registration crates).Triple i (fun _ _ => True) p fun _ _ _ => True := by
  have h : (registration crates).Triple i (fun _ _ => True) p fun _ _ _ => True ∧ True :=
    Contract.Triple.of_meets (lasts_true i).stable hp fun o ho =>
      (lasts_true i).performs (registers_of_targets ho hresources hscopes)
  exact h.mono fun _ _ _ _ => trivial

/-! ## Registering -/

def Faulted (τ : List (Answered Op.Res)) : Prop :=
  ∃ operation, (⟨.storage operation, .error ioError⟩ : Answered Op.Res) ∈ τ

theorem faulted_snoc {τ : List (Answered Op.Res)} {operation : Operation} :
    Faulted (τ ++ [⟨.storage operation, .error ioError⟩]) := ⟨operation, List.mem_concat_self⟩

def Stored (resource : Resource) (w : World) : Prop :=
  ∃ row ∈ w.db.resources, row.id = resource.id ∧ row.canonicalLocator = resource.canonicalLocator

theorem stored_lasts (i : Nat) (resource : Resource) : Lasts i (Stored resource) :=
  .of_grows fun _ _ hg ⟨row, hrow, heq⟩ => ⟨row, hg.resources row hrow, heq⟩

/-- A resource of the kind and the locator of another. -/
structure Matches (candidate resource : Resource) : Prop where
  kind : resource.kind = candidate.kind
  canonicalLocator : resource.canonicalLocator = candidate.canonicalLocator

/-- A resource of a web page whose locator is no path. -/
def IsWebPage (candidate : Resource) : Prop :=
  candidate.kind = .webPage ∧ isAbsolute candidate.canonicalLocator = false

/-- A locator of a page that is stored belongs to a page. -/
def Held (candidate : Resource) (w : World) : Prop :=
  IsWebPage candidate → ∃ row ∈ w.db.resources, Matches candidate row

theorem held_lasts (i : Nat) (candidate : Resource) : Lasts i (Held candidate) := by
  refine .of_grows fun w w' hg h hpage => ?_
  obtain ⟨row, hrow, hmatches⟩ := h hpage
  exact ⟨row, hg.resources row hrow, hmatches⟩

theorem performs_createResource {candidate : Resource}
    (hlocated : candidate.kind ≠ .webPage → isAbsolute candidate.canonicalLocator = true) :
    (registration crates).Performs i (fun _ w => Unused i candidate.id w) (.storage (.createResource candidate))
      fun r τ w => match r with
        | .ok resource => Matches candidate resource ∧ Stored resource w
        | .error .duplicateResource => Held candidate w
        | .error _ => Faulted τ := by
  intro τ w ch r w' hw hunused hrun
  have hcat : Catalogued w := hw
  have hact : World.act crates i (.storage (.createResource candidate)) ch w = some (r, w') := hrun
  have hp : Permitted i w (.storage (.createResource candidate)) := ⟨hunused, hlocated⟩
  refine ⟨hcat.act hp hact, ?_⟩
  have he := (act_storage hact).1
  cases r with
  | ok resource =>
    obtain ⟨hsame, -, hdb⟩ := createResource_ok.mp he
    have hrow : { candidate with updatedAt := candidate.createdAt } ∈ w'.db.resources := by
      rw [hdb]
      exact List.mem_append_right _ (List.mem_singleton_self _)
    show Matches candidate resource ∧ Stored resource w'
    rw [hsame]
    exact ⟨⟨rfl, rfl⟩, _, hrow, rfl, rfl⟩
  | error e =>
    have hdb : w'.db = w.db := he
    rcases createResource_failed hact with rfl | ⟨rfl, row, hrow, hclash⟩
    · exact faulted_snoc
    · -- nobody has used the id, so it is the locator
      have hid : row.id ≠ candidate.id := fun heq => hunused.free (.inl ⟨row, hrow, heq⟩)
      simp only [Resource.clashes, Bool.or_eq_true, beq_iff_eq] at hclash
      have hlocator := hclash.resolve_left hid
      rintro ⟨hkind, hpath⟩
      have hweb : row.kind = .webPage := by
        by_contra hne
        have habsolute := hcat.located row hrow hne
        rw [hlocator, hpath] at habsolute
        exact nomatch habsolute
      rw [hdb]
      exact ⟨row, hrow, hweb.trans hkind.symm, hlocator⟩

theorem performs_listResources {candidate : Resource} :
    (registration crates).Performs i (fun _ w => Held candidate w) (.storage .listResources)
      fun r τ w => match r with
        | .ok resources => (∀ row ∈ resources, row ∈ w.db.resources) ∧
          (IsWebPage candidate → ∃ row ∈ resources, Matches candidate row)
        | .error _ => Faulted τ := by
  intro τ w ch r w' hw hheld hrun
  have hcat : Catalogued w := hw
  have hact : World.act crates i (.storage .listResources) ch w = some (r, w') := hrun
  refine ⟨hcat.act (permitted_of_quiet w rfl) hact, ?_⟩
  cases r with
  | ok resources =>
    obtain ⟨rfl, hdb⟩ := (act_storage hact).1
    rw [hdb]
    refine ⟨fun row hrow => mem_orderBy.mp hrow, fun hpage => ?_⟩
    obtain ⟨row, hrow, hmatches⟩ := hheld hpage
    exact ⟨row, mem_orderBy.mpr hrow, hmatches⟩
  | error e =>
    obtain rfl := listResources_failed hact
    exact faulted_snoc

/-- The resource that comes out is stored, and for a web page only a fault can stand in the way. -/
theorem createOrFind_triple {candidate : Resource} (id : Uuid) (conflict : String)
    (hlocated : candidate.kind ≠ .webPage → isAbsolute candidate.canonicalLocator = true) :
    (registration crates).Triple i (fun _ w => Unused i candidate.id w) (createOrFind id candidate conflict)
      fun τ result w => match result with
        | .ok resource => Matches candidate resource ∧ Stored resource w
        | .error _ => IsWebPage candidate → Faulted τ := by
  refine Contract.Triple.perform (unused_lasts i candidate.id).stable (performs_createResource hlocated) fun r => ?_
  rcases r with e | resource
  · cases e with
    | duplicateResource =>
      refine Contract.Triple.perform (held_lasts i candidate).stable performs_listResources fun r => ?_
      rcases r with e | resources
      · exact Contract.Triple.ret fun _ _ h _ => h
      · dsimp only
        cases hfind : resources.find? fun resource => resource.kind == candidate.kind &&
            resource.canonicalLocator == candidate.canonicalLocator with
        | some resource =>
          refine Contract.Triple.ret fun τ w h => ?_
          have hmatches := List.find?_some hfind
          simp only [Bool.and_eq_true, beq_iff_eq] at hmatches
          exact ⟨⟨hmatches.1, hmatches.2⟩, resource, h.1 resource (List.mem_of_find?_eq_some hfind), rfl, rfl⟩
        | none =>
          refine Contract.Triple.ret fun τ w h hpage => ?_
          obtain ⟨row, hrow, hmatches⟩ := h.2 hpage
          have hnot := List.find?_eq_none.mp hfind row hrow
          exact absurd (by simp [hmatches.kind, hmatches.canonicalLocator]) hnot
    | _ => exact Contract.Triple.ret fun _ _ h _ => h
  · exact Contract.Triple.ret fun _ _ h => h

end Catalogued
end Registration
end Fubun

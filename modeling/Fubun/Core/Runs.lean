import Fubun.Concurrency.History
import Fubun.Concurrency.RelyGuarantee
import Fubun.Core.Daemon
import Fubun.Storage.Keys

/-! The steps of the daemon as seen by its database: an operation of the storage
layer with its effect, or nothing. -/

namespace Fubun
open Relational Concurrency

variable {crates : Crates} {i : Nat} {o : Op} {ch : Choice} {w w' : World}

@[simp] theorem drew_db (id : Uuid) : (w.drew i id).db = w.db := rfl

@[simp] theorem setSession_db (session : Session) : (w.setSession i session).db = w.db := rfl

theorem execute_world (action : ActionSpec) (reply : DispatchReply) :
    (w.execute action reply).2 = { w with connections := (w.execute action reply).2.connections } := by
  unfold World.execute
  split
  · rfl
  · cases reply <;> rfl

theorem act_storage {operation : Operation} {r : Except StorageError operation.Reply}
    (h : World.act crates i (.storage operation) ch w = some (r, w')) :
    Effect crates w.nowUtc w.db w'.db operation r ∧ w' = { w with db := w'.db } := by
  have hs : w.store crates operation ch.fault = (r, w') := Option.some.inj h
  unfold World.store at hs
  obtain ⟨hr, rfl⟩ := Prod.mk.inj hs
  exact ⟨executeOperation_effect (Prod.ext hr rfl), rfl⟩

theorem daemon_storage {operation : Operation} {r : Except StorageError operation.Reply}
    (h : (daemon crates).act i (.storage operation) ch w = some (r, w')) :
    Effect crates w.nowUtc w.db w'.db operation r := (act_storage (i := i) h).1

theorem act_other {r : o.Res} (h : World.act crates i o ch w = some (r, w'))
    (ho : ∀ operation, o ≠ .storage operation) : w'.db = w.db := by
  cases o with
  | storage operation => exact absurd rfl (ho operation)
  | execute action resolved timeout =>
    have hw : (w.execute action ch.reply).2 = w' := congrArg Prod.snd (Option.some.inj h)
    rw [← hw, execute_world]
  | register hello =>
    simp only [World.act] at h
    split at h
    · exact (Prod.mk.inj (Option.some.inj h)).2 ▸ rfl
    · split_ifs at h
      exact (Prod.mk.inj (Option.some.inj h)).2 ▸ rfl
  | newUuid =>
    simp only [World.act] at h
    split_ifs at h
    exact (Prod.mk.inj (Option.some.inj h)).2 ▸ rfl
  | _ => exact (Prod.mk.inj (Option.some.inj h)).2 ▸ rfl

theorem act_effect {r : o.Res} (h : World.act crates i o ch w = some (r, w')) :
    (∃ operation reply, (⟨o, r⟩ : Answered Op.Res) = ⟨.storage operation, reply⟩ ∧
      Effect crates w.nowUtc w.db w'.db operation reply) ∨ w'.db = w.db := by
  cases o with
  | storage operation => exact .inl ⟨operation, r, rfl, (act_storage h).1⟩
  | _ => exact .inr (act_other h (fun _ ho => nomatch ho))

@[simp] theorem drift_db (e : Drift) : (World.drift e w).db = w.db := by
  cases e <;> rfl

theorem restart_effect (crates : Crates) (ch : Choice) (w : World) : ∃ reply,
    Effect crates w.nowUtc w.db (World.restart crates ch w).db .abortRunningExecutions reply ∧
      (World.restart crates ch w).up = reply.isOk :=
  ⟨_, executeOperation_effect rfl, rfl⟩

variable {w₀ : World} {ok : State → Concurrency.Event Nat Frame Choice Drift → Prop} {c : State}

theorem reaches_database (h : (daemon crates).Reaches w₀ ok c) {I : Database → Prop} (h₀ : I w₀.db)
    (hI : ∀ {now db db' o r}, Effect crates now db db' o r → I db → I db') : I c.world.db := by
  refine h.invariant (I := fun w => I w.db) h₀ ?_ ?_ ?_
  · intro i o ch w r w' hw hact
    rcases act_effect hact with ⟨operation, reply, -, he⟩ | hdb
    · exact hI he hw
    · exact hdb ▸ hw
  · intro e w hw
    exact (drift_db e).symm ▸ hw
  · intro ch w hw
    obtain ⟨reply, he, -⟩ := restart_effect crates ch w
    exact hI he hw

theorem reaches_keys (h : (daemon crates).Reaches w₀ ok c) (h₀ : w₀.db = .empty) : c.world.db.Keys :=
  reaches_database h (h₀ ▸ Database.Keys.empty) fun he hk => he.keys hk

/-- A fact about the database that no fresh one has was established by a logged operation. -/
theorem reaches_origin (h : (daemon crates).Reaches w₀ ok c) {P : Database → Prop} {Q : Answer → Prop}
    (h₀ : ¬ P w₀.db)
    (hP : ∀ {now db db' o r}, Effect crates now db db' o r → P db' → P db ∨ Q ⟨o, r⟩)
    (hrestart : ∀ r, ¬ Q ⟨.abortRunningExecutions, r⟩) (hc : P c.world.db) :
    ∃ before i operation reply after,
      c.log = before ++ .call i (.storage operation) reply :: after ∧ Q ⟨operation, reply⟩ := by
  have horigin := h.origin (P := fun w => P w.db) (Q := fun o r => ∃ operation reply,
    (⟨o, r⟩ : Answered Op.Res) = ⟨.storage operation, reply⟩ ∧ Q ⟨operation, reply⟩) h₀
  obtain ⟨before, i, o, r, after, hlog, operation, reply, hx, hq⟩ := horigin (by
    intro i o ch w r w' hact hw
    rcases act_effect hact with ⟨operation, reply, hx, he⟩ | hdb
    · exact (hP he hw).imp_right fun hq => ⟨operation, reply, hx, hq⟩
    · exact .inl (hdb ▸ hw)) (fun e w hw => drift_db e ▸ hw) (by
    intro ch w hw
    obtain ⟨reply, he, -⟩ := restart_effect crates ch w
    exact (hP he hw).resolve_right (hrestart reply)) hc
  cases hx
  exact ⟨before, i, operation, reply, after, hlog, hq⟩

/-- What the operation of a label writes, for writes that only the storage layer makes. -/
def committed {ω : Type} (write : (o : Operation) → Except StorageError o.Reply → Option ω) :
    Label Nat Op.Res Frame Reply → Option ω
  | .call _ (.storage operation) reply => write operation reply
  | _ => none

/-- A view of the database that every operation changes by what it writes is the replay of the
committed writes. -/
def databaseReplay (crates : Crates) {σ ω : Type} (view : Database → σ)
    (write : (o : Operation) → Except StorageError o.Reply → Option ω) (apply : σ → ω → σ)
    (heffect : ∀ {now db db' o r}, Effect crates now db db' o r →
      view db' = ((write o r).map (apply (view db))).getD (view db))
    (hrestart : ∀ r, write .abortRunningExecutions r = none) : (daemon crates).Replayed σ ω where
  view w := view w.db
  write := committed write
  apply := apply
  arrive _ _ := rfl
  answer _ _ := rfl
  act {i o ch w r w'} hact := by
    have hact' : World.act crates i o ch w = some (r, w') := hact
    cases o with
    | storage operation => exact heffect (act_storage hact').1
    | _ => exact congrArg view (act_other hact' (by simp))
  drift := ⟨rfl, fun e w => congrArg view (drift_db e)⟩
  restart := by
    refine ⟨rfl, fun ch w => ?_⟩
    obtain ⟨reply, he, -⟩ := restart_effect crates ch w
    have hview := heffect he
    rw [hrestart] at hview
    exact hview

/-! ## What is learned for good -/

/-- Versions, approvals and resources are never changed and never deleted, a ritual keeps its id,
and a scope keeps its source and its resource. -/
structure Grows (db db' : Database) : Prop where
  rituals : ∀ row ∈ db.rituals, ∃ row' ∈ db'.rituals, row'.id = row.id
  versions : ∀ row ∈ db.ritualVersions, row ∈ db'.ritualVersions
  approvals : ∀ row ∈ db.ritualApprovals, row ∈ db'.ritualApprovals
  resources : ∀ row ∈ db.resources, row ∈ db'.resources
  scopes : ∀ row ∈ db.observationScopes, ∃ row' ∈ db'.observationScopes,
    row'.id = row.id ∧ row'.source = row.source ∧ row'.resourceId = row.resourceId

theorem Grows.refl (db : Database) : Grows db db :=
  ⟨fun row h => ⟨row, h, rfl⟩, fun _ h => h, fun _ h => h, fun _ h => h,
    fun row h => ⟨row, h, rfl, rfl, rfl⟩⟩

theorem Grows.trans {db db' db'' : Database} (h : Grows db db') (h' : Grows db' db'') :
    Grows db db'' where
  rituals row hr := by
    obtain ⟨row', hr', hid⟩ := h.rituals row hr
    obtain ⟨row'', hr'', hid'⟩ := h'.rituals row' hr'
    exact ⟨row'', hr'', hid'.trans hid⟩
  versions row hr := h'.versions row (h.versions row hr)
  approvals row hr := h'.approvals row (h.approvals row hr)
  resources row hr := h'.resources row (h.resources row hr)
  scopes row hr := by
    obtain ⟨row', hr', hid, hs, hres⟩ := h.scopes row hr
    obtain ⟨row'', hr'', hid', hs', hres'⟩ := h'.scopes row' hr'
    exact ⟨row'', hr'', hid'.trans hid, hs'.trans hs, hres'.trans hres⟩

theorem exists_mem_updateRows {α κ : Type} {p : α → Bool} {f : α → α} {rows : List α} {g : α → κ}
    (hg : ∀ x, g (f x) = g x) {x : α} (hx : x ∈ rows) : ∃ y ∈ updateRows p f rows, g y = g x := by
  refine ⟨_, mem_updateRows.mpr ⟨x, hx, rfl⟩, ?_⟩
  split_ifs
  · exact hg x
  · rfl

theorem Effect.grows {now : OffsetDateTime} {db db' : Database} {o : Operation}
    {r : Except StorageError o.Reply} (h : Effect crates now db db' o r) : Grows db db' where
  rituals row hr := by
    -- an update keeps the row under its id
    have hsame : ∀ {p : Ritual → Bool} {f : Ritual → Ritual}, db'.rituals = updateRows p f db.rituals →
        (∀ x, (f x).id = x.id) → ∃ row' ∈ db'.rituals, row'.id = row.id := by
      intro p f heq hf
      rw [heq]
      exact exists_mem_updateRows (g := Ritual.id) hf hr
    rcases h.rituals with heq | ⟨_, _, _, -, -, -, heq⟩ | ⟨_, _, _, -, -, heq⟩ | ⟨_, _, -, heq⟩
    · exact ⟨row, heq ▸ hr, rfl⟩
    · exact ⟨row, heq ▸ List.mem_append_left _ hr, rfl⟩
    · exact hsame heq fun _ => rfl
    · exact hsame heq fun _ => rfl
  versions row hr := by
    rcases h.ritualVersions with heq | ⟨_, version, _, -, -, heq⟩
    · exact heq ▸ hr
    · exact heq ▸ List.mem_append_left _ hr
  approvals row hr := by
    rcases h.ritualApprovals with heq | ⟨approvals, -, -, heq⟩
    · exact heq ▸ hr
    · exact heq ▸ List.mem_append_left _ hr
  resources row hr := by
    rcases h.resources with heq | ⟨resource, -, -, heq⟩
    · exact heq ▸ hr
    · exact heq ▸ List.mem_append_left _ hr
  scopes row hr := by
    have hsame : ∀ {p : ObservationScope → Bool} {f : ObservationScope → ObservationScope},
        db'.observationScopes = updateRows p f db.observationScopes →
        (∀ x, ((f x).id, (f x).source, (f x).resourceId) = (x.id, x.source, x.resourceId)) →
        ∃ row' ∈ db'.observationScopes,
          row'.id = row.id ∧ row'.source = row.source ∧ row'.resourceId = row.resourceId := by
      intro p f heq hf
      obtain ⟨row', hr', hk⟩ := exists_mem_updateRows (p := p) (f := f)
        (g := fun x => (x.id, x.source, x.resourceId)) hf hr
      simp only [Prod.mk.injEq] at hk
      exact ⟨row', heq ▸ hr', hk⟩
    rcases h.observationScopes with heq | ⟨_, _, -, -, heq⟩ | ⟨_, -, -, -, heq⟩ | ⟨_, _, -, -, heq⟩
    · exact ⟨row, heq ▸ hr, rfl, rfl, rfl⟩
    · exact hsame heq fun _ => rfl
    · exact ⟨row, heq ▸ List.mem_append_left _ hr, rfl, rfl, rfl⟩
    · exact hsame heq fun _ => rfl

/-- What an answer of the storage layer says of the tables from then on. -/
def Lasting (crates : Crates) : (o : Op) → o.Res → World → Prop
  | .storage (.getRitual _), .ok (_, version, definition), w =>
    version ∈ w.db.ritualVersions ∧ crates.parseDefinition version.canonicalJson = some definition
  | .storage (.listApprovals _), .ok approvals, w => ∀ row ∈ approvals, row ∈ w.db.ritualApprovals
  | .storage (.createApprovals approvals), .ok _, w => ∀ row ∈ approvals, row ∈ w.db.ritualApprovals
  | .storage (.getResource resourceId), .ok resource, w =>
    resource ∈ w.db.resources ∧ resource.id = resourceId
  | .storage (.listObservationScopes source), .ok scopes, w => ∀ scope ∈ scopes,
    (∀ s, source = some s → scope.source = s) ∧ ∃ row ∈ w.db.observationScopes,
      row.id = scope.id ∧ row.source = scope.source ∧ row.resourceId = scope.resourceId
  | _, _, _ => True

theorem Lasting.mono {r : o.Res} (h : Lasting crates o r w) (hg : Grows w.db w'.db) :
    Lasting crates o r w' := by
  cases o with
  | storage operation =>
    cases operation with
    | getRitual ritualId =>
      cases r with
      | ok reply => exact ⟨hg.versions _ h.1, h.2⟩
      | error _ => trivial
    | listApprovals versionId =>
      cases r with
      | ok approvals => exact fun row hr => hg.approvals _ (h row hr)
      | error _ => trivial
    | createApprovals approvals =>
      cases r with
      | ok _ => exact fun row hr => hg.approvals _ (h row hr)
      | error _ => trivial
    | getResource resourceId =>
      cases r with
      | ok resource => exact ⟨hg.resources _ h.1, h.2⟩
      | error _ => trivial
    | listObservationScopes source =>
      cases r with
      | ok scopes =>
        intro scope hs
        obtain ⟨hsource, row, hr, hid, hsrc, hres⟩ := h scope hs
        obtain ⟨row', hr', hid', hsrc', hres'⟩ := hg.scopes row hr
        exact ⟨hsource, row', hr', hid'.trans hid, hsrc'.trans hsrc, hres'.trans hres⟩
      | error _ => trivial
    | _ => trivial
  | _ => trivial

theorem findRitual_ok {ritualId : Uuid} {db : Database} {ritual : Ritual}
    (h : findRitual ritualId db = .ok ritual) : ritual ∈ db.rituals ∧ ritual.id = ritualId := by
  unfold findRitual at h
  split at h
  · rename_i row hf
    obtain rfl := Except.ok.inj h
    exact ⟨List.mem_of_find?_eq_some hf, by simpa using List.find?_some hf⟩
  · exact nomatch h

theorem findVersion_ok {versionId : Uuid} {db : Database} {version : RitualVersion}
    (h : findVersion versionId db = .ok version) :
    version ∈ db.ritualVersions ∧ version.id = versionId := by
  unfold findVersion at h
  split at h
  · rename_i row hf
    obtain rfl := Except.ok.inj h
    exact ⟨List.mem_of_find?_eq_some hf, by simpa using List.find?_some hf⟩
  · exact nomatch h

theorem getResource_ok {resourceId : Uuid} {db : Database} {resource : Resource}
    (h : getResource resourceId db = .ok resource) :
    resource ∈ db.resources ∧ resource.id = resourceId := by
  unfold getResource at h
  split at h
  · rename_i row hf
    obtain rfl := Except.ok.inj h
    exact ⟨List.mem_of_find?_eq_some hf, by simpa using List.find?_some hf⟩
  · exact nomatch h

theorem mem_listApprovals {versionId : Uuid} {db : Database} {approval : Approval} :
    approval ∈ listApprovals versionId db ↔
      approval ∈ db.ritualApprovals ∧ approval.ritualVersionId = versionId := by
  simp [listApprovals, mem_orderBy]

theorem mem_listObservationScopes {source : ObservationSource} {db : Database}
    {scope : ObservationScope} :
    scope ∈ listObservationScopes crates (some source) db ↔
      scope ∈ db.observationScopes ∧ scope.source = source := by
  simp [listObservationScopes, mem_orderBy]

theorem lasting_learned {r : o.Res} (h : World.act crates i o ch w = some (r, w')) :
    Lasting crates o r w' := by
  cases o with
  | storage operation =>
    have he := (act_storage h).1
    cases operation with
    | getRitual ritualId =>
      cases r with
      | ok reply =>
        obtain ⟨-, hv, hd, hdb⟩ := he
        exact ⟨hdb ▸ (findVersion_ok hv).1, hd⟩
      | error _ => trivial
    | listApprovals versionId =>
      cases r with
      | ok approvals =>
        obtain ⟨rfl, hdb⟩ := he
        exact fun row hr => hdb ▸ (mem_listApprovals.mp hr).1
      | error _ => trivial
    | createApprovals approvals =>
      cases r with
      | ok _ =>
        obtain ⟨-, hdb⟩ := createApprovals_ok he
        intro row hr
        rw [hdb]
        exact List.mem_append_right _ hr
      | error _ => trivial
    | getResource resourceId =>
      cases r with
      | ok resource =>
        obtain ⟨hres, hdb⟩ := he
        exact ⟨hdb ▸ (getResource_ok hres).1, (getResource_ok hres).2⟩
      | error _ => trivial
    | listObservationScopes source =>
      cases r with
      | ok scopes =>
        obtain ⟨rfl, hdb⟩ := he
        intro scope hs
        rw [hdb]
        -- with a source only its scopes are listed
        cases source with
        | none =>
          have hm : scope ∈ w.db.observationScopes := by
            simpa [listObservationScopes, mem_orderBy] using hs
          exact ⟨fun _ h => (nomatch h), scope, hm, rfl, rfl, rfl⟩
        | some source =>
          obtain ⟨hm, hsource⟩ := mem_listObservationScopes.mp hs
          exact ⟨fun _ h => hsource.trans (Option.some.inj h), scope, hm, rfl, rfl, rfl⟩
      | error _ => trivial
    | _ => trivial
  | _ => trivial

def lasting (crates : Crates) : (daemon crates).Persistent where
  holds := Lasting crates
  learned h := lasting_learned h
  act h hact := by
    rcases act_effect hact with ⟨_, _, -, he⟩ | hdb
    · exact h.mono he.grows
    · exact h.mono (hdb ▸ Grows.refl _)
  drift e h := h.mono ((drift_db e).symm ▸ Grows.refl _)
  restart ch h := by
    obtain ⟨_, he, -⟩ := restart_effect crates ch _
    exact h.mono he.grows

end Fubun

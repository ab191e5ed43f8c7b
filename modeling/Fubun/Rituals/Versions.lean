import Fubun.Relational.Numbering
import Fubun.Rituals.Dispatch

/-! The versions of a ritual over whole runs. An update computes the next number
from a version that it read earlier; whoever comes second with a number finds it
taken, and its transaction leaves nothing behind. -/

namespace Fubun
open Relational Concurrency Program System

def versionsOf (ritualId : Uuid) (db : Database) : List RitualVersion :=
  db.ritualVersions.filter (·.ritualId == ritualId)

/-- The versions are numbered 1, 2, …, and the ritual is at the last and bears its name. -/
structure Ritual.History (crates : Crates) (ritual : Ritual) (versions : List RitualVersion) : Prop where
  numbered : Consecutive RitualVersion.version versions
  current : ∃ version definition, versions.getLast? = some version ∧
    ritual.currentVersionId = version.id ∧ version.Stores crates definition ∧ ritual.name = definition.name

/-- Every ritual has its history, and every version is of a ritual. -/
structure Database.Versioned (crates : Crates) (db : Database) : Prop where
  histories : ∀ ritual ∈ db.rituals, ritual.History crates (versionsOf ritual.id db)
  owned : ∀ version ∈ db.ritualVersions, version.ritualId ∈ db.rituals.map Ritual.id

section Tables
variable {crates : Crates} {db db' : Database} {ritual read : Ritual} {version current : RitualVersion}
  {definition : RitualDefinition} {ritualId : Uuid} {now : OffsetDateTime}

theorem mem_versionsOf : version ∈ versionsOf ritualId db ↔
    version ∈ db.ritualVersions ∧ version.ritualId = ritualId := by
  rw [versionsOf, List.mem_filter, beq_iff_eq]

theorem versionsOf_append (h : db'.ritualVersions = db.ritualVersions ++ [version]) :
    versionsOf ritualId db' =
      versionsOf ritualId db ++ if version.ritualId = ritualId then [version] else [] := by
  rw [versionsOf, versionsOf, h, List.filter_append]
  congr 1
  by_cases hid : version.ritualId = ritualId <;> simp [hid]

theorem Database.Versioned.empty : Database.empty.Versioned crates :=
  ⟨fun _ h => (nomatch h), fun _ h => (nomatch h)⟩

theorem Database.Versioned.same (h : db.Versioned crates) (hrituals : db'.rituals = db.rituals)
    (hversions : db'.ritualVersions = db.ritualVersions) : db'.Versioned crates := by
  refine ⟨fun ritual hr => ?_, ?_⟩
  · have hsame : versionsOf ritual.id db' = versionsOf ritual.id db := by
      rw [versionsOf, hversions]
      rfl
    rw [hsame]
    exact h.histories ritual (hrituals ▸ hr)
  · rw [hrituals, hversions]
    exact h.owned

theorem Database.Versioned.setStatus (h : db.Versioned crates) {status : RitualStatus}
    (hrituals : db'.rituals = setStatusRow now ritualId status db.rituals)
    (hversions : db'.ritualVersions = db.ritualVersions) : db'.Versioned crates := by
  have hrow : ∀ ritual ∈ db'.rituals, ∃ row ∈ db.rituals, row.id = ritual.id ∧ row.name = ritual.name ∧
      row.currentVersionId = ritual.currentVersionId := by
    intro ritual hr
    rw [hrituals] at hr
    obtain ⟨row, hm, rfl⟩ := mem_updateRows.mp hr
    exact ⟨row, hm, by split_ifs <;> exact ⟨rfl, rfl, rfl⟩⟩
  constructor
  · intro ritual hr
    obtain ⟨row, hm, hid, hname, hcurrent⟩ := hrow ritual hr
    have hsame : versionsOf ritual.id db' = versionsOf row.id db := by
      rw [versionsOf, hversions, hid]
      rfl
    obtain ⟨hnumbered, version, definition, hlast, hat, hstores, hnamed⟩ := h.histories row hm
    rw [hsame]
    exact ⟨hnumbered, version, definition, hlast, hcurrent.symm.trans hat, hstores, hname.symm.trans hnamed⟩
  · have hids : db'.rituals.map Ritual.id = db.rituals.map Ritual.id := by
      rw [hrituals]
      exact map_updateRows fun _ => rfl
    rw [hids, hversions]
    exact h.owned

theorem Database.Versioned.create (h : db.Versioned crates) (hc : Creates crates ritual version definition)
    (hfresh : ∀ row ∈ db.rituals, row.clashes ritual = false)
    (hrituals : db'.rituals = db.rituals ++ [{ ritual with currentVersionId := version.id }])
    (hversions : db'.ritualVersions = db.ritualVersions ++ [version]) : db'.Versioned crates := by
  have hnew : ∀ row ∈ db.rituals, row.id ≠ ritual.id := by
    intro row hrow
    have hne := hfresh row hrow
    simpa only [Ritual.clashes, beq_eq_false_iff_ne] using hne
  constructor
  · intro row hr
    rw [hrituals] at hr
    rw [versionsOf_append hversions, hc.ritualId]
    rcases List.mem_append.mp hr with hr | hr
    · rw [if_neg (hnew row hr).symm, List.append_nil]
      exact h.histories row hr
    · obtain rfl := List.mem_singleton.mp hr
      -- the ritual is new, so it had no versions
      have hnone : versionsOf ritual.id db = [] := by
        rw [versionsOf, List.filter_eq_nil_iff]
        intro v hv hid
        obtain ⟨row, hrow, howner⟩ := List.mem_map.mp (h.owned v hv)
        exact hnew row hrow (howner.trans (beq_iff_eq.mp hid))
      refine ⟨?_, version, definition, ?_, rfl, hc.stores, hc.name⟩
      · rw [if_pos rfl, hnone]
        exact numbered_nil.append hc.number
      · rw [if_pos rfl, hnone]
        rfl
  · intro v hv
    rw [hversions] at hv
    rw [hrituals, List.map_append]
    rcases List.mem_append.mp hv with hv | hv
    · exact List.mem_append_left _ (h.owned v hv)
    · obtain rfl := List.mem_singleton.mp hv
      exact List.mem_append_right _ (List.mem_singleton.mpr hc.ritualId)

theorem Database.Versioned.update (h : db.Versioned crates)
    (hu : Updates crates ritualId read current ritual version definition) (hread : read.id = ritualId)
    (hcurrent : current ∈ versionsOf ritualId db) (hfound : ∃ row ∈ db.rituals, row.id = ritual.id)
    (hfree : ∀ row ∈ db.ritualVersions, row.clashes version = false)
    (hrituals : db'.rituals = updateRitualRow ritual version.id db.rituals)
    (hversions : db'.ritualVersions = db.ritualVersions ++ [version]) : db'.Versioned crates := by
  have hid : ritual.id = ritualId := hu.id.trans hread
  have hnumbered : Consecutive RitualVersion.version (versionsOf ritualId db) := by
    obtain ⟨row, hrow, hrowId⟩ := hfound
    exact hrowId.trans hid ▸ (h.histories row hrow).numbered
  -- the new number follows the last, since every other one would clash
  have hnext : version.version = (versionsOf ritualId db).length + 1 := by
    refine hnumbered.next hcurrent ?_ ?_ ?_
    · rw [hu.number]
      unfold u32Max
      omega
    · rw [hu.number]
      exact Nat.min_le_left _ _
    · intro row hrow heq
      obtain ⟨hm, hrowId⟩ := mem_versionsOf.mp hrow
      have hclash := hfree row hm
      simp [RitualVersion.clashes, hrowId, hu.ritualId, heq] at hclash
  constructor
  · intro row hr
    rw [hrituals] at hr
    obtain ⟨old, hm, rfl⟩ := mem_updateRows.mp hr
    rw [versionsOf_append hversions, hu.ritualId]
    -- the ritual that is updated, or one of the others
    by_cases hold : old.id = ritual.id
    · simp only [hold, beq_self_eq_true, if_true, hid]
      refine ⟨hnumbered.append hnext, version, definition, ?_, rfl, hu.stores, hu.name⟩
      rw [List.getLast?_concat]
    · simp only [beq_eq_false_iff_ne.mpr hold, Bool.false_eq_true, if_false]
      rw [if_neg (fun h => hold (h.symm.trans hid.symm)), List.append_nil]
      exact h.histories old hm
  · have hids : db'.rituals.map Ritual.id = db.rituals.map Ritual.id := by
      rw [hrituals]
      exact map_updateRows fun _ => rfl
    intro v hv
    rw [hversions] at hv
    rw [hids]
    rcases List.mem_append.mp hv with hv | hv
    · exact h.owned v hv
    · obtain rfl := List.mem_singleton.mp hv
      rw [hu.ritualId, ← hid]
      exact List.mem_map.mpr hfound

/-- An operation keeps the histories, if its creations and updates are of the kind that requests make. -/
theorem Effect.versioned {o : Operation} {r : Except StorageError o.Reply}
    (he : Effect crates now db db' o r) (h : db.Versioned crates)
    (hcreate : ∀ ritual version definition, o = .createRitual ritual version definition →
      Creates crates ritual version definition)
    (hupdate : ∀ ritual version definition, o = .updateRitual ritual version definition →
      ∃ ritualId read current, read.id = ritualId ∧ current ∈ versionsOf ritualId db ∧
        Updates crates ritualId read current ritual version definition) : db'.Versioned crates := by
  cases o with
  | createRitual ritual version definition =>
    cases r with
    | error _ => exact h.same (he ▸ rfl) (he ▸ rfl)
    | ok _ =>
      obtain ⟨hfresh, -, -, rfl⟩ := createRitual_ok.mp he.2
      exact h.create (hcreate _ _ _ rfl) hfresh rfl rfl
  | updateRitual ritual version definition =>
    cases r with
    | error _ => exact h.same (he ▸ rfl) (he ▸ rfl)
    | ok _ =>
      obtain ⟨hfound, -, hfree, rfl⟩ := updateRitual_ok.mp he.2
      obtain ⟨ritualId, read, current, hread, hcurrent, hu⟩ := hupdate _ _ _ rfl
      exact h.update hu hread hcurrent hfound hfree rfl rfl
  | setRitualStatus ritualId status =>
    cases r with
    | error _ => exact h.same (he ▸ rfl) (he ▸ rfl)
    | ok _ =>
      obtain ⟨-, rfl⟩ := setRitualStatus_ok.mp he
      exact h.setStatus rfl rfl
  | _ =>
    have hrituals : TableName.rituals.Same db db' := he.frame (by simp [Operation.writes])
    have hversions : TableName.ritualVersions.Same db db' := he.frame (by simp [Operation.writes])
    exact h.same hrituals hversions

theorem getRitual_versioned (h : db.Versioned crates) (hk : Keyed RitualVersion.id db.ritualVersions)
    (he : Effect crates now db db' (.getRitual ritualId) (.ok (read, current, definition))) :
    read.id = ritualId ∧ current.ritualId = ritualId := by
  obtain ⟨hrow, hid⟩ := findRitual_ok he.1
  obtain ⟨hversion, hcurrent⟩ := findVersion_ok he.2.1
  obtain ⟨-, last, _, hlast, hat, -, -⟩ := h.histories read hrow
  obtain ⟨hstored, howner⟩ := mem_versionsOf.mp (List.mem_of_getLast? hlast)
  obtain rfl : current = last := hk.eq hversion hstored (hcurrent.trans hat)
  exact ⟨hid, howner.trans hid⟩

end Tables

section Runs
variable {crates : Crates} {w₀ : World} {ok : State → Concurrency.Event Nat Frame Choice Drift → Prop}
  {c d : State}

/-- What requests have read of a ritual is a row of it and a version of it. -/
def ReadAsStored (log : Log) : Prop :=
  ∀ i ritualId read current definition,
    .call i (.storage (.getRitual ritualId)) (.ok (read, current, definition)) ∈ log →
      read.id = ritualId ∧ current.ritualId = ritualId

theorem reaches_versioned (h : (daemon crates).Reaches w₀ ok c) (h₀ : w₀.db = .empty) :
    c.world.db.Versioned crates ∧ ReadAsStored c.log := by
  induction h with
  | init => exact ⟨h₀ ▸ .empty, fun _ _ _ _ _ hm => nomatch hm⟩
  | @step c c' e hr hok hs ih =>
    obtain ⟨hdb, hreads⟩ := ih
    have hlogged : ∀ {l : Label Nat Op.Res Frame Reply}, c'.log = c.log ++ [l] →
        ReadAsStored [l] → ReadAsStored c'.log := by
      intro l hl hread i ritualId read current definition hm
      rw [hl] at hm
      rcases List.mem_append.mp hm with hm | hm
      · exact hreads i ritualId read current definition hm
      · exact hread i ritualId read current definition hm
    cases hs with
    | arrive => exact ⟨hdb, hlogged rfl fun _ _ _ _ _ hm => nomatch List.mem_singleton.mp hm⟩
    | answer => exact ⟨hdb, hlogged rfl fun _ _ _ _ _ hm => nomatch List.mem_singleton.mp hm⟩
    | drift =>
      refine ⟨?_, hlogged rfl fun _ _ _ _ _ hm => nomatch List.mem_singleton.mp hm⟩
      exact (drift_db _).symm ▸ hdb
    | @restart ch =>
      refine ⟨?_, hlogged rfl fun _ _ _ _ _ hm => nomatch List.mem_singleton.mp hm⟩
      obtain ⟨reply, he, -⟩ := restart_effect crates ch c.world
      exact he.versioned hdb (fun _ _ _ h => nomatch h) fun _ _ _ h => nomatch h
    | @call i t o k ch r w ht hrest hact =>
      have hleads := (hr.traced ht).leads
      rw [hrest] at hleads
      rcases act_effect hact with ⟨operation, reply, hx, he⟩ | hsame
      · cases hx
        constructor
        · refine he.versioned hdb ?_ ?_
          · rintro ritual version definition rfl
            exact leads_creates hleads
          · rintro ritual version definition rfl
            obtain ⟨ritualId, read, current, stored, more, htrace, hu⟩ := leads_updates hleads
            -- the version that was read is still stored
            have hm := hr.mem_log ht (htrace ▸ List.mem_cons_self)
            obtain ⟨hread, hcurrent⟩ := hreads i ritualId read current stored hm
            have hstored := (hr.persistent (lasting crates) hm).1
            exact ⟨ritualId, read, current, hread, mem_versionsOf.mpr ⟨hstored, hcurrent⟩, hu⟩
        · refine hlogged rfl fun j ritualId read current definition hm => ?_
          cases List.mem_singleton.mp hm
          exact getRitual_versioned hdb (reaches_keys hr h₀).ritualVersions he
      · refine ⟨hdb.same (congrArg _ hsame) (congrArg _ hsame), ?_⟩
        refine hlogged rfl fun j ritualId read current definition hm => ?_
        cases List.mem_singleton.mp hm
        exact getRitual_versioned hdb (reaches_keys hr h₀).ritualVersions (daemon_storage hact)

/-! ## What is never taken back -/

def versionWrite : (o : Operation) → Except StorageError o.Reply → Option RitualVersion
  | .createRitual _ version _, .ok _ => some version
  | .updateRitual _ version _, .ok _ => some version
  | _, _ => none

theorem Effect.versionWrite {now : OffsetDateTime} {db db' : Database} {o : Operation}
    {r : Except StorageError o.Reply} (he : Effect crates now db db' o r) :
    db'.ritualVersions = ((versionWrite o r).map fun version => db.ritualVersions ++ [version]).getD
      db.ritualVersions := by
  cases o with
  | createRitual ritual version definition =>
    cases r with
    | error _ => exact congrArg Database.ritualVersions he
    | ok _ =>
      obtain ⟨-, -, -, rfl⟩ := createRitual_ok.mp he.2
      rfl
  | updateRitual ritual version definition =>
    cases r with
    | error _ => exact congrArg Database.ritualVersions he
    | ok _ =>
      obtain ⟨-, -, -, rfl⟩ := updateRitual_ok.mp he.2
      rfl
  | _ =>
    have hsame : TableName.ritualVersions.Same db db' := he.frame (by simp [Operation.writes])
    exact hsame

/-- The stored versions are those that the log has committed, in its order. -/
def versionsReplay (crates : Crates) : (daemon crates).Replayed (List RitualVersion) RitualVersion :=
  databaseReplay crates Database.ritualVersions versionWrite (fun versions version => versions ++ [version])
    (fun he => he.versionWrite) fun _ => rfl

theorem versions_prefix (h : (daemon crates).Reaches w₀ ok c) (hd : (daemon crates).Reaches w₀ ok d)
    {after : Log} (hlog : c.log = d.log ++ after) :
    d.world.db.ritualVersions <+: c.world.db.ritualVersions := by
  have hreplay : c.world.db.ritualVersions = ((versionsReplay crates).writes after).foldl
    (fun vs v => vs ++ [v]) d.world.db.ritualVersions := h.replay_since (versionsReplay crates) hd hlog
  have hgrows : ∀ (ws vs : List RitualVersion), vs <+: ws.foldl (fun vs v => vs ++ [v]) vs := by
    intro ws
    induction ws with
    | nil => exact fun vs => List.prefix_refl vs
    | cons w ws ih => exact fun vs => (List.prefix_append vs [w]).trans (ih _)
  exact hreplay ▸ hgrows _ _

/-! ## What an update adds -/

/-- Wherever the operation is answered so, the rituals and their versions stay as they are. -/
def Spares (crates : Crates) (x : Answered Op.Res) : Prop :=
  ∀ i ch w w', World.act crates i x.op ch w = some (x.res, w') →
    w'.db.rituals = w.db.rituals ∧ w'.db.ritualVersions = w.db.ritualVersions

/-- Wherever the operation is answered so, the version joins the others and its ritual moves to it. -/
def Adds (crates : Crates) (x : Answered Op.Res) (ritual : Ritual) (version : RitualVersion) : Prop :=
  ∀ i ch w w', World.act crates i x.op ch w = some (x.res, w') →
    w'.db.rituals = updateRitualRow ritual version.id w.db.rituals ∧
      w'.db.ritualVersions = w.db.ritualVersions ++ [version]

theorem spares_of_targets {o : Op} (r : o.Res) (hr : Target.table .rituals ∉ o.targets)
    (hv : Target.table .ritualVersions ∉ o.targets) : Spares crates ⟨o, r⟩ := by
  intro i ch w w' hact
  rcases act_effect hact with ⟨operation, reply, hx, he⟩ | hsame
  · cases hx
    exact ⟨he.frame fun hw => hr (table_mem_targets.mpr hw), he.frame fun hw => hv (table_mem_targets.mpr hw)⟩
  · exact ⟨by rw [hsame], by rw [hsame]⟩

theorem spares_of_error {ritual : Ritual} {version : RitualVersion} {definition : RitualDefinition}
    (e : StorageError) : Spares crates ⟨.storage (.updateRitual ritual version definition), .error e⟩ := by
  intro i ch w w' hact
  have hsame : w'.db = w.db := (act_storage hact).1
  exact ⟨by rw [hsame], by rw [hsame]⟩

theorem adds_of_ok {ritual : Ritual} {version : RitualVersion} {definition : RitualDefinition}
    {reply : Ritual × RitualVersion × RitualDefinition} :
    Adds crates ⟨.storage (.updateRitual ritual version definition), .ok reply⟩ ritual version := by
  intro i ch w w' hact
  have he := (act_storage hact).1
  obtain ⟨-, -, -, hdb⟩ := updateRitual_ok.mp he.2
  exact ⟨by rw [hdb], by rw [hdb]⟩

/-- An update is answered with the version that it has added, or it has added nothing. -/
inductive UpdateEnds (crates : Crates) (id ritualId : Uuid) (definition : RitualDefinition) :
    List (Answered Op.Res) → ResponseEnvelope → Prop
  | updated {read current stored ritual version ritual' version' definition' sofar} :
      ⟨.storage (.getRitual ritualId), .ok (read, current, stored)⟩ ∈ sofar →
      Updates crates ritualId read current ritual version definition → (∀ x ∈ sofar, Spares crates x) →
      UpdateEnds crates id ritualId definition
        (sofar ++ [⟨.storage (.updateRitual ritual version definition), .ok (ritual', version', definition')⟩])
        (.ok id (.ritualUpdated ritual' version' definition'))
  | failed {τ code message} : (∀ x ∈ τ, Spares crates x) →
      UpdateEnds crates id ritualId definition τ (.error id code message)

theorem storageError_error (id : Uuid) (e : StorageError) :
    ∃ code message, storageError id e = .error id code message := by
  unfold storageError
  split <;> exact ⟨_, _, rfl⟩

theorem update_ends {id ritualId : Uuid} {definition : RitualDefinition} {τ : List (Answered Op.Res)}
    {response : ResponseEnvelope}
    (h : Leads (ritualUpdateResponse crates id ritualId definition) τ (.ret response)) :
    UpdateEnds crates id ritualId definition τ response := by
  unfold ritualUpdateResponse at h
  split at h
  · obtain ⟨rfl, heq⟩ := leads_ret_iff.mp h
    exact Program.ret.inj heq ▸ .failed fun _ hx => by cases hx
  rename_i canonical hvalid
  split at h
  · obtain ⟨rfl, heq⟩ := leads_ret_iff.mp h
    exact Program.ret.inj heq ▸ .failed fun _ hx => by cases hx
  rename_i contentHash hhash
  rcases leads_perform_bind.mp h with ⟨-, heq⟩ | ⟨r, τ₁, rfl, h₁⟩
  · cases heq
  -- a read spares the history
  have hread : ∀ r, Spares crates ⟨.storage (.getRitual ritualId), r⟩ := fun r =>
    spares_of_targets r (by simp [Op.targets, Operation.writes]) (by simp [Op.targets, Operation.writes])
  rcases r with e | ⟨read, current, stored⟩
  · have hfailed : τ₁ = [] ∧ ∃ code message, response = .error id code message := by
      cases e with
      | notFound =>
        obtain ⟨hτ, heq⟩ := leads_ret_iff.mp h₁
        exact ⟨hτ, _, _, (Program.ret.inj heq)⟩
      | _ =>
        obtain ⟨hτ, heq⟩ := leads_ret_iff.mp h₁
        obtain ⟨code, message, he⟩ := storageError_error id _
        exact ⟨hτ, code, message, (Program.ret.inj heq).trans he⟩
    obtain ⟨rfl, code, message, rfl⟩ := hfailed
    exact .failed (List.forall_mem_singleton.mpr (hread _))
  · rcases leads_perform_bind.mp h₁ with ⟨-, heq⟩ | ⟨now, τ₂, rfl, h₂⟩
    · cases heq
    rcases leads_perform_bind.mp h₂ with ⟨-, heq⟩ | ⟨versionId, τ₃, rfl, h₃⟩
    · cases heq
    rcases leads_perform_bind.mp h₃ with ⟨-, heq⟩ | ⟨r, τ₄, rfl, h₄⟩
    · cases heq
    have hbefore : ∀ x ∈ ([⟨.storage (.getRitual ritualId), .ok (read, current, stored)⟩, ⟨.nowUtc, now⟩,
        ⟨.newUuid, versionId⟩] : List (Answered Op.Res)), Spares crates x := by
      refine List.forall_mem_cons.mpr ⟨hread _, List.forall_mem_cons.mpr ⟨?_, ?_⟩⟩
      · exact spares_of_targets _ (by simp [Op.targets]) (by simp [Op.targets])
      · exact List.forall_mem_singleton.mpr (spares_of_targets _ (by simp [Op.targets]) (by simp [Op.targets]))
    -- the write failed, or the answer tells what was written
    rcases r with e | ⟨ritual', version', definition'⟩
    · obtain ⟨rfl, heq⟩ := leads_ret_iff.mp h₄
      obtain ⟨code, message, he⟩ := storageError_error id e
      rw [Program.ret.inj heq, he]
      refine .failed (List.forall_mem_append.mpr ⟨hbefore, ?_⟩)
      exact List.forall_mem_singleton.mpr (spares_of_error e)
    · obtain ⟨rfl, heq⟩ := leads_ret_iff.mp h₄
      obtain rfl := Program.ret.inj heq
      have hmem : (⟨.storage (.getRitual ritualId), .ok (read, current, stored)⟩ : Answered Op.Res) ∈
        [⟨.storage (.getRitual ritualId), .ok (read, current, stored)⟩, ⟨.nowUtc, now⟩,
          ⟨.newUuid, versionId⟩] := List.mem_cons_self
      exact .updated hmem ⟨rfl, ⟨validateRitualDefinition_ok hvalid, hhash⟩, rfl, rfl, rfl, rfl⟩ hbefore

theorem update_answered (h : (daemon crates).Reaches w₀ ok c) {i : Nat} {request : RequestEnvelope}
    {ritualId : Uuid} {definition : RitualDefinition} {reply : Reply} {earlier during later : Log}
    (hlog : c.log = earlier ++ .arrive i (.request request) :: (during ++ .answer i reply :: later))
    (hbody : request.body = .ritualUpdate ritualId definition)
    (hduring : ∀ l ∈ during, l.interrupts i = false) :
    ∃ response, reply = .response response ∧
      UpdateEnds crates request.requestId ritualId definition (callsOf i during) response := by
  have hsplit : c.log = (earlier ++ .arrive i (.request request) :: during) ++ .answer i reply :: later := by
    rw [hlog]
    simp
  obtain ⟨d, e, d', hd, -, hs, hdlog, hd'log⟩ := h.split hsplit
  cases hs with
  | @answer j t a ht hrest =>
    obtain ⟨rfl, rfl⟩ := Label.answer.inj (List.cons.inj (List.append_cancel_left hd'log)).1
    obtain ⟨hq, hτ⟩ := (hd.serving ht).unique ⟨earlier, during, hdlog, rfl, hduring⟩
    have hleads := (hd.traced ht).leads
    rw [hrest, hτ, hq] at hleads
    obtain ⟨τ₁, response, τ₂, hτ', hrequest, hret⟩ := leads_bind_ret hleads
    obtain ⟨rfl, heq⟩ := leads_ret_iff.mp hret
    refine ⟨response, Program.ret.inj heq, ?_⟩
    rw [hτ', List.append_nil]
    unfold processRequest at hrequest
    split at hrequest
    · obtain ⟨rfl, heq'⟩ := leads_ret_iff.mp hrequest
      exact Program.ret.inj heq' ▸ .failed fun _ hx => nomatch hx
    · rw [hbody] at hrequest
      exact update_ends hrequest
  | arrive => exact nomatch (List.cons.inj (List.append_cancel_left hd'log)).1
  | call => exact nomatch (List.cons.inj (List.append_cancel_left hd'log)).1
  | drift => exact nomatch (List.cons.inj (List.append_cancel_left hd'log)).1
  | restart => exact nomatch (List.cons.inj (List.append_cancel_left hd'log)).1

/-- An answered update: either it is answered with the version that its last operation added to the
ritual, and it has changed nothing before, or it is answered with an error and has changed nothing. -/
def UpdateOutcome (crates : Crates) (id ritualId : Uuid) (definition : RitualDefinition)
    (τ : List (Answered Op.Res)) (reply : Reply) : Prop :=
  (∃ ritual version sofar,
    reply = .response (.ok id (.ritualUpdated ritual version definition)) ∧
    τ = sofar ++ [⟨.storage (.updateRitual ritual version definition), .ok (ritual, version, definition)⟩] ∧
    Adds crates ⟨.storage (.updateRitual ritual version definition), .ok (ritual, version, definition)⟩
      ritual version ∧
    ritual.id = ritualId ∧ version.ritualId = ritualId ∧ version.Stores crates definition ∧
    ∀ x ∈ sofar, Spares crates x) ∨
  ∃ code message, reply = .response (.error id code message) ∧ ∀ x ∈ τ, Spares crates x

theorem update_outcome (h : (daemon crates).Reaches w₀ ok c) (h₀ : w₀.db = .empty) {i : Nat}
    {request : RequestEnvelope} {ritualId : Uuid} {definition : RitualDefinition} {reply : Reply}
    {earlier during later : Log}
    (hlog : c.log = earlier ++ .arrive i (.request request) :: (during ++ .answer i reply :: later))
    (hbody : request.body = .ritualUpdate ritualId definition)
    (hduring : ∀ l ∈ during, l.interrupts i = false) :
    UpdateOutcome crates request.requestId ritualId definition (callsOf i during) reply := by
  obtain ⟨response, rfl, hends⟩ := update_answered h hlog hbody hduring
  generalize hcalls : callsOf i during = τ at hends
  have hlogged : ∀ x ∈ τ, .call i x.op x.res ∈ c.log := by
    intro x hx
    have hm := (mem_callsOf i during).mp (hcalls ▸ hx)
    rw [hlog]
    simp [hm]
  cases hends with
  | failed hspares => exact .inr ⟨_, _, rfl, hspares⟩
  | @updated read current stored ritual version ritual' version' definition' sofar hread hu hspares =>
    have hid := (reaches_versioned h h₀).2 i ritualId read current stored
      (hlogged _ (List.mem_append_left _ hread))
    -- the reply carries what the operation stored
    obtain ⟨before, after, hsplit⟩ := List.append_of_mem (hlogged _ (List.mem_append_right _
      (List.mem_singleton_self _)))
    obtain ⟨_, _, _, _, _, _, _, _, _, _, hact, -⟩ := h.split_call hsplit
    obtain ⟨hreply, -⟩ := daemon_storage hact
    obtain ⟨rfl, hrest⟩ := Prod.mk.inj hreply
    obtain ⟨rfl, rfl⟩ := Prod.mk.inj hrest
    exact .inl ⟨ritual', version', sofar, rfl, rfl, adds_of_ok, hu.id.trans hid.1, hu.ritualId, hu.stores,
      hspares⟩

/-- In every run the versions of a ritual are numbered 1 to n, its row is at version n and bears the
name that version n gives it, every version is of a ritual, what is stored of the versions stays so,
and an update adds the one version it is answered with, or nothing. -/
theorem history_linear {now : Int} {instant : Nat} {files : Files} {path : String}
    (hdecodes : crates.Decodes)
    (h : (daemon crates).Reaches (World.start now instant files path) Anywhere c) :
    (∀ ritual ∈ c.world.db.rituals,
      Consecutive RitualVersion.version (versionsOf ritual.id c.world.db) ∧
      ∃ version definition, (versionsOf ritual.id c.world.db).getLast? = some version ∧
        version.version = (versionsOf ritual.id c.world.db).length ∧
        ritual.currentVersionId = version.id ∧
        crates.parseDefinition version.canonicalJson = some definition ∧ ritual.name = definition.name) ∧
    (∀ version ∈ c.world.db.ritualVersions, ∃ ritual ∈ c.world.db.rituals, ritual.id = version.ritualId) ∧
    (∀ d after, (daemon crates).Reaches (World.start now instant files path) Anywhere d →
      c.log = d.log ++ after → d.world.db.ritualVersions <+: c.world.db.ritualVersions) ∧
    ∀ earlier i request during reply later ritualId definition,
      c.log = earlier ++ .arrive i (.request request) :: (during ++ .answer i reply :: later) →
      request.body = .ritualUpdate ritualId definition → (∀ l ∈ during, l.interrupts i = false) →
      UpdateOutcome crates request.requestId ritualId definition (callsOf i during) reply := by
  have hversioned := (reaches_versioned h rfl).1
  refine ⟨fun ritual hr => ?_, fun version hv => List.mem_map.mp (hversioned.owned version hv),
    fun d after hd hlog => versions_prefix h hd hlog, ?_⟩
  · obtain ⟨hnumbered, version, definition, hlast, hat, hstores, hname⟩ := hversioned.histories ritual hr
    exact ⟨hnumbered, version, definition, hlast, hnumbered.last hlast, hat,
      hdecodes _ _ hstores.canonicalJson, hname⟩
  · intro earlier i request during reply later ritualId definition hlog hbody hduring
    exact update_outcome h rfl hlog hbody hduring

end Runs

/-- Two clients update ritual 2 from the same version: the first to commit makes version 2. -/
def Sample.contended : Sample.Schedule :=
  Sample.activated ++ Sample.request 0 (.ritualUpdate 2 (Sample.definition Sample.later)) [0, 0, 5] ++
    Sample.request 1 (.ritualUpdate 2 (Sample.definition Sample.now)) [0, 0, 6] ++
    Sample.calls 0 [0] ++ [.answer 0] ++ Sample.calls 1 [0] ++ [.answer 1]

theorem history_linear_contended : ∃ c,
    (daemon Sample.crates).Reaches Sample.world Anywhere c ∧
      (versionsOf 2 c.world.db).map RitualVersion.id = [3, 5] ∧
      ∀ ritual ∈ c.world.db.rituals, Consecutive RitualVersion.version (versionsOf ritual.id c.world.db) := by
  have hrun : (Sample.exec Sample.contended).map (fun c =>
      (versionsOf 2 c.world.db).map RitualVersion.id) = some [3, 5] := by decide +kernel
  obtain ⟨c, hc, hids⟩ := Option.map_eq_some_iff.mp hrun
  have hreach := System.Reaches.init.exec hc
  obtain ⟨hhistories, -⟩ := history_linear Sample.decodes hreach
  exact ⟨c, hreach, hids, fun ritual hr => (hhistories ritual hr).1⟩

end Fubun

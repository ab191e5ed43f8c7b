import Fubun.Rituals.Dispatch

/-! The status and the current version of a ritual over whole runs. The row of a
ritual is what the committed writes to it make of nothing; a request that read it
earlier acts on a row that others have written since. -/

namespace Fubun
open Relational Concurrency Program System

section Lifecycle
variable {crates : Crates} {w₀ : World} {ok : State → Concurrency.Event Nat Frame Choice Drift → Prop}
  {c d : State} {ritualId versionId : Uuid} {i : Nat}

/-! ## The standing of a ritual -/

abbrev Standing := RitualStatus × Uuid

def standing (ritualId : Uuid) (db : Database) : Option Standing :=
  (db.rituals.find? (·.id == ritualId)).map fun ritual => (ritual.status, ritual.currentVersionId)

inductive RitualWrite where
  | define (status : RitualStatus) (versionId : Uuid)
  | setStatus (status : RitualStatus)
deriving DecidableEq

def RitualWrite.apply (current : Option Standing) : RitualWrite → Option Standing
  | .define status versionId => some (status, versionId)
  | .setStatus status => current.map fun standing => (status, standing.2)

def RitualWrite.defines : RitualWrite → Bool
  | .define .. => true
  | .setStatus _ => false

def ritualWrite (ritualId : Uuid) : (o : Operation) → Except StorageError o.Reply → Option RitualWrite
  | .createRitual ritual version _, .ok _ =>
    if ritual.id = ritualId then some (.define ritual.status version.id) else none
  | .updateRitual ritual version _, .ok _ =>
    if ritual.id = ritualId then some (.define ritual.status version.id) else none
  | .setRitualStatus id status, .ok _ => if id = ritualId then some (.setStatus status) else none
  | _, _ => none

theorem standing_same {db db' : Database} (h : db'.rituals = db.rituals) :
    standing ritualId db' = standing ritualId db := by
  rw [standing, standing, h]

theorem standing_create {db db' : Database} {ritual : Ritual}
    (hfresh : ∀ row ∈ db.rituals, row.clashes ritual = false)
    (h : db'.rituals = db.rituals ++ [{ ritual with currentVersionId := versionId }]) :
    standing ritualId db' =
      if ritual.id = ritualId then some (ritual.status, versionId) else standing ritualId db := by
  rw [standing, standing, h, List.find?_append, List.find?_singleton]
  split_ifs with hid hid' hid'
  · have hnone : db.rituals.find? (·.id == ritualId) = none := by
      rw [List.find?_eq_none]
      intro row hrow
      have hne := hfresh row hrow
      simpa [Ritual.clashes, hid'] using hne
    rw [hnone]
    rfl
  · exact absurd (by simpa using hid) hid'
  · exact absurd (by simpa using hid') hid
  · rw [Option.or_none]

theorem standing_update {db db' : Database} (f : Ritual → Ritual) {id : Uuid}
    (hf : ∀ row, (f row).id = row.id) (h : db'.rituals = updateRows (·.id == id) f db.rituals) :
    standing ritualId db' = if id = ritualId
      then (db.rituals.find? (·.id == ritualId)).map fun row => ((f row).status, (f row).currentVersionId)
      else standing ritualId db := by
  rw [standing, h, find?_updateRows fun row => by rw [hf]]
  rw [Option.map_map]
  cases hrow : db.rituals.find? (·.id == ritualId) with
  | none => simp [standing, hrow]
  | some row =>
    have hid : row.id = ritualId := by simpa using List.find?_some hrow
    by_cases heq : id = ritualId
    · simp [heq, hid]
    · have hne : ¬ row.id = id := fun h' => heq (h'.symm.trans hid)
      simp [heq, hne, standing, hrow]

/-- An operation changes the standing of a ritual by what it writes to its row, and by nothing else. -/
theorem Effect.standing {now : OffsetDateTime} {db db' : Database} {o : Operation}
    {r : Except StorageError o.Reply} (h : Effect crates now db db' o r) :
    standing ritualId db' = ((ritualWrite ritualId o r).map
      (RitualWrite.apply (standing ritualId db))).getD (standing ritualId db) := by
  cases o with
  | createRitual ritual version definition =>
    cases r with
    | error _ => exact standing_same (h ▸ rfl)
    | ok _ =>
      obtain ⟨hfresh, -, -, rfl⟩ := createRitual_ok.mp h.2
      rw [standing_create hfresh rfl]
      by_cases hid : ritual.id = ritualId <;> simp [ritualWrite, RitualWrite.apply, hid]
  | updateRitual ritual version definition =>
    cases r with
    | error _ => exact standing_same (h ▸ rfl)
    | ok _ =>
      obtain ⟨⟨row, hrow, hid'⟩, -, -, rfl⟩ := updateRitual_ok.mp h.2
      rw [standing_update (fun row => { row with
        name := ritual.name, status := ritual.status, currentVersionId := version.id,
        updatedAt := ritual.updatedAt }) (fun _ => rfl) rfl]
      by_cases hid : ritual.id = ritualId
      · cases hfind : db.rituals.find? (·.id == ritualId) with
        | none =>
          have hne := List.find?_eq_none.mp hfind row hrow
          exact absurd (hid'.trans hid) (by simpa using hne)
        | some found => simp [ritualWrite, RitualWrite.apply, hid]
      · simp [ritualWrite, hid]
  | setRitualStatus id status =>
    cases r with
    | error _ => exact standing_same (h ▸ rfl)
    | ok _ =>
      obtain ⟨-, rfl⟩ := setRitualStatus_ok.mp h
      rw [standing_update (fun row => { row with status := status, updatedAt := now }) (fun _ => rfl) rfl]
      by_cases hid : id = ritualId
      · simp [ritualWrite, RitualWrite.apply, Fubun.standing, hid, Function.comp_def]
      · simp [ritualWrite, hid]
  | _ =>
    have hsame : TableName.rituals.Same db db' := h.frame (by simp [Operation.writes])
    exact standing_same hsame

/-- The standing of a ritual is the replay of the committed writes to it. -/
def ritualReplay (crates : Crates) (ritualId : Uuid) :
    (daemon crates).Replayed (Option Standing) RitualWrite :=
  databaseReplay crates (standing ritualId) (ritualWrite ritualId) RitualWrite.apply
    (fun he => he.standing) fun _ => rfl

abbrev ritualWrites (crates : Crates) (ritualId : Uuid) (log : Log) : List RitualWrite :=
  (ritualReplay crates ritualId).writes log

theorem standing_replay (h : (daemon crates).Reaches w₀ ok c) (h₀ : w₀.db = .empty) :
    standing ritualId c.world.db =
      (ritualWrites crates ritualId c.log).foldl RitualWrite.apply none := by
  have hempty : standing ritualId w₀.db = none := by
    rw [h₀]
    rfl
  rw [← hempty]
  exact h.replay (ritualReplay crates ritualId)

theorem standing_since (h : (daemon crates).Reaches w₀ ok c) (hd : (daemon crates).Reaches w₀ ok d)
    {after : Log} (hlog : c.log = d.log ++ after) :
    standing ritualId c.world.db =
      (ritualWrites crates ritualId after).foldl RitualWrite.apply (standing ritualId d.world.db) :=
  h.replay_since (ritualReplay crates ritualId) hd hlog

theorem ritualWrites_setStatus (i : Nat) (status : RitualStatus) (after : Log) :
    ritualWrites crates ritualId (.call i (.storage (.setRitualStatus ritualId status)) (.ok ()) :: after) =
      .setStatus status :: ritualWrites crates ritualId after := by
  have hw : (ritualReplay crates ritualId).write
      (.call i (.storage (.setRitualStatus ritualId status)) (.ok ())) = some (.setStatus status) := by
    simp [ritualReplay, databaseReplay, committed, ritualWrite]
  exact List.filterMap_cons_some hw

/-! ## Writes and what they leave -/

theorem foldl_setStatus {ws : List RitualWrite} (h : ∀ w ∈ ws, w.defines = false)
    (status : RitualStatus) (versionId : Uuid) :
    ∃ status', ws.foldl RitualWrite.apply (some (status, versionId)) = some (status', versionId) ∧
      (ws = [] ∧ status' = status ∨ ws.getLast? = some (.setStatus status')) := by
  induction ws using List.reverseRecOn with
  | nil => exact ⟨status, rfl, .inl ⟨rfl, rfl⟩⟩
  | append_singleton ws w ih =>
    obtain ⟨status', hfold, -⟩ := ih fun w' hw' => h w' (List.mem_append_left _ hw')
    cases w with
    | define s id => exact nomatch h _ (List.mem_append_right _ (List.mem_singleton_self _))
    | setStatus s =>
      refine ⟨s, ?_, .inr (by simp)⟩
      rw [List.foldl_concat, hfold]
      rfl

theorem foldl_define {ws : List RitualWrite} {start : Option Standing} {s : Standing}
    (h : ∃ w ∈ ws, w.defines = true) (hs : ws.foldl RitualWrite.apply start = some s) :
    ∃ status, RitualWrite.define status s.2 ∈ ws := by
  induction ws using List.reverseRecOn generalizing s with
  | nil =>
    obtain ⟨w, hw, -⟩ := h
    exact nomatch hw
  | append_singleton ws w ih =>
    rw [List.foldl_concat] at hs
    cases w with
    | define status id =>
      obtain rfl := Option.some.inj hs
      exact ⟨status, by simp⟩
    | setStatus status =>
      obtain ⟨s', hs', rfl⟩ := Option.map_eq_some_iff.mp hs
      obtain ⟨w, hw, hdefines⟩ := h
      rcases List.mem_append.mp hw with hw | hw
      · obtain ⟨status', hm⟩ := ih ⟨w, hw, hdefines⟩ hs'
        exact ⟨status', List.mem_append_left _ hm⟩
      · obtain rfl := List.mem_singleton.mp hw
        exact nomatch hdefines

/-- No version was defined, and the last status that was set, if any, is Active. -/
def Undisturbed (ws : List RitualWrite) : Prop :=
  (∀ w ∈ ws, w.defines = false) ∧ ∀ w, ws.getLast? = some w → w = .setStatus .active

instance (ws : List RitualWrite) : Decidable (Undisturbed ws) :=
  decidable_of_iff ((∀ w ∈ ws, w.defines = false) ∧ ∀ w ∈ ws.getLast?, w = .setStatus .active) Iff.rfl

theorem foldl_active_iff {ws : List RitualWrite}
    (hnew : ∀ status id, RitualWrite.define status id ∈ ws → id ≠ versionId) :
    ws.foldl RitualWrite.apply (some (.active, versionId)) = some (.active, versionId) ↔
      Undisturbed ws := by
  constructor
  · intro hfold
    have hset : ∀ w ∈ ws, w.defines = false := by
      by_contra hne
      push Not at hne
      obtain ⟨w, hw, hdefines⟩ := hne
      obtain ⟨status, hm⟩ := foldl_define ⟨w, hw, by simpa using hdefines⟩ hfold
      exact hnew status versionId hm rfl
    obtain ⟨status', hfold', hlast⟩ := foldl_setStatus hset .active versionId
    rw [hfold] at hfold'
    obtain rfl : RitualStatus.active = status' := (Prod.mk.inj (Option.some.inj hfold')).1
    refine ⟨hset, fun w hw => ?_⟩
    rcases hlast with ⟨rfl, -⟩ | hlast
    · exact nomatch hw
    · exact Option.some.inj (hw.symm.trans hlast)
  · rintro ⟨hset, hlast⟩
    obtain ⟨status', hfold, ⟨-, rfl⟩ | hlast'⟩ := foldl_setStatus hset .active versionId
    · exact hfold
    · obtain ⟨rfl⟩ := RitualWrite.setStatus.inj (hlast _ hlast')
      exact hfold

/-! ## What a request has read and what is stored -/

theorem getRitual_standing {now : OffsetDateTime} {db db' : Database} {ritual : Ritual}
    {version : RitualVersion} {definition : RitualDefinition}
    (h : Effect crates now db db' (.getRitual ritualId) (.ok (ritual, version, definition))) :
    standing ritualId db' = some (ritual.status, version.id) := by
  obtain ⟨hritual, hversion, -, rfl⟩ := h
  have hfind : db'.rituals.find? (·.id == ritualId) = some ritual := by
    unfold findRitual at hritual
    split at hritual
    · rename_i row hrow
      rw [hrow]
      exact congrArg some (Except.ok.inj hritual)
    · exact nomatch hritual
  rw [standing, hfind, Option.map_some, (findVersion_ok hversion).2]

theorem define_fresh (h : (daemon crates).Reaches w₀ ok c) {before after : Log}
    {l : Label Nat Op.Res Frame Reply} (hlog : c.log = before ++ l :: after) {status : RitualStatus}
    (hw : committed (ritualWrite ritualId) l = some (.define status versionId)) :
    ∃ d, (daemon crates).Reaches w₀ ok d ∧ d.log = before ∧
      ∀ row ∈ d.world.db.ritualVersions, row.id ≠ versionId := by
  cases l with
  | call i o r =>
    obtain ⟨d, d', _, _, _, hd, hdlog, -, -, -, hact, -⟩ := h.split_call hlog
    refine ⟨d, hd, hdlog, ?_⟩
    have hfresh : ∀ {version : RitualVersion}, (∀ row ∈ d.world.db.ritualVersions,
        row.clashes version = false) → ∀ row ∈ d.world.db.ritualVersions, row.id ≠ version.id := by
      intro version hclash row hrow
      have hne := hclash row hrow
      simp only [RitualVersion.clashes, Bool.or_eq_false_iff, beq_eq_false_iff_ne] at hne
      exact hne.1
    -- only the two operations that store a version write a definition
    cases o with
    | storage operation =>
      have he := daemon_storage hact
      cases operation with
      | createRitual ritual version definition =>
        cases r with
        | error _ => cases hw
        | ok _ =>
          simp only [committed, ritualWrite] at hw
          split_ifs at hw
          obtain ⟨-, rfl⟩ := RitualWrite.define.inj (Option.some.inj hw)
          exact hfresh (createRitual_ok.mp he.2).2.2.1
      | updateRitual ritual version definition =>
        cases r with
        | error _ => cases hw
        | ok _ =>
          simp only [committed, ritualWrite] at hw
          split_ifs at hw
          obtain ⟨-, rfl⟩ := RitualWrite.define.inj (Option.some.inj hw)
          exact hfresh (updateRitual_ok.mp he.2).2.2.1
      | setRitualStatus id status =>
        cases r with
        | error _ => cases hw
        | ok _ =>
          simp only [committed, ritualWrite] at hw
          split_ifs at hw
          cases Option.some.inj hw
      | _ => cases hw
    | _ => cases hw
  | _ => cases hw

/-- The standing of a ritual is what the writes since a request read it make of what it read,
and they define only versions other than the one it read. -/
theorem standing_since_read (h : (daemon crates).Reaches w₀ ok c) {t : Thread Op Op.Res Frame Reply}
    (ht : c.threads i = some t) {ritual : Ritual} {version : RitualVersion} {definition : RitualDefinition}
    {more : List (Answered Op.Res)}
    (htrace : t.trace = ⟨.storage (.getRitual ritualId), .ok (ritual, version, definition)⟩ :: more) :
    standing ritualId c.world.db = (ritualWrites crates ritualId (sinceFirst i c.log)).foldl
        RitualWrite.apply (some (ritual.status, version.id)) ∧
      ∀ status id, RitualWrite.define status id ∈ ritualWrites crates ritualId (sinceFirst i c.log) →
        id ≠ version.id := by
  obtain ⟨earlier, later, hlog, hcalls, hquiet⟩ := (h.traced ht).since
  obtain ⟨before, after, rfl, hbefore, -⟩ := callsOf_eq_cons i later (hcalls.trans htrace)
  have hsince : sinceFirst i c.log = after := by
    rw [hlog]
    exact sinceFirst_eq hquiet hbefore
  have hsplit : c.log = (earlier ++ .arrive i t.request :: before) ++
      .call i (.storage (.getRitual ritualId)) (.ok (ritual, version, definition)) :: after := by
    rw [hlog]
    simp
  rw [hsince]
  constructor
  -- the read shows the standing of that moment, which the later writes change
  · obtain ⟨d, d', _, _, _, -, -, -, -, -, hact, hd', hdlog'⟩ := h.split_call hsplit
    have hread := getRitual_standing (daemon_storage hact)
    have hafter : c.log = d'.log ++ after := by
      rw [hdlog', hsplit]
      simp
    rw [← hread]
    exact standing_since h hd' hafter
  -- a version that was defined since is not the one that was read
  · intro status id hw
    obtain ⟨sofar, l, rest, rfl, hl⟩ := Replayed.exists_of_mem _ hw
    have hsplit' : c.log = ((earlier ++ .arrive i t.request :: before) ++
        .call i (.storage (.getRitual ritualId)) (.ok (ritual, version, definition)) :: sofar) ++
          l :: rest := by
      rw [hsplit]
      simp
    obtain ⟨d, hd, hdlog, hnew⟩ := define_fresh h hsplit' hl
    have hmem : .call i (.storage (.getRitual ritualId)) (.ok (ritual, version, definition)) ∈ d.log := by
      rw [hdlog]
      simp
    have hstored := hd.persistent (lasting crates) hmem
    exact (hnew version hstored.1).symm

/-! ## Starting -/

theorem startAndExecute_start {id : Uuid} {version : RitualVersion} {definition : RitualDefinition}
    {τ : List (Answered Op.Res)} {execution : Execution} {steps : List ExecutionStep}
    {k : (Op.storage (.startExecution execution steps)).Res → Core ResponseEnvelope}
    (h : Leads (startAndExecute id ritualId version definition) τ
      (.call (.storage (.startExecution execution steps)) k)) :
    execution.ritualId = ritualId ∧ execution.ritualVersionId = version.id := by
  unfold startAndExecute at h
  obtain ⟨now, τ₁, -, h⟩ := leads_perform_call h (by simp)
  obtain ⟨executionId, τ₂, -, h⟩ := leads_perform_call h (by simp)
  obtain ⟨τ₃, steps', τ₄, -, -, h⟩ := (newSteps_actsOn _ _ _ _).leads_past
    (by simp [Op.targets, Operation.writes]) h
  rcases leads_perform_bind.mp h with ⟨-, heq⟩ | ⟨r, τ₅, -, h⟩
  · obtain ⟨rfl, rfl⟩ := Operation.startExecution.inj (Op.storage.inj (Program.call.inj heq).1)
    exact ⟨rfl, rfl⟩
  · exfalso
    -- what comes after the start never starts again
    have hnever : ∀ p : Core ResponseEnvelope, p.Issues (fun o => o ≠ .storage (.startExecution execution steps)) →
        ¬ Leads p τ₅ (.call (.storage (.startExecution execution steps)) k) :=
      fun p hp hl => (hp.leads hl).1 rfl
    refine hnever _ ?_ h
    split
    · trivial
    · trivial
    · refine (executeSteps_issues ?_ _ _).bind fun r _ => ?_
      · constructor <;> simp
      · split <;> trivial

/-- When a start commits, its ritual is active and at its version exactly if nothing has
disturbed the ritual since the run read it. -/
theorem start_runnable_iff {now : Int} {instant : Nat} {files : Files} {path : String}
    (h : (daemon crates).Reaches (World.start now instant files path) Anywhere c) {before : Log}
    {execution : Execution} {steps : List ExecutionStep}
    (hlog : c.log = before ++ [.call i (.storage (.startExecution execution steps)) (.ok ())]) :
    standing execution.ritualId c.world.db = some (.active, execution.ritualVersionId) ↔
      Undisturbed (ritualWrites crates execution.ritualId (sinceFirst i before)) := by
  obtain ⟨d, d', t, k, ch, hd, rfl, -, ht, hrest, hact, -⟩ := h.split_call hlog
  have hleads := (hd.traced ht).leads
  rw [hrest] at hleads
  have htarget : Target.table .executions ∈ (Op.storage (.startExecution execution steps)).targets := by
    simp [Op.targets, Operation.writes]
  obtain ⟨request, ritualId', k', -, -, hrun⟩ := leads_run htarget (by simp [executionTargets]) hleads
  obtain ⟨ritual, version, definition, preflighted, rest, htrace, hactive, -, hstart⟩ :=
    run_path htarget hrun
  obtain ⟨hritual, hversion⟩ := startAndExecute_start hstart
  rw [← hritual] at htrace
  obtain ⟨hstanding, hnew⟩ := standing_since_read hd ht htrace
  rw [hactive, ← hversion] at hstanding
  rw [← hversion] at hnew
  -- the start itself does not write to the ritual
  have hsame : standing execution.ritualId c.world.db = standing execution.ritualId d.world.db :=
    standing_since h hd hlog
  rw [hsame, hstanding]
  exact foldl_active_iff hnew

end Lifecycle

def lastStart? (log : Log) : Option (Nat × Execution × List ExecutionStep) :=
  match log.getLast? with
  | some (.call i (.storage (.startExecution execution steps)) (.ok _)) => some (i, execution, steps)
  | _ => none

theorem lastStart?_eq_some {log : Log} {i : Nat} {execution : Execution} {steps : List ExecutionStep}
    (h : lastStart? log = some (i, execution, steps)) :
    ∃ before, log = before ++ [.call i (.storage (.startExecution execution steps)) (.ok ())] := by
  unfold lastStart? at h
  split at h
  · rename_i hlast
    obtain ⟨rfl, hx⟩ := Prod.mk.inj (Option.some.inj h)
    obtain ⟨rfl, rfl⟩ := Prod.mk.inj hx
    exact ⟨log.dropLast, (List.dropLast_append_getLast? _ hlast).symm⟩
  · exact nomatch h

namespace Sample

/-- A run of ritual 2 up to its start; the others go in before that. -/
def startAfter (others : Schedule) : Schedule :=
  activated ++ request 0 (.ritualRun 2) [0, 0, 0, 0, 5, 6] ++ others ++ calls 0 [0]

/-- The standing of the ritual that the last step of a schedule starts, beside the version it starts. -/
def starting (es : Schedule) : Option (Option Standing × Uuid) :=
  (exec es).bind fun c => (lastStart? c.log).map fun start =>
    (standing start.2.1.ritualId c.world.db, start.2.1.ritualVersionId)

theorem exists_of_starting {es : Schedule} {s : Option Standing} {versionId : Uuid}
    (h : starting es = some (s, versionId)) : ∃ c before i execution steps,
      (daemon crates).Reaches world Anywhere c ∧
        c.log = before ++ [.call i (.storage (.startExecution execution steps)) (.ok ())] ∧
        standing execution.ritualId c.world.db = s ∧ execution.ritualVersionId = versionId := by
  obtain ⟨c, hc, hstart⟩ := Option.bind_eq_some_iff.mp h
  obtain ⟨⟨i, execution, steps⟩, hlast, hx⟩ := Option.map_eq_some_iff.mp hstart
  obtain ⟨before, hlog⟩ := lastStart?_eq_some hlast
  obtain ⟨hstanding, hversion⟩ := Prod.mk.inj hx
  exact ⟨c, before, i, execution, steps, System.Reaches.init.exec hc, hlog, hstanding, hversion⟩

end Sample

theorem start_runnable_notification : ∃ c before i execution steps,
    (daemon Sample.crates).Reaches Sample.world Anywhere c ∧
      c.log = before ++ [.call i (.storage (.startExecution execution steps)) (.ok ())] ∧
      (standing execution.ritualId c.world.db = some (.active, execution.ritualVersionId) ↔
        Undisturbed (ritualWrites Sample.crates execution.ritualId (sinceFirst i before))) := by
  have hrun : Sample.starting (Sample.startAfter []) = some (some (.active, 3), 3) := by decide +kernel
  obtain ⟨c, before, i, execution, steps, hreach, hlog, -, -⟩ := Sample.exists_of_starting hrun
  exact ⟨c, before, i, execution, steps, hreach, hlog, start_runnable_iff hreach hlog⟩

/-- A pause between the preflight of a run and its start does not keep the ritual from starting. -/
theorem start_of_paused : ¬ ∀ c before i execution steps,
    (daemon Sample.crates).Reaches Sample.world Anywhere c →
      c.log = before ++ [.call i (.storage (.startExecution execution steps)) (.ok ())] →
        standing execution.ritualId c.world.db = some (.active, execution.ritualVersionId) := by
  intro hall
  have hrun : Sample.starting (Sample.startAfter (Sample.served 1 (.ritualPause 2) [0, 0])) =
      some (some (.paused, 3), 3) := by decide +kernel
  obtain ⟨c, before, i, execution, steps, hreach, hlog, hstanding, -⟩ := Sample.exists_of_starting hrun
  rw [hall c before i execution steps hreach hlog] at hstanding
  exact nomatch hstanding

section Lifecycle
variable {crates : Crates} {w₀ : World} {ok : State → Concurrency.Event Nat Frame Choice Drift → Prop}
  {c : State} {ritualId versionId : Uuid}

/-! ## Active rituals -/

def Approved (crates : Crates) (db : Database) (ritual : Ritual) : Prop :=
  ∃ version ∈ db.ritualVersions, version.id = ritual.currentVersionId ∧
    ∃ definition, crates.parseDefinition version.canonicalJson = some definition ∧
      ∀ action ∈ definition.actions, ∃ approval ∈ db.ritualApprovals, approval.Approves version action

instance (crates : Crates) (db : Database) (ritual : Ritual) : Decidable (Approved crates db ritual) :=
  decidable_of_iff (∃ version ∈ db.ritualVersions, version.id = ritual.currentVersionId ∧
    ∃ definition ∈ crates.parseDefinition version.canonicalJson, ∀ action ∈ definition.actions,
      ∃ approval ∈ db.ritualApprovals, approval.covers version action = true)
    (by simp only [Approved, covers_iff, Option.mem_def])

def Op.activates? : Op → Option Uuid
  | .storage (.setRitualStatus ritualId .active) => some ritualId
  | _ => none

/-- The step does not make a ritual active that was defined anew since the request read it. -/
def ActivatesAsRead (crates : Crates) (c : State) : Concurrency.Event Nat Frame Choice Drift → Prop
  | .call i _ => ∀ ritualId ∈ (c.next? i).bind Op.activates?,
    ∀ w ∈ ritualWrites crates ritualId (sinceFirst i c.log), w.defines = false
  | _ => True

instance (crates : Crates) (c : State) (e : Concurrency.Event Nat Frame Choice Drift) :
    Decidable (ActivatesAsRead crates c e) :=
  match e with
  | .call i _ => inferInstanceAs (Decidable (∀ ritualId ∈ (c.next? i).bind Op.activates?,
      ∀ w ∈ ritualWrites crates ritualId (sinceFirst i c.log), w.defines = false))
  | .arrive _ _ | .answer _ | .drift _ | .restart _ => .isTrue trivial

theorem active_write (h : (daemon crates).Reaches w₀ ok c) (h₀ : w₀.db = .empty)
    (hs : standing ritualId c.world.db = some (.active, versionId)) :
    ∃ before j after, c.log = before ++
        .call j (.storage (.setRitualStatus ritualId .active)) (.ok ()) :: after ∧
      ritualWrites crates ritualId after = [] := by
  have hreplay : standing ritualId c.world.db = _ := standing_replay h h₀
  rw [hs] at hreplay
  rcases List.eq_nil_or_concat (ritualWrites crates ritualId c.log) with hnil | ⟨ws, w, hws⟩
  · rw [hnil] at hreplay
    exact nomatch hreplay
  rw [List.concat_eq_append] at hws
  obtain ⟨before, l, after, hlog, hl, hafter⟩ := Replayed.last_write _ hws
  rw [hws, List.foldl_concat] at hreplay
  refine ⟨before, ?_⟩
  cases l with
  | call j o r =>
    obtain ⟨earlier, frame, later, k, -, -, hleads⟩ := h.called hlog
    cases o with
    | storage operation =>
      -- a definition leaves a draft
      have hdraft : ∀ {ritual version definition}, (operation = .createRitual ritual version definition ∨
          operation = .updateRitual ritual version definition) →
          w ≠ .define ritual.status version.id := by
        rintro ritual version definition hop rfl
        have hop' := hop.imp (congrArg Op.storage) (congrArg Op.storage)
        have hstatus := (leads_defines hop' hleads).1
        have hstanding := Option.some.inj hreplay
        rw [hstatus] at hstanding
        exact nomatch (Prod.mk.inj hstanding).1
      cases operation with
      | createRitual ritual version definition =>
        cases r with
        | error _ => exact nomatch hl
        | ok _ =>
          simp only [ritualReplay, databaseReplay, committed, ritualWrite] at hl
          split_ifs at hl
          exact absurd (Option.some.inj hl).symm (hdraft (.inl rfl))
      | updateRitual ritual version definition =>
        cases r with
        | error _ => exact nomatch hl
        | ok _ =>
          simp only [ritualReplay, databaseReplay, committed, ritualWrite] at hl
          split_ifs at hl
          exact absurd (Option.some.inj hl).symm (hdraft (.inr rfl))
      | setRitualStatus id status =>
        cases r with
        | error _ => exact nomatch hl
        | ok _ =>
          simp only [ritualReplay, databaseReplay, committed, ritualWrite] at hl
          split_ifs at hl with hid
          obtain rfl := Option.some.inj hl
          obtain ⟨s, -, hs'⟩ := Option.map_eq_some_iff.mp hreplay.symm
          obtain ⟨rfl, -⟩ := Prod.mk.inj hs'
          exact ⟨j, after, hid ▸ hlog, hafter⟩
      | _ => exact nomatch hl
    | _ => exact nomatch hl
  | _ => exact nomatch hl

/-- In a run that only activates what its requests have read, every active ritual is approved. -/
theorem active_approved {now : Int} {instant : Nat} {files : Files} {path : String}
    (h : (daemon crates).Reaches (World.start now instant files path) (ActivatesAsRead crates) c) :
    ∀ ritual ∈ c.world.db.rituals, ritual.status = .active → Approved crates c.world.db ritual := by
  intro ritual hritual hactive
  have hfind := (reaches_keys h rfl).rituals.find?_eq_some.mpr ⟨hritual, rfl⟩
  have hstanding : standing ritual.id c.world.db = some (.active, ritual.currentVersionId) := by
    rw [standing, hfind, Option.map_some, hactive]
  obtain ⟨before, j, after, hlog, hafter⟩ := active_write h rfl hstanding
  obtain ⟨d, d', t, k, ch, hd, rfl, hok, ht, hrest, hact, hd', hdlog'⟩ := h.split_call hlog
  have hleads := (hd.traced ht).leads
  rw [hrest] at hleads
  obtain ⟨read, version, definition, more, now', drawn, approvals, hnew, htrace, happroved⟩ :=
    leads_setActive hleads
  -- the version that was read is still the current one when the status is set, and since
  have hnext : ritual.id ∈ (d.next? j).bind Op.activates? := by
    rw [Config.next?_eq_some.mpr ⟨t, k, ht, hrest⟩]
    rfl
  have hread := (standing_since_read hd ht htrace).1
  obtain ⟨status, hfold, -⟩ := foldl_setStatus (hok ritual.id hnext) read.status version.id
  rw [hfold] at hread
  have hcurrent : standing ritual.id c.world.db = some (.active, version.id) := by
    have hsplit : c.log = d.log ++
        (.call j (.storage (.setRitualStatus ritual.id .active)) (.ok ()) :: after) := hlog
    rw [standing_since h hd hsplit, ritualWrites_setStatus, hafter, hread]
    rfl
  have hid : version.id = ritual.currentVersionId :=
    (Prod.mk.inj (Option.some.inj (hcurrent.symm.trans hstanding))).2
  have hlogged : ∀ x ∈ t.trace, .call j x.op x.res ∈ c.log := by
    intro x hx
    rw [hlog]
    exact List.mem_append_left _ (hd.mem_log ht hx)
  obtain ⟨hstored, hparse⟩ := h.persistent (lasting crates)
    (hlogged _ (htrace ▸ List.mem_cons_self))
  have hrows := h.persistent (lasting crates)
    (hlogged _ (htrace ▸ List.mem_cons_of_mem _ happroved))
  refine ⟨version, hstored, hid, definition, hparse, fun action haction => ?_⟩
  obtain ⟨approval, hm, happroves⟩ := (newApprovals_ret hnew).2 action haction
  exact ⟨approval, hrows approval hm, happroves⟩

end Lifecycle

def Sample.sequential : Sample.Schedule :=
  Sample.activated ++ Sample.served 1 (.ritualUpdate 2 (Sample.definition Sample.later)) [0, 0, 5, 0] ++
    Sample.served 0 (.ritualActivate 2 true) [0, 0, 0, 6, 0, 0]

/-- The second client redefines ritual 2 between the approvals and the status of an activation. -/
def Sample.redefined : Sample.Schedule :=
  Sample.connected 0 ++ Sample.connected 1 ++ Sample.adapterConnected 2 1 ++
    Sample.served 0 (.ritualCreate (Sample.definition Sample.now)) [0, 2, 3, 0] ++
    Sample.request 0 (.ritualActivate 2 true) [0, 0, 0, 4, 0] ++
    Sample.served 1 (.ritualUpdate 2 (Sample.definition Sample.later)) [0, 0, 5, 0] ++ Sample.calls 0 [0]

theorem active_approved_notification : ∃ c,
    (daemon Sample.crates).Reaches Sample.world (ActivatesAsRead Sample.crates) c ∧
      standing 2 c.world.db = some (.active, 5) ∧
      ∀ ritual ∈ c.world.db.rituals, ritual.status = .active → Approved Sample.crates c.world.db ritual := by
  have hrun : ((daemon Sample.crates).execIf (ActivatesAsRead Sample.crates) (.init Sample.world)
      Sample.sequential).map (fun c => standing 2 c.world.db) = some (some (.active, 5)) := by decide +kernel
  obtain ⟨c, hc, hstanding⟩ := Option.map_eq_some_iff.mp hrun
  have hreach := System.Reaches.init.execIf hc
  exact ⟨c, hreach, hstanding, active_approved hreach⟩

/-- The ritual that was redefined within its activation is active, and its version not approved. -/
theorem active_of_redefined : ¬ ∀ c, (daemon Sample.crates).Reaches Sample.world Anywhere c →
    ∀ ritual ∈ c.world.db.rituals, ritual.status = .active → Approved Sample.crates c.world.db ritual := by
  intro hall
  have hrun : (Sample.exec Sample.redefined).map (fun c => decide (∀ ritual ∈ c.world.db.rituals,
      ritual.status = .active → Approved Sample.crates c.world.db ritual)) = some false := by decide +kernel
  obtain ⟨c, hc, hfalse⟩ := Option.map_eq_some_iff.mp hrun
  exact of_decide_eq_false hfalse (hall c (System.Reaches.init.exec hc))

end Fubun

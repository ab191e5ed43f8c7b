import Fubun.Executions.Bookkeeping

/-! What is left of an execution when its run is interrupted: by a storage call that
fails, or by the end of the process. -/

namespace Fubun
open Relational Concurrency Program System

/-! ## Storage errors -/

instance (db : Database) (id : Uuid) : Decidable (Settled db id) :=
  decidable_of_iff ((∃ row ∈ db.executions, row.id = id ∧ row.status.isTerminal = true) ∧
    (∀ s ∈ db.executionSteps, s.executionId = id → s.status.isTerminal = true) ∧
    ∀ lock ∈ db.ritualExecutionLocks, lock.executionId ≠ id)
    ⟨fun ⟨h₁, h₂, h₃⟩ => ⟨h₁, h₂, h₃⟩, fun ⟨h₁, h₂, h₃⟩ => ⟨h₁, h₂, h₃⟩⟩

section Runs
variable {crates : Crates} {now : Int} {instant : Nat} {files : Files} {path : String} {c : State}

/-- When the answer to a run that has started is at hand, its execution is settled exactly if none
of the storage calls after the start failed. -/
theorem execution_settled_iff
    (h : (daemon crates).Reaches (World.start now instant files path) Anywhere c) {i : Nat}
    {t : Thread Op Op.Res Frame Reply} {reply : Reply} (ht : c.threads i = some t)
    (hrest : t.rest = .ret reply) {started : Execution} {post : List (Answered Op.Res)}
    (hstarted : afterStart t.trace = some (started, post)) :
    Settled c.world.db started.id ↔ StorageSucceeds post := by
  have hconcluded := (reaches_owned h).2 i t ht
  rw [hrest] at hconcluded
  have hpost : ∀ {started' : Execution} {post' : List (Answered Op.Res)},
      afterStart t.trace = some (started', post') → started' = started ∧ post' = post := by
    intro started' post' h'
    obtain ⟨h₁, h₂⟩ := Prod.mk.inj (Option.some.inj (h'.symm.trans hstarted))
    exact ⟨h₁, h₂⟩
  rcases hconcluded with hnone | ⟨started', ⟨post', hs, hfailed, -, hlocked⟩ | ⟨post', hs, hgood, -, hsettled⟩⟩
  · exact nomatch hnone.symm.trans hstarted
  · obtain ⟨rfl, rfl⟩ := hpost hs
    obtain ⟨hlock, hid⟩ := mem_slice_locks.mp hlocked
    exact ⟨fun hsettled => absurd hid (hsettled.unlocked _ hlock), fun hgood => absurd hgood hfailed⟩
  · obtain ⟨rfl, rfl⟩ := hpost hs
    exact ⟨fun _ => hgood, fun _ => hsettled⟩

end Runs

namespace Sample

/-- The answer of connection `i` is at hand: the execution it started, how many of its storage calls
have failed since, and whether it is settled. -/
def concluded? (i : Nat) (c : State) : Option (Execution × Nat × Bool) :=
  (c.threads i).bind fun t =>
    match t.rest with
    | .ret _ => (afterStart t.trace).map fun started => (started.1,
        started.2.countP (! storageSucceeded ·), decide (Settled c.world.db started.1.id))
    | .call .. => none

theorem concluded?_eq_some {i : Nat} {c : State} {started : Execution} {failures : Nat} {settled : Bool}
    (h : concluded? i c = some (started, failures, settled)) :
    ∃ t reply post, c.threads i = some t ∧ t.rest = .ret reply ∧
      afterStart t.trace = some (started, post) ∧ post.countP (! storageSucceeded ·) = failures ∧
      decide (Settled c.world.db started.id) = settled := by
  obtain ⟨t, ht, hrest⟩ := Option.bind_eq_some_iff.mp h
  split at hrest
  · rename_i reply hret
    obtain ⟨⟨started', post⟩, hstarted, hx⟩ := Option.map_eq_some_iff.mp hrest
    simp only [Prod.mk.injEq] at hx
    obtain ⟨rfl, rfl, rfl⟩ := hx
    exact ⟨t, reply, post, ht, hret, hstarted, rfl, rfl⟩
  · exact nomatch hrest

/-- A run of ritual 2 up to its first update of a step, and then the last operations. -/
def runOn (last : Schedule) : Schedule :=
  activated ++ request 0 (.ritualRun 2) [0, 0, 0, 0, 5, 6, 0, 0, 0, 0] ++ last

/-- The update of the step succeeds, the notification is shown, and the rest succeeds too. -/
def shown : Schedule :=
  runOn (calls 0 [0] ++ [.call 0 ⟨0, none, .result ⟨.succeeded, "shown", ""⟩⟩] ++ calls 0 [0, 0, 0, 0])

def failed : Schedule := runOn [.call 0 ⟨0, some 0, .timeout⟩]

theorem exists_of_concluded {es : Schedule} {i : Nat} {failures : Nat} {settled : Bool}
    (h : (exec es).map (fun c => (concluded? i c).map (·.2)) = some (some (failures, settled))) :
    ∃ c t reply started post, (daemon crates).Reaches world Anywhere c ∧ c.threads i = some t ∧
      t.rest = .ret reply ∧ afterStart t.trace = some (started, post) ∧
      post.countP (! storageSucceeded ·) = failures ∧
      decide (Settled c.world.db started.id) = settled := by
  obtain ⟨c, hc, hx⟩ := Option.map_eq_some_iff.mp h
  obtain ⟨⟨started, failures', settled'⟩, hconcluded, hx'⟩ := Option.map_eq_some_iff.mp hx
  obtain ⟨rfl, rfl⟩ := Prod.mk.inj hx'
  obtain ⟨t, reply, post, ht, hrest, hstarted, hcount, hsettled⟩ := concluded?_eq_some hconcluded
  exact ⟨c, t, reply, started, post, System.Reaches.init.exec hc, ht, hrest, hstarted, hcount, hsettled⟩

end Sample

theorem execution_settled_shown : ∃ c t reply started post,
    (daemon Sample.crates).Reaches Sample.world Anywhere c ∧ c.threads 0 = some t ∧
      t.rest = .ret reply ∧ afterStart t.trace = some (started, post) ∧
      (Settled c.world.db started.id ↔ StorageSucceeds post) := by
  have hrun : (Sample.exec Sample.shown).map (fun c => (Sample.concluded? 0 c).map (·.2)) =
      some (some (0, true)) := by decide +kernel
  obtain ⟨c, t, reply, started, post, hreach, ht, hrest, hstarted, -, -⟩ := Sample.exists_of_concluded hrun
  exact ⟨c, t, reply, started, post, hreach, ht, hrest, hstarted,
    execution_settled_iff hreach ht hrest hstarted⟩

/-- A run whose one storage error is in the update of a step leaves its execution unsettled. -/
theorem unsettled_of_failed : ¬ ∀ c t reply started post,
    (daemon Sample.crates).Reaches Sample.world Anywhere c → c.threads 0 = some t →
      t.rest = .ret reply → afterStart t.trace = some (started, post) →
      post.countP (! storageSucceeded ·) = 1 → Settled c.world.db started.id := by
  intro hall
  have hrun : (Sample.exec Sample.failed).map (fun c => (Sample.concluded? 0 c).map (·.2)) =
      some (some (1, false)) := by decide +kernel
  obtain ⟨c, t, reply, started, post, hreach, ht, hrest, hstarted, hcount, hsettled⟩ :=
    Sample.exists_of_concluded hrun
  exact of_decide_eq_false hsettled (hall c t reply started post hreach ht hrest hstarted hcount)

/-! ## Restarts -/

section Restarts
variable {crates : Crates} {now : OffsetDateTime} {db db' db'' : Database}

/-- What restarts do to the executions of a database: those that were running are aborted or about
to be, and what had ended is as it was. -/
structure Recovering (db db' : Database) : Prop where
  ended : ∀ x ∈ db.executions, x.status ≠ .running → x ∈ db'.executions
  running : ∀ x ∈ db.executions, x.status = .running → ∃ y ∈ db'.executions, y.id = x.id ∧
    (y = x ∨ y.status = .aborted ∧ y.failureCode = some "daemon_restarted" ∧ y.finishedAt.isSome)
  steps : ∀ s ∈ db.executionSteps, s.status.isTerminal = true → s ∈ db'.executionSteps

theorem Recovering.refl (db : Database) : Recovering db db :=
  ⟨fun _ h _ => h, fun x h _ => ⟨x, h, rfl, .inl rfl⟩, fun _ h _ => h⟩

theorem mem_abortExecutionRows {x : Execution} {rows : List Execution} (h : x ∈ rows)
    (hx : x.status ≠ .running) : x ∈ abortExecutionRows now rows :=
  mem_updateRows.mpr ⟨x, h, if_neg (by simpa using hx)⟩

theorem mem_abortStepRows {s : ExecutionStep} {executions : List Execution} {rows : List ExecutionStep}
    (h : s ∈ rows) (hs : s.status.isTerminal = true) : s ∈ abortStepRows now executions rows := by
  refine mem_updateRows.mpr ⟨s, h, if_neg ?_⟩
  cases hstatus : s.status with
  | pending => rw [hstatus] at hs; exact nomatch hs
  | running => rw [hstatus] at hs; exact nomatch hs
  | _ => simp

/-- The statements of another restart, as far as they have committed. -/
theorem Recovering.abort (h : Recovering db db')
    (hexecutions : db''.executions = abortExecutionRows now db'.executions)
    (hsteps : db''.executionSteps = db'.executionSteps ∨ db''.executionSteps =
      abortStepRows now (abortExecutionRows now db'.executions) db'.executionSteps) :
    Recovering db db'' where
  ended x hx hended := hexecutions ▸ mem_abortExecutionRows (h.ended x hx hended) hended
  running x hx hrunning := by
    rw [hexecutions]
    obtain ⟨y, hy, hid, rfl | ⟨hstatus, hcode, hfinished⟩⟩ := h.running x hx hrunning
    · have hm : y.abort now ∈ abortExecutionRows now db'.executions :=
        mem_updateRows.mpr ⟨y, hy, if_pos (by simpa using hrunning)⟩
      exact ⟨y.abort now, hm, rfl, .inr ⟨rfl, rfl, rfl⟩⟩
    · have hm : y ∈ abortExecutionRows now db'.executions :=
        mem_abortExecutionRows hy (by simp [hstatus])
      exact ⟨y, hm, hid, .inr ⟨hstatus, hcode, hfinished⟩⟩
  steps s hs hterminal := by
    rcases hsteps with heq | heq
    · exact heq ▸ h.steps s hs hterminal
    · exact heq ▸ mem_abortStepRows (h.steps s hs hterminal) hterminal

theorem Recovering.restart {w : World} (h : Recovering db w.db) (crates : Crates) (ch : Choice) :
    Recovering db (World.restart crates ch w).db := by
  obtain ⟨reply, he, -⟩ := restart_effect crates ch w
  cases reply with
  | ok _ => exact h.abort (by rw [he]; rfl) (.inr (by rw [he]; rfl))
  | error _ =>
    rcases he with he | he | he
    · exact he ▸ h
    · exact h.abort (by rw [he]; rfl) (.inl (by rw [he]; rfl))
    · exact h.abort (by rw [he]; rfl) (.inr (by rw [he]; rfl))

theorem restart_complete (crates : Crates) {w : World} {ch : Choice} (hup : (World.restart crates ch w).up = true) :
    (World.restart crates ch w).db =
      ((w.db.executionsAborted w.nowUtc).stepsAborted w.nowUtc).unlocked := by
  obtain ⟨reply, he, hreply⟩ := restart_effect crates ch w
  cases reply with
  | ok _ => exact he
  | error e => exact nomatch hup.symm.trans hreply

theorem not_running_of_abort {x : Execution} {rows : List Execution}
    (h : x ∈ abortExecutionRows now rows) : x.status ≠ .running := by
  obtain ⟨y, hy, rfl⟩ := mem_updateRows.mp h
  split_ifs with hrunning
  · simp [Execution.abort]
  · simpa using hrunning

/-- The second statement of a restart leaves no unfinished step under an execution that a restart
has aborted. -/
theorem finished_of_abort {x : Execution} {s : ExecutionStep} {executions : List Execution}
    {rows : List ExecutionStep} (hx : x ∈ executions) (hrestarted : x.restarted = true)
    (hs : s ∈ abortStepRows now executions rows) (hid : s.executionId = x.id) :
    s.status.isTerminal = true := by
  obtain ⟨y, hy, rfl⟩ := mem_updateRows.mp hs
  split_ifs at hid ⊢ with hcond
  · rfl
  · have hany : (executions.any fun execution => execution.id == y.executionId && execution.restarted) =
        true := by
      rw [List.any_eq_true]
      exact ⟨x, hx, by simp [hid, hrestarted]⟩
    rw [hany, Bool.and_true] at hcond
    cases hstatus : y.status with
    | pending => simp [hstatus] at hcond
    | running => simp [hstatus] at hcond
    | _ => rfl

/-- What can happen while the process is down: it starts again, or time passes. -/
def Downtime : Concurrency.Event Nat Frame Choice Drift → Prop
  | .restart _ | .drift _ => True
  | .arrive .. | .call .. | .answer _ => False

theorem Recovering.exec {c c' : State} {es : List (Concurrency.Event Nat Frame Choice Drift)}
    (h : Recovering db c.world.db) (hes : ∀ e ∈ es, Downtime e) (hrun : (daemon crates).exec c es = some c') :
    Recovering db c'.world.db := by
  induction es generalizing c with
  | nil => exact Option.some.inj hrun ▸ h
  | cons e es ih =>
    rw [System.exec, List.foldlM_cons] at hrun
    obtain ⟨d, hd, hrest⟩ := Option.bind_eq_some_iff.mp hrun
    refine ih ?_ (fun e' he' => hes e' (List.mem_cons_of_mem _ he')) hrest
    cases e with
    | restart ch => exact Option.some.inj hd ▸ h.restart crates ch
    | drift e =>
      obtain rfl := Option.some.inj hd
      rw [Config.drifted_world, show ((daemon crates).drift e c.world).db = _ from drift_db e]
      exact h
    | arrive i q => exact (hes _ List.mem_cons_self).elim
    | call i ch => exact (hes _ List.mem_cons_self).elim
    | answer i => exact (hes _ List.mem_cons_self).elim

variable {epoch : Int} {instant : Nat} {files : Files} {path : String} {c c' : State}

/-- Wherever the process has stopped, and however often it has failed to start again since: once a
start completes, nothing runs, nothing is locked, no ended execution has an unfinished step, what
was running is aborted, and what had ended is as it was. -/
theorem recovery (h : (daemon crates).Reaches (World.start epoch instant files path) Anywhere c)
    {es : List (Concurrency.Event Nat Frame Choice Drift)} (hes : ∀ e ∈ es, Downtime e) {ch : Choice}
    (hrun : (daemon crates).exec c (es ++ [.restart ch]) = some c') (hup : c'.world.up = true) :
    (∀ x ∈ c'.world.db.executions, x.status ≠ .running) ∧ c'.world.db.ritualExecutionLocks = [] ∧
    (∀ x ∈ c'.world.db.executions, x.status.isTerminal = true →
      ∀ s ∈ c'.world.db.executionSteps, s.executionId = x.id → s.status.isTerminal = true) ∧
    (∀ x ∈ c.world.db.executions, x.status = .running → ∃ y ∈ c'.world.db.executions, y.id = x.id ∧
      y.status = .aborted ∧ y.failureCode = some "daemon_restarted" ∧ y.finishedAt.isSome) ∧
    (∀ x ∈ c.world.db.executions, x.status.isTerminal = true → x ∈ c'.world.db.executions) ∧
    ∀ s ∈ c.world.db.executionSteps, s.status.isTerminal = true → s ∈ c'.world.db.executionSteps := by
  have howned := (reaches_owned (h.exec hrun)).1
  have hall : ∀ e ∈ es ++ [.restart ch], Downtime e :=
    List.forall_mem_append.mpr ⟨hes, List.forall_mem_singleton.mpr trivial⟩
  have hrecovering := (Recovering.refl c.world.db).exec hall hrun
  -- the last restart is complete
  rw [System.exec_append] at hrun
  obtain ⟨d, -, hlast⟩ := Option.bind_eq_some_iff.mp hrun
  rw [System.exec_singleton] at hlast
  obtain rfl := Option.some.inj hlast
  have hdb := restart_complete crates hup
  have hexecutions : (d.restarted ((daemon crates).restart ch d.world)).world.db.executions =
      abortExecutionRows d.world.nowUtc d.world.db.executions := congrArg Database.executions hdb
  have hsteps : (d.restarted ((daemon crates).restart ch d.world)).world.db.executionSteps =
      abortStepRows d.world.nowUtc (abortExecutionRows d.world.nowUtc d.world.db.executions)
        d.world.db.executionSteps := congrArg Database.executionSteps hdb
  have hidle : ∀ x ∈ (d.restarted ((daemon crates).restart ch d.world)).world.db.executions,
      x.status ≠ .running := by
    intro x hx
    rw [hexecutions] at hx
    exact not_running_of_abort hx
  refine ⟨hidle, congrArg Database.ritualExecutionLocks hdb, ?_, ?_, ?_, hrecovering.steps⟩
  · intro x hx hterminal s hs hid
    cases hrestarted : x.restarted with
    | false => exact howned.settled x hx hterminal hrestarted s hs hid
    | true =>
      rw [hexecutions] at hx
      rw [hsteps] at hs
      exact finished_of_abort hx hrestarted hs hid
  · intro x hx hrunning
    obtain ⟨y, hy, hid, rfl | haborted⟩ := hrecovering.running x hx hrunning
    · exact absurd hrunning (hidle _ hy)
    · exact ⟨y, hy, hid, haborted⟩
  · intro x hx hterminal
    refine hrecovering.ended x hx fun hrunning => ?_
    rw [hrunning] at hterminal
    exact nomatch hterminal

end Restarts

/-- The process stops while the step of an execution runs, and again between the statements of
the restart. -/
def Sample.interrupted : Sample.Schedule :=
  [.restart ⟨0, some 1, .timeout⟩, .drift (.clock 60 60), .restart ⟨0, some 2, .timeout⟩]

theorem recovery_interrupted : ∃ c c',
    (daemon Sample.crates).Reaches Sample.world Anywhere c ∧
      (∃ x ∈ c.world.db.executions, x.status = .running) ∧
      (daemon Sample.crates).exec c (Sample.interrupted ++ [.restart ⟨0, none, .timeout⟩]) = some c' ∧
      c'.world.up = true ∧ (∀ x ∈ c'.world.db.executions, x.status ≠ .running) ∧
      c'.world.db.ritualExecutionLocks = [] := by
  have hrun : (Sample.exec (Sample.runOn (Sample.calls 0 [0]))).map (fun c =>
      decide (∃ x ∈ c.world.db.executions, x.status = .running)) = some true := by decide +kernel
  obtain ⟨c, hc, hrunning⟩ := Option.map_eq_some_iff.mp hrun
  have hreach := System.Reaches.init.exec hc
  have hafter : (Sample.exec (Sample.runOn (Sample.calls 0 [0]) ++ (Sample.interrupted ++
      [.restart ⟨0, none, .timeout⟩]))).map (fun c => c.world.up) = some true := by decide +kernel
  obtain ⟨c', hc', hup⟩ := Option.map_eq_some_iff.mp hafter
  have hrest : (daemon Sample.crates).exec c (Sample.interrupted ++ [.restart ⟨0, none, .timeout⟩]) =
      some c' := by
    rw [Sample.exec, System.exec_append] at hc'
    obtain ⟨d, hd, hd'⟩ := Option.bind_eq_some_iff.mp hc'
    obtain rfl := Option.some.inj (hd.symm.trans hc)
    exact hd'
  have hdown : ∀ e ∈ Sample.interrupted, Downtime e := by
    simp [Sample.interrupted, Downtime]
  obtain ⟨hidle, hlocks, -⟩ := recovery hreach hdown hrest hup
  exact ⟨c, c', hreach, of_decide_eq_true hrunning, hrest, hup, hidle, hlocks⟩

end Fubun

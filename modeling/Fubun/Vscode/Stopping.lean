import Fubun.Vscode.Extension

/-! What `stop` leaves behind: nothing is sent and nothing is started before the next `observe`, as long as
no run goes on that the stop has overtaken. -/

namespace Fubun.Vscode
open Encoding Extensions Concurrency.Machine

/-! ## A session that is not wanted -/

namespace SessionState
variable {s s' : SessionState}

/-- A session that should not be connected has no transport. -/
abbrev IsResting (s : SessionState) : Prop := s.IsNew ∧ (s.desired = false → s.transport = none)

/-- Nothing but `start` makes a session want a transport, and an event is written on the current one. -/
def isPassive (s : SessionState) : SessionEvent → Bool
  | .start _ => false
  | .advance n _ =>
    match s.tasks n with
    | .connected (some (.emit _)) transport => s.transport == some transport
    | _ => true
  | _ => true

abbrev Passively (s : SessionState) (e : SessionEvent) : Prop := s.isPassive e = true

abbrev IsStill (numbers : List Nat) (s : SessionState) : Prop :=
  (s.desired = false ∧ s.transport = none) ∧ sequenceNumbers s.log = numbers

theorem sequenceNumbers_snoc {log : List SessionEntry} {entry : SessionEntry} (hentry : entry.sequenceNo? = none) :
    sequenceNumbers (log ++ [entry]) = sequenceNumbers log := by
  rw [sequenceNumbers_append, sequenceNumbers_aside (List.forall_mem_singleton.mpr hentry), List.append_nil]

theorem sequenceNumbers_closeCurrent (s : SessionState) (error : String) :
    sequenceNumbers (s.closeCurrent error).log = sequenceNumbers s.log := by
  have hreleased : sequenceNumbers (s.released error) = [] := by
    apply sequenceNumbers_aside
    intro entry hentry
    rcases List.mem_append.mp hentry with hentry | hentry
    · obtain ⟨hello, -, rfl⟩ := List.mem_map.mp hentry
      rfl
    · obtain ⟨p, -, rfl⟩ := List.mem_map.mp hentry
      rfl
  have hended : sequenceNumbers (s.transport.toList.map SessionEntry.ended) = [] := by
    apply sequenceNumbers_aside
    intro entry hentry
    obtain ⟨transport, -, rfl⟩ := List.mem_map.mp hentry
    rfl
  show sequenceNumbers (s.log ++ s.released error ++ s.transport.toList.map .ended) = sequenceNumbers s.log
  rw [sequenceNumbers_append, sequenceNumbers_append, hreleased, hended, List.append_nil, List.append_nil]

theorem sequenceNumbers_emitWorkspaceOpened (s : SessionState) (resourceId : String) (now : Int) :
    sequenceNumbers (s.emitWorkspaceOpened resourceId now).log = sequenceNumbers s.log := by
  unfold SessionState.emitWorkspaceOpened
  split
  · rfl
  · exact sequenceNumbers_snoc rfl

theorem emitWorkspaceOpened_frame (s : SessionState) (resourceId : String) (now : Int) :
    (s.emitWorkspaceOpened resourceId now).desired = s.desired ∧
      (s.emitWorkspaceOpened resourceId now).transport = s.transport := by
  unfold SessionState.emitWorkspaceOpened
  split <;> exact ⟨rfl, rfl⟩

theorem stop_desired (s : SessionState) : s.stop.desired = false :=
  untimed_congr (·.desired) (fun _ => rfl) (Moves.untimed_cancelReconnect (s.setDesired false))

theorem conclude_frame (s : SessionState) (n : Nat) (call : Option SessionCall) (result : Outcome) :
    (s.conclude n call result).desired = s.desired ∧ (s.conclude n call result).transport = s.transport ∧
      (s.conclude n call result).log = s.log ++ [.settled (.call n) result] := by
  unfold SessionState.conclude
  split <;> exact ⟨rfl, rfl, rfl⟩

end SessionState

open SessionState

variable {o : VscodeAdapterSessionOptions} {ok : SessionState → SessionEvent → Prop} {s s' : SessionState}

theorem Moves.isResting (hs : s.desired = false → s.transport = none) (hm : Moves o ok s s') :
    s'.desired = false → s'.transport = none := by
  cases hm with
  | rest h => exact (untimed_congr (fun s => s.desired = false → s.transport = none) (fun _ => rfl) h).mpr hs
  | start _ => exact fun hd => nomatch hd
  | stop => exact fun _ => rfl
  | close _ => exact fun _ => rfl
  | establish _ hdesired _ _ => exact fun hd => nomatch hdesired.symm.trans hd
  | queue resourceId now _ =>
    obtain ⟨hdesired, htransport⟩ := emitWorkspaceOpened_frame s resourceId now
    rwa [hdesired, htransport]
  | misdate resourceId now _ =>
    obtain ⟨hdesired, htransport⟩ := emitWorkspaceOpened_frame s resourceId now
    rwa [hdesired, htransport]
  | @conclude n call result _ =>
    obtain ⟨hdesired, htransport, -⟩ := conclude_frame s n call result
    rwa [hdesired, htransport]
  | _ => exact hs

theorem Moves.isStill {numbers : List Nat} (hs : s.IsStill numbers) (hm : Moves o Passively s s') : s'.IsStill numbers := by
  obtain ⟨⟨hdesired, htransport⟩, hnumbers⟩ := hs
  cases hm with
  | rest h => exact (untimed_congr (IsStill numbers) (fun _ => rfl) h).mpr ⟨⟨hdesired, htransport⟩, hnumbers⟩
  | start hok => exact nomatch hok
  | stop => exact ⟨⟨rfl, rfl⟩, (sequenceNumbers_closeCurrent (s.setDesired false) _).trans hnumbers⟩
  | close error => exact ⟨⟨hdesired, rfl⟩, (sequenceNumbers_closeCurrent s error).trans hnumbers⟩
  | establish _ hwanted _ _ => exact nomatch hwanted.symm.trans hdesired
  | queue resourceId now _ =>
    obtain ⟨hdesired', htransport'⟩ := emitWorkspaceOpened_frame s resourceId now
    exact ⟨⟨hdesired'.trans hdesired, htransport'.trans htransport⟩,
      (sequenceNumbers_emitWorkspaceOpened s resourceId now).trans hnumbers⟩
  | misdate resourceId now _ =>
    obtain ⟨hdesired', htransport'⟩ := emitWorkspaceOpened_frame s resourceId now
    exact ⟨⟨hdesired'.trans hdesired, htransport'.trans htransport⟩,
      (sequenceNumbers_emitWorkspaceOpened s resourceId now).trans hnumbers⟩
  | @conclude n call result _ =>
    obtain ⟨hdesired', htransport', hlog⟩ := conclude_frame s n call result
    refine ⟨⟨hdesired'.trans hdesired, htransport'.trans htransport⟩, ?_⟩
    rw [hlog, sequenceNumbers_snoc rfl, hnumbers]
  | @write n emission transport out hok hat _ =>
    have hpassive : s.isPassive (.advance n out) = true := hok
    simp only [isPassive, hat, htransport] at hpassive
    exact nomatch hpassive
  | greet htransport' _ => exact nomatch htransport.symm.trans htransport'
  | answer _ htransport' _ => exact nomatch htransport.symm.trans htransport'
  | acknowledge htransport' _ _ => exact nomatch htransport.symm.trans htransport'
  | overhear _ htransport' => exact nomatch htransport.symm.trans htransport'
  | expireHello _ _ => exact ⟨⟨hdesired, htransport⟩, (sequenceNumbers_snoc rfl).trans hnumbers⟩
  | expire _ _ => exact ⟨⟨hdesired, htransport⟩, (sequenceNumbers_snoc rfl).trans hnumbers⟩
  | unwritten _ _ _ _ => exact ⟨⟨hdesired, htransport⟩, (sequenceNumbers_snoc rfl).trans hnumbers⟩
  | _ => exact ⟨⟨hdesired, htransport⟩, hnumbers⟩

theorem SessionState.IsResting.step (h : s.IsResting) {e : SessionEvent} (hs : SessionState.step o s e = some s') :
    s'.IsResting := by
  have hmoves : Moves.Runs o Anyhow s s' := Moves.step h.1 trivial hs
  refine ⟨Moves.invariant hmoves h.1 fun _ _ hnew hm => hm.isNew hnew, ?_⟩
  exact Moves.invariant (I := fun s => s.desired = false → s.transport = none) hmoves h.2 fun _ _ hrest hm => hm.isResting hrest

/-- A session that is not wanted stays so, and writes nothing. -/
theorem SessionState.IsResting.still (h : s.IsResting) (hdesired : s.desired = false) {e : SessionEvent}
    (hpassive : s.isPassive e = true) (hs : SessionState.step o s e = some s') : s'.IsStill (sequenceNumbers s.log) := by
  have hmoves : Moves.Runs o Passively s s' := Moves.step h.1 hpassive hs
  exact Moves.invariant (I := IsStill (sequenceNumbers s.log)) hmoves ⟨⟨hdesired, h.2 hdesired⟩, rfl⟩
    fun _ _ hstill hm => hm.isStill hstill

/-! ## Runs that a stop has overtaken -/

def Run.isEarly : Run → Bool
  | .observe (.start ..) | .observe (.emit _) | .observe .showMessage => false
  | .observe _ | .emitIfRegistered (.realpath _) => true
  | _ => false

def Run.isClearing : Run → Bool
  | .stop (.update _ keys) => decide (keys < 3)
  | _ => false

/-- A stop has cleared the mapping, and `observe` was not invoked since. -/
def isQuiet (log : List ExtensionEntry) : Bool :=
  log.foldl (fun quiet entry => match entry with
    | .cleared _ => true
    | .observed _ => false
    | _ => quiet) false

def clearedSince (n : Nat) (log : List ExtensionEntry) : Bool :=
  log.foldl (fun cleared entry => match entry with
    | .cleared _ => true
    | .observed m | .changed m => if m = n then false else cleared
    | _ => cleared) false

def starts (log : List ExtensionEntry) : List Nat :=
  log.filterMap fun
    | .started n => some n
    | _ => none

namespace ExtensionState
variable (crates : Crates) (s : ExtensionState)

/-- A stop is clearing the mapping, or has cleared it since the run began. -/
def overtaken (n : Nat) : Bool := (List.range s.count).any (fun m => (s.runs m).isClearing) || clearedSince n s.log

/-- The run stores a key or starts the session when it goes on. -/
def acts (n : Nat) (finding : Finding) : Bool :=
  match s.runs n with
  | .observe (.workspaceMapping _) | .observe (.setContext _) => ! finding.rejected
  | .observe (.update _ keys) => ! finding.rejected && (keys == 1 || keys == 2)
  | .emitIfRegistered (.realpath mapping) =>
    ! (finding.rejected || canonicalUrlHash crates ("file://" ++ finding.path) != mapping.pathHash)
  | _ => false

def undisturbed : ExtensionEvent → Bool
  | .resume n finding => ! (s.acts crates n finding && s.overtaken n)
  | .session e => s.session.isPassive e
  | _ => true

abbrev Undisturbed (s : ExtensionState) (e : ExtensionEvent) : Prop := s.undisturbed crates e = true

/-- What a run can do when it goes on. -/
inductive Resumes (o : VscodeAdapterSessionOptions) (s : ExtensionState) (n : Nat) (finding : Finding) : ExtensionState → Prop
  | on {run : Run} (hearly : run.isEarly = true → (s.runs n).isEarly = true) (hclearing : run.isClearing = false) :
      Resumes o s n finding (s.setRun n run)
  | store {s' : ExtensionState} {run : Run} (hacts : s.acts crates n finding = true) (hearly : (s.runs n).isEarly = true)
      (hsession : s'.session = s.session) (hlog : s'.log = s.log) (hcount : s'.count = s.count) (hruns : s'.runs = s.runs)
      (hclearing : run.isClearing = false) : Resumes o s n finding (s'.setRun n run)
  | start {run : Run} (hacts : s.acts crates n finding = true) (hearly : (s.runs n).isEarly = true)
      (hlate : run.isEarly = false) (hclearing : run.isClearing = false) :
      Resumes o s n finding ((s.startSession o n finding.out).setRun n run)
  | send {run : Run} (mapping : WorkspaceMapping) (hlate : run.isEarly = false) (hclearing : run.isClearing = false) :
      Resumes o s n finding ((s.sendWorkspaceEvent mapping finding).1.setRun n run)
  | unscope {scopeId : Option String} (hat : s.runs n = .stop (.update scopeId 1)) :
      Resumes o s n finding ((s.setScopeId none).setRun n (.stop (.update scopeId 2)))
  | clear {scopeId : Option String} (hat : s.runs n = .stop (.update scopeId 2)) :
      Resumes o s n finding (((s.setPathHash none).record (.cleared n)).setRun n (.stop (.update scopeId 3)))

variable {crates} {s} {s' : ExtensionState} {n : Nat} {finding : Finding}

theorem resumeObserve_cases {stage : ObserveStage} (hat : s.runs n = .observe stage)
    (hs : s.resumeObserve crates o n finding stage = some s') : Resumes crates o s n finding s' := by
  have hend : Resumes crates o s n finding (s.setRun n .ended) := .on (fun h => nomatch h) rfl
  unfold resumeObserve at hs
  split at hs
  · rw [← Option.some.inj hs]
    exact .on (fun _ => by rw [hat]; rfl) (by split_ifs <;> rfl)
  · rw [← Option.some.inj hs]
    exact .on (fun _ => by rw [hat]; rfl) (by split_ifs <;> rfl)
  · split_ifs at hs
    · exact Option.some.inj hs ▸ hend
    · split at hs
      · exact Option.some.inj hs ▸ .on (fun _ => by rw [hat]; rfl) rfl
      · exact Option.some.inj hs ▸ hend
  · split_ifs at hs with hrejected
    · exact Option.some.inj hs ▸ hend
    -- the first key of the mapping is stored
    · have hacts : s.acts crates n finding = true := by simp [acts, hat, hrejected]
      exact Option.some.inj hs ▸ .store hacts (by rw [hat]; rfl) rfl rfl rfl rfl rfl
  · split_ifs at hs with hrejected hone htwo
    · exact Option.some.inj hs ▸ hend
    · have hacts : s.acts crates n finding = true := by simp [acts, hat, hrejected, hone]
      exact Option.some.inj hs ▸ .store hacts (by rw [hat]; rfl) rfl rfl rfl rfl rfl
    · have hacts : s.acts crates n finding = true := by simp [acts, hat, hrejected, htwo]
      exact Option.some.inj hs ▸ .store hacts (by rw [hat]; rfl) rfl rfl rfl rfl rfl
    · exact Option.some.inj hs ▸ .on (fun _ => by rw [hat]; rfl) rfl
  · split_ifs at hs with hrejected
    · exact Option.some.inj hs ▸ hend
    · have hacts : s.acts crates n finding = true := by simp [acts, hat, hrejected]
      exact Option.some.inj hs ▸ .start hacts (by rw [hat]; rfl) rfl rfl
  -- the event follows once the session has started
  · rename_i mapping call
    split at hs
    · split at hs
      · rename_i s₁ call' hsent
        have hsend : Resumes crates o s n finding ((s.sendWorkspaceEvent mapping finding).1.setRun n (.observe (.emit call'))) :=
          .send mapping rfl rfl
        rw [hsent] at hsend
        exact Option.some.inj hs ▸ hsend
      · rename_i s₁ hsent
        have hsend : Resumes crates o s n finding ((s.sendWorkspaceEvent mapping finding).1.setRun n (.observe .showMessage)) :=
          .send mapping rfl rfl
        rw [hsent] at hsend
        exact Option.some.inj hs ▸ hsend
    · exact Option.some.inj hs ▸ hend
    · exact nomatch hs
  · split at hs
    · exact Option.some.inj hs ▸ .on (fun h => nomatch h) rfl
    · exact Option.some.inj hs ▸ hend
    · exact nomatch hs
  · exact Option.some.inj hs ▸ hend

theorem resumeEmit_cases {stage : EmitStage} (hat : s.runs n = .emitIfRegistered stage)
    (hs : s.resumeEmit crates o n finding stage = some s') : Resumes crates o s n finding s' := by
  have hend : Resumes crates o s n finding (s.setRun n .ended) := .on (fun h => nomatch h) rfl
  unfold resumeEmit at hs
  split at hs
  · split_ifs at hs with hrefused
    · exact Option.some.inj hs ▸ hend
    · have hacts : s.acts crates n finding = true := by simpa [acts, hat] using hrefused
      exact Option.some.inj hs ▸ .start hacts (by rw [hat]; rfl) rfl rfl
  · rename_i mapping call
    split at hs
    · split at hs
      · rename_i s₁ call' hsent
        have hsend : Resumes crates o s n finding
            ((s.sendWorkspaceEvent mapping finding).1.setRun n (.emitIfRegistered (.emit call'))) := .send mapping rfl rfl
        rw [hsent] at hsend
        exact Option.some.inj hs ▸ hsend
      · rename_i s₁ hsent
        have hsend : Resumes crates o s n finding ((s.sendWorkspaceEvent mapping finding).1.setRun n .ended) :=
          .send mapping rfl rfl
        rw [hsent] at hsend
        exact Option.some.inj hs ▸ hsend
    · exact Option.some.inj hs ▸ hend
    · exact nomatch hs
  · obtain ⟨-, -, rfl⟩ := Option.map_eq_some_iff.mp hs
    exact hend

theorem resumeStop_cases {stage : StopStage} (hat : s.runs n = .stop stage) :
    Resumes crates o s n finding (s.resumeStop n finding stage) := by
  have hend : Resumes crates o s n finding (s.setRun n .ended) := .on (fun h => nomatch h) rfl
  unfold resumeStop
  split
  · rename_i scopeId keys
    split_ifs with hrejected hone htwo
    · exact hend
    · subst hone
      exact .unscope hat
    · subst htwo
      exact .clear hat
    · exact .on (fun h => nomatch h) rfl
  · split_ifs
    · exact hend
    all_goals exact .on (fun h => nomatch h) rfl
  · split_ifs
    · exact hend
    · exact .on (fun h => nomatch h) rfl
  · exact hend

theorem resume_cases (hs : s.resume crates o n finding = some s') : Resumes crates o s n finding s' := by
  unfold resume at hs
  split at hs
  · rename_i hat
    exact resumeObserve_cases hat hs
  · rename_i hat
    exact resumeEmit_cases hat hs
  · rename_i hat
    exact Option.some.inj hs ▸ resumeStop_cases hat
  all_goals exact nomatch hs

end ExtensionState

/-! ## Calm -/

theorem isQuiet_append (log more : List ExtensionEntry) : isQuiet (log ++ more) =
    more.foldl (fun quiet entry => match entry with | .cleared _ => true | .observed _ => false | _ => quiet) (isQuiet log) :=
  List.foldl_append

theorem clearedSince_append (n : Nat) (log more : List ExtensionEntry) : clearedSince n (log ++ more) =
    more.foldl (fun cleared entry => match entry with
      | .cleared _ => true
      | .observed m | .changed m => if m = n then false else cleared
      | _ => cleared) (clearedSince n log) := List.foldl_append

/-- While a stop is at work and after it, the session is not wanted and the mapping is not complete. -/
structure Calm (session : SessionState) (resourceId : Option String) (count : Nat) (runs : Nat → Run)
    (log : List ExtensionEntry) : Prop where
  resting : session.IsResting
  made : ∀ n, runs n ≠ .absent → n < count
  clearing : ∀ n, (runs n).isClearing = true → session.desired = false ∧ resourceId = none
  quiet : isQuiet log = true → session.desired = false ∧ resourceId = none
  early : isQuiet log = true → ∀ n, (runs n).isEarly = true → clearedSince n log = true

namespace Calm
variable {session session' : SessionState} {resourceId resourceId' : Option String} {count n : Nat} {runs : Nat → Run}
  {run : Run} {log : List ExtensionEntry}

theorem setRun (h : Calm session resourceId count runs log) (hlt : n < count)
    (hearly : run.isEarly = true → (runs n).isEarly = true)
    (hclearing : run.isClearing = true → session.desired = false ∧ resourceId = none) :
    Calm session resourceId count (Function.update runs n run) log where
  resting := h.resting
  made := by
    intro m hm
    by_cases hmn : m = n
    · exact hmn ▸ hlt
    · rw [Function.update_of_ne hmn] at hm
      exact h.made m hm
  clearing := by
    intro m hm
    by_cases hmn : m = n
    · subst hmn
      rw [Function.update_self] at hm
      exact hclearing hm
    · rw [Function.update_of_ne hmn] at hm
      exact h.clearing m hm
  quiet := h.quiet
  early := by
    intro hquiet m hm
    by_cases hmn : m = n
    · subst hmn
      rw [Function.update_self] at hm
      exact h.early hquiet m (hearly hm)
    · rw [Function.update_of_ne hmn] at hm
      exact h.early hquiet m hm

theorem setSession (h : Calm session resourceId count runs log) (hresting : session'.IsResting)
    (hdesired : session.desired = false → session'.desired = false) : Calm session' resourceId count runs log :=
  { h with
    resting := hresting
    clearing := fun n hn => ⟨hdesired (h.clearing n hn).1, (h.clearing n hn).2⟩
    quiet := fun hquiet => ⟨hdesired (h.quiet hquiet).1, (h.quiet hquiet).2⟩ }

/-- Where no stop is at work and it is not quiet, there is nothing to keep. -/
theorem anew (h : Calm session resourceId count runs log) (hfree : ∀ m, (runs m).isClearing = false)
    {log' : List ExtensionEntry} (hquiet : isQuiet log' = false) (hresting : session'.IsResting) :
    Calm session' resourceId' count runs log' where
  resting := hresting
  made := h.made
  clearing := fun n hn => nomatch (hfree n).symm.trans hn
  quiet := fun hq => nomatch hquiet.symm.trans hq
  early := fun hq => nomatch hquiet.symm.trans hq

theorem stop (h : Calm session resourceId count runs log) (hresting : session'.IsResting) (hdesired : session'.desired = false)
    (hlate : run.isEarly = false) : Calm session' none (count + 1) (Function.update runs count run) (log ++ [.stopped count]) := by
  have hquiet : isQuiet (log ++ [.stopped count]) = isQuiet log := isQuiet_append ..
  have hstopped : Calm session' none (count + 1) runs (log ++ [.stopped count]) := by
    refine ⟨hresting, fun n hn => Nat.lt_succ_of_lt (h.made n hn), fun _ _ => ⟨hdesired, rfl⟩, fun _ => ⟨hdesired, rfl⟩, ?_⟩
    intro hq n hn
    rw [clearedSince_append]
    exact h.early (hquiet ▸ hq) n hn
  exact hstopped.setRun (Nat.lt_succ_self count) (fun he => nomatch hlate.symm.trans he) fun _ => ⟨hdesired, rfl⟩

theorem clear (h : Calm session resourceId count runs log) (hclearing : (runs n).isClearing = true) :
    Calm session resourceId count runs (log ++ [.cleared n]) := by
  refine ⟨h.resting, h.made, h.clearing, fun _ => h.clearing n hclearing, ?_⟩
  intro _ m _
  exact clearedSince_append ..

theorem observe (h : Calm session resourceId count runs log) (hclearing : run.isClearing = false) :
    Calm session resourceId (count + 1) (Function.update runs count run) (log ++ [.observed count]) := by
  have hquiet : isQuiet (log ++ [.observed count]) = false := isQuiet_append ..
  have hnone : isQuiet (log ++ [.observed count]) ≠ true := by
    rw [hquiet]
    exact Bool.false_ne_true
  refine ⟨h.resting, ?_, ?_, fun hq => absurd hq hnone, fun hq => absurd hq hnone⟩
  · intro m hm
    by_cases hmc : m = count
    · exact hmc ▸ Nat.lt_succ_self count
    · rw [Function.update_of_ne hmc] at hm
      exact Nat.lt_succ_of_lt (h.made m hm)
  · intro m hm
    by_cases hmc : m = count
    · subst hmc
      rw [Function.update_self, hclearing] at hm
      exact nomatch hm
    · rw [Function.update_of_ne hmc] at hm
      exact h.clearing m hm

theorem change (h : Calm session resourceId count runs log) (hclearing : run.isClearing = false)
    (hrun : resourceId = none → run.isEarly = false) :
    Calm session resourceId (count + 1) (Function.update runs count run) (log ++ [.changed count]) := by
  have hquiet : isQuiet (log ++ [.changed count]) = isQuiet log := isQuiet_append ..
  refine ⟨h.resting, ?_, ?_, fun hq => h.quiet (hquiet ▸ hq), ?_⟩
  · intro m hm
    by_cases hmc : m = count
    · exact hmc ▸ Nat.lt_succ_self count
    · rw [Function.update_of_ne hmc] at hm
      exact Nat.lt_succ_of_lt (h.made m hm)
  · intro m hm
    by_cases hmc : m = count
    · subst hmc
      rw [Function.update_self, hclearing] at hm
      exact nomatch hm
    · rw [Function.update_of_ne hmc] at hm
      exact h.clearing m hm
  · intro hq m hm
    rw [hquiet] at hq
    by_cases hmc : m = count
    · subst hmc
      rw [Function.update_self, hrun (h.quiet hq).2] at hm
      exact nomatch hm
    · rw [Function.update_of_ne hmc] at hm
      have hsame : clearedSince m (log ++ [.changed count]) = clearedSince m log := by
        rw [clearedSince_append]
        exact if_neg (Ne.symm hmc)
      rw [hsame]
      exact h.early hq m hm

end Calm

/-! ## Steps -/

namespace ExtensionState
variable {crates : Crates} {s s' : ExtensionState} {n : Nat} {finding : Finding} {e : ExtensionEvent}

abbrev IsCalm (s : ExtensionState) : Prop := Calm s.session s.resourceId s.count s.runs s.log

/-- A run that was not overtaken acts while no stop is at work, and not in the quiet after one. -/
theorem IsCalm.free (h : s.IsCalm) (hok : s.undisturbed crates (.resume n finding) = true)
    (hacts : s.acts crates n finding = true) (hearly : (s.runs n).isEarly = true) :
    (∀ m, (s.runs m).isClearing = false) ∧ isQuiet s.log = false := by
  have hfree : s.overtaken n = false := by simpa [undisturbed, hacts] using hok
  obtain ⟨hstops, hcleared⟩ := Bool.or_eq_false_iff.mp hfree
  constructor
  · intro m
    by_cases hm : m < s.count
    · have hnot := List.any_eq_false.mp hstops m (List.mem_range.mpr hm)
      simpa using hnot
    · have habsent : s.runs m = .absent := by
        by_contra hne
        exact hm (h.made m hne)
      rw [habsent]
      rfl
  · apply Bool.eq_false_iff.mpr
    intro hquiet
    exact nomatch (h.early hquiet n hearly).symm.trans hcleared

theorem IsCalm.send (h : s.IsCalm) (mapping : WorkspaceMapping) (finding : Finding) :
    (s.sendWorkspaceEvent mapping finding).1.IsCalm := by
  unfold sendWorkspaceEvent
  split_ifs
  · exact h
  · have hresting : (s.session.emitWorkspaceOpened mapping.resourceId finding.later).IsResting :=
      h.resting.step (o := ⟨0, fun _ => none⟩) (e := .emitWorkspaceOpened mapping.resourceId finding.later) rfl
    exact h.setSession hresting fun hd => (emitWorkspaceOpened_frame ..).1.trans hd

theorem IsCalm.resume (h : s.IsCalm) (hok : s.undisturbed crates (.resume n finding) = true)
    (hs : s.resume crates o n finding = some s') : s'.IsCalm := by
  have hlt : n < s.count := by
    apply h.made n
    intro habsent
    rw [ExtensionState.resume, habsent] at hs
    exact nomatch hs
  cases resume_cases hs with
  | on hearly hclearing => exact h.setRun hlt hearly fun hc => nomatch hclearing.symm.trans hc
  | @store s₁ run hacts hearly hsession hlog hcount hruns hclearing =>
    -- no stop is at work and the log is not quiet, so that a new key breaks nothing
    obtain ⟨hfree, hquiet⟩ := h.free hok hacts hearly
    have hstored : s₁.IsCalm := by
      rw [IsCalm, hsession, hlog, hcount, hruns]
      exact h.anew hfree hquiet h.resting
    apply hstored.setRun (hcount ▸ hlt) (fun _ => hruns ▸ hearly) fun hc => nomatch hclearing.symm.trans hc
  | @start run hacts hearly hlate hclearing =>
    obtain ⟨hfree, hquiet⟩ := h.free hok hacts hearly
    have hresting : (s.session.start o finding.out).IsResting := h.resting.step (o := o) (e := .start finding.out) rfl
    have hstill : isQuiet (s.log ++ [.started n]) = false := (isQuiet_append ..).trans hquiet
    have hstarted : (s.startSession o n finding.out).IsCalm := h.anew hfree hstill hresting
    exact hstarted.setRun hlt (fun he => nomatch hlate.symm.trans he) fun hc => nomatch hclearing.symm.trans hc
  | @send run mapping hlate hclearing =>
    have hlt' : n < (s.sendWorkspaceEvent mapping finding).1.count := by
      unfold sendWorkspaceEvent
      split_ifs <;> exact hlt
    exact (h.send mapping finding).setRun hlt' (fun he => nomatch hlate.symm.trans he)
      fun hc => nomatch hclearing.symm.trans hc
  | unscope hat => exact h.setRun hlt (fun he => nomatch he) fun _ => h.clearing n (by rw [hat]; rfl)
  | clear hat =>
    have hclearing : (s.runs n).isClearing = true := by
      rw [hat]
      rfl
    exact (h.clear hclearing).setRun hlt (fun he => nomatch he) fun _ => h.clearing n hclearing

theorem IsCalm.step (h : s.IsCalm) (hok : s.undisturbed crates e = true) (hs : ExtensionState.step crates o s e = some s') :
    s'.IsCalm := by
  cases e with
  | observe hasFolder =>
    rw [← Option.some.inj hs]
    apply h.observe
    split_ifs <;> rfl
  | workspaceFoldersChanged hasFolder =>
    rw [← Option.some.inj hs]
    apply h.change
    · split <;> rfl
    · intro hnone
      have hmapping : s.mapping? = none := by
        unfold mapping?
        rw [hnone]
      rw [hmapping]
      cases hasFolder <;> rfl
  | stop =>
    have hresting : s.session.stop.IsResting := h.resting.step (o := o) (e := .stop) rfl
    exact Option.some.inj hs ▸ h.stop hresting (stop_desired s.session) rfl
  | resume n finding => exact h.resume hok hs
  | session e =>
    simp only [ExtensionState.step] at hs
    split_ifs at hs
    obtain ⟨session, hsession, rfl⟩ := Option.map_eq_some_iff.mp hs
    exact h.setSession (h.resting.step hsession) fun hdesired => (h.resting.still hdesired hok hsession).1.1

theorem starts_append (log more : List ExtensionEntry) : starts (log ++ more) = starts log ++ starts more :=
  List.filterMap_append

end ExtensionState

/-- The session is not wanted, and a step neither writes an event nor starts it. -/
structure StaysQuiet (s s' : ExtensionState) : Prop where
  unwanted : s.session.desired = false ∧ s'.session.desired = false
  unwritten : sequenceNumbers s'.session.log = sequenceNumbers s.session.log
  unstarted : starts s'.log = starts s.log

open ExtensionState

variable {crates : Crates} {s s' : ExtensionState} {n : Nat} {finding : Finding} {e : ExtensionEvent} {instanceId : String}
  {resourceId scopeId pathHash : Option String}

theorem ExtensionState.IsCalm.resume_quiet (h : s.IsCalm) (hquiet : isQuiet s.log = true)
    (hok : s.undisturbed crates (.resume n finding) = true) (hs : s.resume crates o n finding = some s') : StaysQuiet s s' := by
  have hdesired := (h.quiet hquiet).1
  cases resume_cases hs with
  | on _ _ => exact ⟨⟨hdesired, hdesired⟩, rfl, rfl⟩
  | store hacts hearly _ _ _ _ _ => exact nomatch hquiet.symm.trans (h.free hok hacts hearly).2
  | start hacts hearly _ _ => exact nomatch hquiet.symm.trans (h.free hok hacts hearly).2
  | @send run mapping _ _ =>
    have hsent : StaysQuiet s (s.sendWorkspaceEvent mapping finding).1 := by
      unfold sendWorkspaceEvent
      split_ifs
      · exact ⟨⟨hdesired, hdesired⟩, rfl, rfl⟩
      · exact ⟨⟨hdesired, (emitWorkspaceOpened_frame ..).1.trans hdesired⟩, sequenceNumbers_emitWorkspaceOpened .., rfl⟩
    exact ⟨hsent.unwanted, hsent.unwritten, hsent.unstarted⟩
  | unscope _ => exact ⟨⟨hdesired, hdesired⟩, rfl, rfl⟩
  | clear _ => exact ⟨⟨hdesired, hdesired⟩, rfl, (starts_append ..).trans (List.append_nil _)⟩

theorem reaches_isCalm (h : Reaches (step crates o) (.init (.init instanceId) resourceId scopeId pathHash) (ExtensionState.Undisturbed crates) s) :
    s.IsCalm := by
  apply h.invariant (I := IsCalm)
  · exact ⟨⟨fun _ _ => rfl, fun _ => rfl⟩, fun _ hne => absurd rfl hne, fun _ hc => (nomatch hc), fun hq => (nomatch hq),
      fun hq => nomatch hq⟩
  · exact fun s e s' hi hok hs => hi.step hok hs

/-- After a stop the extension stays quiet, until `observe` is invoked. -/
theorem stays_quiet (h : Reaches (step crates o) (.init (.init instanceId) resourceId scopeId pathHash) (ExtensionState.Undisturbed crates) s)
    (hquiet : isQuiet s.log = true) (hok : ExtensionState.Undisturbed crates s e) (hs : step crates o s e = some s') : StaysQuiet s s' := by
  have hcalm := reaches_isCalm h
  have hdesired := (hcalm.quiet hquiet).1
  cases e with
  | observe hasFolder =>
    rw [← Option.some.inj hs]
    exact ⟨⟨hdesired, hdesired⟩, rfl, (starts_append ..).trans (List.append_nil _)⟩
  | workspaceFoldersChanged hasFolder =>
    rw [← Option.some.inj hs]
    exact ⟨⟨hdesired, hdesired⟩, rfl, (starts_append ..).trans (List.append_nil _)⟩
  | stop =>
    have hstill : s.session.stop.IsStill (sequenceNumbers s.session.log) :=
      hcalm.resting.still (o := o) (e := .stop) hdesired rfl rfl
    rw [← Option.some.inj hs]
    exact ⟨⟨hdesired, hstill.1.1⟩, hstill.2, (starts_append ..).trans (List.append_nil _)⟩
  | resume n finding => exact hcalm.resume_quiet hquiet hok hs
  | session e =>
    simp only [ExtensionState.step] at hs
    split_ifs at hs
    obtain ⟨session, hsession, rfl⟩ := Option.map_eq_some_iff.mp hs
    have hstill := hcalm.resting.still hdesired hok hsession
    exact ⟨⟨hdesired, hstill.1.1⟩, hstill.2, rfl⟩

end Fubun.Vscode

namespace Fubun.Sample
open Vscode Encoding

def hashing : Crates :=
  { crates with
    sha256Hex := fun text =>
      if text = "file:///w" then "e7af091b5815cdb7bf4fd590d07f3b802107491b24e849e3d19caf91ad79d9c2"
      else crates.sha256Hex text }

def observedWorkspace : ExtensionState :=
  .init (.init "i") (some (adapterId '7')) (some (adapterId '8')) (some "e7af091b5815cdb7bf4fd590d07f3b802107491b24e849e3d19caf91ad79d9c2")

def found (path : String) (out : Outside) : Finding := ⟨false, path, none, none, 1700000000000, 1700000000000, out⟩

def stopped : List ExtensionEvent :=
  [.stop, .resume 0 (found "" ⟨"", true⟩), .resume 0 (found "" ⟨"", true⟩)]

/-- The folders change; a stop clears the mapping while the path is canonicalised; then the run goes on. -/
def overtakenRun : List ExtensionEvent :=
  [.workspaceFoldersChanged true, .stop, .resume 1 (found "" ⟨"", true⟩), .resume 1 (found "" ⟨"", true⟩),
    .resume 0 (found "/w" ⟨adapterId '1', true⟩), .session (.connect 0 ⟨"", true⟩),
    .session (.data 0 (framed (coreOk (adapterId '1') "adapter.hello_ack"))), .session (.proceed 0),
    .session (.advance 0 ⟨"", true⟩), .session (.advance 0 ⟨"", true⟩), .resume 0 (found "" ⟨"", true⟩),
    .session (.advance 1 ⟨"", true⟩)]

end Fubun.Sample

namespace Fubun.Vscode
open Concurrency.Machine ExtensionState

theorem stays_quiet_stopped : ∃ s s', Reaches (step Sample.hashing Sample.vscodeOptions) Sample.observedWorkspace
    (ExtensionState.Undisturbed Sample.hashing) s ∧ isQuiet s.log = true ∧
      step Sample.hashing Sample.vscodeOptions s (.workspaceFoldersChanged true) = some s' ∧ StaysQuiet s s' := by
  have hrun : ((execIf (step Sample.hashing Sample.vscodeOptions) (ExtensionState.Undisturbed Sample.hashing) Sample.observedWorkspace
      Sample.stopped).map fun s => isQuiet s.log) = some true := by
    decide +kernel
  obtain ⟨s, hs, hquiet⟩ := Option.map_eq_some_iff.mp hrun
  have hr := Reaches.init.execIf hs
  exact ⟨s, _, hr, hquiet, rfl, stays_quiet (e := .workspaceFoldersChanged true) hr hquiet rfl rfl⟩

/-- A run that the stop has overtaken starts the session, and then its event is written. -/
theorem events_after_stop : (¬ ∀ s e s', Reaches (step Sample.hashing Sample.vscodeOptions) Sample.observedWorkspace Anyhow s →
      isQuiet s.log = true → step Sample.hashing Sample.vscodeOptions s e = some s' → starts s'.log = starts s.log) ∧
    ¬ ∀ s e s', Reaches (step Sample.hashing Sample.vscodeOptions) Sample.observedWorkspace Anyhow s →
      isQuiet s.log = true → step Sample.hashing Sample.vscodeOptions s e = some s' →
        sequenceNumbers s'.session.log = sequenceNumbers s.session.log := by
  constructor
  · intro hall
    have hrun : ((exec (step Sample.hashing Sample.vscodeOptions) Sample.observedWorkspace (Sample.overtakenRun.take 4)).bind
        fun s => (step Sample.hashing Sample.vscodeOptions s (.resume 0 (Sample.found "/w" ⟨Sample.adapterId '1', true⟩))).map
          fun s' => (isQuiet s.log, starts s.log, starts s'.log)) = some (true, [], [0]) := by
      decide +kernel
    obtain ⟨s, hs, hstep⟩ := Option.bind_eq_some_iff.mp hrun
    obtain ⟨s', hs', heq⟩ := Option.map_eq_some_iff.mp hstep
    simp only [Prod.mk.injEq] at heq
    obtain ⟨hquiet, hbefore, hafter⟩ := heq
    have hsame := hall s _ s' (Reaches.init.exec hs) hquiet hs'
    rw [hbefore, hafter] at hsame
    exact nomatch hsame
  · intro hall
    have hrun : ((exec (step Sample.hashing Sample.vscodeOptions) Sample.observedWorkspace Sample.overtakenRun).bind
        fun s => (step Sample.hashing Sample.vscodeOptions s (.session (.advance 1 ⟨Sample.adapterId '2', true⟩))).map
          fun s' => (isQuiet s.log, sequenceNumbers s.session.log, sequenceNumbers s'.session.log)) =
        some (true, [], [1]) := by
      decide +kernel
    obtain ⟨s, hs, hstep⟩ := Option.bind_eq_some_iff.mp hrun
    obtain ⟨s', hs', heq⟩ := Option.map_eq_some_iff.mp hstep
    simp only [Prod.mk.injEq] at heq
    obtain ⟨hquiet, hbefore, hafter⟩ := heq
    have hsame := hall s _ s' (Reaches.init.exec hs) hquiet hs'
    rw [hbefore, hafter] at hsame
    exact nomatch hsame

end Fubun.Vscode

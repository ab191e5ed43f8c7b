import Fubun.Executions.Progress

/-! What goes out to the adapters, over whole runs of the daemon: every action behind the write that has
its step running, and no step's action twice. -/

namespace Fubun
open Relational Concurrency Program System

/-! ## The last write -/

section Dispatch
variable {τ : List (Answered Op.Res)} {o : Op} {r : o.Res} {ledger : Ledger} {before : Option Ledger} {step : ExecutionStep}

def written? : Answered Op.Res → Option ExecutionStep
  | ⟨.storage (.updateStep step), .ok _⟩ => some step
  | _ => none

def lastStep (τ : List (Answered Op.Res)) : Option ExecutionStep := (τ.filterMap written?).getLast?

@[simp] theorem lastStep_nil : lastStep [] = none := rfl

theorem lastStep_append (τ ν : List (Answered Op.Res)) : lastStep (τ ++ ν) = (lastStep ν).or (lastStep τ) := by
  rw [lastStep, List.filterMap_append, List.getLast?_append]
  rfl

theorem lastStep_snoc (τ : List (Answered Op.Res)) (x : Answered Op.Res) :
    lastStep (τ ++ [x]) = (written? x).or (lastStep τ) := by
  rw [lastStep_append]
  cases hx : written? x <;> simp [lastStep, hx]

/-- An operation begins a ledger, or it leaves the steps of one their ids and adds to what it notes. -/
theorem Ledger.enter_cases (h : Ledger.enter before ⟨o, r⟩ = some ledger) :
    (∃ steps u, (⟨o, r⟩ : Answered Op.Res) = ⟨.storage (.startExecution ledger.execution steps), .ok u⟩ ∧
      ledger.steps = steps ∧ ledger.written = none) ∨
    ∃ l, before = some l ∧ ledger.steps.map (·.id) = l.steps.map (·.id) ∧ l.dispatched ⊆ ledger.dispatched ∧
      ledger.written = (written? ⟨o, r⟩).or l.written := by
  unfold Ledger.enter at h
  split at h
  · rename_i execution steps u heq
    obtain rfl := Option.some.inj h
    exact .inl ⟨steps, u, heq, rfl, rfl⟩
  · rename_i l step u heq
    cases heq
    obtain rfl := Option.some.inj h
    exact .inr ⟨l, rfl, map_updateRows fun _ => rfl, List.Subset.refl _, rfl⟩
  · rename_i l execution r' heq
    cases heq
    obtain rfl := Option.some.inj h
    exact .inr ⟨l, rfl, rfl, List.Subset.refl _, rfl⟩
  · rename_i l action resolved timeout r' heq
    cases heq
    obtain rfl := Option.some.inj h
    exact .inr ⟨l, rfl, rfl, List.subset_append_left _ _, rfl⟩
  · rename_i l x _ hstep _ _
    refine .inr ⟨ledger, h, rfl, List.Subset.refl _, ?_⟩
    have hnone : written? ⟨o, r⟩ = none := by
      unfold written?
      split
      · rename_i step u heq
        exact (hstep ledger step u h heq).elim
      · rfl
    rw [hnone, Option.none_or]

theorem lastStep_of_written (hledger : ledgerOf τ = some ledger) (hwritten : ledger.written = some step) :
    lastStep τ = some step := by
  induction τ using List.reverseRecOn generalizing ledger with
  | nil => cases hledger
  | append_singleton τ x ih =>
    rw [ledgerOf_snoc] at hledger
    rcases Ledger.enter_cases hledger with ⟨steps, u, -, -, hnone⟩ | ⟨l, hl, -, -, heq⟩
    · cases hnone.symm.trans hwritten
    · rw [lastStep_snoc]
      rw [heq] at hwritten
      cases hx : written? x with
      | none =>
        rw [hx, Option.none_or] at hwritten
        exact ih hl hwritten
      | some last =>
        rw [hx, Option.some_or] at hwritten
        rw [Option.some_or]
        exact hwritten

end Dispatch

/-! ## Dispatches -/

section Runs
variable {crates : Crates} {i j : Nat} {now : Int} {instant : Nat} {files : Files} {path : String} {c c' : State}
  {ok : State → Concurrency.Event Nat Frame Choice Drift → Prop} {e : Concurrency.Event Nat Frame Choice Drift}
  {t : Thread Op Op.Res Frame Reply} {o : Op} {k : o.Res → Core Reply} {ch : Choice} {w w' : World} {step : ExecutionStep}

/-- What is known of a step whose action has gone out over a connection. -/
structure Sent (i : Nat) (step : ExecutionStep) (c : State) : Prop where
  owned : (step.id, i) ∈ c.world.issued
  stored : ∃ row ∈ c.world.db.executionSteps, row.id = step.id
  noted : ∀ t ledger, c.threads i = some t → ledgerOf t.trace = some ledger →
    step.id ∈ ledger.steps.map (·.id) → step.id ∈ ledger.dispatched

theorem Sent.stored_step (h : (daemon crates).Reaches (World.start now instant files path) ok c)
    (hs : (daemon crates).Step c e c') (hsent : Sent i step c) : ∃ row ∈ c'.world.db.executionSteps, row.id = step.id := by
  obtain ⟨row, hrow, hid⟩ := hsent.stored
  obtain ⟨row', hrow', hid', -⟩ := (step_since h hs).steps row hrow
  exact ⟨row', hrow', hid'.trans hid⟩

theorem Sent.stays (h : (daemon crates).Reaches (World.start now instant files path) ok c) (hs : (daemon crates).Step c e c')
    (hsent : Sent i step c) : Sent i step c' := by
  have hstored := hsent.stored_step h hs
  cases hs with
  | @arrive j q =>
    refine ⟨hsent.owned, hstored, fun t ledger ht hledger => ?_⟩
    by_cases hj : i = j
    · subst hj
      rw [Config.arrived_threads_self] at ht
      obtain rfl := Option.some.inj ht
      cases hledger
    · rw [Config.arrived_threads_ne hj] at ht
      exact hsent.noted t ledger ht hledger
  | @call j u o k ch r w hu hrest hact =>
    refine ⟨act_issued_mono hact _ hsent.owned, hstored, fun t ledger ht hledger hmem => ?_⟩
    by_cases hj : i = j
    · subst hj
      rw [Config.called_threads_self] at ht
      obtain rfl := Option.some.inj ht
      rw [ledgerOf_snoc] at hledger
      rcases Ledger.enter_cases hledger with ⟨steps, u', hx, rfl, -⟩ | ⟨l, hl, hids, hsubset, -⟩
      · -- the steps of a start are not stored before it
        cases hx
        obtain ⟨s, hs, hsid⟩ := List.mem_map.mp hmem
        obtain ⟨row, hrow, hid⟩ := hsent.stored
        have hp : Startable i c.world _ _ := reaches_permitted h hu hrest hact
        have hnone := (hp.drawn s hs).2.2
        have hin := mem_slice_step.mpr ⟨hrow, hid.trans hsid.symm⟩
        rw [hnone] at hin
        cases hin
      · exact hsubset (hsent.noted u l hu hl (hids ▸ hmem))
    · rw [Config.called_threads_ne hj] at ht
      exact hsent.noted t ledger ht hledger hmem
  | @answer j u a hu hrest =>
    refine ⟨hsent.owned, hstored, fun t ledger ht hledger => ?_⟩
    by_cases hj : i = j
    · subst hj
      rw [Config.answered_threads_self] at ht
      cases ht
    · rw [Config.answered_threads_ne hj] at ht
      exact hsent.noted t ledger ht hledger
  | @drift e =>
    refine ⟨?_, hstored, hsent.noted⟩
    rw [Config.drifted_world, show ((daemon crates).drift e c.world).issued = _ from drift_issued e]
    exact hsent.owned
  | restart => exact ⟨hsent.owned, hstored, fun t ledger ht => by cases ht⟩

/-- The task of a connection at a dispatch: its step is the last one written, and stands in the ledger
behind those whose actions have gone out. -/
theorem dispatch_ledger (h : (daemon crates).Reaches (World.start now instant files path) ok c) (ht : c.threads i = some t)
    {action : ActionSpec} {resolved : Option ResolvedResource} {timeout : Nat}
    {k : (Op.execute action resolved timeout).Res → Core Reply} (hrest : t.rest = .call (.execute action resolved timeout) k) :
    ∃ ledger step, ledgerOf t.trace = some ledger ∧ ledger.written = some step ∧ lastStep (callsOf i c.log) = some step ∧
      step.status = .running ∧ step.actionType = action.actionType ∧ ledger.Kept i c.world ∧
      ∃ done row later, ledger.Sends step done row later := by
  obtain ⟨ledger, step, hledger, -, hwritten, hrunning, htype, hsends⟩ := reaches_inTurn h ht hrest
  have hkept := reaches_booked h ht ledger hledger
  obtain ⟨earlier, later, hlog, htrace, -⟩ := h.serving ht
  have hlast : lastStep (callsOf i c.log) = some step := by
    rw [hlog, callsOf_append, callsOf_arrive, htrace, lastStep_append, lastStep_of_written hledger hwritten]
    rfl
  exact ⟨ledger, step, hledger, hwritten, hlast, hrunning, htype, hkept, hsends (hkept.keyed (reaches_owned h).1)⟩

theorem Ledger.Kept.owner {ledger : Ledger} (h : ledger.Kept i w) (hw : Owned w) {row : ExecutionStep}
    (hrow : row ∈ ledger.steps) : (row.id, i) ∈ w.issued := by
  obtain ⟨hmem, hexecution⟩ := h.mem_steps.mp hrow
  obtain ⟨j, hid, hj⟩ := hw.steps row hmem
  rw [hexecution] at hj
  exact hw.owner hj h.owned ▸ hid

theorem reaches_sent (h : (daemon crates).Reaches (World.start now instant files path) ok c)
    {before after : List (Label Nat Op.Res Frame Reply)} {action : ActionSpec} {resolved : Option ResolvedResource}
    {timeout : Nat} {r : (Op.execute action resolved timeout).Res}
    (hlog : c.log = before ++ .call i (.execute action resolved timeout) r :: after) :
    ∃ step, lastStep (callsOf i before) = some step ∧ step.status = .running ∧ step.actionType = action.actionType ∧
      Sent i step c := by
  induction h generalizing after with
  | init =>
    have hnil : ([] : List (Label Nat Op.Res Frame Reply)) = _ := hlog
    simp at hnil
  | @step c c' e hc _ hs ih =>
    obtain ⟨l, hl⟩ := hs.log
    rcases split_snoc (hl.symm.trans hlog) with ⟨rfl, rfl, rfl⟩ | ⟨after', rfl, hearlier⟩
    · -- the dispatch is the last step of the run
      obtain ⟨t, k, ch, rfl, ht, hrest, hact⟩ := hs.call_of_log hl
      obtain ⟨ledger, step, hledger, hwritten, hlast, hrunning, htype, hkept, done, row, later, hsends⟩ :=
        dispatch_ledger hc ht hrest
      have hrow : row ∈ ledger.steps := hsends.steps ▸ List.mem_append_right _ List.mem_cons_self
      have hstored := step_since hc hs
      refine ⟨step, hlast, hrunning, htype, ?_, ?_, ?_⟩
      · have hact' : World.act crates i (.execute action resolved timeout) ch c.world = some (r, c'.world) := hact
        rw [← hsends.id]
        exact act_issued_mono hact' _ (hkept.owner (reaches_owned hc).1 hrow)
      · obtain ⟨row', hrow', hid, -⟩ := hstored.steps row (hkept.mem_steps.mp hrow).1
        exact ⟨row', hrow', hid.trans hsends.id⟩
      · intro t' ledger' ht' hledger' _
        cases hs with
        | @call _ u o' k' _ r' w hu hrest' hact' =>
          obtain rfl := Option.some.inj (ht.symm.trans hu)
          obtain ⟨rfl, -⟩ := Program.call.inj (hrest.symm.trans hrest')
          rw [Config.called_threads_self] at ht'
          obtain rfl := Option.some.inj ht'
          rw [ledgerOf_snoc, hledger] at hledger'
          obtain rfl := Option.some.inj hledger'
          simp [hwritten]
    · obtain ⟨step, hlast, hrunning, htype, hsent⟩ := ih hearlier
      exact ⟨step, hlast, hrunning, htype, hsent.stays hc hs⟩

/-- An action goes out behind the committed write that has its step running, and no step sends its
action out twice, whatever fails and however often the daemon starts again. -/
theorem dispatched_once (h : (daemon crates).Reaches (World.start now instant files path) ok c)
    {before after : List (Label Nat Op.Res Frame Reply)} {action : ActionSpec} {resolved : Option ResolvedResource}
    {timeout : Nat} {r : (Op.execute action resolved timeout).Res}
    (hlog : c.log = before ++ .call i (.execute action resolved timeout) r :: after) :
    ∃ step, lastStep (callsOf i before) = some step ∧ step.status = .running ∧ step.actionType = action.actionType ∧
      ∀ before' after' j action' resolved' timeout' r', before = before' ++ .call j (.execute action' resolved' timeout') r' :: after' →
        ∃ step', lastStep (callsOf j before') = some step' ∧ step'.id ≠ step.id := by
  obtain ⟨d, d', t, k, ch, hd, rfl, -, ht, hrest, hact, -, -⟩ := h.split_call hlog
  obtain ⟨ledger, step, hledger, -, hlast, hrunning, htype, hkept, done, row, later, hsends⟩ := dispatch_ledger hd ht hrest
  refine ⟨step, hlast, hrunning, htype, ?_⟩
  intro before' after' j action' resolved' timeout' r' hbefore
  obtain ⟨step', hlast', -, -, hsent⟩ := reaches_sent hd hbefore
  refine ⟨step', hlast', fun hid => ?_⟩
  have hw := (reaches_owned hd).1
  have hkeyed := hkept.keyed hw
  have hrow : row ∈ ledger.steps := hsends.steps ▸ List.mem_append_right _ List.mem_cons_self
  -- the two steps are one row, and so is their connection
  have howned := hkept.owner hw hrow
  rw [hsends.id, ← hid] at howned
  obtain rfl := hw.owner hsent.owned howned
  have hout : step'.id ∈ ledger.dispatched := by
    refine hsent.noted t ledger ht hledger ?_
    rw [hid, ← hsends.id]
    exact List.mem_map_of_mem hrow
  rw [hsends.dispatched, hid, ← hsends.id] at hout
  rw [Keyed, hsends.steps, List.map_append, List.map_cons, List.nodup_append] at hkeyed
  exact hkeyed.2.2 row.id hout row.id List.mem_cons_self rfl

def Sample.dispatches : Label Nat Op.Res Frame Reply → Bool
  | .call 0 (.execute ..) _ => true
  | _ => false

theorem dispatched_once_between : ∃ c before after action resolved timeout r step,
    (daemon Sample.bothCrates).Reaches Sample.world Anywhere c ∧
    c.log = before ++ .call 0 (.execute action resolved timeout) r :: after ∧
    lastStep (callsOf 0 before) = some step ∧ step.status = .running := by
  have hrun : (Sample.execBoth Sample.between).map (fun c => c.log.any Sample.dispatches) = some true := by decide +kernel
  obtain ⟨c, hc, hany⟩ := Option.map_eq_some_iff.mp hrun
  obtain ⟨l, hl, hexecute⟩ := List.any_eq_true.mp hany
  have hreach := System.Reaches.init.exec hc
  unfold Sample.dispatches at hexecute
  split at hexecute
  · rename_i action resolved timeout r
    obtain ⟨before, after, hlog⟩ := List.append_of_mem hl
    obtain ⟨step, hlast, hrunning, -⟩ := dispatched_once hreach hlog
    exact ⟨c, before, after, action, resolved, timeout, r, step, hreach, hlog, hlast, hrunning⟩
  · cases hexecute

end Runs
end Fubun

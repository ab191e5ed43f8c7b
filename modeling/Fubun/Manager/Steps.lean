import Fubun.Manager.State

/-! What one step of a manager can do. -/

namespace Fubun
open Relational

namespace ManagerTask

def request? : ManagerTask → Option PendingRequest
  | .sending request _ | .waiting request | .releasing request _ => some request
  | .completed request _ | .dropped request => request
  | _ => none

def holds? : ManagerTask → Option PendingRequest
  | .sending request _ | .waiting request | .releasing request _ => some request
  | _ => none

/-- The request that a `resolve` has taken out and not answered yet. -/
def replying? : ManagerTask → Option PendingRequest
  | .replying request _ _ => some request
  | _ => none

def condemns : ManagerTask → PendingRequest → Bool
  | .replacing _ previous, request => request.connectionToken == previous
  | .failing token, request => request.connectionToken == token
  | .draining, _ => true
  | _, _ => false

/-- Whether a `register`, a `disconnect_if_current` or a `shutdown` is in progress. -/
def isReconnecting : ManagerTask → Bool
  | .registering _ | .replacing .. | .disconnecting .. | .failing _ | .clearing | .draining => true
  | _ => false

/-- Whether a call is at its end, or has not begun. -/
def isEnded : ManagerTask → Bool
  | .absent | .registered _ | .completed .. | .dropped _ | .ended => true
  | _ => false

theorem request?_of_holds? {task : ManagerTask} {request : PendingRequest} (h : task.holds? = some request) :
    task.request? = some request := by
  cases task <;> first | exact h | exact nomatch h

theorem isReconnecting_of_condemns {task : ManagerTask} {request : PendingRequest} (h : task.condemns request = true) :
    task.isReconnecting = true := by
  cases task <;> first | rfl | exact nomatch h

@[simp] theorem request?_task (call : ManagerCall) : call.task.request? = none := by
  cases call <;> rfl

@[simp] theorem holds?_task (call : ManagerCall) : call.task.holds? = none := by
  cases call <;> rfl

@[simp] theorem replying?_task (call : ManagerCall) : call.task.replying? = none := by
  cases call <;> rfl

@[simp] theorem condemns_task (call : ManagerCall) (request : PendingRequest) : call.task.condemns request = false := by
  cases call <;> rfl

end ManagerTask

namespace ManagerState

/-- The parts of calls that change neither map nor a oneshot. -/
inductive Quiet (s : ManagerState) : ManagerTask → ManagerTask → Prop
  | invalid {hello error} : validateHello hello = .error error → Quiet s (.registering hello) (.registered (.error error))
  | outdated {instanceId token} : (∀ connection, s.manager.findConnection instanceId = some connection →
      connection.connectionToken ≠ token) → Quiet s (.disconnecting instanceId token) .ended
  | unselected {action resolved error} : s.manager.connections.selectEligible (.fromAction action) = .error error →
      Quiet s (.selecting action resolved) (.completed none (.error ⟨none, error.dispatchKind⟩))
  | selected {action resolved identity token} :
      s.manager.connections.selectEligible (.fromAction action) = .ok (identity, token) →
      Quiet s (.selecting action resolved) (.inserting identity token action resolved)
  | refused {identity token action resolved} :
      Quiet s (.inserting identity token action resolved) (.completed none (.error ⟨some identity, .disconnected⟩))
  | undelivered {request envelope} : Quiet s (.sending request envelope) (.releasing request (some .disconnected))
  | delivered {request envelope} : Quiet s (.sending request envelope) (.waiting request)
  | answered {request outcome} : request.outcome (s.manager.replies request.requestId) = some outcome →
      Quiet s (.waiting request) (.completed (some request) outcome)
  | timedOut {request} : Quiet s (.waiting request) (.releasing request (some .timeout))
  | forgotten {action resolved} : Quiet s (.selecting action resolved) (.dropped none)
  | withdrawn {identity token action resolved} : Quiet s (.inserting identity token action resolved) (.dropped none)
  | unsent {request envelope} : Quiet s (.sending request envelope) (.releasing request none)
  | unawaited {request} : Quiet s (.waiting request) (.releasing request none)
  | found {instanceId arrivedOn response} : Quiet s (.finding arrivedOn response) (.touching instanceId arrivedOn response)
  | unknown {arrivedOn response} : Quiet s (.finding arrivedOn response) (.taking arrivedOn response)
  | unanswered {arrivedOn response} : Quiet s (.taking arrivedOn response) .ended
  | acknowledged {token envelope} : Quiet s (.acknowledging token envelope) .ended

/-- The parts of calls that fail pending requests. -/
inductive Fails : ManagerTask → (PendingRequest → Bool) → ManagerTask → Prop
  | replaced {token previous} :
      Fails (.replacing token previous) (·.connectionToken == previous) (.registered (.ok token))
  | disconnected {token} : Fails (.failing token) (·.connectionToken == token) .ended
  | drained : Fails .draining (fun _ => true) .ended

def replacingPrevious (s : ManagerState) (token : Uuid) (hello : AdapterHello) : ManagerTask :=
  match s.manager.findConnection hello.instanceId with
  | some previous => .replacing token previous.connectionToken
  | none => .registered (.ok token)

def released (request : PendingRequest) : Option AdapterDispatchErrorKind → ManagerTask
  | some kind => .completed (some request) (.error ⟨some request.identity, kind⟩)
  | none => .dropped (some request)

/-- Everything one step can do. -/
inductive Step (s : ManagerState) : ManagerEvent → ManagerState → Prop
  | start {call} : Step s (.start call) (s.started call)
  | other {e channels now} : Step s e { s with channels := channels, now := now }
  | quiet {e n task task' channels} : s.tasks n = task → Quiet s task task' →
      Step s e ({ s with channels := channels }.setTask n task')
  | connect {n fresh hello} : s.tasks n = .registering hello → validateHello hello = .ok () → fresh.1 ∉ s.issued →
      Step s (.advance n fresh) ((s.connect fresh.1 hello).setTask n (s.replacingPrevious fresh.1 hello))
  | disconnect {n fresh instanceId connection} : s.tasks n = .disconnecting instanceId connection.connectionToken →
      s.manager.findConnection instanceId = some connection →
      Step s (.advance n fresh) ((s.setManager { s.manager with
        connections := s.manager.connections.disconnectIfCurrent instanceId connection.connectionToken }).setTask n
          (.failing connection.connectionToken))
  | clear {n fresh} : s.tasks n = .clearing →
      Step s (.advance n fresh) ((s.setManager { s.manager with connections := [] }).setTask n .draining)
  | fail {n fresh task p task'} : s.tasks n = task → Fails task p task' →
      Step s (.advance n fresh) ((s.setManager (s.manager.remove p (.sent (.error .disconnected)))).setTask n task')
  | dispatch {n fresh identity connection action resolved envelope} :
      s.tasks n = .inserting identity connection.connectionToken action resolved →
      fresh.1 ∉ s.issued → fresh.2 ∉ s.issued → fresh.1 ≠ fresh.2 →
      s.manager.findConnection identity.instanceId = some connection →
      Step s (.advance n fresh) ((s.dispatch ⟨fresh.1, identity, connection.connectionToken, fresh.2⟩).setTask n
        (.sending ⟨fresh.1, identity, connection.connectionToken, fresh.2⟩ envelope))
  | release {n fresh request error} : s.tasks n = .releasing request error →
      Step s (.advance n fresh) ((s.setManager (s.manager.releasePending request.requestId)).setTask n
        (released request error))
  | touch {n fresh instanceId arrivedOn response} : s.tasks n = .touching instanceId arrivedOn response →
      Step s (.advance n fresh) ((s.setManager { s.manager with
        connections := s.manager.connections.touch instanceId s.now }).setTask n (.taking arrivedOn response))
  | take {n fresh arrivedOn response request} : s.tasks n = .taking arrivedOn response →
      s.manager.findPending response.requestId = some request →
      Step s (.advance n fresh) ((s.setManager (s.manager.takePending response.requestId)).setTask n
        (.replying request arrivedOn response))
  | reply {n fresh request arrivedOn response} : s.tasks n = .replying request arrivedOn response →
      Step s (.advance n fresh) ((s.setManager (s.manager.sendReply request.requestId (request.verdict response))).setTask n
        .ended)

section Inversion
variable {s s' : ManagerState} {e : ManagerEvent} {n : Nat} {fresh : Uuid × Uuid} {task : ManagerTask}

theorem send_cases {token : Uuid} {envelope : AdapterRequestEnvelope} {delivered : Bool}
    (h : s.send token envelope = some (delivered, s')) : ∃ channels, s' = { s with channels := channels } := by
  unfold send at h
  dsimp only at h
  split_ifs at h
  · obtain ⟨-, rfl⟩ := Prod.mk.inj (Option.some.inj h)
    exact ⟨_, rfl⟩
  · obtain ⟨-, rfl⟩ := Prod.mk.inj (Option.some.inj h)
    exact ⟨_, rfl⟩

theorem register_cases {hello : AdapterHello} (hn : s.tasks n = .registering hello) (h : s.register fresh.1 hello = some (task, s')) :
    Step s (.advance n fresh) (s'.setTask n task) := by
  unfold register at h
  split at h
  · rename_i error herror
    obtain ⟨rfl, rfl⟩ := Prod.mk.inj (Option.some.inj h)
    exact .quiet hn (.invalid herror)
  · rename_i hvalid
    split_ifs at h with hfresh
    have hconnect := Step.connect hn hvalid hfresh
    rw [replacingPrevious] at hconnect
    split at h <;> rename_i hprevious
    all_goals
      obtain ⟨rfl, rfl⟩ := Prod.mk.inj (Option.some.inj h)
      rw [hprevious] at hconnect
      exact hconnect

theorem disconnect_cases {instanceId token : Uuid} (hn : s.tasks n = .disconnecting instanceId token)
    (h : s.disconnect instanceId token = (task, s')) : Step s (.advance n fresh) (s'.setTask n task) := by
  unfold disconnect at h
  split at h
  · rename_i connection hconnection
    split_ifs at h with htoken
    · obtain ⟨rfl, rfl⟩ := Prod.mk.inj h
      subst htoken
      exact .disconnect hn hconnection
    -- the instance has connected again under another token
    · obtain ⟨rfl, rfl⟩ := Prod.mk.inj h
      refine .quiet hn (.outdated fun found hfound => ?_)
      rw [hconnection] at hfound
      exact Option.some.inj hfound ▸ htoken
  · rename_i hnone
    obtain ⟨rfl, rfl⟩ := Prod.mk.inj h
    refine .quiet hn (.outdated fun found hfound => ?_)
    exact nomatch hnone.symm.trans hfound

theorem insertPendingIfCurrent_cases {identity : EligibleAdapter} {token : Uuid} {action : ActionSpec} {resolved : Option ResolvedResource}
    (hn : s.tasks n = .inserting identity token action resolved)
    (h : s.insertPendingIfCurrent fresh identity token action resolved = some (task, s')) :
    Step s (.advance n fresh) (s'.setTask n task) := by
  unfold insertPendingIfCurrent at h
  split_ifs at h with hfresh
  push Not at hfresh
  dsimp only at h
  split at h
  · rename_i connection hconnection
    split_ifs at h with htoken
    · obtain ⟨rfl, rfl⟩ := Prod.mk.inj (Option.some.inj h)
      exact .quiet hn .refused
    · obtain ⟨rfl, rfl⟩ := Prod.mk.inj (Option.some.inj h)
      obtain rfl := not_not.mp htoken
      exact .dispatch hn hfresh.1 hfresh.2.1 hfresh.2.2 hconnection
  · obtain ⟨rfl, rfl⟩ := Prod.mk.inj (Option.some.inj h)
    exact .quiet hn .refused

theorem advance_cases (h : s.advance fresh (s.tasks n) = some (task, s')) :
    Step s (.advance n fresh) (s'.setTask n task) := by
  cases hn : s.tasks n with
  | absent | registered | completed | dropped | ended =>
    rw [hn] at h
    exact nomatch h
  | registering hello =>
    rw [hn] at h
    exact register_cases hn h
  | replacing token previous =>
    rw [hn, advance] at h
    obtain ⟨rfl, rfl⟩ := Prod.mk.inj (Option.some.inj h)
    exact .fail hn .replaced
  | disconnecting instanceId token =>
    rw [hn] at h
    exact disconnect_cases hn (Option.some.inj h)
  | failing token =>
    rw [hn, advance] at h
    obtain ⟨rfl, rfl⟩ := Prod.mk.inj (Option.some.inj h)
    exact .fail hn .disconnected
  | clearing =>
    rw [hn, advance] at h
    obtain ⟨rfl, rfl⟩ := Prod.mk.inj (Option.some.inj h)
    exact .clear hn
  | draining =>
    rw [hn, advance] at h
    obtain ⟨rfl, rfl⟩ := Prod.mk.inj (Option.some.inj h)
    exact .fail hn .drained
  | selecting action resolved =>
    rw [hn, advance, select] at h
    obtain ⟨rfl, rfl⟩ := Prod.mk.inj (Option.some.inj h)
    split
    · rename_i error herror
      exact .quiet hn (.unselected herror)
    · rename_i identity token hselected
      exact .quiet hn (.selected hselected)
  | inserting identity token action resolved =>
    rw [hn] at h
    exact insertPendingIfCurrent_cases hn h
  | sending request envelope =>
    rw [hn, advance] at h
    obtain ⟨⟨delivered, sent⟩, hsend, heq⟩ := Option.map_eq_some_iff.mp h
    obtain ⟨rfl, rfl⟩ := Prod.mk.inj heq
    obtain ⟨channels, rfl⟩ := send_cases hsend
    cases delivered with
    | true => exact .quiet hn .delivered
    | false => exact .quiet hn .undelivered
  | waiting request =>
    rw [hn, advance] at h
    obtain ⟨outcome, houtcome, heq⟩ := Option.map_eq_some_iff.mp h
    obtain ⟨rfl, rfl⟩ := Prod.mk.inj heq
    exact .quiet hn (.answered houtcome)
  | releasing request error =>
    rw [hn] at h
    cases error with
    | some kind =>
      obtain ⟨rfl, rfl⟩ := Prod.mk.inj (Option.some.inj h)
      exact .release hn
    | none =>
      obtain ⟨rfl, rfl⟩ := Prod.mk.inj (Option.some.inj h)
      exact .release hn
  | finding arrivedOn response =>
    rw [hn, advance] at h
    obtain ⟨rfl, rfl⟩ := Prod.mk.inj (Option.some.inj h)
    split
    · exact .quiet hn .found
    · exact .quiet hn .unknown
  | touching instanceId arrivedOn response =>
    rw [hn, advance] at h
    obtain ⟨rfl, rfl⟩ := Prod.mk.inj (Option.some.inj h)
    exact .touch hn
  | taking arrivedOn response =>
    rw [hn, advance] at h
    have h := Option.some.inj h
    split at h
    · rename_i request hrequest
      obtain ⟨rfl, rfl⟩ := Prod.mk.inj h
      exact .take hn hrequest
    · obtain ⟨rfl, rfl⟩ := Prod.mk.inj h
      exact .quiet hn .unanswered
  | replying request arrivedOn response =>
    rw [hn, advance] at h
    obtain ⟨rfl, rfl⟩ := Prod.mk.inj (Option.some.inj h)
    exact .reply hn
  | acknowledging token envelope =>
    rw [hn, advance] at h
    obtain ⟨⟨delivered, sent⟩, hsend, heq⟩ := Option.map_eq_some_iff.mp h
    obtain ⟨rfl, rfl⟩ := Prod.mk.inj heq
    obtain ⟨channels, rfl⟩ := send_cases hsend
    exact .quiet hn .acknowledged

theorem step_cases (h : s.step e = some s') : Step s e s' := by
  cases e with
  | start call => exact Option.some.inj h ▸ .start
  | advance n fresh =>
    obtain ⟨⟨task, advanced⟩, hadvance, rfl⟩ := Option.map_eq_some_iff.mp h
    exact advance_cases hadvance
  | timeout n =>
    obtain ⟨task, htask, rfl⟩ := Option.map_eq_some_iff.mp h
    unfold ManagerState.timedOut at htask
    split at htask
    · rename_i request hn
      split_ifs at htask
      exact Option.some.inj htask ▸ .quiet hn .timedOut
    · exact nomatch htask
  | cancel n =>
    obtain ⟨task, htask, rfl⟩ := Option.map_eq_some_iff.mp h
    cases hn : s.tasks n with
    | selecting | inserting | sending | waiting =>
      rw [hn] at htask
      obtain rfl := Option.some.inj htask
      exact .quiet hn (by constructor)
    | _ =>
      rw [hn] at htask
      exact nomatch htask
  | receive token =>
    obtain ⟨channel, -, rfl⟩ := Option.map_eq_some_iff.mp h
    exact .other
  | write token =>
    obtain ⟨channel, -, rfl⟩ := Option.map_eq_some_iff.mp h
    exact .other
  | read token => exact Option.some.inj h ▸ .other
  | close token => exact Option.some.inj h ▸ .other
  | clock now => exact Option.some.inj h ▸ .other

end Inversion

section Quiet
variable {s : ManagerState} {task task' : ManagerTask}

theorem Quiet.request? (h : Quiet s task task') : task'.request? = task.request? := by
  cases h <;> rfl

/-- A guard is given up without a removal only once the reply is there. -/
theorem Quiet.holds? (h : Quiet s task task') : task'.holds? = task.holds? ∨
    ∃ request, task.holds? = some request ∧ s.manager.replies request.requestId ≠ .empty := by
  cases h with
  | @answered request outcome houtcome =>
    refine .inr ⟨request, rfl, fun hempty => ?_⟩
    rw [hempty] at houtcome
    exact nomatch houtcome
  | _ => exact .inl rfl

theorem Quiet.replying? (h : Quiet s task task') : task.replying? = none ∧ task'.replying? = none := by
  cases h <;> exact ⟨rfl, rfl⟩

theorem Quiet.condemns (h : Quiet s task task') (request : PendingRequest) : task.condemns request = false := by
  cases h <;> rfl

end Quiet

/-! ## One call -/

/-- What event `e` can make of call `m`. -/
inductive Moves (s : ManagerState) (m : Nat) : ManagerEvent → ManagerTask → ManagerTask → Prop
  | quiet {e task task'} : Quiet s task task' → Moves s m e task task'
  | replace {e hello token previous} : Moves s m e (.registering hello) (.replacing token previous)
  | register {e hello token} : Moves s m e (.registering hello) (.registered (.ok token))
  | disconnect {e instanceId token} : Moves s m e (.disconnecting instanceId token) (.failing token)
  | clear {e} : Moves s m e .clearing .draining
  | fail {e task p task'} : Fails task p task' → Moves s m e task task'
  | dispatch {identity connection action resolved envelope} {fresh : Uuid × Uuid} :
      s.manager.findConnection identity.instanceId = some connection →
      Moves s m (.advance m fresh) (.inserting identity connection.connectionToken action resolved)
        (.sending ⟨fresh.1, identity, connection.connectionToken, fresh.2⟩ envelope)
  | abandon {e request kind} : Moves s m e (.releasing request (some kind))
      (.completed (some request) (.error ⟨some request.identity, kind⟩))
  | drop {e request} : Moves s m e (.releasing request none) (.dropped (some request))
  | touch {e instanceId arrivedOn response} :
      Moves s m e (.touching instanceId arrivedOn response) (.taking arrivedOn response)
  | take {fresh arrivedOn response request} : s.manager.findPending response.requestId = some request →
      Moves s m (.advance m fresh) (.taking arrivedOn response) (.replying request arrivedOn response)
  | reply {e request arrivedOn response} : Moves s m e (.replying request arrivedOn response) .ended

section Moves
variable {s s' : ManagerState} {e : ManagerEvent} {n m : Nat} {task : ManagerTask}

@[simp] theorem setTask_self : (s.setTask n task).tasks n = task := Function.update_self ..

@[simp] theorem setTask_ne (h : m ≠ n) : (s.setTask n task).tasks m = s.tasks m := Function.update_of_ne h ..

@[simp] theorem setTask_manager : (s.setTask n task).manager = s.manager := rfl

@[simp] theorem setTask_issued : (s.setTask n task).issued = s.issued := rfl

@[simp] theorem started_self {call : ManagerCall} : (s.started call).tasks s.calls = call.task :=
  Function.update_self ..

@[simp] theorem started_ne {call : ManagerCall} (h : m ≠ s.calls) : (s.started call).tasks m = s.tasks m :=
  Function.update_of_ne h ..

theorem setTask_moves {task' : ManagerTask} (hs : s'.tasks = s.tasks) (hn : s.tasks n = task)
    (h : Moves s n e task task') (m : Nat) :
    (s'.setTask n task').tasks m = s.tasks m ∨ Moves s m e (s.tasks m) ((s'.setTask n task').tasks m) := by
  by_cases hm : m = n
  · subst hm
    rw [setTask_self, hn]
    exact .inr h
  · rw [setTask_ne hm, hs]
    exact .inl rfl

theorem Step.moves (h : Step s e s') : (∃ call, s' = s.started call) ∨
    ∀ m, s'.tasks m = s.tasks m ∨ Moves s m e (s.tasks m) (s'.tasks m) := by
  cases h with
  | start => exact .inl ⟨_, rfl⟩
  | other => exact .inr fun m => .inl rfl
  | quiet hn hq => exact .inr (setTask_moves rfl hn (.quiet hq))
  | @connect n fresh hello hn =>
    refine .inr (setTask_moves rfl hn ?_)
    unfold replacingPrevious
    split
    · exact .replace
    · exact .register
  | disconnect hn => exact .inr (setTask_moves rfl hn .disconnect)
  | clear hn => exact .inr (setTask_moves rfl hn .clear)
  | fail hn hf => exact .inr (setTask_moves rfl hn (.fail hf))
  | dispatch hn _ _ _ hfound => exact .inr (setTask_moves rfl hn (.dispatch hfound))
  | @release n fresh request error hn =>
    refine .inr (setTask_moves rfl hn ?_)
    cases error with
    | some kind => exact .abandon
    | none => exact .drop
  | touch hn => exact .inr (setTask_moves rfl hn .touch)
  | take hn hfound => exact .inr (setTask_moves rfl hn (.take hfound))
  | reply hn => exact .inr (setTask_moves rfl hn .reply)

theorem Step.moved (h : Step s e s') (n : Nat) :
    (∃ call : ManagerCall, s' = s.started call ∧ s'.tasks n = call.task) ∨
      s'.tasks n = s.tasks n ∨ Moves s n e (s.tasks n) (s'.tasks n) := by
  rcases h.moves with ⟨call, rfl⟩ | hmoves
  · by_cases hn : n = s.calls
    · subst hn
      exact .inl ⟨call, rfl, started_self⟩
    · exact .inr (.inl (started_ne hn))
  · exact .inr (hmoves n)

end Moves
end ManagerState
end Fubun

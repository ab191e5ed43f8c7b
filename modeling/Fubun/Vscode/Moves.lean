import Fubun.Vscode.Session
import Mathlib.Logic.Relation

/-! What a session can do, in moves that each leave its invariants in place. A step is some of them, one
after the other. -/

namespace Fubun.Vscode
open Encoding Extensions Relational Concurrency.Machine Relation

inductive SessionTask.IsTold (s : SessionState) (call : Option SessionCall) : SessionTask → Prop
  | joining (attempt : Nat) : IsTold s call (.joining call attempt)
  | leading (attempt : Nat) : IsTold s call (.leading call attempt)
  | connected {transport : Nat} (hcurrent : s.current = some transport) : IsTold s call (.connected call transport)
  | unavailable (error : String) : IsTold s call (.unavailable call error)

namespace SessionState

/-- The session without its timers and the bytes it has not used. -/
def untimed (s : SessionState) : SessionState :=
  { s with decoder := [], reconnectDelay := 0, reconnectTimer := none, timers := [], nextTimer := 0 }

theorem untimed_congr {α : Type*} {s s' : SessionState} (f : SessionState → α) (hf : ∀ s : SessionState, f s.untimed = f s)
    (h : s'.untimed = s.untimed) : f s' = f s := by
  rw [← hf s', h, hf s]

def AreNew (calls : Nat) (tasks : Nat → SessionTask) : Prop := ∀ n, calls ≤ n → tasks n = .absent

abbrev IsNew (s : SessionState) : Prop := AreNew s.calls s.tasks

theorem AreNew.count {calls : Nat} {tasks : Nat → SessionTask} (h : AreNew calls tasks) : AreNew (calls + 1) tasks :=
  fun n hn => h n (Nat.le_of_succ_le hn)

theorem AreNew.set {calls n : Nat} {tasks : Nat → SessionTask} {task : SessionTask} (h : AreNew calls tasks)
    (hat : tasks n ≠ .absent ∨ n < calls) : AreNew calls (Function.update tasks n task) := by
  have hlt : n < calls := by
    rcases hat with hat | hlt
    · exact Nat.lt_of_not_le fun hle => hat (h n hle)
    · exact hlt
  intro m hm
  rw [Function.update_of_ne (Nat.ne_of_gt (Nat.lt_of_lt_of_le hlt hm))]
  exact h m hm

theorem settlement?_mem {s : SessionState} {promise : SessionPromise} {result : Outcome}
    (h : s.settlement? promise = some result) : .settled promise result ∈ s.log := by
  obtain ⟨entry, hentry, heq⟩ := List.exists_of_findSome?_eq_some h
  cases entry with
  | settled p r =>
    dsimp only at heq
    split_ifs at heq with hp
    obtain rfl := Option.some.inj heq
    exact hp ▸ hentry
  | _ => exact nomatch heq

/-- A call that is new, or whose turn it is. -/
inductive Goes (s : SessionState) (n : Nat) : Option SessionCall → Prop
  | new {call} (hat : s.tasks n = .absent) (hlt : n < s.calls) (hcall : ∀ emission, call ≠ some (.emit emission)) :
      Goes s n call
  | turn {emission} (hat : s.tasks n = .queued emission) (hhead : s.eventChain.head? = some n) :
      Goes s n (some (.emit emission))
  | joined {call attempt} (hat : s.tasks n = .joining call attempt) : Goes s n call
  | led {call attempt} (hat : s.tasks n = .leading call attempt) : Goes s n call

inductive Concludes (s : SessionState) (n : Nat) : Option SessionCall → Outcome → Prop
  | started {call transport} (hat : s.tasks n = .connected call transport) (hcall : ∀ emission, call ≠ some (.emit emission)) :
      Concludes s n call (.ok ())
  | unavailable {call error} (hat : s.tasks n = .unavailable call error) : Concludes s n call (.error error)
  | answered {emission requestId result} (hat : s.tasks n = .waiting emission requestId)
      (hsettled : s.settlement? (.ack n) = some result) : Concludes s n (some (.emit emission)) result

end SessionState

open SessionState

/-- The moves of a session, with `ok` for the steps that begin with them. -/
inductive Moves (o : VscodeAdapterSessionOptions) (ok : SessionState → SessionEvent → Prop) :
    SessionState → SessionState → Prop
  | rest {s s'} (h : s'.untimed = s.untimed) : Moves o ok s s'
  | call {s} : Moves o ok s s.countCall
  | start {s out} (hok : ok s (.start out)) : Moves o ok s (s.countCall.setDesired true)
  | stop {s} : Moves o ok s ((s.setDesired false).closeCurrent "VS Code adapter stopped")
  | queue {s occurredAt} (resourceId : String) (now : Int) (hdate : toISOString now = some occurredAt) :
      Moves o ok s (s.emitWorkspaceOpened resourceId now)
  | misdate {s} (resourceId : String) (now : Int) (hdate : toISOString now = none) :
      Moves o ok s (s.emitWorkspaceOpened resourceId now)
  | establish {s} (requestId : String) (hdesired : s.desired = true) (hcurrent : s.current = none)
      (hconnecting : s.connecting = none) : Moves o ok s
        ((s.openTransport requestId).setAttempt s.attemptCount (.greeting s.transports.length)).awaitAttempt
  | unmade {s} (error : String) (hdesired : s.desired = true) (hcurrent : s.current = none)
      (hconnecting : s.connecting = none) :
      Moves o ok s (s.setAttempt s.attemptCount (.ended (.error error))).awaitAttempt
  | endConnecting {s} (n attempt : Nat) {call result} (hat : s.tasks n = .leading call attempt)
      (hended : s.attempts attempt = .ended result) : Moves o ok s (s.endConnecting attempt)
  | go {s n call task} (hgoes : s.Goes n call) (htold : task.IsTold s call) : Moves o ok s (s.setTask n task)
  | connected {s attempt transport} (hok : ok s (.proceed attempt)) (hat : s.attempts attempt = .greeting transport)
      (hsettled : s.settlement? (.hello attempt) = some (.ok ())) :
      Moves o ok s (s.becomeConnected.setAttempt attempt (.ended (.ok ())))
  | close {s} (error : String) : Moves o ok s (s.closeCurrent error)
  | failed {s attempt transport} (error : String) (hat : s.attempts attempt = .greeting transport) (hhello : s.hello = none) :
      Moves o ok s (s.setAttempt attempt (.ended (.error error)))
  | greet {s transport hello} (htransport : s.transport = some transport) (hhello : s.hello = some hello) :
      Moves o ok s (s.record (.wrote transport (.hello hello.requestId s.instanceId)))
  | answer {s transport hello} (frame : Json) (htransport : s.transport = some transport) (hhello : s.hello = some hello) :
      Moves o ok s ((s.record (.received transport frame)).finishHello hello (checkHelloAck hello.requestId frame))
  | acknowledge {s transport frame ack pending} (htransport : s.transport = some transport)
      (hack : parseAdapterEventAck frame = .ok ack) (hfind : s.findPending ack.requestId = some pending) :
      Moves o ok s ((s.record (.received transport frame)).finish pending (.ok ()))
  | overhear {s transport} (frame : Json) (htransport : s.transport = some transport) :
      Moves o ok s (s.record (.received transport frame))
  | expireHello {s hello} (error : String) (hhello : s.hello = some hello) :
      Moves o ok s (s.finishHello hello (.error error))
  | expire {s pending} (error : String) (hmem : pending ∈ s.pending) : Moves o ok s (s.finish pending (.error error))
  | write {s n emission transport} (out : Outside) (hok : ok s (.advance n out))
      (hat : s.tasks n = .connected (some (.emit emission)) transport) (timeout : Nat) :
      Moves o ok s (((s.setPending ⟨out.uuid, n, timeout⟩).record (.wrote transport (.event out.uuid emission))).setTask n
        (.waiting emission out.uuid))
  | unwritten {s n emission transport} (requestId error : String)
      (hat : s.tasks n = .connected (some (.emit emission)) transport) (timeout : Nat) :
      Moves o ok s (((s.setPending ⟨requestId, n, timeout⟩).finish ⟨requestId, n, timeout⟩ (.error error)).setTask n
        (.waiting emission requestId))
  | conclude {s n call result} (h : s.Concludes n call result) : Moves o ok s (s.conclude n call result)

namespace Moves
variable {o : VscodeAdapterSessionOptions} {ok : SessionState → SessionEvent → Prop} {s s' : SessionState} {e : SessionEvent}

theorem untimed_scheduleReconnect (s : SessionState) : s.scheduleReconnect.untimed = s.untimed := by
  unfold scheduleReconnect
  split_ifs <;> rfl

theorem untimed_cancelReconnect (s : SessionState) : s.cancelReconnect.untimed = s.untimed := by
  unfold cancelReconnect
  split <;> rfl

abbrev Runs (o : VscodeAdapterSessionOptions) (ok : SessionState → SessionEvent → Prop) : SessionState → SessionState → Prop :=
  ReflTransGen (Moves o ok)

theorem then_rest {t : SessionState} (h : Runs o ok s t) (hrest : s'.untimed = t.untimed) : Runs o ok s s' :=
  h.tail (.rest hrest)

theorem scheduleReconnect (h : Runs o ok s s') : Runs o ok s s'.scheduleReconnect :=
  then_rest h (untimed_scheduleReconnect s')

theorem handleClose (transport : Nat) (h : Runs o ok s s') : Runs o ok s (s'.handleClose transport) := by
  unfold SessionState.handleClose
  split_ifs
  · exact scheduleReconnect (h.tail (.close _))
  · exact h

theorem resumed_told (call : Option SessionCall) (result : Outcome) : (s.resumed call result).IsTold s call := by
  unfold resumed
  split
  · exact .unavailable _
  · split
    · rename_i hcurrent
      exact .connected hcurrent
    · exact .unavailable _

theorem ensureConnected {n : Nat} {call : Option SessionCall} {out : Outside} (h : Runs o ok s s') (hgoes : s'.Goes n call) :
    Runs o ok s (s'.ensureConnected o n call out) := by
  unfold SessionState.ensureConnected
  split_ifs with hdesired
  · exact h.tail (.go hgoes (.unavailable _))
  have hwanted : s'.desired = true := by simpa using hdesired
  split
  · rename_i hcurrent
    exact h.tail (.go hgoes (.connected hcurrent))
  · exact h.tail (.go hgoes (.joining _))
  · rename_i hcurrent hconnecting
    -- making a transport leaves the calls where they are
    have hkeeps : ∀ t : SessionState, t.tasks = s'.tasks → t.calls = s'.calls → t.eventChain = s'.eventChain → t.Goes n call := by
      intro t htasks hcalls hchain
      cases hgoes with
      | new hat hlt hcall => exact .new (htasks ▸ hat) (hcalls ▸ hlt) hcall
      | turn hat hhead => exact .turn (htasks ▸ hat) (hchain ▸ hhead)
      | joined hat => exact .joined (htasks ▸ hat)
      | led hat => exact .led (htasks ▸ hat)
    unfold SessionState.establish
    split_ifs
    · have hopened := h.tail (.establish out.uuid hwanted hcurrent hconnecting)
      have htimed : Runs o ok s (s'.establish o ⟨out.uuid, true⟩) := then_rest hopened rfl
      exact htimed.tail (.go (hkeeps _ rfl rfl rfl) (.leading _))
    · have hunmade := h.tail (.unmade "VS Code adapter connection failed" hwanted hcurrent hconnecting)
      have htimed : Runs o ok s (s'.establish o ⟨out.uuid, false⟩) := by
        apply then_rest hunmade
        show ((s'.scheduleReconnect.setAttempt s'.attemptCount _).awaitAttempt).untimed = _
        unfold SessionState.scheduleReconnect
        split_ifs <;> rfl
      refine htimed.tail (.go (hkeeps _ ?_ ?_ ?_) (.leading _))
      all_goals
        show _ = _
        unfold SessionState.establish SessionState.scheduleReconnect
        split_ifs <;> rfl

/-- A run of `establish` that is over lets its calls go on. -/
theorem advance {n : Nat} {out : Outside} (hok : ok s (.advance n out)) (hs : s.advance o n out = some s') :
    Runs o ok s s' := by
  unfold SessionState.advance at hs
  split at hs
  · rename_i hat
    split_ifs at hs with hhead
    exact Option.some.inj hs ▸ ensureConnected .refl (.turn hat hhead)
  · rename_i hat
    split at hs
    · exact Option.some.inj hs ▸ .single (.go (.joined hat) (resumed_told ..))
    · exact nomatch hs
  · rename_i call attempt hat
    split at hs
    · rename_i result hended
      have hended' : Runs o ok s (s.endConnecting attempt) := .single (.endConnecting n attempt hat hended)
      rw [← Option.some.inj hs]
      exact hended'.tail (.go (.led hat) (resumed_told (s := s.endConnecting attempt) ..))
    · exact nomatch hs
  · rename_i call transport hat
    split at hs
    · rename_i emission
      rw [← Option.some.inj hs]
      unfold SessionState.emitOne
      dsimp only
      split_ifs
      · exact then_rest (.single (.write out hok hat s.nextTimer)) rfl
      · exact then_rest (.single (.unwritten out.uuid "VS Code event write failed" hat s.nextTimer)) rfl
    all_goals exact Option.some.inj hs ▸ .single (.conclude (.started hat fun _ h => nomatch h))
  · rename_i hat
    exact Option.some.inj hs ▸ .single (.conclude (.unavailable hat))
  · rename_i hat
    obtain ⟨result, hsettled, rfl⟩ := Option.map_eq_some_iff.mp hs
    exact .single (.conclude (.answered hat hsettled))
  all_goals exact nomatch hs

theorem proceed {attempt : Nat} (hok : ok s (.proceed attempt)) (hs : s.proceed attempt = some s') : Runs o ok s s' := by
  unfold SessionState.proceed at hs
  split at hs
  · rename_i transport hat
    split at hs
    · rename_i hsettled
      exact Option.some.inj hs ▸ .single (.connected hok hat hsettled)
    · rename_i error _
      rw [← Option.some.inj hs]
      have hclosed : Runs o ok s (s.closeCurrent error).scheduleReconnect := scheduleReconnect (.single (.close error))
      have hattempts : (s.closeCurrent error).scheduleReconnect.attempts = (s.closeCurrent error).attempts :=
        untimed_congr (·.attempts) (fun _ => rfl) (untimed_scheduleReconnect _)
      have hhello : (s.closeCurrent error).scheduleReconnect.hello = (s.closeCurrent error).hello :=
        untimed_congr (·.hello) (fun _ => rfl) (untimed_scheduleReconnect (s.closeCurrent error))
      exact hclosed.tail (.failed error (hattempts ▸ hat) hhello)
    · exact nomatch hs
  all_goals exact nomatch hs

theorem handleConnect {transport : Nat} {requestId : String} (out : Outside) :
    Runs o ok s (s.handleConnect transport requestId out) := by
  unfold SessionState.handleConnect
  split_ifs with hcurrent
  · obtain ⟨htransport, hid⟩ := hcurrent
    obtain ⟨hello, hhello, rfl⟩ := Option.map_eq_some_iff.mp hid
    exact .single (.greet htransport hhello)
  · exact handleClose transport .refl
  · exact .refl

/-- The transport stays until the loop ends. -/
theorem handleFrame_transport {transport : Nat} {frame : Json} (h : s.handleFrame transport frame = (s', true)) :
    s'.transport = s.transport := by
  unfold SessionState.handleFrame at h
  dsimp only at h
  split at h
  · exact (congrArg (·.1.transport) h).symm
  · split at h
    · split at h
      · exact (congrArg (·.1.transport) h).symm
      · exact (congrArg (·.1.transport) h).symm
    · exact nomatch congrArg Prod.snd h

theorem handleFrame {transport : Nat} (frame : Json) (h : Runs o ok s s') (htransport : s'.transport = some transport) :
    Runs o ok s (s'.handleFrame transport frame).1 := by
  unfold SessionState.handleFrame
  dsimp only
  split
  · rename_i hello hhello
    exact then_rest (h.tail (.answer frame htransport hhello)) rfl
  · split
    · rename_i ack hack
      split
      · rename_i pending hfind
        exact then_rest (h.tail (.acknowledge htransport hack hfind)) rfl
      · exact h.tail (.overhear frame htransport)
    · exact handleClose transport (h.tail (.overhear frame htransport))

theorem handleFrames {transport : Nat} (frames : List Json) (h : Runs o ok s s') (htransport : s'.transport = some transport) :
    Runs o ok s (s'.handleFrames transport frames) := by
  induction frames generalizing s' with
  | nil => exact h
  | cons frame frames ih =>
    have hframe := handleFrame frame h htransport
    unfold SessionState.handleFrames
    split
    · rename_i t hstep
      rw [hstep] at hframe
      exact ih hframe ((handleFrame_transport hstep).trans htransport)
    · rename_i t hstep
      rw [hstep] at hframe
      exact hframe

theorem handleData (transport : Nat) (chunk : List UInt8) : Runs o ok s (s.handleData o transport chunk) := by
  unfold SessionState.handleData
  split_ifs with htransport
  · split
    · rename_i frames buffer _
      have hkept : Runs o ok s (s.setDecoder buffer) := then_rest .refl rfl
      exact handleFrames frames hkept htransport
    · rename_i buffer _
      have hkept : Runs o ok s (s.setDecoder buffer) := then_rest .refl rfl
      exact handleClose transport hkept
  · exact .refl

theorem fire (hnew : s.IsNew) (handle : Nat) (callback : SessionCallback) (out : Outside) :
    Runs o ok s ((s.clearTimer handle).fire o callback out) := by
  have hcleared : Runs o ok s (s.clearTimer handle) := then_rest .refl rfl
  unfold SessionState.fire
  split
  · split
    · rename_i hello hhello
      split_ifs
      · exact hcleared.tail (.expireHello _ hhello)
      · exact hcleared
    · exact hcleared
  · split
    · rename_i pending hfind
      exact hcleared.tail (.expire _ (List.mem_of_find?_eq_some hfind))
    · exact hcleared
  · dsimp only
    have hunarmed : Runs o ok s { s.clearTimer handle with reconnectTimer := none } := then_rest .refl rfl
    split_ifs
    · exact hunarmed
    · exact ensureConnected (hunarmed.tail .call) (.new (hnew s.calls le_rfl) (Nat.lt_succ_self _) fun _ h => nomatch h)

theorem step (hnew : s.IsNew) (hok : ok s e) (hs : SessionState.step o s e = some s') : Runs o ok s s' := by
  cases e with
  | start out =>
    have hstarted : Runs o ok s (s.countCall.setDesired true) := .single (.start hok)
    exact Option.some.inj hs ▸ ensureConnected hstarted (.new (hnew s.calls le_rfl) (Nat.lt_succ_self _) fun _ h => nomatch h)
  | stop =>
    have hstopped : Runs o ok s ((s.setDesired false).closeCurrent "VS Code adapter stopped") := .single .stop
    rw [← Option.some.inj hs]
    apply then_rest hstopped
    show ((s.setDesired false).cancelReconnect.closeCurrent "VS Code adapter stopped").untimed = _
    unfold cancelReconnect
    split <;> rfl
  | emitWorkspaceOpened resourceId now =>
    rw [← Option.some.inj hs]
    cases hdate : toISOString now with
    | some occurredAt => exact .single (.queue resourceId now hdate)
    | none => exact .single (.misdate resourceId now hdate)
  | advance n out => exact advance hok hs
  | proceed attempt => exact proceed hok hs
  | connect transport out =>
    obtain ⟨requestId, -, rfl⟩ := Option.map_eq_some_iff.mp hs
    exact handleConnect out
  | data transport chunk =>
    simp only [SessionState.step] at hs
    split_ifs at hs
    exact Option.some.inj hs ▸ handleData transport chunk
  | close transport =>
    simp only [SessionState.step] at hs
    split_ifs at hs
    exact Option.some.inj hs ▸ handleClose transport .refl
  | fire handle out =>
    obtain ⟨timer, -, rfl⟩ := Option.map_eq_some_iff.mp hs
    exact fire hnew handle timer.callback out

theorem isNew (h : Moves o ok s s') (hnew : s.IsNew) : s'.IsNew := by
  have hset : ∀ {n task task'}, s.tasks n = task → task ≠ .absent → AreNew s.calls (Function.update s.tasks n task') :=
    fun hat hne => hnew.set (.inl (hat ▸ hne))
  cases h with
  | rest h => exact (untimed_congr IsNew (fun _ => rfl) h).mpr hnew
  | call => exact hnew.count
  | start => exact hnew.count
  | queue resourceId now hdate =>
    have hqueued : ∀ emission, AreNew (s.calls + 1) (Function.update s.tasks s.calls (.queued emission)) :=
      fun emission => hnew.count.set (.inr (Nat.lt_succ_self _))
    unfold SessionState.emitWorkspaceOpened
    rw [hdate]
    exact hqueued _
  | misdate resourceId now hdate =>
    have hended : AreNew (s.calls + 1) (Function.update s.tasks s.calls (.ended none)) :=
      hnew.count.set (.inr (Nat.lt_succ_self _))
    unfold SessionState.emitWorkspaceOpened
    rw [hdate]
    exact hended
  | go hgoes _ =>
    cases hgoes with
    | new _ hlt _ => exact hnew.set (.inr hlt)
    | turn hat _ => exact hset hat (by exact fun h => nomatch h)
    | joined hat => exact hset hat (by exact fun h => nomatch h)
    | led hat => exact hset hat (by exact fun h => nomatch h)
  | write _ _ hat _ => exact hset hat (by exact fun h => nomatch h)
  | unwritten _ _ hat _ => exact hset hat (by exact fun h => nomatch h)
  | @conclude n call result h =>
    have hended : AreNew s.calls (Function.update s.tasks n (.ended call)) := by
      cases h with
      | started hat _ => exact hset hat (by exact fun h => nomatch h)
      | unavailable hat => exact hset hat (by exact fun h => nomatch h)
      | answered hat _ => exact hset hat (by exact fun h => nomatch h)
    unfold SessionState.conclude
    split <;> exact hended
  | _ => exact hnew

theorem invariant {I : SessionState → Prop} (h : Runs o ok s s') (hs : I s) (hmove : ∀ s s', I s → Moves o ok s s' → I s') :
    I s' := by
  induction h with
  | refl => exact hs
  | tail _ hm ih => exact hmove _ _ ih hm

theorem reaches {instanceId : String} (h : Reaches (SessionState.step o) (.init instanceId) ok s) :
    Runs o ok (.init instanceId) s := by
  have hboth : Runs o ok (.init instanceId) s ∧ s.IsNew := by
    apply h.invariant (I := fun s => Runs o ok (.init instanceId) s ∧ s.IsNew)
    · exact ⟨.refl, fun _ _ => rfl⟩
    · intro s e s' hi hok hs
      have hsteps := step hi.2 hok hs
      exact ⟨hi.1.trans hsteps, invariant hsteps hi.2 fun _ _ hnew hm => hm.isNew hnew⟩
  exact hboth.1

end Moves
end Fubun.Vscode

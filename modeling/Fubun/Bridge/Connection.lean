import Fubun.Bridge.Steps

/-! The port of a bridge: it is the only one that is connected, and until it is ready it belongs to the
attempt in progress. -/

namespace Fubun.Bridge
open Relational

variable {κ φ ν η : Type}

structure Wired (port : Option Nat) (ready : Bool) (connecting : Option Nat) (ports : Nat) (disconnected : List Nat)
    (pending : List PendingNativeRequest) (tasks : Nat → BridgeTask φ ν) (attempts : Nat → Attempt) : Prop where
  live : ∀ p, port = some p → p < ports ∧ p ∉ disconnected
  only : ∀ p, p < ports → p ∉ disconnected → port = some p
  closed : ∀ p ∈ disconnected, p < ports
  greeted : ∀ p, port = some p → ready = true ∨ ∃ n, connecting = some n ∧ (attempts n).port? = some p
  handed : ∀ n call p, tasks n = .connected call p → p < ports ∧ (port = some p → ready = true)
  attempt_lt : ∀ n p, (attempts n).port? = some p → p < ports
  idle : port = none → pending = []
  unready : port = none → ready = false

namespace Wired
variable {port connecting : Option Nat} {ready : Bool} {ports n : Nat} {disconnected : List Nat}
  {pending pending' : List PendingNativeRequest} {tasks : Nat → BridgeTask φ ν} {attempts : Nat → Attempt}

theorem setTask (h : Wired port ready connecting ports disconnected pending tasks attempts) (task : BridgeTask φ ν)
    (hat : ∀ call p, task = .connected call p → port = some p ∧ ready = true) :
    Wired port ready connecting ports disconnected pending (Function.update tasks n task) attempts := by
  refine { h with handed := ?_ }
  intro m call p hm
  by_cases hmn : m = n
  · subst hmn
    rw [Function.update_self] at hm
    obtain ⟨hport, hready⟩ := hat call p hm
    exact ⟨(h.live p hport).1, fun _ => hready⟩
  · rw [Function.update_of_ne hmn] at hm
    exact h.handed m call p hm

theorem setAttempt (h : Wired port ready connecting ports disconnected pending tasks attempts) {attempt : Attempt}
    (hat : ∀ p, port = some p → (attempts n).port? = some p → attempt.port? = some p)
    (hport : ∀ p, attempt.port? = some p → (attempts n).port? = some p) :
    Wired port ready connecting ports disconnected pending tasks (Function.update attempts n attempt) := by
  refine { h with greeted := ?_, attempt_lt := ?_ }
  · intro p hp
    rcases h.greeted p hp with hready | ⟨m, hm, hother⟩
    · exact .inl hready
    · refine .inr ⟨m, hm, ?_⟩
      by_cases hmn : m = n
      · subst hmn
        rw [Function.update_self]
        exact hat p hp hother
      · rw [Function.update_of_ne hmn]
        exact hother
  · intro m p hp
    by_cases hmn : m = n
    · subst hmn
      rw [Function.update_self] at hp
      exact h.attempt_lt m p (hport p hp)
    · rw [Function.update_of_ne hmn] at hp
      exact h.attempt_lt m p hp

theorem shrink (h : Wired port ready connecting ports disconnected pending tasks attempts)
    (hsub : ∀ request ∈ pending', request ∈ pending) :
    Wired port ready connecting ports disconnected pending' tasks attempts := by
  refine { h with idle := ?_ }
  intro hport
  have hnil := h.idle hport
  exact List.eq_nil_iff_forall_not_mem.mpr fun request hr => by simpa [hnil] using hsub request hr

theorem setConnecting (h : Wired none ready connecting ports disconnected pending tasks attempts)
    (connecting' : Option Nat) : Wired none ready connecting' ports disconnected pending tasks attempts :=
  { h with greeted := fun _ hp => nomatch hp }

theorem lose (h : Wired port ready connecting ports disconnected pending tasks attempts) :
    Wired none false connecting ports (disconnected ++ port.toList) [] tasks attempts where
  live := fun _ hp => nomatch hp
  only := by
    intro p hlt hp
    obtain ⟨hp, hother⟩ := not_or.mp (fun hor => hp (List.mem_append.mpr hor))
    have hport := h.only p hlt hp
    exact absurd (by rw [hport]; exact List.mem_singleton_self p) hother
  closed := by
    intro p hp
    rcases List.mem_append.mp hp with hp | hp
    · exact h.closed p hp
    · exact (h.live p (Option.mem_toList.mp hp)).1
  greeted := fun _ hp => nomatch hp
  handed := fun m call p hm => ⟨(h.handed m call p hm).1, fun hp => nomatch hp⟩
  attempt_lt := h.attempt_lt
  idle := fun _ => rfl
  unready := fun _ => rfl

theorem other (h : Wired port ready connecting ports disconnected pending tasks attempts) {p : Nat} (hlt : p < ports)
    (hne : port ≠ some p) : Wired port ready connecting ports (disconnected ++ [p]) pending tasks attempts where
  live := by
    intro q hq
    obtain ⟨hqlt, hqd⟩ := h.live q hq
    refine ⟨hqlt, fun hmem => ?_⟩
    rcases List.mem_append.mp hmem with hmem | hmem
    · exact hqd hmem
    · exact hne (List.mem_singleton.mp hmem ▸ hq)
  only := fun q hqlt hq => h.only q hqlt fun hmem => hq (List.mem_append_left _ hmem)
  closed := by
    intro q hq
    rcases List.mem_append.mp hq with hq | hq
    · exact h.closed q hq
    · rw [List.mem_singleton.mp hq]
      exact hlt
  greeted := h.greeted
  handed := h.handed
  attempt_lt := h.attempt_lt
  idle := h.idle
  unready := h.unready

theorem establish (h : Wired none ready connecting ports disconnected pending tasks attempts) :
    Wired (some ports) ready (some n) (ports + 1) disconnected pending tasks
      (Function.update attempts n (.preparing ports)) where
  live := by
    rintro p ⟨⟩
    exact ⟨Nat.lt_succ_self ports, fun hmem => absurd (h.closed ports hmem) (Nat.lt_irrefl ports)⟩
  only := by
    intro p hlt hp
    rcases Nat.lt_succ_iff_lt_or_eq.mp hlt with hlt | rfl
    · exact nomatch h.only p hlt hp
    · rfl
  closed := fun p hp => Nat.lt_succ_of_lt (h.closed p hp)
  greeted := by
    rintro p ⟨⟩
    exact .inr ⟨n, rfl, by rw [Function.update_self]; rfl⟩
  handed := by
    intro m call p hm
    have hlt := (h.handed m call p hm).1
    exact ⟨Nat.lt_succ_of_lt hlt, fun heq => absurd (Option.some.inj heq) hlt.ne'⟩
  attempt_lt := by
    intro m p hp
    by_cases hmn : m = n
    · subst hmn
      rw [Function.update_self] at hp
      obtain rfl := Option.some.inj hp
      exact Nat.lt_succ_self ports
    · rw [Function.update_of_ne hmn] at hp
      exact Nat.lt_succ_of_lt (h.attempt_lt m p hp)
  idle := fun hp => nomatch hp
  unready := fun hp => nomatch hp

end Wired

namespace BridgeState
variable {o : NativeBridgeOptions κ φ ν η} {s s' : BridgeState κ φ ν}

abbrev IsWired (s : BridgeState κ φ ν) : Prop :=
  Wired s.port s.ready s.connecting s.ports s.disconnected s.pending s.tasks s.attempts

theorem isConnected_iff {port : Nat} : s.isConnected port = true ↔ port < s.ports ∧ port ∉ s.disconnected := by
  simp [isConnected]

theorem IsWired.connected (h : s.IsWired) {port : Nat} : s.isConnected port = true ↔ s.port = some port := by
  rw [isConnected_iff]
  exact ⟨fun ⟨hlt, hp⟩ => h.only port hlt hp, h.live port⟩

theorem currentPort_ok {port : Nat} (h : s.currentPort = .ok port) : s.port = some port ∧ s.ready = true := by
  unfold currentPort at h
  split at h
  · rename_i hport hready
    exact ⟨hport.trans (congrArg some (Except.ok.inj h)), hready⟩
  · exact nomatch h

theorem resumed_connected {call call' : Option (BridgeCall φ ν)} {result : Except Thrown Unit} {port : Nat}
    (h : resumed call (result.bind fun _ => s.currentPort) = .connected call' port) :
    s.port = some port ∧ s.ready = true := by
  cases result with
  | error error => exact nomatch h
  | ok _ =>
    have h : resumed call s.currentPort = .connected call' port := h
    cases hcurrent : s.currentPort with
    | error error =>
      rw [hcurrent] at h
      exact nomatch h
    | ok p =>
      rw [hcurrent] at h
      obtain ⟨-, rfl⟩ := BridgeTask.connected.inj h
      exact currentPort_ok hcurrent

theorem IsWired.requests (h : s.IsWired) {port : Nat} {envelope : NativeEnvelope} {expectedType : String}
    {promise : NativePromise} (hs : Requests o s port envelope expectedType promise s') : s'.IsWired := by
  cases hs with
  | refused _ => exact h
  | posted _ hconnected =>
    have hport : s.port = some port := h.connected.mp hconnected
    exact { h with idle := fun hnone => nomatch hport.symm.trans hnone }
  | failed _ =>
    apply Wired.shrink h
    intro request hr
    obtain ⟨hr, hother⟩ := mem_deleteRows.mp hr
    rcases mem_upsertRow_const hr with hr | rfl
    · exact hr
    · exact nomatch (beq_self_eq_true _).symm.trans hother

theorem scheduleReconnect_wiring (s : BridgeState κ φ ν) : s.scheduleReconnect.port = s.port ∧
    s.scheduleReconnect.ready = s.ready ∧ s.scheduleReconnect.connecting = s.connecting ∧
    s.scheduleReconnect.ports = s.ports ∧ s.scheduleReconnect.disconnected = s.disconnected ∧
    s.scheduleReconnect.pending = s.pending ∧ s.scheduleReconnect.tasks = s.tasks ∧
    s.scheduleReconnect.attempts = s.attempts := by
  unfold scheduleReconnect
  split_ifs <;> exact ⟨rfl, rfl, rfl, rfl, rfl, rfl, rfl, rfl⟩

theorem IsWired.scheduleReconnect (h : s.IsWired) : s.scheduleReconnect.IsWired := by
  unfold BridgeState.scheduleReconnect
  split_ifs <;> exact h

theorem IsWired.cancelReconnect (h : s.IsWired) : s.cancelReconnect.IsWired := by
  unfold BridgeState.cancelReconnect
  split <;> exact h

theorem IsWired.closeCurrentPort (h : s.IsWired) (error : Thrown) : (s.closeCurrentPort error).IsWired := h.lose

theorem IsWired.failAttempt (h : s.IsWired) {n port : Nat} {error : Thrown} (hat : (s.attempts n).port? = some port) :
    (s.failAttempt n port error).IsWired := by
  unfold BridgeState.failAttempt
  split_ifs with hport
  · have hclosed := (h.closeCurrentPort (some (error.getD "native host hello failed"))).scheduleReconnect
    have hnone : ((s.closeCurrentPort (some (error.getD "native host hello failed"))).scheduleReconnect).port = none :=
      (scheduleReconnect_wiring _).1
    exact hclosed.setAttempt (fun p hp => nomatch hnone.symm.trans hp) fun _ hp => nomatch hp
  · refine h.setAttempt (fun p hp hother => ?_) fun _ hp => nomatch hp
    exact absurd (hp.trans (hother.symm.trans hat)) hport

/-- A port that is not ready belongs to an attempt in progress; where there is none there is no port. -/
theorem IsWired.port_none (h : s.IsWired) {error : Thrown} (hcurrent : s.currentPort = .error error)
    (hconnecting : s.connecting = none) : s.port = none := by
  cases hport : s.port with
  | none => rfl
  | some p =>
    rcases h.greeted p hport with hready | ⟨m, hm, -⟩
    · rw [currentPort, hport, hready] at hcurrent
      exact nomatch hcurrent
    · exact nomatch hconnecting.symm.trans hm

theorem IsWired.ensureConnected (h : s.IsWired) (n : Nat) (call : Option (BridgeCall φ ν)) (est : Establishing) :
    (s.ensureConnected o n call est).IsWired := by
  unfold BridgeState.ensureConnected
  split
  · rename_i port hport
    apply h.setTask
    rintro call' p ⟨⟩
    exact currentPort_ok hport
  · exact h.setTask _ fun _ _ heq => nomatch heq
  · rename_i error hcurrent hconnecting
    have hnone := h.port_none hcurrent hconnecting
    unfold BridgeState.establish
    split_ifs
    · have hbefore : Wired none s.ready s.connecting s.ports s.disconnected s.pending s.tasks s.attempts := hnone ▸ h
      have hnew := hbefore.establish (n := n)
      exact hnew.setTask _ fun _ _ heq => nomatch heq
    · have hscheduled := h.scheduleReconnect
      have hport : s.scheduleReconnect.port = none := (scheduleReconnect_wiring s).1.trans hnone
      rw [IsWired, hport] at hscheduled
      have hended : Wired none s.scheduleReconnect.ready s.scheduleReconnect.connecting s.scheduleReconnect.ports
          s.scheduleReconnect.disconnected s.scheduleReconnect.pending s.scheduleReconnect.tasks
          (Function.update s.scheduleReconnect.attempts n (.ended (.error (some "native host connection failed")))) :=
        hscheduled.setAttempt (fun _ hp => nomatch hp) fun _ hp => nomatch hp
      have htask := (hended.setConnecting (some n)).setTask (n := n) (.leading call) fun _ _ heq => nomatch heq
      rw [← hport] at htask
      exact htask

theorem IsWired.invoke (h : s.IsWired) (call : BridgeCall φ ν) (est : Establishing) : (s.invoke o call est).IsWired := by
  have hwanted : (s.countCall.setDesired true).IsWired := h
  have hcounted : s.countCall.IsWired := h
  cases call with
  | start => exact hwanted.ensureConnected ..
  | reconnect => exact (hwanted.cancelReconnect.closeCurrentPort _).ensureConnected ..
  | request prepared => exact hcounted.ensureConnected ..
  | notify notice => exact hcounted.ensureConnected ..

theorem IsWired.proceed (h : s.IsWired) {n : Nat} {writes : Bool} (hs : s.proceed o n writes = some s') :
    s'.IsWired := by
  cases proceed_cases hs with
  | failed hat => exact h.failAttempt hat
  | @greeted port hello s₁ hat hreq =>
    have hmade := h.requests hreq
    have hkept : (s₁.attempts n).port? = some port := by
      rw [hreq.attempts, hat]
      rfl
    exact hmade.setAttempt (fun p _ hp => hkept.symm.trans hp) fun p hp => hkept.trans hp
  | @connected port requestId payload hat _ hport =>
    have hready : Wired s.port true s.connecting s.ports s.disconnected s.pending s.tasks s.attempts :=
      { h with
        greeted := fun _ _ => .inl rfl
        handed := fun m call p hm => ⟨(h.handed m call p hm).1, fun _ => rfl⟩
        unready := fun hnone => nomatch hport.symm.trans hnone }
    have hended : Wired s.port true s.connecting s.ports s.disconnected s.pending s.tasks
        (Function.update s.attempts n (.ended (.ok ()))) :=
      { hready with
        greeted := fun _ _ => .inl rfl
        attempt_lt := by
          intro m p hp
          by_cases hmn : m = n
          · subst hmn
            rw [Function.update_self] at hp
            exact nomatch hp
          · rw [Function.update_of_ne hmn] at hp
            exact h.attempt_lt m p hp }
    exact hended

theorem IsWired.endConnecting (h : s.IsWired) {n : Nat} {result : Except Thrown Unit} (hended : s.attempts n = .ended result) :
    (s.endConnecting n).IsWired := by
  refine { h with greeted := ?_ }
  intro p hp
  rcases h.greeted p hp with hready | ⟨m, hm, hport⟩
  · exact .inl hready
  · have hmn : m ≠ n := by
      rintro rfl
      rw [hended] at hport
      exact nomatch hport
    refine .inr ⟨m, ?_, hport⟩
    show (if s.connecting = some n then none else s.connecting) = some m
    rw [hm, if_neg fun heq => hmn (Option.some.inj heq)]

theorem IsWired.advance (h : s.IsWired) {n : Nat} {requestId : String} {writes : Bool}
    (hs : s.advance o n requestId writes = some s') : s'.IsWired := by
  cases advance_cases hs with
  | joined _ _ => exact h.setTask _ fun _ _ heq => resumed_connected heq
  | led _ hended =>
    have hleft := h.endConnecting hended
    exact hleft.setTask _ fun _ _ heq => resumed_connected heq
  | fulfilled _ _ => exact h.setTask _ fun _ _ heq => nomatch heq
  | noticed _ _ => exact h.setTask _ fun _ _ heq => nomatch heq
  | rejected _ _ => exact h.setTask _ fun _ _ heq => nomatch heq
  | @requested _ _ _ client _ _ _ hreq =>
    have hclient : (s.setClient client).IsWired := h
    have hmade := hclient.requests hreq
    exact hmade.setTask _ fun _ _ heq => nomatch heq

theorem IsWired.step (h : s.IsWired) {e : BridgeEvent φ ν η} (hs : BridgeState.step o s e = some s') : s'.IsWired := by
  cases e with
  | call call est => exact Option.some.inj hs ▸ h.invoke call est
  | stop =>
    have hstopped : (s.setDesired false).IsWired := h
    exact Option.some.inj hs ▸ hstopped.cancelReconnect.closeCurrentPort _
  | hello n found =>
    simp only [BridgeState.step] at hs
    split at hs
    · rename_i port hat
      rw [← Option.some.inj hs]
      -- the attempt stays on its port, only what it waits for changes
      have hkept : (s.attempts n).port? = some port := by
        rw [hat]
        rfl
      exact h.setAttempt (fun p _ hp => hkept.symm.trans hp) fun p hp => hkept.trans hp
    · exact nomatch hs
  | proceed n writes =>
    have hs : s.proceed o n writes = some s' := hs
    exact h.proceed hs
  | advance n requestId writes =>
    have hs : s.advance o n requestId writes = some s' := hs
    exact h.advance hs
  | message port raw =>
    rcases handleMessage_cases (Option.some.inj hs) with rfl | ⟨message, -, -, hreceives⟩
    · exact h
    · cases hreceives with
      | executed _ => exact h
      | answered _ _ => exact h.shrink fun request hr => (mem_deleteRows.mp hr).1
      | unmatched _ => exact h
  | disconnect port =>
    simp only [BridgeState.step] at hs
    split_ifs at hs with hlt
    rw [← Option.some.inj hs]
    unfold handleDisconnect
    split_ifs with hport
    · have hlost := h.lose
      rw [hport] at hlost
      have hlost : ((s.disconnect [port]).losePort (some "native host disconnected")).IsWired := hlost
      exact hlost.scheduleReconnect
    · exact h.other hlt hport
  | fire handle est =>
    obtain ⟨timer, -, rfl⟩ := Option.map_eq_some_iff.mp hs
    unfold BridgeState.fire
    split
    · split
      · exact h.shrink fun request hr => (mem_deleteRows.mp hr).1
      · exact h
    -- the reconnect timer makes a call of its own
    · dsimp only
      split_ifs
      · exact h
      · have hcounted : ({ s.clearTimer handle with reconnectTimer := none }.countCall).IsWired := h
        exact hcounted.ensureConnected ..

end BridgeState
end Fubun.Bridge

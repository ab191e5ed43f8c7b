import Fubun.Bridge.Steps

/-! The timers of a bridge: one for each pending request, and at most one for the next attempt. -/

namespace Fubun.Bridge
open Relational

/-- How the pending requests and the reconnect timer sit among the timers that are set. -/
structure Ticks (pending : List PendingNativeRequest) (timers : List Timer) (nextTimer : Nat)
    (reconnectTimer : Option Nat) : Prop where
  keyed : Keyed Timer.handle timers
  timers_lt : ∀ timer ∈ timers, timer.handle < nextTimer
  pending_lt : ∀ request ∈ pending, request.timeout < nextTimer
  apart : ∀ request ∈ pending, reconnectTimer ≠ some request.timeout
  armed : ∀ handle, reconnectTimer = some handle → ∃ timer ∈ timers, timer.handle = handle ∧ timer.callback = .reconnect
  only : ∀ timer ∈ timers, timer.callback = .reconnect → reconnectTimer = some timer.handle

namespace Ticks
variable {pending pending' : List PendingNativeRequest} {timers : List Timer} {nextTimer : Nat}
  {reconnectTimer : Option Nat}

theorem empty (nextTimer : Nat) : Ticks [] [] nextTimer none where
  keyed := keyed_nil
  timers_lt := fun _ h => nomatch h
  pending_lt := fun _ h => nomatch h
  apart := fun _ h => nomatch h
  armed := fun _ h => nomatch h
  only := fun _ h => nomatch h

theorem shrink (h : Ticks pending timers nextTimer reconnectTimer) (hsub : ∀ request ∈ pending', request ∈ pending) :
    Ticks pending' timers nextTimer reconnectTimer :=
  { h with
    pending_lt := fun request hr => h.pending_lt request (hsub request hr)
    apart := fun request hr => h.apart request (hsub request hr) }

theorem clear (h : Ticks pending timers nextTimer reconnectTimer) {p : Timer → Bool}
    (hp : ∀ timer ∈ timers, p timer = true → reconnectTimer ≠ some timer.handle) :
    Ticks pending (deleteRows p timers) nextTimer reconnectTimer where
  keyed := h.keyed.delete
  timers_lt := fun timer ht => h.timers_lt timer (mem_deleteRows.mp ht).1
  pending_lt := h.pending_lt
  apart := h.apart
  armed := by
    intro handle hhandle
    obtain ⟨timer, ht, heq, hcallback⟩ := h.armed handle hhandle
    have hkept : p timer = false := by
      by_contra hdel
      exact hp timer ht (by simpa using hdel) (heq ▸ hhandle)
    exact ⟨timer, mem_deleteRows.mpr ⟨ht, hkept⟩, heq, hcallback⟩
  only := fun timer ht => h.only timer (mem_deleteRows.mp ht).1

theorem disarm {handle : Nat} (h : Ticks pending timers nextTimer (some handle)) :
    Ticks pending (deleteRows (·.handle == handle) timers) nextTimer none where
  keyed := h.keyed.delete
  timers_lt := fun timer ht => h.timers_lt timer (mem_deleteRows.mp ht).1
  pending_lt := h.pending_lt
  apart := fun _ _ => by simp
  armed := fun _ h => nomatch h
  only := by
    intro timer ht hcallback
    obtain ⟨ht, hkept⟩ := mem_deleteRows.mp ht
    have heq : handle = timer.handle := Option.some.inj (h.only timer ht hcallback)
    exact absurd heq.symm (by simpa using hkept)

theorem request (h : Ticks pending timers nextTimer reconnectTimer) {requestId : String} {delay : Nat}
    (hpending : ∀ request ∈ pending', request ∈ pending ∨ request.timeout = nextTimer) :
    Ticks pending' (timers ++ [⟨nextTimer, .request requestId, delay⟩]) (nextTimer + 1) reconnectTimer where
  keyed := h.keyed.insert fun timer ht => (h.timers_lt timer ht).ne
  timers_lt := by
    intro timer ht
    rcases List.mem_append.mp ht with ht | ht
    · exact Nat.lt_succ_of_lt (h.timers_lt timer ht)
    · rw [List.mem_singleton.mp ht]
      exact Nat.lt_succ_self nextTimer
  pending_lt := by
    intro request hr
    rcases hpending request hr with hr | hr
    · exact Nat.lt_succ_of_lt (h.pending_lt request hr)
    · omega
  apart := by
    intro request hr heq
    rcases hpending request hr with hr | hr
    · exact h.apart request hr heq
    · obtain ⟨timer, ht, hhandle, -⟩ := h.armed _ heq
      exact absurd (h.timers_lt timer ht) (by omega)
  armed := by
    intro handle hhandle
    obtain ⟨timer, ht, hcallback⟩ := h.armed handle hhandle
    exact ⟨timer, List.mem_append_left _ ht, hcallback⟩
  only := by
    intro timer ht hcallback
    rcases List.mem_append.mp ht with ht | ht
    · exact h.only timer ht hcallback
    · rw [List.mem_singleton.mp ht] at hcallback
      exact nomatch hcallback

theorem arm (h : Ticks pending timers nextTimer none) (delay : Nat) :
    Ticks pending (timers ++ [⟨nextTimer, .reconnect, delay⟩]) (nextTimer + 1) (some nextTimer) where
  keyed := h.keyed.insert fun timer ht => (h.timers_lt timer ht).ne
  timers_lt := by
    intro timer ht
    rcases List.mem_append.mp ht with ht | ht
    · exact Nat.lt_succ_of_lt (h.timers_lt timer ht)
    · rw [List.mem_singleton.mp ht]
      exact Nat.lt_succ_self nextTimer
  pending_lt := fun request hr => Nat.lt_succ_of_lt (h.pending_lt request hr)
  apart := fun request hr heq => (h.pending_lt request hr).ne (Option.some.inj heq).symm
  armed := fun _ hhandle => ⟨_, List.mem_append_right _ (List.mem_singleton_self _), Option.some.inj hhandle, rfl⟩
  only := by
    intro timer ht hcallback
    rcases List.mem_append.mp ht with ht | ht
    · exact nomatch h.only timer ht hcallback
    · rw [List.mem_singleton.mp ht]

end Ticks

namespace BridgeState
variable {κ φ ν η : Type} {o : NativeBridgeOptions κ φ ν η} {s s' : BridgeState κ φ ν}

abbrev Ticking (s : BridgeState κ φ ν) : Prop := Ticks s.pending s.timers s.nextTimer s.reconnectTimer

theorem Ticking.clearTimer (h : s.Ticking) {handle : Nat} (hne : s.reconnectTimer ≠ some handle) :
    (s.clearTimer handle).Ticking :=
  h.clear fun timer _ heq => by rw [beq_iff_eq.mp heq]; exact hne

theorem Ticking.finish (h : s.Ticking) (request : PendingNativeRequest) (settlement : Settlement) :
    (s.finish request settlement).Ticking :=
  h.shrink fun _ hr => (mem_deleteRows.mp hr).1

theorem Ticking.losePort (h : s.Ticking) (error : Thrown) : (s.losePort error).Ticking := by
  have hcleared : Ticks s.pending (s.losePort error).timers s.nextTimer s.reconnectTimer := by
    apply h.clear
    intro timer _ hany
    obtain ⟨request, hr, heq⟩ := List.any_eq_true.mp hany
    exact beq_iff_eq.mp heq ▸ h.apart request hr
  exact hcleared.shrink fun _ hr => nomatch hr

theorem Ticking.openRequest (h : s.Ticking) {request : PendingNativeRequest} (ht : request.timeout = s.nextTimer) :
    (s.openRequest o request).Ticking := by
  apply Ticks.request h
  intro request' hr
  rcases mem_upsertRow_const hr with hr | rfl
  · exact .inl hr
  · exact .inr ht

theorem Ticking.requests {port : Nat} {envelope : NativeEnvelope} {expectedType : String} {promise : NativePromise}
    (h : s.Ticking) (hs : Requests o s port envelope expectedType promise s') : s'.Ticking := by
  cases hs with
  | refused _ => exact h
  | posted _ _ => exact h.openRequest rfl
  | failed _ =>
    -- the handle is new, so it is not that of the reconnect timer
    have hne : s.reconnectTimer ≠ some s.nextTimer := by
      intro heq
      obtain ⟨timer, ht, hhandle, -⟩ := h.armed _ heq
      exact (h.timers_lt timer ht).ne hhandle
    apply Ticking.finish
    exact Ticking.clearTimer (h.openRequest rfl) hne

theorem Ticking.scheduleReconnect (h : s.Ticking) : s.scheduleReconnect.Ticking := by
  unfold BridgeState.scheduleReconnect
  split_ifs with hidle
  · exact h
  · have hnone : s.reconnectTimer = none := by
      cases hr : s.reconnectTimer <;> simp_all
    exact Ticks.arm (hnone ▸ h) s.reconnectDelay

theorem Ticking.cancelReconnect (h : s.Ticking) : s.cancelReconnect.Ticking := by
  unfold BridgeState.cancelReconnect
  split
  · rename_i handle hhandle
    exact Ticks.disarm (hhandle ▸ h)
  · exact h

theorem Ticking.closeCurrentPort (h : s.Ticking) (error : Thrown) : (s.closeCurrentPort error).Ticking :=
  h.losePort error

theorem Ticking.failAttempt (h : s.Ticking) (n port : Nat) (error : Thrown) : (s.failAttempt n port error).Ticking := by
  unfold BridgeState.failAttempt
  split_ifs
  · exact (h.closeCurrentPort _).scheduleReconnect
  · exact h

theorem Ticking.ensureConnected (h : s.Ticking) (n : Nat) (call : Option (BridgeCall φ ν)) (est : Establishing) :
    (s.ensureConnected o n call est).Ticking := by
  unfold BridgeState.ensureConnected
  split
  · exact h
  · exact h
  · unfold BridgeState.establish
    split_ifs
    · exact h
    · exact h.scheduleReconnect

theorem Ticking.step (h : s.Ticking) {e : BridgeEvent φ ν η} (hs : BridgeState.step o s e = some s') : s'.Ticking := by
  cases e with
  | call call est =>
    obtain rfl := Option.some.inj hs
    cases call with
    | start => exact Ticking.ensureConnected (s := s.countCall.setDesired true) h ..
    | reconnect =>
      have hcancelled := Ticking.cancelReconnect (s := s.countCall.setDesired true) h
      exact (hcancelled.closeCurrentPort _).ensureConnected ..
    | request prepared => exact Ticking.ensureConnected (s := s.countCall) h ..
    | notify notice => exact Ticking.ensureConnected (s := s.countCall) h ..
  | stop =>
    obtain rfl := Option.some.inj hs
    exact (Ticking.cancelReconnect (s := s.setDesired false) h).closeCurrentPort _
  | hello n found =>
    simp only [BridgeState.step] at hs
    split at hs
    · exact Option.some.inj hs ▸ h
    · exact nomatch hs
  | proceed n writes =>
    have hs : s.proceed o n writes = some s' := hs
    cases proceed_cases hs with
    | failed _ => exact h.failAttempt ..
    | greeted _ hreq =>
      have hmade := h.requests hreq
      exact hmade
    | connected _ _ _ => exact h
  | advance n requestId writes =>
    have hs : s.advance o n requestId writes = some s' := hs
    cases advance_cases hs with
    | @requested _ _ _ client _ _ _ hreq =>
      have hmade := Ticking.requests (s := s.setClient client) h hreq
      exact hmade
    | _ => exact h
  | message port raw =>
    rcases handleMessage_cases (Option.some.inj hs) with rfl | ⟨message, -, -, hreceives⟩
    · exact h
    · cases hreceives with
      | executed _ => exact h
      | answered _ hfind =>
        exact (Ticking.clearTimer (s := s.record _) h (h.apart _ (List.mem_of_find?_eq_some hfind))).finish ..
      | unmatched _ => exact h
  | disconnect port =>
    simp only [BridgeState.step] at hs
    split_ifs at hs
    rw [← Option.some.inj hs]
    simp only [handleDisconnect]
    split_ifs
    · exact (Ticking.losePort (s := s.disconnect [port]) h _).scheduleReconnect
    · exact h
  | fire handle est =>
    obtain ⟨timer, hfind, rfl⟩ := Option.map_eq_some_iff.mp hs
    obtain ⟨ht, rfl⟩ := h.keyed.find?_eq_some.mp hfind
    unfold BridgeState.fire
    split
    · rename_i hcallback
      have hcleared : (s.clearTimer timer.handle).Ticking := by
        -- the timer of a request is not the reconnect timer
        apply h.clearTimer
        intro heq
        obtain ⟨timer', ht', hhandle, hcallback'⟩ := h.armed _ heq
        rw [h.keyed.eq ht' ht hhandle, hcallback] at hcallback'
        exact nomatch hcallback'
      split
      · exact hcleared.finish ..
      · exact hcleared
    · rename_i hcallback
      have hcleared : Ticks s.pending (s.clearTimer timer.handle).timers s.nextTimer none :=
        Ticks.disarm (h.only timer ht hcallback ▸ h)
      dsimp only
      split_ifs
      · exact hcleared
      · exact Ticking.ensureConnected (s := { s.clearTimer timer.handle with reconnectTimer := none, calls := s.calls + 1 })
          hcleared ..

end BridgeState
end Fubun.Bridge

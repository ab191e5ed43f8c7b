import Fubun.Bridge.Connection
import Fubun.Bridge.Timers

/-! A bridge that should be connected is connected, or on its way to be. -/

namespace Fubun.Bridge
open Relational

namespace BridgeState
variable {κ φ ν η : Type} {o : NativeBridgeOptions κ φ ν η} {s s' : BridgeState κ φ ν}

/-- A bridge that should be connected has its timer set while it has no port. -/
def Wanted (s : BridgeState κ φ ν) : Prop := s.desired = true → s.port = none → s.reconnectTimer ≠ none

/-- Where a step leaves hope: no `reconnect` takes the port away from an attempt in progress, and no
`start` relies on an attempt that has lost its port; and the timer fires for such an attempt only
when it has ended. -/
def timely (s : BridgeState κ φ ν) : BridgeEvent φ ν η → Bool
  | .call .start _ => s.connecting.isNone || s.port.isSome || s.reconnectTimer.isSome
  | .call .reconnect _ => s.connecting.isNone
  | .fire handle _ => s.connecting.isNone || s.port.isSome || s.reconnectTimer != some handle
  | _ => true

abbrev Timely (s : BridgeState κ φ ν) (e : BridgeEvent φ ν η) : Prop := timely s e = true

theorem scheduleReconnect_wanted (s : BridgeState κ φ ν) : s.scheduleReconnect.Wanted := by
  intro hdesired _
  unfold scheduleReconnect at hdesired ⊢
  split_ifs at hdesired ⊢ with hidle
  · intro hnone
    simp [hdesired, hnone] at hidle
  · exact Option.some_ne_none _

theorem ensureConnected_wanted {n : Nat} {call : Option (BridgeCall φ ν)} {est : Establishing}
    (hwanted : s.connecting ≠ none → s.Wanted) : (s.ensureConnected o n call est).Wanted := by
  unfold ensureConnected
  split
  · rename_i hport
    exact fun _ hnone => nomatch (currentPort_ok hport).1.symm.trans hnone
  · rename_i hconnecting
    exact hwanted (by rw [hconnecting]; exact Option.some_ne_none _)
  · unfold establish
    split_ifs
    · exact fun _ hnone => nomatch hnone
    · exact scheduleReconnect_wanted s

theorem Wanted.failAttempt (h : s.Wanted) (n port : Nat) (error : Thrown) : (s.failAttempt n port error).Wanted := by
  unfold BridgeState.failAttempt
  split_ifs
  · exact scheduleReconnect_wanted _
  · exact h

theorem cancelReconnect_connecting (s : BridgeState κ φ ν) : s.cancelReconnect.connecting = s.connecting := by
  unfold cancelReconnect
  split <;> rfl

theorem cancelReconnect_desired (s : BridgeState κ φ ν) : s.cancelReconnect.desired = s.desired := by
  unfold cancelReconnect
  split <;> rfl

theorem Wanted.invoke (h : s.Wanted) {call : BridgeCall φ ν} {est : Establishing}
    (hok : Timely s (.call call est : BridgeEvent φ ν η)) : (s.invoke o call est).Wanted := by
  cases call with
  | start =>
    apply ensureConnected_wanted
    intro hconnecting _ hport htimer
    have hok : (s.connecting.isNone || s.port.isSome || s.reconnectTimer.isSome) = true := hok
    rw [show s.port = none from hport, show s.reconnectTimer = none from htimer] at hok
    have hnone : s.connecting = none := by simpa using hok
    exact hconnecting hnone
  | reconnect =>
    have hnone : s.connecting = none := Option.isNone_iff_eq_none.mp hok
    have hconnecting : (s.countCall.setDesired true).cancelReconnect.connecting = none :=
      (cancelReconnect_connecting _).trans hnone
    exact ensureConnected_wanted fun hne => absurd hconnecting hne
  | request prepared => exact ensureConnected_wanted fun _ => h
  | notify notice => exact ensureConnected_wanted fun _ => h

theorem Wanted.fire (h : s.Wanted) (ht : s.Ticking) {handle : Nat} {est : Establishing}
    (hok : Timely s (.fire handle est : BridgeEvent φ ν η)) {timer : Timer}
    (hfind : s.timers.find? (·.handle == handle) = some timer) :
    ((s.clearTimer handle).fire o timer.callback est).Wanted := by
  obtain ⟨hmem, rfl⟩ := ht.keyed.find?_eq_some.mp hfind
  unfold BridgeState.fire
  split
  · split <;> exact h
  · rename_i hcallback
    have hok : (s.connecting.isNone || s.port.isSome || s.reconnectTimer != some timer.handle) = true := hok
    rw [ht.only timer hmem hcallback, bne_self_eq_false, Bool.or_false] at hok
    dsimp only
    split_ifs with hidle
    · -- nothing but an attempt in progress keeps the timer from starting another
      intro hdesired hport
      have hdesired : s.desired = true := hdesired
      have hport : s.port = none := hport
      have hidle : (! s.desired || s.port.isSome || s.connecting.isSome) = true := hidle
      rw [hport] at hok
      rw [hport, hdesired] at hidle
      cases hc : s.connecting <;> simp [hc] at hok hidle
    · have hconnecting : s.connecting = none := by
        have hidle : ¬ (! s.desired || s.port.isSome || s.connecting.isSome) = true := hidle
        cases hc : s.connecting <;> simp_all
      exact ensureConnected_wanted fun hne => absurd hconnecting hne

theorem Wanted.step (h : s.Wanted) (ht : s.Ticking) {e : BridgeEvent φ ν η} (hok : Timely s e)
    (hs : BridgeState.step o s e = some s') : s'.Wanted := by
  cases e with
  | call call est => exact Option.some.inj hs ▸ h.invoke hok
  | stop =>
    obtain rfl := Option.some.inj hs
    -- a stopped bridge wants nothing
    exact fun hdesired => by cases (cancelReconnect_desired (s.setDesired false)).symm.trans hdesired
  | hello n found =>
    simp only [BridgeState.step] at hs
    split at hs
    · exact Option.some.inj hs ▸ h
    · cases hs
  | proceed n writes =>
    have hs : s.proceed o n writes = some s' := hs
    cases proceed_cases hs with
    | failed _ => exact h.failAttempt n _ _
    | greeted _ hreq => cases hreq <;> exact h
    | connected _ _ _ => exact h
  | advance n requestId writes =>
    have hs : s.advance o n requestId writes = some s' := hs
    cases advance_cases hs with
    | requested _ _ hreq => cases hreq <;> exact h
    | _ => exact h
  | message port raw =>
    rcases handleMessage_cases (Option.some.inj hs) with rfl | ⟨message, -, -, hreceives⟩
    · exact h
    · cases hreceives <;> exact h
  | disconnect port =>
    simp only [BridgeState.step] at hs
    split_ifs at hs
    rw [← Option.some.inj hs]
    unfold handleDisconnect
    split_ifs
    · exact scheduleReconnect_wanted _
    · exact h
  | fire handle est =>
    obtain ⟨timer, hfind, rfl⟩ := Option.map_eq_some_iff.mp hs
    exact h.fire ht hok hfind

/-- The port is ready, an attempt is in progress, or the reconnect timer is set. -/
def Responsive (s : BridgeState κ φ ν) : Prop :=
  (∃ port, s.port = some port ∧ s.ready = true) ∨ (∃ n port, s.connecting = some n ∧ (s.attempts n).port? = some port) ∨
    ∃ timer ∈ s.timers, s.reconnectTimer = some timer.handle ∧ timer.callback = .reconnect

theorem Wanted.responsive (h : s.Wanted) (hw : s.IsWired) (ht : s.Ticking) (hdesired : s.desired = true) :
    s.Responsive := by
  cases hport : s.port with
  | some port =>
    rcases hw.greeted port hport with hready | ⟨n, hconnecting, hat⟩
    · exact .inl ⟨port, hport, hready⟩
    · exact .inr (.inl ⟨n, port, hconnecting, hat⟩)
  | none =>
    obtain ⟨handle, hhandle⟩ := Option.ne_none_iff_exists'.mp (h hdesired hport)
    obtain ⟨timer, hmem, rfl, hcallback⟩ := ht.armed handle hhandle
    exact .inr (.inr ⟨timer, hmem, hhandle, hcallback⟩)

variable (o) in
/-- No continuation waits to run. -/
def isIdle (s : BridgeState κ φ ν) : Bool :=
  (List.range s.calls).all fun n => (s.proceed o n true).isNone && (s.advance o n "" true).isNone

end BridgeState

open Concurrency.Machine BridgeState

variable {κ φ ν η : Type} {o : NativeBridgeOptions κ φ ν η} {client : κ} {s : BridgeState κ φ ν}

theorem reaches_ticking {ok : BridgeState κ φ ν → BridgeEvent φ ν η → Prop} (h : Reaches (step o) (.init client) ok s) :
    s.Ticking :=
  h.invariant (I := Ticking) (Ticks.empty 0) fun _ _ _ hi _ hs => hi.step hs

theorem reaches_wired {ok : BridgeState κ φ ν → BridgeEvent φ ν η → Prop} (h : Reaches (step o) (.init client) ok s) :
    s.IsWired := by
  apply h.invariant (I := IsWired)
  · exact ⟨fun _ hp => (nomatch hp), fun _ hp => (nomatch hp), fun _ hp => (nomatch hp), fun _ hp => (nomatch hp),
      fun _ _ _ hp => (nomatch hp), fun _ _ hp => (nomatch hp), fun _ => rfl, fun _ => rfl⟩
  · exact fun s e s' hi _ hs => hi.step hs

/-- A bridge that should be connected is never silent, as long as its steps are timely. -/
theorem never_silent (h : Reaches (step o) (.init client) Timely s) (hdesired : s.desired = true) : s.Responsive := by
  have hboth : s.Wanted ∧ s.Ticking := by
    apply h.invariant (I := fun s => s.Wanted ∧ s.Ticking)
    · exact ⟨fun hdesired => (nomatch hdesired), Ticks.empty 0⟩
    · exact fun s e s' hi hok hs => ⟨hi.1.step hi.2 hok hs, hi.2.step hs⟩
  exact hboth.1.responsive (reaches_wired h) hboth.2 hdesired

end Fubun.Bridge

namespace Fubun.Sample
open Bridge

def quietClient : NativeBridgeOptions Unit Unit Unit (Except Thrown NativeEnvelope) where
  requestTimeoutMs := 10000
  maxPending := 64
  type := fun _ => "integration.ping"
  expectedType := fun _ => "integration.pong"
  payloadFactory := fun _ client => (.ok none, client)
  notice := fun _ => ⟨currentProtocolVersion, "", "browser.action.result", none⟩
  beginHello := fun _ client => client
  createHello := fun found _ => found

/-- The extension starts, and `reconnect` is called before its hello is made. -/
def replacedEarly : List (BridgeEvent Unit Unit (Except Thrown NativeEnvelope)) :=
  [.call .start ⟨true, "i"⟩, .call .reconnect ⟨true, "j"⟩,
    .hello 0 (.ok ⟨currentProtocolVersion, "h", "extension.hello", none⟩), .proceed 0 true, .proceed 0 true,
    .advance 0 "" true, .advance 0 "" true, .advance 1 "" true, .advance 1 "" true]

end Fubun.Sample

namespace Fubun.Bridge
open Concurrency.Machine BridgeState

theorem never_silent_disconnected : ∃ s, Reaches (step Sample.quietClient) (.init ()) Timely s ∧ s.port = none ∧
    s.Responsive := by
  obtain ⟨s, hs, hport, hdesired⟩ : ∃ s, execIf (step Sample.quietClient) Timely (.init ())
      [.call .start ⟨true, "i"⟩, .disconnect 0] = some s ∧ s.port = none ∧ s.desired = true :=
    ⟨_, rfl, rfl, rfl⟩
  have hr := Reaches.init.execIf hs
  exact ⟨s, hr, hport, never_silent hr hdesired⟩

/-- The attempt ends with its port gone, and nobody makes another one. -/
theorem silent_after_reconnect : ¬ ∀ s, Reaches (step Sample.quietClient) (.init ()) Anyhow s →
    s.isIdle Sample.quietClient = true → s.desired = true → s.Responsive := by
  intro hall
  have hrun : ((exec (step Sample.quietClient) (.init ()) Sample.replacedEarly).map fun s =>
      (s.isIdle Sample.quietClient, s.desired, s.port, s.connecting, s.reconnectTimer)) =
        some (true, true, none, none, none) := by
    decide +kernel
  obtain ⟨s, hs, heq⟩ := Option.map_eq_some_iff.mp hrun
  simp only [Prod.mk.injEq] at heq
  obtain ⟨hidle, hdesired, hport, hconnecting, htimer⟩ := heq
  rcases hall s (Reaches.init.exec hs) hidle hdesired with ⟨port, hp, -⟩ | ⟨n, -, hn, -⟩ | ⟨timer, -, ht, -⟩
  · exact nomatch hport.symm.trans hp
  · exact nomatch hconnecting.symm.trans hn
  · exact nomatch htimer.symm.trans ht

end Fubun.Bridge

import Fubun.Bridge.State

/-! What one step of a bridge can do. -/

namespace Fubun.Bridge
open Encoding Relational

variable {κ φ ν η : Type} (o : NativeBridgeOptions κ φ ν η)

def Attempt.port? : Attempt → Option Nat
  | .preparing port | .prepared port _ | .greeting port _ => some port
  | .absent | .ended _ => none

namespace BridgeState

/-- What `requestOnPort` can do when it does not throw. -/
inductive Requests (s : BridgeState κ φ ν) (port : Nat) (envelope : NativeEnvelope) (expectedType : String)
    (promise : NativePromise) : BridgeState κ φ ν → Prop
  | refused (hfull : o.maxPending ≤ s.pending.length) : Requests s port envelope expectedType promise
      (s.settle promise (.rejected (some "too many native requests")))
  | posted (hroom : s.pending.length < o.maxPending) (hconnected : s.isConnected port = true) :
      Requests s port envelope expectedType promise
        ((s.openRequest o ⟨envelope.requestId, expectedType, promise, s.nextTimer⟩).record (.posted port envelope))
  | failed (hroom : s.pending.length < o.maxPending) : Requests s port envelope expectedType promise
      (((s.openRequest o ⟨envelope.requestId, expectedType, promise, s.nextTimer⟩).clearTimer s.nextTimer).finish
        ⟨envelope.requestId, expectedType, promise, s.nextTimer⟩ (.rejected (some "native host write failed")))

/-- What the continuation of an attempt can do. -/
inductive Proceeds (s : BridgeState κ φ ν) (n : Nat) : BridgeState κ φ ν → Prop
  | failed {port error} (hat : (s.attempts n).port? = some port) : Proceeds s n (s.failAttempt n port error)
  | greeted {port hello s'} (hat : s.attempts n = .prepared port (.ok hello))
      (hreq : Requests o s port hello "extension.hello.ack" (.hello n) s') :
      Proceeds s n (s'.setAttempt n (.greeting port hello.requestId))
  | connected {port requestId payload} (hat : s.attempts n = .greeting port requestId)
      (hsettled : s.settlement? (.hello n) = some (.fulfilled payload)) (hport : s.port = some port) :
      Proceeds s n (s.becomeReady.setAttempt n (.ended (.ok ())))

/-- What the continuation of a call can do. -/
inductive Advances (s : BridgeState κ φ ν) (n : Nat) (requestId : String) : BridgeState κ φ ν → Prop
  | joined {call attempt result} (hat : s.tasks n = .joining call attempt)
      (hended : s.attempts attempt = .ended result) :
      Advances s n requestId (s.setTask n (resumed call (result.bind fun _ => s.currentPort)))
  | led {call result} (hat : s.tasks n = .leading call) (hended : s.attempts n = .ended result) :
      Advances s n requestId ((s.endConnecting n).setTask n (resumed call (result.bind fun _ => s.currentPort)))
  | fulfilled {call port} (hat : s.tasks n = .connected call port) (hcall : ∀ prepared, call ≠ some (.request prepared)) :
      Advances s n requestId (s.fulfil n call)
  | noticed {notice port} (hat : s.tasks n = .connected (some (.notify notice)) port)
      (hconnected : s.isConnected port = true) :
      Advances s n requestId ((s.record (.posted port (o.notice notice))).fulfil n (some (.notify notice)))
  | rejected {call error client} (hat : (∃ port, s.tasks n = .connected call port) ∨ s.tasks n = .unavailable call error)
      (hclient : client = s.client ∨ ∃ prepared, client = (o.payloadFactory prepared s.client).2) :
      Advances s n requestId ((s.setClient client).reject n call error)
  | requested {prepared port payload client s'} (hat : s.tasks n = .connected (some (.request prepared)) port)
      (hpayload : o.payloadFactory prepared s.client = (.ok payload, client))
      (hreq : Requests o (s.setClient client) port
        ⟨currentProtocolVersion, requestId, o.type prepared, payload⟩ (o.expectedType prepared) (.call n) s') :
      Advances s n requestId (s'.setTask n (.waiting prepared requestId))

/-- What a message can do on the current port. -/
inductive Receives (s : BridgeState κ φ ν) (port : Nat) (message : NativeEnvelope) : BridgeState κ φ ν → Prop
  | executed (htype : message.type = "browser.action.execute") :
      Receives s port message ((s.record (.received port message)).record (.executed message))
  | answered {request} (htype : message.type ≠ "browser.action.execute")
      (hfind : s.findPending message.requestId = some request) :
      Receives s port message (((s.record (.received port message)).clearTimer request.timeout).finish request
        (request.outcome message))
  | unmatched (htype : message.type ≠ "browser.action.execute") :
      Receives s port message (s.record (.received port message))

variable {o} {s s' : BridgeState κ φ ν} {n port : Nat} {requestId : String} {writes : Bool}

theorem requestOnPort_cases {envelope : NativeEnvelope} {expectedType : String} {promise : NativePromise}
    (h : s.requestOnPort o port envelope expectedType promise writes = .ok s') :
    Requests o s port envelope expectedType promise s' := by
  simp only [requestOnPort] at h
  split_ifs at h with _ hfull hwrites
  · exact Except.ok.inj h ▸ .refused hfull
  · obtain ⟨-, hconnected⟩ := Bool.and_eq_true_iff.mp hwrites
    exact Except.ok.inj h ▸ .posted (Nat.lt_of_not_le hfull) hconnected
  · exact Except.ok.inj h ▸ .failed (Nat.lt_of_not_le hfull)

theorem Requests.tasks {envelope : NativeEnvelope} {expectedType : String} {promise : NativePromise}
    (hs : Requests o s port envelope expectedType promise s') : s'.tasks = s.tasks := by
  cases hs <;> rfl

theorem Requests.attempts {envelope : NativeEnvelope} {expectedType : String} {promise : NativePromise}
    (hs : Requests o s port envelope expectedType promise s') : s'.attempts = s.attempts := by
  cases hs <;> rfl

theorem proceed_cases (h : s.proceed o n writes = some s') : Proceeds o s n s' := by
  unfold proceed at h
  split at h
  · rename_i hat
    exact Option.some.inj h ▸ .failed (by rw [hat]; rfl)
  · rename_i hat
    split at h
    · exact Option.some.inj h ▸ .failed (by rw [hat]; rfl)
    · rename_i hreq
      exact Option.some.inj h ▸ .greeted hat (requestOnPort_cases hreq)
  · rename_i hat
    split at h
    · rename_i hsettled
      split_ifs at h with hport
      · exact Option.some.inj h ▸ .connected hat hsettled hport
      · exact Option.some.inj h ▸ .failed (by rw [hat]; rfl)
    · exact Option.some.inj h ▸ .failed (by rw [hat]; rfl)
    · exact nomatch h
  all_goals exact nomatch h

theorem sendNotice_cases {notice : ν} (hat : s.tasks n = .connected (some (.notify notice)) port) :
    Advances o s n requestId (s.sendNotice o n port notice writes) := by
  unfold sendNotice
  split_ifs with _ hwrites
  · exact .rejected (.inl ⟨_, hat⟩) (.inl rfl)
  · exact .noticed hat (Bool.and_eq_true_iff.mp hwrites).2
  · exact .rejected (.inl ⟨_, hat⟩) (.inl rfl)

theorem sendRequest_cases {prepared : φ} (hat : s.tasks n = .connected (some (.request prepared)) port) :
    Advances o s n requestId (s.sendRequest o n port prepared requestId writes) := by
  unfold sendRequest
  have hclient : ∀ {result client}, o.payloadFactory prepared s.client = (result, client) →
      client = s.client ∨ ∃ prepared, client = (o.payloadFactory prepared s.client).2 :=
    fun hpayload => .inr ⟨prepared, by rw [hpayload]⟩
  split
  · rename_i hpayload
    exact .rejected (.inl ⟨_, hat⟩) (hclient hpayload)
  · rename_i hpayload
    split
    · exact .rejected (.inl ⟨_, hat⟩) (hclient hpayload)
    · rename_i hreq
      exact .requested hat hpayload (requestOnPort_cases hreq)

theorem advance_cases (h : s.advance o n requestId writes = some s') : Advances o s n requestId s' := by
  unfold advance at h
  split at h
  · rename_i hat
    split at h
    · rename_i hended
      exact Option.some.inj h ▸ .joined hat hended
    · exact nomatch h
  · rename_i hat
    split at h
    · rename_i hended
      exact Option.some.inj h ▸ .led hat hended
    · exact nomatch h
  · rename_i hat
    split at h
    · exact Option.some.inj h ▸ sendRequest_cases hat
    · exact Option.some.inj h ▸ sendNotice_cases hat
    all_goals exact Option.some.inj h ▸ .fulfilled hat fun _ h => nomatch h
  · rename_i hat
    exact Option.some.inj h ▸ .rejected (.inr hat) (.inl rfl)
  all_goals exact nomatch h

theorem receive_cases (message : NativeEnvelope) : Receives s port message (s.receive port message) := by
  simp only [receive]
  split_ifs with htype
  · exact .executed htype
  · split
    · rename_i hfind
      exact .answered htype hfind
    · exact .unmatched htype

theorem handleMessage_cases {raw : Json} (h : s.handleMessage port raw = s') : s' = s ∨
    ∃ message, s.port = some port ∧ parseNativeEnvelope raw = .ok message ∧ Receives s port message s' := by
  unfold handleMessage at h
  split_ifs at h with hport
  · split at h
    · rename_i hparse
      exact .inr ⟨_, hport, hparse, h ▸ receive_cases _⟩
    · exact .inl h.symm
  · exact .inl h.symm

end BridgeState
end Fubun.Bridge

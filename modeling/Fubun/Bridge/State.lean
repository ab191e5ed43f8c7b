import Fubun.Concurrency.Machine
import Fubun.Extensions.Protocol
import Fubun.Relational.Table

/-! The bridge of the browser extension to its native host, while calls are under way. Code between
two awaits runs in one piece; where a call waits for a promise, it goes on in a step of its own. -/

namespace Fubun.Bridge
open Encoding Extensions Relational

/-! ## Messages -/

/-- A message; the payload is `none` where the object has none. -/
structure NativeEnvelope where
  protocolVersion : ProtocolVersion
  requestId : String
  type : String
  payload : Option Json

def isKnownNativeType (type : String) : Bool :=
  ["extension.hello", "browser.observation.enable", "browser.observation.pause", "browser.event.emit",
    "browser.action.result", "integration.ping", "extension.hello.ack", "browser.observation.enabled",
    "browser.observation.paused", "browser.action.execute", "browser.event.ack", "integration.pong",
    "integration.error"].contains type

def parseNativeEnvelope (value : Json) : Except String NativeEnvelope := do
  match value with
  | .object fields =>
    rejectUnknownKeys fields ["protocol_version", "request_id", "type", "payload"]
    match value.field? "protocol_version" with
    | some (.object version) =>
      rejectUnknownKeys version ["major", "minor"]
      if ! (isNumber (Json.field? "major" (.object version)) 1 && isNumber (Json.field? "minor" (.object version)) 0) then
        .error "native protocol mismatch"
      else
        match uuidText? (value.field? "request_id"), value.field? "type" with
        | some requestId, some (.string type) =>
          if isKnownNativeType type then
            .ok ⟨currentProtocolVersion, requestId, type, value.field? "payload"⟩
          else .error "invalid native envelope"
        | _, _ => .error "invalid native envelope"
    | _ => .error "invalid protocol version"
  | _ => .error "native envelope must be an object"

def NativeEnvelope.toJson (envelope : NativeEnvelope) : Json :=
  .object ([("protocol_version", envelope.protocolVersion.toJson), ("request_id", .string envelope.requestId),
    ("type", .string envelope.type)] ++ envelope.payload.toList.map fun payload => ("payload", payload))

/-- Where `assertMessageSize` throws. -/
def NativeEnvelope.tooLarge (envelope : NativeEnvelope) : Bool :=
  envelope.toJson.size == 0 || decide (maxMessageSize < envelope.toJson.size)

/-! ## What the bridge keeps -/

/-- What was thrown: the message of an `Error`, or another value. -/
abbrev Thrown := Option String

inductive Settlement where
  | fulfilled (payload : Option Json)
  | rejected (error : Thrown)

/-- The promises that the bridge settles: those of calls, and those that attempts wait for. -/
inductive NativePromise where
  | call (n : Nat)
  | hello (attempt : Nat)
deriving DecidableEq

/-- An entry of the pending map under the key `requestId`, with the handle of its timer. -/
structure PendingNativeRequest where
  requestId : String
  expectedType : String
  promise : NativePromise
  timeout : Nat

inductive TimerCallback where
  | request (requestId : String)
  | reconnect
deriving DecidableEq

structure Timer where
  handle : Nat
  callback : TimerCallback
  delay : Nat

def PendingNativeRequest.outcome (request : PendingNativeRequest) (message : NativeEnvelope) :
    Settlement :=
  if message.type = "integration.error" then .rejected (some "native host rejected request")
  else if message.type ≠ request.expectedType then .rejected (some "native response type mismatch")
  else .fulfilled message.payload

/-- What a bridge is made with. The names `φ` and `ν` stand for what its client sends, and `η` for what
`createHello` finds while it is under way; `κ` is the client's own state. -/
structure NativeBridgeOptions (κ φ ν η : Type) where
  requestTimeoutMs : Nat
  maxPending : Nat
  type : φ → String
  expectedType : φ → String
  payloadFactory : φ → κ → Except Thrown (Option Json) × κ
  notice : ν → NativeEnvelope
  /-- `createHello` up to where it first waits, with a fresh identifier. -/
  beginHello : String → κ → κ
  /-- What `createHello` ends with. -/
  createHello : η → κ → Except Thrown NativeEnvelope

/-- Where a run of `establish` stands. -/
inductive Attempt where
  | absent
  /-- It awaits `createHello`. -/
  | preparing (port : Nat)
  | prepared (port : Nat) (hello : Except Thrown NativeEnvelope)
  /-- It awaits the answer to its hello. -/
  | greeting (port : Nat) (requestId : String)
  | ended (result : Except Thrown Unit)

inductive BridgeCall (φ ν : Type) where
  | start
  | reconnect
  | request (prepared : φ)
  | notify (notice : ν)

/-- Where a call stands. The reconnect timer calls `ensureConnected` for itself, which is `none`. -/
inductive BridgeTask (φ ν : Type) where
  | absent
  | joining (call : Option (BridgeCall φ ν)) (attempt : Nat)
  | leading (call : Option (BridgeCall φ ν))
  | connected (call : Option (BridgeCall φ ν)) (port : Nat)
  | unavailable (call : Option (BridgeCall φ ν)) (error : Thrown)
  /-- Its request has been made. -/
  | waiting (prepared : φ) (requestId : String)
  | ended (call : Option (BridgeCall φ ν))

inductive BridgeEntry where
  /-- `postMessage` has taken the message for the other end of the port. -/
  | posted (port : Nat) (envelope : NativeEnvelope)
  | received (port : Nat) (message : NativeEnvelope)
  | executed (message : NativeEnvelope)
  /-- One of the functions of a promise was called. -/
  | settled (promise : NativePromise) (settlement : Settlement)

structure BridgeState (κ φ ν : Type) where
  pending : List PendingNativeRequest
  port : Option Nat
  /-- The call whose run of `establish` it is. -/
  connecting : Option Nat
  reconnectTimer : Option Nat
  reconnectDelay : Nat
  desired : Bool
  ready : Bool
  client : κ
  /-- How many ports were made, and which of them are disconnected. -/
  ports : Nat
  disconnected : List Nat
  timers : List Timer
  nextTimer : Nat
  calls : Nat
  tasks : Nat → BridgeTask φ ν
  attempts : Nat → Attempt
  log : List BridgeEntry

/-- What `createPort` and the identifiers give, should `establish` run. -/
structure Establishing where
  createsPort : Bool
  uuid : String

inductive BridgeEvent (φ ν η : Type) where
  | call (call : BridgeCall φ ν) (est : Establishing)
  | stop
  /-- The `createHello` of an attempt settles. -/
  | hello (n : Nat) (found : η)
  /-- An attempt goes on; whether its write goes through. -/
  | proceed (n : Nat) (writes : Bool)
  /-- A call goes on, with the identifier it generates. -/
  | advance (n : Nat) (requestId : String) (writes : Bool)
  | message (port : Nat) (raw : Json)
  | disconnect (port : Nat)
  | fire (handle : Nat) (est : Establishing)

namespace BridgeState
variable {κ φ ν η : Type} (o : NativeBridgeOptions κ φ ν η) (s : BridgeState κ φ ν)

def init (client : κ) : BridgeState κ φ ν where
  pending := []
  port := none
  connecting := none
  reconnectTimer := none
  reconnectDelay := 250
  desired := false
  ready := false
  client := client
  ports := 0
  disconnected := []
  timers := []
  nextTimer := 0
  calls := 0
  tasks := fun _ => .absent
  attempts := fun _ => .absent
  log := []

/-! ## Around the bridge -/

def setTask (n : Nat) (task : BridgeTask φ ν) : BridgeState κ φ ν := { s with tasks := Function.update s.tasks n task }

def setAttempt (n : Nat) (attempt : Attempt) : BridgeState κ φ ν :=
  { s with attempts := Function.update s.attempts n attempt }

def setClient (client : κ) : BridgeState κ φ ν := { s with client := client }

def setDesired (desired : Bool) : BridgeState κ φ ν := { s with desired := desired }

def countCall : BridgeState κ φ ν := { s with calls := s.calls + 1 }

def record (entry : BridgeEntry) : BridgeState κ φ ν := { s with log := s.log ++ [entry] }

def settle (promise : NativePromise) (settlement : Settlement) : BridgeState κ φ ν :=
  s.record (.settled promise settlement)

/-- How a promise was settled; what is called on it later changes nothing. -/
def settlement? (promise : NativePromise) : Option Settlement :=
  s.log.findSome? fun
    | .settled p settlement => if p = promise then some settlement else none
    | _ => none

def setTimer (callback : TimerCallback) (delay : Nat) : BridgeState κ φ ν :=
  { s with timers := s.timers ++ [⟨s.nextTimer, callback, delay⟩], nextTimer := s.nextTimer + 1 }

def clearTimer (handle : Nat) : BridgeState κ φ ν := { s with timers := deleteRows (·.handle == handle) s.timers }

/-- Whether `postMessage` on a port can go through. -/
def isConnected (port : Nat) : Bool := decide (port < s.ports) && ! s.disconnected.contains port

/-! ## The pending map -/

def findPending (requestId : String) : Option PendingNativeRequest := s.pending.find? (·.requestId == requestId)

def setPending (request : PendingNativeRequest) : BridgeState κ φ ν :=
  { s with pending := upsertRow (·.requestId == request.requestId) (fun _ => request) request s.pending }

def finish (request : PendingNativeRequest) (settlement : Settlement) : BridgeState κ φ ν :=
  { s with pending := deleteRows (·.requestId == request.requestId) s.pending }.settle request.promise settlement

def rejectAll (error : Thrown) : BridgeState κ φ ν :=
  { s with
    pending := []
    timers := deleteRows (fun timer => s.pending.any (·.timeout == timer.handle)) s.timers
    log := s.log ++ s.pending.map fun request => .settled request.promise (.rejected error) }

def openRequest (request : PendingNativeRequest) : BridgeState κ φ ν :=
  (s.setTimer (.request request.requestId) o.requestTimeoutMs).setPending request

def requestOnPort (port : Nat) (envelope : NativeEnvelope) (expectedType : String) (promise : NativePromise)
    (writes : Bool) : Except Thrown (BridgeState κ φ ν) :=
  if envelope.tooLarge then .error (some "native message too large")
  else if o.maxPending ≤ s.pending.length then
    .ok (s.settle promise (.rejected (some "too many native requests")))
  else
    let request : PendingNativeRequest := ⟨envelope.requestId, expectedType, promise, s.nextTimer⟩
    if writes && s.isConnected port then .ok ((s.openRequest o request).record (.posted port envelope))
    else
      .ok (((s.openRequest o request).clearTimer request.timeout).finish request
        (.rejected (some "native host write failed")))

/-! ## The connection -/

def scheduleReconnect : BridgeState κ φ ν :=
  if ! s.desired || s.reconnectTimer.isSome then s
  else
    { s with
      reconnectDelay := min (s.reconnectDelay * 2) 30000
      reconnectTimer := some s.nextTimer }.setTimer .reconnect s.reconnectDelay

def cancelReconnect : BridgeState κ φ ν :=
  match s.reconnectTimer with
  | some handle => { s.clearTimer handle with reconnectTimer := none }
  | none => s

def losePort (error : Thrown) : BridgeState κ φ ν := { s with port := none, ready := false }.rejectAll error

def disconnect (ports : List Nat) : BridgeState κ φ ν := { s with disconnected := s.disconnected ++ ports }

def closeCurrentPort (error : Thrown) : BridgeState κ φ ν := (s.losePort error).disconnect s.port.toList

def becomeReady : BridgeState κ φ ν := { s with ready := true, reconnectDelay := 250 }

/-- The `finally` of `ensureConnected`. -/
def endConnecting (n : Nat) : BridgeState κ φ ν :=
  { s with connecting := if s.connecting = some n then none else s.connecting }

/-- `establish` up to where it first waits, for the call `n`. -/
def establish (n : Nat) (est : Establishing) : BridgeState κ φ ν :=
  if est.createsPort then
    { s with
      port := some s.ports
      ports := s.ports + 1
      client := o.beginHello est.uuid s.client }.setAttempt n (.preparing s.ports)
  else s.scheduleReconnect.setAttempt n (.ended (.error (some "native host connection failed")))

/-- The `catch` of `establish`. -/
def failAttempt (n port : Nat) (error : Thrown) : BridgeState κ φ ν :=
  if s.port = some port then
    (s.closeCurrentPort (some (error.getD "native host hello failed"))).scheduleReconnect.setAttempt n
      (.ended (.error error))
  else s.setAttempt n (.ended (.error error))

/-- The port that `ensureConnected` returns after an attempt. -/
def currentPort : Except Thrown Nat :=
  match s.port, s.ready with
  | some port, true => .ok port
  | _, _ => .error (some "native host is unavailable")

/-- `ensureConnected` up to where it first waits. -/
def ensureConnected (n : Nat) (call : Option (BridgeCall φ ν)) (est : Establishing) : BridgeState κ φ ν :=
  match s.currentPort, s.connecting with
  | .ok port, _ => s.setTask n (.connected call port)
  | .error _, some attempt => s.setTask n (.joining call attempt)
  | .error _, none => { s.establish o n est with connecting := some n }.setTask n (.leading call)

/-- Where a call goes from the end of its `ensureConnected`. -/
def resumed (call : Option (BridgeCall φ ν)) : Except Thrown Nat → BridgeTask φ ν
  | .ok port => .connected call port
  | .error error => .unavailable call error

/-! ## What happens -/

def invoke (call : BridgeCall φ ν) (est : Establishing) : BridgeState κ φ ν :=
  match call with
  | .start => (s.countCall.setDesired true).ensureConnected o s.calls (some call) est
  | .reconnect =>
    ((s.countCall.setDesired true).cancelReconnect.closeCurrentPort
      (some "native host connection replaced")).ensureConnected o s.calls (some call) est
  | .request _ | .notify _ => s.countCall.ensureConnected o s.calls (some call) est

def stop : BridgeState κ φ ν :=
  (s.setDesired false).cancelReconnect.closeCurrentPort (some "native host connection stopped")

def proceed (n : Nat) (writes : Bool) : Option (BridgeState κ φ ν) :=
  match s.attempts n with
  | .prepared port (.error error) => some (s.failAttempt n port error)
  | .prepared port (.ok hello) =>
    match s.requestOnPort o port hello "extension.hello.ack" (.hello n) writes with
    | .error error => some (s.failAttempt n port error)
    | .ok s => some (s.setAttempt n (.greeting port hello.requestId))
  | .greeting port _ =>
    match s.settlement? (.hello n) with
    | some (.fulfilled _) =>
      if s.port = some port then some (s.becomeReady.setAttempt n (.ended (.ok ())))
      else some (s.failAttempt n port (some "native host connection changed"))
    | some (.rejected error) => some (s.failAttempt n port error)
    | none => none
  | .absent | .preparing _ | .ended _ => none

def reject (n : Nat) (call : Option (BridgeCall φ ν)) (error : Thrown) : BridgeState κ φ ν :=
  (s.settle (.call n) (.rejected error)).setTask n (.ended call)

def fulfil (n : Nat) (call : Option (BridgeCall φ ν)) : BridgeState κ φ ν :=
  (s.settle (.call n) (.fulfilled none)).setTask n (.ended call)

/-- `notify`, on the port it was given. -/
def sendNotice (n port : Nat) (notice : ν) (writes : Bool) : BridgeState κ φ ν :=
  if (o.notice notice).tooLarge then s.reject n (some (.notify notice)) (some "native message too large")
  else if writes && s.isConnected port then
    (s.record (.posted port (o.notice notice))).fulfil n (some (.notify notice))
  else s.reject n (some (.notify notice)) (some "Attempting to use a disconnected port object")

/-- `requestPrepared`, on the port it was given. -/
def sendRequest (n port : Nat) (prepared : φ) (requestId : String) (writes : Bool) : BridgeState κ φ ν :=
  match o.payloadFactory prepared s.client with
  | (.error error, client) => (s.setClient client).reject n (some (.request prepared)) error
  | (.ok payload, client) =>
    match (s.setClient client).requestOnPort o port ⟨currentProtocolVersion, requestId, o.type prepared, payload⟩
        (o.expectedType prepared) (.call n) writes with
    | .error error => (s.setClient client).reject n (some (.request prepared)) error
    | .ok s => s.setTask n (.waiting prepared requestId)

def advance (n : Nat) (requestId : String) (writes : Bool) : Option (BridgeState κ φ ν) :=
  match s.tasks n with
  | .joining call attempt =>
    match s.attempts attempt with
    | .ended result => some (s.setTask n (resumed call (result.bind fun _ => s.currentPort)))
    | _ => none
  | .leading call =>
    match s.attempts n with
    | .ended result => some ((s.endConnecting n).setTask n (resumed call (result.bind fun _ => s.currentPort)))
    | _ => none
  | .connected call port =>
    match call with
    | some (.request prepared) => some (s.sendRequest o n port prepared requestId writes)
    | some (.notify notice) => some (s.sendNotice o n port notice writes)
    | some .start | some .reconnect | none => some (s.fulfil n call)
  | .unavailable call error => some (s.reject n call error)
  | .absent | .waiting .. | .ended _ => none

def receive (port : Nat) (message : NativeEnvelope) : BridgeState κ φ ν :=
  let s := s.record (.received port message)
  if message.type = "browser.action.execute" then s.record (.executed message)
  else
    match s.findPending message.requestId with
    | some request => (s.clearTimer request.timeout).finish request (request.outcome message)
    | none => s

def handleMessage (port : Nat) (raw : Json) : BridgeState κ φ ν :=
  if s.port = some port then
    match parseNativeEnvelope raw with
    | .ok message => s.receive port message
    | .error _ => s
  else s

def handleDisconnect (port : Nat) : BridgeState κ φ ν :=
  if s.port = some port then ((s.disconnect [port]).losePort (some "native host disconnected")).scheduleReconnect
  else s.disconnect [port]

def fire (callback : TimerCallback) (est : Establishing) : BridgeState κ φ ν :=
  match callback with
  | .request requestId =>
    match s.findPending requestId with
    | some request => s.finish request (.rejected (some "native request timed out"))
    | none => s
  | .reconnect =>
    let s := { s with reconnectTimer := none }
    if ! s.desired || s.port.isSome || s.connecting.isSome then s
    else s.countCall.ensureConnected o s.calls none est

def step (s : BridgeState κ φ ν) : BridgeEvent φ ν η → Option (BridgeState κ φ ν)
  | .call call est => some (s.invoke o call est)
  | .stop => some s.stop
  | .hello n found =>
    match s.attempts n with
    | .preparing port => some (s.setAttempt n (.prepared port (o.createHello found s.client)))
    | _ => none
  | .proceed n writes => s.proceed o n writes
  | .advance n requestId writes => s.advance o n requestId writes
  | .message port raw => some (s.handleMessage port raw)
  | .disconnect port => if port < s.ports then some (s.handleDisconnect port) else none
  | .fire handle est =>
    (s.timers.find? (·.handle == handle)).map fun timer => (s.clearTimer handle).fire o timer.callback est

end BridgeState
end Fubun.Bridge

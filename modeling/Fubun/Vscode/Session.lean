import Fubun.Concurrency.Machine
import Fubun.Extensions.BrowserEvent
import Fubun.Relational.Table
import Fubun.Vscode.Frames

/-! The adapter session of the VS Code extension. Code between two awaits runs in one piece, and so
does the handling of one chunk; where a call waits for a promise, it goes on in a step of its own. -/

namespace Fubun.Vscode
open Encoding Extensions Relational

/-! ## What the session keeps -/

/-- The message of what was thrown, when something was. -/
abbrev Outcome := Except String Unit

/-- The promises of hellos, of acknowledgements and of the calls themselves. -/
inductive SessionPromise where
  | hello (attempt : Nat)
  | ack (n : Nat)
  | call (n : Nat)
deriving DecidableEq

/-- An entry of the pending map under the key `requestId`, with the handle of its timer. -/
structure PendingEvent where
  requestId : String
  n : Nat
  timeout : Nat

structure PendingHello where
  requestId : String
  attempt : Nat
  timeout : Nat

inductive SessionCallback where
  | hello (requestId : String)
  | event (requestId : String)
  | reconnect

structure SessionTimer where
  handle : Nat
  callback : SessionCallback
  delay : Nat

/-- Where a run of `establish` stands. -/
inductive Attempt where
  | absent
  /-- It awaits the promise of its hello. -/
  | greeting (transport : Nat)
  | ended (result : Outcome)

inductive SessionCall where
  | start
  | emit (emission : Emission)

/-- Where a call stands. The reconnect timer calls `ensureConnected` for itself, which is `none`. -/
inductive SessionTask where
  | absent
  /-- It has a place on the event chain. -/
  | queued (emission : Emission)
  | joining (call : Option SessionCall) (attempt : Nat)
  | leading (call : Option SessionCall) (attempt : Nat)
  | connected (call : Option SessionCall) (transport : Nat)
  | unavailable (call : Option SessionCall) (error : String)
  /-- Its frame has been written, or was refused. -/
  | waiting (emission : Emission) (requestId : String)
  | ended (call : Option SessionCall)

inductive SessionEntry where
  /-- A transport was made, and with it the identifier of its hello. -/
  | opened (transport : Nat) (requestId : String)
  | wrote (transport : Nat) (frame : SessionFrame)
  | received (transport : Nat) (frame : Json)
  | ended (transport : Nat)
  | settled (promise : SessionPromise) (result : Outcome)

structure SessionState where
  instanceId : String
  pending : List PendingEvent
  transport : Option Nat
  decoder : List UInt8
  /-- The run of `establish` that is awaited. -/
  connecting : Option Nat
  hello : Option PendingHello
  desired : Bool
  connected : Bool
  nextSequence : Nat
  /-- The calls whose `emitOne` has not ended, in the order of their turns. -/
  eventChain : List Nat
  reconnectDelay : Nat
  reconnectTimer : Option Nat
  /-- The identifier of the hello of each transport. -/
  transports : List String
  timers : List SessionTimer
  nextTimer : Nat
  calls : Nat
  tasks : Nat → SessionTask
  attemptCount : Nat
  attempts : Nat → Attempt
  log : List SessionEntry

structure VscodeAdapterSessionOptions where
  timeoutMs : Nat
  /-- `TextDecoder` and `JSON.parse`. -/
  parse : List UInt8 → Option Json

/-- What a step finds outside: the identifier that is generated, and whether a transport can be made or
a write goes through. -/
structure Outside where
  uuid : String
  succeeds : Bool

inductive SessionEvent where
  | start (out : Outside)
  | stop
  | emitWorkspaceOpened (resourceId : String) (now : Int)
  /-- A call goes on. -/
  | advance (n : Nat) (out : Outside)
  /-- A run of `establish` goes on. -/
  | proceed (attempt : Nat)
  | connect (transport : Nat) (out : Outside)
  | data (transport : Nat) (chunk : List UInt8)
  /-- The transport closes, or has an error. -/
  | close (transport : Nat)
  | fire (handle : Nat) (out : Outside)

namespace SessionState
variable (o : VscodeAdapterSessionOptions) (s : SessionState)

def init (instanceId : String) : SessionState where
  instanceId := instanceId
  pending := []
  transport := none
  decoder := []
  connecting := none
  hello := none
  desired := false
  connected := false
  nextSequence := 1
  eventChain := []
  reconnectDelay := 250
  reconnectTimer := none
  transports := []
  timers := []
  nextTimer := 0
  calls := 0
  tasks := fun _ => .absent
  attemptCount := 0
  attempts := fun _ => .absent
  log := []

/-! ## Around the session -/

def setTask (n : Nat) (task : SessionTask) : SessionState := { s with tasks := Function.update s.tasks n task }

def setAttempt (attempt : Nat) (stage : Attempt) : SessionState :=
  { s with attempts := Function.update s.attempts attempt stage }

def setDesired (desired : Bool) : SessionState := { s with desired := desired }

def setDecoder (buffer : List UInt8) : SessionState := { s with decoder := buffer }

def countCall : SessionState := { s with calls := s.calls + 1 }

def record (entry : SessionEntry) : SessionState := { s with log := s.log ++ [entry] }

def settle (promise : SessionPromise) (result : Outcome) : SessionState := s.record (.settled promise result)

/-- How a promise was settled; what is called on it later changes nothing. -/
def settlement? (promise : SessionPromise) : Option Outcome :=
  s.log.findSome? fun
    | .settled p result => if p = promise then some result else none
    | _ => none

def setTimer (callback : SessionCallback) (delay : Nat) : SessionState :=
  { s with timers := s.timers ++ [⟨s.nextTimer, callback, delay⟩], nextTimer := s.nextTimer + 1 }

def clearTimer (handle : Nat) : SessionState := { s with timers := deleteRows (·.handle == handle) s.timers }

/-! ## The pending map and the hello -/

def findPending (requestId : String) : Option PendingEvent := s.pending.find? (·.requestId == requestId)

def setPending (pending : PendingEvent) : SessionState :=
  { s with pending := upsertRow (·.requestId == pending.requestId) (fun _ => pending) pending s.pending }

def finish (pending : PendingEvent) (result : Outcome) : SessionState :=
  { s with pending := deleteRows (·.requestId == pending.requestId) s.pending }.settle (.ack pending.n) result

def finishHello (hello : PendingHello) (result : Outcome) : SessionState :=
  { s with hello := none }.settle (.hello hello.attempt) result

/-! ## The connection -/

def scheduleReconnect : SessionState :=
  if ! s.desired || s.reconnectTimer.isSome then s
  else
    { s with
      reconnectDelay := min (s.reconnectDelay * 2) 30000
      reconnectTimer := some s.nextTimer }.setTimer .reconnect s.reconnectDelay

def cancelReconnect : SessionState :=
  match s.reconnectTimer with
  | some handle => { s.clearTimer handle with reconnectTimer := none }
  | none => s

/-- What `closeCurrent` rejects. -/
def released (error : String) : List SessionEntry :=
  s.hello.toList.map (fun hello => .settled (.hello hello.attempt) (.error error)) ++
    s.pending.map (fun pending => .settled (.ack pending.n) (.error error))

def closeCurrent (error : String) : SessionState :=
  { s with
    transport := none
    connected := false
    hello := none
    pending := []
    timers := deleteRows (fun timer => s.hello.any (·.timeout == timer.handle) ||
      s.pending.any (·.timeout == timer.handle)) s.timers
    log := s.log ++ s.released error ++ s.transport.toList.map .ended }

def handleClose (transport : Nat) : SessionState :=
  if s.transport = some transport then (s.closeCurrent "VS Code adapter disconnected").scheduleReconnect else s

/-- The `finally` of `ensureConnected`. -/
def endConnecting (attempt : Nat) : SessionState :=
  { s with connecting := if s.connecting = some attempt then none else s.connecting }

def openTransport (requestId : String) : SessionState :=
  { s with
    transport := some s.transports.length
    decoder := []
    hello := some ⟨requestId, s.attemptCount, s.nextTimer⟩
    transports := s.transports ++ [requestId] }.record (.opened s.transports.length requestId)

def awaitAttempt : SessionState := { s with connecting := some s.attemptCount, attemptCount := s.attemptCount + 1 }

/-- `establish` up to where it first waits. -/
def establish (out : Outside) : SessionState :=
  if out.succeeds then
    (((s.openTransport out.uuid).setTimer (.hello out.uuid) o.timeoutMs).setAttempt s.attemptCount
      (.greeting s.transports.length)).awaitAttempt
  else
    (s.scheduleReconnect.setAttempt s.attemptCount
      (.ended (.error "VS Code adapter connection failed"))).awaitAttempt

def becomeConnected : SessionState := { s with connected := true, reconnectDelay := 250 }

def current : Option Nat := if s.connected then s.transport else none

/-- `ensureConnected` up to where it first waits. -/
def ensureConnected (n : Nat) (call : Option SessionCall) (out : Outside) : SessionState :=
  if ! s.desired then s.setTask n (.unavailable call "VS Code observation is inactive")
  else
    match s.current, s.connecting with
    | some transport, _ => s.setTask n (.connected call transport)
    | none, some attempt => s.setTask n (.joining call attempt)
    | none, none => (s.establish o out).setTask n (.leading call s.attemptCount)

/-- Where a call goes from the end of the run of `establish` that it awaits. -/
def resumed (call : Option SessionCall) : Outcome → SessionTask
  | .error error => .unavailable call error
  | .ok () =>
    match s.current with
    | some transport => .connected call transport
    | none => .unavailable call "VS Code adapter unavailable"

/-! ## Calls -/

def start (out : Outside) : SessionState := (s.countCall.setDesired true).ensureConnected o s.calls (some .start) out

def stop : SessionState := (s.setDesired false).cancelReconnect.closeCurrent "VS Code adapter stopped"

def takeNumber : SessionState := { s.countCall with nextSequence := s.nextSequence + 1 }

def joinChain (n : Nat) : SessionState := { s with eventChain := s.eventChain ++ [n] }

def leaveChain : SessionState := { s with eventChain := s.eventChain.tail }

/-- A number is taken before the date is written, which may throw. -/
def emitWorkspaceOpened (resourceId : String) (now : Int) : SessionState :=
  match toISOString now with
  | some occurredAt =>
    (s.takeNumber.joinChain s.calls).setTask s.calls (.queued ⟨resourceId, s.nextSequence, occurredAt⟩)
  | none => (s.takeNumber.settle (.call s.calls) (.error "Invalid time value")).setTask s.calls (.ended none)

/-- `emitOne`, on the transport it was given. -/
def emitOne (n transport : Nat) (emission : Emission) (out : Outside) : SessionState :=
  let pending : PendingEvent := ⟨out.uuid, n, s.nextTimer⟩
  let opened := (s.setTimer (.event out.uuid) o.timeoutMs).setPending pending
  if out.succeeds && ! (SessionFrame.event out.uuid emission).tooLarge then
    (opened.record (.wrote transport (.event out.uuid emission))).setTask n (.waiting emission out.uuid)
  else
    ((opened.clearTimer pending.timeout).finish pending (.error "VS Code event write failed")).setTask n
      (.waiting emission out.uuid)

/-- A call ends, and what it held on the event chain with it. -/
def conclude (n : Nat) (call : Option SessionCall) (result : Outcome) : SessionState :=
  match call with
  | some (.emit _) => ((s.settle (.call n) result).setTask n (.ended call)).leaveChain
  | some .start | none => (s.settle (.call n) result).setTask n (.ended call)

def advance (n : Nat) (out : Outside) : Option SessionState :=
  match s.tasks n with
  | .queued emission => if s.eventChain.head? = some n then some (s.ensureConnected o n (some (.emit emission)) out) else none
  | .joining call attempt =>
    match s.attempts attempt with
    | .ended result => some (s.setTask n (s.resumed call result))
    | _ => none
  | .leading call attempt =>
    match s.attempts attempt with
    | .ended result => some ((s.endConnecting attempt).setTask n (s.resumed call result))
    | _ => none
  | .connected call transport =>
    match call with
    | some (.emit emission) => some (s.emitOne o n transport emission out)
    | some .start | none => some (s.conclude n call (.ok ()))
  | .unavailable call error => some (s.conclude n call (.error error))
  | .waiting emission _ => (s.settlement? (.ack n)).map (s.conclude n (some (.emit emission)))
  | .absent | .ended _ => none

def proceed (attempt : Nat) : Option SessionState :=
  match s.attempts attempt with
  | .greeting _ =>
    match s.settlement? (.hello attempt) with
    | some (.ok ()) => some (s.becomeConnected.setAttempt attempt (.ended (.ok ())))
    | some (.error error) => some ((s.closeCurrent error).scheduleReconnect.setAttempt attempt (.ended (.error error)))
    | none => none
  | .absent | .ended _ => none

/-! ## The socket -/

/-- `onConnect`, for the transport with this identifier. -/
def handleConnect (transport : Nat) (requestId : String) (out : Outside) : SessionState :=
  if s.transport = some transport ∧ s.hello.map (·.requestId) = some requestId then
    if out.succeeds && ! (SessionFrame.hello requestId s.instanceId).tooLarge then
      s.record (.wrote transport (.hello requestId s.instanceId))
    else s.handleClose transport
  else s

/-- One turn of the loop of `handleData`, and whether the loop goes on. -/
def handleFrame (transport : Nat) (frame : Json) : SessionState × Bool :=
  let s := s.record (.received transport frame)
  match s.hello with
  | some hello => ((s.clearTimer hello.timeout).finishHello hello (checkHelloAck hello.requestId frame), true)
  | none =>
    match parseAdapterEventAck frame with
    | .ok ack =>
      match s.findPending ack.requestId with
      | some pending => ((s.clearTimer pending.timeout).finish pending (.ok ()), true)
      | none => (s, true)
    | .error _ => (s.handleClose transport, false)

def handleFrames (transport : Nat) (s : SessionState) : List Json → SessionState
  | [] => s
  | frame :: frames =>
    match s.handleFrame transport frame with
    | (s', true) => handleFrames transport s' frames
    | (s', false) => s'

def handleData (transport : Nat) (chunk : List UInt8) : SessionState :=
  if s.transport = some transport then
    match push o.parse s.decoder chunk with
    | (.ok frames, buffer) => (s.setDecoder buffer).handleFrames transport frames
    | (.error _, buffer) => (s.setDecoder buffer).handleClose transport
  else s

def fire (callback : SessionCallback) (out : Outside) : SessionState :=
  match callback with
  | .hello requestId =>
    match s.hello with
    | some hello =>
      if hello.requestId = requestId then s.finishHello hello (.error "VS Code adapter hello timed out") else s
    | none => s
  | .event requestId =>
    match s.findPending requestId with
    | some pending => s.finish pending (.error "VS Code event acknowledgement timed out")
    | none => s
  | .reconnect =>
    let s := { s with reconnectTimer := none }
    if ! s.desired || s.transport.isSome || s.connecting.isSome then s
    else s.countCall.ensureConnected o s.calls none out

def step (s : SessionState) : SessionEvent → Option SessionState
  | .start out => some (s.start o out)
  | .stop => some s.stop
  | .emitWorkspaceOpened resourceId now => some (s.emitWorkspaceOpened resourceId now)
  | .advance n out => s.advance o n out
  | .proceed attempt => s.proceed attempt
  | .connect transport out =>
    s.transports[transport]?.map fun requestId => s.handleConnect transport requestId out
  | .data transport chunk => if transport < s.transports.length then some (s.handleData o transport chunk) else none
  | .close transport => if transport < s.transports.length then some (s.handleClose transport) else none
  | .fire handle out =>
    (s.timers.find? (·.handle == handle)).map fun timer => (s.clearTimer handle).fire o timer.callback out

end SessionState
end Fubun.Vscode

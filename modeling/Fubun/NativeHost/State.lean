import Fubun.Concurrency.Machine
import Fubun.Extensions.BrowserEvent
import Fubun.Relational.Table

/-! The native messaging host: its main loop, a task for each event that the browser emits, the task
that reads from the core, and the two writer tasks. A task runs alone from one await to the next. -/

namespace Fubun.NativeHost
open Encoding Extensions Relational

/-! ## Messages -/

inductive HostMessageError where
  | protocol
  | invalidPayload
  | core
  | adapterUnavailable
  | eventAckTimeout
  | eventAckClosed
  | eventAckProtocol
  | duplicateEventRequest
deriving DecidableEq

inductive PendingAckError where
  | disconnected
  | protocol
deriving DecidableEq

structure ActionExecuteRequest where
  action : ActionSpec
  resolvedResource : Option ResolvedResource
deriving DecidableEq

inductive AdapterRequestBody where
  | actionExecute (payload : ActionExecuteRequest)
  | status
  | eventAck (ack : EventAck)
deriving DecidableEq

structure AdapterRequestEnvelope where
  protocolVersion : ProtocolVersion
  requestId : Uuid
  actionExecutionId : Uuid
  body : AdapterRequestBody
deriving DecidableEq

/-- What the reader task hands to the main loop. -/
inductive CoreInbound where
  | action (requestId actionExecutionId : Uuid) (payload : ActionExecuteRequest)
  | status (requestId actionExecutionId : Uuid)
deriving DecidableEq

def AdapterRequestEnvelope.inbound? (request : AdapterRequestEnvelope) : Option CoreInbound :=
  match request.body with
  | .actionExecute payload => some (.action request.requestId request.actionExecutionId payload)
  | .status => some (.status request.requestId request.actionExecutionId)
  | .eventAck _ => none

/-! ## What the browser is told -/

def ackJson (ack : EventAck) : Json :=
  .object [("event_id", ack.eventId.toJson), ("stored", .bool ack.stored), ("duplicate", .bool ack.duplicate)]

def actionJson (action : ActionSpec) : Json :=
  .object (("type", .string action.actionType) ::
    match action with
    | .linuxAppEnsureRunning appId => [("app_id", .string appId)]
    | .linuxPathOpen resourceId | .browserTabEnsureOpen resourceId => [("resource_id", resourceId.toJson)]
    | .desktopNotificationShow title body => [("title", .string title), ("body", .string body)])

def resolvedResourceJson (resolved : ResolvedResource) : Json :=
  .object [("resource_id", resolved.resourceId.toJson), ("kind", .string resolved.kind.name),
    ("canonical_locator", .string resolved.canonicalLocator)]

def integrationError (requestId : Uuid) : NativeEnvelope :=
  ⟨currentProtocolVersion, requestId, "integration.error", .object [("code", .string "request_failed")]⟩

def eventAckMessage (requestId : Uuid) (ack : EventAck) : NativeEnvelope :=
  ⟨currentProtocolVersion, requestId, "browser.event.ack", ackJson ack⟩

def pongMessage (requestId : Uuid) : NativeEnvelope :=
  ⟨currentProtocolVersion, requestId, "integration.pong", .object []⟩

def actionMessage (requestId actionExecutionId : Uuid) (payload : ActionExecuteRequest) : NativeEnvelope :=
  ⟨currentProtocolVersion, requestId, "browser.action.execute",
    .object [("request_id", requestId.toJson), ("action_execution_id", actionExecutionId.toJson),
      ("action", actionJson payload.action),
      ("resolved_resource", (payload.resolvedResource.map resolvedResourceJson).getD .null)]⟩

/-! ## What the browser asks -/

/-- `browser.event.emit`, whatever its payload is. -/
def isEmission (message : NativeEnvelope) : Bool := message.messageType == "browser.event.emit"

/-- What `handle_native_message` goes on with, once it has decoded a message. -/
inductive Handling where
  /-- A request to the core, with the type of what answers it. -/
  | request (answerType : String)
  | emit (event : BrowserEvent)
  | result (response : AdapterResponseEnvelope)
  | pong

section Decoding
variable (D : Decoders)

def decodeActionResult (value : Json) : Option ActionResult := do
  match ← structFields ["status", "result_code", "redacted_message"] value with
  | [status, resultCode, redactedMessage] =>
    let status ←
      match ← decodeText status with
      | "succeeded" => some AdapterActionStatus.succeeded
      | "skipped" => some .skipped
      | "failed" => some .failed
      | _ => none
    return ⟨status, ← decodeText resultCode, ← decodeText redactedMessage⟩
  | _ => none

def decodeBrowserActionResult (value : Json) : Option AdapterResponseEnvelope := do
  match ← structFields ["request_id", "action_execution_id", "result"] value with
  | [requestId, actionExecutionId, result] =>
    return ⟨currentProtocolVersion, ← decodeUuid D requestId, ← decodeUuid D actionExecutionId,
      .actionResult (← decodeActionResult result)⟩
  | _ => none

def decodeEnableRequest (value : Json) : Option (String × String) := do
  match ← structFields ["label", "url"] value with
  | [label, url] => return (← decodeText label, ← decodeText url)
  | _ => none

def decodePauseRequest (value : Json) : Option Uuid := do
  match ← structFields ["scope_id"] value with
  | [scopeId] => decodeUuid D scopeId
  | _ => none

/-- The branches of `handle_native_message`, each with the decoding of its payload. -/
def decodeHandling (message : NativeEnvelope) : Option Handling :=
  match message.messageType with
  | "browser.observation.enable" =>
    (decodeEnableRequest message.payload).map fun _ => .request "browser.observation.enabled"
  | "browser.observation.pause" =>
    (decodePauseRequest D message.payload).map fun _ => .request "browser.observation.paused"
  | "browser.event.emit" => (decodeBrowserEvent D message.payload).map .emit
  | "browser.action.result" => (decodeBrowserActionResult D message.payload).map .result
  | "integration.ping" => some .pong
  | _ => none

/-- `handle_native_message`, up to its first await. -/
def handleNativeMessage (message : NativeEnvelope) : Except HostMessageError Handling :=
  if message.protocolVersion.major ≠ currentProtocolVersion.major then .error .protocol
  else
    match decodeHandling D message with
    | some handling => .ok handling
    | none => .error .invalidPayload

end Decoding

/-! ## Tasks -/

/-- An mpsc channel and the task that writes what comes out of it. -/
structure Writer (α : Type) where
  queue : List α
  writing : Option α
  isOpen : Bool

def channelCapacity : Nat := 32

namespace Writer
variable {α : Type}

def fresh : Writer α := ⟨[], none, true⟩

/-- `Sender::send`: it waits while the queue is full and fails once the receiver is gone. -/
def send (w : Writer α) (x : α) : Option (Bool × Writer α) :=
  if ! w.isOpen then some (false, w)
  else if w.queue.length < channelCapacity then some (true, { w with queue := w.queue ++ [x] })
  else none

def receive (w : Writer α) : Option (Writer α) :=
  match w.writing, w.queue with
  | none, x :: rest => some { w with queue := rest, writing := some x }
  | _, _ => none

/-- The task has written what it took, or it ends with its receiver. -/
def write (w : Writer α) (ok : Bool) : Option (Writer α) :=
  w.writing.map fun _ => if ok then { w with writing := none } else ⟨[], none, false⟩

end Writer

/-- An entry of the pending map: the sender of the oneshot that the task `n` waits on. -/
structure PendingEventAck where
  requestId : Uuid
  n : Nat

/-- Where the task of an event stands. -/
inductive EventTask where
  | absent
  | spawned (requestId : Uuid) (event : BrowserEvent)
  /-- It is in the pending map, with its guard armed, and waits for room in the adapter queue. -/
  | sending (requestId : Uuid) (event : BrowserEvent)
  | waiting (requestId : Uuid)
  /-- `emit_event_and_wait` has returned and its guard is dropped. -/
  | responding (requestId : Uuid) (result : Except HostMessageError EventAck)
  | ended
  | aborted

/-- Where the main loop stands. Native messages are numbered as they are read. -/
inductive MainLoop where
  | listening
  | requesting (n : Nat) (requestId : Uuid) (answerType : String)
  | returning (n : Nat) (requestId : Uuid) (response : AdapterResponseEnvelope)
  | answering (n : Nat) (envelope : NativeEnvelope)
  | forwarding (inbound : CoreInbound)
  | stopped

inductive Reader where
  | reading
  | passing (inbound : CoreInbound)
  | ended

inductive HostEntry where
  | read (n : Nat) (message : NativeEnvelope)
  /-- The reader task has accepted a frame. -/
  | received (request : AdapterRequestEnvelope)
  /-- What answers a native message is in the queue to the browser. -/
  | answered (n : Nat) (envelope : NativeEnvelope)
  /-- The main loop is done with what it was handed, which the writer has taken or not. -/
  | forwarded (inbound : CoreInbound) (taken : Bool)

structure Host where
  mainLoop : MainLoop
  reads : Nat
  tasks : Nat → EventTask
  /-- What was sent on the oneshot of each task. -/
  acks : Nat → Option (Except PendingAckError EventAck)
  pending : List PendingEventAck
  reader : Reader
  inbound : List CoreInbound
  native : Writer NativeEnvelope
  adapter : Writer AdapterResponseEnvelope
  adapterStatus : AdapterStatusSnapshot
  log : List HostEntry

def Host.start (adapterStatus : AdapterStatusSnapshot) : Host where
  mainLoop := .listening
  reads := 0
  tasks _ := .absent
  acks _ := none
  pending := []
  reader := .reading
  inbound := []
  native := .fresh
  adapter := .fresh
  adapterStatus := adapterStatus
  log := []

/-! ## Steps -/

inductive HostEvent where
  /-- The main loop reads a message of the browser. -/
  | native (message : NativeEnvelope)
  /-- The core answers the request of the main loop, with the value that was asked for or not. -/
  | respond (value : Option Json)
  /-- The main loop takes what the reader task has handed over. -/
  | take
  /-- The send that the main loop waits in completes. -/
  | proceed
  | task (n : Nat)
  /-- The timeout of an emission elapses. -/
  | expire (n : Nat)
  /-- The reader task reads a frame; `none` where the connection ends or a frame cannot be decoded. -/
  | frame (request : Option AdapterRequestEnvelope)
  /-- The send that the reader task waits in completes. -/
  | pass
  | receiveNative
  | writeNative (ok : Bool)
  | receiveAdapter
  | writeAdapter (ok : Bool)
  /-- The main loop ends: the browser has closed its side, or nothing more comes from the reader task. -/
  | quit

namespace Host
variable (s : Host)

def setMain (mainLoop : MainLoop) : Host := { s with mainLoop := mainLoop }

def setTask (n : Nat) (task : EventTask) : Host := { s with tasks := Function.update s.tasks n task }

def setReader (reader : Reader) : Host := { s with reader := reader }

def setNative (native : Writer NativeEnvelope) : Host := { s with native := native }

def setAdapter (adapter : Writer AdapterResponseEnvelope) : Host := { s with adapter := adapter }

def record (entry : HostEntry) : Host := { s with log := s.log ++ [entry] }

/-- The reader task has sent what it passes on. -/
def enqueue (inbound : CoreInbound) : Host := { s with inbound := s.inbound ++ [inbound], reader := .reading }

def dequeue (inbound : CoreInbound) (rest : List CoreInbound) : Host :=
  { s with inbound := rest, mainLoop := .forwarding inbound }

def countRead (message : NativeEnvelope) : Host :=
  { s with reads := s.reads + 1, log := s.log ++ [.read s.reads message] }

/-! ### The pending map -/

def insertPending (requestId : Uuid) (n : Nat) : Host :=
  { s with
    pending := s.pending ++ [⟨requestId, n⟩]
    acks := Function.update s.acks n none }

/-- `PendingEventAckGuard::drop` while it is armed. -/
def release (requestId : Uuid) : Host := { s with pending := deleteRows (·.requestId == requestId) s.pending }

def deliver (row : PendingEventAck) (result : Except PendingAckError EventAck) : Host :=
  { s with
    pending := deleteRows (·.requestId == row.requestId) s.pending
    acks := Function.update s.acks row.n (some result) }

def drainPendingEventAcks (error : PendingAckError) : Host :=
  { s with
    pending := []
    acks := fun n => if s.pending.any (·.n == n) then some (.error error) else s.acks n }

/-! ### The task of an event -/

def eventRequest (requestId : Uuid) (event : BrowserEvent) : AdapterResponseEnvelope :=
  ⟨currentProtocolVersion, requestId, .nil,
    .eventEmit ⟨event.sequenceNo, event.occurredAt, .browserResourceOpenedV1, event.resourceId⟩⟩

def response (requestId : Uuid) : Except HostMessageError EventAck → NativeEnvelope
  | .ok ack => eventAckMessage requestId ack
  | .error _ => integrationError requestId

/-- What `emit_event_and_wait` makes of what it has received. -/
def ackResult : Except PendingAckError EventAck → Except HostMessageError EventAck
  | .ok ack => .ok ack
  | .error .disconnected => .error .eventAckClosed
  | .error .protocol => .error .eventAckProtocol

/-- `emit_event_and_wait` returns. -/
def finish (n : Nat) (requestId : Uuid) (result : Except HostMessageError EventAck) : Host :=
  s.setTask n (.responding requestId result)

/-- It returns with its guard armed. -/
def fail (n : Nat) (requestId : Uuid) (error : HostMessageError) : Host :=
  (s.release requestId).finish n requestId (.error error)

def runTask (n : Nat) : Option Host :=
  match s.tasks n with
  | .spawned requestId event =>
    if s.pending.any (·.requestId == requestId) then some (s.finish n requestId (.error .duplicateEventRequest))
    else some ((s.insertPending requestId n).setTask n (.sending requestId event))
  | .sending requestId event =>
    (s.adapter.send (eventRequest requestId event)).map fun (sent, adapter) =>
      if sent then (s.setAdapter adapter).setTask n (.waiting requestId) else s.fail n requestId .adapterUnavailable
  | .waiting requestId =>
    match s.acks n with
    | some result => some (s.finish n requestId (ackResult result))
    | none =>
      -- The sender lives in the pending map and nowhere else.
      if s.pending.any (·.n == n) then none else some (s.fail n requestId .eventAckClosed)
  | .responding requestId result =>
    (s.native.send (response requestId result)).map fun (sent, native) =>
      let s := (s.setNative native).setTask n .ended
      if sent then s.record (.answered n (response requestId result)) else s
  | .absent | .ended | .aborted => none

/-- A timeout polls the receiver first. -/
def expire (n : Nat) : Option Host :=
  match s.tasks n, s.acks n with
  | .waiting requestId, none => some (s.fail n requestId .eventAckTimeout)
  | _, _ => none

/-! ### The reader task -/

def disconnect : Host := (s.setReader .ended).drainPendingEventAcks .disconnected

/-- `route_adapter_request`, up to its await. -/
def routeAdapterRequest (request : AdapterRequestEnvelope) : Host :=
  match request.body with
  | .eventAck ack =>
    match s.pending.find? (·.requestId == request.requestId) with
    | some row => s.deliver row (if request.actionExecutionId = .nil then .ok ack else .error .protocol)
    | none => s
  | .actionExecute payload => s.setReader (.passing (.action request.requestId request.actionExecutionId payload))
  | .status => s.setReader (.passing (.status request.requestId request.actionExecutionId))

def readFrame : Option AdapterRequestEnvelope → Host
  | some request =>
    if request.protocolVersion.major = currentProtocolVersion.major then
      (s.record (.received request)).routeAdapterRequest request
    else s.disconnect
  | none => s.disconnect

def pass : Option Host :=
  match s.reader, s.mainLoop with
  | .passing _, .stopped => some s.disconnect
  | .passing inbound, _ =>
    if s.inbound.length < channelCapacity then some (s.enqueue inbound) else none
  | _, _ => none

/-! ### The main loop -/

def readNative (D : Decoders) (message : NativeEnvelope) : Host :=
  let t := s.countRead message
  match handleNativeMessage D message with
  | .error _ => t.setMain (.answering s.reads (integrationError message.requestId))
  | .ok (.request answerType) => t.setMain (.requesting s.reads message.requestId answerType)
  | .ok (.emit event) => t.setTask s.reads (.spawned message.requestId event)
  | .ok (.result response) => t.setMain (.returning s.reads message.requestId response)
  | .ok .pong => t.setMain (.answering s.reads (pongMessage message.requestId))

def respond (value : Option Json) : Option Host :=
  match s.mainLoop, value with
  | .requesting n requestId answerType, some value =>
    some (s.setMain (.answering n ⟨currentProtocolVersion, requestId, answerType, value⟩))
  | .requesting n requestId _, none => some (s.setMain (.answering n (integrationError requestId)))
  | _, _ => none

def forward : CoreInbound → Option (Bool × Host)
  | .action requestId actionExecutionId payload =>
    (s.native.send (actionMessage requestId actionExecutionId payload)).map fun (sent, native) =>
      (sent, s.setNative native)
  | .status requestId actionExecutionId =>
    (s.adapter.send ⟨currentProtocolVersion, requestId, actionExecutionId, .status s.adapterStatus⟩).map
      fun (sent, adapter) => (sent, s.setAdapter adapter)

def proceed : Option Host :=
  match s.mainLoop with
  | .returning n requestId response =>
    (s.adapter.send response).map fun (sent, adapter) =>
      if sent then (s.setAdapter adapter).setMain .listening
      else s.setMain (.answering n (integrationError requestId))
  | .answering n envelope =>
    (s.native.send envelope).map fun (sent, native) =>
      let s := (s.setNative native).setMain .listening
      if sent then s.record (.answered n envelope) else s
  | .forwarding inbound =>
    (s.forward inbound).map fun (sent, s) => (s.setMain .listening).record (.forwarded inbound sent)
  | _ => none

def take : Option Host :=
  match s.mainLoop, s.inbound with
  | .listening, inbound :: rest => some (s.dequeue inbound rest)
  | _, _ => none

def isListening : Bool :=
  match s.mainLoop with
  | .listening => true
  | _ => false

def isReading : Bool :=
  match s.reader with
  | .reading => true
  | _ => false

/-- The tasks are aborted, with their guards, and the queues go with their receivers. -/
def stop : Host :=
  { s.disconnect with
    mainLoop := .stopped
    tasks := fun n =>
      match s.tasks n with
      | .absent => .absent
      | .ended => .ended
      | _ => .aborted
    inbound := []
    native := ⟨[], none, false⟩
    adapter := ⟨[], none, false⟩ }

end Host

def Host.step (D : Decoders) (s : Host) : HostEvent → Option Host
  | .native message => if s.isListening then some (s.readNative D message) else none
  | .respond value => s.respond value
  | .take => s.take
  | .proceed => s.proceed
  | .task n => s.runTask n
  | .expire n => s.expire n
  | .frame request => if s.isReading then some (s.readFrame request) else none
  | .pass => s.pass
  | .receiveNative => s.native.receive.map s.setNative
  | .writeNative ok => (s.native.write ok).map s.setNative
  | .receiveAdapter => s.adapter.receive.map s.setAdapter
  | .writeAdapter ok => (s.adapter.write ok).map s.setAdapter
  | .quit => if s.isListening then some s.stop else none

end Fubun.NativeHost

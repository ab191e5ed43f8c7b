import Fubun.Concurrency.Machine
import Fubun.Core.World

/-! The adapter manager while its calls are running: the registry, the requests that wait for their
replies, the queues to the adapters, and where each call stands. A call goes on from one lock or one
wait to the next; between them it touches nothing shared. -/

namespace Fubun
open Relational

inductive AdapterRequestBody where
  | actionExecute (action : ActionSpec) (resolvedResource : Option ResolvedResource)
  | eventAck (ack : EventAck)
deriving DecidableEq

structure AdapterRequestEnvelope where
  protocolVersion : ProtocolVersion
  requestId : Uuid
  actionExecutionId : Uuid
  body : AdapterRequestBody
deriving DecidableEq

/-- A request in the pending map, under the key `requestId`. -/
structure PendingRequest where
  requestId : Uuid
  identity : EligibleAdapter
  connectionToken : Uuid
  actionExecutionId : Uuid
deriving DecidableEq

/-- The oneshot channel between a pending request and the call that waits for its reply. -/
inductive Oneshot where
  | empty
  | sent (result : Except AdapterDispatchErrorKind ActionResult)
  | closed
deriving DecidableEq

/-! ## The two maps -/

structure AdapterManager where
  connections : Registry
  pending : List PendingRequest
  /-- The oneshot of each request. -/
  replies : Uuid → Oneshot

namespace AdapterManager

/-- Take requests out of the pending map and leave `outcome` on their oneshots. -/
def remove (p : PendingRequest → Bool) (outcome : Oneshot) (m : AdapterManager) : AdapterManager :=
  { m with
    pending := deleteRows p m.pending
    replies := fun id => if m.pending.any fun row => p row && row.requestId == id then outcome else m.replies id }

def failPendingForToken (token : Uuid) : AdapterManager → AdapterManager :=
  remove (·.connectionToken == token) (.sent (.error .disconnected))

def drainPending : AdapterManager → AdapterManager := remove (fun _ => true) (.sent (.error .disconnected))

/-- `PendingRequestGuard::drop`: the request goes with its sender. -/
def releasePending (requestId : Uuid) : AdapterManager → AdapterManager := remove (·.requestId == requestId) .closed

def insertPending (request : PendingRequest) (m : AdapterManager) : AdapterManager :=
  { m with
    pending := deleteRows (·.requestId == request.requestId) m.pending ++ [request]
    replies := Function.update m.replies request.requestId .empty }

/-- `resolve` takes the request out and keeps its sender. -/
def takePending (requestId : Uuid) (m : AdapterManager) : AdapterManager :=
  { m with pending := deleteRows (·.requestId == requestId) m.pending }

def sendReply (requestId : Uuid) (result : Except AdapterDispatchErrorKind ActionResult) (m : AdapterManager) :
    AdapterManager :=
  { m with replies := Function.update m.replies requestId (.sent result) }

def findPending (requestId : Uuid) (m : AdapterManager) : Option PendingRequest :=
  m.pending.find? (·.requestId == requestId)

def findConnection (instanceId : Uuid) (m : AdapterManager) : Option AdapterConnection :=
  m.connections.find? (·.instanceId == instanceId)

end AdapterManager

def PendingRequest.verdict (request : PendingRequest) (response : AdapterResponseEnvelope) :
    Except AdapterDispatchErrorKind ActionResult :=
  if request.actionExecutionId ≠ response.actionExecutionId then .error .protocol
  else
    match response.body with
    | .actionResult result => .ok result
    | .status _ | .eventEmit _ => .error .protocol

def PendingRequest.outcome (request : PendingRequest) :
    Oneshot → Option (Except DispatchedActionError DispatchedActionResult)
  | .empty => none
  | .sent (.ok result) => some (.ok ⟨request.identity, result⟩)
  | .sent (.error kind) => some (.error ⟨some request.identity, kind⟩)
  | .closed => some (.error ⟨some request.identity, .disconnected⟩)

/-! ## Calls -/

/-- A call of one of the methods. A response and an acknowledgement come from the task of the
connection `arrivedOn`; `resolve` itself is not told which that is. -/
inductive ManagerCall where
  | register (hello : AdapterHello)
  | disconnectIfCurrent (instanceId token : Uuid)
  | shutdown
  | execute (action : ActionSpec) (resolved : Option ResolvedResource)
  | resolve (arrivedOn : Uuid) (response : AdapterResponseEnvelope)
  | acknowledge (arrivedOn requestId : Uuid) (ack : EventAck)
deriving DecidableEq

/-- Where a call stands: before its next lock, at a wait, or at its end. -/
inductive ManagerTask where
  | absent
  | registering (hello : AdapterHello)
  | replacing (token previous : Uuid)
  | registered (reply : Except AdapterRegistrationError Uuid)
  | disconnecting (instanceId token : Uuid)
  | failing (token : Uuid)
  | clearing
  | draining
  | selecting (action : ActionSpec) (resolved : Option ResolvedResource)
  | inserting (identity : EligibleAdapter) (token : Uuid) (action : ActionSpec) (resolved : Option ResolvedResource)
  | sending (request : PendingRequest) (envelope : AdapterRequestEnvelope)
  | waiting (request : PendingRequest)
  /-- The guard is about to drop; the call returns an error, or its future is dropped. -/
  | releasing (request : PendingRequest) (error : Option AdapterDispatchErrorKind)
  | completed (request : Option PendingRequest) (outcome : Except DispatchedActionError DispatchedActionResult)
  | dropped (request : Option PendingRequest)
  | finding (arrivedOn : Uuid) (response : AdapterResponseEnvelope)
  | touching (instanceId arrivedOn : Uuid) (response : AdapterResponseEnvelope)
  | taking (arrivedOn : Uuid) (response : AdapterResponseEnvelope)
  | replying (request : PendingRequest) (arrivedOn : Uuid) (response : AdapterResponseEnvelope)
  | acknowledging (token : Uuid) (envelope : AdapterRequestEnvelope)
  | ended

def ManagerCall.task : ManagerCall → ManagerTask
  | .register hello => .registering hello
  | .disconnectIfCurrent instanceId token => .disconnecting instanceId token
  | .shutdown => .clearing
  | .execute action resolved => .selecting action resolved
  | .resolve arrivedOn response => .finding arrivedOn response
  | .acknowledge arrivedOn requestId ack =>
    .acknowledging arrivedOn ⟨currentProtocolVersion, requestId, 0, .eventAck ack⟩

/-- The queue to one adapter, its writer task, and what the adapter has not read from its socket. -/
structure AdapterChannel where
  queue : List AdapterRequestEnvelope
  writing : Option AdapterRequestEnvelope
  socket : List AdapterRequestEnvelope
  isOpen : Bool
deriving DecidableEq

def channelCapacity : Nat := 32

namespace AdapterChannel

def fresh : AdapterChannel := ⟨[], none, [], true⟩

def hasRoom (channel : AdapterChannel) : Bool := decide (channel.queue.length < channelCapacity)

def push (envelope : AdapterRequestEnvelope) (channel : AdapterChannel) : AdapterChannel :=
  { channel with queue := channel.queue ++ [envelope] }

end AdapterChannel

/-- One manager with the calls on it, numbered as they start. -/
structure ManagerState where
  manager : AdapterManager
  channels : Uuid → AdapterChannel
  tasks : Nat → ManagerTask
  calls : Nat
  now : OffsetDateTime
  issued : List Uuid
  /-- The hello of each connection that has registered. -/
  hellos : List (Uuid × AdapterHello)
  /-- Every response that a connection's task has read, with the connection. -/
  arrivals : List (Uuid × AdapterResponseEnvelope)
  /-- How many messages a socket takes before its adapter reads them. -/
  socketRoom : Nat

def ManagerState.start (now : OffsetDateTime) (socketRoom : Nat) : ManagerState where
  manager := ⟨[], [], fun _ => .closed⟩
  channels _ := .fresh
  tasks _ := .absent
  calls := 0
  now := now
  issued := []
  hellos := []
  arrivals := []
  socketRoom := socketRoom

/-! ## Steps -/

inductive ManagerEvent where
  | start (call : ManagerCall)
  /-- A call goes on to its next lock or wait; `fresh` are the UUIDs it draws on the way. -/
  | advance (n : Nat) (fresh : Uuid × Uuid)
  /-- The timeout of a call elapses while it waits for the reply. -/
  | timeout (n : Nat)
  /-- The future of an `execute` is dropped at a wait. -/
  | cancel (n : Nat)
  /-- The writer task takes a message off the queue. -/
  | receive (token : Uuid)
  /-- The writer task has written its message to the socket. -/
  | write (token : Uuid)
  /-- The adapter reads a message. -/
  | read (token : Uuid)
  /-- The writer task ends. -/
  | close (token : Uuid)
  | clock (now : OffsetDateTime)

namespace ManagerState

def setManager (s : ManagerState) (m : AdapterManager) : ManagerState := { s with manager := m }

def setTask (s : ManagerState) (n : Nat) (task : ManagerTask) : ManagerState :=
  { s with tasks := Function.update s.tasks n task }

def setChannel (s : ManagerState) (token : Uuid) (channel : AdapterChannel) : ManagerState :=
  { s with channels := Function.update s.channels token channel }

/-- The insertion of a connection under a fresh token. -/
def connect (s : ManagerState) (token : Uuid) (hello : AdapterHello) : ManagerState :=
  { s with
    manager := { s.manager with connections := s.manager.connections.insert ⟨token, hello, s.now, s.now⟩ }
    channels := Function.update s.channels token .fresh
    issued := token :: s.issued
    hellos := (token, hello) :: s.hellos }

/-- `insert_pending_if_current`, once the connection is found to be the selected one. -/
def dispatch (s : ManagerState) (request : PendingRequest) : ManagerState :=
  { s with
    manager := s.manager.insertPending request
    issued := request.requestId :: request.actionExecutionId :: s.issued }

/-- `Sender::send`: it waits while the queue is full and fails once the receiver is gone. -/
def send (s : ManagerState) (token : Uuid) (envelope : AdapterRequestEnvelope) : Option (Bool × ManagerState) :=
  let channel := s.channels token
  if ! channel.isOpen then some (false, s)
  else if channel.hasRoom then some (true, s.setChannel token (channel.push envelope))
  else none

def register (s : ManagerState) (token : Uuid) (hello : AdapterHello) : Option (ManagerTask × ManagerState) :=
  match validateHello hello with
  | .error error => some (.registered (.error error), s)
  | .ok () =>
    if token ∈ s.issued then none
    else
      match s.manager.findConnection hello.instanceId with
      | some previous => some (.replacing token previous.connectionToken, s.connect token hello)
      | none => some (.registered (.ok token), s.connect token hello)

def disconnect (s : ManagerState) (instanceId token : Uuid) : ManagerTask × ManagerState :=
  match s.manager.findConnection instanceId with
  | some connection =>
    if connection.connectionToken = token then
      (.failing token, s.setManager { s.manager with
        connections := s.manager.connections.disconnectIfCurrent instanceId token })
    else (.ended, s)
  | none => (.ended, s)

def select (s : ManagerState) (action : ActionSpec) (resolved : Option ResolvedResource) : ManagerTask :=
  match s.manager.connections.selectEligible (AdapterRequirements.fromAction action) with
  | .error error => .completed none (.error ⟨none, error.dispatchKind⟩)
  | .ok (identity, token) => .inserting identity token action resolved

def insertPendingIfCurrent (s : ManagerState) (fresh : Uuid × Uuid) (identity : EligibleAdapter) (token : Uuid)
    (action : ActionSpec) (resolved : Option ResolvedResource) : Option (ManagerTask × ManagerState) :=
  if fresh.1 ∈ s.issued ∨ fresh.2 ∈ s.issued ∨ fresh.1 = fresh.2 then none
  else
    let request : PendingRequest := ⟨fresh.1, identity, token, fresh.2⟩
    let envelope : AdapterRequestEnvelope :=
      ⟨currentProtocolVersion, fresh.1, fresh.2, .actionExecute action resolved⟩
    match s.manager.findConnection identity.instanceId with
    | some connection =>
      if connection.connectionToken ≠ token then some (.completed none (.error ⟨some identity, .disconnected⟩), s)
      else some (.sending request envelope, s.dispatch request)
    | none => some (.completed none (.error ⟨some identity, .disconnected⟩), s)

/-- The next part of a call, up to its next lock or wait; `none` where it has to wait. -/
def advance (s : ManagerState) (fresh : Uuid × Uuid) : ManagerTask → Option (ManagerTask × ManagerState)
  | .registering hello => s.register fresh.1 hello
  | .replacing token previous => some (.registered (.ok token), s.setManager (s.manager.failPendingForToken previous))
  | .disconnecting instanceId token => some (s.disconnect instanceId token)
  | .failing token => some (.ended, s.setManager (s.manager.failPendingForToken token))
  | .clearing => some (.draining, s.setManager { s.manager with connections := [] })
  | .draining => some (.ended, s.setManager s.manager.drainPending)
  | .selecting action resolved => some (s.select action resolved, s)
  | .inserting identity token action resolved => s.insertPendingIfCurrent fresh identity token action resolved
  | .sending request envelope =>
    (s.send request.connectionToken envelope).map fun (delivered, s') =>
      (if delivered then .waiting request else .releasing request (some .disconnected), s')
  | .waiting request =>
    (request.outcome (s.manager.replies request.requestId)).map fun outcome => (.completed (some request) outcome, s)
  | .releasing request error =>
    some (match error with
      | some kind => .completed (some request) (.error ⟨some request.identity, kind⟩)
      | none => .dropped (some request), s.setManager (s.manager.releasePending request.requestId))
  | .finding arrivedOn response =>
    some (match s.manager.findPending response.requestId with
      | some request => .touching request.identity.instanceId arrivedOn response
      | none => .taking arrivedOn response, s)
  | .touching instanceId arrivedOn response =>
    some (.taking arrivedOn response, s.setManager { s.manager with
      connections := s.manager.connections.touch instanceId s.now })
  | .taking arrivedOn response =>
    some <| match s.manager.findPending response.requestId with
      | some request => (.replying request arrivedOn response, s.setManager (s.manager.takePending response.requestId))
      | none => (.ended, s)
  | .replying request _ response =>
    some (.ended, s.setManager (s.manager.sendReply request.requestId (request.verdict response)))
  | .acknowledging token envelope => (s.send token envelope).map fun (_, s') => (.ended, s')
  | .absent | .registered _ | .completed .. | .dropped _ | .ended => none

/-- Where the future of a call is dropped. -/
def cancelled : ManagerTask → Option ManagerTask
  | .selecting .. | .inserting .. => some (.dropped none)
  | .sending request _ | .waiting request => some (.releasing request none)
  | _ => none

def timedOut (s : ManagerState) : ManagerTask → Option ManagerTask
  | .waiting request =>
    if s.manager.replies request.requestId = .empty then some (.releasing request (some .timeout)) else none
  | _ => none

def started (s : ManagerState) (call : ManagerCall) : ManagerState :=
  { s with
    tasks := Function.update s.tasks s.calls call.task
    calls := s.calls + 1
    arrivals := match call with
      | .resolve arrivedOn response => (arrivedOn, response) :: s.arrivals
      | _ => s.arrivals }

def receive (channel : AdapterChannel) : Option AdapterChannel :=
  match channel.writing, channel.queue with
  | none, envelope :: queue => some { channel with queue := queue, writing := some envelope }
  | _, _ => none

def write (socketRoom : Nat) (channel : AdapterChannel) : Option AdapterChannel :=
  match channel.writing with
  | some envelope =>
    if channel.socket.length < socketRoom then
      some { channel with writing := none, socket := channel.socket ++ [envelope] }
    else none
  | none => none

def step (s : ManagerState) : ManagerEvent → Option ManagerState
  | .start call => some (s.started call)
  | .advance n fresh => (s.advance fresh (s.tasks n)).map fun (task, s') => s'.setTask n task
  | .timeout n => (s.timedOut (s.tasks n)).map (s.setTask n)
  | .cancel n => (cancelled (s.tasks n)).map (s.setTask n)
  | .receive token => (receive (s.channels token)).map (s.setChannel token)
  | .write token => (write s.socketRoom (s.channels token)).map (s.setChannel token)
  | .read token => some (s.setChannel token { s.channels token with socket := (s.channels token).socket.tail })
  | .close token => some (s.setChannel token { s.channels token with queue := [], writing := none, isOpen := false })
  | .clock now => some { s with now := now }

end ManagerState
end Fubun

import Fubun.Concurrency.System
import Fubun.Core.Adapters
import Fubun.Storage.Operation

/-! The operations that the tasks of the daemon share, and the world they act on:
the storage writer, the adapter manager, the clocks, the file system and the
UUIDs drawn so far. Between two operations a task touches none of these. -/

namespace Fubun
open Relational Concurrency

/-- What `fs::metadata` finds at a path. -/
inductive FileKind where
  | file
  | directory
  | other
deriving DecidableEq, Repr

/-- The file system as the daemon looks at it; paths are taken to be UTF-8. -/
structure Files where
  metadata : String → Option FileKind
  canonicalize : String → Option String

inductive Op where
  | storage (operation : Operation)
  | findEligible (requirements : AdapterRequirements)
  | execute (action : ActionSpec) (resolved : Option ResolvedResource) (timeoutNanos : Nat)
  | register (hello : AdapterHello)
  | disconnectIfCurrent (instanceId token : Uuid)
  | reports
  | connectedCount
  | connectedCountById (adapterId : String)
  | toolAvailable (tool : String)
  | acceptClient
  | newUuid
  | nowUtc
  | instantNow
  | metadata (path : String)
  | canonicalize (path : String)
  | databasePath
deriving DecidableEq

abbrev Op.Res : Op → Type
  | .storage operation => Except StorageError operation.Reply
  | .findEligible _ => Except AdapterEligibilityError EligibleAdapter
  | .execute .. => Except DispatchedActionError DispatchedActionResult
  | .register _ => Except AdapterRegistrationError Uuid
  | .disconnectIfCurrent .. => Unit
  | .reports => List AdapterReport
  | .connectedCount | .connectedCountById _ => Nat
  | .toolAvailable _ => Bool
  | .acceptClient => Unit
  | .newUuid => Uuid
  | .nowUtc => OffsetDateTime
  | .instantNow => Nat
  | .metadata _ => Option FileKind
  | .canonicalize _ => Option String
  | .databasePath => String

abbrev Core (α : Type) := Program Op Op.Res α

abbrev await (o : Op) : Core o.Res := .perform o

/-- The storage handle sends an operation to the writer and waits for its reply. -/
abbrev storage (operation : Operation) : Core (Except StorageError operation.Reply) :=
  await (.storage operation)

/-- How far a connection has come: the handshake decides what its later frames are. -/
inductive Session where
  | fresh
  | client
  | adapter (hello : AdapterHello) (token : Uuid)
  | closed
deriving DecidableEq

structure World where
  up : Bool
  db : Database
  sessions : Nat → Session
  connections : Registry
  now : Int
  instant : Nat
  files : Files
  /-- Every UUID drawn so far, with the connection whose task drew it. -/
  issued : List (Uuid × Nat)
  databasePath : String

/-- What a selected adapter makes of a dispatch. -/
inductive DispatchReply where
  | result (result : ActionResult)
  | timeout
  | disconnected
  | protocol
deriving DecidableEq

/-- What the world leaves open: a UUID that was never drawn, the statement that fails, and
what an adapter replies. -/
structure Choice where
  uuid : Uuid
  fault : Option Nat
  reply : DispatchReply

inductive Drift where
  | clock (now : Int) (advance : Nat)
  | files (files : Files)

namespace World

def nowUtc (w : World) : OffsetDateTime := ⟨w.now, 0⟩

def drew (w : World) (i : Nat) (id : Uuid) : World := { w with issued := (id, i) :: w.issued }

def setSession (w : World) (i : Nat) (session : Session) : World :=
  { w with sessions := Function.update w.sessions i session }

/-- The dispatch of an action as one step: the selection and the adapter's reply. -/
def execute (action : ActionSpec) (reply : DispatchReply) (w : World) :
    Except DispatchedActionError DispatchedActionResult × World :=
  match w.connections.selectEligible (AdapterRequirements.fromAction action) with
  | .error e => (.error ⟨none, e.dispatchKind⟩, w)
  | .ok (identity, _) =>
    match reply with
    | .result result =>
      (.ok ⟨identity, result⟩,
        { w with connections := w.connections.touch identity.instanceId w.nowUtc })
    | .timeout => (.error ⟨some identity, .timeout⟩, w)
    | .disconnected => (.error ⟨some identity, .disconnected⟩, w)
    | .protocol => (.error ⟨some identity, .protocol⟩, w)

variable (crates : Crates)

/-- The storage writer takes one operation off its queue. -/
def store (operation : Operation) (fault : Option Nat) (w : World) :
    Except StorageError operation.Reply × World :=
  let (reply, connection) := executeOperation crates w.nowUtc operation ⟨w.db, fault⟩
  (reply, { w with db := connection.db })

def act (i : Nat) : (o : Op) → Choice → World → Option (o.Res × World)
  | .storage operation, ch, w => some (w.store crates operation ch.fault)
  | .findEligible requirements, _, w => some (w.connections.findEligible requirements, w)
  | .execute action _ _, ch, w => some (w.execute action ch.reply)
  | .register hello, ch, w =>
    match validateHello hello with
    | .error e => some (.error e, w)
    | .ok () =>
      if ch.uuid ∈ w.issued.map (·.1) then none
      else
        let connection := ⟨ch.uuid, hello, w.nowUtc, w.nowUtc⟩
        some (.ok ch.uuid,
          ({ w with connections := w.connections.insert connection }.drew i ch.uuid).setSession i
            (.adapter hello ch.uuid))
  | .disconnectIfCurrent instanceId token, _, w =>
    some ((), { w with connections := w.connections.disconnectIfCurrent instanceId token }.setSession i
      .closed)
  | .reports, _, w => some (w.connections.reports crates, w)
  | .connectedCount, _, w => some (w.connections.length, w)
  | .connectedCountById adapterId, _, w => some (w.connections.connectedCountById adapterId, w)
  | .toolAvailable tool, _, w => some (w.connections.toolAvailable tool, w)
  | .acceptClient, _, w => some ((), w.setSession i .client)
  | .newUuid, ch, w =>
    if ch.uuid ∈ w.issued.map (·.1) then none else some (ch.uuid, w.drew i ch.uuid)
  | .nowUtc, _, w => some (w.nowUtc, w)
  | .instantNow, _, w => some (w.instant, w)
  | .metadata path, _, w => some (w.files.metadata path, w)
  | .canonicalize path, _, w => some (w.files.canonicalize path, w)
  | .databasePath, _, w => some (w.databasePath, w)

def drift : Drift → World → World
  | .clock now advance, w => { w with now := now, instant := w.instant + advance }
  | .files files, w => { w with files := files }

/-- `start_server` after the process has stopped: what ran is gone, the tables are as the last
commit left them, and the daemon serves again once `abort_running_executions` completes. -/
def restart (ch : Choice) (w : World) : World :=
  let (reply, w) := w.store crates .abortRunningExecutions ch.fault
  { w with up := reply.isOk, sessions := fun _ => .fresh, connections := [] }

def start (now : Int) (instant : Nat) (files : Files) (databasePath : String) : World where
  up := true
  db := .empty
  sessions := fun _ => .fresh
  connections := []
  now := now
  instant := instant
  files := files
  issued := []
  databasePath := databasePath

end World
end Fubun

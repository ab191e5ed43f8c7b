import Fubun.Domain.Resource

/-! Rituals, their versions and approvals, and the executions of a ritual. -/

namespace Fubun
open Relational

def ritualSchemaVersion : String := "dev.fubun.ritual/1"
def maxRitualActions : Nat := 16

namespace ActionSpec

def actionType : ActionSpec → String
  | .linuxAppEnsureRunning _ => "linux.app.ensure_running.v1"
  | .linuxPathOpen _ => "linux.path.open.v1"
  | .desktopNotificationShow .. => "desktop.notification.show.v1"
  | .browserTabEnsureOpen _ => "browser.tab.ensure_open.v1"

end ActionSpec

inductive ActionValidationError where
  | invalidAppId
  | invalidNotification (field : String) (maximum : Nat)
deriving DecidableEq, Repr

def ActionValidationError.message : ActionValidationError → String
  | .invalidAppId => "app_id must be 1-128 bytes from A-Z, a-z, 0-9, '.', '_', or '-'"
  | .invalidNotification field maximum =>
    "notification " ++ field ++ " must be 1-" ++ toString maximum ++
      " characters without control characters"

def isAsciiAlphanumeric (c : Char) : Bool :=
  (0x30 ≤ c.toNat && c.toNat ≤ 0x39) || (0x41 ≤ c.toNat && c.toNat ≤ 0x5a) ||
    (0x61 ≤ c.toNat && c.toNat ≤ 0x7a)

def validateAppId (appId : String) : Except ActionValidationError Unit :=
  if appId = "" ∨ appId.utf8ByteSize > 128 ∨
      ¬ appId.toList.all fun c => isAsciiAlphanumeric c || c == '.' || c == '_' || c == '-' then
    .error .invalidAppId
  else .ok ()

def validateNotification (field value : String) (maximum : Nat) : Except ActionValidationError Unit :=
  if value = "" ∨ value.length > maximum ∨ value.toList.any isControl then
    .error (.invalidNotification field maximum)
  else .ok ()

def ActionSpec.validate : ActionSpec → Except ActionValidationError Unit
  | .linuxAppEnsureRunning appId => validateAppId appId
  | .linuxPathOpen _ => .ok ()
  | .desktopNotificationShow title body => do
    validateNotification "title" title 128
    validateNotification "body" body 1024
  | .browserTabEnsureOpen _ => .ok ()

inductive RitualValidationError where
  | unsupportedSchemaVersion (version : String)
  | invalidName
  | invalidActionCount
  | invalidAction (index : Nat) (source : ActionValidationError)
  | invalidTimeout
  | consecutiveDuplicate (index : Nat)
deriving DecidableEq, Repr

def RitualValidationError.message : RitualValidationError → String
  | .unsupportedSchemaVersion version => "unsupported ritual schema version: " ++ version
  | .invalidName => "ritual name must be 1-128 characters"
  | .invalidActionCount => "ritual must contain 1-" ++ toString maxRitualActions ++ " actions"
  | .invalidAction index source =>
    "ritual action " ++ toString index ++ " is invalid: " ++ source.message
  | .invalidTimeout => "execution.timeout_seconds must be between 1 and 120"
  | .consecutiveDuplicate index => "consecutive duplicate action at index " ++ toString index

/-- The loop of `RitualDefinition::validate`; `previous` is the action before `index`. -/
def validateActions (index : Nat) (previous : Option ActionSpec) :
    List ActionSpec → Except RitualValidationError Unit
  | [] => .ok ()
  | action :: actions =>
    match action.validate with
    | .error source => .error (.invalidAction index source)
    | .ok () =>
      if previous = some action then .error (.consecutiveDuplicate index)
      else validateActions (index + 1) (some action) actions

namespace RitualDefinition

def validate (self : RitualDefinition) : Except RitualValidationError Unit :=
  if self.schemaVersion ≠ ritualSchemaVersion then
    .error (.unsupportedSchemaVersion self.schemaVersion)
  else if self.name.length < 1 ∨ 128 < self.name.length ∨ self.name.toList.any isControl then
    .error .invalidName
  else if self.actions = [] ∨ self.actions.length > maxRitualActions then
    .error .invalidActionCount
  else if self.execution.timeoutSeconds = 0 ∨ self.execution.timeoutSeconds > 120 then
    .error .invalidTimeout
  else validateActions 0 none self.actions

def contentHash (crates : Crates) (self : RitualDefinition) : Option String :=
  (crates.canonicalJson self).map crates.sha256Hex

end RitualDefinition

inductive RitualStatus where
  | draft
  | active
  | paused
  | archived
deriving DecidableEq, Repr

structure Ritual where
  id : Uuid
  name : String
  status : RitualStatus
  currentVersionId : Uuid
  createdAt : OffsetDateTime
  updatedAt : OffsetDateTime
deriving DecidableEq, Repr

structure RitualVersion where
  id : Uuid
  ritualId : Uuid
  version : Nat
  schemaVersion : String
  canonicalJson : String
  contentHash : String
  createdAt : OffsetDateTime
deriving DecidableEq, Repr

structure Approval where
  id : Uuid
  ritualVersionId : Uuid
  actionType : String
  capability : String
  resourceId : Option Uuid
  appId : Option String
  contentHash : String
  approvedAt : OffsetDateTime
deriving DecidableEq, Repr

inductive TriggerKind where
  | manual
deriving DecidableEq, Repr

/-- `partially` is the source's `Partial`. -/
inductive ExecutionStatus where
  | planned
  | running
  | succeeded
  | failed
  | partially
  | aborted
deriving DecidableEq, Repr

structure Execution where
  id : Uuid
  ritualId : Uuid
  ritualVersionId : Uuid
  status : ExecutionStatus
  triggerKind : TriggerKind
  startedAt : OffsetDateTime
  finishedAt : Option OffsetDateTime
  failureCode : Option String
  createdAt : OffsetDateTime
deriving DecidableEq, Repr

inductive ExecutionStepStatus where
  | pending
  | running
  | succeeded
  | skipped
  | failed
  | aborted
deriving DecidableEq, Repr

structure ExecutionStep where
  id : Uuid
  executionId : Uuid
  stepIndex : Nat
  actionType : String
  status : ExecutionStepStatus
  adapterId : Option String
  adapterInstanceId : Option Uuid
  startedAt : OffsetDateTime
  finishedAt : Option OffsetDateTime
  resultCode : Option String
  redactedMessage : Option String
deriving DecidableEq, Repr

def ExecutionStatus.isTerminal : ExecutionStatus → Bool
  | .succeeded | .failed | .partially | .aborted => true
  | .planned | .running => false

def ExecutionStepStatus.isTerminal : ExecutionStepStatus → Bool
  | .succeeded | .skipped | .failed | .aborted => true
  | .pending | .running => false

end Fubun

import Fubun.Domain.Ritual

/-! The fixed action registry and its risk policy. -/

namespace Fubun

inductive RiskLevel where
  | r0
  | r1
  | r2
  | r3
deriving DecidableEq, Repr

def RiskLevel.rank : RiskLevel → Nat
  | .r0 => 0
  | .r1 => 1
  | .r2 => 2
  | .r3 => 3

/-- The `Debug` text of a level, which a preview shows. -/
def RiskLevel.debug : RiskLevel → String
  | .r0 => "R0"
  | .r1 => "R1"
  | .r2 => "R2"
  | .r3 => "R3"

inductive Idempotency where
  | idempotent
  | bestEffort
  | nonIdempotent
deriving DecidableEq, Repr

def Idempotency.debug : Idempotency → String
  | .idempotent => "Idempotent"
  | .bestEffort => "BestEffort"
  | .nonIdempotent => "NonIdempotent"

inductive Revertability where
  | noStateChange
  | partiallyRevertable
  | notRevertable
deriving DecidableEq, Repr

def Revertability.debug : Revertability → String
  | .noStateChange => "NoStateChange"
  | .partiallyRevertable => "PartiallyRevertable"
  | .notRevertable => "NotRevertable"

structure ActionDescriptor where
  actionType : String
  schemaVersion : String
  riskLevel : RiskLevel
  idempotency : Idempotency
  revertability : Revertability
  requiredCapability : String
  defaultTimeoutMs : Nat
deriving DecidableEq, Repr

def appEnsureRunning : ActionDescriptor where
  actionType := "linux.app.ensure_running.v1"
  schemaVersion := "1"
  riskLevel := .r1
  idempotency := .bestEffort
  revertability := .notRevertable
  requiredCapability := "linux.app.ensure_running.v1"
  defaultTimeoutMs := 10000

def pathOpen : ActionDescriptor where
  actionType := "linux.path.open.v1"
  schemaVersion := "1"
  riskLevel := .r1
  idempotency := .bestEffort
  revertability := .noStateChange
  requiredCapability := "linux.path.open.v1"
  defaultTimeoutMs := 10000

def notificationShow : ActionDescriptor where
  actionType := "desktop.notification.show.v1"
  schemaVersion := "1"
  riskLevel := .r0
  idempotency := .nonIdempotent
  revertability := .noStateChange
  requiredCapability := "desktop.notification.show.v1"
  defaultTimeoutMs := 10000

def browserTabEnsureOpen : ActionDescriptor where
  actionType := "browser.tab.ensure_open.v1"
  schemaVersion := "1"
  riskLevel := .r1
  idempotency := .bestEffort
  revertability := .partiallyRevertable
  requiredCapability := "browser.tab.ensure_open.v1"
  defaultTimeoutMs := 10000

def descriptor : ActionSpec → ActionDescriptor
  | .linuxAppEnsureRunning _ => appEnsureRunning
  | .linuxPathOpen _ => pathOpen
  | .desktopNotificationShow .. => notificationShow
  | .browserTabEnsureOpen _ => browserTabEnsureOpen

def descriptorByType (actionType : String) : Option ActionDescriptor :=
  if actionType = "linux.app.ensure_running.v1" then some appEnsureRunning
  else if actionType = "linux.path.open.v1" then some pathOpen
  else if actionType = "desktop.notification.show.v1" then some notificationShow
  else if actionType = "browser.tab.ensure_open.v1" then some browserTabEnsureOpen
  else none

structure ApprovalFields where
  actionType : String
  capability : String
  resourceId : Option Uuid
  appId : Option String
deriving DecidableEq, Repr

def approvalFields (action : ActionSpec) : ApprovalFields :=
  let descriptor := descriptor action
  match action with
  | .linuxAppEnsureRunning appId =>
    ⟨descriptor.actionType, descriptor.requiredCapability, none, some appId⟩
  | .linuxPathOpen resourceId =>
    ⟨descriptor.actionType, descriptor.requiredCapability, some resourceId, none⟩
  | .desktopNotificationShow .. => ⟨descriptor.actionType, descriptor.requiredCapability, none, none⟩
  | .browserTabEnsureOpen resourceId =>
    ⟨descriptor.actionType, descriptor.requiredCapability, some resourceId, none⟩

inductive PolicyError where
  | unknownAction
  | riskNotPermitted
deriving DecidableEq, Repr

def PolicyError.message : PolicyError → String
  | .unknownAction => "action is not registered"
  | .riskNotPermitted => "risk level is not permitted for Phase 2 manual execution"

def validateAction (action : ActionSpec) : Except PolicyError ActionDescriptor :=
  let descriptor := descriptor action
  if descriptor.riskLevel.rank > RiskLevel.r1.rank then .error .riskNotPermitted else .ok descriptor

/-- The registry holds no action above R1. -/
theorem validateAction_ok (action : ActionSpec) : validateAction action = .ok (descriptor action) := by
  cases action <;> rfl

theorem descriptorByType_descriptor (action : ActionSpec) :
    descriptorByType (descriptor action).actionType = some (descriptor action) := by
  cases action <;> rfl

end Fubun

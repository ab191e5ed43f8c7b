import Fubun.Protocol

/-! The adapter registry: what a hello must satisfy, and which connected adapter
is selected for an action. -/

namespace Fubun
open Relational

inductive AdapterDispatchErrorKind where
  | unavailable
  | capabilityUnavailable
  | timeout
  | disconnected
  | protocol
deriving DecidableEq, Repr

structure AdapterRequirements where
  capability : String
  requiredTool : Option String
  desktopEntryId : Option String
  browserResourceId : Option Uuid
deriving DecidableEq, Repr

def AdapterRequirements.fromAction : ActionSpec → AdapterRequirements
  | .linuxAppEnsureRunning appId =>
    ⟨"linux.app.ensure_running.v1", some "gtk-launch", some appId, none⟩
  | .linuxPathOpen _ => ⟨"linux.path.open.v1", some "xdg-open", none, none⟩
  | .desktopNotificationShow .. => ⟨"desktop.notification.show.v1", some "notify-send", none, none⟩
  | .browserTabEnsureOpen resourceId => ⟨"browser.tab.ensure_open.v1", none, none, some resourceId⟩

structure EligibleAdapter where
  adapterId : String
  instanceId : Uuid
deriving DecidableEq, Repr

inductive AdapterEligibilityError where
  | unavailable
  | ineligible
deriving DecidableEq, Repr

structure DispatchedActionError where
  identity : Option EligibleAdapter
  kind : AdapterDispatchErrorKind
deriving DecidableEq, Repr

structure DispatchedActionResult where
  identity : EligibleAdapter
  result : ActionResult
deriving DecidableEq, Repr

inductive AdapterRegistrationError where
  | unknownAdapter
  | invalidVersion
  | invalidCapabilityCount
  | invalidCapability
  | unknownCapability
  | duplicateCapability
deriving DecidableEq, Repr

def AdapterRegistrationError.message : AdapterRegistrationError → String
  | .unknownAdapter => "adapter id is not registered for Phase 2"
  | .invalidVersion => "adapter version is empty, too long, or contains control characters"
  | .invalidCapabilityCount => "adapter capability list is empty or too large"
  | .invalidCapability => "adapter capability is empty, too long, or contains control characters"
  | .unknownCapability => "adapter capability is not in the fixed action registry"
  | .duplicateCapability => "adapter capability is duplicated"

def linuxAdapterId : String := "dev.fubun.linux"
def browserAdapterId : String := "dev.fubun.browser.chromium"
def vscodeAdapterId : String := "dev.fubun.vscode"
def maxAdapterVersionBytes : Nat := 128
def maxCapabilities : Nat := 16
def maxCapabilityBytes : Nat := 128
def eventCapabilities : List String :=
  ["dev.fubun.browser.resource.opened.v1", "dev.fubun.vscode.workspace.opened.v1"]

/-! ## Hello -/

/-- One round of the loop of `validate_hello`, up to the check against `seen`. -/
def validateCapability (adapterId capability : String) : Except AdapterRegistrationError Unit :=
  if capability = "" ∨ capability.utf8ByteSize > maxCapabilityBytes ∨
      capability.toList.any fun c => isControl c || isWhitespace c then
    .error .invalidCapability
  else if (descriptorByType capability).isNone ∧ capability ∉ eventCapabilities then
    .error .unknownCapability
  else if adapterId = vscodeAdapterId ∧ (descriptorByType capability).isSome then
    .error .unknownCapability
  else if adapterId = browserAdapterId ∧ "dev.fubun.vscode.".toList.isPrefixOf capability.toList then
    .error .unknownCapability
  else if capability = "browser.tab.ensure_open.v1" ∧ adapterId ≠ browserAdapterId then
    .error .unknownCapability
  else if capability ∈ ["linux.app.ensure_running.v1", "linux.path.open.v1",
      "desktop.notification.show.v1"] ∧ adapterId ≠ linuxAdapterId then
    .error .unknownCapability
  else if capability = "dev.fubun.browser.resource.opened.v1" ∧ adapterId ≠ browserAdapterId then
    .error .unknownCapability
  else if capability = "dev.fubun.vscode.workspace.opened.v1" ∧ adapterId ≠ vscodeAdapterId then
    .error .unknownCapability
  else .ok ()

def validateCapabilities (adapterId : String) (seen : List String) :
    List String → Except AdapterRegistrationError Unit
  | [] => .ok ()
  | capability :: capabilities => do
    validateCapability adapterId capability
    if capability ∈ seen then .error .duplicateCapability
    else validateCapabilities adapterId (capability :: seen) capabilities

def validateHello (hello : AdapterHello) : Except AdapterRegistrationError Unit :=
  if hello.adapterId ∉ [linuxAdapterId, browserAdapterId, vscodeAdapterId] then
    .error .unknownAdapter
  else if hello.adapterVersion = "" ∨ hello.adapterVersion.utf8ByteSize > maxAdapterVersionBytes ∨
      hello.adapterVersion.toList.any isControl then
    .error .invalidVersion
  else if hello.actionCapabilities.length + hello.eventCapabilities.length > maxCapabilities ∨
      (hello.actionCapabilities = [] ∧ hello.eventCapabilities = []) then
    .error .invalidCapabilityCount
  else validateCapabilities hello.adapterId [] (hello.actionCapabilities ++ hello.eventCapabilities)

/-! ## Connections -/

structure AdapterConnection where
  connectionToken : Uuid
  hello : AdapterHello
  connectedAt : OffsetDateTime
  lastSeenAt : OffsetDateTime
deriving DecidableEq, Repr

def AdapterConnection.instanceId (connection : AdapterConnection) : Uuid := connection.hello.instanceId

def adapterIdAllowedForCapability (adapterId capability : String) : Bool :=
  if capability = "browser.tab.ensure_open.v1" then adapterId == browserAdapterId
  else if capability ∈ ["linux.app.ensure_running.v1", "linux.path.open.v1",
      "desktop.notification.show.v1"] then adapterId == linuxAdapterId
  else false

def connectionSatisfies (connection : AdapterConnection) (requirements : AdapterRequirements) : Bool :=
  adapterIdAllowedForCapability connection.hello.adapterId requirements.capability &&
    connection.hello.actionCapabilities.contains requirements.capability &&
    requirements.requiredTool.all (fun tool =>
      connection.hello.status.tools.any fun candidate => candidate.name == tool && candidate.available) &&
    requirements.desktopEntryId.all (connection.hello.status.desktopEntryIds.contains ·) &&
    requirements.browserResourceId.all fun resourceId =>
      connection.hello.adapterId == browserAdapterId &&
        connection.hello.status.permittedResourceIds.contains resourceId

/-- The connections by instance id; registering an id again replaces its connection. -/
abbrev Registry := List AdapterConnection

namespace Registry

def insert (connection : AdapterConnection) (connections : Registry) : Registry :=
  deleteRows (·.instanceId == connection.instanceId) connections ++ [connection]

def disconnectIfCurrent (instanceId token : Uuid) (connections : Registry) : Registry :=
  deleteRows (fun connection => connection.instanceId == instanceId &&
    connection.connectionToken == token) connections

def touch (instanceId : Uuid) (now : OffsetDateTime) (connections : Registry) : Registry :=
  updateRows (·.instanceId == instanceId) (fun connection => { connection with lastSeenAt := now })
    connections

def selectEligible (requirements : AdapterRequirements) (connections : Registry) :
    Except AdapterEligibilityError (EligibleAdapter × Uuid) :=
  if connections = [] then .error .unavailable
  else
    let candidates := (connections.filter (connectionSatisfies · requirements)).map fun connection =>
      (EligibleAdapter.mk connection.hello.adapterId connection.instanceId, connection.connectionToken)
    match orderBy (fun a b => decide (a.1.instanceId ≤ b.1.instanceId)) candidates with
    | candidate :: _ => .ok candidate
    | [] => .error .ineligible

def findEligible (requirements : AdapterRequirements) (connections : Registry) :
    Except AdapterEligibilityError EligibleAdapter :=
  (selectEligible requirements connections).map (·.1)

def reports (crates : Crates) (connections : Registry) : List AdapterReport :=
  orderBy (fun a b => decide (a.instanceId ≤ b.instanceId)) <| connections.map fun connection =>
    { adapterId := connection.hello.adapterId
      version := connection.hello.adapterVersion
      instanceId := connection.hello.instanceId
      connected := true
      capabilities := connection.hello.actionCapabilities
      eventCapabilities := connection.hello.eventCapabilities
      permittedResourceIds := connection.hello.status.permittedResourceIds
      connectedAt := crates.formatRfc3339 connection.connectedAt
      lastSeenAt := crates.formatRfc3339 connection.lastSeenAt }

def connectedCountById (adapterId : String) (connections : Registry) : Nat :=
  connections.countP (·.hello.adapterId == adapterId)

def toolAvailable (tool : String) (connections : Registry) : Bool :=
  connections.any fun connection => connection.hello.status.tools.any fun candidate =>
    candidate.name == tool && candidate.available

end Registry

/-- The answer that a dispatch without an identity gives for an eligibility error. -/
def AdapterEligibilityError.dispatchKind : AdapterEligibilityError → AdapterDispatchErrorKind
  | .unavailable => .unavailable
  | .ineligible => .capabilityUnavailable

end Fubun

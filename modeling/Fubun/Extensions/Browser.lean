import Fubun.Extensions.BrowserEvent
import Fubun.Extensions.Workspace

/-! The browser extension: the pages it observes are mappings in its storage, and every call reads
and writes the whole list of them. Between two operations a call touches nothing that others see. -/

namespace Fubun.Extensions
open Concurrency Program Encoding

/-! ## Pages -/

/-- `input.length` of a JavaScript string, in UTF-16 code units. -/
def utf16Length (text : String) : Nat := (text.toList.map fun c => if c.toNat < 0x10000 then 1 else 2).sum

def isForbiddenControl (c : Char) : Bool := c.toNat ≤ 0x1f || c.toNat == 0x7f

section Urls
variable (crates : Crates)

def canonicalizeWebUrl (input : String) : Except String String :=
  if utf16Length input = 0 ∨ utf16Length input > 2048 then .error "invalid URL length"
  else
    match crates.parseUrl input with
    | none => .error "Invalid URL"
    | some url =>
      if url.scheme ≠ "http" ∧ url.scheme ≠ "https" then .error "unsupported scheme"
      else if url.username ≠ "" ∨ url.password.getD "" ≠ "" then .error "userinfo is forbidden"
      else
        let url := { url with query := none, fragment := none }
        let url := if url.path = "" then { url with path := "/" } else url
        let url :=
          if (url.scheme, url.port) = ("http", some 80) ∨ (url.scheme, url.port) = ("https", some 443)
          then { url with port := none } else url
        let canonical := crates.urlToString url
        if utf16Length canonical > 2048 ∨ canonical.toList.any isForbiddenControl then .error "invalid URL"
        else .ok canonical

def originPattern (canonicalUrl : String) : Except String String :=
  match crates.parseUrl canonicalUrl with
  | none => .error "Invalid URL"
  | some url =>
    let port := (url.port.map fun port => ":" ++ toString port).getD ""
    .ok (url.scheme ++ "://" ++ url.host.getD "" ++ port ++ "/*")

/-- `new URL(canonical).hostname`. -/
def hostname (canonicalUrl : String) : Except String String :=
  match crates.parseUrl canonicalUrl with
  | none => .error "Invalid URL"
  | some url => .ok (url.host.getD "")

end Urls

structure BrowserTab where
  id : Option Int
  url : Option String
  incognito : Option Bool
deriving DecidableEq

inductive MappingState where
  | active
  | inactive
  | pausePending
deriving DecidableEq

structure BrowserResourceMapping where
  resourceId : String
  scopeId : String
  canonicalUrlHash : String
  originPattern : String
  label : String
  schemaVersion : String
  state : Option MappingState
deriving DecidableEq

def browserMappingSchemaVersion : String := "dev.fubun.browser-mapping/1"

/-- A lower-case hexadecimal digest of 32 bytes. -/
def isHash (text : String) : Bool :=
  text.length == 64 && text.toList.all fun c => isHexDigit c && (c.toNat < 0x41 || 0x46 < c.toNat)

namespace BrowserResourceMapping

def isActive (mapping : BrowserResourceMapping) : Bool :=
  mapping.state == none || mapping.state == some .active

def inactivated (mapping : BrowserResourceMapping) (state : MappingState) : BrowserResourceMapping :=
  { mapping with state := some state }

/-- `isMapping`, and `isStoredMapping` of the store: what a mapping is read back by. -/
def isMapping (mapping : BrowserResourceMapping) : Bool :=
  mapping.schemaVersion == browserMappingSchemaVersion && isUuid mapping.resourceId && isUuid mapping.scopeId &&
    isHash mapping.canonicalUrlHash

end BrowserResourceMapping

/-! ## Answers of the native host -/

def objectRecord (value : Option Json) (allowed : List String) : Except String Json :=
  match value with
  | some (.object fields) => do
    rejectUnknownKeys fields allowed
    .ok (.object fields)
  | _ => .error "invalid browser payload"

def isBool : Option Json → Bool
  | some (.bool _) => true
  | _ => false

def text? : Option Json → Option String
  | some (.string s) => some s
  | _ => none

structure EnabledPayload where
  resourceId : String
  scopeId : String
  canonicalUrlHash : String
  originPattern : String
  label : String

def parseEnabledPayload (value : Json) : Except String EnabledPayload := do
  let payload ← objectRecord (some value) ["resource", "scope", "canonical_url_hash", "origin_pattern"]
  let resource ← objectRecord (payload.field? "resource") ["id", "kind", "label", "locator", "canonical_locator",
    "sensitivity", "scope", "created_at", "updated_at"]
  let scope ← objectRecord (payload.field? "scope") ["id", "source", "resource_id", "status", "created_at", "updated_at"]
  match uuidText? (resource.field? "id"), text? (resource.field? "label"), uuidText? (scope.field? "id"),
      text? (payload.field? "canonical_url_hash"), text? (payload.field? "origin_pattern") with
  | some resourceId, some label, some scopeId, some canonicalUrlHash, some originPattern =>
    if isText (resource.field? "kind") "web.page" && isText (scope.field? "source") "browser.chromium" &&
        isText (scope.field? "status") "active" && isText (scope.field? "resource_id") resourceId then
      .ok ⟨resourceId, scopeId, canonicalUrlHash, originPattern, label⟩
    else .error "invalid browser observation response"
  | _, _, _, _, _ => .error "invalid browser observation response"

def parsePausedPayload (value : Json) (expectedScopeId : String) : Except String Unit := do
  let scope ← objectRecord (some value) ["id", "source", "resource_id", "status", "created_at", "updated_at"]
  if uuidText? (scope.field? "id") == some expectedScopeId && isText (scope.field? "source") "browser.chromium" &&
      isText (scope.field? "status") "paused" && (uuidText? (scope.field? "resource_id")).isSome then .ok ()
  else .error "invalid browser pause response"

def parseEventAck (value : Json) : Except String Unit := do
  let ack ← objectRecord (some value) ["event_id", "stored", "duplicate"]
  if (uuidText? (ack.field? "event_id")).isSome && isBool (ack.field? "stored") && isBool (ack.field? "duplicate") then
    .ok ()
  else .error "invalid browser event acknowledgement"

/-- What the payload factory of `onNavigation` makes for a resource as the extension knows it. -/
def preparedEvent (now : Int) (sequenceNo : Nat) (resourceId : String) : Option Json :=
  (toISOString now).map fun occurredAt =>
    .object [("sequence_no", .number sequenceNo), ("occurred_at", .string occurredAt),
      ("resource_id", .string resourceId)]

/-! ## Operations -/

/-- What a call waits for, or does at once with what all calls share. -/
inductive BrowserOp where
  | activeTab
  | permissionGranted (origin : String)
  | read
  | write (mappings : List BrowserResourceMapping)
  | ensureConnected
  | post (type : String) (payload : Json)
  | response (expectedType : String)
  | reconnect
  /-- The check for a duplicate, and a place on the event chain. -/
  | enqueue (key : String)
  /-- The events before a place on the chain are settled. -/
  | turn (place : Nat)
  /-- A `browser.event.emit` with the next sequence number, posted at once. -/
  | emit (now : Int) (resourceId : String)
  | settle

abbrev BrowserOp.Res : BrowserOp → Type
  | .activeTab => Option BrowserTab
  | .permissionGranted _ | .ensureConnected | .post .. | .reconnect => Bool
  | .read => List BrowserResourceMapping
  | .write _ | .turn _ | .settle => Unit
  | .response _ => Option Json
  | .enqueue _ => Option (Int × Nat)
  | .emit .. => Option Json

structure BrowserWorld where
  store : List BrowserResourceMapping
  dedup : String → Option Int
  nextSequence : Nat
  queued : Nat
  settled : Nat
  now : Int

/-- What the browser, the native host and the core answer. -/
structure BrowserChoice where
  tab : Option BrowserTab
  granted : Bool
  connected : Bool
  posted : Bool
  reply : Option Json

inductive BrowserDrift where
  | clock (now : Int)
  /-- `extensionHello`: a new instance, whose events are numbered from 1. -/
  | hello

namespace BrowserWorld

def enqueue (w : BrowserWorld) (key : String) : Option (Int × Nat) × BrowserWorld :=
  if (w.dedup key).any fun previous => w.now < previous + 5000 then (none, w)
  else (some (w.now, w.queued),
    { w with dedup := Function.update w.dedup key (some w.now), queued := w.queued + 1 })

def act (_ : Nat) (o : BrowserOp) (ch : BrowserChoice) (w : BrowserWorld) : Option (o.Res × BrowserWorld) :=
  match o with
  | .activeTab => some (ch.tab, w)
  | .permissionGranted _ => some (ch.granted, w)
  | .read => some (w.store, w)
  | .write mappings => some ((), { w with store := mappings })
  | .ensureConnected => some (ch.connected, w)
  | .post .. => some (ch.posted, w)
  | .response _ => some (ch.reply, w)
  | .reconnect => some (ch.connected, w)
  | .enqueue key => some (w.enqueue key)
  | .turn place => if w.settled = place then some ((), w) else none
  | .emit now resourceId =>
    some (if ch.posted then preparedEvent now w.nextSequence resourceId else none,
      { w with nextSequence := w.nextSequence + 1 })
  | .settle => some ((), { w with settled := w.settled + 1 })

def drift : BrowserDrift → BrowserWorld → BrowserWorld
  | .clock now, w => { w with now := now }
  | .hello, w => { w with nextSequence := 1 }

/-- A worker that starts again has its storage and nothing else. -/
def restart (_ : BrowserChoice) (w : BrowserWorld) : BrowserWorld :=
  { w with dedup := fun _ => none, nextSequence := 1, queued := 0, settled := 0 }

def start (now : Int) : BrowserWorld := ⟨[], fun _ => none, 1, 0, 0, now⟩

end BrowserWorld

/-! ## Calls -/

abbrev Browser (α : Type) := Program BrowserOp BrowserOp.Res α

abbrev browser (o : BrowserOp) : Browser o.Res := .perform o

def mappings : Browser (List BrowserResourceMapping) := do
  return (← browser .read).filter (·.isMapping)

def nativeReconnect : Browser (Except String Unit) := do
  if ← browser .reconnect then return .ok () else return .error "native host is unavailable"

/-- `request` of the bridge. -/
def nativeRequest (type : String) (payload : Json) (expectedType : String) : Browser (Except String Json) := do
  if ← browser .ensureConnected then
    if ← browser (.post type payload) then
      match ← browser (.response expectedType) with
      | some payload => return .ok payload
      | none => return .error "native host rejected request"
    else return .error "native host write failed"
  else return .error "native host is unavailable"

def pauseCore (scopeId : String) : Browser (Except String Unit) := do
  match ← nativeRequest "browser.observation.pause" (.object [("scope_id", .string scopeId)])
      "browser.observation.paused" with
  | .error error => return .error error
  | .ok response => return parsePausedPayload response scopeId

def observed (mapping : BrowserResourceMapping) (current : List BrowserResourceMapping) : List BrowserResourceMapping :=
  current.filter (fun candidate => candidate.resourceId != mapping.resourceId) ++ [mapping]

def pausePending (affected current : List BrowserResourceMapping) : List BrowserResourceMapping :=
  current.map fun mapping =>
    if affected.any (·.resourceId == mapping.resourceId) then mapping.inactivated .pausePending else mapping

def forgotten (completed : List String) (current : List BrowserResourceMapping) : List BrowserResourceMapping :=
  current.filter fun mapping => ! completed.contains mapping.resourceId

section Calls
variable (crates : Crates)

def currentCanonical (requestedCanonical : Option String) : Browser (Except String String) := do
  match requestedCanonical with
  | some requested => return canonicalizeWebUrl crates requested
  | none =>
    match ← browser .activeTab with
    | none => return .error "unsupported page"
    | some tab =>
      if tab.incognito = some true then return .error "unsupported page"
      else
        match tab.url with
        | none => return .error "unsupported page"
        | some url => return canonicalizeWebUrl crates url

def observedMapping (canonical pattern : String) (response : Json) : Except String BrowserResourceMapping := do
  let enabled ← parseEnabledPayload response
  if enabled.canonicalUrlHash ≠ canonicalUrlHash crates canonical ∨ enabled.originPattern ≠ pattern then
    .error "core returned an inconsistent browser resource"
  else
    .ok ⟨enabled.resourceId, enabled.scopeId, canonicalUrlHash crates canonical, pattern, enabled.label,
      browserMappingSchemaVersion, some .active⟩

def observePage (canonical pattern label : String) : Browser (Except String Unit) := do
  if ! (← browser (.permissionGranted pattern)) then return .error "permission denied"
  else
    match ← nativeRequest "browser.observation.enable" (.object [("label", .string label), ("url", .string canonical)])
        "browser.observation.enabled" with
    | .error error => return .error error
    | .ok response =>
      match observedMapping crates canonical pattern response with
      | .error error => return .error error
      | .ok mapping =>
        if ! (← browser (.permissionGranted pattern)) then return .error "permission was revoked"
        else
          let current ← mappings
          browser (.write (observed mapping current))
          nativeReconnect

def observeCurrentPage (requestedCanonical : Option String) : Browser (Except String Unit) := do
  match ← currentCanonical crates requestedCanonical with
  | .error error => return .error error
  | .ok canonical =>
    match originPattern crates canonical, hostname crates canonical with
    | .ok pattern, .ok label => observePage crates canonical pattern label
    | .error error, _ | _, .error error => return .error error

def isPage (canonical : String) (mapping : BrowserResourceMapping) : Bool :=
  mapping.canonicalUrlHash == canonicalUrlHash crates canonical && mapping.isActive

def stopCurrentPage : Browser (Except String Unit) := do
  match ← currentCanonical crates none with
  | .error error => return .error error
  | .ok canonical =>
    let current ← mappings
    match current.find? (isPage crates canonical) with
    | none => return .ok ()
    | some mapping =>
      browser (.write (current.map fun candidate =>
        if candidate.resourceId = mapping.resourceId then mapping.inactivated .pausePending else candidate))
      match ← pauseCore mapping.scopeId with
      | .error _ => return .error "observation is locally paused but Core pause is pending"
      | .ok () =>
        let current ← mappings
        browser (.write (forgotten [mapping.resourceId] current))
        nativeReconnect

end Calls

/-- The pauses of `syncPausedScopes`; the resources whose pause the core has confirmed. -/
def pauseScopes : List BrowserResourceMapping → Browser (List String)
  | [] => return []
  | mapping :: affected => do
    match ← pauseCore mapping.scopeId with
    | .ok () => return mapping.resourceId :: (← pauseScopes affected)
    | .error _ => pauseScopes affected

def syncPausedScopes (affected : List BrowserResourceMapping) : Browser Unit := do
  let completed ← pauseScopes affected
  if completed.isEmpty then return ()
  else
    let current ← mappings
    browser (.write (forgotten completed current))

def onPermissionsRemoved (origins : List String) : Browser (Except String Unit) := do
  let current ← mappings
  let affected := current.filter fun mapping => mapping.isActive && origins.contains mapping.originPattern
  if affected.isEmpty then return .ok ()
  else
    browser (.write (pausePending affected current))
    syncPausedScopes affected
    nativeReconnect

/-- The mappings that `reconcilePermissions` collects. -/
def unreconciled : List BrowserResourceMapping → Browser (List BrowserResourceMapping)
  | [] => return []
  | mapping :: current => do
    if mapping.state = some .pausePending then return mapping :: (← unreconciled current)
    else if mapping.isActive then
      if ← browser (.permissionGranted mapping.originPattern) then unreconciled current
      else return mapping :: (← unreconciled current)
    else unreconciled current

def reconcilePermissions : Browser (Except String Unit) := do
  let current ← mappings
  let affected ← unreconciled current
  if affected.isEmpty then return .ok ()
  else
    browser (.write (pausePending affected current))
    syncPausedScopes affected
    let _ ← nativeReconnect
    return .ok ()

def startIntegration : Browser (Except String Unit) := do
  let _ ← reconcilePermissions
  if ← browser .ensureConnected then return .ok () else return .error "native host is unavailable"

/-- The event of `onNavigation`, once it is its turn. -/
def emitEvent (now : Int) (resourceId : String) : Browser (Except String Unit) := do
  if ← browser .ensureConnected then
    match ← browser (.emit now resourceId) with
    | none => return .error "native host write failed"
    | some _ =>
      match ← browser (.response "browser.event.ack") with
      | some payload => return parseEventAck payload
      | none => return .error "native host rejected request"
  else return .error "native host is unavailable"

def queueEvent (key resourceId : String) : Browser (Except String Unit) := do
  match ← browser (.enqueue key) with
  | none => return .ok ()
  | some (now, place) =>
    browser (.turn place)
    let result ← emitEvent now resourceId
    browser .settle
    return result

def onNavigation (crates : Crates) (tab : BrowserTab) : Browser (Except String Unit) := do
  match tab.id, tab.url with
  | some id, some url =>
    if tab.incognito = some true then return .ok ()
    else
      match canonicalizeWebUrl crates url with
      | .error _ => return .ok ()
      | .ok canonical =>
        match (← mappings).find? (isPage crates canonical) with
        | none => return .ok ()
        | some mapping =>
          if ← browser (.permissionGranted mapping.originPattern) then
            queueEvent (toString id ++ ":" ++ mapping.resourceId) mapping.resourceId
          else onPermissionsRemoved [mapping.originPattern]
  | _, _ => return .ok ()

/-! ## The extension -/

inductive BrowserRequest where
  | start
  | observe (requestedCanonical : Option String)
  | stop
  | permissionsRemoved (origins : List String)
  | reconcile
  | navigation (tab : BrowserTab)
deriving DecidableEq

def handleBrowserRequest (crates : Crates) : BrowserRequest → Browser (Except String Unit)
  | .start => startIntegration
  | .observe requestedCanonical => observeCurrentPage crates requestedCanonical
  | .stop => stopCurrentPage crates
  | .permissionsRemoved origins => onPermissionsRemoved origins
  | .reconcile => reconcilePermissions
  | .navigation tab => onNavigation crates tab

/-- The extension: its calls over one storage, each with a number of its own. -/
def extension (crates : Crates) :
    System Nat BrowserOp BrowserOp.Res BrowserWorld BrowserRequest (Except String Unit) BrowserChoice BrowserDrift where
  handler := handleBrowserRequest crates
  admits _ _ _ := true
  act := BrowserWorld.act
  drift := BrowserWorld.drift
  restart := BrowserWorld.restart

abbrev BrowserState := Config Nat BrowserOp BrowserOp.Res BrowserWorld BrowserRequest (Except String Unit)

abbrev BrowserLog := List (Label Nat BrowserOp.Res BrowserRequest (Except String Unit))

end Fubun.Extensions

import Fubun.Core.Execution
import Fubun.Core.Observation

/-! The daemon: what it does with each frame of a connection, and the system of
all its connections over one world. -/

namespace Fubun
open Relational Concurrency Program

def statusResponse (id : Uuid) : Core ResponseEnvelope := do
  match ← storage .schemaVersion with
  | .ok schemaVersion => return .ok id (.status ⟨"ok", currentProtocolVersion, "ok", schemaVersion⟩)
  | .error error => return storageError id error

/-- `list_observation_scopes(..).unwrap_or_default()`. -/
def scopesOrNone (source : Option ObservationSource) : Core (List ObservationScope) := do
  match ← storage (.listObservationScopes source) with
  | .ok scopes => return scopes
  | .error _ => return []

def doctorResponse (id : Uuid) : Core ResponseEnvelope := do
  let schemaVersion ← storage .schemaVersion
  let counts ← storage .counts
  match schemaVersion, counts with
  | .ok schemaVersion, .ok counts =>
    let path ← await .databasePath
    let gtkLaunch ← await (.toolAvailable "gtk-launch")
    let xdgOpen ← await (.toolAvailable "xdg-open")
    let notifySend ← await (.toolAvailable "notify-send")
    let connected ← await .connectedCount
    let browserAdapters ← await (.connectedCountById "dev.fubun.browser.chromium")
    let vscodeAdapters ← await (.connectedCountById "dev.fubun.vscode")
    let browserScopes ← scopesOrNone (some .browserChromium)
    let vscodeScopes ← scopesOrNone (some .vscodeWorkspace)
    return .ok id (.doctor
      { databasePath := path
        databaseStatus := "ok"
        schemaVersion := schemaVersion
        gtkLaunchAvailable := gtkLaunch
        xdgOpenAvailable := xdgOpen
        notifySendAvailable := notifySend
        connectedAdapters := connected
        actionRegistryVersion := "phase2-fixed-v1"
        ritualSchemaVersion := ritualSchemaVersion
        runningExecutions := counts.running
        draftRituals := counts.draft
        activeRituals := counts.active
        browserAdapters := browserAdapters
        vscodeAdapters := vscodeAdapters
        activeBrowserScopes := browserScopes.countP (·.status == .active)
        activeVscodeScopes := vscodeScopes.countP (·.status == .active) })
  | _, _ => return .error id "storage_error" "database check failed"

def integrationsResponse (id : Uuid) : Core ResponseEnvelope := do
  let reports ← await .reports
  let scopes ← scopesOrNone none
  let databaseVersion ← storage .schemaVersion
  return .ok id (.integrationsStatus
    { coreConnected := true
      linuxAdapters := reports.countP (·.adapterId == "dev.fubun.linux")
      browserAdapters := reports.countP (·.adapterId == "dev.fubun.browser.chromium")
      vscodeAdapters := reports.countP (·.adapterId == "dev.fubun.vscode")
      nativeHostManifest := "unknown"
      permittedBrowserResources :=
        ((reports.filter (·.adapterId == "dev.fubun.browser.chromium")).map
          (·.permittedResourceIds.length)).sum
      activeBrowserScopes := scopes.countP fun scope =>
        scope.source == .browserChromium && scope.status == .active
      activeVscodeScopes := scopes.countP fun scope =>
        scope.source == .vscodeWorkspace && scope.status == .active
      protocolVersion := currentProtocolVersion
      databaseVersion := databaseVersion.toOption.getD 0 })

/-- A read whose only error is the storage layer's. -/
def readResponse (operation : Operation) (id : Uuid) (payload : operation.Reply → ResponsePayload) :
    Core ResponseEnvelope := do
  match ← storage operation with
  | .ok reply => return .ok id (payload reply)
  | .error error => return storageError id error

/-- A read of one record, with the answer for a record that is not there. -/
def showResponse (operation : Operation) (id : Uuid) (code message : String)
    (payload : operation.Reply → ResponsePayload) : Core ResponseEnvelope := do
  match ← storage operation with
  | .ok reply => return .ok id (payload reply)
  | .error .notFound => return .error id code message
  | .error error => return storageError id error

section Requests
variable (crates : Crates)

/-- The requests of `process_request`, once the versions agree. -/
def processBody (id : Uuid) (body : RequestBody) : Core ResponseEnvelope := do
  match body with
  | .clientHello _ | .adapterHello _ =>
    return .error id "already_initialized" "handshake is only valid as the first request"
  | .eventIngest event => ingestResponse id event
  | .browserObservationEnable label url => browserObservationEnableResponse crates id label url
  | .vscodeObservationEnable label path => vscodeObservationEnableResponse crates id label path
  | .observationPause scopeId => observationPauseResponse id scopeId
  | .observationsList source =>
    readResponse (.listObservationScopes source) id .observationList
  | .eventsList since limit => readResponse (.listEvents since limit) id .eventList
  | .systemStatus => statusResponse id
  | .systemDoctor => doctorResponse id
  | .resourceCreate label path sensitivity => resourceCreateResponse crates id label path sensitivity
  | .resourceList => readResponse .listResources id .resourceList
  | .resourceShow resourceId =>
    showResponse (.getResource resourceId) id "resource_not_found"
      "resource was not found" .resourceShow
  | .ritualCreate definition => ritualCreateResponse crates id definition
  | .ritualUpdate ritualId definition => ritualUpdateResponse crates id ritualId definition
  | .ritualList => readResponse .listRituals id .ritualList
  | .ritualShow ritualId => ritualShowResponse id ritualId
  | .ritualPreview ritualId => ritualPreviewResponse crates id ritualId
  | .ritualActivate ritualId approve => ritualActivateResponse crates id ritualId approve
  | .ritualPause ritualId => ritualPauseResponse id ritualId
  | .ritualRun ritualId => ritualRunResponse crates id ritualId
  | .adapterList | .adapterStatus => return .ok id (.adapterList (← await .reports))
  | .executionList => readResponse .listExecutions id .executionList
  | .executionShow executionId =>
    showResponse (.getExecution executionId) id "execution_not_found"
      "execution was not found" fun reply => .executionShow reply.1 reply.2
  | .integrationsStatus => integrationsResponse id

def processRequest (request : RequestEnvelope) : Core ResponseEnvelope := do
  if request.protocolVersion.major ≠ currentProtocolVersion.major then
    return .error request.requestId "protocol_major_mismatch"
      "client and daemon protocol major versions differ"
  else processBody crates request.requestId request.body

/-! ## Connections -/

/-- What a connection reads, with what its task knows of it: an adapter's task keeps the hello
and the token of its registration. -/
inductive Frame where
  | first (request : RequestEnvelope)
  | request (request : RequestEnvelope)
  | adapter (hello : AdapterHello) (token : Uuid) (response : AdapterResponseEnvelope)
  | hangup (hello : AdapterHello) (token : Uuid)
deriving DecidableEq

/-- What the daemon writes for a frame. -/
inductive Reply where
  | response (response : ResponseEnvelope)
  | eventAck (requestId : Uuid) (ack : EventAck)
  | silent
deriving DecidableEq

def helloAck : ClientHelloAck := ⟨"fubund", "0.1.0", currentProtocolVersion⟩

/-- The handshake of `handle_connection`. -/
def handleFirst (first : RequestEnvelope) : Core ResponseEnvelope := do
  let id := first.requestId
  if first.protocolVersion.major ≠ currentProtocolVersion.major then
    return .error id "protocol_major_mismatch" "client and daemon protocol major versions differ"
  else
    match first.body with
    | .adapterHello hello =>
      match validateHello hello with
      | .error error => return .error id "protocol_error" error.message
      | .ok () =>
        match ← await (.register hello) with
        | .error error => return .error id "protocol_error" error.message
        | .ok _ => return .ok id (.adapterHelloAck helloAck)
    | .clientHello hello =>
      if hello.protocolVersion.major ≠ currentProtocolVersion.major then
        return .error id "protocol_major_mismatch"
          "client hello and daemon protocol major versions differ"
      else
        let _ ← await .acceptClient
        return .ok id (.clientHelloAck helloAck)
    | _ =>
      return .error id "handshake_required" "client.hello or adapter.hello must be the first request"

/-- One frame of an adapter's loop. A response to an action is part of the dispatch that waits
for it, so only an emission is work of its own. -/
def handleAdapterFrame (hello : AdapterHello) (response : AdapterResponseEnvelope) : Core Reply := do
  if response.protocolVersion.major ≠ currentProtocolVersion.major then return .silent
  else
    match response.body with
    | .eventEmit payload => return .eventAck response.requestId (← ingestAdapterEvent hello payload)
    | _ => return .silent

def handleFrame : Frame → Core Reply
  | .first request => return .response (← handleFirst request)
  | .request request => return .response (← processRequest crates request)
  | .adapter hello _ response => handleAdapterFrame hello response
  | .hangup hello token => do
    let _ ← await (.disconnectIfCurrent hello.instanceId token)
    return .silent

end Requests

/-- A connection's frames are those of its session, while the daemon serves. -/
def admits (w : World) (i : Nat) (frame : Frame) : Bool :=
  w.up && match w.sessions i, frame with
    | .fresh, .first _ => true
    | .client, .request _ => true
    | .adapter hello token, .adapter hello' token' _ => hello == hello' && token == token'
    | .adapter hello token, .hangup hello' token' => hello == hello' && token == token'
    | _, _ => false

def daemon (crates : Crates) : System Nat Op Op.Res World Frame Reply Choice Drift where
  handler := handleFrame crates
  admits := admits
  act := World.act crates
  drift := World.drift
  restart := World.restart crates

abbrev State := Config Nat Op Op.Res World Frame Reply

abbrev Log := List (Label Nat Op.Res Frame Reply)
end Fubun

import Fubun.Policy

/-! The envelopes of the IPC protocol. -/

namespace Fubun

structure ProtocolVersion where
  major : Nat
  minor : Nat
deriving DecidableEq, Repr

def currentProtocolVersion : ProtocolVersion := ⟨1, 0⟩

structure ClientHello where
  clientName : String
  clientVersion : String
  protocolVersion : ProtocolVersion
deriving DecidableEq, Repr

structure ClientHelloAck where
  serverName : String
  serverVersion : String
  protocolVersion : ProtocolVersion
deriving DecidableEq, Repr

/-! ## Adapter frames -/

structure AdapterToolStatus where
  name : String
  available : Bool
deriving DecidableEq, Repr

structure AdapterStatusSnapshot where
  tools : List AdapterToolStatus
  desktopEntryIds : List String
  permittedResourceIds : List Uuid
deriving DecidableEq, Repr

structure AdapterHello where
  adapterId : String
  adapterVersion : String
  instanceId : Uuid
  actionCapabilities : List String
  eventCapabilities : List String
  status : AdapterStatusSnapshot
deriving DecidableEq, Repr

structure AdapterEventEmitRequest where
  sequenceNo : Nat
  occurredAt : OffsetDateTime
  eventType : EventType
  resourceId : Uuid
deriving DecidableEq, Repr

structure ResolvedResource where
  resourceId : Uuid
  kind : ResourceKind
  canonicalLocator : String
deriving DecidableEq, Repr

inductive AdapterActionStatus where
  | succeeded
  | skipped
  | failed
deriving DecidableEq, Repr

structure ActionResult where
  status : AdapterActionStatus
  resultCode : String
  redactedMessage : String
deriving DecidableEq, Repr

inductive AdapterResponseBody where
  | actionResult (result : ActionResult)
  | status (snapshot : AdapterStatusSnapshot)
  | eventEmit (event : AdapterEventEmitRequest)
deriving DecidableEq, Repr

structure AdapterResponseEnvelope where
  protocolVersion : ProtocolVersion
  requestId : Uuid
  actionExecutionId : Uuid
  body : AdapterResponseBody
deriving DecidableEq, Repr

/-- `event.ack`, as an event ingestion answers it. -/
structure EventAck where
  eventId : Uuid
  stored : Bool
  duplicate : Bool
deriving DecidableEq, Repr

/-! ## Client requests -/

inductive RequestBody where
  | clientHello (hello : ClientHello)
  | eventIngest (event : Event)
  | browserObservationEnable (label url : String)
  | vscodeObservationEnable (label absolutePath : String)
  | observationPause (scopeId : Uuid)
  | observationsList (source : Option ObservationSource)
  | eventsList (since : Option OffsetDateTime) (limit : Nat)
  | systemStatus
  | systemDoctor
  | adapterHello (hello : AdapterHello)
  | resourceCreate (label path : String) (sensitivity : Sensitivity)
  | resourceList
  | resourceShow (resourceId : Uuid)
  | ritualCreate (definition : RitualDefinition)
  | ritualUpdate (ritualId : Uuid) (definition : RitualDefinition)
  | ritualList
  | ritualShow (ritualId : Uuid)
  | ritualPreview (ritualId : Uuid)
  | ritualActivate (ritualId : Uuid) (approve : Bool)
  | ritualPause (ritualId : Uuid)
  | ritualRun (ritualId : Uuid)
  | adapterList
  | adapterStatus
  | executionList
  | executionShow (executionId : Uuid)
  | integrationsStatus
deriving DecidableEq, Repr

structure RequestEnvelope where
  protocolVersion : ProtocolVersion
  requestId : Uuid
  body : RequestBody
deriving DecidableEq, Repr

/-! ## Responses -/

structure StatusReport where
  daemon : String
  protocolVersion : ProtocolVersion
  databaseStatus : String
  schemaVersion : Nat
deriving DecidableEq, Repr

structure DoctorReport where
  databasePath : String
  databaseStatus : String
  schemaVersion : Nat
  gtkLaunchAvailable : Bool
  xdgOpenAvailable : Bool
  notifySendAvailable : Bool
  connectedAdapters : Nat
  actionRegistryVersion : String
  ritualSchemaVersion : String
  runningExecutions : Nat
  draftRituals : Nat
  activeRituals : Nat
  browserAdapters : Nat
  vscodeAdapters : Nat
  activeBrowserScopes : Nat
  activeVscodeScopes : Nat
deriving DecidableEq, Repr

structure IntegrationReport where
  coreConnected : Bool
  linuxAdapters : Nat
  browserAdapters : Nat
  vscodeAdapters : Nat
  nativeHostManifest : String
  permittedBrowserResources : Nat
  activeBrowserScopes : Nat
  activeVscodeScopes : Nat
  protocolVersion : ProtocolVersion
  databaseVersion : Nat
deriving DecidableEq, Repr

structure PreviewAction where
  stepIndex : Nat
  actionType : String
  riskLevel : String
  idempotency : String
  revertability : String
  requiredCapability : String
  adapterConnected : Bool
  requiredToolAvailable : Option Bool
  resourceExists : Option Bool
  resourcePathMatches : Option Bool
  resourceKindMatches : Option Bool
  desktopEntryExists : Option Bool
  warning : Option String
deriving DecidableEq, Repr

structure RitualPreview where
  ritualId : Uuid
  ritualVersionId : Uuid
  actions : List PreviewAction
  timeoutSeconds : Nat
  warnings : List String
  executable : Bool
deriving DecidableEq, Repr

structure AdapterReport where
  adapterId : String
  version : String
  instanceId : Uuid
  connected : Bool
  capabilities : List String
  eventCapabilities : List String
  permittedResourceIds : List Uuid
  connectedAt : String
  lastSeenAt : String
deriving DecidableEq, Repr

inductive ResponsePayload where
  | clientHelloAck (ack : ClientHelloAck)
  | eventIngested (eventId : Uuid) (stored duplicate : Bool)
  | eventList (events : List Event)
  | status (report : StatusReport)
  | doctor (report : DoctorReport)
  | adapterHelloAck (ack : ClientHelloAck)
  | resourceCreated (resource : Resource)
  | resourceList (resources : List Resource)
  | resourceShow (resource : Resource)
  | ritualCreated (ritual : Ritual) (version : RitualVersion) (definition : RitualDefinition)
  | ritualUpdated (ritual : Ritual) (version : RitualVersion) (definition : RitualDefinition)
  | ritualList (rituals : List Ritual)
  | ritualShow (ritual : Ritual) (version : RitualVersion) (definition : RitualDefinition)
  | ritualPreview (preview : RitualPreview)
  | ritualActivated (ritual : Ritual)
  | ritualPaused (ritual : Ritual)
  | ritualRun (execution : Execution) (steps : List ExecutionStep)
  | adapterList (adapters : List AdapterReport)
  | executionList (executions : List Execution)
  | executionShow (execution : Execution) (steps : List ExecutionStep)
  | browserObservationEnabled (resource : Resource) (scope : ObservationScope)
      (canonicalUrlHash originPattern : String)
  | vscodeObservationEnabled (resource : Resource) (scope : ObservationScope)
      (canonicalPathHash : String)
  | observationPaused (scope : ObservationScope)
  | observationList (scopes : List ObservationScope)
  | integrationsStatus (report : IntegrationReport)
deriving DecidableEq, Repr

inductive ResponseBody where
  | ok (payload : ResponsePayload)
  | error (code message : String)
deriving DecidableEq, Repr

structure ResponseEnvelope where
  protocolVersion : ProtocolVersion
  requestId : Uuid
  body : ResponseBody
deriving DecidableEq, Repr

namespace ResponseEnvelope

def ok (requestId : Uuid) (payload : ResponsePayload) : ResponseEnvelope :=
  ⟨currentProtocolVersion, requestId, .ok payload⟩

def error (requestId : Uuid) (code message : String) : ResponseEnvelope :=
  ⟨currentProtocolVersion, requestId, .error code message⟩

end ResponseEnvelope
end Fubun

import Fubun.Core.World

/-! Event ingestion: synthetic events from clients, semantic events from adapters. -/

namespace Fubun
open Relational Concurrency Program

/-- `StorageHandle::insert_event` validates before it sends. -/
def storageInsertEvent (event : Event) : Core (Except StorageError Unit) :=
  match event.validate with
  | .error error => return .error (.validation error)
  | .ok () => storage (.insertEvent event)

def storageError (id : Uuid) (error : StorageError) : ResponseEnvelope :=
  match error with
  | .notFound => .error id "internal_error" "requested record was not found"
  | .duplicateResource => .error id "duplicate_resource" "resource already exists"
  | .ritualAlreadyRunning => .error id "ritual_already_running" "ritual is already running"
  | _ => .error id "internal_error" "storage operation failed"

def ingestResponse (id : Uuid) (event : Event) : Core ResponseEnvelope := do
  if event.eventType ≠ .syntheticV1 ∨ event.data.isSynthetic = false then
    return .error id "invalid_event" "client event ingest only accepts dev synthetic events"
  else
    let event := { event with receivedAt := ← await .nowUtc }
    match event.validate with
    | .error error => return .error id "invalid_event" error.message
    | .ok () =>
      match ← storageInsertEvent event with
      | .ok () => return .ok id (.eventIngested event.id true false)
      | .error .duplicateEvent =>
        return .error id "duplicate_event"
          "adapter_instance_id and sequence_no have already been stored"
      | .error error => return storageError id error

/-- What an adapter may emit: the tuple `expected` of `ingest_adapter_event`. -/
structure ExpectedEvent where
  eventType : EventType
  source : String
  observationSource : ObservationSource
  kind : ResourceKind
  capability : String
deriving DecidableEq, Repr

def expectedEvent (adapterId : String) : Option ExpectedEvent :=
  if adapterId = "dev.fubun.browser.chromium" then
    some ⟨.browserResourceOpenedV1, "browser.chromium", .browserChromium, .webPage,
      "dev.fubun.browser.resource.opened.v1"⟩
  else if adapterId = "dev.fubun.vscode" then
    some ⟨.vscodeWorkspaceOpenedV1, "vscode.workspace", .vscodeWorkspace, .directory,
      "dev.fubun.vscode.workspace.opened.v1"⟩
  else none

/-- The payload of a semantic event; synthetic events have none. -/
def EventType.resourceData (eventType : EventType) (resourceId : Uuid) : Option EventData :=
  match eventType with
  | .browserResourceOpenedV1 => some (.browserResourceOpened resourceId)
  | .vscodeWorkspaceOpenedV1 => some (.vscodeWorkspaceOpened resourceId)
  | .syntheticV1 => none

def adapterEvent (eventId : Uuid) (expected : ExpectedEvent) (hello : AdapterHello)
    (payload : AdapterEventEmitRequest) (receivedAt : OffsetDateTime) (data : EventData) : Event where
  specVersion := eventSpecVersion
  id := eventId
  eventType := expected.eventType
  source := expected.source
  occurredAt := payload.occurredAt
  receivedAt := receivedAt
  actor := .user
  adapter := ⟨hello.adapterId, hello.adapterVersion, hello.instanceId, payload.sequenceNo⟩
  context := none
  privacy := .normal
  data := data

/-- What the hello alone decides about an emission. -/
def emissionPermitted (expected : ExpectedEvent) (hello : AdapterHello)
    (payload : AdapterEventEmitRequest) : Bool :=
  payload.eventType == expected.eventType &&
    hello.eventCapabilities.contains expected.capability &&
    (hello.adapterId != "dev.fubun.browser.chromium" ||
      hello.status.permittedResourceIds.contains payload.resourceId)

def observes (scopes : List ObservationScope) (resourceId : Uuid) : Bool :=
  scopes.any fun scope => scope.resourceId == resourceId && scope.status == .active

def ingestAdapterEvent (hello : AdapterHello) (payload : AdapterEventEmitRequest) : Core EventAck := do
  let eventId ← await .newUuid
  match expectedEvent hello.adapterId with
  | none => return ⟨eventId, false, false⟩
  | some expected =>
    if ! emissionPermitted expected hello payload then return ⟨eventId, false, false⟩
    else
      match ← storage (.getResource payload.resourceId) with
      | .error _ => return ⟨eventId, false, false⟩
      | .ok resource =>
        if resource.kind ≠ expected.kind then return ⟨eventId, false, false⟩
        else
          match ← storage (.listObservationScopes (some expected.observationSource)) with
          | .error _ => return ⟨eventId, false, false⟩
          | .ok scopes =>
            if ! observes scopes payload.resourceId then return ⟨eventId, false, false⟩
            else
              let receivedAt ← await .nowUtc
              match expected.eventType.resourceData payload.resourceId with
              | none => return ⟨eventId, false, false⟩
              | some data =>
                match ← storageInsertEvent (adapterEvent eventId expected hello payload receivedAt data) with
                | .ok () => return ⟨eventId, true, false⟩
                | .error .duplicateEvent => return ⟨eventId, false, true⟩
                | .error _ => return ⟨eventId, false, false⟩

end Fubun

import Fubun.Encoding.Json
import Fubun.Protocol

/-! The JSON that the protocol's values are serialized to, field by field in the order the
structures declare them, and the frames it is sent in. -/

namespace Fubun
open Encoding

def hexDigits : Nat → Nat → List Char
  | 0, _ => []
  | w + 1, n => hexDigits w (n / 16) ++ [hexDigit n]

def Uuid.text (id : Uuid) : String :=
  .ofList (hexDigits 8 (id / 16 ^ 24) ++ '-' :: hexDigits 4 (id / 16 ^ 20) ++ '-' :: hexDigits 4 (id / 16 ^ 16) ++
    '-' :: hexDigits 4 (id / 16 ^ 12) ++ '-' :: hexDigits 12 id)

def Uuid.toJson (id : Uuid) : Json := .string id.text

/-! ## Names -/

def Actor.name : Actor → String
  | .user => "user"
  | .fubun => "fubun"
  | .system => "system"
  | .imported => "imported"

def PrivacyClass.name : PrivacyClass → String
  | .normal => "normal"
  | .sensitive => "sensitive"

def EventType.name : EventType → String
  | .syntheticV1 => "dev.fubun.dev.synthetic.v1"
  | .browserResourceOpenedV1 => browserResourceOpenedEventType
  | .vscodeWorkspaceOpenedV1 => vscodeWorkspaceOpenedEventType

def ResourceKind.name : ResourceKind → String
  | .file => "filesystem.file"
  | .directory => "filesystem.directory"
  | .webPage => "web.page"

def Sensitivity.name : Sensitivity → String
  | .normal => "normal"
  | .sensitive => "sensitive"

def ResourceScope.name : ResourceScope → String
  | .exact => "exact"

def ObservationSource.name : ObservationSource → String
  | .browserChromium => "browser.chromium"
  | .vscodeWorkspace => "vscode.workspace"

def ObservationStatus.name : ObservationStatus → String
  | .active => "active"
  | .paused => "paused"

/-! ## Values -/

/-- An optional field that is left out when it is `None`. -/
def optionalField (key : String) (value : Option String) : List (String × Json) :=
  value.toList.map fun text => (key, .string text)

def ProtocolVersion.toJson (version : ProtocolVersion) : Json :=
  .object [("major", .number version.major), ("minor", .number version.minor)]

def AdapterIdentity.toJson (adapter : AdapterIdentity) : Json :=
  .object [("id", .string adapter.id), ("version", .string adapter.version),
    ("instance_id", adapter.instanceId.toJson), ("sequence_no", .number adapter.sequenceNo)]

def ContextReference.toJson (context : ContextReference) : Json :=
  .object (optionalField "project" context.project ++ optionalField "session" context.session)

def EventData.toJson : EventData → Json
  | .synthetic label counter =>
    .object [("kind", .string "synthetic"), ("label", .string label), ("counter", .number counter)]
  | .browserResourceOpened resourceId =>
    .object [("kind", .string "browser.resource.opened"), ("resource_id", resourceId.toJson)]
  | .vscodeWorkspaceOpened resourceId =>
    .object [("kind", .string "vscode.workspace.opened"), ("resource_id", resourceId.toJson)]

section Timestamps
variable (crates : Crates)

def timestampJson (t : OffsetDateTime) : Json := .string (crates.formatRfc3339 t)

def Event.toJson (event : Event) : Json :=
  .object ([("spec_version", .string event.specVersion), ("id", event.id.toJson),
    ("type", .string event.eventType.name), ("source", .string event.source),
    ("occurred_at", timestampJson crates event.occurredAt),
    ("received_at", timestampJson crates event.receivedAt), ("actor", .string event.actor.name),
    ("adapter", event.adapter.toJson)] ++
    event.context.toList.map (fun context => ("context", context.toJson)) ++
    [("privacy", .string event.privacy.name), ("data", event.data.toJson)])

def Resource.toJson (resource : Resource) : Json :=
  .object [("id", resource.id.toJson), ("kind", .string resource.kind.name), ("label", .string resource.label),
    ("locator", .string resource.locator), ("canonical_locator", .string resource.canonicalLocator),
    ("sensitivity", .string resource.sensitivity.name), ("scope", .string resource.scope.name),
    ("created_at", timestampJson crates resource.createdAt),
    ("updated_at", timestampJson crates resource.updatedAt)]

def ObservationScope.toJson (scope : ObservationScope) : Json :=
  .object [("id", scope.id.toJson), ("source", .string scope.source.name),
    ("resource_id", scope.resourceId.toJson), ("status", .string scope.status.name),
    ("created_at", timestampJson crates scope.createdAt), ("updated_at", timestampJson crates scope.updatedAt)]

def AdapterEventEmitRequest.toJson (payload : AdapterEventEmitRequest) : Json :=
  .object [("sequence_no", .number payload.sequenceNo), ("occurred_at", timestampJson crates payload.occurredAt),
    ("type", .string payload.eventType.name), ("resource_id", payload.resourceId.toJson)]

/-! ## Envelopes -/

def requestJson (requestId : Uuid) (method : String) (params : Json) : Json :=
  .object [("protocol_version", currentProtocolVersion.toJson), ("request_id", requestId.toJson),
    ("body", .object [("method", .string method), ("params", params)])]

/-- `ResponseEnvelope::ok` with the kind and the data of its payload. -/
def okResponseJson (requestId : Uuid) (kind : String) (data : Json) : Json :=
  .object [("protocol_version", currentProtocolVersion.toJson), ("request_id", requestId.toJson),
    ("body", .object [("status", .string "ok"),
      ("payload", .object [("kind", .string kind), ("data", data)])])]

def eventIngestJson (requestId : Uuid) (event : Event) : Json :=
  requestJson requestId "event.ingest" (.object [("event", event.toJson crates)])

def eventListJson (requestId : Uuid) (events : List Event) : Json :=
  okResponseJson requestId "events.list" (.object [("events", .array (events.map (Event.toJson crates)))])

end Timestamps

/-! ## Frames -/

def maxMessageSize : Nat := 256 * 1024

inductive FrameError where
  | oversized (actual maximum : Nat)
deriving DecidableEq, Repr

def encodeJsonFrame (value : Json) : Except FrameError (Nat × List Char) :=
  if value.size > maxMessageSize then .error (.oversized value.size maxMessageSize)
  else .ok (value.size, value.render)

theorem encodeJsonFrame_isOk (value : Json) :
    (encodeJsonFrame value).isOk = true ↔ value.size ≤ maxMessageSize := by
  unfold encodeJsonFrame
  split_ifs with h
  · exact ⟨fun h' => (nomatch h'), fun h' => absurd h (Nat.not_lt.mpr h')⟩
  · exact ⟨fun _ => Nat.not_lt.mp h, fun _ => rfl⟩

/-! ## Sizes -/

theorem length_hexDigits (w n : Nat) : (hexDigits w n).length = w := by
  induction w generalizing n with
  | zero => rfl
  | succ w ih => rw [hexDigits, List.length_append, ih, List.length_singleton]

theorem mem_hexDigits {w n : Nat} {c : Char} (h : c ∈ hexDigits w n) :
    0x20 ≤ c.toNat ∧ c.toNat < 0x80 ∧ c.toNat ≠ 0x22 ∧ c.toNat ≠ 0x5c := by
  induction w generalizing n with
  | zero => exact nomatch h
  | succ w ih =>
    rcases List.mem_append.mp h with h | h
    · exact ih h
    · obtain rfl := List.mem_singleton.mp h
      have hall : ∀ d < 16, 0x20 ≤ (Nat.digitChar d).toNat ∧ (Nat.digitChar d).toNat < 0x80 ∧
          (Nat.digitChar d).toNat ≠ 0x22 ∧ (Nat.digitChar d).toNat ≠ 0x5c := by decide
      exact hall _ (Nat.mod_lt _ (by decide))

theorem plain_text (id : Uuid) : ∀ c ∈ id.text.toList, 0x20 ≤ c.toNat ∧ c.toNat < 0x80 ∧ c.toNat ≠ 0x22 ∧ c.toNat ≠ 0x5c := by
  have hdash : 0x20 ≤ '-'.toNat ∧ '-'.toNat < 0x80 ∧ '-'.toNat ≠ 0x22 ∧ '-'.toNat ≠ 0x5c := by decide
  intro c hc
  simp only [Uuid.text, String.toList_ofList, List.mem_append, List.mem_cons] at hc
  rcases hc with (((hc | rfl | hc) | rfl | hc) | rfl | hc) | rfl | hc
  all_goals first | exact hdash | exact mem_hexDigits hc

theorem length_text (id : Uuid) : id.text.length = 36 := by
  simp [Uuid.text, ← String.length_toList, length_hexDigits]

@[simp] theorem size_uuid (id : Uuid) : id.toJson.size = 38 := by
  have hsize := byteSize_renderString (plain_text id)
  rw [length_text] at hsize
  exact hsize

theorem size_eventListJson (crates : Crates) (requestId : Uuid) (events : List Event) :
    (eventListJson crates requestId events).size =
      (events.map fun event => (event.toJson crates).size).sum + (events.length - 1) + 171 := by
  have hdata : (Json.object [("events", .array (events.map (Event.toJson crates)))]).size =
      (events.map fun event => (event.toJson crates).size).sum + (events.length - 1) + 13 := by
    have hkey : byteSize (renderString "events") = 8 := by decide
    simp only [size_object, List.map_cons, List.map_nil, List.sum_cons, List.sum_nil, List.length_singleton,
      fieldSize_eq, size_array, List.map_map, List.length_map, hkey]
    simp only [Function.comp_def]
    omega
  -- the constant parts, once for every field
  have hversionKey : byteSize (renderString "protocol_version") = 18 := by decide
  have hidKey : byteSize (renderString "request_id") = 12 := by decide
  have hbodyKey : byteSize (renderString "body") = 6 := by decide
  have hstatusKey : byteSize (renderString "status") = 8 := by decide
  have hpayloadKey : byteSize (renderString "payload") = 9 := by decide
  have hkindKey : byteSize (renderString "kind") = 6 := by decide
  have hdataKey : byteSize (renderString "data") = 6 := by decide
  have hversion : currentProtocolVersion.toJson.size = 21 := by decide
  have hok : (Json.string "ok").size = 4 := by decide
  have hkind : (Json.string "events.list").size = 13 := by decide
  simp only [eventListJson, okResponseJson, size_object, List.map_cons, List.map_nil, List.sum_cons, List.sum_nil,
    List.length_cons, List.length_nil, fieldSize_eq, size_uuid, hdata, hversionKey, hidKey, hbodyKey, hstatusKey,
    hpayloadKey, hkindKey, hdataKey, hversion, hok, hkind]
  omega

end Fubun

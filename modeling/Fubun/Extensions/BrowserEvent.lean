import Fubun.Events.Listing
import Fubun.Extensions.Protocol

/-! A browser event on its way: the extension posts it, the native host decodes it and sends it on,
and the core decodes what the host has sent. -/

namespace Fubun.Extensions
open Encoding

/-! ## The extension -/

/-- The furthest instants from the epoch that a `Date` can hold, in milliseconds. -/
def maxTimeValue : Nat := 8640000000000000

/-- Years outside of 0 to 9999 are written with a sign and six digits. -/
def isoYear (y : Int) : List Char :=
  if 0 ≤ y ∧ y ≤ 9999 then pad 4 y.toNat else (if y < 0 then '-' else '+') :: pad 6 y.natAbs

/-- `new Date(now).toISOString()`; it throws on an invalid date. -/
def toISOString (now : Int) : Option String :=
  if maxTimeValue < now.natAbs then none
  else some (.ofList (dateTimeText isoYear (now / 1000) ++ ('.' :: pad 3 (now % 1000).toNat ++ ['Z'])))

example : toISOString 1700000000500 = some "2023-11-14T22:13:20.500Z" := by decide +kernel

/-- What the payload factory of `onNavigation` makes. -/
def eventPayload (now : Int) (sequenceNo : Nat) (resourceId : Uuid) : Option Json :=
  (toISOString now).map fun occurredAt =>
    .object [("sequence_no", .number sequenceNo), ("occurred_at", .string occurredAt),
      ("resource_id", resourceId.toJson)]

/-- The envelope of `requestPrepared`. -/
def nativeEnvelope (requestId : Uuid) (type : String) (payload : Json) : Json :=
  .object [("protocol_version", currentProtocolVersion.toJson), ("request_id", requestId.toJson),
    ("type", .string type), ("payload", payload)]

/-! ## The host and the core -/

/-- The decoders of `uuid` and `time`: a UUID and an RFC 3339 instant from their texts, and an
instant from the components that `time` itself serializes it to. -/
structure Decoders where
  parseUuid : String → Option Uuid
  parseRfc3339 : String → Option OffsetDateTime
  fromComponents : List Json → Option OffsetDateTime

/-- A struct without optional fields, from an object with exactly its fields or from their sequence. -/
def structFields (names : List String) : Json → Option (List Json)
  | .object fields =>
    if fields.length = names.length then names.mapM fun name => Json.field? name (.object fields) else none
  | .array values => if values.length = names.length then some values else none
  | _ => none

def decodeUnsigned (bits : Nat) : Json → Option Nat
  | .number (.ofNat n) => if n < 2 ^ bits then some n else none
  | _ => none

def decodeText : Json → Option String
  | .string s => some s
  | _ => none

def decodeVersion (value : Json) : Option ProtocolVersion := do
  match ← structFields ["major", "minor"] value with
  | [major, minor] => return ⟨← decodeUnsigned 16 major, ← decodeUnsigned 16 minor⟩
  | _ => none

structure NativeEnvelope where
  protocolVersion : ProtocolVersion
  requestId : Uuid
  messageType : String
  payload : Json

structure BrowserEvent where
  sequenceNo : Nat
  occurredAt : OffsetDateTime
  resourceId : Uuid
deriving DecidableEq

inductive HostMessageError where
  | protocol
  | invalidPayload
deriving DecidableEq

section Decoding
variable (D : Decoders)

def decodeUuid (value : Json) : Option Uuid := (decodeText value).bind D.parseUuid

/-- The default `Deserialize` of `time`, which goes by components when the feature for human
readable formats is off. -/
def decodeOffsetDateTime : Json → Option OffsetDateTime
  | .array components => D.fromComponents components
  | _ => none

/-- `time::serde::rfc3339`. -/
def decodeRfc3339 (value : Json) : Option OffsetDateTime := (decodeText value).bind D.parseRfc3339

def decodeNativeEnvelope (value : Json) : Option NativeEnvelope := do
  match ← structFields ["protocol_version", "request_id", "type", "payload"] value with
  | [version, requestId, type, payload] =>
    return ⟨← decodeVersion version, ← decodeUuid D requestId, ← decodeText type, payload⟩
  | _ => none

def decodeBrowserEvent (value : Json) : Option BrowserEvent := do
  match ← structFields ["sequence_no", "occurred_at", "resource_id"] value with
  | [sequenceNo, occurredAt, resourceId] =>
    return ⟨← decodeUnsigned 64 sequenceNo, ← decodeOffsetDateTime D occurredAt, ← decodeUuid D resourceId⟩
  | _ => none

def decodeEventType (value : Json) : Option EventType := do
  let name ← decodeText value
  [EventType.syntheticV1, .browserResourceOpenedV1, .vscodeWorkspaceOpenedV1].find? (·.name == name)

def decodeEmitRequest (value : Json) : Option AdapterEventEmitRequest := do
  match ← structFields ["sequence_no", "occurred_at", "type", "resource_id"] value with
  | [sequenceNo, occurredAt, eventType, resourceId] =>
    return ⟨← decodeUnsigned 64 sequenceNo, ← decodeRfc3339 D occurredAt, ← decodeEventType eventType,
      ← decodeUuid D resourceId⟩
  | _ => none

/-- The branch `browser.event.emit` of `handle_native_message`, up to what `emit_event_and_wait` sends. -/
def handleBrowserEvent (message : NativeEnvelope) : Except HostMessageError AdapterEventEmitRequest :=
  if message.protocolVersion.major ≠ currentProtocolVersion.major then .error .protocol
  else
    match decodeBrowserEvent D message.payload with
    | none => .error .invalidPayload
    | some event => .ok ⟨event.sequenceNo, event.occurredAt, .browserResourceOpenedV1, event.resourceId⟩

def clockNanos (now : Int) : Int := now * 1000000

/-- What the extension posts reaches the core with the same number, instant and resource. -/
def EventAgrees (crates : Crates) (requestId : Uuid) (now : Int) (sequenceNo : Nat) (resourceId : Uuid) : Prop :=
  ∀ payload, eventPayload now sequenceNo resourceId = some payload →
    ∃ message emitted received,
      decodeNativeEnvelope D (nativeEnvelope requestId "browser.event.emit" payload) = some message ∧
      handleBrowserEvent D message = .ok emitted ∧
      decodeEmitRequest D (emitted.toJson crates) = some received ∧
      (emitted.sequenceNo, emitted.resourceId, emitted.occurredAt.unixNanos) =
        (sequenceNo, resourceId, clockNanos now) ∧
      (received.sequenceNo, received.resourceId, received.occurredAt.unixNanos) =
        (sequenceNo, resourceId, clockNanos now)

end Decoding

section Posted
variable (D : Decoders) {now : Int} {sequenceNo : Nat} {resourceId requestId : Uuid} {payload : Json}

/-- The text of an instant is no sequence of components. -/
theorem decodeBrowserEvent_posted (h : eventPayload now sequenceNo resourceId = some payload) :
    decodeBrowserEvent D payload = none := by
  rw [eventPayload] at h
  obtain ⟨occurredAt, -, rfl⟩ := Option.map_eq_some_iff.mp h
  have hfields : structFields ["sequence_no", "occurred_at", "resource_id"]
      (.object [("sequence_no", .number sequenceNo), ("occurred_at", .string occurredAt),
        ("resource_id", resourceId.toJson)]) =
      some [.number sequenceNo, .string occurredAt, resourceId.toJson] := rfl
  rw [decodeBrowserEvent, hfields]
  have htext : decodeOffsetDateTime D (.string occurredAt) = none := rfl
  simp [htext]

theorem payload_of_envelope {message : NativeEnvelope}
    (h : decodeNativeEnvelope D (nativeEnvelope requestId "browser.event.emit" payload) = some message) :
    message.payload = payload := by
  have hfields : structFields ["protocol_version", "request_id", "type", "payload"]
      (nativeEnvelope requestId "browser.event.emit" payload) =
      some [currentProtocolVersion.toJson, requestId.toJson, .string "browser.event.emit", payload] := rfl
  rw [decodeNativeEnvelope, hfields] at h
  simp only [Option.bind_eq_bind, Option.bind_some, Option.bind_eq_some_iff] at h
  obtain ⟨version, -, id, -, type, -, hmessage⟩ := h
  exact (Option.some.inj hmessage) ▸ rfl

theorem handleBrowserEvent_posted {message : NativeEnvelope}
    (h : eventPayload now sequenceNo resourceId = some payload)
    (hmessage : decodeNativeEnvelope D (nativeEnvelope requestId "browser.event.emit" payload) = some message)
    (emitted : AdapterEventEmitRequest) : handleBrowserEvent D message ≠ .ok emitted := by
  have hpayload := payload_of_envelope D hmessage
  unfold handleBrowserEvent
  rw [hpayload, decodeBrowserEvent_posted D h]
  split_ifs <;> exact fun h => (nomatch h)

/-- The encodings agree only where there is nothing to post. -/
theorem eventAgrees_iff (crates : Crates) (requestId : Uuid) (now : Int) (sequenceNo : Nat) (resourceId : Uuid) :
    EventAgrees D crates requestId now sequenceNo resourceId ↔ maxTimeValue < now.natAbs := by
  constructor
  · intro h
    by_contra hrange
    have hposted : ∃ payload, eventPayload now sequenceNo resourceId = some payload := by
      rw [eventPayload, toISOString, if_neg hrange]
      exact ⟨_, rfl⟩
    obtain ⟨payload, hpayload⟩ := hposted
    obtain ⟨message, emitted, received, hmessage, hemitted, -⟩ := h payload hpayload
    exact handleBrowserEvent_posted D hpayload hmessage emitted hemitted
  · intro hrange payload hpayload
    rw [eventPayload, toISOString, if_pos hrange] at hpayload
    exact nomatch hpayload

end Posted
end Fubun.Extensions

namespace Fubun.Sample
open Encoding Extensions

def decoders : Decoders where
  parseUuid s := if s = Uuid.text 0 then some 0 else if s = Uuid.text 2 then some 2 else none
  parseRfc3339 s := if s = "2023-11-14T22:13:20Z" then some ⟨1700000000000000000, 0⟩ else none
  fromComponents components := if components.length = 9 then some ⟨1700000000000000000, 0⟩ else none

end Fubun.Sample

namespace Fubun.Extensions

/-- The first event of page 2, at a clock value of November 2023, is refused. -/
theorem posted_event_refused : ¬ EventAgrees Sample.decoders Sample.clocked 0 1700000000000 1 2 := by
  intro h
  have hposted : ∃ payload, eventPayload 1700000000000 1 2 = some payload := by
    have hrange : ¬ maxTimeValue < (1700000000000 : Int).natAbs := by decide
    rw [eventPayload, toISOString, if_neg hrange]
    exact ⟨_, rfl⟩
  obtain ⟨payload, hpayload⟩ := hposted
  obtain ⟨message, emitted, received, hmessage, hemitted, -⟩ := h payload hpayload
  exact handleBrowserEvent_posted Sample.decoders hpayload hmessage emitted hemitted

end Fubun.Extensions

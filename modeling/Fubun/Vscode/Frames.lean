import Fubun.Extensions.Protocol

/-! The frames of an adapter session: what it writes, and how what its socket delivers is cut into
values. -/

namespace Fubun.Vscode
open Encoding Extensions

/-! ## Decoding -/

section Decoder
variable {α : Type} (parse : List UInt8 → Option α)

def readUInt32LE (header : List UInt8) : Nat := header.foldr (fun byte n => byte.toNat + 256 * n) 0

/-- The loop of `push`, for at most so many frames; with the values, what is left in the buffer. The
function `parse` stands for `TextDecoder` and `JSON.parse`, either of which may throw. -/
def takeFrames : Nat → List UInt8 → Except String (List α) × List UInt8
  | 0, buffer => (.ok [], buffer)
  | n + 1, buffer =>
    if buffer.length < 4 then (.ok [], buffer)
    else
      let length := readUInt32LE (buffer.take 4)
      if length = 0 ∨ maxMessageSize < length then (.error "invalid UDS frame length", buffer)
      else if buffer.length < length + 4 then (.ok [], buffer)
      else
        match parse ((buffer.drop 4).take length) with
        | none => (.error "invalid UDS frame payload", buffer.drop (length + 4))
        | some value =>
          let rest := takeFrames n (buffer.drop (length + 4))
          (rest.1.map (value :: ·), rest.2)

/-- `UdsFrameDecoder.push` on what the decoder holds. -/
def push (buffer chunk : List UInt8) : Except String (List α) × List UInt8 :=
  takeFrames parse (buffer ++ chunk).length (buffer ++ chunk)

/-- A frame takes bytes, so that there are never more frames than bytes. -/
theorem takeFrames_enough {n : Nat} {buffer : List UInt8} (h : buffer.length ≤ n) :
    takeFrames parse n buffer = takeFrames parse buffer.length buffer := by
  induction n using Nat.strong_induction_on generalizing buffer with
  | _ n ih =>
    rcases Nat.eq_or_lt_of_le h with rfl | hlt
    · rfl
    obtain ⟨m, rfl⟩ := Nat.exists_eq_succ_of_ne_zero (Nat.ne_zero_of_lt hlt)
    cases hlength : buffer.length with
    | zero => simp [takeFrames, hlength]
    | succ k =>
      have hshort : ∀ length, (buffer.drop (length + 4)).length ≤ k := by
        intro length
        rw [List.length_drop]
        omega
      have hrest : ∀ length, takeFrames parse m (buffer.drop (length + 4)) =
          takeFrames parse k (buffer.drop (length + 4)) := by
        intro length
        rw [ih m (Nat.lt_succ_self m) (by have := hshort length; omega),
          ih k (by omega) (hshort length)]
      simp only [takeFrames, hrest]

end Decoder

/-! ## Acknowledgements -/

structure AdapterEventAck where
  requestId : String
  stored : Bool
  duplicate : Bool

def parseAdapterEventAck (value : Json) : Except String AdapterEventAck := do
  let envelope ← record (some value) ["protocol_version", "request_id", "action_execution_id", "body"]
  assertProtocol (envelope.field? "protocol_version")
  match uuidText? (envelope.field? "request_id"), uuidText? (envelope.field? "action_execution_id") with
  | some requestId, some _ =>
    let body ← record (envelope.field? "body") ["method", "params"]
    if ! isText (body.field? "method") "event.ack" then .error "unexpected adapter request"
    else
      let ack ← record (body.field? "params") ["event_id", "stored", "duplicate"]
      match uuidText? (ack.field? "event_id"), ack.field? "stored", ack.field? "duplicate" with
      | some _, some (.bool stored), some (.bool duplicate) => .ok ⟨requestId, stored, duplicate⟩
      | _, _, _ => .error "invalid adapter event acknowledgement"
  | _, _ => .error "invalid adapter request ID"

/-- What `handleData` asks of the answer to a hello. -/
def checkHelloAck (requestId : String) (frame : Json) : Except String Unit := do
  let response ← parseCoreResponse frame
  if response.requestId ≠ requestId ∨ response.kind ≠ "adapter.hello_ack" then
    .error "invalid VS Code adapter hello acknowledgement"
  else .ok ()

/-! ## What a session writes -/

/-- What `emitWorkspaceOpened` hands to `emitOne`. -/
structure Emission where
  resourceId : String
  sequenceNo : Nat
  occurredAt : String
deriving DecidableEq

inductive SessionFrame where
  | hello (requestId instanceId : String)
  | event (requestId : String) (emission : Emission)
deriving DecidableEq

def SessionFrame.toJson : SessionFrame → Json
  | .hello requestId instanceId =>
    .object [("protocol_version", currentProtocolVersion.toJson), ("request_id", .string requestId),
      ("body", .object [("method", .string "adapter.hello"),
        ("params", .object [("adapter_id", .string "dev.fubun.vscode"), ("adapter_version", .string "0.1.0"),
          ("instance_id", .string instanceId), ("action_capabilities", .array []),
          ("event_capabilities", .array [.string vscodeWorkspaceOpenedEventType]),
          ("status", .object [("tools", .array []), ("desktop_entry_ids", .array []),
            ("permitted_resource_ids", .array [])])])])]
  | .event requestId emission =>
    .object [("protocol_version", currentProtocolVersion.toJson), ("request_id", .string requestId),
      ("action_execution_id", .string "00000000-0000-0000-0000-000000000000"),
      ("body", .object [("kind", .string "event.emit"),
        ("data", .object [("sequence_no", .number emission.sequenceNo), ("occurred_at", .string emission.occurredAt),
          ("type", .string vscodeWorkspaceOpenedEventType), ("resource_id", .string emission.resourceId)])])]

/-- Where `framed` throws. -/
def SessionFrame.tooLarge (frame : SessionFrame) : Bool := decide (maxMessageSize < frame.toJson.size)

end Fubun.Vscode

import Fubun.Relational.Table
import Mathlib.Algebra.GroupWithZero.Nat

/-! Events, as `fubun-domain` defines and validates them. -/

namespace Fubun
open Relational

/-- A UUID as a number: its text is fixed-width hexadecimal, so text order is number order. -/
abbrev Uuid := Nat

def Uuid.nil : Uuid := 0

/-- An instant in nanoseconds of Unix time, with the offset it is written in. -/
structure OffsetDateTime where
  unixNanos : Int
  offsetSeconds : Int
deriving DecidableEq, Repr

/-- `char::is_control`, the Unicode category Cc. -/
def isControl (c : Char) : Bool := c.toNat < 0x20 || (0x7f ≤ c.toNat && c.toNat ≤ 0x9f)

/-- `char::is_whitespace`, the Unicode property `White_Space`. -/
def isWhitespace (c : Char) : Bool :=
  (0x09 ≤ c.toNat && c.toNat ≤ 0x0d) || (0x2000 ≤ c.toNat && c.toNat ≤ 0x200a) ||
    c.toNat ∈ [0x20, 0x85, 0xa0, 0x1680, 0x2028, 0x2029, 0x202f, 0x205f, 0x3000]

def eventSpecVersion : String := "1.0"
def browserResourceOpenedEventType : String := "dev.fubun.browser.resource.opened.v1"
def vscodeWorkspaceOpenedEventType : String := "dev.fubun.vscode.workspace.opened.v1"

inductive Actor where
  | user
  | fubun
  | system
  | imported
deriving DecidableEq, Repr

inductive PrivacyClass where
  | normal
  | sensitive
deriving DecidableEq, Repr

inductive EventType where
  | syntheticV1
  | browserResourceOpenedV1
  | vscodeWorkspaceOpenedV1
deriving DecidableEq, Repr

structure AdapterIdentity where
  id : String
  version : String
  instanceId : Uuid
  sequenceNo : Nat
deriving DecidableEq, Repr

structure ContextReference where
  project : Option String
  session : Option String
deriving DecidableEq, Repr

inductive EventData where
  | synthetic (label : String) (counter : Int)
  | browserResourceOpened (resourceId : Uuid)
  | vscodeWorkspaceOpened (resourceId : Uuid)
deriving DecidableEq, Repr

structure Event where
  specVersion : String
  id : Uuid
  eventType : EventType
  source : String
  occurredAt : OffsetDateTime
  receivedAt : OffsetDateTime
  actor : Actor
  adapter : AdapterIdentity
  context : Option ContextReference
  privacy : PrivacyClass
  data : EventData
deriving DecidableEq, Repr

inductive ValidationError where
  | unsupportedSpecVersion (version : String)
  | emptyField (field : String)
  | sequenceOutOfRange
  | labelTooLong
  | typeDataMismatch
deriving DecidableEq, Repr

def ValidationError.message : ValidationError → String
  | .unsupportedSpecVersion version => "unsupported event spec version: " ++ version
  | .emptyField field => "field " ++ field ++ " must not be empty"
  | .sequenceOutOfRange => "adapter sequence number exceeds SQLite's signed integer range"
  | .labelTooLong => "synthetic event label exceeds 128 bytes"
  | .typeDataMismatch => "event type and data kind do not match"

def i64Max : Nat := 2 ^ 63 - 1

def validateNonEmpty (field value : String) : Except ValidationError Unit :=
  if value.toList.all isWhitespace then .error (.emptyField field) else .ok ()

/-- The `matches!` on the pair of the event type and the kind of its data. -/
def EventType.accepts : EventType → EventData → Bool
  | .syntheticV1, .synthetic .. => true
  | .browserResourceOpenedV1, .browserResourceOpened _ => true
  | .vscodeWorkspaceOpenedV1, .vscodeWorkspaceOpened _ => true
  | _, _ => false

def EventData.isSynthetic : EventData → Bool
  | .synthetic .. => true
  | _ => false

def EventData.label? : EventData → Option String
  | .synthetic label _ => some label
  | _ => none

def Event.validate (self : Event) : Except ValidationError Unit :=
  if self.specVersion ≠ eventSpecVersion then
    .error (.unsupportedSpecVersion self.specVersion)
  else do
    validateNonEmpty "source" self.source
    validateNonEmpty "adapter.id" self.adapter.id
    validateNonEmpty "adapter.version" self.adapter.version
    (self.data.label?.map (validateNonEmpty "data.label")).getD (.ok ())
    if self.adapter.sequenceNo > i64Max then .error .sequenceOutOfRange
    else if self.data.label?.any (·.utf8ByteSize > 128) then .error .labelTooLong
    else if self.eventType.accepts self.data then .ok () else .error .typeDataMismatch

theorem Event.validate_ok {e : Event} (h : e.validate = .ok ()) :
    e.adapter.sequenceNo ≤ i64Max ∧ e.eventType.accepts e.data = true := by
  unfold Event.validate at h
  split at h
  · exact nomatch h
  -- the text fields come first; the two facts are in the chain of tests after them
  · obtain ⟨_, _, h⟩ := bind_eq_ok.mp h
    obtain ⟨_, _, h⟩ := bind_eq_ok.mp h
    obtain ⟨_, _, h⟩ := bind_eq_ok.mp h
    obtain ⟨_, _, h⟩ := bind_eq_ok.mp h
    split_ifs at h with hseq hlen hacc
    exact ⟨Nat.not_lt.mp hseq, hacc⟩

end Fubun

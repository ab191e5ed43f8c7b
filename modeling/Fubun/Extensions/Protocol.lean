import Fubun.Wire

/-! What the extensions check of a message before they use it. `JSON.parse` gives back the value
that was serialized; a property that is not there is `none`. -/

namespace Fubun.Extensions
open Encoding

/-- `rejectUnknownKeys`, with the text of the error it throws. -/
def rejectUnknownKeys (fields : List (String × Json)) (keys : List String) : Except String Unit :=
  match fields.find? fun field => ! keys.contains field.1 with
  | some field => .error ("unknown field: " ++ field.1)
  | none => .ok ()

def record (value : Option Json) (allowed : List String) : Except String Json :=
  match value with
  | some (.object fields) => do
    rejectUnknownKeys fields allowed
    .ok (.object fields)
  | _ => .error "invalid protocol object"

/-- `value === text`. -/
def isText (value : Option Json) (text : String) : Bool :=
  match value with
  | some (.string s) => s == text
  | _ => false

/-- `value === n`. -/
def isNumber (value : Option Json) (n : Int) : Bool :=
  match value with
  | some (.number m) => m == n
  | _ => false

def isHexDigit (c : Char) : Bool :=
  (0x30 ≤ c.toNat && c.toNat ≤ 0x39) || (0x41 ≤ c.toNat && c.toNat ≤ 0x46) || (0x61 ≤ c.toNat && c.toNat ≤ 0x66)

def isHexGroups : List Nat → List Char → Bool
  | [], text => text.isEmpty
  | [w], text => text.length == w && text.all isHexDigit
  | w :: ws, text =>
    (text.take w).length == w && (text.take w).all isHexDigit && (text.drop w).head? == some '-' &&
      isHexGroups ws (text.drop (w + 1))

def isUuid (text : String) : Bool := isHexGroups [8, 4, 4, 4, 12] text.toList

/-- The text of a value that `isUuid` accepts. -/
def uuidText? (value : Option Json) : Option String :=
  match value with
  | some (.string s) => if isUuid s then some s else none
  | _ => none

def assertProtocol (value : Option Json) : Except String Unit := do
  let version ← record value ["major", "minor"]
  if isNumber (version.field? "major") 1 && isNumber (version.field? "minor") 0 then .ok ()
  else .error "protocol mismatch"

structure CoreResponse where
  requestId : String
  kind : String
  data : Option Json

def parseCoreResponse (value : Json) : Except String CoreResponse := do
  let envelope ← record (some value) ["protocol_version", "request_id", "body"]
  assertProtocol (envelope.field? "protocol_version")
  match uuidText? (envelope.field? "request_id") with
  | none => .error "invalid Core request ID"
  | some requestId =>
    let body ← record (envelope.field? "body") ["status", "payload"]
    if isText (body.field? "status") "error" then
      let error ← record (body.field? "payload") ["code", "message"]
      match error.field? "code", error.field? "message" with
      | some (.string _), some (.string _) => .error "Core rejected request"
      | _, _ => .error "invalid Core error"
    else if isText (body.field? "status") "ok" then
      let payload ← record (body.field? "payload") ["kind", "data"]
      match payload.field? "kind" with
      | some (.string kind) => .ok ⟨requestId, kind, payload.field? "data"⟩
      | _ => .error "invalid Core payload kind"
    else .error "invalid Core response status"

/-- What `CoreClient.request` resolves to, once the hello is acknowledged. -/
def responseData (requestId expectedKind : String) (frame : Json) : Except String (Option Json) := do
  let response ← parseCoreResponse frame
  if response.requestId ≠ requestId ∨ response.kind ≠ expectedKind then .error "unexpected Core response"
  else .ok response.data

/-! ## What the core sends passes -/

theorem isHexDigit_hexDigit (n : Nat) : isHexDigit (hexDigit n) = true := by
  have hall : ∀ d < 16, isHexDigit (Nat.digitChar d) = true := by decide
  exact hall _ (Nat.mod_lt _ (by decide))

theorem all_hexDigits (w n : Nat) : (hexDigits w n).all isHexDigit = true := by
  induction w generalizing n with
  | zero => rfl
  | succ w ih =>
    rw [hexDigits, List.all_append, ih, Bool.true_and, List.all_cons, isHexDigit_hexDigit]
    rfl

theorem isHexGroups_cons {w v : Nat} {ws : List Nat} (n : Nat) {text : List Char} :
    isHexGroups (w :: v :: ws) (hexDigits w n ++ '-' :: text) = isHexGroups (v :: ws) text := by
  have hlength : (hexDigits w n).length = w := length_hexDigits w n
  have htake : (hexDigits w n ++ '-' :: text).take w = hexDigits w n := List.take_left' hlength
  have hdrop : (hexDigits w n ++ '-' :: text).drop w = '-' :: text := List.drop_left' hlength
  have hnext : (hexDigits w n ++ '-' :: text).drop (w + 1) = text := by
    rw [← List.drop_drop, hdrop]
    rfl
  rw [isHexGroups, htake, hdrop, hnext, hlength, all_hexDigits]
  · simp
  · simp

theorem isUuid_text (id : Uuid) : isUuid id.text = true := by
  have hlast : isHexGroups [12] (hexDigits 12 id) = true := by
    rw [isHexGroups, length_hexDigits, all_hexDigits]
    rfl
  unfold isUuid Uuid.text
  rw [String.toList_ofList]
  simp only [List.append_assoc, List.cons_append]
  rw [isHexGroups_cons, isHexGroups_cons, isHexGroups_cons, isHexGroups_cons, hlast]

theorem uuidText_toJson (id : Uuid) : uuidText? (some id.toJson) = some id.text := by
  rw [Uuid.toJson, uuidText?, isUuid_text]
  rfl

theorem responseData_ok (requestId : Uuid) (kind : String) (data : Json) :
    responseData requestId.text kind (okResponseJson requestId kind data) = .ok (some data) := by
  have henvelope : record (some (okResponseJson requestId kind data)) ["protocol_version", "request_id", "body"] =
      .ok (okResponseJson requestId kind data) := rfl
  have hprotocol : assertProtocol ((okResponseJson requestId kind data).field? "protocol_version") = .ok () := rfl
  have hid : uuidText? ((okResponseJson requestId kind data).field? "request_id") = some requestId.text :=
    uuidText_toJson requestId
  have hparse : parseCoreResponse (okResponseJson requestId kind data) = .ok ⟨requestId.text, kind, some data⟩ := by
    simp only [parseCoreResponse, henvelope, hprotocol, hid, ok_bind]
    rfl
  have hsame : ¬ (requestId.text ≠ requestId.text ∨ kind ≠ kind) := by
    rintro (h | h) <;> exact h rfl
  simp only [responseData, hparse, ok_bind, if_neg hsame]

end Fubun.Extensions

import Fubun.Bridge.State
import Fubun.Concurrency.Embedding
import Fubun.Concurrency.Fallible
import Fubun.Extensions.Provenance

/-! The actions of the browser extension. An action opens a registered page; its call runs beside those
that observe pages, reads their storage and writes nothing to it. -/

namespace Fubun.Extensions
open Concurrency Program System Fallible Encoding Bridge

/-! ## Operations -/

inductive ActionOp where
  | newUuid
  | read
  | permissionGranted (origin : String)
  | allTabs
  | createTab (url : String)
  | notify (type requestId : String) (payload : Json)

abbrev ActionOp.Res : ActionOp → Type
  | .newUuid => String
  | .read => Except Thrown (List BrowserResourceMapping)
  | .permissionGranted _ => Except Thrown Bool
  | .allTabs => Except Thrown (List BrowserTab)
  | .createTab _ => Except Thrown Unit
  | .notify .. => Bool

abbrev Acting (α : Type) := Program (BrowserOp ⊕ ActionOp) (BothRes BrowserOp.Res ActionOp.Res) α

/-- What runs in the `try` block. -/
abbrev Trying (α : Type) := Fallible (BrowserOp ⊕ ActionOp) (BothRes BrowserOp.Res ActionOp.Res) Thrown α

abbrev ActionTrace := List (Answered (BothRes BrowserOp.Res ActionOp.Res))

abbrev acting (o : ActionOp) : Acting o.Res := .perform (Sum.inr o)

abbrev trying {α : Type} (o : ActionOp) (answer : o.Res → Except Thrown α) : Trying α := .attempt (Sum.inr o) answer

/-- What the browser and the native host answer to an action. -/
structure ActionChoice where
  uuid : String
  /-- What a call to the browser is rejected with, where it is. -/
  thrown : Option Thrown
  granted : Bool
  /-- The tab that `chrome.tabs.create` opens. -/
  created : BrowserTab
  posted : Bool

namespace ActionOp

def settle {α : Type} (thrown : Option Thrown) (value : α) : Except Thrown α :=
  match thrown with
  | some thrown => .error thrown
  | none => .ok value

def act (_ : Nat) (o : ActionOp) (ch : ActionChoice) (w : BrowserWorld × List BrowserTab) :
    Option (o.Res × List BrowserTab) :=
  match o with
  | .newUuid => some (ch.uuid, w.2)
  | .read => some (settle ch.thrown w.1.store, w.2)
  | .permissionGranted _ => some (settle ch.thrown ch.granted, w.2)
  | .allTabs => some (settle ch.thrown w.2, w.2)
  | .createTab _ => some (settle ch.thrown (), if ch.thrown.isSome then w.2 else w.2 ++ [ch.created])
  | .notify .. => some (ch.posted, w.2)

theorem settle_eq_ok {α : Type} {thrown : Option Thrown} {value a : α} : settle thrown value = .ok a ↔ thrown = none ∧ value = a := by
  cases thrown <;> simp [settle]

end ActionOp

/-! ## The call -/

structure ActionExecutePayload where
  requestId : String
  actionExecutionId : String
  resourceId : String
  canonicalLocator : String
deriving DecidableEq

def parseActionExecutePayload (message : Bridge.NativeEnvelope) : Except String ActionExecutePayload := do
  let payload ← objectRecord message.payload ["request_id", "action_execution_id", "action", "resolved_resource"]
  let action ← objectRecord (payload.field? "action") ["type", "resource_id"]
  let resource ← objectRecord (payload.field? "resolved_resource") ["resource_id", "kind", "canonical_locator"]
  match uuidText? (payload.field? "request_id"), uuidText? (payload.field? "action_execution_id"),
      uuidText? (action.field? "resource_id"), uuidText? (resource.field? "resource_id"),
      text? (resource.field? "canonical_locator") with
  | some requestId, some actionExecutionId, some resourceId, some resolvedId, some canonicalLocator =>
    if requestId = message.requestId ∧ isText (action.field? "type") "browser.tab.ensure_open.v1" ∧
        resourceId = resolvedId ∧ isText (resource.field? "kind") "web.page" then
      .ok ⟨requestId, actionExecutionId, resourceId, canonicalLocator⟩
    else .error "resource identity mismatch"
  | _, _, _, _, _ => .error "resource identity mismatch"

def failure (resultCode message : String) : ActionResult := ⟨.failed, resultCode, message⟩

/-- What the call makes of what is thrown on its way. -/
def rejectedAction (thrown : Thrown) : ActionResult :=
  failure (if thrown = some "resource identity mismatch" then "resource_identity_mismatch" else "action_failed")
    "browser action was rejected"

def caughtAction : Except Thrown ActionResult → ActionResult
  | .ok result => result
  | .error thrown => rejectedAction thrown

def AdapterActionStatus.name : AdapterActionStatus → String
  | .succeeded => "succeeded"
  | .skipped => "skipped"
  | .failed => "failed"

def actionResultJson (requestId actionExecutionId : String) (result : ActionResult) : Json :=
  .object [("request_id", .string requestId), ("action_execution_id", .string actionExecutionId),
    ("result", .object [("status", .string (AdapterActionStatus.name result.status)),
      ("result_code", .string result.resultCode), ("redacted_message", .string result.redactedMessage)])]

section Calls
variable (crates : Crates)

def showsPage (expectedHash : String) (tab : BrowserTab) : Bool :=
  match tab.url with
  | none => false
  | some url =>
    match canonicalizeWebUrl crates url with
    | .error _ => false
    | .ok canonical => canonicalUrlHash crates canonical == expectedHash

def ensureTabOpen (canonical expectedHash : String) : Trying ActionResult := do
  if (← trying .allTabs id).any (showsPage crates expectedHash) then
    return ⟨.skipped, "already_open", "registered page is already open"⟩
  else
    trying (.createTab canonical) id
    return ⟨.succeeded, "opened", "registered page opened"⟩

/-- The `try` block, once the payload is parsed. -/
def performAction (payload : ActionExecutePayload) : Trying ActionResult := do
  let current := (← trying .read id).filter (·.isMapping)
  match current.find? fun candidate => candidate.resourceId == payload.resourceId && candidate.isActive with
  | none => return failure "resource_not_permitted" "registered browser resource is unavailable"
  | some mapping =>
    if ! (← trying (.permissionGranted mapping.originPattern) id) then
      return failure "permission_denied" "browser origin permission is unavailable"
    else
      match canonicalizeWebUrl crates payload.canonicalLocator with
      | .error error => throw (some error)
      | .ok canonical =>
        if canonicalUrlHash crates canonical ≠ mapping.canonicalUrlHash then
          return failure "resource_identity_mismatch" "resolved browser resource did not match the registered resource"
        else ensureTabOpen crates canonical (canonicalUrlHash crates canonical)

def reportAction (requestId actionExecutionId : String) (result : Except Thrown ActionResult) : Acting (Except String Unit) := do
  if ← acting (.notify "browser.action.result" requestId (actionResultJson requestId actionExecutionId (caughtAction result))) then
    return .ok ()
  else return .error "native host is unavailable"

def handleActionExecute (message : Bridge.NativeEnvelope) : Acting (Except String Unit) := do
  let actionExecutionId ← acting .newUuid
  match parseActionExecutePayload message with
  | .error error => reportAction message.requestId actionExecutionId (.error (some error))
  | .ok payload =>
    let result ← (performAction crates payload).run
    reportAction message.requestId payload.actionExecutionId result

/-- The calls for actions, beside the calls of the extension. The user opens and closes tabs. -/
def actions : Further Nat BrowserOp.Res ActionOp.Res BrowserWorld (List BrowserTab) Bridge.NativeEnvelope (Except String Unit)
    ActionChoice (List BrowserTab) where
  handler := handleActionExecute crates
  act := ActionOp.act
  drift tabs _ := tabs
  restart _ w := w.2

def browserExtension := (extension crates).extend (actions crates)

end Calls

/-! ## What a call does -/

section Paths
variable {crates : Crates} {message : Bridge.NativeEnvelope} {payload : ActionExecutePayload} {τ : ActionTrace}
  {q : Acting (Except String Unit)}

theorem reportAction_spares (requestId actionExecutionId : String) (result : Except Thrown ActionResult) :
    (reportAction requestId actionExecutionId result).Meets (extension crates).Harmless fun _ => True := by
  refine .perform_bind trivial fun posted => ?_
  cases posted <;> trivial

theorem actions_spares : (extension crates).Spares (actions crates) := by
  intro message
  show (handleActionExecute crates message).Meets _ _
  unfold handleActionExecute
  refine .perform_bind trivial fun id => ?_
  split
  · exact reportAction_spares ..
  refine Meets.bind (R := fun _ => True) ?_ fun result _ => reportAction_spares ..
  unfold performAction
  refine issues_attempt_bind trivial fun stored => ?_
  dsimp only
  split
  · trivial
  refine issues_attempt_bind trivial fun granted => ?_
  split
  · trivial
  split
  · trivial
  split
  · trivial
  unfold ensureTabOpen
  refine issues_attempt_bind trivial fun tabs => ?_
  split
  · trivial
  exact issues_attempt_bind trivial fun _ => trivial

/-- What a call has found when it opens a tab. -/
structure Opens (crates : Crates) (message : Bridge.NativeEnvelope) (τ : ActionTrace) (url : String) (mapping : BrowserResourceMapping) :
    Prop where
  payload : ∃ payload, parseActionExecutePayload message = .ok payload ∧ mapping.resourceId = payload.resourceId ∧
    canonicalizeWebUrl crates payload.canonicalLocator = .ok url
  active : mapping.isActive = true
  hash : mapping.canonicalUrlHash = canonicalUrlHash crates url
  path : ∃ (id : String) (stored : List BrowserResourceMapping) (tabs : List BrowserTab), mapping ∈ stored ∧
    (∀ tab ∈ tabs, showsPage crates (canonicalUrlHash crates url) tab = false) ∧
    τ = [⟨.inr .newUuid, id⟩, ⟨.inr .read, .ok stored⟩, ⟨.inr (.permissionGranted mapping.originPattern), .ok true⟩,
      ⟨.inr .allTabs, .ok tabs⟩]

def rejection : Answered (BothRes BrowserOp.Res ActionOp.Res) → Option Thrown
  | ⟨.inr .read, .error thrown⟩ => some thrown
  | ⟨.inr (.permissionGranted _), .error thrown⟩ => some thrown
  | ⟨.inr .allTabs, .error thrown⟩ => some thrown
  | ⟨.inr (.createTab _), .error thrown⟩ => some thrown
  | _ => none

def looks : BrowserOp ⊕ ActionOp → Bool
  | .inr .read | .inr (.permissionGranted _) | .inr .allTabs => true
  | _ => false

/-- How the `try` block ends: an operation is rejected, or it refuses after looking, it finds the page open, or
it has a tab created. -/
inductive Performed (crates : Crates) (payload : ActionExecutePayload) : ActionTrace → Except Thrown ActionResult → Prop
  | rejected (τ x thrown) : (∀ y ∈ τ, looks y.op = true ∧ rejection y = none) → rejection x = some thrown →
      Performed crates payload (τ ++ [x]) (.error thrown)
  | refused (τ result) : (∀ y ∈ τ, looks y.op = true ∧ rejection y = none) → (caughtAction result).status = .failed →
      Performed crates payload τ result
  | found (stored pattern tabs url) : canonicalizeWebUrl crates payload.canonicalLocator = .ok url →
      tabs.any (showsPage crates (canonicalUrlHash crates url)) = true →
      Performed crates payload [⟨.inr .read, .ok stored⟩, ⟨.inr (.permissionGranted pattern), .ok true⟩, ⟨.inr .allTabs, .ok tabs⟩]
        (.ok ⟨.skipped, "already_open", "registered page is already open"⟩)
  | opened (stored pattern tabs url) : Performed crates payload [⟨.inr .read, .ok stored⟩,
      ⟨.inr (.permissionGranted pattern), .ok true⟩, ⟨.inr .allTabs, .ok tabs⟩, ⟨.inr (.createTab url), .ok ()⟩]
        (.ok ⟨.succeeded, "opened", "registered page opened"⟩)

theorem performAction_ret {result : Except Thrown ActionResult} (h : Leads (performAction crates payload).run τ (.ret result)) :
    Performed crates payload τ result := by
  unfold performAction at h
  -- the storage may reject the read
  obtain ⟨read, τ₁, rfl, ⟨thrown, hread, rfl, rfl⟩ | ⟨stored, hread, h₁⟩⟩ := leads_attempt_ret h
  · obtain rfl : read = .error thrown := hread
    exact .rejected [] _ thrown (by simp) rfl
  obtain rfl : read = .ok stored := hread
  dsimp only at h₁
  split at h₁
  · obtain ⟨rfl, heq⟩ := leads_ret_iff.mp h₁
    obtain rfl := Program.ret.inj heq
    exact .refused _ _ (by simp [looks, rejection]) rfl
  rename_i mapping hfound
  obtain ⟨granted, τ₂, rfl, ⟨thrown, hgranted, rfl, rfl⟩ | ⟨permitted, hgranted, h₂⟩⟩ := leads_attempt_ret h₁
  · obtain rfl : granted = .error thrown := hgranted
    exact .rejected [_] _ thrown (by simp [looks, rejection]) rfl
  obtain rfl : granted = .ok permitted := hgranted
  cases permitted with
  | false =>
    obtain ⟨rfl, heq⟩ := leads_ret_iff.mp h₂
    obtain rfl := Program.ret.inj heq
    exact .refused _ _ (by simp [looks, rejection]) rfl
  | true =>
    simp only [Bool.not_true, Bool.false_eq_true, if_false] at h₂
    split at h₂
    -- a locator that has no canonical form throws
    · obtain ⟨rfl, heq⟩ := leads_ret_iff.mp h₂
      obtain rfl := Program.ret.inj heq
      exact .refused _ _ (by simp [looks, rejection]) rfl
    rename_i url hurl
    split at h₂
    · obtain ⟨rfl, heq⟩ := leads_ret_iff.mp h₂
      obtain rfl := Program.ret.inj heq
      exact .refused _ _ (by simp [looks, rejection]) rfl
    unfold ensureTabOpen at h₂
    obtain ⟨queried, τ₃, rfl, ⟨thrown, hqueried, rfl, rfl⟩ | ⟨tabs, hqueried, h₃⟩⟩ := leads_attempt_ret h₂
    · obtain rfl : queried = .error thrown := hqueried
      exact .rejected [_, _] _ thrown (by simp [looks, rejection]) rfl
    obtain rfl : queried = .ok tabs := hqueried
    split at h₃
    · rename_i hshown
      obtain ⟨rfl, heq⟩ := leads_ret_iff.mp h₃
      obtain rfl := Program.ret.inj heq
      exact .found stored _ tabs url hurl hshown
    -- no tab shows the page, so that one is created
    obtain ⟨created, τ₄, rfl, ⟨thrown, hcreated, rfl, rfl⟩ | ⟨⟨⟩, hcreated, h₄⟩⟩ := leads_attempt_ret h₃
    · obtain rfl : created = .error thrown := hcreated
      exact .rejected [_, _, _] _ thrown (by simp [looks, rejection]) rfl
    · obtain rfl : created = .ok () := hcreated
      obtain ⟨rfl, heq⟩ := leads_ret_iff.mp h₄
      obtain rfl := Program.ret.inj heq
      exact .opened stored _ tabs url

theorem performAction_creates {url : String} {k : Except Thrown Unit → Acting (Except Thrown ActionResult)}
    (h : Leads (performAction crates payload).run τ (.call (.inr (.createTab url)) k)) :
    ∃ (stored : List BrowserResourceMapping) (mapping : BrowserResourceMapping) (tabs : List BrowserTab), mapping ∈ stored ∧
      mapping.isActive = true ∧ mapping.resourceId = payload.resourceId ∧
      canonicalizeWebUrl crates payload.canonicalLocator = .ok url ∧ mapping.canonicalUrlHash = canonicalUrlHash crates url ∧
      tabs.any (showsPage crates (canonicalUrlHash crates url)) = false ∧
      τ = [⟨.inr .read, .ok stored⟩, ⟨.inr (.permissionGranted mapping.originPattern), .ok true⟩, ⟨.inr .allTabs, .ok tabs⟩] := by
  unfold performAction at h
  obtain ⟨read, τ₁, stored, rfl, hread, h₁⟩ := leads_attempt_call h (by simp)
  obtain rfl : read = .ok stored := hread
  dsimp only at h₁
  split at h₁
  · exact absurd h₁ not_leads_ret_call
  rename_i mapping hfound
  obtain ⟨granted, τ₂, permitted, rfl, hgranted, h₂⟩ := leads_attempt_call h₁ (by simp)
  obtain rfl : granted = .ok permitted := hgranted
  cases permitted with
  | false => exact absurd h₂ not_leads_ret_call
  | true =>
    simp only [Bool.not_true, Bool.false_eq_true, if_false] at h₂
    split at h₂
    · exact absurd h₂ not_leads_ret_call
    rename_i canonical hcanonical
    split at h₂
    · exact absurd h₂ not_leads_ret_call
    rename_i hhash
    unfold ensureTabOpen at h₂
    obtain ⟨queried, τ₃, tabs, rfl, hqueried, h₃⟩ := leads_attempt_call h₂ (by simp)
    obtain rfl : queried = .ok tabs := hqueried
    split at h₃
    · exact absurd h₃ not_leads_ret_call
    rename_i hhidden
    have hpicked := List.find?_some hfound
    simp only [Bool.and_eq_true, beq_iff_eq] at hpicked
    have hmem : mapping ∈ stored := (List.mem_filter.mp (List.mem_of_find?_eq_some hfound)).1
    -- the tab is created for this page, and nothing is called after it
    by_cases hurl : canonical = url
    · subst hurl
      obtain ⟨rfl, -⟩ | ⟨created, τ₄, rfl, h₄⟩ := leads_call_iff.mp h₃
      · exact ⟨stored, mapping, tabs, hmem, hpicked.2, hpicked.1, hcanonical, (not_not.mp hhash).symm,
          Bool.not_eq_true _ ▸ hhidden, rfl⟩
      · rcases created with thrown | _ <;> exact absurd h₄ not_leads_ret_call
    · obtain ⟨created, τ₄, ⟨⟩, rfl, -, h₄⟩ := leads_attempt_call h₃ (by simpa using hurl)
      exact absurd h₄ not_leads_ret_call

/-- A call comes to its report once, at its end. -/
theorem reportAction_leads {requestId actionExecutionId : String} {result : Except Thrown ActionResult}
    (h : Leads (reportAction requestId actionExecutionId result) τ q) :
    (τ = [] ∧ ∃ k, q = .call (.inr (.notify "browser.action.result" requestId
      (actionResultJson requestId actionExecutionId (caughtAction result)))) k) ∨
    ∃ posted a, q = .ret a ∧ (a = .ok () ↔ posted = true) ∧ τ = [⟨.inr (.notify "browser.action.result" requestId
      (actionResultJson requestId actionExecutionId (caughtAction result))), posted⟩] := by
  unfold reportAction at h
  obtain ⟨rfl, rfl⟩ | ⟨posted, τ', rfl, h'⟩ := leads_perform_bind.mp h
  · exact .inl ⟨rfl, _, rfl⟩
  · cases posted
    · obtain ⟨rfl, rfl⟩ := leads_ret_iff.mp h'
      exact .inr ⟨false, _, rfl, by simp, rfl⟩
    · obtain ⟨rfl, rfl⟩ := leads_ret_iff.mp h'
      exact .inr ⟨true, _, rfl, by simp, rfl⟩

theorem handleActionExecute_creates {url : String} {k : Except Thrown Unit → Acting (Except String Unit)}
    (h : Leads (handleActionExecute crates message) τ (.call (.inr (.createTab url)) k)) :
    ∃ mapping, Opens crates message τ url mapping := by
  unfold handleActionExecute at h
  obtain ⟨id, τ₁, rfl, h₁⟩ := leads_perform_call h (by simp)
  split at h₁
  · obtain ⟨-, _, heq⟩ | ⟨_, _, heq, -⟩ := reportAction_leads h₁
    · cases (Program.call.inj heq).1
    · cases heq
  rename_i payload hpayload
  obtain ⟨k', h₂⟩ | ⟨τ₂, result, τ₃, rfl, -, h₂⟩ := leads_bind_call h₁
  · obtain ⟨stored, mapping, tabs, hmem, hactive, hid, hurl, hhash, hhidden, rfl⟩ := performAction_creates h₂
    refine ⟨mapping, ⟨payload, hpayload, hid, hurl⟩, hactive, hhash, id, stored, tabs, hmem, ?_, rfl⟩
    simpa using hhidden
  · obtain ⟨-, _, heq⟩ | ⟨_, _, heq, -⟩ := reportAction_leads h₂
    · cases (Program.call.inj heq).1
    · cases heq

end Paths
end Fubun.Extensions

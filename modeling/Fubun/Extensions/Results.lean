import Fubun.Concurrency.Tracking
import Fubun.Extensions.Actions
import Fubun.Extensions.Hello
import Fubun.Ids
import Fubun.NativeHost.State

/-! The actions of the browser extension over whole runs, among observations, navigations and stops: which
pages they open, what they report, and what the native host makes of the report. -/

namespace Fubun.Extensions
open Concurrency Program System Encoding Bridge

abbrev ActionState := Config Nat (BrowserOp ⊕ ActionOp) (BothRes BrowserOp.Res ActionOp.Res) (BrowserWorld × List BrowserTab)
  (BrowserRequest ⊕ Bridge.NativeEnvelope) (Except String Unit)

abbrev ActionStep := Concurrency.Event Nat (BrowserRequest ⊕ Bridge.NativeEnvelope) (BrowserChoice × ActionChoice) (BrowserDrift ⊕ List BrowserTab)

abbrev ActionLog := List (Label Nat (BothRes BrowserOp.Res ActionOp.Res) (BrowserRequest ⊕ Bridge.NativeEnvelope) (Except String Unit))

/-! ## The report of a call -/

def resultNotice (message : Bridge.NativeEnvelope) (actionExecutionId : String) (result : Except Thrown ActionResult) : ActionOp :=
  .notify "browser.action.result" message.requestId (actionResultJson message.requestId actionExecutionId (caughtAction result))

def openedTab : Answered (BothRes BrowserOp.Res ActionOp.Res) → Option String
  | ⟨.inr (.createTab url), .ok ()⟩ => some url
  | _ => none

def isNotice : BrowserOp ⊕ ActionOp → Bool
  | .inr (.notify ..) => true
  | _ => false

/-- How an action ends: its call reports once, at its end, under the id of the action where its message can be
read and under a fresh one where it cannot, and what it reports is what it did. -/
structure Reports (crates : Crates) (message : Bridge.NativeEnvelope) (fresh : String) (σ : ActionTrace) (actionExecutionId : String)
    (result : Except Thrown ActionResult) : Prop where
  silent : ∀ x ∈ σ, isNotice x.op = false
  named : ∀ payload, parseActionExecutePayload message = .ok payload → actionExecutionId = payload.actionExecutionId
  malformed : ∀ error, parseActionExecutePayload message = .error error →
    actionExecutionId = fresh ∧ σ = [] ∧ result = .error (some error)
  rejected : ∀ x ∈ σ, ∀ thrown, rejection x = some thrown → result = .error thrown
  succeeded : (caughtAction result).status = .succeeded → ∃ url, σ.filterMap openedTab = [url]
  otherwise : (caughtAction result).status ≠ .succeeded → σ.filterMap openedTab = []
  skipped : (caughtAction result).status = .skipped → ∃ (payload : ActionExecutePayload) (url : String) (tabs : List BrowserTab),
    parseActionExecutePayload message = .ok payload ∧ canonicalizeWebUrl crates payload.canonicalLocator = .ok url ∧
      ⟨.inr .allTabs, .ok tabs⟩ ∈ σ ∧ tabs.any (showsPage crates (canonicalUrlHash crates url)) = true

theorem quiet_of_looks {x : Answered (BothRes BrowserOp.Res ActionOp.Res)} (h : looks x.op = true) :
    isNotice x.op = false ∧ openedTab x = none := by
  obtain ⟨op, res⟩ := x
  rcases op with op | op
  · cases h
  · cases op <;> first | exact ⟨rfl, rfl⟩ | cases h

theorem quiet_of_rejection {x : Answered (BothRes BrowserOp.Res ActionOp.Res)} {thrown : Thrown} (h : rejection x = some thrown) :
    isNotice x.op = false ∧ openedTab x = none := by
  obtain ⟨op, res⟩ := x
  rcases op with op | op
  · cases h
  cases op with
  | createTab url =>
    rcases res with _ | _
    · exact ⟨rfl, rfl⟩
    · cases h
  | newUuid | notify => cases h
  | _ => exact ⟨rfl, rfl⟩

section Paths
variable {crates : Crates} {message : Bridge.NativeEnvelope} {payload : ActionExecutePayload} {τ : ActionTrace}
  {result : Except Thrown ActionResult} {a : Except String Unit} {fresh : String}

theorem Reports.of_failed (hparse : parseActionExecutePayload message = .ok payload) (hfailed : (caughtAction result).status = .failed)
    (hquiet : ∀ x ∈ τ, isNotice x.op = false ∧ openedTab x = none)
    (hrejected : ∀ x ∈ τ, ∀ thrown, rejection x = some thrown → result = .error thrown) :
    Reports crates message fresh τ payload.actionExecutionId result where
  silent x hx := (hquiet x hx).1
  named payload' hpayload := by rw [Except.ok.inj (hparse.symm.trans hpayload)]
  malformed error herror := by cases hparse.symm.trans herror
  rejected := hrejected
  succeeded hsucceeded := by cases hfailed.symm.trans hsucceeded
  otherwise _ := List.filterMap_eq_nil_iff.mpr fun x hx => (hquiet x hx).2
  skipped hskipped := by cases hfailed.symm.trans hskipped

theorem Performed.reports (h : Performed crates payload τ result) (hparse : parseActionExecutePayload message = .ok payload) :
    Reports crates message fresh τ payload.actionExecutionId result := by
  have hnamed : ∀ payload', parseActionExecutePayload message = .ok payload' →
      payload.actionExecutionId = payload'.actionExecutionId := by
    intro payload' hpayload
    rw [Except.ok.inj (hparse.symm.trans hpayload)]
  have hread (error : String) : parseActionExecutePayload message ≠ .error error := by
    rw [hparse]
    exact fun h => by cases h
  cases h with
  | rejected σ x thrown hlooks hthrown =>
    refine .of_failed hparse rfl (fun y hy => ?_) fun y hy thrown' hthrown' => ?_
    · rcases List.mem_append.mp hy with hbefore | hlast
      · exact quiet_of_looks (hlooks y hbefore).1
      · exact List.mem_singleton.mp hlast ▸ quiet_of_rejection hthrown
    · rcases List.mem_append.mp hy with hbefore | hlast
      · cases (hlooks y hbefore).2.symm.trans hthrown'
      · obtain rfl := List.mem_singleton.mp hlast
        exact congrArg Except.error (Option.some.inj (hthrown.symm.trans hthrown'))
  | refused _ _ hlooks hfailed =>
    refine .of_failed hparse hfailed (fun x hx => quiet_of_looks (hlooks x hx).1) fun x hx thrown hthrown => ?_
    cases (hlooks x hx).2.symm.trans hthrown
  | found stored pattern tabs url hurl hshown =>
    exact ⟨by simp [isNotice], hnamed, fun error herror => absurd herror (hread error), by simp [rejection],
      by simp [caughtAction], fun _ => rfl, fun _ => ⟨payload, url, tabs, hparse, hurl, by simp, hshown⟩⟩
  | opened stored pattern tabs url =>
    exact ⟨by simp [isNotice], hnamed, fun error herror => absurd herror (hread error), by simp [rejection],
      fun _ => ⟨url, rfl⟩, by simp [caughtAction], by simp [caughtAction]⟩

/-- The report is the last thing that a call does. -/
theorem handleActionExecute_ret (h : Leads (handleActionExecute crates message) τ (.ret a)) :
    ∃ id σ actionExecutionId result posted, Reports crates message id σ actionExecutionId result ∧
      (a = .ok () ↔ posted = true) ∧
      τ = ⟨.inr .newUuid, id⟩ :: σ ++ [⟨.inr (resultNotice message actionExecutionId result), posted⟩] := by
  unfold handleActionExecute at h
  obtain ⟨rfl, heq⟩ | ⟨id, τ₁, rfl, h₁⟩ := leads_perform_bind.mp h
  · cases heq
  split at h₁
  · rename_i error hparse
    obtain ⟨-, _, heq⟩ | ⟨posted, _, heq, hposted, rfl⟩ := reportAction_leads h₁
    · cases heq
    obtain rfl := Program.ret.inj heq
    refine ⟨id, [], id, .error (some error), posted, ⟨by simp, fun payload hpayload => ?_, fun error' herror => ?_, by simp, ?_,
      fun _ => rfl, ?_⟩, hposted, rfl⟩
    · cases hparse.symm.trans hpayload
    · exact ⟨rfl, rfl, by rw [Except.error.inj (hparse.symm.trans herror)]⟩
    · simp [caughtAction, rejectedAction, failure]
    · simp [caughtAction, rejectedAction, failure]
  · rename_i payload hparse
    obtain ⟨τ₂, result, τ₃, rfl, h₂, h₃⟩ := leads_bind_ret h₁
    obtain ⟨-, _, heq⟩ | ⟨posted, _, heq, hposted, rfl⟩ := reportAction_leads h₃
    · cases heq
    obtain rfl := Program.ret.inj heq
    exact ⟨id, τ₂, payload.actionExecutionId, result, posted, (performAction_ret h₂).reports hparse, hposted, rfl⟩

end Paths

/-! ## Runs -/

section Runs
variable {crates : Crates} {now : Int} {tabs : List BrowserTab} {ok : ActionState → ActionStep → Prop} {c : ActionState}
  {before after : ActionLog} {i : Nat} {message : Bridge.NativeEnvelope} {mapping : BrowserResourceMapping}

/-- A mapping that an action reads as active has been put in by an observation, as if there were no actions. -/
theorem read_introduced (h : (browserExtension crates).Reaches (.start now, tabs) ok c) {stored : List BrowserResourceMapping}
    (hlog : c.log = before ++ .call i (.inr .read) (.ok stored) :: after) (hmem : mapping ∈ stored) (hactive : mapping.isActive = true) :
    ∃ log, (log.map Label.lift).Sublist before ∧ Introduced crates log mapping := by
  obtain ⟨d, d', t, k, ch, hd, rfl, -, -, -, hact, -, -⟩ := h.split_call hlog
  obtain ⟨e, he, hshows⟩ := hd.shows actions_spares
  have hsettled : ActionOp.settle ch.2.thrown d.world.1.store = .ok stored := (Prod.mk.inj (Option.some.inj hact)).1
  rw [← (ActionOp.settle_eq_ok.mp hsettled).2, ← hshows.world] at hmem
  exact ⟨e.log, hshows.log, (reaches_sourced he).store mapping hmem hactive⟩

/-- A page is opened only for an action of the core that names it with a resource that the extension has as
active, under that resource's hash and with the permission for its origin, where no tab shows it; and the
resource was enabled by the core when the page was observed. -/
theorem tab_of_observed (h : (browserExtension crates).Reaches (.start now, tabs) ok c) {url : String}
    {created : Except Thrown Unit} (hlog : c.log = before ++ .call i (.inr (.createTab url)) created :: after) :
    ∃ message τ mapping log, Serving i (.inr message) τ before ∧ Opens crates message τ url mapping ∧
      (log.map Label.lift).Sublist before ∧ Introduced crates log mapping := by
  obtain ⟨d, d', t, k, ch, hd, rfl, -, ht, hrest, -, -, -⟩ := h.split_call hlog
  have hrequest : ∃ message, t.request = .inr message := by
    obtain ⟨e, -, hshows⟩ := hd.shows actions_spares
    rcases hshows.threads i with ⟨u, -, hlift⟩ | ⟨-, hfurther⟩
    · obtain rfl := Option.some.inj (ht.symm.trans hlift)
      obtain ⟨_, _, -, hop, -⟩ := Program.lift_eq_call hrest
      cases hop
    · exact hfurther t ht
  obtain ⟨message, hmessage⟩ := hrequest
  have hleads := (hd.traced ht).leads
  rw [hmessage, hrest] at hleads
  obtain ⟨mapping, hopens⟩ := handleActionExecute_creates hleads
  obtain ⟨id, stored, shown, hmem, -, htrace⟩ := hopens.path
  have hread : .call i (.inr .read) (.ok stored) ∈ d.log := hd.mem_log ht (x := ⟨.inr .read, .ok stored⟩) (by simp [htrace])
  obtain ⟨earlier, later, hsplit⟩ := List.append_of_mem hread
  obtain ⟨log, hsub, hintroduced⟩ := read_introduced hd hsplit hmem hopens.active
  refine ⟨message, t.trace, mapping, log, hmessage ▸ hd.serving ht, hopens, ?_, hintroduced⟩
  rw [hsplit]
  exact hsub.trans (List.sublist_append_left ..)

/-- Every action that is answered has been reported once, at the end of its call. -/
theorem action_reported (h : (browserExtension crates).Reaches (.start now, tabs) ok c) {a : Except String Unit} {τ : ActionTrace}
    (hlog : c.log = before ++ .answer i a :: after) (hserving : Serving i (.inr message) τ before) :
    ∃ id σ actionExecutionId result posted, Reports crates message id σ actionExecutionId result ∧
      (a = .ok () ↔ posted = true) ∧
      τ = ⟨.inr .newUuid, id⟩ :: σ ++ [⟨.inr (resultNotice message actionExecutionId result), posted⟩] := by
  exact handleActionExecute_ret (h.answered hlog hserving)

end Runs

/-! ## Between the native host and the extension -/

def pageAction (requestId actionExecutionId resourceId : Uuid) (locator : String) : NativeEnvelope :=
  NativeHost.actionMessage requestId actionExecutionId ⟨.browserTabEnsureOpen resourceId, some ⟨resourceId, .webPage, locator⟩⟩

/-- What the bridge takes it for. -/
def arrivedAction (requestId actionExecutionId resourceId : Uuid) (locator : String) : Bridge.NativeEnvelope :=
  ⟨currentProtocolVersion, requestId.text, "browser.action.execute", some (pageAction requestId actionExecutionId resourceId locator).payload⟩

def noticeJson : ActionOp → Json
  | .notify type requestId payload => (Bridge.NativeEnvelope.mk currentProtocolVersion requestId type (some payload)).toJson
  | _ => .null

section Wire
variable (requestId actionExecutionId resourceId : Uuid) (locator : String)

theorem parse_pageAction : parseNativeEnvelope (nativeEnvelope requestId "browser.action.execute"
    (pageAction requestId actionExecutionId resourceId locator).payload) =
      .ok (arrivedAction requestId actionExecutionId resourceId locator) := by
  have hid : uuidText? (some requestId.toJson) = some requestId.text := uuidText_toJson requestId
  have hfield : (nativeEnvelope requestId "browser.action.execute"
      (pageAction requestId actionExecutionId resourceId locator).payload).field? "request_id" = some requestId.toJson := rfl
  unfold parseNativeEnvelope
  simp only [nativeEnvelope] at hfield ⊢
  simp only [hfield, hid]
  rfl

theorem parse_arrivedAction : parseActionExecutePayload (arrivedAction requestId actionExecutionId resourceId locator) =
    .ok ⟨requestId.text, actionExecutionId.text, resourceId.text, locator⟩ := by
  have hrequest : uuidText? (some requestId.toJson) = some requestId.text := uuidText_toJson requestId
  have haction : uuidText? (some actionExecutionId.toJson) = some actionExecutionId.text := uuidText_toJson actionExecutionId
  have hresource : uuidText? (some resourceId.toJson) = some resourceId.text := uuidText_toJson resourceId
  let action : Json := .object [("type", .string "browser.tab.ensure_open.v1"), ("resource_id", resourceId.toJson)]
  let resolved : Json := .object [("resource_id", resourceId.toJson), ("kind", .string "web.page"),
    ("canonical_locator", .string locator)]
  let payload : Json := .object [("request_id", requestId.toJson), ("action_execution_id", actionExecutionId.toJson),
    ("action", action), ("resolved_resource", resolved)]
  have hpayload : objectRecord (arrivedAction requestId actionExecutionId resourceId locator).payload
      ["request_id", "action_execution_id", "action", "resolved_resource"] = .ok payload := rfl
  have hactions : objectRecord (payload.field? "action") ["type", "resource_id"] = .ok action := rfl
  have hresolved : objectRecord (payload.field? "resolved_resource") ["resource_id", "kind", "canonical_locator"] =
      .ok resolved := rfl
  have hfields : payload.field? "request_id" = some requestId.toJson ∧
      payload.field? "action_execution_id" = some actionExecutionId.toJson ∧
      action.field? "resource_id" = some resourceId.toJson ∧ resolved.field? "resource_id" = some resourceId.toJson ∧
      text? (resolved.field? "canonical_locator") = some locator ∧
      isText (action.field? "type") "browser.tab.ensure_open.v1" = true ∧ isText (resolved.field? "kind") "web.page" = true :=
    ⟨rfl, rfl, rfl, rfl, rfl, rfl, rfl⟩
  have hsame : (arrivedAction requestId actionExecutionId resourceId locator).requestId = requestId.text := rfl
  simp only [parseActionExecutePayload, hpayload, hactions, hresolved, ok_bind, hfields, hrequest, haction, hresource, hsame,
    and_self, if_true]

theorem decodeActionResult_json (result : ActionResult) :
    NativeHost.decodeActionResult (.object [("status", .string (AdapterActionStatus.name result.status)),
      ("result_code", .string result.resultCode), ("redacted_message", .string result.redactedMessage)]) = some result := by
  obtain ⟨status, resultCode, redactedMessage⟩ := result
  cases status <;> rfl

theorem decode_resultNotice {D : Decoders} (hD : D.ReadsUuids) (result : Except Thrown ActionResult) :
    ∃ message readRequest readAction, decodeNativeEnvelope D (noticeJson (resultNotice
        (arrivedAction requestId actionExecutionId resourceId locator) actionExecutionId.text result)) = some message ∧
      NativeHost.handleNativeMessage D message =
        .ok (.result ⟨currentProtocolVersion, readRequest, readAction, .actionResult (caughtAction result)⟩) ∧
      readRequest.text = requestId.text ∧ readAction.text = actionExecutionId.text := by
  obtain ⟨readRequest, hrequest, hrequestText⟩ := hD requestId
  obtain ⟨readAction, haction, hactionText⟩ := hD actionExecutionId
  let payload := actionResultJson requestId.text actionExecutionId.text (caughtAction result)
  refine ⟨⟨currentProtocolVersion, readRequest, "browser.action.result", payload⟩, readRequest, readAction, ?_, ?_, hrequestText,
    hactionText⟩
  · have hfields : structFields ["protocol_version", "request_id", "type", "payload"] (noticeJson (resultNotice
        (arrivedAction requestId actionExecutionId resourceId locator) actionExecutionId.text result)) =
        some [currentProtocolVersion.toJson, .string requestId.text, .string "browser.action.result", payload] := rfl
    have hversion : decodeVersion currentProtocolVersion.toJson = some currentProtocolVersion := rfl
    have hread : decodeUuid D (.string requestId.text) = some readRequest := hrequest
    have htype : decodeText (.string "browser.action.result") = some "browser.action.result" := rfl
    simp only [decodeNativeEnvelope, hfields, Option.bind_eq_bind, Option.bind_some, hversion, hread, htype]
    rfl
  · have hfields : structFields ["request_id", "action_execution_id", "result"] payload = some [.string requestId.text,
        .string actionExecutionId.text, .object [("status", .string (AdapterActionStatus.name (caughtAction result).status)),
          ("result_code", .string (caughtAction result).resultCode),
          ("redacted_message", .string (caughtAction result).redactedMessage)]] := rfl
    have hread : decodeUuid D (.string requestId.text) = some readRequest := hrequest
    have hread' : decodeUuid D (.string actionExecutionId.text) = some readAction := haction
    have hdecode : NativeHost.decodeBrowserActionResult D payload =
        some ⟨currentProtocolVersion, readRequest, readAction, .actionResult (caughtAction result)⟩ := by
      simp only [NativeHost.decodeBrowserActionResult, hfields, Option.bind_eq_bind, Option.bind_some, hread, hread',
        decodeActionResult_json]
      rfl
    have hhandling : NativeHost.decodeHandling D ⟨currentProtocolVersion, readRequest, "browser.action.result", payload⟩ =
        some (.result ⟨currentProtocolVersion, readRequest, readAction, .actionResult (caughtAction result)⟩) :=
      congrArg (Option.map _) hdecode
    rw [NativeHost.handleNativeMessage, if_neg fun h => h rfl, hhandling]

end Wire

section Runs
variable {crates : Crates} {now : Int} {tabs : List BrowserTab} {ok : ActionState → ActionStep → Prop} {c : ActionState}
  {before after : ActionLog} {i : Nat} {requestId actionExecutionId resourceId : Uuid} {locator : String} {D : Decoders}
  {a : Except String Unit} {τ : ActionTrace}

/-- What the core sends of an action for a page comes to the extension as it was, and what the extension
reports of it comes back to the core under the ids that it came with. -/
theorem action_returned (hD : D.ReadsUuids) (h : (browserExtension crates).Reaches (.start now, tabs) ok c)
    (hlog : c.log = before ++ .answer i a :: after)
    (hserving : Serving i (.inr (arrivedAction requestId actionExecutionId resourceId locator)) τ before) :
    parseNativeEnvelope (nativeEnvelope requestId "browser.action.execute"
      (pageAction requestId actionExecutionId resourceId locator).payload) =
        .ok (arrivedAction requestId actionExecutionId resourceId locator) ∧
    ∃ id σ result posted message readRequest readAction,
      τ = ⟨.inr .newUuid, id⟩ :: σ ++ [⟨.inr (resultNotice (arrivedAction requestId actionExecutionId resourceId locator)
        actionExecutionId.text result), posted⟩] ∧
      decodeNativeEnvelope D (noticeJson (resultNotice (arrivedAction requestId actionExecutionId resourceId locator)
        actionExecutionId.text result)) = some message ∧
      NativeHost.handleNativeMessage D message =
        .ok (.result ⟨currentProtocolVersion, readRequest, readAction, .actionResult (caughtAction result)⟩) ∧
      readRequest.text = requestId.text ∧ readAction.text = actionExecutionId.text := by
  have hleads : Leads (handleActionExecute crates (arrivedAction requestId actionExecutionId resourceId locator)) τ (.ret a) :=
    h.answered hlog hserving
  obtain ⟨id, σ, named, result, posted, hreports, -, rfl⟩ := handleActionExecute_ret hleads
  have hnamed : named = actionExecutionId.text :=
    hreports.named _ (parse_arrivedAction requestId actionExecutionId resourceId locator)
  subst hnamed
  obtain ⟨message, readRequest, readAction, hmessage, hresult, hrequest, haction⟩ :=
    decode_resultNotice requestId actionExecutionId resourceId locator hD result
  exact ⟨parse_pageAction .., id, σ, result, posted, message, readRequest, readAction, rfl, hmessage, hresult, hrequest, haction⟩

end Runs
end Fubun.Extensions

/-! ## A page that is opened -/

namespace Fubun.Sample
open Concurrency System Extensions

/-- A browser in which a tab can be created, with a native host that takes what is posted. -/
def opening : BrowserChoice × ActionChoice := (granting "a.example" none, ⟨"", none, true, tabOf "a.example", true⟩)

def rejecting : BrowserChoice × ActionChoice := (opening.1, { opening.2 with thrown := some (some "No storage") })

def beside : BrowserStep → ActionStep
  | .arrive i q => .arrive i (.inl q)
  | .call i ch => .call i (ch, opening.2)
  | .answer i => .answer i
  | .drift e => .drift (.inl e)
  | .restart ch => .restart (ch, opening.2)

/-- The action for the first page, under request 7 and action 8. -/
def firstAction : Bridge.NativeEnvelope := arrivedAction 7 8 20 "https://a.example/"

/-- The first page has been observed, and its action has come to the tab that it creates. -/
def openingFirst : List ActionStep :=
  observedOnce.map beside ++ .arrive 1 (.inr firstAction) :: List.replicate 4 (.call 1 opening)

/-- The storage is not there for the action, up to its answer. -/
def rejectedFirst : List ActionStep := .arrive 0 (.inr firstAction) :: [opening, rejecting, opening].map (.call 0)

def nextAction (c : ActionState) (i : Nat) : Option ActionOp :=
  (c.next? i).bind fun
    | .inl _ => none
    | .inr o => some o

def nextTab (c : ActionState) (i : Nat) : Option String :=
  (nextAction c i).bind fun
    | .createTab url => some url
    | _ => none

/-- Whether a call that has come to its end has done so well, and what it was rejected with on its way. -/
def ended (c : ActionState) (i : Nat) : Option (Bool × List Bridge.Thrown) :=
  (c.threads i).bind fun t =>
    match t.rest with
    | .ret a => some (a.isOk, t.trace.filterMap rejection)
    | .call .. => none

theorem nextTab_eq_some {c : ActionState} {i : Nat} {url : String} (h : nextTab c i = some url) :
    ∃ t k, c.threads i = some t ∧ t.rest = .call (.inr (.createTab url)) k := by
  obtain ⟨o, ho, hurl⟩ := Option.bind_eq_some_iff.mp h
  obtain ⟨o', ho', hright⟩ := Option.bind_eq_some_iff.mp ho
  cases o' with
  | inl o' => cases hright
  | inr o' =>
    obtain rfl := Option.some.inj hright
    cases o' with
    | createTab url' =>
      obtain rfl := Option.some.inj hurl
      exact Config.next?_eq_some.mp ho'
    | _ => cases hurl

theorem ended_eq_some {c : ActionState} {i : Nat} {well : Bool} {thrown : List Bridge.Thrown} (h : ended c i = some (well, thrown)) :
    ∃ t a, c.threads i = some t ∧ t.rest = .ret a ∧ a.isOk = well ∧ t.trace.filterMap rejection = thrown := by
  obtain ⟨t, ht, hended⟩ := Option.bind_eq_some_iff.mp h
  cases hrest : t.rest with
  | ret a =>
    rw [hrest] at hended
    obtain ⟨hwell, hthrown⟩ := Prod.mk.inj (Option.some.inj hended)
    exact ⟨t, a, ht, hrest, hwell, hthrown⟩
  | call o k =>
    rw [hrest] at hended
    cases hended

end Fubun.Sample

namespace Fubun.Extensions
open Concurrency System

theorem tab_of_observed_first : ∃ c before created, (browserExtension Sample.pages).Reaches (.start 0, []) Anywhere c ∧
    c.log = before ++ [.call 1 (.inr (.createTab "https://a.example/")) created] ∧
      ∃ message τ mapping log, Serving 1 (.inr message) τ before ∧
        Opens Sample.pages message τ "https://a.example/" mapping ∧ Introduced Sample.pages log mapping := by
  have hrun : ((browserExtension Sample.pages).exec (.init (.start 0, [])) Sample.openingFirst).map (Sample.nextTab · 1) =
      some (some "https://a.example/") := by decide +kernel
  obtain ⟨c, hc, htab⟩ := Option.map_eq_some_iff.mp hrun
  obtain ⟨t, k, ht, hrest⟩ := Sample.nextTab_eq_some htab
  have hreach : (browserExtension Sample.pages).Reaches (.start 0, []) Anywhere c := Reaches.init.exec hc
  have hact : (browserExtension Sample.pages).act 1 (.inr (.createTab "https://a.example/")) Sample.opening c.world =
      some (.ok (), c.world.1, c.world.2 ++ [Sample.tabOf "a.example"]) := rfl
  have hcreate := hreach.step trivial (.call ht hrest hact)
  obtain ⟨message, τ, mapping, log, hserving, hopens, -, hintroduced⟩ := tab_of_observed hcreate rfl
  exact ⟨_, c.log, _, hcreate, rfl, message, τ, mapping, log, hserving, hopens, hintroduced⟩

theorem rejected_first : ∃ (c c' : ActionState) (τ : ActionTrace),
    (browserExtension Sample.pages).Reaches (.start 0, []) Anywhere c' ∧ c'.log = c.log ++ [.answer 0 (.ok ())] ∧
      Serving 0 (.inr Sample.firstAction) τ c.log ∧ τ.filterMap rejection = [some "No storage"] := by
  have hrun : ((browserExtension Sample.pages).exec (.init (.start 0, [])) Sample.rejectedFirst).map (Sample.ended · 0) =
      some (some (true, [some "No storage"])) := by decide +kernel
  obtain ⟨c, hc, hended⟩ := Option.map_eq_some_iff.mp hrun
  obtain ⟨t, a, ht, hrest, hwell, hthrown⟩ := Sample.ended_eq_some hended
  obtain rfl : a = .ok () := by
    rcases a with _ | _
    · cases hwell
    · rfl
  have hreach : (browserExtension Sample.pages).Reaches (.start 0, []) Anywhere c := Reaches.init.exec hc
  have hserving := hreach.serving ht
  have hrequest : t.request = .inr Sample.firstAction := by
    obtain ⟨earlier, later, hlog, -⟩ := hserving
    rcases arrive_of_exec hc (hlog ▸ List.mem_append_right earlier List.mem_cons_self) with hmem | hmem
    · cases hmem
    · rcases List.mem_cons.mp hmem with harrive | hcall
      · exact (Event.arrive.inj harrive).2
      · obtain ⟨ch, -, heq⟩ := List.mem_map.mp hcall
        cases heq
  exact ⟨c, _, t.trace, hreach.step (e := .answer 0) trivial (.answer ht hrest), rfl, hrequest ▸ hserving, hthrown⟩

/-- What the storage is rejected with is reported as a failed action. -/
theorem action_reported_rejected : ∃ (τ : ActionTrace) (id : String) (σ : ActionTrace) (actionExecutionId : String) (posted : Bool),
    Reports Sample.pages Sample.firstAction id σ actionExecutionId (.error (some "No storage")) ∧
      ((.ok () : Except String Unit) = .ok () ↔ posted = true) ∧
      τ = ⟨.inr .newUuid, id⟩ :: σ ++
        [⟨.inr (resultNotice Sample.firstAction actionExecutionId (.error (some "No storage"))), posted⟩] := by
  obtain ⟨c, c', τ, hreach, hlog, hserving, hthrown⟩ := rejected_first
  obtain ⟨id, σ, actionExecutionId, result, posted, hreports, hposted, rfl⟩ := action_reported hreach hlog hserving
  have hrejections : σ.filterMap rejection = [some "No storage"] := by
    rw [List.cons_append, List.filterMap_cons_none rfl, List.filterMap_append, List.filterMap_cons_none rfl] at hthrown
    simpa using hthrown
  obtain ⟨x, hx, hrejected⟩ := List.mem_filterMap.mp (hrejections ▸ List.mem_singleton_self (some "No storage"))
  obtain rfl := hreports.rejected x hx _ hrejected
  exact ⟨_, id, σ, actionExecutionId, posted, hreports, hposted, rfl⟩

theorem action_returned_rejected : ∃ (result : Except Bridge.Thrown ActionResult) (message : NativeEnvelope) (readRequest readAction : Uuid),
    NativeHost.handleNativeMessage Sample.manyDecoders message =
      .ok (.result ⟨currentProtocolVersion, readRequest, readAction, .actionResult (caughtAction result)⟩) ∧
    readRequest.text = Uuid.text 7 ∧ readAction.text = Uuid.text 8 := by
  obtain ⟨c, c', τ, hreach, hlog, hserving, -⟩ := rejected_first
  obtain ⟨-, id, σ, result, posted, message, readRequest, readAction, -, -, hresult, hrequest, haction⟩ :=
    action_returned Sample.manyDecoders_readsUuids hreach hlog hserving
  exact ⟨result, message, readRequest, readAction, hresult, hrequest, haction⟩

end Fubun.Extensions

import Fubun.Events.Observed
import Fubun.Extensions.Protocol

/-! The VS Code extension and the answer that turns the observation of its workspace on. -/

namespace Fubun.Extensions
open Concurrency Program System Encoding

structure WorkspaceMapping where
  resourceId : String
  scopeId : String
  pathHash : String
deriving DecidableEq

section Mapping
variable (crates : Crates)

/-- Both ends hash with SHA-256, in lower-case hexadecimal. -/
def canonicalUrlHash (canonicalUrl : String) : String := crates.sha256Hex canonicalUrl

def workspaceMapping (response : Option Json) (canonicalPath : String) : Except String WorkspaceMapping := do
  let payload ← record response ["resource", "scope"]
  let resource ← record (payload.field? "resource") ["id", "kind", "label", "locator", "canonical_locator",
    "sensitivity", "scope", "created_at", "updated_at"]
  let scope ← record (payload.field? "scope") ["id", "source", "resource_id", "status", "created_at", "updated_at"]
  match uuidText? (resource.field? "id"), uuidText? (scope.field? "id") with
  | some resourceId, some scopeId =>
    if isText (resource.field? "kind") "filesystem.directory" && isText (scope.field? "source") "vscode.workspace" &&
        isText (scope.field? "status") "active" && isText (scope.field? "resource_id") resourceId then
      .ok ⟨resourceId, scopeId, canonicalUrlHash crates ("file://" ++ canonicalPath)⟩
    else .error "invalid VS Code observation response"
  | _, _ => .error "invalid VS Code observation response"

/-- `VscodeObservationEnabled`, as the core serializes it. -/
def vscodeObservationEnabledJson (resource : Resource) (scope : ObservationScope) (canonicalPathHash : String) : Json :=
  .object [("resource", resource.toJson crates), ("scope", scope.toJson crates),
    ("canonical_path_hash", .string canonicalPathHash)]

/-- What `observe` makes of the frame that answers its request. -/
def observedWorkspace (requestId : Uuid) (frame : Json) (canonicalPath : String) : Except String WorkspaceMapping := do
  let data ← responseData requestId.text "vscode.observation.enabled" frame
  workspaceMapping crates data canonicalPath

/-- The extension takes over the ids and the hash that the core answers with. -/
def EnableAgrees (response : ResponseEnvelope) (canonicalPath : String) : Prop :=
  ∃ resource scope canonicalPathHash,
    response.body = .ok (.vscodeObservationEnabled resource scope canonicalPathHash) ∧
      observedWorkspace crates response.requestId
          (okResponseJson response.requestId "vscode.observation.enabled"
            (vscodeObservationEnabledJson crates resource scope canonicalPathHash)) canonicalPath =
        .ok ⟨resource.id.text, scope.id.text, canonicalPathHash⟩

end Mapping

section Frames
variable {crates : Crates} {now : Int} {instant : Nat} {files : Files} {path : String} {c : State}

/-- The hash is no key that the extension allows. -/
theorem observedWorkspace_enabled (requestId : Uuid) (resource : Resource) (scope : ObservationScope)
    (canonicalPathHash canonicalPath : String) :
    observedWorkspace crates requestId (okResponseJson requestId "vscode.observation.enabled"
        (vscodeObservationEnabledJson crates resource scope canonicalPathHash)) canonicalPath =
      .error "unknown field: canonical_path_hash" := by
  have hdata := responseData_ok requestId "vscode.observation.enabled"
    (vscodeObservationEnabledJson crates resource scope canonicalPathHash)
  have hrecord : record (some (vscodeObservationEnabledJson crates resource scope canonicalPathHash))
      ["resource", "scope"] = .error "unknown field: canonical_path_hash" := rfl
  simp only [observedWorkspace, hdata, workspaceMapping, hrecord, ok_bind, error_bind]

/-- The two other fields would have been accepted. -/
theorem workspaceMapping_fields {resource : Resource} {scope : ObservationScope} (canonicalPath : String)
    (hkind : resource.kind = .directory) (hsource : scope.source = .vscodeWorkspace) (hstatus : scope.status = .active)
    (hresource : scope.resourceId = resource.id) :
    workspaceMapping crates (some (.object [("resource", resource.toJson crates), ("scope", scope.toJson crates)]))
        canonicalPath =
      .ok ⟨resource.id.text, scope.id.text, crates.sha256Hex ("file://" ++ canonicalPath)⟩ := by
  have hpayload : record (some (.object [("resource", resource.toJson crates), ("scope", scope.toJson crates)]))
      ["resource", "scope"] =
      .ok (.object [("resource", resource.toJson crates), ("scope", scope.toJson crates)]) := rfl
  have hrecord : record (some (resource.toJson crates)) ["id", "kind", "label", "locator", "canonical_locator",
      "sensitivity", "scope", "created_at", "updated_at"] = .ok (resource.toJson crates) := rfl
  have hscope : record (some (scope.toJson crates)) ["id", "source", "resource_id", "status", "created_at",
      "updated_at"] = .ok (scope.toJson crates) := rfl
  have hid : uuidText? ((resource.toJson crates).field? "id") = some resource.id.text := uuidText_toJson _
  have hscopeId : uuidText? ((scope.toJson crates).field? "id") = some scope.id.text := uuidText_toJson _
  have hchecks : (isText ((resource.toJson crates).field? "kind") "filesystem.directory" &&
      isText ((scope.toJson crates).field? "source") "vscode.workspace" &&
      isText ((scope.toJson crates).field? "status") "active" &&
      isText ((scope.toJson crates).field? "resource_id") resource.id.text) = true := by
    have hfields : isText (some (.string resource.kind.name)) "filesystem.directory" = true ∧
        isText (some (.string scope.source.name)) "vscode.workspace" = true ∧
        isText (some (.string scope.status.name)) "active" = true ∧
        isText (some scope.resourceId.toJson) resource.id.text = true := by
      rw [hkind, hsource, hstatus, hresource]
      exact ⟨rfl, rfl, rfl, beq_self_eq_true resource.id.text⟩
    obtain ⟨h₁, h₂, h₃, h₄⟩ := hfields
    exact Bool.and_eq_true_iff.mpr ⟨Bool.and_eq_true_iff.mpr ⟨Bool.and_eq_true_iff.mpr ⟨h₁, h₂⟩, h₃⟩, h₄⟩
  have hfields : Json.field? "resource" (.object [("resource", resource.toJson crates), ("scope", scope.toJson crates)]) =
      some (resource.toJson crates) := rfl
  have hfields' : Json.field? "scope" (.object [("resource", resource.toJson crates), ("scope", scope.toJson crates)]) =
      some (scope.toJson crates) := rfl
  simp only [workspaceMapping, hpayload, ok_bind, hfields, hfields', hrecord, hscope, hid, hscopeId, hchecks, if_true,
    canonicalUrlHash]

/-- A response of the handler that is not an error says what was enabled. -/
def Enables (id : Uuid) (response : ResponseEnvelope) : Prop :=
  response.requestId = id ∧ ∀ payload, response.body = .ok payload →
    ∃ resource scope hash, payload = .vscodeObservationEnabled resource scope hash

theorem enables_error (id : Uuid) (code message : String) : Enables id (.error id code message) :=
  ⟨rfl, fun _ h => (nomatch h)⟩

theorem enables_storageError (id : Uuid) (error : StorageError) : Enables id (storageError id error) := by
  unfold storageError
  split <;> exact enables_error id _ _

theorem createOrFind_meets (id : Uuid) (candidate : Resource) (conflict : String) :
    (createOrFind id candidate conflict).Meets (fun _ => True)
      fun result => ∀ response, result = .error response → Enables id response := by
  have hstorage : ∀ error response, (Except.error (storageError id error) : Except ResponseEnvelope Resource) =
      .error response → Enables id response := by
    intro error response h
    exact Except.error.inj h ▸ enables_storageError id error
  refine Meets.perform_bind trivial fun created => ?_
  rcases created with error | resource
  · cases error with
    | duplicateResource =>
      refine Meets.perform_bind trivial fun listed => ?_
      rcases listed with error | resources
      · exact hstorage error
      · dsimp only
        split
        · exact fun response h => by cases h
        · exact fun response h => Except.error.inj h ▸ enables_error id _ _
    | _ => exact hstorage _
  · exact fun response h => by cases h

theorem vscodeObservationEnableResponse_meets (id : Uuid) (label absolutePath : String) :
    (vscodeObservationEnableResponse crates id label absolutePath).Meets (fun _ => True) (Enables id) := by
  unfold vscodeObservationEnableResponse
  split
  · exact enables_error id _ _
  refine Meets.perform_bind trivial fun canonical => ?_
  cases canonical with
  | none => exact enables_error id _ _
  | some canonical =>
    refine Meets.perform_bind trivial fun kind => ?_
    split
    · exact enables_error id _ _
    refine Meets.perform_bind trivial fun now => Meets.perform_bind trivial fun resourceId => ?_
    dsimp only
    split
    · exact enables_error id _ _
    refine (createOrFind_meets id _ _).bind fun result hresult => ?_
    cases result with
    | error response => exact hresult response rfl
    | ok resource =>
      refine Meets.perform_bind trivial fun scopeId => Meets.perform_bind trivial fun stored => ?_
      cases stored with
      | error error => exact enables_storageError id error
      | ok scope => exact ⟨rfl, fun payload h => ⟨_, _, _, (ResponseBody.ok.inj h).symm⟩⟩

/-- Every successful answer to a request to observe a workspace is refused by the extension. -/
theorem enable_refused (h : (daemon crates).Reaches (World.start now instant files path) Anywhere c) {i : Nat}
    {t : Thread Op Op.Res Frame Reply} {request : RequestEnvelope} {label absolutePath : String}
    (ht : c.threads i = some t) (hrequest : t.request = .request request)
    (hversion : request.protocolVersion.major = currentProtocolVersion.major)
    (hbody : request.body = .vscodeObservationEnable label absolutePath) {response : ResponseEnvelope}
    (hrest : t.rest = .ret (.response response)) {payload : ResponsePayload} (hok : response.body = .ok payload)
    (canonicalPath : String) :
    (∃ resource scope hash, payload = .vscodeObservationEnabled resource scope hash) ∧
      ¬ EnableAgrees crates response canonicalPath := by
  constructor
  · have hleads := (h.traced ht).leads
    have hhandler : handleFrame crates (.request request) =
        vscodeObservationEnableResponse crates request.requestId label absolutePath >>=
          fun response => .ret (.response response) := by
      simp only [handleFrame, processRequest, hversion, ne_eq, not_true_eq_false, if_false, hbody, processBody]
      rfl
    rw [hrest, hrequest] at hleads
    have hmeets : (handleFrame crates (.request request)).Meets (fun _ => True) fun reply =>
        ∀ response, reply = .response response → Enables request.requestId response := by
      rw [hhandler]
      refine (vscodeObservationEnableResponse_meets _ _ _).bind fun response hresponse => ?_
      exact fun response' heq => Reply.response.inj heq ▸ hresponse
    exact ((hmeets.leads hleads) response rfl).2 payload hok
  · rintro ⟨resource, scope, hash, -, hobserved⟩
    rw [observedWorkspace_enabled] at hobserved
    exact nomatch hobserved

end Frames
end Fubun.Extensions

namespace Fubun.Sample
open Concurrency System

def answer? (i : Nat) (c : State) : Option Reply :=
  (c.threads i).bind fun t => match t.rest with
    | .ret a => some a
    | .call .. => none

def workspace : Resource := ⟨2, .directory, "work", "/w", "/w", .normal, .exact, ⟨0, 0⟩, ⟨0, 0⟩⟩

def workspaceScope : ObservationScope := ⟨3, .vscodeWorkspace, 2, .active, ⟨0, 0⟩, ⟨0, 0⟩⟩

theorem exists_enabled : ∃ c t, (daemon crates).Reaches world Anywhere c ∧ c.threads 0 = some t ∧
    t.request = .request ⟨currentProtocolVersion, 0, .vscodeObservationEnable "work" "/w"⟩ ∧
      t.rest = .ret (.response (.ok 0 (.vscodeObservationEnabled workspace workspaceScope ""))) := by
  have hrun : (exec enabling).map (fun c => ((c.threads 0).map (·.request), answer? 0 c)) =
      some (some (.request ⟨currentProtocolVersion, 0, .vscodeObservationEnable "work" "/w"⟩),
        some (.response (.ok 0 (.vscodeObservationEnabled workspace workspaceScope "")))) := by decide +kernel
  obtain ⟨c, hc, hends⟩ := Option.map_eq_some_iff.mp hrun
  obtain ⟨hrequest, hanswer⟩ := Prod.mk.inj hends
  obtain ⟨t, ht, hrequest⟩ := Option.map_eq_some_iff.mp hrequest
  rw [answer?, ht, Option.bind_some] at hanswer
  refine ⟨c, t, System.Reaches.init.exec hc, ht, hrequest, ?_⟩
  split at hanswer
  · rename_i a hrest
    rw [hrest, Option.some.inj hanswer]
  · exact nomatch hanswer

end Fubun.Sample

namespace Fubun.Extensions
open Concurrency System

theorem enable_refused_workspace : ∃ c t response, (daemon Sample.crates).Reaches Sample.world Anywhere c ∧
    c.threads 0 = some t ∧ t.rest = .ret (.response response) ∧
      (∃ payload, response.body = .ok payload ∧
        ∃ resource scope hash, payload = .vscodeObservationEnabled resource scope hash) ∧
      ¬ EnableAgrees Sample.crates response "/w" := by
  obtain ⟨c, t, hreach, ht, hrequest, hrest⟩ := Sample.exists_enabled
  have hrefused := enable_refused hreach ht hrequest rfl rfl hrest rfl "/w"
  exact ⟨c, t, _, hreach, ht, hrest, ⟨_, rfl, hrefused.1⟩, hrefused.2⟩

/-- The core has stored the workspace and its scope, and the extension throws. -/
theorem workspace_not_mapped : ¬ ∀ c t response payload, (daemon Sample.crates).Reaches Sample.world Anywhere c →
    c.threads 0 = some t → t.request = .request ⟨currentProtocolVersion, 0, .vscodeObservationEnable "work" "/w"⟩ →
      t.rest = .ret (.response response) → response.body = .ok payload →
        EnableAgrees Sample.crates response "/w" := by
  intro hall
  obtain ⟨c, t, hreach, ht, hrequest, hrest⟩ := Sample.exists_enabled
  obtain ⟨resource, scope, hash, -, hobserved⟩ := hall c t _ _ hreach ht hrequest hrest rfl
  rw [observedWorkspace_enabled] at hobserved
  exact nomatch hobserved

end Fubun.Extensions

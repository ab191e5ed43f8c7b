import Fubun.Core.Events

/-! Defining, previewing, activating and pausing rituals, and the preflight of a run. -/

namespace Fubun
open Relational Concurrency Program

abbrev CoreError := String × String

def maxRitualJsonBytes : Nat := 128 * 1024

section Definitions
variable (crates : Crates)

/-- The loop over `validate_action`. -/
def validatePolicy : List ActionSpec → Except String Unit
  | [] => .ok ()
  | action :: actions =>
    match validateAction action with
    | .error error => .error error.message
    | .ok _ => validatePolicy actions

def validateRitualDefinition (definition : RitualDefinition) : Except String String :=
  match definition.validate with
  | .error error => .error error.message
  | .ok () =>
    match validatePolicy definition.actions with
    | .error message => .error message
    | .ok () =>
      match crates.canonicalJson definition with
      | none => .error "ritual JSON could not be canonicalized"
      | some canonical =>
        if canonical.utf8ByteSize > maxRitualJsonBytes then .error "ritual JSON exceeds the size limit"
        else .ok canonical

def ritualCreateResponse (id : Uuid) (definition : RitualDefinition) : Core ResponseEnvelope := do
  match validateRitualDefinition crates definition with
  | .error message => return .error id "invalid_ritual" message
  | .ok canonical =>
    match definition.contentHash crates with
    | none => return .error id "invalid_ritual" "ritual hash could not be computed"
    | some contentHash =>
      let now ← await .nowUtc
      let ritualId ← await .newUuid
      let versionId ← await .newUuid
      let version : RitualVersion :=
        ⟨versionId, ritualId, 1, ritualSchemaVersion, canonical, contentHash, now⟩
      let ritual : Ritual := ⟨ritualId, definition.name, .draft, version.id, now, now⟩
      match ← storage (.createRitual ritual version definition) with
      | .ok (ritual, version, definition) => return .ok id (.ritualCreated ritual version definition)
      | .error error => return storageError id error

def u32Max : Nat := 2 ^ 32 - 1

def ritualUpdateResponse (id ritualId : Uuid) (definition : RitualDefinition) :
    Core ResponseEnvelope := do
  match validateRitualDefinition crates definition with
  | .error message => return .error id "invalid_ritual" message
  | .ok canonical =>
    match definition.contentHash crates with
    | none => return .error id "invalid_ritual" "ritual hash could not be computed"
    | some contentHash =>
      match ← storage (.getRitual ritualId) with
      | .error .notFound => return .error id "ritual_not_found" "ritual was not found"
      | .error error => return storageError id error
      | .ok (ritual, current, _) =>
        let now ← await .nowUtc
        let versionId ← await .newUuid
        let version : RitualVersion :=
          ⟨versionId, ritualId, min (current.version + 1) u32Max, ritualSchemaVersion, canonical,
            contentHash, now⟩
        let ritual := { ritual with
          name := definition.name, status := .draft, currentVersionId := version.id, updatedAt := now }
        match ← storage (.updateRitual ritual version definition) with
        | .ok (ritual, version, definition) => return .ok id (.ritualUpdated ritual version definition)
        | .error error => return storageError id error

end Definitions

def ritualShowResponse (id ritualId : Uuid) : Core ResponseEnvelope := do
  match ← storage (.getRitual ritualId) with
  | .ok (ritual, version, definition) => return .ok id (.ritualShow ritual version definition)
  | .error .notFound => return .error id "ritual_not_found" "ritual was not found"
  | .error error => return storageError id error

/-! ## Preview -/

def pathExists (path : String) : Core Bool := do
  return (← await (.metadata path)).isSome

/-- `path.exists() && check`. -/
def ifExists (path : String) (check : Core Bool) : Core Bool := do
  if ← pathExists path then check else return false

/-- `fs::canonicalize(path)` gives back the stored locator. -/
def canonicalPathMatches (resource : Resource) : Core Bool := do
  return (← await (.canonicalize resource.canonicalLocator)) == some resource.canonicalLocator

/-- `fs::metadata(path)` is of the stored kind. -/
def pathKindMatches (resource : Resource) : Core Bool := do
  match ← await (.metadata resource.canonicalLocator) with
  | some .file => return resource.kind == .file
  | some .directory => return resource.kind == .directory
  | _ => return false

def webLocatorMatches (crates : Crates) (resource : Resource) : Bool :=
  match canonicalizeWebUrl crates resource.canonicalLocator with
  | .ok value => value == resource.canonicalLocator
  | .error _ => false

/-- What the preview of one action finds out about its resource. -/
structure ResourceFindings where
  resourceExists : Option Bool
  resourcePathMatches : Option Bool
  resourceKindMatches : Option Bool
  desktopEntryExists : Option Bool
  warnings : List String

def warnUnless (holds : Bool) (message : String) : List String := if holds then [] else [message]

def inspectPath (resource : Resource) : Core ResourceFindings := do
  let found ← pathExists resource.canonicalLocator
  let pathMatches ← ifExists resource.canonicalLocator (canonicalPathMatches resource)
  let kindMatches ← ifExists resource.canonicalLocator (pathKindMatches resource)
  return ⟨some found, some pathMatches, some kindMatches, none,
    warnUnless found "resource does not exist" ++
      warnUnless pathMatches "resource canonical path changed" ++
      warnUnless kindMatches "resource type changed"⟩

def inspectWebPage (crates : Crates) (resourceId : Uuid) (resource : Resource) :
    Core (Except CoreError ResourceFindings) := do
  let kindMatches := resource.kind == .webPage
  let pathMatches := resource.kind == .webPage && webLocatorMatches crates resource
  match ← storage (.listObservationScopes (some .browserChromium)) with
  | .error _ => return .error ("internal_error", "observation scope lookup failed")
  | .ok scopes =>
    return .ok ⟨some true, some pathMatches, some kindMatches, none,
      warnUnless kindMatches "resource is not a web page" ++
        warnUnless pathMatches "web resource canonical URL is invalid" ++
        warnUnless (observes scopes resourceId) "browser observation scope is not active"⟩

def inspectAction (crates : Crates) (eligible : Bool) (action : ActionSpec) :
    Core (Except CoreError ResourceFindings) := do
  match action with
  | .linuxPathOpen resourceId =>
    match ← storage (.getResource resourceId) with
    | .ok resource => return .ok (← inspectPath resource)
    | .error _ => return .ok ⟨none, none, none, none, ["resource was not found"]⟩
  | .linuxAppEnsureRunning _ =>
    return .ok ⟨none, none, none, some eligible,
      warnUnless eligible "desktop entry was not found on an eligible adapter"⟩
  | .desktopNotificationShow .. => return .ok ⟨none, none, none, none, []⟩
  | .browserTabEnsureOpen resourceId =>
    match ← storage (.getResource resourceId) with
    | .ok resource => inspectWebPage crates resourceId resource
    | .error _ => return .ok ⟨some false, none, none, none, ["resource was not found"]⟩

def eligibilityWarning : AdapterEligibilityError → String
  | .unavailable => "no adapter is connected"
  | .ineligible => "no single adapter instance satisfies the action requirements"

/-- One round of the loop of `build_preview`: the entry of an action and its warnings. -/
def previewAction (crates : Crates) (index : Nat) (action : ActionSpec) :
    Core (Except CoreError (PreviewAction × List String)) := do
  let descriptor := descriptor action
  let requirements := AdapterRequirements.fromAction action
  let found ← await (.findEligible requirements)
  let eligible := found.isOk
  let adapterWarnings := match found with
    | .ok _ => []
    | .error error => [eligibilityWarning error]
  match ← inspectAction crates eligible action with
  | .error error => return .error error
  | .ok findings =>
    let actionWarnings := adapterWarnings ++ findings.warnings ++
      warnUnless action.validate.isOk "action validation failed"
    return .ok
      ({ stepIndex := index
         actionType := descriptor.actionType
         riskLevel := descriptor.riskLevel.debug
         idempotency := descriptor.idempotency.debug
         revertability := descriptor.revertability.debug
         requiredCapability := descriptor.requiredCapability
         adapterConnected := eligible
         requiredToolAvailable := requirements.requiredTool.map fun _ => eligible
         resourceExists := findings.resourceExists
         resourcePathMatches := findings.resourcePathMatches
         resourceKindMatches := findings.resourceKindMatches
         desktopEntryExists := findings.desktopEntryExists
         warning := actionWarnings.head? },
       actionWarnings.map fun message => "action " ++ toString (index + 1) ++ ": " ++ message)

/-- The loop of `build_preview` from `index` on. -/
def previewActions (crates : Crates) (index : Nat) :
    List ActionSpec → Core (Except CoreError (List PreviewAction × List String))
  | [] => return .ok ([], [])
  | action :: actions => do
    match ← previewAction crates index action with
    | .error error => return .error error
    | .ok (entry, warnings) =>
      match ← previewActions crates (index + 1) actions with
      | .error error => return .error error
      | .ok (entries, more) => return .ok (entry :: entries, warnings ++ more)

def buildPreview (crates : Crates) (ritual : Ritual) (version : RitualVersion)
    (definition : RitualDefinition) : Core (Except CoreError RitualPreview) := do
  match ← previewActions crates 0 definition.actions with
  | .error error => return .error error
  | .ok (actions, warnings) =>
    return .ok ⟨ritual.id, version.id, actions, definition.execution.timeoutSeconds, warnings,
      warnings.isEmpty⟩

def ritualPreviewResponse (crates : Crates) (id ritualId : Uuid) : Core ResponseEnvelope := do
  match ← storage (.getRitual ritualId) with
  | .error .notFound => return .error id "ritual_not_found" "ritual was not found"
  | .error error => return storageError id error
  | .ok (ritual, version, definition) =>
    match ← buildPreview crates ritual version definition with
    | .ok preview => return .ok id (.ritualPreview preview)
    | .error (code, message) => return .error id code message

/-! ## Activation -/

def approvalOf (version : RitualVersion) (now : OffsetDateTime) (id : Uuid) (action : ActionSpec) :
    Approval :=
  let fields := approvalFields action
  ⟨id, version.id, fields.actionType, fields.capability, fields.resourceId, fields.appId,
    version.contentHash, now⟩

def newApprovals (version : RitualVersion) (now : OffsetDateTime) :
    List ActionSpec → Core (List Approval)
  | [] => return []
  | action :: actions => do
    let id ← await .newUuid
    let approvals ← newApprovals version now actions
    return approvalOf version now id action :: approvals

def ritualActivateResponse (crates : Crates) (id ritualId : Uuid) (approve : Bool) :
    Core ResponseEnvelope := do
  if ! approve then return .error id "approval_required" "activation requires --approve"
  else
    match ← storage (.getRitual ritualId) with
    | .error .notFound => return .error id "ritual_not_found" "ritual was not found"
    | .error error => return storageError id error
    | .ok (ritual, version, definition) =>
      match ← buildPreview crates ritual version definition with
      | .error (code, message) => return .error id code message
      | .ok preview =>
        if ! preview.executable then
          return .error id "preflight_failed" "ritual preview contains blocking warnings"
        else
          let now ← await .nowUtc
          let approvals ← newApprovals version now definition.actions
          match ← storage (.createApprovals approvals) with
          | .error error => return storageError id error
          | .ok () =>
            match ← storage (.setRitualStatus ritualId .active) with
            | .error error => return storageError id error
            | .ok () => return .ok id (.ritualActivated { ritual with status := .active })

def ritualPauseResponse (id ritualId : Uuid) : Core ResponseEnvelope := do
  match ← storage (.getRitual ritualId) with
  | .error .notFound => return .error id "ritual_not_found" "ritual was not found"
  | .error error => return storageError id error
  | .ok (ritual, _, _) =>
    if ritual.status = .archived then
      return .error id "ritual_archived" "archived rituals cannot be paused"
    else
      match ← storage (.setRitualStatus ritualId .paused) with
      | .error error => return storageError id error
      | .ok () => return .ok id (.ritualPaused { ritual with status := .paused })

/-! ## Preflight -/

def preflightEligibilityError : AdapterEligibilityError → CoreError
  | .unavailable => ("adapter_unavailable", "no adapter is connected")
  | .ineligible =>
    ("capability_unavailable", "no single adapter instance satisfies the action requirements")

/-- The test that `preflight` puts to an approval for an action of a version. -/
def Approval.covers (version : RitualVersion) (action : ActionSpec) (approval : Approval) : Bool :=
  let fields := approvalFields action
  approval.ritualVersionId == version.id && approval.contentHash == version.contentHash &&
    approval.actionType == fields.actionType && approval.capability == fields.capability &&
    approval.resourceId == fields.resourceId && approval.appId == fields.appId

def preflightResource (crates : Crates) (action : ActionSpec) : Core (Except CoreError Unit) := do
  match action with
  | .linuxPathOpen resourceId =>
    match ← storage (.getResource resourceId) with
    | .error _ => return .error ("resource_not_found", "resource was not found")
    | .ok resource =>
      if ! (← pathExists resource.canonicalLocator) then
        return .error ("resource_changed", "resource no longer exists")
      else if ! (← canonicalPathMatches resource) then
        return .error ("resource_changed", "resource canonical path changed")
      else if ! (← pathKindMatches resource) then
        return .error ("resource_changed", "resource type changed")
      else return .ok ()
  | .linuxAppEnsureRunning _ => return .ok ()
  | .desktopNotificationShow .. => return .ok ()
  | .browserTabEnsureOpen resourceId =>
    match ← storage (.getResource resourceId) with
    | .error _ => return .error ("resource_not_found", "web resource was not found")
    | .ok resource =>
      if resource.kind ≠ .webPage ∨ ! webLocatorMatches crates resource then
        return .error ("resource_changed", "web resource canonical URL changed")
      else
        match ← storage (.listObservationScopes (some .browserChromium)) with
        | .error _ => return .error ("internal_error", "observation scope lookup failed")
        | .ok scopes =>
          if ! observes scopes resourceId then
            return .error ("observation_inactive", "browser observation scope is not active")
          else return .ok ()

/-- One round of the loop of `preflight`. -/
def preflightAction (crates : Crates) (version : RitualVersion) (approvals : List Approval)
    (action : ActionSpec) : Core (Except CoreError Unit) := do
  match action.validate with
  | .error _ => return .error ("invalid_ritual", "action validation failed")
  | .ok () =>
    match validateAction action with
    | .error _ => return .error ("unknown_action", "action is not registered")
    | .ok _ =>
      match ← await (.findEligible (.fromAction action)) with
      | .error error => return .error (preflightEligibilityError error)
      | .ok _ =>
        if ! approvals.any (·.covers version action) then
          return .error ("ritual_not_approved", "ritual version approval is missing or stale")
        else preflightResource crates action

def preflightActions (crates : Crates) (version : RitualVersion) (approvals : List Approval) :
    List ActionSpec → Core (Except CoreError Unit)
  | [] => return .ok ()
  | action :: actions => do
    match ← preflightAction crates version approvals action with
    | .error error => return .error error
    | .ok () => preflightActions crates version approvals actions

def preflight (crates : Crates) (version : RitualVersion) (definition : RitualDefinition) :
    Core (Except CoreError Unit) := do
  match ← storage (.listApprovals version.id) with
  | .error _ => return .error ("internal_error", "approval lookup failed")
  | .ok approvals => preflightActions crates version approvals definition.actions

end Fubun

import Fubun.Core.Events

/-! Registering resources and turning their observation on. -/

namespace Fubun
open Relational Concurrency Program

def resourceCreateResponse (crates : Crates) (id : Uuid) (label path : String)
    (sensitivity : Sensitivity) : Core ResponseEnvelope := do
  if ! isAbsolute path ∨ path.utf8ByteSize > 4096 ∨ hasLowByte path then
    return .error id "invalid_resource" "resource path must be an absolute existing path"
  else
    match ← await (.metadata path) with
    | none => return .error id "invalid_resource" "resource path does not exist"
    | some metadata =>
      match ← await (.canonicalize path) with
      | none => return .error id "invalid_resource" "resource path cannot be canonicalized"
      | some canonical =>
        let kind? := match metadata with
          | .file => some ResourceKind.file
          | .directory => some ResourceKind.directory
          | .other => none
        match kind? with
        | none => return .error id "invalid_resource" "resource must be a file or directory"
        | some kind =>
          let now ← await .nowUtc
          let resourceId ← await .newUuid
          let resource : Resource :=
            ⟨resourceId, kind, label, path, canonical, sensitivity, .exact, now, now⟩
          match resource.validate crates with
          | .error error => return .error id "invalid_resource" error.message
          | .ok () =>
            match ← storage (.createResource resource) with
            | .ok resource => return .ok id (.resourceCreated resource)
            | .error .duplicateResource =>
              return .error id "duplicate_resource"
                "a resource with the same canonical path already exists"
            | .error error => return storageError id error

/-- Create the resource, or find the one of the same kind that has its canonical locator. -/
def createOrFind (id : Uuid) (candidate : Resource) (conflict : String) :
    Core (Except ResponseEnvelope Resource) := do
  match ← storage (.createResource candidate) with
  | .ok resource => return .ok resource
  | .error .duplicateResource =>
    match ← storage .listResources with
    | .ok resources =>
      match resources.find? fun resource => resource.kind == candidate.kind &&
          resource.canonicalLocator == candidate.canonicalLocator with
      | some resource => return .ok resource
      | none => return .error (.error id "invalid_resource" conflict)
    | .error error => return .error (storageError id error)
  | .error error => return .error (storageError id error)

def browserObservationEnableResponse (crates : Crates) (id : Uuid) (label url : String) :
    Core ResponseEnvelope := do
  match canonicalizeWebUrl crates url with
  | .error _ => return .error id "invalid_resource" "invalid web URL"
  | .ok canonical =>
    let now ← await .nowUtc
    let resourceId ← await .newUuid
    let candidate : Resource :=
      ⟨resourceId, .webPage, label, canonical, canonical, .normal, .exact, now, now⟩
    match candidate.validate crates with
    | .error _ => return .error id "invalid_resource" "invalid web resource"
    | .ok () =>
      match ← createOrFind id candidate "web resource conflict" with
      | .error response => return response
      | .ok resource =>
        let scopeId ← await .newUuid
        match ← storage (.ensureObservationScope
            ⟨scopeId, .browserChromium, resource.id, .active, now, now⟩) with
        | .error error => return storageError id error
        | .ok scope =>
          match webOriginPattern crates canonical with
          | .error _ => return .error id "invalid_resource" "invalid web origin"
          | .ok originPattern =>
            return .ok id (.browserObservationEnabled resource scope
              (canonicalWebUrlHash crates canonical) originPattern)

def vscodeObservationEnableResponse (crates : Crates) (id : Uuid) (label absolutePath : String) :
    Core ResponseEnvelope := do
  if ! isAbsolute absolutePath then
    return .error id "invalid_resource" "workspace path must be absolute"
  else
    match ← await (.canonicalize absolutePath) with
    | none => return .error id "invalid_resource" "workspace path cannot be canonicalized"
    | some canonical =>
      if (← await (.metadata canonical)) ≠ some .directory then
        return .error id "invalid_resource" "workspace must be a directory"
      else
        let now ← await .nowUtc
        let resourceId ← await .newUuid
        let candidate : Resource :=
          ⟨resourceId, .directory, label, absolutePath, canonical, .normal, .exact, now, now⟩
        match candidate.validate crates with
        | .error _ => return .error id "invalid_resource" "invalid workspace resource"
        | .ok () =>
          match ← createOrFind id candidate "workspace conflict" with
          | .error response => return response
          | .ok resource =>
            let scopeId ← await .newUuid
            match ← storage (.ensureObservationScope
                ⟨scopeId, .vscodeWorkspace, resource.id, .active, now, now⟩) with
            | .error error => return storageError id error
            | .ok scope =>
              return .ok id (.vscodeObservationEnabled resource scope
                (canonicalWebUrlHash crates ("file://" ++ resource.canonicalLocator)))

def observationPauseResponse (id scopeId : Uuid) : Core ResponseEnvelope := do
  match ← storage (.pauseObservationScope scopeId) with
  | .ok scope => return .ok id (.observationPaused scope)
  | .error .notFound => return .error id "scope_not_found" "observation scope was not found"
  | .error error => return storageError id error

end Fubun

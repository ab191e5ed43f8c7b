import Fubun.Domain.Event

/-! Resources, web URLs and observation scopes. The `url` and `sha2` crates, and the
other crates the core computes with, are parameters. -/

namespace Fubun
open Relational

inductive ResourceKind where
  | file
  | directory
  | webPage
deriving DecidableEq, Repr

inductive ResourceScope where
  | exact
deriving DecidableEq, Repr

inductive Sensitivity where
  | normal
  | sensitive
deriving DecidableEq, Repr

structure Resource where
  id : Uuid
  kind : ResourceKind
  label : String
  locator : String
  canonicalLocator : String
  sensitivity : Sensitivity
  scope : ResourceScope
  createdAt : OffsetDateTime
  updatedAt : OffsetDateTime
deriving DecidableEq, Repr

inductive ResourceValidationError where
  | invalidLabel
  | relativePath
  | controlCharacter
  | locatorTooLong
  | invalidCanonicalPath
  | invalidWebUrl
deriving DecidableEq, Repr

def ResourceValidationError.message : ResourceValidationError → String
  | .invalidLabel => "resource label must be 1-128 characters"
  | .relativePath => "resource locator must be an absolute path"
  | .controlCharacter => "resource locator contains a NUL or control character"
  | .locatorTooLong => "resource locator exceeds 4096 bytes"
  | .invalidCanonicalPath => "resource canonical locator must be an absolute path"
  | .invalidWebUrl => "web page locator is not a valid canonical http(s) URL"

inductive WebUrlError where
  | unsupportedScheme
  | missingHost
  | userInfo
  | tooLong
  | parse
deriving DecidableEq, Repr

/-- The components of a `url::Url`. -/
structure Url where
  scheme : String
  username : String
  password : Option String
  host : Option String
  port : Option Nat
  path : String
  query : Option String
  fragment : Option String
deriving DecidableEq, Repr

inductive ExecutionMode where
  | sequential
deriving DecidableEq, Repr

inductive FailureMode where
  | stop
deriving DecidableEq, Repr

inductive ActionSpec where
  | linuxAppEnsureRunning (appId : String)
  | linuxPathOpen (resourceId : Uuid)
  | desktopNotificationShow (title body : String)
  | browserTabEnsureOpen (resourceId : Uuid)
deriving DecidableEq, Repr

structure RitualExecutionConfig where
  mode : ExecutionMode
  onFailure : FailureMode
  timeoutSeconds : Nat
deriving DecidableEq, Repr

structure RitualDefinition where
  schemaVersion : String
  name : String
  actions : List ActionSpec
  execution : RitualExecutionConfig
deriving DecidableEq, Repr

/-- The third-party crates the core computes with: `serde_json` on ritual definitions,
`sha2`, `url`, and `time`, which does not format every instant. -/
structure Crates where
  canonicalJson : RitualDefinition → Option String
  parseDefinition : String → Option RitualDefinition
  sha256Hex : String → String
  parseUrl : String → Option Url
  urlToString : Url → String
  formatRfc3339? : OffsetDateTime → Option String

def Crates.formats (crates : Crates) (t : OffsetDateTime) : Bool := (crates.formatRfc3339? t).isSome

def Crates.formatRfc3339 (crates : Crates) (t : OffsetDateTime) : String := (crates.formatRfc3339? t).getD ""

def webUrlMaxBytes : Nat := 2048

section Web
variable (crates : Crates)

def canonicalizeWebUrl (input : String) : Except WebUrlError String :=
  if input.utf8ByteSize = 0 ∨ input.utf8ByteSize > webUrlMaxBytes then
    .error (if input.utf8ByteSize > webUrlMaxBytes then .tooLong else .parse)
  else
    match crates.parseUrl input with
    | none => .error .parse
    | some url =>
      if url.scheme ≠ "http" ∧ url.scheme ≠ "https" then .error .unsupportedScheme
      else if url.username ≠ "" ∨ url.password.isSome then .error .userInfo
      else if url.host.isNone then .error .missingHost
      else
        let url := { url with query := none, fragment := none }
        let url := if url.path = "" then { url with path := "/" } else url
        let url :=
          if (url.scheme, url.port) = ("http", some 80) ∨ (url.scheme, url.port) = ("https", some 443)
          then { url with port := none } else url
        let canonical := crates.urlToString url
        if canonical.utf8ByteSize > webUrlMaxBytes then .error .tooLong else .ok canonical

def canonicalWebUrlHash (canonicalUrl : String) : String := crates.sha256Hex canonicalUrl

def webOriginPattern (canonicalUrl : String) : Except WebUrlError String :=
  match crates.parseUrl canonicalUrl with
  | none => .error .parse
  | some url =>
    match url.host with
    | none => .error .missingHost
    | some host =>
      let port := (url.port.map fun port => ":" ++ toString port).getD ""
      .ok (url.scheme ++ "://" ++ host ++ port ++ "/*")

end Web

/-- `Path::is_absolute` on Unix. -/
def isAbsolute (path : String) : Bool := path.toList.head? == some '/'

/-- A byte below 0x20 in UTF-8 is a character of its own. -/
def hasLowByte (value : String) : Bool := value.toList.any fun c => c.toNat < 0x20

def validatePathString (value : String) : Except ResourceValidationError Unit :=
  if value = "" ∨ value.utf8ByteSize > 4096 ∨ hasLowByte value then
    .error (if value.utf8ByteSize > 4096 then .locatorTooLong else .controlCharacter)
  else .ok ()

def Resource.validate (crates : Crates) (self : Resource) : Except ResourceValidationError Unit :=
  if self.label.length < 1 ∨ 128 < self.label.length then .error .invalidLabel
  else if self.kind = .webPage then
    match canonicalizeWebUrl crates self.locator with
    | .error _ => .error .invalidWebUrl
    | .ok canonical =>
      if canonical ≠ self.locator ∨ canonical ≠ self.canonicalLocator then .error .invalidWebUrl
      else .ok ()
  else do
    validatePathString self.locator
    validatePathString self.canonicalLocator
    if ! isAbsolute self.locator then .error .relativePath
    else if ! isAbsolute self.canonicalLocator then .error .invalidCanonicalPath
    else .ok ()

inductive ObservationSource where
  | browserChromium
  | vscodeWorkspace
deriving DecidableEq, Repr

inductive ObservationStatus where
  | active
  | paused
deriving DecidableEq, Repr

structure ObservationScope where
  id : Uuid
  source : ObservationSource
  resourceId : Uuid
  status : ObservationStatus
  createdAt : OffsetDateTime
  updatedAt : OffsetDateTime
deriving DecidableEq, Repr

end Fubun

import Fubun.Cli.Since
import Fubun.Concurrency.Fallible
import Fubun.Domain.Resource
import Fubun.Relational.Order

/-! `fubun browser host install` and `uninstall`, and what the native host makes of the files that they leave. -/

namespace Fubun.Cli
open Concurrency Encoding Relational

/-! ## Files -/

inductive Browser where
  | chrome
  | chromium
deriving DecidableEq, Repr

/-- The configuration that both browsers share, and the manifest of each. -/
inductive HostFile where
  | config
  | manifest (browser : Browser)
deriving DecidableEq, Repr

/-- A file holds the text of a JSON value. -/
structure File where
  contents : Json
  mode : Nat

/-- The files, the temporary beside each, and the permissions of the directory that it is in. -/
structure Files where
  directory : HostFile → Option Nat
  temporary : HostFile → Option File
  file : HostFile → Option File

namespace Files
variable (s : Files) (f : HostFile)

def setDirectory (mode : Nat) : Files := { s with directory := Function.update s.directory f (some mode) }
def setTemporary (file : Option File) : Files := { s with temporary := Function.update s.temporary f file }
def setFile (file : Option File) : Files := { s with file := Function.update s.file f file }

@[simp] theorem setDirectory_self (mode : Nat) : (s.setDirectory f mode).directory f = some mode := Function.update_self ..

@[simp] theorem setFile_self (file : Option File) : (s.setFile f file).file f = file := Function.update_self ..

theorem setFile_of_ne {f f' : HostFile} (h : f' ≠ f) (file : Option File) : (s.setFile f file).file f' = s.file f' :=
  Function.update_of_ne h ..

end Files

structure Metadata where
  isFile : Bool
  mode : Nat

inductive FsOp where
  | canonicalize (path : String)
  | metadata (path : String)
  | createDirAll (f : HostFile)
  | setDirectoryPermissions (f : HostFile) (mode : Nat)
  | fileExists (f : HostFile)
  | read (f : HostFile)
  | write (f : HostFile) (contents : Json)
  | setTemporaryPermissions (f : HostFile) (mode : Nat)
  | rename (f : HostFile)
  | setPermissions (f : HostFile) (mode : Nat)
  | removeFile (f : HostFile)

def FsRes : FsOp → Type
  | .canonicalize _ => Except CliError String
  | .metadata _ => Except CliError Metadata
  | .fileExists _ => Bool
  | .read _ => Except CliError Json
  | _ => Except CliError Unit

/-- Done, or failed with nothing changed. -/
def Attempted (s : Files) (r : Except CliError Unit) (t : Files) (done : Prop) : Prop :=
  r = .ok () ∧ done ∨ (∃ e, r = .error e) ∧ t = s

/-- What an operation answers and leaves. A failed write leaves anything in the temporary file. -/
def Files.act : (o : FsOp) → Files → FsRes o → Files → Prop
  | .canonicalize _, s, _, t => t = s
  | .metadata _, s, _, t => t = s
  | .createDirAll f, s, r, t => Attempted s r t (t = s ∧ (s.directory f).isSome ∨ s.directory f = none ∧ ∃ mode, t = s.setDirectory f mode)
  | .setDirectoryPermissions f mode, s, r, t => Attempted s r t (t = s.setDirectory f mode)
  | .fileExists f, s, r, t => r = (s.file f).isSome ∧ t = s
  | .read f, s, r, t => ((∃ e, r = .error e) ∨ ∃ file, s.file f = some file ∧ r = .ok file.contents) ∧ t = s
  | .write f contents, s, r, t =>
    r = .ok () ∧ (∃ mode, t = s.setTemporary f (some ⟨contents, mode⟩)) ∨ (∃ e, r = .error e) ∧ ∃ file, t = s.setTemporary f file
  | .setTemporaryPermissions f mode, s, r, t =>
    Attempted s r t (∃ file, s.temporary f = some file ∧ t = s.setTemporary f (some { file with mode := mode }))
  | .rename f, s, r, t =>
    Attempted s r t (∃ file, s.temporary f = some file ∧ t = (s.setTemporary f none).setFile f (some file))
  | .setPermissions f mode, s, r, t =>
    Attempted s r t (∃ file, s.file f = some file ∧ t = s.setFile f (some { file with mode := mode }))
  | .removeFile f, s, r, t => Attempted s r t (t = s.setFile f none)

/-! ## Installing -/

abbrev Fs := Fallible FsOp FsRes CliError

namespace Fs

def canonicalize (path : String) : Fs String := .attempt (.canonicalize path) id
def metadata (path : String) : Fs Metadata := .attempt (.metadata path) id
def createDirAll (f : HostFile) : Fs Unit := .attempt (.createDirAll f) id
def setDirectoryPermissions (f : HostFile) (mode : Nat) : Fs Unit := .attempt (.setDirectoryPermissions f mode) id
def fileExists (f : HostFile) : Fs Bool := .ask (FsOp.fileExists f)
def read (f : HostFile) : Fs Json := .attempt (.read f) id
def write (f : HostFile) (contents : Json) : Fs Unit := .attempt (.write f contents) id
def setTemporaryPermissions (f : HostFile) (mode : Nat) : Fs Unit := .attempt (.setTemporaryPermissions f mode) id
def rename (f : HostFile) : Fs Unit := .attempt (.rename f) id
def setPermissions (f : HostFile) (mode : Nat) : Fs Unit := .attempt (.setPermissions f mode) id
def removeFile (f : HostFile) : Fs Unit := .attempt (.removeFile f) id

end Fs

open Fs

structure BrowserHostInstall where
  browser : String
  extensionId : String
  hostPath : String

/-- 32 bytes from `a` to `p`; no byte of a longer character is one of these. -/
def isExtensionId (value : String) : Bool :=
  value.utf8ByteSize = 32 ∧ value.toList.all fun c => decide ('a' ≤ c) && decide (c ≤ 'p')

def validateExtensionId (value : String) : Except CliError Unit :=
  if ! isExtensionId value then .error .unexpectedResponse else .ok ()

def nativeHostPaths (browser : String) : Except CliError (HostFile × HostFile) :=
  if browser = "chrome" then .ok (.config, .manifest .chrome)
  else if browser = "chromium" then .ok (.config, .manifest .chromium)
  else .error .unexpectedResponse

def asStr : Json → Option String
  | .string s => some s
  | _ => none

def configuredIds (value : Json) : List String :=
  match value.field? "allowed_extension_ids" with
  | some (.array values) => values.filterMap asStr
  | _ => []

def configJson (ids : List String) : Json := .object [("allowed_extension_ids", .array (ids.map .string))]

def manifestJson (hostPath extensionId : String) : Json :=
  .object [("name", .string "dev.fubun.browser"), ("description", .string "Fubun browser integration"),
    ("path", .string hostPath), ("type", .string "stdio"),
    ("allowed_origins", .array [.string ("chrome-extension://" ++ extensionId ++ "/")])]

def atomicPrivateWrite (f : HostFile) (contents : Json) : Fs Unit := do
  createDirAll f
  write f contents
  setTemporaryPermissions f 0o600
  rename f
  setPermissions f 0o600

def withId (ids : List String) (extensionId : String) : List String :=
  orderBy (fun a b => decide (a ≤ b)) (if ids.contains extensionId then ids else ids ++ [extensionId])

def requireExecutable (hostPath : String) (hostMetadata : Metadata) : Except CliError Unit :=
  if ! isAbsolute hostPath ∨ ! hostMetadata.isFile ∨ hostMetadata.mode &&& 0o111 = 0 then .error .unexpectedResponse else .ok ()

def installedIds (configPath : HostFile) : Fs (List String) := do
  if ← fileExists configPath then return configuredIds (← read configPath)
  else return []

def installNativeHost (args : BrowserHostInstall) : Fs Unit := do
  Fallible.of (validateExtensionId args.extensionId)
  let hostPath ← canonicalize args.hostPath
  let hostMetadata ← metadata hostPath
  Fallible.of (requireExecutable hostPath hostMetadata)
  let (configPath, manifestPath) ← Fallible.of (nativeHostPaths args.browser)
  createDirAll configPath
  setDirectoryPermissions configPath 0o700
  let ids ← installedIds configPath
  atomicPrivateWrite configPath (configJson (withId ids args.extensionId))
  createDirAll manifestPath
  setDirectoryPermissions manifestPath 0o700
  atomicPrivateWrite manifestPath (manifestJson hostPath args.extensionId)

def uninstallNativeHost (browser : String) : Fs Unit := do
  let (configPath, manifestPath) ← Fallible.of (nativeHostPaths browser)
  if ← fileExists manifestPath then removeFile manifestPath
  let otherBrowser := if browser = "chrome" then "chromium" else "chrome"
  let otherPaths ← Fallible.of (nativeHostPaths otherBrowser)
  let otherManifestExists ← fileExists otherPaths.2
  let configExists ← fileExists configPath
  if configExists && ! otherManifestExists then removeFile configPath

/-! ## The native host -/

inductive HostConfigError where
  | io
  | json
  | text (message : String)
deriving DecidableEq, Repr

/-- `AllowedOrigins` from a value, which may be written as an object or as a sequence. -/
def allowedOrigins : Json → Option (List String)
  | .object [("allowed_extension_ids", .array values)] => values.mapM asStr
  | .array [.array values] => values.mapM asStr
  | _ => none

def loadAllowedIds (s : Files) : Except HostConfigError (List String) :=
  match s.directory .config with
  | none => .error .io
  | some mode =>
    if mode &&& 0o077 ≠ 0 then .error (.text "native host config directory must be private")
    else
      match s.file .config with
      | none => .error .io
      | some file =>
        if file.mode &&& 0o077 ≠ 0 then .error (.text "native host config must not be group/world accessible")
        else
          match allowedOrigins file.contents with
          | none => .error .json
          | some ids =>
            if ids = [] ∨ 32 < ids.length ∨ ids.dedup.length ≠ ids.length ∨ ids.any (! isExtensionId ·) then
              .error (.text "invalid allowed extension id configuration")
            else .ok ids

def validateOrigin (origin : String) : Except String String :=
  match stripPrefix "chrome-extension://".toList origin.toList with
  | none => .error "invalid caller scheme"
  | some value =>
    match stripSuffix value "/".toList with
    | none => .error "caller origin must end with /"
    | some id => if ! isExtensionId (.ofList id) then .error "invalid extension id" else .ok (.ofList id)

end Fubun.Cli

import Fubun.Concurrency.Fallible
import Fubun.Domain.Ritual
import Fubun.Encoding.Text
import Fubun.Protocol

/-! The Linux adapter: what it does with a request. What it asks of the file system and of the processes may be answered in
any way, and differently each time. -/

namespace Fubun.LinuxAdapter
open Concurrency Program Encoding

/-! ## What the adapter asks -/

structure Metadata where
  isFile : Bool
  isDir : Bool

inductive AdapterOp where
  | executableExists (name : String)
  | desktopEntryIds
  | applicationDirectories
  | isFile (path : String)
  | readToString (path : String)
  | processRunning (executable : String)
  | exists (path : String)
  | canonicalize (path : String)
  | metadata (path : String)
  /-- `Command::status`: whether the process started, and whether it then succeeded. -/
  | command (executable : String) (args : List String)
deriving DecidableEq

def AdapterRes : AdapterOp → Type
  | .executableExists _ | .isFile _ | .processRunning _ | .exists _ => Bool
  | .desktopEntryIds | .applicationDirectories => List String
  | .readToString _ | .canonicalize _ => Option String
  | .metadata _ => Option Metadata
  | .command .. => Option Bool

abbrev Adapter := Fallible AdapterOp AdapterRes String

def executableExists (name : String) : Adapter Bool := .ask (AdapterOp.executableExists name)
def desktopEntryIds : Adapter (List String) := .ask AdapterOp.desktopEntryIds
def applicationDirectories : Adapter (List String) := .ask AdapterOp.applicationDirectories
def isFile (path : String) : Adapter Bool := .ask (AdapterOp.isFile path)
def readToString (path : String) : Adapter (Option String) := .ask (AdapterOp.readToString path)
def processRunning (executable : String) : Adapter Bool := .ask (AdapterOp.processRunning executable)
def exists? (path : String) : Adapter Bool := .ask (AdapterOp.exists path)
def canonicalize (path : String) : Adapter (Option String) := .ask (AdapterOp.canonicalize path)
def metadata (path : String) : Adapter (Option Metadata) := .ask (AdapterOp.metadata path)

/-- `ProcessRunner::run`. -/
def run (executable : String) (args : List String) : Adapter (Option Bool) :=
  if executable ∈ ["gtk-launch", "xdg-open", "notify-send"] then .ask (AdapterOp.command executable args) else return none

/-! ## Paths -/

/-- The parts of a path, between which any number of separators may stand. -/
def pathComponents (path : String) : List (List Char) :=
  let parts := path.toList.splitOn '/'
  let named := parts.filter fun part => part ≠ [] && part ≠ ['.']
  if parts.head? = some ['.'] then ['.'] :: named else named

def samePath (path path' : String) : Bool :=
  isAbsolute path == isAbsolute path' && pathComponents path == pathComponents path'

def join (directory name : String) : String :=
  if directory = "" then name else if directory.toList.getLast? = some '/' then directory ++ name else directory ++ "/" ++ name

def fileName (path : List Char) : Option String :=
  match ((path.splitOn '/').filter fun part => part ≠ [] && part ≠ ['.']).getLast? with
  | none => none
  | some part => if part = ['.', '.'] then none else some (.ofList part)

/-! ## Desktop entries -/

def findEntryIn (appId : String) : List String → Adapter (Option String)
  | [] => return none
  | directory :: directories => do
    let path := join directory (appId ++ ".desktop")
    if ← isFile path then return some path
    else findEntryIn appId directories

def findDesktopEntry (appId : String) : Adapter (Option String) := do
  findEntryIn appId (← applicationDirectories)

/-- The name of the file that the first word of an `Exec=` line names. -/
def execBasename (line : List Char) : Option String := do
  let value ← stripPrefix "Exec=".toList line
  let word := (value.dropWhile isWhitespace).takeWhile fun c => ! isWhitespace c
  if word = [] then none else fileName word

def desktopExecBasename (path : String) : Adapter (Option String) := do
  match ← readToString path with
  | none => return none
  | some content => return (content.toList.splitOn '\n').findSome? execBasename

/-! ## Actions -/

/-- Run a tool; `failure` is for a process that does not start as for one that does not succeed. -/
def runTool (executable : String) (args : List String) (failure resultCode redactedMessage : String) : Adapter ActionResult := do
  match ← run executable args with
  | none => throw failure
  | some success => if success then return ⟨.succeeded, resultCode, redactedMessage⟩ else throw failure

def ensureRunning (appId : String) : Adapter ActionResult :=
  match validateAppId appId with
  | .error _ => throw "invalid desktop entry id"
  | .ok () => do
    match ← findDesktopEntry appId with
    | none => throw "desktop entry not found"
    | some entry =>
      match ← desktopExecBasename entry with
      | none => throw "desktop entry has no fixed executable"
      | some executable =>
        if ← processRunning executable then return ⟨.skipped, "already_running", "application already running"⟩
        else if ! (← executableExists "gtk-launch") then throw "gtk-launch is unavailable"
        else runTool "gtk-launch" [appId] "application launch failed" "launched" "application launch requested"

def isUnchanged (path : String) : Adapter Bool :=
  if ! isAbsolute path then return false
  else do
    if ! (← exists? path) then return false
    else
      match ← canonicalize path with
      | none => return false
      | some value => return samePath value path

def kindMatches (kind : ResourceKind) (m : Metadata) : Bool :=
  match kind with
  | .file => m.isFile
  | .directory => m.isDir
  | .webPage => false

def openPath (resourceId : Uuid) (resource : Option ResolvedResource) : Adapter ActionResult :=
  match resource with
  | none => throw "resolved resource is required"
  | some resource =>
    if resource.resourceId ≠ resourceId then throw "resource identity mismatch"
    else do
      if ! (← isUnchanged resource.canonicalLocator) then throw "resource changed"
      else
        match ← metadata resource.canonicalLocator with
        | none => throw "resource unavailable"
        | some m =>
          if ! kindMatches resource.kind m then throw "resource type changed"
          else if ! (← executableExists "xdg-open") then throw "xdg-open is unavailable"
          else runTool "xdg-open" [resource.canonicalLocator] "path open failed" "opened" "path open requested"

def executeAction (action : ActionSpec) (resource : Option ResolvedResource) : Adapter ActionResult :=
  match action.validate with
  | .error _ => throw "action validation failed"
  | .ok () =>
    match action with
    | .linuxAppEnsureRunning appId => ensureRunning appId
    | .linuxPathOpen resourceId => openPath resourceId resource
    | .desktopNotificationShow title body => do
      if ! (← executableExists "notify-send") then throw "notify-send is unavailable"
      else runTool "notify-send" [title, body] "notification failed" "sent" "notification sent"
    | .browserTabEnsureOpen _ => throw "browser action is not supported by the Linux adapter"

/-! ## Requests -/

inductive AdapterRequestBody where
  | actionExecute (action : ActionSpec) (resolvedResource : Option ResolvedResource)
  | status
  | eventAck (ack : EventAck)
deriving DecidableEq

structure AdapterRequestEnvelope where
  protocolVersion : ProtocolVersion
  requestId : Uuid
  actionExecutionId : Uuid
  body : AdapterRequestBody
deriving DecidableEq

def collectStatus : Adapter AdapterStatusSnapshot := do
  let gtkLaunch ← executableExists "gtk-launch"
  let xdgOpen ← executableExists "xdg-open"
  let notifySend ← executableExists "notify-send"
  let entries ← desktopEntryIds
  return ⟨[⟨"gtk-launch", gtkLaunch⟩, ⟨"xdg-open", xdgOpen⟩, ⟨"notify-send", notifySend⟩], entries, []⟩

def handleBody : AdapterRequestBody → Adapter AdapterResponseBody
  | .actionExecute action resource => do
    tryCatch (.actionResult <$> executeAction action resource) fun message =>
      return .actionResult ⟨.failed, "action_failed", message⟩
  | .status | .eventAck _ => .status <$> collectStatus

def handleRequest (request : AdapterRequestEnvelope) : Adapter AdapterResponseEnvelope := do
  return ⟨currentProtocolVersion, request.requestId, request.actionExecutionId, ← handleBody request.body⟩

end Fubun.LinuxAdapter

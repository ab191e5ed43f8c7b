import Fubun.Extensions.Workspace
import Fubun.Vscode.Sequence

/-! The VS Code extension: its commands and the runs that a change of the workspace folders starts, over
one adapter session. Each `await` ends a step. What `globalState` was updated with can be read at once,
and the session is there before it is first asked for. -/

namespace Fubun.Vscode
open Encoding Extensions Concurrency.Machine

/-! ## What the extension keeps -/

/-- Where a run of `observe` stands, by what it awaits. -/
inductive ObserveStage where
  | realpath
  | showInputBox (path : String)
  | enable (path : String)
  | workspaceMapping (mapping : WorkspaceMapping)
  /-- The update of the last of so many keys. -/
  | update (mapping : WorkspaceMapping) (keys : Nat)
  | setContext (mapping : WorkspaceMapping)
  | start (mapping : WorkspaceMapping) (call : Nat)
  | emit (call : Nat)
  | showMessage

inductive EmitStage where
  | realpath (mapping : WorkspaceMapping)
  | start (mapping : WorkspaceMapping) (call : Nat)
  | emit (call : Nat)

inductive StopStage where
  | update (scopeId : Option String) (keys : Nat)
  | setContext (scopeId : Option String)
  | pause
  | showMessage

inductive Run where
  | absent
  | observe (stage : ObserveStage)
  | emitIfRegistered (stage : EmitStage)
  | stop (stage : StopStage)
  | ended

inductive ExtensionEntry where
  | observed (n : Nat)
  | changed (n : Nat)
  | stopped (n : Nat)
  /-- A run of `stop` has taken away the last key. -/
  | cleared (n : Nat)
  /-- A run has called `start` on the session. -/
  | started (n : Nat)

structure ExtensionState where
  session : SessionState
  resourceId : Option String
  scopeId : Option String
  pathHash : Option String
  lastEventAt : Int
  count : Nat
  runs : Nat → Run
  log : List ExtensionEntry

/-- What a run finds when it goes on: whether what it awaited was rejected, and else what it resolved to;
and the clock, which is read twice. -/
structure Finding where
  rejected : Bool
  path : String
  label : Option String
  response : Option Json
  now : Int
  later : Int
  out : Outside

inductive ExtensionEvent where
  | observe (hasFolder : Bool)
  | workspaceFoldersChanged (hasFolder : Bool)
  | stop
  | resume (n : Nat) (finding : Finding)
  | session (e : SessionEvent)

/-- What happens to a session by itself, without a call from the extension. -/
def SessionEvent.isInternal : SessionEvent → Bool
  | .start _ | .stop | .emitWorkspaceOpened .. => false
  | _ => true

namespace ExtensionState
variable (crates : Crates) (o : VscodeAdapterSessionOptions) (s : ExtensionState)

def init (session : SessionState) (resourceId scopeId pathHash : Option String) : ExtensionState where
  session := session
  resourceId := resourceId
  scopeId := scopeId
  pathHash := pathHash
  lastEventAt := 0
  count := 0
  runs := fun _ => .absent
  log := []

def setRun (n : Nat) (run : Run) : ExtensionState := { s with runs := Function.update s.runs n run }

def setSession (session : SessionState) : ExtensionState := { s with session := session }

def setResourceId (value : Option String) : ExtensionState := { s with resourceId := value }

def setScopeId (value : Option String) : ExtensionState := { s with scopeId := value }

def setPathHash (value : Option String) : ExtensionState := { s with pathHash := value }

def record (entry : ExtensionEntry) : ExtensionState := { s with log := s.log ++ [entry] }

def begin (entry : ExtensionEntry) (run : Run) : ExtensionState :=
  ({ s with count := s.count + 1 }.record entry).setRun s.count run

/-- The mapping, when every key of it is there. -/
def mapping? : Option WorkspaceMapping :=
  match s.resourceId, s.scopeId, s.pathHash with
  | some resourceId, some scopeId, some pathHash => some ⟨resourceId, scopeId, pathHash⟩
  | _, _, _ => none

/-- `session().start()`. -/
def startSession (n : Nat) (out : Outside) : ExtensionState := (s.setSession (s.session.start o out)).record (.started n)

/-- `sendWorkspaceEvent`, with the call it makes when it makes one. -/
def sendWorkspaceEvent (mapping : WorkspaceMapping) (finding : Finding) : ExtensionState × Option Nat :=
  if finding.now - s.lastEventAt < 5000 then (s, none)
  else
    ({ s with lastEventAt := finding.now }.setSession (s.session.emitWorkspaceOpened mapping.resourceId finding.later),
      some s.session.calls)

/-! ## Runs -/

def observe (hasFolder : Bool) : ExtensionState :=
  s.begin (.observed s.count) (if hasFolder then .observe .realpath else .ended)

def emitIfRegistered (hasFolder : Bool) : ExtensionState :=
  s.begin (.changed s.count) (match hasFolder, s.mapping? with
    | true, some mapping => .emitIfRegistered (.realpath mapping)
    | _, _ => .ended)

def stop : ExtensionState :=
  ((s.setSession s.session.stop).setResourceId none).begin (.stopped s.count) (.stop (.update s.scopeId 1))

def resumeObserve (n : Nat) (finding : Finding) : ObserveStage → Option ExtensionState
  | .realpath => some (s.setRun n (if finding.rejected then .ended else .observe (.showInputBox finding.path)))
  | .showInputBox path =>
    some (s.setRun n (if finding.rejected || finding.label.all (·.isEmpty) then .ended else .observe (.enable path)))
  | .enable path =>
    if finding.rejected then some (s.setRun n .ended)
    else
      match Extensions.workspaceMapping crates finding.response path with
      | .ok mapping => some (s.setRun n (.observe (.workspaceMapping mapping)))
      | .error _ => some (s.setRun n .ended)
  | .workspaceMapping mapping =>
    if finding.rejected then some (s.setRun n .ended)
    else some ((s.setResourceId (some mapping.resourceId)).setRun n (.observe (.update mapping 1)))
  | .update mapping keys =>
    if finding.rejected then some (s.setRun n .ended)
    else if keys = 1 then some ((s.setScopeId (some mapping.scopeId)).setRun n (.observe (.update mapping 2)))
    else if keys = 2 then some ((s.setPathHash (some mapping.pathHash)).setRun n (.observe (.update mapping 3)))
    else some (s.setRun n (.observe (.setContext mapping)))
  | .setContext mapping =>
    if finding.rejected then some (s.setRun n .ended)
    else some ((s.startSession o n finding.out).setRun n (.observe (.start mapping s.session.calls)))
  | .start mapping call =>
    match s.session.settlement? (.call call) with
    | some (.ok ()) =>
      match s.sendWorkspaceEvent mapping finding with
      | (s', some call) => some (s'.setRun n (.observe (.emit call)))
      | (s', none) => some (s'.setRun n (.observe .showMessage))
    | some (.error _) => some (s.setRun n .ended)
    | none => none
  | .emit call =>
    match s.session.settlement? (.call call) with
    | some (.ok ()) => some (s.setRun n (.observe .showMessage))
    | some (.error _) => some (s.setRun n .ended)
    | none => none
  | .showMessage => some (s.setRun n .ended)

def resumeEmit (n : Nat) (finding : Finding) : EmitStage → Option ExtensionState
  | .realpath mapping =>
    if finding.rejected || canonicalUrlHash crates ("file://" ++ finding.path) != mapping.pathHash then
      some (s.setRun n .ended)
    else some ((s.startSession o n finding.out).setRun n (.emitIfRegistered (.start mapping s.session.calls)))
  | .start mapping call =>
    match s.session.settlement? (.call call) with
    | some (.ok ()) =>
      match s.sendWorkspaceEvent mapping finding with
      | (s', some call) => some (s'.setRun n (.emitIfRegistered (.emit call)))
      | (s', none) => some (s'.setRun n .ended)
    | some (.error _) => some (s.setRun n .ended)
    | none => none
  | .emit call => (s.session.settlement? (.call call)).map fun _ => s.setRun n .ended

def resumeStop (n : Nat) (finding : Finding) : StopStage → ExtensionState
  | .update scopeId keys =>
    if finding.rejected then s.setRun n .ended
    else if keys = 1 then (s.setScopeId none).setRun n (.stop (.update scopeId 2))
    else if keys = 2 then ((s.setPathHash none).record (.cleared n)).setRun n (.stop (.update scopeId 3))
    else s.setRun n (.stop (.setContext scopeId))
  | .setContext scopeId =>
    if finding.rejected then s.setRun n .ended
    else s.setRun n (.stop (if scopeId.isSome then .pause else .showMessage))
  | .pause => s.setRun n (if finding.rejected then .ended else .stop .showMessage)
  | .showMessage => s.setRun n .ended

def resume (n : Nat) (finding : Finding) : Option ExtensionState :=
  match s.runs n with
  | .observe stage => s.resumeObserve crates o n finding stage
  | .emitIfRegistered stage => s.resumeEmit crates o n finding stage
  | .stop stage => some (s.resumeStop n finding stage)
  | .absent | .ended => none

def step (s : ExtensionState) : ExtensionEvent → Option ExtensionState
  | .observe hasFolder => some (s.observe hasFolder)
  | .workspaceFoldersChanged hasFolder => some (s.emitIfRegistered hasFolder)
  | .stop => some s.stop
  | .resume n finding => s.resume crates o n finding
  | .session e => if e.isInternal then (SessionState.step o s.session e).map s.setSession else none

end ExtensionState
end Fubun.Vscode

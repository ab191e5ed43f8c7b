import Fubun.LinuxAdapter.Requests

/-! What the Linux adapter runs for a request: one fixed command at most, with operands that are as they came in the
request. What a tool makes of an operand with a dash in front is not looked at. -/

namespace Fubun.LinuxAdapter
open Concurrency Program Fallible

variable {α : Type} {τ : List (Answered AdapterRes)} {A : List (Answered AdapterRes) → Prop}
  {ok : List (Answered AdapterRes) → AdapterOp → Prop} {appId title body : String} {resourceId : Uuid}
  {resource : Option ResolvedResource}

def AdapterOp.isCommand : AdapterOp → Bool
  | .command .. => true
  | _ => false

def Quiet (τ : List (Answered AdapterRes)) : Prop := ∀ x ∈ τ, x.op.isCommand = false

theorem Quiet.snoc {o : AdapterOp} {r : AdapterRes o} (h : Quiet τ) (ho : o.isCommand = false) : Quiet (τ ++ [⟨o, r⟩]) := by
  intro x hx
  rcases List.mem_append.mp hx with hx | hx
  · exact h x hx
  · obtain rfl := List.mem_singleton.mp hx
    exact ho

/-- It was found that the path is its own canonical path, and that it is of this kind. -/
def Checked (τ : List (Answered AdapterRes)) (path : String) (kind : ResourceKind) : Prop :=
  isAbsolute path = true ∧ (∃ value, ⟨.canonicalize path, some value⟩ ∈ τ ∧ samePath value path = true) ∧
    ∃ m, ⟨.metadata path, some m⟩ ∈ τ ∧ kindMatches kind m = true

/-- The command that is fixed for a request, and its operands. -/
def Fixed (τ : List (Answered AdapterRes)) (executable : String) (args : List String) : AdapterRequestBody → Prop
  | .actionExecute (.linuxAppEnsureRunning appId) _ =>
    executable = "gtk-launch" ∧ args = [appId] ∧ validateAppId appId = .ok ()
  | .actionExecute (.linuxPathOpen resourceId) resource =>
    executable = "xdg-open" ∧ ∃ resolved, resource = some resolved ∧ resolved.resourceId = resourceId ∧
      args = [resolved.canonicalLocator] ∧ Checked τ resolved.canonicalLocator resolved.kind
  | .actionExecute (.desktopNotificationShow title body) _ =>
    executable = "notify-send" ∧ args = [title, body] ∧ (ActionSpec.desktopNotificationShow title body).validate = .ok ()
  | _ => False

def Allowed (request : AdapterRequestBody) (τ : List (Answered AdapterRes)) (o : AdapterOp) : Prop :=
  ∀ executable args, o = .command executable args → Quiet τ ∧ Fixed τ executable args request

theorem allowed_ask {request : AdapterRequestBody} {o : AdapterOp} (ho : o.isCommand = false) : Allowed request τ o := by
  rintro executable args rfl
  exact nomatch ho

/-! ## The parts of a request -/

section Parts
variable {request : AdapterRequestBody}

theorem traces_ask {o : AdapterOp} (ho : o.isCommand = false) :
    Traces (Allowed request) Quiet (ask o : Adapter (AdapterRes o)) fun _ => Quiet :=
  .ask (fun _ _ => allowed_ask ho) fun _ _ h => h.snoc ho

theorem traces_findEntryIn (appId : String) (directories : List String) :
    Traces (Allowed request) Quiet (findEntryIn appId directories) fun _ => Quiet := by
  induction directories with
  | nil => exact .pure fun _ h => h
  | cons directory directories ih =>
    refine .bind (traces_ask rfl) fun found => ?_
    cases found with
    | true => exact .pure fun _ h => h
    | false => exact ih

theorem traces_desktopExecBasename (path : String) :
    Traces (Allowed request) Quiet (desktopExecBasename path) fun _ => Quiet := by
  refine .bind (traces_ask rfl) fun content => ?_
  cases content with
  | none => exact .pure fun _ h => h
  | some content => exact .pure fun _ h => h

theorem traces_collectStatus : Traces (Allowed request) Quiet collectStatus fun _ => Quiet :=
  .bind (traces_ask rfl) fun _ => .bind (traces_ask rfl) fun _ => .bind (traces_ask rfl) fun _ => .bind (traces_ask rfl) fun _ =>
    .pure fun _ h => h

theorem traces_run {executable : String} {args : List String}
    (h : ∀ τ, A τ → Quiet τ ∧ Fixed τ executable args request) :
    Traces (Allowed request) A (run executable args) fun _ _ => True := by
  by_cases hregistered : executable ∈ ["gtk-launch", "xdg-open", "notify-send"]
  · have hrun : run executable args = ask (AdapterOp.command executable args) := if_pos hregistered
    rw [hrun]
    apply Traces.ask
    · rintro τ hτ _ _ heq
      obtain ⟨rfl, rfl⟩ := AdapterOp.command.inj heq
      exact h τ hτ
    · exact fun _ _ _ => trivial
  · have hrun : run executable args = pure none := if_neg hregistered
    rw [hrun]
    exact .pure fun _ _ => trivial

theorem traces_runTool {executable : String} {args : List String} (failure resultCode redactedMessage : String)
    (h : ∀ τ, A τ → Quiet τ ∧ Fixed τ executable args request) :
    Traces (Allowed request) A (runTool executable args failure resultCode redactedMessage) fun _ _ => True := by
  refine .bind (traces_run h) fun status => ?_
  rcases status with _ | _ | _
  · exact .throw
  · exact .throw
  · exact .pure fun _ _ => trivial

end Parts

theorem traces_ensureRunning (appId : String) (resource : Option ResolvedResource) :
    Traces (Allowed (.actionExecute (.linuxAppEnsureRunning appId) resource)) Quiet (ensureRunning appId) fun _ _ => True := by
  unfold ensureRunning
  cases hvalid : validateAppId appId with
  | error e => exact .throw
  | ok =>
    refine .bind (.bind (traces_ask rfl) fun directories => traces_findEntryIn appId directories) fun entry => ?_
    cases entry with
    | none => exact .throw
    | some entry =>
      refine .bind (traces_desktopExecBasename entry) fun executable => ?_
      cases executable with
      | none => exact .throw
      | some executable =>
        refine .bind (traces_ask rfl) fun running => ?_
        cases running with
        | true => exact .pure fun _ _ => trivial
        | false =>
          refine .bind (traces_ask rfl) fun available => ?_
          cases available with
          | false => exact .throw
          | true => exact traces_runTool _ _ _ fun τ hτ => ⟨hτ, rfl, rfl, hvalid⟩

def Unchanged (path : String) (τ : List (Answered AdapterRes)) : Prop :=
  isAbsolute path = true ∧ ∃ value, ⟨.canonicalize path, some value⟩ ∈ τ ∧ samePath value path = true

theorem traces_isUnchanged {request : AdapterRequestBody} (path : String) :
    Traces (Allowed request) Quiet (isUnchanged path) fun unchanged τ => Quiet τ ∧ (unchanged = true → Unchanged path τ) := by
  unfold isUnchanged
  cases habsolute : isAbsolute path with
  | false => exact .pure fun τ hτ => ⟨hτ, nofun⟩
  | true =>
    refine .bind (traces_ask rfl) fun found => ?_
    cases found with
    | false => exact .pure fun τ hτ => ⟨hτ, nofun⟩
    | true =>
      have hcanonicalize : Traces (Allowed request) Quiet (canonicalize path)
          fun value τ => Quiet τ ∧ ⟨.canonicalize path, value⟩ ∈ τ :=
        .ask (fun _ _ => allowed_ask rfl) fun τ r h => ⟨h.snoc rfl, List.mem_append_right _ (List.mem_singleton_self _)⟩
      refine .bind hcanonicalize fun value => ?_
      cases value with
      | none => exact .pure fun τ hτ => ⟨hτ.1, nofun⟩
      | some value => exact .pure fun τ hτ => ⟨hτ.1, fun hsame => ⟨habsolute, value, hτ.2, hsame⟩⟩

theorem traces_openPath (resourceId : Uuid) (resource : Option ResolvedResource) :
    Traces (Allowed (.actionExecute (.linuxPathOpen resourceId) resource)) Quiet (openPath resourceId resource)
      fun _ _ => True := by
  unfold openPath
  cases resource with
  | none => exact .throw
  | some resolved =>
    dsimp only
    split_ifs with hid
    · exact .throw
    refine .bind (traces_isUnchanged resolved.canonicalLocator) fun unchanged => ?_
    cases unchanged with
    | false => exact .throw
    | true =>
      -- the kind is read of the path whose canonical form has just been compared
      have hmetadata : Traces (Allowed (.actionExecute (.linuxPathOpen resourceId) (some resolved)))
          (fun τ => Quiet τ ∧ (true = true → Unchanged resolved.canonicalLocator τ)) (metadata resolved.canonicalLocator)
          fun m τ => Quiet τ ∧ Unchanged resolved.canonicalLocator τ ∧ ⟨.metadata resolved.canonicalLocator, m⟩ ∈ τ := by
        apply Traces.ask fun _ _ => allowed_ask rfl
        rintro τ r ⟨hquiet, hunchanged⟩
        obtain ⟨habsolute, value, hvalue, hsame⟩ := hunchanged rfl
        exact ⟨hquiet.snoc rfl, ⟨habsolute, value, List.mem_append_left _ hvalue, hsame⟩,
          List.mem_append_right _ (List.mem_singleton_self _)⟩
      refine .bind hmetadata fun m => ?_
      cases m with
      | none => exact .throw
      | some m =>
        dsimp only
        cases hkind : kindMatches resolved.kind m with
        | false => exact .throw
        | true =>
          have hchecked : Traces (Allowed (.actionExecute (.linuxPathOpen resourceId) (some resolved)))
              (fun τ => Quiet τ ∧ Unchanged resolved.canonicalLocator τ ∧ ⟨.metadata resolved.canonicalLocator, some m⟩ ∈ τ)
              (executableExists "xdg-open") fun _ τ => Quiet τ ∧ Checked τ resolved.canonicalLocator resolved.kind := by
            apply Traces.ask fun _ _ => allowed_ask rfl
            rintro τ r ⟨hquiet, ⟨habsolute, value, hvalue, hsame⟩, hm⟩
            exact ⟨hquiet.snoc rfl, habsolute, ⟨value, List.mem_append_left _ hvalue, hsame⟩,
              m, List.mem_append_left _ hm, hkind⟩
          refine .bind hchecked fun available => ?_
          cases available with
          | false => exact .throw
          | true =>
            exact traces_runTool _ _ _ fun τ hτ => ⟨hτ.1, rfl, resolved, rfl, not_ne_iff.mp hid, rfl, hτ.2⟩

theorem traces_executeAction (action : ActionSpec) (resource : Option ResolvedResource) :
    Traces (Allowed (.actionExecute action resource)) Quiet (executeAction action resource) fun _ _ => True := by
  unfold executeAction
  cases hvalid : action.validate with
  | error e => exact .throw
  | ok =>
    cases action with
    | linuxAppEnsureRunning appId => exact traces_ensureRunning appId resource
    | linuxPathOpen resourceId => exact traces_openPath resourceId resource
    | desktopNotificationShow title body =>
      refine .bind (traces_ask rfl) fun available => ?_
      cases available with
      | false => exact .throw
      | true => exact traces_runTool _ _ _ fun τ hτ => ⟨hτ, rfl, rfl, hvalid⟩
    | browserTabEnsureOpen resourceId => exact .throw

theorem traces_handleRequest (request : AdapterRequestEnvelope) :
    Traces (Allowed request.body) Quiet (handleRequest request) fun _ _ => True := by
  have hbody : Traces (Allowed request.body) Quiet (handleBody request.body) fun _ _ => True := by
    cases hrequest : request.body with
    | actionExecute action resource =>
      exact .tryCatch_pure (.bind (traces_executeAction action resource) fun _ => .pure fun _ _ => trivial)
    | status =>
      exact .bind traces_collectStatus fun _ => .pure fun _ _ => trivial
    | eventAck ack =>
      exact .bind traces_collectStatus fun _ => .pure fun _ _ => trivial
  exact .bind hbody fun _ => .pure fun _ _ => trivial

/-! ## Commands that do run -/

theorem leads_handleRequest {request : AdapterRequestEnvelope} {action : ActionSpec} {o : AdapterOp}
    {k : AdapterRes o → Program AdapterOp AdapterRes (Except String ActionResult)}
    (hbody : request.body = .actionExecute action resource) (h : Leads (executeAction action resource).run τ (.call o k)) :
    ∃ k', Leads (handleRequest request).run τ (.call o k') := by
  unfold handleRequest
  rw [hbody]
  exact ⟨_, ((h.bind _).bind _).bind _⟩

theorem leads_notification (hvalid : (ActionSpec.desktopNotificationShow title body).validate = .ok ()) : ∃ τ k,
    Leads (executeAction (.desktopNotificationShow title body) resource).run τ (.call (.command "notify-send" [title, body]) k) := by
  unfold executeAction
  rw [hvalid]
  exact ⟨[⟨.executableExists "notify-send", true⟩], _, .cons (.nil _)⟩

/-- The application has an entry, it is not running, and the tool is there. -/
theorem leads_launch (hvalid : validateAppId appId = .ok ()) : ∃ τ k,
    Leads (executeAction (.linuxAppEnsureRunning appId) resource).run τ (.call (.command "gtk-launch" [appId]) k) := by
  have haction : (ActionSpec.linuxAppEnsureRunning appId).validate = .ok () := hvalid
  have hexec : ("Exec=app".toList.splitOn '\n').findSome? execBasename = some "app" := by decide +kernel
  let path := join "/usr/share/applications" (appId ++ ".desktop")
  have hentry : Leads (findDesktopEntry appId).run
      [⟨.applicationDirectories, ["/usr/share/applications"]⟩, ⟨.isFile path, true⟩] (.ret (.ok (some path))) :=
    .cons (.cons (.nil _))
  have hbasename : Leads (desktopExecBasename path).run [⟨.readToString path, some "Exec=app"⟩] (.ret (.ok (some "app"))) := by
    rw [← hexec]
    exact .cons (.nil _)
  unfold executeAction
  rw [haction]
  dsimp only
  unfold ensureRunning
  rw [hvalid]
  apply exists_leads_bind hentry
  apply exists_leads_bind hbasename
  exact ⟨[⟨.processRunning "app", false⟩, ⟨.executableExists "gtk-launch", true⟩], _, .cons (.cons (.nil _))⟩

/-! ## Options -/

/-- A tool reads an operand with a dash in front as an option. -/
def isOption (arg : String) : Bool := arg.toList.head? == some '-'

/-- A request runs one fixed command at most, and none of its operands is an option. -/
def Confined (request : AdapterRequestEnvelope) : Prop :=
  ∀ τ executable args status q, Leads (handleRequest request).run (τ ++ [⟨.command executable args, status⟩]) q →
    Quiet τ ∧ Fixed τ executable args request.body ∧ ∀ arg ∈ args, isOption arg = false

/-- The texts of the request that a tool would be given do not begin with a dash. -/
def PlainOperands : AdapterRequestBody → Prop
  | .actionExecute (.linuxAppEnsureRunning appId) _ => validateAppId appId = .ok () → isOption appId = false
  | .actionExecute (.desktopNotificationShow title body) _ =>
    (ActionSpec.desktopNotificationShow title body).validate = .ok () → isOption title = false ∧ isOption body = false
  | _ => True

theorem isOption_of_isAbsolute {path : String} (h : isAbsolute path = true) : isOption path = false := by
  rw [isOption, eq_of_beq h]
  rfl

theorem Fixed.plain {request : AdapterRequestBody} {executable : String} {args : List String} (h : Fixed τ executable args request)
    (hplain : PlainOperands request) : ∀ arg ∈ args, isOption arg = false := by
  cases request with
  | status => exact h.elim
  | eventAck ack => exact h.elim
  | actionExecute action resource =>
    cases action with
    | linuxAppEnsureRunning appId =>
      obtain ⟨-, rfl, hvalid⟩ := h
      exact List.forall_mem_singleton.mpr (hplain hvalid)
    | linuxPathOpen resourceId =>
      obtain ⟨-, resolved, -, -, rfl, habsolute, -⟩ := h
      exact List.forall_mem_singleton.mpr (isOption_of_isAbsolute habsolute)
    | desktopNotificationShow title body =>
      obtain ⟨-, rfl, hvalid⟩ := h
      exact List.forall_mem_cons.mpr ⟨(hplain hvalid).1, List.forall_mem_singleton.mpr (hplain hvalid).2⟩
    | browserTabEnsureOpen resourceId => exact h.elim

/-- Every request runs one fixed command at most with the operands it came with; a tool can read one of them as an option
just when its text begins with a dash. -/
theorem confined_iff (request : AdapterRequestEnvelope) : Confined request ↔ PlainOperands request.body := by
  constructor
  · intro h
    have hrun : ∀ {action : ActionSpec} {resource : Option ResolvedResource} {executable : String} {args : List String},
        request.body = .actionExecute action resource →
        (∃ τ k, Leads (executeAction action resource).run τ (.call (.command executable args) k)) →
        ∀ arg ∈ args, isOption arg = false := by
      rintro action resource executable args hbody ⟨τ, k, hl⟩
      obtain ⟨k', hl'⟩ := leads_handleRequest hbody hl
      exact (h τ executable args none _ (hl'.snoc none)).2.2
    cases hbody : request.body with
    | status => trivial
    | eventAck ack => trivial
    | actionExecute action resource =>
      cases action with
      | linuxAppEnsureRunning appId =>
        intro hvalid
        exact hrun hbody (leads_launch hvalid) appId List.mem_cons_self
      | linuxPathOpen resourceId => trivial
      | desktopNotificationShow title body =>
        intro hvalid
        have hplain := hrun hbody (leads_notification hvalid)
        exact ⟨hplain title List.mem_cons_self, hplain body (List.mem_cons_of_mem _ List.mem_cons_self)⟩
      | browserTabEnsureOpen resourceId => trivial
  · intro hplain τ executable args status q hl
    have hquiet : Quiet [] := fun _ hx => nomatch hx
    obtain ⟨hbefore, hfixed⟩ := (traces_handleRequest request).snoc hquiet hl executable args rfl
    exact ⟨hbefore, hfixed, hfixed.plain hplain⟩

/-- A notification whose title is an option of the tool. -/
theorem option_not_confined : ¬ ∀ request, Confined request := by
  intro h
  let request : AdapterRequestEnvelope :=
    ⟨currentProtocolVersion, 1, 2, .actionExecute (.desktopNotificationShow "--help" "text") none⟩
  have hvalid : (ActionSpec.desktopNotificationShow "--help" "text").validate = .ok () := by decide +kernel
  obtain ⟨τ, k, hl⟩ : ∃ τ k, Leads (executeAction (.desktopNotificationShow "--help" "text") none).run τ
      (.call (.command "notify-send" ["--help", "text"]) k) := leads_notification hvalid
  obtain ⟨k', hl'⟩ : ∃ k', Leads (handleRequest request).run τ (.call (.command "notify-send" ["--help", "text"]) k') :=
    leads_handleRequest rfl hl
  have hplain := (h request τ "notify-send" ["--help", "text"] none _ (hl'.snoc none)).2.2 "--help" List.mem_cons_self
  exact absurd hplain (by decide +kernel)

end Fubun.LinuxAdapter

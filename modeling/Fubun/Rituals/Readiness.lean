import Fubun.Concurrency.Evaluation
import Fubun.Rituals.Dispatch

/-! Preview and preflight look at the same things. Both ask of every action
whether it is ready; a preview lists what is missing, a preflight stops there,
and a preflight asks besides whether the action is approved. -/

namespace Fubun
open Relational Concurrency Program

namespace Files

def kindMatches (files : Files) (resource : Resource) : Bool :=
  match files.metadata resource.canonicalLocator with
  | some .file => resource.kind == .file
  | some .directory => resource.kind == .directory
  | _ => false

/-- What the core asks of the path of a stored resource. -/
def keeps (files : Files) (resource : Resource) : Bool :=
  (files.metadata resource.canonicalLocator).isSome &&
    files.canonicalize resource.canonicalLocator == some resource.canonicalLocator &&
      files.kindMatches resource

end Files

namespace World

def resourceReady (crates : Crates) (w : World) : ActionSpec → Bool
  | .linuxPathOpen resourceId =>
    match getResource resourceId w.db with
    | .ok resource => w.files.keeps resource
    | .error _ => false
  | .linuxAppEnsureRunning _ | .desktopNotificationShow .. => true
  | .browserTabEnsureOpen resourceId =>
    match getResource resourceId w.db with
    | .ok resource => resource.kind == .webPage && webLocatorMatches crates resource &&
        observes (listObservationScopes crates (some .browserChromium) w.db) resourceId
    | .error _ => false

/-- An action could be dispatched, and its resource is ready. -/
def ready (crates : Crates) (w : World) (action : ActionSpec) : Bool :=
  (w.connections.findEligible (.fromAction action)).isOk && w.resourceReady crates action

def approved (w : World) (version : RitualVersion) (action : ActionSpec) : Prop :=
  ∃ approval ∈ w.db.ritualApprovals, approval.covers version action = true

/-- Connection `i` runs a program that no other interrupts. -/
def evaluate {α : Type} (crates : Crates) (i : Nat) (ch : Choice) (p : Core α) (w : World) :
    Option (α × World) := Program.evaluate (fun o => act crates i o ch) p w

end World

section Readiness
variable {crates : Crates} {w w' : World} {i : Nat} {ch : Choice} {ritual : Ritual}
  {version : RitualVersion} {definition : RitualDefinition} {action : ActionSpec}

/-! ## Reads -/

section
variable {α β : Type}

theorem World.evaluate_bind {p : Core α} {f : α → Core β} {a : α}
    (h : w.evaluate crates i ch p = some (a, w')) :
    w.evaluate crates i ch (p >>= f) = w'.evaluate crates i ch (f a) := evaluate_bind_of h

theorem World.evaluate_await {o : Op} {f : o.Res → Core β} {r : o.Res}
    (h : World.act crates i o ch w = some (r, w')) :
    w.evaluate crates i ch (await o >>= f) = w'.evaluate crates i ch (f r) := evaluate_perform_of h

theorem select_intact (f : Database → Except StorageError α) (db : Database) :
    select f ⟨db, none⟩ = (f db, ⟨db, none⟩) := by
  unfold select statement Command.statement query
  cases f db <;> rfl

end

theorem act_getResource (hfault : ch.fault = none) (resourceId : Uuid) :
    World.act crates i (.storage (.getResource resourceId)) ch w =
      some (getResource resourceId w.db, w) := by
  simp only [World.act, World.store, executeOperation, hfault, select_intact]

theorem act_listObservationScopes (hfault : ch.fault = none) (source : Option ObservationSource) :
    World.act crates i (.storage (.listObservationScopes source)) ch w =
      some (.ok (listObservationScopes crates source w.db), w) := by
  simp only [World.act, World.store, executeOperation, hfault, select_intact]

theorem act_listApprovals (hfault : ch.fault = none) (versionId : Uuid) :
    World.act crates i (.storage (.listApprovals versionId)) ch w =
      some (.ok (listApprovals versionId w.db), w) := by
  simp only [World.act, World.store, executeOperation, hfault, select_intact]

theorem pathExists_evaluate (path : String) :
    w.evaluate crates i ch (pathExists path) = some ((w.files.metadata path).isSome, w) := rfl

theorem canonicalPathMatches_evaluate (resource : Resource) :
    w.evaluate crates i ch (canonicalPathMatches resource) =
      some (w.files.canonicalize resource.canonicalLocator == some resource.canonicalLocator, w) := rfl

theorem pathKindMatches_evaluate (resource : Resource) :
    w.evaluate crates i ch (pathKindMatches resource) = some (w.files.kindMatches resource, w) := by
  refine (World.evaluate_await (r := w.files.metadata resource.canonicalLocator) rfl).trans ?_
  unfold Files.kindMatches
  cases w.files.metadata resource.canonicalLocator with
  | none => rfl
  | some kind => cases kind <;> rfl

/-- `path.exists() && check`, for a check that is a read. -/
theorem ifExists_evaluate {path : String} {check : Core Bool} {b : Bool}
    (h : w.evaluate crates i ch check = some (b, w)) :
    w.evaluate crates i ch (ifExists path check) = some ((w.files.metadata path).isSome && b, w) := by
  refine (World.evaluate_bind (pathExists_evaluate path)).trans ?_
  cases (w.files.metadata path).isSome with
  | false => rfl
  | true => exact h

/-! ## Preview -/

@[simp] theorem warnUnless_eq_nil {holds : Bool} {message : String} :
    warnUnless holds message = [] ↔ holds = true := by
  cases holds <;> simp [warnUnless]

/-- The preview of a path has nothing to warn of exactly when the path is kept. -/
theorem inspectPath_evaluate (resource : Resource) :
    ∃ findings, w.evaluate crates i ch (inspectPath resource) = some (findings, w) ∧
      (findings.warnings = [] ↔ w.files.keeps resource = true) := by
  refine ⟨_, ((World.evaluate_bind (pathExists_evaluate _)).trans
    ((World.evaluate_bind (ifExists_evaluate (canonicalPathMatches_evaluate _))).trans
      (World.evaluate_bind (ifExists_evaluate (pathKindMatches_evaluate _))))), ?_⟩
  simp only [Files.keeps, List.append_eq_nil_iff, warnUnless_eq_nil, Bool.and_eq_true]
  tauto

theorem inspectWebPage_evaluate (hfault : ch.fault = none) (resourceId : Uuid) (resource : Resource) :
    ∃ findings, w.evaluate crates i ch (inspectWebPage crates resourceId resource) =
        some (.ok findings, w) ∧
      (findings.warnings = [] ↔ (resource.kind == .webPage && webLocatorMatches crates resource &&
        observes (listObservationScopes crates (some .browserChromium) w.db) resourceId) = true) := by
  refine ⟨_, World.evaluate_await (act_listObservationScopes hfault _), ?_⟩
  simp only [List.append_eq_nil_iff, warnUnless_eq_nil, Bool.and_eq_true]
  tauto

theorem inspectAction_evaluate (hfault : ch.fault = none) (eligible : Bool) (action : ActionSpec) :
    ∃ findings, w.evaluate crates i ch (inspectAction crates eligible action) = some (.ok findings, w) ∧
      (eligible = true → (findings.warnings = [] ↔ w.resourceReady crates action = true)) := by
  cases action with
  | linuxAppEnsureRunning appId =>
    refine ⟨_, rfl, fun heligible => ?_⟩
    rw [warnUnless_eq_nil, heligible]
    exact Iff.rfl
  | desktopNotificationShow title body => exact ⟨_, rfl, fun _ => iff_of_true rfl rfl⟩
  | linuxPathOpen resourceId =>
    have hread : World.act crates i (.storage (.getResource resourceId)) ch w = _ :=
      act_getResource hfault resourceId
    cases hfound : getResource resourceId w.db with
    | error e =>
      rw [hfound] at hread
      refine ⟨_, World.evaluate_await hread, fun _ => ?_⟩
      simp [World.resourceReady, hfound]
    | ok resource =>
      rw [hfound] at hread
      obtain ⟨findings, hf, hready⟩ := inspectPath_evaluate resource
      refine ⟨findings, (World.evaluate_await hread).trans (World.evaluate_bind hf), fun _ => ?_⟩
      simpa only [World.resourceReady, hfound] using hready
  | browserTabEnsureOpen resourceId =>
    have hread : World.act crates i (.storage (.getResource resourceId)) ch w = _ :=
      act_getResource hfault resourceId
    cases hfound : getResource resourceId w.db with
    | error e =>
      rw [hfound] at hread
      refine ⟨_, World.evaluate_await hread, fun _ => ?_⟩
      simp [World.resourceReady, hfound]
    | ok resource =>
      rw [hfound] at hread
      obtain ⟨findings, hf, hready⟩ := inspectWebPage_evaluate hfault resourceId resource
      refine ⟨findings, (World.evaluate_await hread).trans hf, fun _ => ?_⟩
      simpa only [World.resourceReady, hfound] using hready

/-- One round of the preview loop warns exactly when the action is not ready. -/
theorem previewAction_evaluate (hfault : ch.fault = none) (index : Nat)
    (hvalid : action.validate = .ok ()) :
    ∃ entry warnings, w.evaluate crates i ch (previewAction crates index action) =
        some (.ok (entry, warnings), w) ∧
      (warnings = [] ↔ w.ready crates action = true) := by
  have hfind : World.act crates i (.findEligible (.fromAction action)) ch w =
    some (w.connections.findEligible (.fromAction action), w) := rfl
  obtain ⟨findings, hinspect, hready⟩ := inspectAction_evaluate hfault
    (w.connections.findEligible (.fromAction action)).isOk action
  refine ⟨_, _, (World.evaluate_await hfind).trans (World.evaluate_bind hinspect), ?_⟩
  simp only [List.map_eq_nil_iff, List.append_eq_nil_iff, hvalid]
  unfold World.ready
  cases hfound : w.connections.findEligible (.fromAction action) with
  | error e => simp [Except.isOk, Except.toBool]
  | ok adapter =>
    rw [hfound] at hready
    simpa [Except.isOk, Except.toBool] using hready rfl

theorem previewActions_evaluate (hfault : ch.fault = none) {actions : List ActionSpec}
    (hvalid : ∀ action ∈ actions, action.validate = .ok ()) (index : Nat) :
    ∃ entries warnings, w.evaluate crates i ch (previewActions crates index actions) =
        some (.ok (entries, warnings), w) ∧
      (warnings = [] ↔ ∀ action ∈ actions, w.ready crates action = true) := by
  induction actions generalizing index with
  | nil => exact ⟨[], [], rfl, iff_of_true rfl fun _ ha => (nomatch ha)⟩
  | cons action actions ih =>
    rw [List.forall_mem_cons] at hvalid
    obtain ⟨entry, warnings, hround, hready⟩ := previewAction_evaluate hfault index hvalid.1
    obtain ⟨entries, more, hrest, hreadies⟩ := ih hvalid.2 (index + 1)
    refine ⟨entry :: entries, warnings ++ more,
      (World.evaluate_bind hround).trans (World.evaluate_bind hrest), ?_⟩
    rw [List.append_eq_nil_iff, hready, hreadies, List.forall_mem_cons]

theorem buildPreview_evaluate (hfault : ch.fault = none)
    (hvalid : ∀ action ∈ definition.actions, action.validate = .ok ()) :
    ∃ preview, w.evaluate crates i ch (buildPreview crates ritual version definition) =
        some (.ok preview, w) ∧
      (preview.executable = true ↔ ∀ action ∈ definition.actions, w.ready crates action = true) := by
  obtain ⟨entries, warnings, hrun, hready⟩ := previewActions_evaluate hfault hvalid 0
  refine ⟨_, World.evaluate_bind hrun, ?_⟩
  rw [← hready]
  exact List.isEmpty_iff

/-! ## Preflight -/

theorem guard_evaluate {check : Core Bool} {next : Core (Except CoreError Unit)} {b : Bool} {P : Prop}
    (error : CoreError) (hcheck : w.evaluate crates i ch check = some (b, w))
    (hnext : ∃ outcome, w.evaluate crates i ch next = some (outcome, w) ∧ (outcome = .ok () ↔ P)) :
    ∃ outcome, w.evaluate crates i ch
        (check >>= fun holds => if ! holds then pure (.error error) else next) = some (outcome, w) ∧
      (outcome = .ok () ↔ b = true ∧ P) := by
  have hrun := World.evaluate_bind (f := fun holds => if ! holds then pure (.error error) else next) hcheck
  cases b with
  | false => exact ⟨.error error, hrun, by simp⟩
  | true =>
    obtain ⟨outcome, heval, hok⟩ := hnext
    exact ⟨outcome, hrun.trans heval, by simpa using hok⟩

theorem preflightResource_evaluate (hfault : ch.fault = none) (action : ActionSpec) :
    ∃ outcome, w.evaluate crates i ch (preflightResource crates action) = some (outcome, w) ∧
      (outcome = .ok () ↔ w.resourceReady crates action = true) := by
  cases action with
  | linuxAppEnsureRunning appId => exact ⟨_, rfl, iff_of_true rfl rfl⟩
  | desktopNotificationShow title body => exact ⟨_, rfl, iff_of_true rfl rfl⟩
  | linuxPathOpen resourceId =>
    have hread : World.act crates i (.storage (.getResource resourceId)) ch w = _ :=
      act_getResource hfault resourceId
    cases hfound : getResource resourceId w.db with
    | error e =>
      rw [hfound] at hread
      refine ⟨_, World.evaluate_await hread, ?_⟩
      simp [World.resourceReady, hfound]
    | ok resource =>
      rw [hfound] at hread
      have hpassed : ∃ outcome, w.evaluate crates i ch (pure (.ok ()) : Core (Except CoreError Unit)) =
          some (outcome, w) ∧ (outcome = .ok () ↔ True) := ⟨.ok (), rfl, iff_of_true rfl trivial⟩
      -- the checks stand from the last to the first
      have hkind := guard_evaluate ("resource_changed", "resource type changed")
        (pathKindMatches_evaluate resource) hpassed
      have hpath := guard_evaluate ("resource_changed", "resource canonical path changed")
        (canonicalPathMatches_evaluate resource) hkind
      obtain ⟨outcome, heval, hok⟩ := guard_evaluate ("resource_changed", "resource no longer exists")
        (pathExists_evaluate resource.canonicalLocator) hpath
      refine ⟨outcome, (World.evaluate_await hread).trans heval, hok.trans ?_⟩
      simp [World.resourceReady, hfound, Files.keeps, and_assoc]
  | browserTabEnsureOpen resourceId =>
    have hread : World.act crates i (.storage (.getResource resourceId)) ch w = _ :=
      act_getResource hfault resourceId
    cases hfound : getResource resourceId w.db with
    | error e =>
      rw [hfound] at hread
      refine ⟨_, World.evaluate_await hread, ?_⟩
      simp [World.resourceReady, hfound]
    | ok resource =>
      rw [hfound] at hread
      have hscopes : World.act crates i (.storage (.listObservationScopes (some .browserChromium))) ch w =
        _ := act_listObservationScopes hfault _
      -- what the page comes to with all its scopes read
      let observed := observes (listObservationScopes crates (some .browserChromium) w.db) resourceId
      let outcome : Except CoreError Unit :=
        if resource.kind ≠ .webPage ∨ (! webLocatorMatches crates resource) = true then
          .error ("resource_changed", "web resource canonical URL changed")
        else if (! observed) = true then
          .error ("observation_inactive", "browser observation scope is not active")
        else .ok ()
      refine ⟨outcome, (World.evaluate_await hread).trans ?_, ?_⟩
      · dsimp only [outcome]
        split_ifs with hpage hobserved
        · rfl
        · refine (World.evaluate_await hscopes).trans ?_
          exact congrArg (World.evaluate crates i ch · w) (if_pos hobserved)
        · refine (World.evaluate_await hscopes).trans ?_
          exact congrArg (World.evaluate crates i ch · w) (if_neg hobserved)
      · simp only [World.resourceReady, hfound, outcome, observed]
        split_ifs <;> simp_all
        exact fun hkind hlocator => by simp_all

def unapproved : CoreError := ("ritual_not_approved", "ritual version approval is missing or stale")

/-- One round of the preflight loop passes exactly when the action is ready and approved. -/
theorem preflightAction_evaluate (hfault : ch.fault = none) (approvals : List Approval)
    (hvalid : action.validate = .ok ()) :
    ∃ outcome, w.evaluate crates i ch (preflightAction crates version approvals action) =
        some (outcome, w) ∧
      (outcome = .ok () ↔ w.ready crates action = true ∧
        approvals.any (·.covers version action) = true) ∧
      (w.ready crates action = true → outcome = .ok () ∨ outcome = .error unapproved) := by
  have hfind : World.act crates i (.findEligible (.fromAction action)) ch w =
    some (w.connections.findEligible (.fromAction action), w) := rfl
  unfold preflightAction World.ready
  rw [hvalid, validateAction_ok]
  cases hfound : w.connections.findEligible (.fromAction action) with
  | error e =>
    rw [hfound] at hfind
    refine ⟨_, World.evaluate_await hfind, ?_⟩
    simp [Except.isOk, Except.toBool]
  | ok adapter =>
    rw [hfound] at hfind
    cases hcovered : approvals.any (·.covers version action) with
    | false =>
      exact ⟨.error unapproved, World.evaluate_await hfind, by simp⟩
    | true =>
      obtain ⟨outcome, heval, hok⟩ := preflightResource_evaluate hfault action
      refine ⟨outcome, (World.evaluate_await hfind).trans heval, ?_, ?_⟩
      · simp [Except.isOk, Except.toBool, hok]
      · exact fun hready => .inl (hok.mpr (Bool.and_eq_true_iff.mp hready).2)

theorem preflightActions_evaluate (hfault : ch.fault = none) (approvals : List Approval)
    {actions : List ActionSpec} (hvalid : ∀ action ∈ actions, action.validate = .ok ()) :
    ∃ outcome, w.evaluate crates i ch (preflightActions crates version approvals actions) =
        some (outcome, w) ∧
      (outcome = .ok () ↔ (∀ action ∈ actions, w.ready crates action = true) ∧
        ∀ action ∈ actions, approvals.any (·.covers version action) = true) ∧
      ((∀ action ∈ actions, w.ready crates action = true) →
        outcome = .ok () ∨ outcome = .error unapproved) := by
  induction actions with
  | nil => exact ⟨.ok (), rfl, by simp, fun _ => .inl rfl⟩
  | cons action actions ih =>
    rw [List.forall_mem_cons] at hvalid
    obtain ⟨first, hround, hpass, honly⟩ :=
      preflightAction_evaluate hfault approvals hvalid.1
    obtain ⟨outcome, hrest, hpasses, hrestOnly⟩ := ih hvalid.2
    simp only [List.forall_mem_cons]
    cases first with
    | error e =>
      refine ⟨.error e, World.evaluate_bind hround, ?_, fun hready => honly hready.1⟩
      simp only [reduceCtorEq, false_iff] at hpass ⊢
      exact fun h => hpass ⟨h.1.1, h.2.1⟩
    | ok u =>
      have hfirst := hpass.mp rfl
      refine ⟨outcome, (World.evaluate_bind hround).trans hrest, ?_, fun hready => hrestOnly hready.2⟩
      rw [hpasses]
      exact ⟨fun h => ⟨⟨hfirst.1, h.1⟩, hfirst.2, h.2⟩, fun h => ⟨h.1.2, h.2.2⟩⟩

theorem listed_covers : (listApprovals version.id w.db).any (·.covers version action) = true ↔
    w.approved version action := by
  unfold World.approved listApprovals
  rw [List.any_eq_true]
  constructor
  · rintro ⟨approval, hm, hcovers⟩
    exact ⟨approval, (List.mem_filter.mp (mem_orderBy.mp hm)).1, hcovers⟩
  · rintro ⟨approval, hm, hcovers⟩
    have hid := (covers_iff.mp hcovers).ritualVersionId
    exact ⟨approval, mem_orderBy.mpr (List.mem_filter.mpr ⟨hm, beq_iff_eq.mpr hid⟩), hcovers⟩

theorem preflight_evaluate (hfault : ch.fault = none)
    (hvalid : ∀ action ∈ definition.actions, action.validate = .ok ()) :
    ∃ outcome, w.evaluate crates i ch (preflight crates version definition) = some (outcome, w) ∧
      (outcome = .ok () ↔ (∀ action ∈ definition.actions, w.ready crates action = true) ∧
        ∀ action ∈ definition.actions, w.approved version action) ∧
      ((∀ action ∈ definition.actions, w.ready crates action = true) →
        outcome = .ok () ∨ outcome = .error unapproved) := by
  obtain ⟨outcome, heval, hok, honly⟩ :=
    preflightActions_evaluate hfault (listApprovals version.id w.db) hvalid
  refine ⟨outcome, (World.evaluate_await (act_listApprovals hfault version.id)).trans heval, ?_, honly⟩
  simpa only [listed_covers] using hok

/-! ## Preview against preflight -/

theorem validateActions_forall {index : Nat} {previous : Option ActionSpec} {actions : List ActionSpec}
    (h : validateActions index previous actions = .ok ()) :
    ∀ action ∈ actions, action.validate = .ok () := by
  induction actions generalizing index previous with
  | nil => exact fun _ ha => nomatch ha
  | cons action actions ih =>
    unfold validateActions at h
    split at h
    · exact nomatch h
    rename_i hvalid
    split_ifs at h
    exact List.forall_mem_cons.mpr ⟨hvalid, ih h⟩

theorem RitualDefinition.validate_actions (h : definition.validate = .ok ()) :
    ∀ action ∈ definition.actions, action.validate = .ok () := by
  unfold RitualDefinition.validate at h
  split_ifs at h
  exact validateActions_forall h

/-- In one state a preview calls a valid ritual executable exactly when the preflight of the same
version fails at most for want of approvals; both leave the state as it is. -/
theorem preview_agrees_with_preflight (hvalid : definition.validate = .ok ()) (hfault : ch.fault = none) :
    ∃ preview outcome,
      w.evaluate crates i ch (buildPreview crates ritual version definition) = some (.ok preview, w) ∧
      w.evaluate crates i ch (preflight crates version definition) = some (outcome, w) ∧
      ((∀ action ∈ definition.actions, w.approved version action) →
        (outcome = .ok () ↔ preview.executable = true)) ∧
      (preview.executable = true → ∀ code message, outcome = .error (code, message) →
        code = "ritual_not_approved") := by
  have hactions := RitualDefinition.validate_actions hvalid
  obtain ⟨preview, hpreview, hexecutable⟩ := buildPreview_evaluate hfault hactions
  obtain ⟨outcome, hpreflight, hok, honly⟩ := preflight_evaluate hfault hactions
  refine ⟨preview, outcome, hpreview, hpreflight, ?_, ?_⟩
  · intro happroved
    rw [hok, hexecutable]
    exact ⟨And.left, fun hready => ⟨hready, happroved⟩⟩
  · intro hready code message herror
    rcases honly (hexecutable.mp hready) with h | h
    · exact nomatch h.symm.trans herror
    · exact (Prod.mk.inj (Except.error.inj (herror.symm.trans h))).1

end Readiness

namespace Sample

def ritual : Ritual := ⟨2, "Focus", .active, 3, ⟨0, 0⟩, ⟨0, 0⟩⟩

def version : RitualVersion :=
  ⟨3, 2, 1, ritualSchemaVersion, json now, crates.sha256Hex (json now), ⟨0, 0⟩⟩

def approvedWorld : World :=
  { world with
    connections := [⟨1, hello, ⟨0, 0⟩, ⟨0, 0⟩⟩]
    db := { Database.empty with
      rituals := [ritual]
      ritualVersions := [version]
      ritualApprovals := [approvalOf version ⟨0, 0⟩ 4 (notify now)] } }

end Sample

theorem preview_agrees_with_preflight_approved : ∃ preview outcome,
    Sample.approvedWorld.evaluate Sample.crates 0 ⟨0, none, .timeout⟩
        (buildPreview Sample.crates Sample.ritual Sample.version (Sample.definition Sample.now)) =
      some (.ok preview, Sample.approvedWorld) ∧
    Sample.approvedWorld.evaluate Sample.crates 0 ⟨0, none, .timeout⟩
        (preflight Sample.crates Sample.version (Sample.definition Sample.now)) =
      some (outcome, Sample.approvedWorld) ∧
    (outcome = .ok () ↔ preview.executable = true) ∧
    (preview.executable = true → ∀ code message, outcome = .error (code, message) →
      code = "ritual_not_approved") := by
  have hvalid : (Sample.definition Sample.now).validate = .ok () := by decide +kernel
  have hfault : (⟨0, none, .timeout⟩ : Choice).fault = none := rfl
  obtain ⟨preview, outcome, hpreview, hpreflight, hagree, honly⟩ :=
    preview_agrees_with_preflight hvalid hfault
  have happroved : ∀ action ∈ (Sample.definition Sample.now).actions,
      Sample.approvedWorld.approved Sample.version action := by
    intro action ha
    obtain rfl := List.mem_singleton.mp ha
    exact ⟨_, List.mem_singleton_self _, by decide +kernel⟩
  exact ⟨preview, outcome, hpreview, hpreflight, hagree happroved, honly⟩

end Fubun

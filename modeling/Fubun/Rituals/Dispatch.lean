import Fubun.Rituals.Activation

/-! A run dispatches only actions of an activated version, each under an approval
of that version for that action. -/

namespace Fubun
open Relational Concurrency Program System

section Dispatch
variable {crates : Crates} {w₀ : World} {ok : State → Concurrency.Event Nat Frame Choice Drift → Prop}
  {c : State} {id ritualId : Uuid} {version : RitualVersion} {definition : RitualDefinition}
  {τ : List (Answered Op.Res)} {o : Op}

/-! ## The preflight -/

theorem preflightActions_covers {approvals : List Approval} {actions : List ActionSpec}
    (h : Leads (preflightActions crates version approvals actions) τ (.ret (.ok ()))) :
    ∀ action ∈ actions, ∃ approval ∈ approvals, approval.Approves version action := by
  induction actions generalizing τ with
  | nil => exact fun _ ha => nomatch ha
  | cons action actions ih =>
    obtain ⟨τ₁, r, τ₂, -, hround, hrest⟩ := leads_bind_ret h
    split at hrest
    · exact nomatch (leads_ret_iff.mp hrest).2
    have hcovered : ∃ approval ∈ approvals, approval.Approves version action := by
      unfold preflightAction at hround
      split at hround
      · exact nomatch (leads_ret_iff.mp hround).2
      split at hround
      · exact nomatch (leads_ret_iff.mp hround).2
      rcases leads_perform_bind.mp hround with ⟨-, heq⟩ | ⟨found, τ₃, -, hround⟩
      · exact nomatch heq
      split at hround
      · exact nomatch (leads_ret_iff.mp hround).2
      split at hround
      · exact nomatch (leads_ret_iff.mp hround).2
      rename_i hany
      have hany' : approvals.any (·.covers version action) = true := by simpa using hany
      obtain ⟨approval, hm, hcovers⟩ := List.any_eq_true.mp hany'
      exact ⟨approval, hm, covers_iff.mp hcovers⟩
    intro a ha
    rcases List.mem_cons.mp ha with rfl | ha
    · exact hcovered
    · exact ih hrest a ha

/-- A preflight that passes has read an approval for every action of the version. -/
theorem preflight_covers (h : Leads (preflight crates version definition) τ (.ret (.ok ()))) :
    ∃ approvals, ⟨.storage (.listApprovals version.id), .ok approvals⟩ ∈ τ ∧
      ∀ action ∈ definition.actions, ∃ approval ∈ approvals, approval.Approves version action := by
  unfold preflight at h
  rcases leads_perform_bind.mp h with ⟨-, heq⟩ | ⟨r, τ', hτ, h⟩
  · exact nomatch heq
  split at h
  · exact nomatch (leads_ret_iff.mp h).2
  rename_i approvals
  exact ⟨approvals, hτ ▸ List.mem_cons_self, preflightActions_covers h⟩

/-! ## The path of a run -/

/-- A run that acts has read an active ritual and passed its preflight. -/
theorem run_path {k : o.Res → Core ResponseEnvelope} {target : Target} (ht : target ∈ o.targets)
    (h : Leads (ritualRunResponse crates id ritualId) τ (.call o k)) :
    ∃ ritual version definition preflighted rest,
      τ = ⟨.storage (.getRitual ritualId), .ok (ritual, version, definition)⟩ ::
        (preflighted ++ rest) ∧
      ritual.status = .active ∧ Leads (preflight crates version definition) preflighted (.ret (.ok ())) ∧
      Leads (startAndExecute id ritualId version definition) rest (.call o k) := by
  have ho : ¬ o.targets ⊆ [] := not_targets_nil ht
  unfold ritualRunResponse at h
  obtain ⟨r, τ', hτ, h⟩ := leads_perform_call h (by rintro rfl; exact nomatch ht)
  split at h
  · exact absurd h not_leads_ret_call
  · exact absurd h not_leads_ret_call
  rename_i ritual version definition
  split at h
  · exact absurd h not_leads_ret_call
  rename_i hactive
  obtain ⟨preflighted, r, rest, hτ', hpreflight, h⟩ := (preflight_actsOn _ _).leads_past ho h
  split at h
  · exact absurd h not_leads_ret_call
  refine ⟨ritual, version, definition, preflighted, rest, by rw [hτ, hτ'], ?_, hpreflight, h⟩
  cases hs : ritual.status with
  | active => rfl
  | _ => simp [notActiveMessage, hs] at hactive

/-- Everything a run issues after its preflight has a property that the execution keeps. -/
theorem startAndExecute_issues {P : Op → Prop} (hP : HoldsOfRun P definition.actions)
    (hid : P .newUuid) (hstart : ∀ execution steps, P (.storage (.startExecution execution steps))) :
    (startAndExecute id ritualId version definition).Issues P := by
  have hsteps : ∀ executionId now index actions,
      (newSteps executionId now index actions).Issues P := by
    intro executionId now index actions
    induction actions generalizing index with
    | nil => trivial
    | cons action actions ih => exact .perform_bind hid fun _ => (ih _).bind fun _ _ => trivial
  unfold startAndExecute
  refine .perform_bind hP.nowUtc fun now => .perform_bind hid fun executionId =>
    (hsteps _ _ _ _).bind fun steps _ => .perform_bind (hstart _ _) fun r => ?_
  split
  · trivial
  · trivial
  · refine (executeSteps_issues hP _ _).bind fun r _ => ?_
    split <;> trivial

theorem dispatched_mem {action : ActionSpec} {resolved : Option ResolvedResource} {timeout : Nat}
    {k : (Op.execute action resolved timeout).Res → Core ResponseEnvelope}
    (h : Leads (startAndExecute id ritualId version definition) τ
      (.call (.execute action resolved timeout) k)) : action ∈ definition.actions := by
  have hissues : (startAndExecute id ritualId version definition).Issues fun o =>
      ∀ action resolved timeout, o = .execute action resolved timeout → action ∈ definition.actions := by
    refine startAndExecute_issues ?_ (fun _ _ _ h => nomatch h) (fun _ _ _ _ _ h => nomatch h)
    constructor
    case execute =>
      intro action ha resolved timeout action' resolved' timeout' heq
      obtain ⟨rfl, -, -⟩ := Op.execute.inj heq
      exact ha
    all_goals simp
  exact (hissues.leads h).1 action resolved timeout rfl

theorem run_of_targets {body : RequestBody} {target : Target} (ht : target ∈ body.targets)
    (hrun : target ∈ executionTargets) : ∃ ritualId, body = .ritualRun ritualId := by
  simp only [executionTargets, List.mem_cons, List.not_mem_nil, or_false] at hrun
  cases body with
  | ritualRun ritualId => exact ⟨ritualId, rfl⟩
  | _ => rcases hrun with rfl | rfl | rfl | rfl <;> simp [RequestBody.targets] at ht

theorem leads_run {frame : Frame} {k : o.Res → Core Reply} {target : Target}
    (ht : target ∈ o.targets) (hrun : target ∈ executionTargets)
    (h : Leads (handleFrame crates frame) τ (.call o k)) :
    ∃ request ritualId k', frame = .request request ∧ request.body = .ritualRun ritualId ∧
      Leads (ritualRunResponse crates request.requestId ritualId) τ (.call o k') := by
  have hframe := leads_targets h ht
  cases frame with
  | request request =>
    obtain ⟨k', hbody⟩ := leads_request h
    obtain ⟨ritualId, hb⟩ := run_of_targets hframe hrun
    rw [hb] at hbody
    exact ⟨request, ritualId, k', rfl, hb, hbody⟩
  | adapter hello token response =>
    simp only [executionTargets, List.mem_cons, List.not_mem_nil, or_false] at hrun
    rcases hrun with rfl | rfl | rfl | rfl <;> simp [Frame.targets] at hframe
  | _ => cases hframe

/-! ## What is dispatched is approved -/

/-- The decoding of a stored definition is the definition that was encoded. -/
def Crates.Decodes (crates : Crates) : Prop :=
  ∀ definition json, crates.canonicalJson definition = some json →
    crates.parseDefinition json = some definition

/-- Whoever is about to hand an action to an adapter, the action is in the definition of an
activated version, and a stored approval of that version is for it. -/
theorem dispatch_approved {now : Int} {instant : Nat} {files : Files} {path : String}
    (hdecodes : crates.Decodes)
    (h : (daemon crates).Reaches (World.start now instant files path) Anywhere c) {i : Nat}
    {action : ActionSpec} {resolved : Option ResolvedResource} {timeout : Nat}
    (hnext : c.next? i = some (.execute action resolved timeout)) :
    ∃ version definition, Defined c.log version definition ∧ action ∈ definition.actions ∧
      Activated crates c.log version ∧
      ∃ approval ∈ c.world.db.ritualApprovals, approval.Approves version action := by
  obtain ⟨t, k, ht, hrest⟩ := Config.next?_eq_some.mp hnext
  have hleads := (h.traced ht).leads
  rw [hrest] at hleads
  have htarget : Target.adapter ∈ (Op.execute action resolved timeout).targets := List.mem_singleton_self _
  obtain ⟨request, ritualId, k', -, -, hrun⟩ := leads_run htarget (by simp [executionTargets]) hleads
  obtain ⟨ritual, version, definition, preflighted, rest, htrace, -, hpreflight, hstart⟩ :=
    run_path htarget hrun
  obtain ⟨approvals, hlisted, hcovers⟩ := preflight_covers hpreflight
  have haction := dispatched_mem hstart
  -- what the run read is still in the tables
  have hread := h.persistent (lasting crates) (h.mem_log ht (htrace ▸ List.mem_cons_self))
  have hlisted' : ⟨.storage (.listApprovals version.id), .ok approvals⟩ ∈ t.trace :=
    htrace ▸ List.mem_cons_of_mem _ (List.mem_append_left _ hlisted)
  have hlist := h.persistent (lasting crates) (h.mem_log ht hlisted')
  obtain ⟨hversion, hparse⟩ := hread
  obtain ⟨stored, hdefined, hstores⟩ := version_defined h rfl hversion
  obtain rfl : stored = definition := by
    have hdecoded := hdecodes stored _ hstores.canonicalJson
    exact Option.some.inj (hdecoded.symm.trans hparse)
  obtain ⟨approval, hm, happroves⟩ := hcovers action haction
  have hstored : approval ∈ c.world.db.ritualApprovals := hlist approval hm
  -- the approval was written by an activation of a version with its id, so of this one
  obtain ⟨version', hversion', hid, hactivated⟩ := approval_activated h rfl hstored
  obtain rfl : version' = version :=
    (reaches_keys h rfl).ritualVersions.eq hversion' hversion (hid.trans happroves.ritualVersionId)
  exact ⟨version', stored, hdefined, haction, hactivated, approval, hstored, happroves⟩

end Dispatch

/-! ## A run -/

namespace Sample

def notify (body : String) : ActionSpec := .desktopNotificationShow "Focus" body

def definition (body : String) : RitualDefinition :=
  ⟨ritualSchemaVersion, "Focus", [notify body], ⟨.sequential, .stop, 30⟩⟩

def json (body : String) : String :=
  "\x7b\"schema_version\":\"dev.fubun.ritual/1\",\"name\":\"Focus\",\"actions\":[" ++
    "\x7b\"type\":\"desktop.notification.show.v1\",\"title\":\"Focus\",\"body\":\"" ++ body ++
    "\"\x7d],\"execution\":\x7b\"mode\":\"sequential\",\"on_failure\":\"stop\"," ++
    "\"timeout_seconds\":30\x7d\x7d"

def now : String := "Start now"
def later : String := "Start later"

/-- The crates on what the sample runs give them: two definitions, at the Unix epoch. -/
def crates : Crates where
  canonicalJson d :=
    if d = definition now then some (json now)
    else if d = definition later then some (json later) else none
  parseDefinition s :=
    if s = json now then some (definition now)
    else if s = json later then some (definition later) else none
  sha256Hex s :=
    if s = json now then "d3d0317617723a16a0859fa34c1768dc0126311ec75e549a0596074ee9f09409"
    else if s = json later then "c28e59bf415598abcddc6f6afd32ef17857ea7d60f98bae5bc4a48f0363c4ebb" else ""
  parseUrl _ := none
  urlToString url := url.path
  formatRfc3339? _ := some "1970-01-01T00:00:00Z"

theorem decodes : crates.Decodes := by
  intro d s h
  simp only [crates] at h ⊢
  split_ifs at h with hnow hlater
  · obtain rfl := Option.some.inj h
    rw [if_pos rfl, hnow]
  · obtain rfl := Option.some.inj h
    rw [if_neg (by decide), if_pos rfl, hlater]

abbrev Schedule := List (Concurrency.Event Nat Frame Choice Drift)

def world : World := .start 0 0 ⟨fun _ => none, fun _ => none⟩ "fubun.db"

/-- Connection `i` performs operations; each draws the UUID given for it. -/
def calls (i : Nat) (uuids : List Uuid) : Schedule :=
  uuids.map fun uuid => .call i ⟨uuid, none, .timeout⟩

def request (i : Nat) (body : RequestBody) (uuids : List Uuid) : Schedule :=
  .arrive i (.request ⟨currentProtocolVersion, 0, body⟩) :: calls i uuids

def served (i : Nat) (body : RequestBody) (uuids : List Uuid) : Schedule :=
  request i body uuids ++ [.answer i]

def connected (i : Nat) : Schedule :=
  [.arrive i (.first ⟨currentProtocolVersion, 0, .clientHello ⟨"fubun", "0.1.0", currentProtocolVersion⟩⟩),
    .call i ⟨0, none, .timeout⟩, .answer i]

def hello : AdapterHello :=
  ⟨linuxAdapterId, "0.1.0", 100, ["desktop.notification.show.v1"], [], ⟨[⟨"notify-send", true⟩], [], []⟩⟩

def adapterConnected (i token : Nat) : Schedule :=
  [.arrive i (.first ⟨currentProtocolVersion, 0, .adapterHello hello⟩), .call i ⟨token, none, .timeout⟩,
    .answer i]

/-- Two clients and an adapter connect, and the first client creates and activates ritual 2. -/
def activated : Schedule :=
  connected 0 ++ connected 1 ++ adapterConnected 2 1 ++
    served 0 (.ritualCreate (definition now)) [0, 2, 3, 0] ++
    served 0 (.ritualActivate 2 true) [0, 0, 0, 4, 0, 0]

def exec (es : Schedule) : Option State := (daemon crates).exec (.init world) es

end Sample

theorem dispatch_approved_notification : ∃ c version definition,
    (daemon Sample.crates).Reaches Sample.world Anywhere c ∧
      c.next? 0 = some (.execute (Sample.notify Sample.now) none 10000000000) ∧
      Defined c.log version definition ∧ Sample.notify Sample.now ∈ definition.actions ∧
      Activated Sample.crates c.log version ∧
      ∃ approval ∈ c.world.db.ritualApprovals, approval.Approves version (Sample.notify Sample.now) := by
  have hrun : (Sample.exec (Sample.activated ++
      Sample.request 0 (.ritualRun 2) [0, 0, 0, 0, 5, 6, 0, 0, 0, 0, 0])).map (·.next? 0) =
      some (some (.execute (Sample.notify Sample.now) none 10000000000)) := by decide +kernel
  obtain ⟨c, hc, hnext⟩ := Option.map_eq_some_iff.mp hrun
  have hreach := System.Reaches.init.exec hc
  obtain ⟨version, definition, hc⟩ := dispatch_approved Sample.decodes hreach hnext
  exact ⟨c, version, definition, hreach, hnext, hc⟩

end Fubun

import Fubun.Rituals.Definitions

/-! What an activation has read and checked by the time it writes, and where the
approvals in the database come from. -/

namespace Fubun
open Relational Concurrency Program

variable {crates : Crates} {w₀ : World} {ok : State → Concurrency.Event Nat Frame Choice Drift → Prop}
  {c c' : State}

/-! ## Approvals -/

/-- The approval is for this action of this version. -/
structure Approval.Approves (approval : Approval) (version : RitualVersion) (action : ActionSpec) :
    Prop where
  ritualVersionId : approval.ritualVersionId = version.id
  contentHash : approval.contentHash = version.contentHash
  actionType : approval.actionType = (approvalFields action).actionType
  capability : approval.capability = (approvalFields action).capability
  resourceId : approval.resourceId = (approvalFields action).resourceId
  appId : approval.appId = (approvalFields action).appId

theorem covers_iff {approval : Approval} {version : RitualVersion} {action : ActionSpec} :
    approval.covers version action = true ↔ approval.Approves version action := by
  simp only [Approval.covers, Bool.and_eq_true, beq_iff_eq]
  constructor
  · intro h
    exact ⟨h.1.1.1.1.1, h.1.1.1.1.2, h.1.1.1.2, h.1.1.2, h.1.2, h.2⟩
  · intro h
    exact ⟨⟨⟨⟨⟨h.ritualVersionId, h.contentHash⟩, h.actionType⟩, h.capability⟩, h.resourceId⟩, h.appId⟩

theorem approvalOf_approves (version : RitualVersion) (now : OffsetDateTime) (id : Uuid)
    (action : ActionSpec) : (approvalOf version now id action).Approves version action :=
  ⟨rfl, rfl, rfl, rfl, rfl, rfl⟩

/-- The approvals of an activation: one for each action, and all for the version. -/
theorem newApprovals_ret {version : RitualVersion} {now : OffsetDateTime} {actions : List ActionSpec}
    {τ : List (Answered Op.Res)} {approvals : List Approval}
    (h : Leads (newApprovals version now actions) τ (.ret approvals)) :
    (∀ approval ∈ approvals, approval.ritualVersionId = version.id) ∧
      ∀ action ∈ actions, ∃ approval ∈ approvals, approval.Approves version action := by
  induction actions generalizing τ approvals with
  | nil =>
    obtain ⟨-, heq⟩ := leads_ret_iff.mp h
    obtain rfl := Program.ret.inj heq
    exact ⟨fun _ h => (nomatch h), fun _ h => (nomatch h)⟩
  | cons action actions ih =>
    rcases leads_perform_bind.mp h with ⟨-, heq⟩ | ⟨id, τ', -, h⟩
    · exact nomatch heq
    obtain ⟨τ₁, more, τ₂, -, hmore, h⟩ := leads_bind_ret h
    obtain ⟨-, heq⟩ := leads_ret_iff.mp h
    obtain rfl := Program.ret.inj heq
    obtain ⟨hversion, hactions⟩ := ih hmore
    constructor
    · intro approval ha
      rcases List.mem_cons.mp ha with rfl | ha
      · rfl
      · exact hversion approval ha
    · intro a ha
      rcases List.mem_cons.mp ha with rfl | ha
      · exact ⟨_, List.mem_cons_self, approvalOf_approves _ _ _ _⟩
      · obtain ⟨approval, hm, happ⟩ := hactions a ha
        exact ⟨approval, List.mem_cons_of_mem _ hm, happ⟩

/-! ## The path of an activation -/

def PreviewedExecutable (crates : Crates) (ritual : Ritual) (version : RitualVersion)
    (definition : RitualDefinition) (previewed : List (Answered Op.Res)) : Prop :=
  ∃ preview, Leads (buildPreview crates ritual version definition) previewed (.ret (.ok preview)) ∧
    preview.executable = true

section Path
variable {id ritualId : Uuid} {approve : Bool} {τ : List (Answered Op.Res)}

/-- An activation that is at a write is about to approve the version it read, or it has done so
and is about to set the status. -/
theorem activate_path {o : Op} {k : o.Res → Core ResponseEnvelope} {target : Target}
    (ht : target ∈ o.targets)
    (h : Leads (ritualActivateResponse crates id ritualId approve) τ (.call o k)) :
    approve = true ∧ ∃ ritual version definition previewed now drawn approvals,
      PreviewedExecutable crates ritual version definition previewed ∧
      Leads (newApprovals version now definition.actions) drawn (.ret approvals) ∧
      ∃ rest, τ = ⟨.storage (.getRitual ritualId), .ok (ritual, version, definition)⟩ ::
          (previewed ++ ⟨.nowUtc, now⟩ :: (drawn ++ rest)) ∧
        ((o = .storage (.createApprovals approvals) ∧ rest = []) ∨
          (o = .storage (.setRitualStatus ritualId .active) ∧
            rest = [⟨.storage (.createApprovals approvals), .ok ()⟩])) := by
  have ho : ¬ o.targets ⊆ [] := not_targets_nil ht
  unfold ritualActivateResponse at h
  split at h
  · exact absurd h not_leads_ret_call
  rename_i happrove
  obtain ⟨r, τ', hτ, h⟩ := leads_perform_call h (by rintro rfl; exact nomatch ht)
  split at h
  · exact absurd h not_leads_ret_call
  · exact absurd h not_leads_ret_call
  rename_i ritual version definition
  obtain ⟨previewed, r, τ₂, hτ', hpreview, h⟩ := (buildPreview_actsOn _ _ _).leads_past ho h
  split at h
  · exact absurd h not_leads_ret_call
  split at h
  · exact absurd h not_leads_ret_call
  rename_i preview hexec
  obtain ⟨now, τ₃, hτ₂, h⟩ := leads_perform_call h (by rintro rfl; exact nomatch ht)
  obtain ⟨drawn, approvals, τ₄, hτ₃, hnew, h⟩ := (newApprovals_actsOn _ _ _).leads_past ho h
  refine ⟨by simpa using happrove, ritual, version, definition, previewed, now, drawn, approvals,
    ⟨preview, hpreview, by simpa using hexec⟩, hnew, τ₄, by rw [hτ, hτ', hτ₂, hτ₃], ?_⟩
  -- it comes to the approvals, or past them to the status
  rcases leads_perform_bind.mp h with ⟨hnil, heq⟩ | ⟨r, τ₅, hτ₄, h⟩
  · exact .inl ⟨(Program.call.inj heq).1, hnil⟩
  split at h
  · exact absurd h not_leads_ret_call
  rcases leads_perform_bind.mp h with ⟨hnil, heq⟩ | ⟨r, τ₆, -, h⟩
  · exact .inr ⟨(Program.call.inj heq).1, by rw [hτ₄, hnil]⟩
  · split at h <;> exact absurd h not_leads_ret_call

theorem leads_ritualApprovals {frame : Frame} {o : Op} {k : o.Res → Core Reply}
    (ht : Target.table .ritualApprovals ∈ o.targets)
    (h : Leads (handleFrame crates frame) τ (.call o k)) :
    ∃ request ritualId approve k', frame = .request request ∧
      request.body = .ritualActivate ritualId approve ∧
      Leads (ritualActivateResponse crates request.requestId ritualId approve) τ (.call o k') := by
  have hframe := leads_targets h ht
  cases frame with
  | request request =>
    obtain ⟨k', hbody⟩ := leads_request h
    cases hb : request.body with
    | ritualActivate ritualId approve =>
      rw [hb] at hbody
      exact ⟨request, ritualId, approve, k', rfl, hb, hbody⟩
    | _ => simp [Frame.targets, RequestBody.targets, executionTargets, hb] at hframe
  | _ => simp [Frame.targets] at hframe

theorem leads_creates {frame : Frame} {ritual : Ritual} {version : RitualVersion}
    {definition : RitualDefinition}
    {k : (Op.storage (.createRitual ritual version definition)).Res → Core Reply}
    (h : Leads (handleFrame crates frame) τ (.call (.storage (.createRitual ritual version definition)) k)) :
    Creates crates ritual version definition := by
  have ht : Target.table .rituals ∈ (Op.storage (.createRitual ritual version definition)).targets := by
    simp [Op.targets, Operation.writes]
  obtain ⟨request, k', rfl, hbody⟩ := leads_rituals ht h
  rcases hbody with ⟨definition', -, hpath⟩ | ⟨ritualId, definition', -, hpath⟩ |
    ⟨ritualId, approve, -, hpath⟩ | ⟨ritualId, -, hpath⟩
  · obtain ⟨ritual', version', hop, hcreates⟩ := create_path ht hpath
    cases hop
    exact hcreates
  · obtain ⟨_, _, hop, -⟩ := update_path ht hpath
    cases hop
  · obtain ⟨-, _, _, _, _, _, _, _, -, -, _, -, ⟨hop, -⟩ | ⟨hop, -⟩⟩ := activate_path ht hpath
    · cases hop
    · cases hop
  · cases pause_path ht hpath

theorem leads_updates {frame : Frame} {ritual : Ritual} {version : RitualVersion}
    {definition : RitualDefinition}
    {k : (Op.storage (.updateRitual ritual version definition)).Res → Core Reply}
    (h : Leads (handleFrame crates frame) τ (.call (.storage (.updateRitual ritual version definition)) k)) :
    ∃ ritualId read current stored more,
      τ = ⟨.storage (.getRitual ritualId), .ok (read, current, stored)⟩ :: more ∧
        Updates crates ritualId read current ritual version definition := by
  have ht : Target.table .rituals ∈ (Op.storage (.updateRitual ritual version definition)).targets := by
    simp [Op.targets, Operation.writes]
  obtain ⟨request, k', rfl, hbody⟩ := leads_rituals ht h
  rcases hbody with ⟨definition', -, hpath⟩ | ⟨ritualId, definition', -, hpath⟩ |
    ⟨ritualId, approve, -, hpath⟩ | ⟨ritualId, -, hpath⟩
  · obtain ⟨_, _, hop, -⟩ := create_path ht hpath
    cases hop
  · obtain ⟨ritual', version', hop, hread⟩ := update_path ht hpath
    cases hop
    exact ⟨ritualId, hread⟩
  · obtain ⟨-, _, _, _, _, _, _, _, -, -, _, -, ⟨hop, -⟩ | ⟨hop, -⟩⟩ := activate_path ht hpath
    · cases hop
    · cases hop
  · cases pause_path ht hpath

/-- Only creations and updates store versions; the ritual they write is a draft. -/
theorem leads_defines {frame : Frame} {o : Op} {k : o.Res → Core Reply} {ritual : Ritual}
    {version : RitualVersion} {definition : RitualDefinition}
    (ho : o = .storage (.createRitual ritual version definition) ∨
      o = .storage (.updateRitual ritual version definition))
    (h : Leads (handleFrame crates frame) τ (.call o k)) :
    ritual.status = .draft ∧ version.Stores crates definition := by
  rcases ho with rfl | rfl
  · have hcreates := leads_creates h
    exact ⟨hcreates.status, hcreates.stores⟩
  · obtain ⟨_, _, _, _, _, -, hupdates⟩ := leads_updates h
    exact ⟨hupdates.status, hupdates.stores⟩

theorem leads_setActive {frame : Frame}
    {k : (Op.storage (.setRitualStatus ritualId .active)).Res → Core Reply}
    (h : Leads (handleFrame crates frame) τ (.call (.storage (.setRitualStatus ritualId .active)) k)) :
    ∃ ritual version definition more now drawn approvals,
      Leads (newApprovals version now definition.actions) drawn (.ret approvals) ∧
      τ = ⟨.storage (.getRitual ritualId), .ok (ritual, version, definition)⟩ :: more ∧
      ⟨.storage (.createApprovals approvals), .ok ()⟩ ∈ more := by
  have ht : Target.table .rituals ∈ (Op.storage (.setRitualStatus ritualId .active)).targets := by
    simp [Op.targets, Operation.writes]
  obtain ⟨request, k', rfl, hbody⟩ := leads_rituals ht h
  rcases hbody with ⟨definition', -, hpath⟩ | ⟨ritualId', definition', -, hpath⟩ |
    ⟨ritualId', approve, -, hpath⟩ | ⟨ritualId', -, hpath⟩
  · obtain ⟨_, _, hop, -⟩ := create_path ht hpath
    cases hop
  · obtain ⟨_, _, hop, -⟩ := update_path ht hpath
    cases hop
  · obtain ⟨-, ritual, version, definition, previewed, now, drawn, approvals, -, hnew, rest, hτ,
      ⟨hop, -⟩ | ⟨hop, rfl⟩⟩ := activate_path ht hpath
    · cases hop
    · cases hop
      exact ⟨ritual, version, definition, _, now, drawn, approvals, hnew, hτ, by simp⟩
  · cases pause_path ht hpath

end Path

/-! ## Where versions and approvals come from -/

def Defined (log : Log) (version : RitualVersion) (definition : RitualDefinition) : Prop :=
  ∃ i ritual,
    .call i (.storage (.createRitual ritual version definition)) (.ok (ritual, version, definition)) ∈ log ∨
    .call i (.storage (.updateRitual ritual version definition)) (.ok (ritual, version, definition)) ∈ log

theorem version_defined (h : (daemon crates).Reaches w₀ ok c) (h₀ : w₀.db = .empty)
    {version : RitualVersion} (hm : version ∈ c.world.db.ritualVersions) :
    ∃ definition, Defined c.log version definition ∧ version.Stores crates definition := by
  obtain ⟨before, i, operation, reply, after, hlog, ritual, definition, hx⟩ := reaches_origin h
    (P := fun db => version ∈ db.ritualVersions)
    (Q := fun x => ∃ ritual definition,
      x = ⟨.createRitual ritual version definition, .ok (ritual, version, definition)⟩ ∨
      x = ⟨.updateRitual ritual version definition, .ok (ritual, version, definition)⟩)
    (h₀ ▸ List.not_mem_nil) (by
      intro now db db' o r he hrow
      rcases he.ritualVersions with heq | ⟨ritual, version', definition, hx, -, heq⟩
      · exact .inl (heq ▸ hrow)
      · rw [heq] at hrow
        refine (List.mem_append.mp hrow).imp_right fun hnew => ?_
        obtain rfl := List.mem_singleton.mp hnew
        exact ⟨ritual, definition, hx⟩)
    (by rintro r ⟨_, _, hx | hx⟩ <;> exact nomatch hx) hm
  obtain ⟨earlier, frame, later, k, -, -, hleads⟩ := h.called hlog
  refine ⟨definition, ⟨i, ritual, ?_⟩, ?_⟩
  · rw [hlog]
    exact hx.imp (fun hx => by cases hx; simp) (fun hx => by cases hx; simp)
  · rcases hx with hx | hx
    · cases hx
      exact (leads_defines (.inl rfl) hleads).2
    · cases hx
      exact (leads_defines (.inr rfl) hleads).2

/-- The log has a request to activate, with approval, that read this version and found its
preview executable. -/
def Activated (crates : Crates) (log : Log) (version : RitualVersion) : Prop :=
  ∃ earlier i request ritualId later rest ritual definition previewed,
    log = earlier ++ .arrive i (.request request) :: later ++ rest ∧
    request.body = .ritualActivate ritualId true ∧ (∀ l ∈ later, l.interrupts i = false) ∧
    callsOf i later =
      ⟨.storage (.getRitual ritualId), .ok (ritual, version, definition)⟩ :: previewed ∧
    PreviewedExecutable crates ritual version definition previewed

theorem approval_activated (h : (daemon crates).Reaches w₀ ok c) (h₀ : w₀.db = .empty)
    {approval : Approval} (hm : approval ∈ c.world.db.ritualApprovals) :
    ∃ version ∈ c.world.db.ritualVersions,
      version.id = approval.ritualVersionId ∧ Activated crates c.log version := by
  obtain ⟨before, i, operation, reply, after, hlog, approvals, hx, hma⟩ := reaches_origin h
    (P := fun db => approval ∈ db.ritualApprovals)
    (Q := fun x => ∃ approvals, x = ⟨.createApprovals approvals, .ok ()⟩ ∧ approval ∈ approvals)
    (h₀ ▸ List.not_mem_nil) (by
      intro now db db' o r he hrow
      rcases he.ritualApprovals with heq | ⟨approvals, hx, -, heq⟩
      · exact .inl (heq ▸ hrow)
      · rw [heq] at hrow
        exact (List.mem_append.mp hrow).imp_right fun hnew => ⟨approvals, hx, hnew⟩)
    (by rintro r ⟨_, hx, -⟩; cases hx) hm
  cases hx
  obtain ⟨earlier, frame, later, k, rfl, hlater, hleads⟩ := h.called hlog
  have ht : Target.table .ritualApprovals ∈ (Op.storage (.createApprovals approvals)).targets := by
    simp [Op.targets, Operation.writes]
  obtain ⟨request, ritualId, approve, k', rfl, hbody, hpath⟩ := leads_ritualApprovals ht hleads
  obtain ⟨rfl, ritual, version, definition, previewed, now, drawn, approvals', hpreviewed, hnew, rest,
    hcalls, ⟨hop, rfl⟩ | ⟨hop, -⟩⟩ := activate_path ht hpath
  · cases hop
    -- the operations up to the preview are a first part of what the request has done
    have hsplit : callsOf i later =
        (⟨.storage (.getRitual ritualId), .ok (ritual, version, definition)⟩ :: previewed) ++
          ⟨.nowUtc, now⟩ :: (drawn ++ []) := hcalls
    obtain ⟨read, more, rfl, hread, -⟩ := callsOf_eq_append hsplit
    have hversion : version ∈ c.world.db.ritualVersions := by
      have hmem : .call i (.storage (.getRitual ritualId)) (.ok (ritual, version, definition)) ∈ c.log := by
        have hm' := (mem_callsOf i read).mp (hread ▸ List.mem_cons_self)
        rw [hlog]
        simp [hm']
      exact (h.persistent (lasting crates) hmem).1
    refine ⟨version, hversion, ((newApprovals_ret hnew).1 approval hma).symm, ?_⟩
    refine ⟨earlier, i, request, ritualId, read, more ++ .call i (.storage (.createApprovals approvals)) (.ok ()) :: after, ritual, definition,
      previewed, ?_, hbody, ?_, hread, hpreviewed⟩
    · rw [hlog]
      simp
    · intro l hl
      exact hlater l (List.mem_append_left _ hl)
  · cases hop

end Fubun

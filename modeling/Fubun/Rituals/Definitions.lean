import Fubun.Core.Handlers

/-! What the requests that define and pause rituals write. -/

namespace Fubun
open Relational Concurrency Program

variable {crates : Crates} {w₀ : World} {ok : State → Concurrency.Event Nat Frame Choice Drift → Prop}
  {c : State} {id ritualId : Uuid} {definition : RitualDefinition} {τ : List (Answered Op.Res)} {o : Op}

theorem validateRitualDefinition_ok {canonical : String}
    (h : validateRitualDefinition crates definition = .ok canonical) :
    crates.canonicalJson definition = some canonical := by
  unfold validateRitualDefinition at h
  split at h
  · exact nomatch h
  split at h
  · exact nomatch h
  split at h
  · exact nomatch h
  rename_i canonical' hcanonical
  split_ifs at h
  obtain rfl := Except.ok.inj h
  exact hcanonical

/-- The version stores this definition. -/
structure RitualVersion.Stores (crates : Crates) (version : RitualVersion)
    (definition : RitualDefinition) : Prop where
  canonicalJson : crates.canonicalJson definition = some version.canonicalJson
  contentHash : definition.contentHash crates = some version.contentHash

/-- What a creation writes: a draft, and its first version. -/
structure Creates (crates : Crates) (ritual : Ritual) (version : RitualVersion)
    (definition : RitualDefinition) : Prop where
  status : ritual.status = .draft
  stores : version.Stores crates definition
  name : ritual.name = definition.name
  ritualId : version.ritualId = ritual.id
  number : version.version = 1

/-- What an update writes that has read a row of the ritual and its current version: a draft again,
and the version after the one it read. -/
structure Updates (crates : Crates) (ritualId : Uuid) (read : Ritual) (current : RitualVersion)
    (ritual : Ritual) (version : RitualVersion) (definition : RitualDefinition) : Prop where
  status : ritual.status = .draft
  stores : version.Stores crates definition
  name : ritual.name = definition.name
  id : ritual.id = read.id
  ritualId : version.ritualId = ritualId
  number : version.version = min (current.version + 1) u32Max

/-! ## Paths -/

theorem create_path {k : o.Res → Core ResponseEnvelope} {target : Target} (ht : target ∈ o.targets)
    (h : Leads (ritualCreateResponse crates id definition) τ (.call o k)) :
    ∃ ritual version, o = .storage (.createRitual ritual version definition) ∧
      Creates crates ritual version definition := by
  unfold ritualCreateResponse at h
  split at h
  · exact absurd h not_leads_ret_call
  rename_i canonical hvalid
  split at h
  · exact absurd h not_leads_ret_call
  rename_i contentHash hhash
  obtain ⟨now, τ₁, -, h⟩ := leads_perform_call h (by rintro rfl; exact nomatch ht)
  obtain ⟨newId, τ₂, -, h⟩ := leads_perform_call h (by rintro rfl; exact nomatch ht)
  obtain ⟨versionId, τ₃, -, h⟩ := leads_perform_call h (by rintro rfl; exact nomatch ht)
  rcases leads_perform_bind.mp h with ⟨-, heq⟩ | ⟨r, τ₄, -, h⟩
  · have hop := (Program.call.inj heq).1
    exact ⟨_, _, hop, rfl, ⟨validateRitualDefinition_ok hvalid, hhash⟩, rfl, rfl, rfl⟩
  · split at h <;> exact absurd h not_leads_ret_call

theorem update_path {k : o.Res → Core ResponseEnvelope} {target : Target} (ht : target ∈ o.targets)
    (h : Leads (ritualUpdateResponse crates id ritualId definition) τ (.call o k)) :
    ∃ ritual version, o = .storage (.updateRitual ritual version definition) ∧
      ∃ read current stored more,
        τ = ⟨.storage (.getRitual ritualId), .ok (read, current, stored)⟩ :: more ∧
          Updates crates ritualId read current ritual version definition := by
  unfold ritualUpdateResponse at h
  split at h
  · exact absurd h not_leads_ret_call
  rename_i canonical hvalid
  split at h
  · exact absurd h not_leads_ret_call
  rename_i contentHash hhash
  obtain ⟨r, τ₁, hτ, h⟩ := leads_perform_call h (by rintro rfl; exact nomatch ht)
  split at h
  · exact absurd h not_leads_ret_call
  · exact absurd h not_leads_ret_call
  rename_i read current stored
  obtain ⟨now, τ₂, -, h⟩ := leads_perform_call h (by rintro rfl; exact nomatch ht)
  obtain ⟨versionId, τ₃, -, h⟩ := leads_perform_call h (by rintro rfl; exact nomatch ht)
  rcases leads_perform_bind.mp h with ⟨-, heq⟩ | ⟨r, τ₄, -, h⟩
  · have hop := (Program.call.inj heq).1
    exact ⟨_, _, hop, read, current, stored, τ₁, hτ, rfl,
      ⟨validateRitualDefinition_ok hvalid, hhash⟩, rfl, rfl, rfl, rfl⟩
  · split at h <;> exact absurd h not_leads_ret_call

theorem pause_path {k : o.Res → Core ResponseEnvelope} {target : Target} (ht : target ∈ o.targets)
    (h : Leads (ritualPauseResponse id ritualId) τ (.call o k)) :
    o = .storage (.setRitualStatus ritualId .paused) := by
  unfold ritualPauseResponse at h
  obtain ⟨r, τ₁, -, h⟩ := leads_perform_call h (by rintro rfl; exact nomatch ht)
  split at h
  · exact absurd h not_leads_ret_call
  · exact absurd h not_leads_ret_call
  split at h
  · exact absurd h not_leads_ret_call
  rcases leads_perform_bind.mp h with ⟨-, heq⟩ | ⟨r, τ₂, -, h⟩
  · exact (Program.call.inj heq).1
  · split at h <;> exact absurd h not_leads_ret_call

theorem leads_rituals {frame : Frame} {k : o.Res → Core Reply}
    (ht : Target.table .rituals ∈ o.targets) (h : Leads (handleFrame crates frame) τ (.call o k)) :
    ∃ request k', frame = .request request ∧
      ((∃ definition, request.body = .ritualCreate definition ∧
          Leads (ritualCreateResponse crates request.requestId definition) τ (.call o k')) ∨
        (∃ ritualId definition, request.body = .ritualUpdate ritualId definition ∧
          Leads (ritualUpdateResponse crates request.requestId ritualId definition) τ (.call o k')) ∨
        (∃ ritualId approve, request.body = .ritualActivate ritualId approve ∧
          Leads (ritualActivateResponse crates request.requestId ritualId approve) τ (.call o k')) ∨
        (∃ ritualId, request.body = .ritualPause ritualId ∧
          Leads (ritualPauseResponse request.requestId ritualId) τ (.call o k'))) := by
  have hframe := leads_targets h ht
  cases frame with
  | request request =>
    obtain ⟨k', hbody⟩ := leads_request h
    refine ⟨request, k', rfl, ?_⟩
    cases hb : request.body with
    | ritualCreate definition =>
      rw [hb] at hbody
      exact .inl ⟨definition, rfl, hbody⟩
    | ritualUpdate ritualId definition =>
      rw [hb] at hbody
      exact .inr (.inl ⟨ritualId, definition, rfl, hbody⟩)
    | ritualActivate ritualId approve =>
      rw [hb] at hbody
      exact .inr (.inr (.inl ⟨ritualId, approve, rfl, hbody⟩))
    | ritualPause ritualId =>
      rw [hb] at hbody
      exact .inr (.inr (.inr ⟨ritualId, rfl, hbody⟩))
    | _ => simp [Frame.targets, RequestBody.targets, executionTargets, hb] at hframe
  | _ => simp [Frame.targets] at hframe

end Fubun

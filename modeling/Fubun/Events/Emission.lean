import Fubun.Core.Handlers

/-! The two paths on which an event comes to be stored: a client's ingestion of a synthetic event,
and an adapter's emission, from which the core builds the event itself. -/

namespace Fubun
open Relational Concurrency Program

/-- What an emission has brought and what it has read when its event is about to be stored. -/
structure Emission where
  hello : AdapterHello
  token : Uuid
  response : AdapterResponseEnvelope
  payload : AdapterEventEmitRequest
  expected : ExpectedEvent
  eventId : Uuid
  resource : Resource
  scopes : List ObservationScope
  receivedAt : OffsetDateTime
  data : EventData

def Emission.event (m : Emission) : Event :=
  adapterEvent m.eventId m.expected m.hello m.payload m.receivedAt m.data

def Emission.trace (m : Emission) : List (Answered Op.Res) :=
  [⟨.newUuid, m.eventId⟩, ⟨.storage (.getResource m.payload.resourceId), .ok m.resource⟩,
    ⟨.storage (.listObservationScopes (some m.expected.observationSource)), .ok m.scopes⟩,
    ⟨.nowUtc, m.receivedAt⟩]

structure Emission.Passes (m : Emission) : Prop where
  version : m.response.protocolVersion.major = currentProtocolVersion.major
  body : m.response.body = .eventEmit m.payload
  expected : expectedEvent m.hello.adapterId = some m.expected
  permitted : emissionPermitted m.expected m.hello m.payload = true
  kind : m.resource.kind = m.expected.kind
  observed : observes m.scopes m.payload.resourceId = true
  data : m.expected.eventType.resourceData m.payload.resourceId = some m.data
  valid : m.event.validate = .ok ()

section Paths
variable {crates : Crates} {τ : List (Answered Op.Res)} {event : Event}

theorem storageInsertEvent_call {e : Event} {k : Op.Res (.storage (.insertEvent event)) → Core (Except StorageError Unit)}
    (h : Leads (storageInsertEvent e) τ (.call (.storage (.insertEvent event)) k)) :
    τ = [] ∧ event = e ∧ e.validate = .ok () := by
  unfold storageInsertEvent at h
  split at h
  · exact absurd h not_leads_ret_call
  · rename_i hvalid
    rcases leads_call_iff.mp h with ⟨rfl, heq⟩ | ⟨r, τ', -, hl⟩
    · have ho := (Program.call.inj heq).1
      exact ⟨rfl, Operation.insertEvent.inj (Op.storage.inj ho), hvalid⟩
    · exact absurd hl not_leads_ret_call

/-- A continuation that only answers leaves the insertion to the first part. -/
theorem storageInsertEvent_bind_call {α : Type} {e : Event} {f : Except StorageError Unit → Core α}
    (hf : ∀ r, ∃ a, f r = .ret a) {k : Op.Res (.storage (.insertEvent event)) → Core α}
    (h : Leads (storageInsertEvent e >>= f) τ (.call (.storage (.insertEvent event)) k)) :
    τ = [] ∧ event = e ∧ e.validate = .ok () := by
  rcases leads_bind_call h with ⟨k', hl⟩ | ⟨τ₁, r, τ₂, -, -, hl⟩
  · exact storageInsertEvent_call hl
  · obtain ⟨a, ha⟩ := hf r
    rw [ha] at hl
    exact absurd hl not_leads_ret_call

theorem ingestResponse_call {id : Uuid} {e : Event} {k : Op.Res (.storage (.insertEvent event)) → Core ResponseEnvelope}
    (h : Leads (ingestResponse id e) τ (.call (.storage (.insertEvent event)) k)) :
    e.eventType = .syntheticV1 ∧ e.data.isSynthetic = true ∧
      ∃ receivedAt, τ = [⟨.nowUtc, receivedAt⟩] ∧ event = { e with receivedAt := receivedAt } := by
  unfold ingestResponse at h
  split at h
  · exact absurd h not_leads_ret_call
  · rename_i hsynthetic
    push Not at hsynthetic
    obtain ⟨receivedAt, τ', rfl, h'⟩ := leads_perform_call h (by simp)
    dsimp only at h'
    split at h'
    · exact absurd h' not_leads_ret_call
    · obtain ⟨rfl, rfl, -⟩ := storageInsertEvent_bind_call (by intro r; split <;> exact ⟨_, rfl⟩) h'
      exact ⟨hsynthetic.1, by simpa using hsynthetic.2, receivedAt, rfl, rfl⟩

theorem ingestAdapterEvent_call {hello : AdapterHello} {payload : AdapterEventEmitRequest}
    {k : Op.Res (.storage (.insertEvent event)) → Core EventAck}
    (h : Leads (ingestAdapterEvent hello payload) τ (.call (.storage (.insertEvent event)) k)) :
    ∃ expected eventId resource scopes receivedAt data,
      expectedEvent hello.adapterId = some expected ∧ emissionPermitted expected hello payload = true ∧
      resource.kind = expected.kind ∧ observes scopes payload.resourceId = true ∧
      expected.eventType.resourceData payload.resourceId = some data ∧ event.validate = .ok () ∧
      event = adapterEvent eventId expected hello payload receivedAt data ∧
      τ = [⟨.newUuid, eventId⟩, ⟨.storage (.getResource payload.resourceId), .ok resource⟩,
        ⟨.storage (.listObservationScopes (some expected.observationSource)), .ok scopes⟩, ⟨.nowUtc, receivedAt⟩] := by
  unfold ingestAdapterEvent at h
  obtain ⟨eventId, τ₁, rfl, h₁⟩ := leads_perform_call h (by simp)
  split at h₁
  · exact absurd h₁ not_leads_ret_call
  rename_i expected hexpected
  split at h₁
  · exact absurd h₁ not_leads_ret_call
  rename_i hpermitted
  obtain ⟨found, τ₂, rfl, h₂⟩ := leads_perform_call h₁ (by simp)
  rcases found with error | resource
  · exact absurd h₂ not_leads_ret_call
  dsimp only at h₂
  split at h₂
  · exact absurd h₂ not_leads_ret_call
  rename_i hkind
  obtain ⟨listed, τ₃, rfl, h₃⟩ := leads_perform_call h₂ (by simp)
  rcases listed with error | scopes
  · exact absurd h₃ not_leads_ret_call
  dsimp only at h₃
  split at h₃
  · exact absurd h₃ not_leads_ret_call
  rename_i hobserved
  obtain ⟨receivedAt, τ₄, rfl, h₄⟩ := leads_perform_call h₃ (by simp)
  split at h₄
  · exact absurd h₄ not_leads_ret_call
  rename_i data hdata
  -- the event is valid when the storage is called
  obtain ⟨rfl, rfl, hvalid⟩ := storageInsertEvent_bind_call (by intro r; split <;> exact ⟨_, rfl⟩) h₄
  exact ⟨expected, eventId, resource, scopes, receivedAt, data, hexpected, by simpa using hpermitted,
    by simpa using hkind, by simpa using hobserved, hdata, hvalid, rfl, rfl⟩

/-- Whoever is about to store an event is a client with a synthetic one, or an emission that has
passed every check. -/
theorem insertEvent_path {frame : Frame} {k : Op.Res (.storage (.insertEvent event)) → Core Reply}
    (h : Leads (handleFrame crates frame) τ (.call (.storage (.insertEvent event)) k)) :
    (∃ request e receivedAt, frame = .request request ∧ request.body = .eventIngest e ∧
      e.eventType = .syntheticV1 ∧ e.data.isSynthetic = true ∧ τ = [⟨.nowUtc, receivedAt⟩] ∧
        event = { e with receivedAt := receivedAt }) ∨
    ∃ m : Emission, m.Passes ∧ frame = .adapter m.hello m.token m.response ∧ τ = m.trace ∧ event = m.event := by
  have htarget : Target.table .events ∈ (Op.storage (.insertEvent event)).targets := by
    simp [Op.targets, Operation.writes]
  have hframe := leads_targets h htarget
  cases frame with
  | first | hangup => cases hframe
  | request request =>
    obtain ⟨k', hbody⟩ := leads_request h
    -- of all requests only an ingestion writes to the table of events
    have hingest : ∃ e, request.body = .eventIngest e := by
      revert hframe
      rw [Frame.targets]
      cases request.body with
      | eventIngest e => exact fun _ => ⟨e, rfl⟩
      | _ => simp [RequestBody.targets, executionTargets]
    obtain ⟨e, he⟩ := hingest
    rw [he] at hbody
    obtain ⟨htype, hdata, receivedAt, hτ, hevent⟩ := ingestResponse_call hbody
    exact .inl ⟨request, e, receivedAt, rfl, he, htype, hdata, hτ, hevent⟩
  | adapter hello token response =>
    have hadapter : Leads (handleAdapterFrame hello response) τ (.call (.storage (.insertEvent event)) k) := h
    unfold handleAdapterFrame at hadapter
    split at hadapter
    · exact absurd hadapter not_leads_ret_call
    rename_i hversion
    split at hadapter
    · rename_i payload hbody
      rcases leads_bind_call hadapter with ⟨k', hl⟩ | ⟨τ₁, ack, τ₂, -, -, hl⟩
      · obtain ⟨expected, eventId, resource, scopes, receivedAt, data, hexpected, hpermitted, hkind, hobserved, hdata,
          hvalid, rfl, rfl⟩ := ingestAdapterEvent_call hl
        exact .inr ⟨⟨hello, token, response, payload, expected, eventId, resource, scopes, receivedAt, data⟩,
          ⟨not_not.mp hversion, hbody, hexpected, hpermitted, hkind, hobserved, hdata, hvalid⟩, rfl, rfl, rfl⟩
      · exact absurd hl not_leads_ret_call
    · exact absurd hadapter not_leads_ret_call

end Paths
end Fubun

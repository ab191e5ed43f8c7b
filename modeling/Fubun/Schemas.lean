import Fubun.Encoding.Schema
import Fubun.Extensions.BrowserEvent

/-! The shapes of the events, the requests and the messages of adapters as they are decoded, and the places in
them where a key that is not known goes unnoticed. -/

namespace Fubun
open Encoding Extensions

/-! ## Values -/

def textSchema : Schema := .text fun _ => true

def unsignedSchema (bits : Nat) : Schema := .integer 0 (2 ^ bits - 1)

abbrev denying (fields : List (String × Presence × Schema)) : Schema := .struct true (.ofList fields)

/-- The enumerations of the envelopes' bodies do not deny them. -/
abbrev bodySchema (tag content : String) (variants : List (String × List (String × Presence × Schema))) : Schema :=
  .adjacent tag content false (variants.map fun variant => (variant.1, denying variant.2))

def ProtocolVersion.schema : Schema :=
  denying [("major", .required, unsignedSchema 16), ("minor", .required, unsignedSchema 16)]

def EventType.schema : Schema :=
  .unit ([EventType.syntheticV1, .browserResourceOpenedV1, .vscodeWorkspaceOpenedV1].map (·.name))

def ResourceKind.schema : Schema := .unit ([ResourceKind.file, .directory, .webPage].map (·.name))

def RitualExecutionConfig.schema : Schema :=
  denying [("mode", .required, .unit ["sequential"]), ("on_failure", .required, .unit ["stop"]),
    ("timeout_seconds", .required, unsignedSchema 32)]

section Schemas
variable (D : Decoders)

def uuidSchema : Schema := .text fun s => (D.parseUuid s).isSome

def rfc3339Schema : Schema := .text fun s => (D.parseRfc3339 s).isSome

/-! ## Events -/

def AdapterIdentity.schema : Schema :=
  denying [("id", .required, textSchema), ("version", .required, textSchema), ("instance_id", .required, uuidSchema D),
    ("sequence_no", .required, unsignedSchema 64)]

def ContextReference.schema : Schema :=
  denying [("project", .optional, .option textSchema), ("session", .optional, .option textSchema)]

def EventData.variants : List (String × List (String × Presence × Schema)) :=
  [("synthetic", [("label", .required, textSchema), ("counter", .required, .integer (-2 ^ 63) (2 ^ 63 - 1))]),
    ("browser.resource.opened", [("resource_id", .required, uuidSchema D)]),
    ("vscode.workspace.opened", [("resource_id", .required, uuidSchema D)])]

/-- The payload of an event. Its enumeration does not deny the keys that it does not know. -/
def EventData.schema : Schema := .tagged "kind" false (.ofList (EventData.variants D))

def Event.fields : List (String × Presence × Schema) :=
  [("spec_version", .required, textSchema), ("id", .required, uuidSchema D), ("type", .required, EventType.schema),
    ("source", .required, textSchema), ("occurred_at", .required, rfc3339Schema D),
    ("received_at", .required, rfc3339Schema D),
    ("actor", .required, .unit ([Actor.user, .fubun, .system, .imported].map (·.name))),
    ("adapter", .required, AdapterIdentity.schema D), ("context", .optional, .option ContextReference.schema),
    ("privacy", .required, .unit ([PrivacyClass.normal, .sensitive].map (·.name))), ("data", .required, EventData.schema D)]

def Event.schema : Schema := denying (Event.fields D)

/-! ## Rituals -/

def ActionSpec.schema : Schema :=
  .tagged "type" true (.ofList [
    ("linux.app.ensure_running.v1", [("app_id", .required, textSchema)]),
    ("linux.path.open.v1", [("resource_id", .required, uuidSchema D)]),
    ("desktop.notification.show.v1", [("title", .required, textSchema), ("body", .required, textSchema)]),
    ("browser.tab.ensure_open.v1", [("resource_id", .required, uuidSchema D)])])

def RitualDefinition.schema : Schema :=
  denying [("schema_version", .required, textSchema), ("name", .required, textSchema),
    ("actions", .required, .list (ActionSpec.schema D)), ("execution", .required, RitualExecutionConfig.schema)]

/-! ## Adapters -/

def AdapterToolStatus.schema : Schema := denying [("name", .required, textSchema), ("available", .required, .flag)]

def AdapterStatusSnapshot.fields : List (String × Presence × Schema) :=
  [("tools", .required, .list AdapterToolStatus.schema), ("desktop_entry_ids", .required, .list textSchema),
    ("permitted_resource_ids", .default (.array []), .list (uuidSchema D))]

def ResolvedResource.schema : Schema :=
  denying [("resource_id", .required, uuidSchema D), ("kind", .required, ResourceKind.schema),
    ("canonical_locator", .required, textSchema)]

def AdapterRequestBody.variants : List (String × List (String × Presence × Schema)) :=
  [("action.execute", [("action", .required, ActionSpec.schema D),
      ("resolved_resource", .optional, .option (ResolvedResource.schema D))]),
    ("adapter.status", []),
    ("event.ack", [("event_id", .required, uuidSchema D), ("stored", .required, .flag), ("duplicate", .required, .flag)])]

def AdapterRequestBody.schema : Schema := bodySchema "method" "params" (AdapterRequestBody.variants D)

def AdapterRequestEnvelope.fields : List (String × Presence × Schema) :=
  [("protocol_version", .required, ProtocolVersion.schema), ("request_id", .required, uuidSchema D),
    ("action_execution_id", .required, uuidSchema D), ("body", .required, AdapterRequestBody.schema D)]

def AdapterRequestEnvelope.schema : Schema := denying (AdapterRequestEnvelope.fields D)

def AdapterResponseBody.variants : List (String × List (String × Presence × Schema)) :=
  [("action.result", [("status", .required, .unit ["succeeded", "skipped", "failed"]),
      ("result_code", .required, textSchema), ("redacted_message", .required, textSchema)]),
    ("adapter.status", AdapterStatusSnapshot.fields D),
    ("event.emit", [("sequence_no", .required, unsignedSchema 64), ("occurred_at", .required, rfc3339Schema D),
      ("type", .required, EventType.schema), ("resource_id", .required, uuidSchema D)])]

def AdapterResponseBody.schema : Schema := bodySchema "kind" "data" (AdapterResponseBody.variants D)

def AdapterResponseEnvelope.fields : List (String × Presence × Schema) :=
  [("protocol_version", .required, ProtocolVersion.schema), ("request_id", .required, uuidSchema D),
    ("action_execution_id", .required, uuidSchema D), ("body", .required, AdapterResponseBody.schema D)]

def AdapterResponseEnvelope.schema : Schema := denying (AdapterResponseEnvelope.fields D)

/-! ## Requests -/

def RequestBody.variants : List (String × List (String × Presence × Schema)) :=
  [("client.hello", [("client_name", .required, textSchema), ("client_version", .required, textSchema),
      ("protocol_version", .required, ProtocolVersion.schema)]),
    ("event.ingest", [("event", .required, Event.schema D)]),
    ("browser.observation.enable", [("label", .required, textSchema), ("url", .required, textSchema)]),
    ("vscode.observation.enable", [("label", .required, textSchema), ("absolute_path", .required, textSchema)]),
    ("observation.pause", [("scope_id", .required, uuidSchema D)]),
    ("observations.list", [("source", .default .null,
      .option (.unit ([ObservationSource.browserChromium, .vscodeWorkspace].map (·.name))))]),
    ("events.list", [("since", .default .null, .option (rfc3339Schema D)), ("limit", .default (.number 100), unsignedSchema 32)]),
    ("system.status", []),
    ("system.doctor", []),
    ("adapter.hello", [("adapter_id", .required, textSchema), ("adapter_version", .required, textSchema),
      ("instance_id", .required, uuidSchema D), ("action_capabilities", .required, .list textSchema),
      ("event_capabilities", .default (.array []), .list textSchema),
      ("status", .required, denying (AdapterStatusSnapshot.fields D))]),
    ("resource.create", [("label", .required, textSchema), ("path", .required, textSchema),
      ("sensitivity", .required, .unit ([Sensitivity.normal, .sensitive].map (·.name)))]),
    ("resource.list", []),
    ("resource.show", [("resource_id", .required, uuidSchema D)]),
    ("ritual.create", [("definition", .required, RitualDefinition.schema D)]),
    ("ritual.update", [("ritual_id", .required, uuidSchema D), ("definition", .required, RitualDefinition.schema D)]),
    ("ritual.list", []),
    ("ritual.show", [("ritual_id", .required, uuidSchema D)]),
    ("ritual.preview", [("ritual_id", .required, uuidSchema D)]),
    ("ritual.activate", [("ritual_id", .required, uuidSchema D), ("approve", .required, .flag)]),
    ("ritual.pause", [("ritual_id", .required, uuidSchema D)]),
    ("ritual.run", [("ritual_id", .required, uuidSchema D)]),
    ("adapter.list", []),
    ("adapter.status", []),
    ("execution.list", []),
    ("execution.show", [("execution_id", .required, uuidSchema D)]),
    ("integrations.status", [])]

def RequestBody.schema : Schema := bodySchema "method" "params" (RequestBody.variants D)

def RequestEnvelope.fields : List (String × Presence × Schema) :=
  [("protocol_version", .required, ProtocolVersion.schema), ("request_id", .required, uuidSchema D),
    ("body", .required, RequestBody.schema D)]

def RequestEnvelope.schema : Schema := denying (RequestEnvelope.fields D)

end Schemas

/-! ## The places that are not strict -/

/-- The messages in which a key that is not known is to be rejected. -/
inductive Message where
  | event
  | request
  | adapterRequest
  | adapterResponse

def Message.schema (D : Decoders) : Message → Schema
  | .event => Event.schema D
  | .request => RequestEnvelope.schema D
  | .adapterRequest => AdapterRequestEnvelope.schema D
  | .adapterResponse => AdapterResponseEnvelope.schema D

/-- The path leads to the body, beside its content, or on from the content. -/
def InBody (content : String) (below : List String → Prop) (path : List String) : Prop :=
  ∃ rest, path = "body" :: rest ∧ ∀ path', rest = content :: path' → below path'

/-- The path leads to an object that is not strict: the data of an event or the body of an envelope, or what a key
brings that is not known there. -/
def Message.Lax : Message → List String → Prop
  | .event, path => path.head? = some "data"
  | .request, path => InBody "params" (["event", "data"] <+: ·) path
  | .adapterRequest, path => InBody "params" (fun _ => False) path
  | .adapterResponse, path => InBody "data" (fun _ => False) path

section Places
variable {D : Decoders} {key : String} {extra v v' : Json} {path : List String} {passed : Bool}

theorem eventData_passed (h : Encoding.Adds key extra (EventData.schema D) path passed v v') : passed = true := by
  rcases Encoding.Adds.of_tagged h with ⟨hpassed, -⟩ | ⟨variant, hvariant, name, presence, s, rest, x, x', hmem, -, hbelow⟩
  · exact hpassed
  · have hplain : (EventData.variants D).all (fun variant => variant.2.all (·.2.2.isPlain)) = true := rfl
    have hs : s.isPlain = true := List.all_eq_true.mp (List.all_eq_true.mp hplain variant hvariant) _ hmem
    rw [hbelow.not_plain] at hs
    exact nomatch hs

theorem event_passed_iff (h : Encoding.Adds key extra (Event.schema D) path passed v v') :
    passed = true ↔ path.head? = some "data" := by
  have hall : (Event.fields D).all (fun f => f.1 == "data" || f.2.2.denies) = true := rfl
  rcases h.of_struct_but hall with ⟨hpath, hpassed⟩ | ⟨presence, s, rest, x, x', hmem, rfl, hbelow⟩
  · exact iff_of_false (by rw [hpassed]; exact Bool.false_ne_true) hpath
  · have hs : s = EventData.schema D := by
      simp [Event.fields] at hmem
      exact hmem.2
    exact iff_of_true (eventData_passed (hs ▸ hbelow)) rfl

/-- An envelope passes over a key in its body, or in the content as the content does. -/
theorem envelope_passed_iff {tag content : String} {variants : List (String × List (String × Presence × Schema))}
    {fields : List (String × Presence × Schema)} {below : List String → Prop}
    (hall : fields.all (fun f => f.1 == "body" || f.2.2.denies) = true)
    (hbody : ∀ presence s, ("body", presence, s) ∈ fields → s = bodySchema tag content variants)
    (hbelow : ∀ variant ∈ variants, ∀ path passed v v', Encoding.Adds key extra (denying variant.2) path passed v v' →
      (passed = true ↔ below path))
    (h : Encoding.Adds key extra (denying fields) path passed v v') : passed = true ↔ InBody content below path := by
  rcases h.of_struct_but hall with ⟨hpath, hpassed⟩ | ⟨presence, s, rest, x, x', hmem, rfl, h⟩
  · refine iff_of_false (by rw [hpassed]; exact Bool.false_ne_true) ?_
    rintro ⟨rest, rfl, -⟩
    exact hpath rfl
  · obtain rfl := hbody presence s hmem
    rcases Encoding.Adds.of_adjacent h with ⟨hpassed, hpath⟩ | ⟨variant, hvariant, rest, y, y', rfl, h⟩
    · refine iff_of_true hpassed ⟨rest, rfl, ?_⟩
      rintro path' rfl
      exact absurd rfl hpath
    · obtain ⟨variant', hvariant', rfl⟩ := List.mem_map.mp hvariant
      rw [hbelow variant' hvariant' rest passed y y' h]
      constructor
      · intro hrest
        refine ⟨_, rfl, fun path' heq => ?_⟩
        rwa [← (List.cons.inj heq).2]
      · rintro ⟨_, heq, hrest⟩
        exact hrest rest (List.cons.inj heq).2.symm

theorem request_passed_iff (h : Encoding.Adds key extra (RequestEnvelope.schema D) path passed v v') :
    passed = true ↔ InBody "params" (["event", "data"] <+: ·) path := by
  have hbody : ∀ presence s, ("body", presence, s) ∈ RequestEnvelope.fields D →
      s = bodySchema "method" "params" (RequestBody.variants D) := by
    intro presence s hmem
    simp [RequestEnvelope.fields] at hmem
    exact hmem.2
  refine envelope_passed_iff rfl hbody (fun variant hvariant path passed v v' h => ?_) h
  have hall : (RequestBody.variants D).all (fun variant => variant.2.all fun f => f.1 == "event" || f.2.2.denies) = true := rfl
  rcases h.of_struct_but (List.all_eq_true.mp hall variant hvariant) with
    ⟨hpath, hpassed⟩ | ⟨presence, s, rest, x, x', hmem, rfl, hbelow⟩
  · refine iff_of_false (by rw [hpassed]; exact Bool.false_ne_true) ?_
    rintro ⟨rest, rfl⟩
    exact hpath rfl
  · -- only an ingestion has an event
    have hevents : ((RequestBody.variants D).flatMap (·.2)).filter (·.1 == "event") = [("event", .required, Event.schema D)] := rfl
    have hevent : ("event", presence, s) ∈ ((RequestBody.variants D).flatMap (·.2)).filter (·.1 == "event") :=
      List.mem_filter.mpr ⟨List.mem_flatMap.mpr ⟨variant, hvariant, hmem⟩, rfl⟩
    rw [hevents, List.mem_singleton] at hevent
    obtain ⟨-, rfl⟩ := Prod.mk.inj (Prod.mk.inj hevent).2
    rw [event_passed_iff hbelow]
    cases rest with
    | nil => simp
    | cons name rest => simp [eq_comm]

theorem adapterRequest_passed_iff (h : Encoding.Adds key extra (AdapterRequestEnvelope.schema D) path passed v v') :
    passed = true ↔ InBody "params" (fun _ => False) path := by
  have hbody : ∀ presence s, ("body", presence, s) ∈ AdapterRequestEnvelope.fields D →
      s = bodySchema "method" "params" (AdapterRequestBody.variants D) := by
    intro presence s hmem
    simp [AdapterRequestEnvelope.fields] at hmem
    exact hmem.2
  refine envelope_passed_iff rfl hbody (fun variant hvariant path passed v v' h => ?_) h
  have hall : (AdapterRequestBody.variants D).all (fun variant => (denying variant.2).denies) = true := rfl
  rw [h.refused (List.all_eq_true.mp hall variant hvariant)]
  simp

theorem adapterResponse_passed_iff (h : Encoding.Adds key extra (AdapterResponseEnvelope.schema D) path passed v v') :
    passed = true ↔ InBody "data" (fun _ => False) path := by
  have hbody : ∀ presence s, ("body", presence, s) ∈ AdapterResponseEnvelope.fields D →
      s = bodySchema "kind" "data" (AdapterResponseBody.variants D) := by
    intro presence s hmem
    simp [AdapterResponseEnvelope.fields] at hmem
    exact hmem.2
  refine envelope_passed_iff rfl hbody (fun variant hvariant path passed v v' h => ?_) h
  have hall : (AdapterResponseBody.variants D).all (fun variant => (denying variant.2).denies) = true := rfl
  rw [h.refused (List.all_eq_true.mp hall variant hvariant)]
  simp

theorem lax_iff_passed (message : Message) (h : Encoding.Adds key extra (message.schema D) path passed v v') :
    message.Lax path ↔ passed = true := by
  cases message with
  | event => exact (event_passed_iff h).symm
  | request => exact (request_passed_iff h).symm
  | adapterRequest => exact (adapterRequest_passed_iff h).symm
  | adapterResponse => exact (adapterResponse_passed_iff h).symm

/-- A key that is not known makes decoding fail, if and only if it does not come to lie in a lax object. -/
theorem unknown_key_refused_iff (message : Message) {d : Json} (hd : (message.schema D).decode v = some d)
    (h : ∃ passed, Encoding.Adds key extra (message.schema D) path passed v v') :
    (message.schema D).decode v' = none ↔ ¬ message.Lax path := by
  obtain ⟨passed, h⟩ := h
  rw [lax_iff_passed message h, h.decode d hd]
  cases passed <;> simp

/-- Wherever a key is added that the message does not have, it is refused or it changes nothing. -/
theorem extended_decode (message : Message) {d : Json} (hd : (message.schema D).decode v = some d)
    (h : Extended key extra path v v') (hkey : key ∉ (message.schema D).keys) :
    (message.schema D).decode v' = none ∨ (message.schema D).decode v' = some d := by
  obtain ⟨path', passed, hadds⟩ := h.adds _ d hd hkey
  rw [hadds.decode d hd]
  cases passed
  · exact .inl rfl
  · exact .inr rfl

end Places

/-! ## A key in the envelope, in the body and in the data -/

namespace Sample

def nilId : Json := (0 : Uuid).toJson

def statusBody (extra : List (String × Json)) : Json :=
  .object ([("method", .string "system.status"), ("params", .object [])] ++ extra)

def statusEnvelope (body : Json) (extra : List (String × Json)) : Json :=
  .object ([("protocol_version", currentProtocolVersion.toJson), ("request_id", nilId), ("body", body)] ++ extra)

def syntheticData (extra : List (String × Json)) : Json :=
  .object ([("kind", .string "synthetic"), ("label", .string "smoke"), ("counter", .number 1)] ++ extra)

def syntheticJson (data : Json) : Json :=
  .object [("spec_version", .string "1.0"), ("id", nilId), ("type", .string EventType.syntheticV1.name),
    ("source", .string "fubun-cli"), ("occurred_at", .string "2023-11-14T22:13:20Z"),
    ("received_at", .string "2023-11-14T22:13:20Z"), ("actor", .string "user"),
    ("adapter", .object [("id", .string "dev.fixture"), ("version", .string "0.1.0"), ("instance_id", nilId),
      ("sequence_no", .number 1)]),
    ("privacy", .string "normal"), ("data", data)]

def unexpected : String × Json := ("unexpected", .bool true)

def schemaOf (message : Message) : Schema := message.schema decoders

end Sample

open Sample in
theorem unknown_key_refused_envelope :
    (schemaOf .request).decode (statusEnvelope (statusBody []) [unexpected]) = none := by
  have hdecoded : ((schemaOf .request).decode (statusEnvelope (statusBody []) [])).isSome = true := by decide +kernel
  obtain ⟨d, hd⟩ := Option.isSome_iff_exists.mp hdecoded
  have hadds : Encoding.Adds "unexpected" (.bool true) (schemaOf .request) [] false (statusEnvelope (statusBody []) [])
      (statusEnvelope (statusBody []) [unexpected]) := by
    refine .key (w := ⟨[], true, .ofList (RequestEnvelope.fields decoders)⟩)
      (l := [("protocol_version", currentProtocolVersion.toJson), ("request_id", nilId), ("body", statusBody [])]) (r := []) rfl ?_
    decide +kernel
  have hlax : ¬ Message.request.Lax [] := by
    rintro ⟨_, h, -⟩
    exact nomatch h
  exact (unknown_key_refused_iff .request hd ⟨false, hadds⟩).mpr hlax

open Sample in
/-- Beside the method of a request, and in the data of an event, the key goes unnoticed. -/
theorem unknown_key_unnoticed :
    (∃ path passed, Encoding.Adds "unexpected" (.bool true) (schemaOf .request) path passed (statusEnvelope (statusBody []) [])
        (statusEnvelope (statusBody [unexpected]) []) ∧
      ((schemaOf .request).decode (statusEnvelope (statusBody []) [])).isSome = true ∧
      ((schemaOf .request).decode (statusEnvelope (statusBody [unexpected]) [])).isSome = true) ∧
    ∃ path passed, Encoding.Adds "unexpected" (.bool true) (schemaOf .event) path passed (syntheticJson (syntheticData []))
        (syntheticJson (syntheticData [unexpected])) ∧
      ((schemaOf .event).decode (syntheticJson (syntheticData []))).isSome = true ∧
      ((schemaOf .event).decode (syntheticJson (syntheticData [unexpected]))).isSome = true := by
  refine ⟨⟨["body"], true, ?_, by decide +kernel, by decide +kernel⟩, ⟨["data"], true, ?_, by decide +kernel, by decide +kernel⟩⟩
  · have hbody : Encoding.Adds "unexpected" (.bool true) (RequestBody.schema decoders) [] true (statusBody []) (statusBody [unexpected]) := by
      refine .key (w := ⟨[("method", .string "system.status")], false, .ofList [("params", .required, denying [])]⟩)
        (l := [("method", .string "system.status"), ("params", .object [])]) (r := []) rfl ?_
      decide +kernel
    exact .field (l := [("protocol_version", currentProtocolVersion.toJson), ("request_id", nilId)]) (r := []) rfl
      List.not_mem_nil rfl hbody
  · have hdata : Encoding.Adds "unexpected" (.bool true) (EventData.schema decoders) [] true (syntheticData [])
        (syntheticData [unexpected]) := by
      refine .key (w := ⟨[("kind", .string "synthetic")], false, .ofList [("label", .required, textSchema),
          ("counter", .required, .integer (-2 ^ 63) (2 ^ 63 - 1))]⟩)
        (l := [("kind", .string "synthetic"), ("label", .string "smoke"), ("counter", .number 1)]) (r := []) rfl ?_
      decide +kernel
    exact .field (l := [("spec_version", .string "1.0"), ("id", nilId), ("type", .string EventType.syntheticV1.name),
      ("source", .string "fubun-cli"), ("occurred_at", .string "2023-11-14T22:13:20Z"),
      ("received_at", .string "2023-11-14T22:13:20Z"), ("actor", .string "user"),
      ("adapter", .object [("id", .string "dev.fixture"), ("version", .string "0.1.0"), ("instance_id", nilId),
        ("sequence_no", .number 1)]), ("privacy", .string "normal")]) (r := []) rfl List.not_mem_nil rfl hdata

end Fubun

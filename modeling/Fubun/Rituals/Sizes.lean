import Fubun.Cli.Since
import Fubun.Encoding.Cost
import Fubun.Encoding.Text
import Fubun.Rituals.Readiness
import Fubun.Wire

/-! How long the JSON of a ritual is. The limits on its texts count characters; a character without an escape takes up to
four bytes, and one with an escape two, or four where the text of a text is written. -/

namespace Fubun
open Encoding Relational Concurrency Program

/-! ## JSON -/

def ExecutionMode.name : ExecutionMode → String
  | .sequential => "sequential"

def FailureMode.name : FailureMode → String
  | .stop => "stop"

def RitualStatus.name : RitualStatus → String
  | .draft => "draft"
  | .active => "active"
  | .paused => "paused"
  | .archived => "archived"

def ActionSpec.fields : ActionSpec → List (String × Json)
  | .linuxAppEnsureRunning appId => [("app_id", .string appId)]
  | .linuxPathOpen resourceId => [("resource_id", resourceId.toJson)]
  | .desktopNotificationShow title body => [("title", .string title), ("body", .string body)]
  | .browserTabEnsureOpen resourceId => [("resource_id", resourceId.toJson)]

def ActionSpec.toJson (action : ActionSpec) : Json := .object (("type", .string action.actionType) :: action.fields)

def RitualExecutionConfig.toJson (config : RitualExecutionConfig) : Json :=
  .object [("mode", .string config.mode.name), ("on_failure", .string config.onFailure.name),
    ("timeout_seconds", .number config.timeoutSeconds)]

def RitualDefinition.toJson (definition : RitualDefinition) : Json :=
  .object [("schema_version", .string definition.schemaVersion), ("name", .string definition.name),
    ("actions", .array (definition.actions.map ActionSpec.toJson)), ("execution", definition.execution.toJson)]

section Records
variable (crates : Crates)

def Ritual.toJson (ritual : Ritual) : Json :=
  .object [("id", ritual.id.toJson), ("name", .string ritual.name), ("status", .string ritual.status.name),
    ("current_version_id", ritual.currentVersionId.toJson), ("created_at", timestampJson crates ritual.createdAt),
    ("updated_at", timestampJson crates ritual.updatedAt)]

def RitualVersion.toJson (version : RitualVersion) : Json :=
  .object [("id", version.id.toJson), ("ritual_id", version.ritualId.toJson), ("version", .number version.version),
    ("schema_version", .string version.schemaVersion), ("canonical_json", .string version.canonicalJson),
    ("content_hash", .string version.contentHash), ("created_at", timestampJson crates version.createdAt)]

def ritualRecordJson (ritual : Ritual) (version : RitualVersion) (definition : RitualDefinition) : Json :=
  .object [("ritual", ritual.toJson crates), ("version", version.toJson crates), ("definition", definition.toJson)]

end Records

/-- `fubun ritual validate`. -/
def ritualValidate (definition : RitualDefinition) : Except CliError Unit :=
  match definition.validate with
  | .error _ => .error .unexpectedResponse
  | .ok () => .ok ()

/-! ## Short texts -/

/-- No more than `n` characters, and no control among them. -/
structure IsShort (n : Nat) (s : String) : Prop where
  length : s.length ≤ n
  clean : ∀ c ∈ s.toList, 0x20 ≤ c.toNat

section Sizes
variable {weight : Char → Nat} {q n : Nat} {s : String}

theorem IsShort.cost_le (hs : IsShort n s) (h : Light weight q) : cost weight (Json.string s).render ≤ 4 * n + 2 * q := by
  have hcost := cost_renderString_le h hs.clean
  have hlength := hs.length
  rw [Json.render]
  omega

instance (n : Nat) (s : String) : Decidable (IsShort n s) :=
  decidable_of_iff (s.length ≤ n ∧ (s.toList.all fun c => decide (0x20 ≤ c.toNat)) = true)
    ⟨fun h => ⟨h.1, List.all_iff_forall_prop.mp h.2⟩, fun h => ⟨h.1, List.all_iff_forall_prop.mpr h.2⟩⟩

theorem clean_of_not_control {text : List Char} (h : text.any isControl = false) : ∀ c ∈ text, 0x20 ≤ c.toNat := by
  intro c hc
  have hcontrol := List.any_eq_false.mp h c hc
  simp only [isControl, Bool.or_eq_true, decide_eq_true_eq, not_or] at hcontrol
  omega

theorem short_uuid (id : Uuid) : IsShort 36 id.text := ⟨(length_text id).le, fun c hc => (plain_text id c hc).1⟩

theorem cost_field_le (h : Light weight q) {key : String} {value : Json} {k m : Nat} (hkey : IsShort k key)
    (hvalue : cost weight value.render ≤ m) : cost weight (renderField (key, value)) ≤ 4 * k + 2 * q + 1 + m := by
  have hcost := hkey.cost_le h
  rw [Json.render] at hcost
  rw [cost_renderField h]
  omega

theorem short_appId {appId : String} (h : validateAppId appId = .ok ()) : IsShort 128 appId := by
  unfold validateAppId at h
  split_ifs at h with hbad
  obtain ⟨-, hlong, hletters⟩ := not_or.mp hbad |>.imp_right not_or.mp
  constructor
  · have hbytes := length_le_byteSize appId.toList
    rw [← utf8ByteSize_eq, String.length_toList] at hbytes
    omega
  · intro c hc
    have hletter := List.all_eq_true.mp (not_not.mp hletters) c hc
    simp only [isAsciiAlphanumeric, Bool.or_eq_true, Bool.and_eq_true, decide_eq_true_eq, beq_iff_eq] at hletter
    rcases hletter with (((hletter | hletter) | rfl) | rfl) | rfl
    · omega
    · omega
    · decide
    · decide
    · decide

theorem short_notification {field value : String} {maximum : Nat} (h : validateNotification field value maximum = .ok ()) :
    IsShort maximum value := by
  unfold validateNotification at h
  split_ifs at h with hbad
  obtain ⟨-, hlong, hcontrol⟩ := not_or.mp hbad |>.imp_right not_or.mp
  exact ⟨Nat.not_lt.mp hlong, clean_of_not_control (Bool.eq_false_iff.mpr hcontrol)⟩

theorem notification_valid {title body : String} (h : (ActionSpec.desktopNotificationShow title body).validate = .ok ()) :
    validateNotification "title" title 128 = .ok () ∧ validateNotification "body" body 1024 = .ok () := by
  obtain ⟨⟨⟩, htitle, hbody⟩ := bind_eq_ok.mp (show (validateNotification "title" title 128 >>=
    fun _ => validateNotification "body" body 1024) = .ok () from h)
  exact ⟨htitle, hbody⟩

/-! ## Actions and definitions -/

/-- The longest action is a notification. -/
theorem cost_action_le (h : Light weight q) {action : ActionSpec} (hvalid : action.validate = .ok ()) :
    cost weight action.toJson.render ≤ 4800 + 12 * q := by
  rw [ActionSpec.toJson, cost_object h]
  have htype : ∀ {text : String}, IsShort 28 text → cost weight (renderField ("type", .string text)) ≤ 4 * 4 + 2 * q + 1 + (4 * 28 + 2 * q) :=
    fun htext => cost_field_le h (by decide) (htext.cost_le h)
  cases action with
  | linuxAppEnsureRunning appId =>
    have hfirst := htype (show IsShort 28 "linux.app.ensure_running.v1" by decide)
    have happ := cost_field_le h (show IsShort 6 "app_id" by decide) ((short_appId hvalid).cost_le h)
    simp only [ActionSpec.actionType, ActionSpec.fields, List.map_cons, List.map_nil, List.sum_cons, List.sum_nil, List.length_cons, List.length_nil]
    omega
  | linuxPathOpen resourceId =>
    have hfirst := htype (show IsShort 28 "linux.path.open.v1" by decide)
    have hid := cost_field_le h (show IsShort 11 "resource_id" by decide) ((short_uuid resourceId).cost_le h)
    simp only [ActionSpec.actionType, ActionSpec.fields, Uuid.toJson, List.map_cons, List.map_nil, List.sum_cons, List.sum_nil, List.length_cons, List.length_nil]
    omega
  | desktopNotificationShow title body =>
    obtain ⟨htitle, hbody⟩ := notification_valid hvalid
    have hfirst := htype (show IsShort 28 "desktop.notification.show.v1" by decide)
    have hsecond := cost_field_le h (show IsShort 5 "title" by decide) ((short_notification htitle).cost_le h)
    have hthird := cost_field_le h (show IsShort 4 "body" by decide) ((short_notification hbody).cost_le h)
    simp only [ActionSpec.actionType, ActionSpec.fields, List.map_cons, List.map_nil, List.sum_cons, List.sum_nil, List.length_cons, List.length_nil]
    omega
  | browserTabEnsureOpen resourceId =>
    have hfirst := htype (show IsShort 28 "browser.tab.ensure_open.v1" by decide)
    have hid := cost_field_le h (show IsShort 11 "resource_id" by decide) ((short_uuid resourceId).cost_le h)
    simp only [ActionSpec.actionType, ActionSpec.fields, Uuid.toJson, List.map_cons, List.map_nil, List.sum_cons, List.sum_nil, List.length_cons, List.length_nil]
    omega

/-- What validation says of the parts of a definition. -/
structure RitualDefinition.IsValid (definition : RitualDefinition) : Prop where
  schemaVersion : definition.schemaVersion = ritualSchemaVersion
  name : IsShort 128 definition.name
  actions : definition.actions.length ≤ 16
  timeout : definition.execution.timeoutSeconds ≤ 120
  action : ∀ action ∈ definition.actions, action.validate = .ok ()

theorem RitualDefinition.isValid {definition : RitualDefinition} (h : definition.validate = .ok ()) : definition.IsValid := by
  have hactions := RitualDefinition.validate_actions h
  unfold RitualDefinition.validate at h
  split_ifs at h with hversion hname hcount htimeout
  obtain ⟨-, hlong, hcontrol⟩ := not_or.mp hname |>.imp_right not_or.mp
  exact ⟨not_not.mp hversion, ⟨Nat.not_lt.mp hlong, clean_of_not_control (Bool.eq_false_iff.mpr hcontrol)⟩,
    Nat.not_lt.mp (not_or.mp hcount).2, Nat.not_lt.mp (not_or.mp htimeout).2, hactions⟩

theorem cost_execution_le (h : Light weight q) {config : RitualExecutionConfig} (htimeout : config.timeoutSeconds ≤ 120) :
    cost weight config.toJson.render ≤ 220 + 10 * q := by
  have hmode : IsShort 10 config.mode.name := by cases config.mode; decide
  have hfailure : IsShort 4 config.onFailure.name := by cases config.onFailure; decide
  have hfirst := cost_field_le h (show IsShort 4 "mode" by decide) (hmode.cost_le h)
  have hsecond := cost_field_le h (show IsShort 10 "on_failure" by decide) (hfailure.cost_le h)
  have hthird := cost_field_le h (show IsShort 15 "timeout_seconds" by decide)
    (cost_natural_le h (show 0 < 3 by decide) (show config.timeoutSeconds < 10 ^ 3 by omega))
  rw [RitualExecutionConfig.toJson, cost_object h]
  simp only [List.map_cons, List.map_nil, List.sum_cons, List.sum_nil, List.length_cons, List.length_nil]
  omega

theorem cost_definition_le (h : Light weight q) {definition : RitualDefinition} (hvalid : definition.IsValid) :
    cost weight definition.toJson.render ≤ 78000 + 220 * q := by
  have hactions : cost weight (Json.array (definition.actions.map ActionSpec.toJson)).render ≤ 16 * (4800 + 12 * q) + 16 + 2 := by
    refine cost_array_le h (by rw [List.length_map]; exact hvalid.actions) ?_
    rw [List.forall_mem_map]
    exact fun action haction => cost_action_le h (hvalid.action action haction)
  have hversion : IsShort 18 definition.schemaVersion := by
    rw [hvalid.schemaVersion]
    decide
  have hfirst := cost_field_le h (show IsShort 14 "schema_version" by decide) (hversion.cost_le h)
  have hsecond := cost_field_le h (show IsShort 4 "name" by decide) (hvalid.name.cost_le h)
  have hthird := cost_field_le h (show IsShort 7 "actions" by decide) hactions
  have hfourth := cost_field_le h (show IsShort 9 "execution" by decide) (cost_execution_le h hvalid.timeout)
  rw [RitualDefinition.toJson, cost_object h]
  simp only [List.map_cons, List.map_nil, List.sum_cons, List.sum_nil, List.length_cons, List.length_nil]
  omega

end Sizes

/-! ## Records -/

/-- What the crates write: compact JSON, 64 hexadecimal digits, and a timestamp with at most nine digits of a second and an
offset. -/
structure Crates.IsCompact (crates : Crates) : Prop where
  canonicalJson : ∀ definition, crates.canonicalJson definition = some (.ofList definition.toJson.render)
  sha256Hex : ∀ text, (crates.sha256Hex text).length = 64 ∧ ∀ c ∈ (crates.sha256Hex text).toList, c ∈ "0123456789abcdef".toList
  formatRfc3339 : ∀ t, IsShort 35 (crates.formatRfc3339 t)

/-- The ritual and the version go with the definition. -/
structure IsRecord (crates : Crates) (ritual : Ritual) (version : RitualVersion) (definition : RitualDefinition) : Prop where
  name : ritual.name = definition.name
  stores : version.Stores crates definition
  schemaVersion : version.schemaVersion = ritualSchemaVersion
  number : version.version ≤ u32Max

section Records
variable {crates : Crates} {ritual : Ritual} {version : RitualVersion} {definition : RitualDefinition}

theorem Crates.IsCompact.short_sha256Hex (h : crates.IsCompact) (text : String) : IsShort 64 (crates.sha256Hex text) := by
  obtain ⟨hlength, hdigits⟩ := h.sha256Hex text
  have hclean : ∀ c ∈ "0123456789abcdef".toList, 0x20 ≤ c.toNat := List.all_iff_forall_prop.mp (by decide)
  exact ⟨hlength.le, fun c hc => hclean c (hdigits c hc)⟩

theorem field_timestamp_le (t : OffsetDateTime) (hformat : IsShort 35 (crates.formatRfc3339 t)) {key : String} (hkey : IsShort 11 key) :
    cost Char.utf8Size (renderField (key, timestampJson crates t)) ≤ 189 := by
  have hfield := cost_field_le light_utf8Size hkey (hformat.cost_le light_utf8Size)
  exact hfield

theorem field_uuid_le (id : Uuid) {key : String} (hkey : IsShort 18 key) :
    cost Char.utf8Size (renderField (key, id.toJson)) ≤ 221 := by
  have hfield := cost_field_le light_utf8Size hkey ((short_uuid id).cost_le light_utf8Size)
  exact hfield

/-- The canonical JSON of a valid definition, plain and inside a literal. -/
theorem canonical_sizes (h : crates.IsCompact) (hvalid : definition.IsValid) {canonical : String}
    (hcanonical : crates.canonicalJson definition = some canonical) :
    canonical.utf8ByteSize ≤ 78220 ∧ cost Char.utf8Size (Json.string canonical).render ≤ 78442 := by
  rw [h.canonicalJson] at hcanonical
  obtain rfl := Option.some.inj hcanonical
  have hplain := cost_definition_le light_utf8Size hvalid
  have hescaped := cost_definition_le light_escapedSize hvalid
  have hliteral := byteSize_renderString_eq (String.ofList definition.toJson.render)
  rw [String.toList_ofList] at hliteral
  constructor
  · rw [utf8ByteSize_ofList]
    exact hplain
  · show byteSize (renderString _) ≤ _
    omega

theorem cost_ritual_le (h : crates.IsCompact) (hname : IsShort 128 ritual.name) :
    cost Char.utf8Size (ritual.toJson crates).render ≤ 1500 := by
  have hstatus : IsShort 8 ritual.status.name := by cases ritual.status <;> decide
  have hid := field_uuid_le ritual.id (show IsShort 18 "id" by decide)
  have hsecond := cost_field_le light_utf8Size (show IsShort 4 "name" by decide) (hname.cost_le light_utf8Size)
  have hthird := cost_field_le light_utf8Size (show IsShort 6 "status" by decide) (hstatus.cost_le light_utf8Size)
  have hcurrent := field_uuid_le ritual.currentVersionId (show IsShort 18 "current_version_id" by decide)
  have hcreated := field_timestamp_le ritual.createdAt (h.formatRfc3339 _) (show IsShort 11 "created_at" by decide)
  have hupdated := field_timestamp_le ritual.updatedAt (h.formatRfc3339 _) (show IsShort 11 "updated_at" by decide)
  rw [Ritual.toJson, cost_object light_utf8Size]
  simp only [List.map_cons, List.map_nil, List.sum_cons, List.sum_nil, List.length_cons, List.length_nil]
  omega

theorem cost_version_le (h : crates.IsCompact) (hvalid : definition.IsValid) (hrecord : IsRecord crates ritual version definition) :
    cost Char.utf8Size (version.toJson crates).render ≤ 80000 := by
  obtain ⟨-, hcanonical⟩ := canonical_sizes h hvalid hrecord.stores.canonicalJson
  have hhash : IsShort 64 version.contentHash := by
    have hstored := hrecord.stores.contentHash
    rw [RitualDefinition.contentHash, hrecord.stores.canonicalJson] at hstored
    rw [← Option.some.inj hstored]
    exact h.short_sha256Hex _
  have hschema : IsShort 18 version.schemaVersion := by
    rw [hrecord.schemaVersion]
    decide
  have hnumber : version.version < 10 ^ 10 := Nat.lt_of_le_of_lt hrecord.number (by decide)
  have hid := field_uuid_le version.id (show IsShort 18 "id" by decide)
  have hritual := field_uuid_le version.ritualId (show IsShort 18 "ritual_id" by decide)
  have hthird := cost_field_le light_utf8Size (show IsShort 7 "version" by decide)
    (cost_natural_le light_utf8Size (by decide) hnumber)
  have hfourth := cost_field_le light_utf8Size (show IsShort 14 "schema_version" by decide) (hschema.cost_le light_utf8Size)
  have hfifth := cost_field_le light_utf8Size (show IsShort 14 "canonical_json" by decide) hcanonical
  have hsixth := cost_field_le light_utf8Size (show IsShort 12 "content_hash" by decide) (hhash.cost_le light_utf8Size)
  have hcreated := field_timestamp_le version.createdAt (h.formatRfc3339 _) (show IsShort 11 "created_at" by decide)
  rw [RitualVersion.toJson, cost_object light_utf8Size]
  simp only [List.map_cons, List.map_nil, List.sum_cons, List.sum_nil, List.length_cons, List.length_nil]
  omega

theorem response_framed (requestId : Uuid) {kind : String} {data : Json} (hkind : IsShort 14 kind)
    (hdata : cost Char.utf8Size data.render ≤ 160000) : (encodeJsonFrame (okResponseJson requestId kind data)).isOk = true := by
  have hprotocol : cost Char.utf8Size currentProtocolVersion.toJson.render = 21 := by decide +kernel
  have hfirst := cost_field_le light_utf8Size (show IsShort 16 "protocol_version" by decide) hprotocol.le
  have hid := field_uuid_le requestId (show IsShort 18 "request_id" by decide)
  have hstatus := cost_field_le light_utf8Size (show IsShort 7 "status" by decide)
    ((show IsShort 2 "ok" by decide).cost_le light_utf8Size)
  have hkinds := cost_field_le light_utf8Size (show IsShort 4 "kind" by decide) (hkind.cost_le light_utf8Size)
  have hrest := cost_field_le light_utf8Size (show IsShort 4 "data" by decide) hdata
  have hpayload : cost Char.utf8Size (Json.object [("kind", .string kind), ("data", data)]).render ≤ 161000 := by
    rw [cost_object light_utf8Size]
    simp only [List.map_cons, List.map_nil, List.sum_cons, List.sum_nil, List.length_cons, List.length_nil]
    omega
  have hpayloads := cost_field_le light_utf8Size (show IsShort 7 "payload" by decide) hpayload
  have hbody : cost Char.utf8Size
      (Json.object [("status", .string "ok"), ("payload", .object [("kind", .string kind), ("data", data)])]).render ≤ 162000 := by
    rw [cost_object light_utf8Size]
    simp only [List.map_cons, List.map_nil, List.sum_cons, List.sum_nil, List.length_cons, List.length_nil]
    omega
  have hbodies := cost_field_le light_utf8Size (show IsShort 4 "body" by decide) hbody
  rw [encodeJsonFrame_isOk, size_eq_cost, okResponseJson, cost_object light_utf8Size]
  simp only [List.map_cons, List.map_nil, List.sum_cons, List.sum_nil, List.length_cons, List.length_nil]
  unfold maxMessageSize
  omega

theorem cost_record_le (h : crates.IsCompact) (hvalid : definition.IsValid) (hrecord : IsRecord crates ritual version definition) :
    cost Char.utf8Size (ritualRecordJson crates ritual version definition).render ≤ 160000 := by
  have hname : IsShort 128 ritual.name := hrecord.name ▸ hvalid.name
  have hritual := cost_field_le light_utf8Size (show IsShort 10 "ritual" by decide) (cost_ritual_le h hname)
  have hversion := cost_field_le light_utf8Size (show IsShort 10 "version" by decide) (cost_version_le h hvalid hrecord)
  have hdefinition := cost_field_le light_utf8Size (show IsShort 10 "definition" by decide)
    (cost_definition_le light_utf8Size hvalid)
  rw [ritualRecordJson, cost_object light_utf8Size]
  simp only [List.map_cons, List.map_nil, List.sum_cons, List.sum_nil, List.length_cons, List.length_nil]
  omega

/-- The core's check adds nothing to the validation of a definition. -/
theorem validateRitualDefinition_isOk (h : crates.IsCompact) (definition : RitualDefinition) :
    (validateRitualDefinition crates definition).isOk = (ritualValidate definition).isOk := by
  have hpolicy : ∀ actions, validatePolicy actions = .ok () := by
    intro actions
    induction actions with
    | nil => rfl
    | cons action actions ih =>
      rw [validatePolicy, validateAction_ok]
      exact ih
  unfold validateRitualDefinition ritualValidate
  cases hvalid : definition.validate with
  | error e => rfl
  | ok =>
    have hsize := (canonical_sizes h (RitualDefinition.isValid hvalid) (h.canonicalJson definition)).1
    have hfits : ¬ (String.ofList definition.toJson.render).utf8ByteSize > maxRitualJsonBytes :=
      Nat.not_lt.mpr (hsize.trans (by decide))
    dsimp only
    rw [hpolicy, h.canonicalJson]
    dsimp only
    rw [if_neg hfits]
    rfl

/-! ## Responses -/

theorem create_record {id : Uuid} {τ : List (Answered Op.Res)} {stored : RitualDefinition}
    {k : Op.Res (.storage (.createRitual ritual version stored)) → Core ResponseEnvelope}
    (hl : Leads (ritualCreateResponse crates id definition) τ (.call (.storage (.createRitual ritual version stored)) k)) :
    stored = definition ∧ IsRecord crates ritual version definition ∧
      k (.ok (ritual, version, stored)) = .ret (.ok id (.ritualCreated ritual version stored)) := by
  unfold ritualCreateResponse at hl
  split at hl
  · exact absurd hl not_leads_ret_call
  rename_i canonical hvalid
  split at hl
  · exact absurd hl not_leads_ret_call
  rename_i contentHash hhash
  obtain ⟨now, τ₁, -, hl⟩ := leads_perform_call hl nofun
  obtain ⟨newId, τ₂, -, hl⟩ := leads_perform_call hl nofun
  obtain ⟨versionId, τ₃, -, hl⟩ := leads_perform_call hl nofun
  rcases leads_perform_bind.mp hl with ⟨-, heq⟩ | ⟨r, τ₄, -, hl⟩
  · obtain ⟨hop, hk⟩ := Program.call.inj heq
    obtain ⟨rfl, rfl, rfl⟩ := Operation.createRitual.inj (Op.storage.inj hop)
    obtain rfl := eq_of_heq hk
    exact ⟨rfl, ⟨rfl, ⟨validateRitualDefinition_ok hvalid, hhash⟩, rfl, show 1 ≤ u32Max by decide⟩, rfl⟩
  · split at hl <;> exact absurd hl not_leads_ret_call

theorem update_record {id ritualId : Uuid} {τ : List (Answered Op.Res)} {stored : RitualDefinition}
    {k : Op.Res (.storage (.updateRitual ritual version stored)) → Core ResponseEnvelope}
    (hl : Leads (ritualUpdateResponse crates id ritualId definition) τ (.call (.storage (.updateRitual ritual version stored)) k)) :
    stored = definition ∧ IsRecord crates ritual version definition ∧
      k (.ok (ritual, version, stored)) = .ret (.ok id (.ritualUpdated ritual version stored)) := by
  unfold ritualUpdateResponse at hl
  split at hl
  · exact absurd hl not_leads_ret_call
  rename_i canonical hvalid
  split at hl
  · exact absurd hl not_leads_ret_call
  rename_i contentHash hhash
  obtain ⟨r, τ₁, hτ, hl⟩ := leads_perform_call hl nofun
  split at hl
  · exact absurd hl not_leads_ret_call
  · exact absurd hl not_leads_ret_call
  rename_i read current definition'
  obtain ⟨now, τ₂, -, hl⟩ := leads_perform_call hl nofun
  obtain ⟨versionId, τ₃, -, hl⟩ := leads_perform_call hl nofun
  rcases leads_perform_bind.mp hl with ⟨-, heq⟩ | ⟨r, τ₄, -, hl⟩
  · obtain ⟨hop, hk⟩ := Program.call.inj heq
    obtain ⟨rfl, rfl, rfl⟩ := Operation.updateRitual.inj (Op.storage.inj hop)
    obtain rfl := eq_of_heq hk
    exact ⟨rfl, ⟨rfl, ⟨validateRitualDefinition_ok hvalid, hhash⟩, rfl, Nat.min_le_right ..⟩, rfl⟩
  · split at hl <;> exact absurd hl not_leads_ret_call

/-- A definition is accepted exactly when it is valid; then its canonical JSON is within the limit, and every response with
a record of it fits into a frame. -/
theorem ritual_fits (h : crates.IsCompact) (definition : RitualDefinition) :
    (validateRitualDefinition crates definition).isOk = (ritualValidate definition).isOk ∧
      (definition.validate = .ok () →
        (∃ canonical, crates.canonicalJson definition = some canonical ∧ canonical.utf8ByteSize ≤ maxRitualJsonBytes) ∧
        ∀ requestId ritual version, IsRecord crates ritual version definition →
          ∀ kind ∈ ["ritual.created", "ritual.updated", "ritual.show"],
            (encodeJsonFrame (okResponseJson requestId kind (ritualRecordJson crates ritual version definition))).isOk = true) := by
  refine ⟨validateRitualDefinition_isOk h definition, fun hvalid => ⟨?_, fun requestId ritual version hrecord kind hkind => ?_⟩⟩
  · have hsize := (canonical_sizes h (RitualDefinition.isValid hvalid) (h.canonicalJson definition)).1
    exact ⟨_, h.canonicalJson definition, hsize.trans (by decide)⟩
  · have hshort : ∀ kind ∈ ["ritual.created", "ritual.updated", "ritual.show"], IsShort 14 kind := by decide
    exact response_framed requestId (hshort kind hkind) (cost_record_le h (RitualDefinition.isValid hvalid) hrecord)

end Records

namespace Sample

def compactCrates : Crates where
  canonicalJson definition := some (.ofList definition.toJson.render)
  parseDefinition := crates.parseDefinition
  sha256Hex text :=
    if text = json now then "d3d0317617723a16a0859fa34c1768dc0126311ec75e549a0596074ee9f09409"
    else "e3b0c44298fc1c149afbf4c8996fb92427ae41e4649b934ca495991b7852b855"
  parseUrl := crates.parseUrl
  urlToString := crates.urlToString
  formatRfc3339? := crates.formatRfc3339?

theorem compactCrates_isCompact : compactCrates.IsCompact := by
  refine ⟨fun _ => rfl, fun text => ?_, fun _ => show IsShort 35 "1970-01-01T00:00:00Z" by decide⟩
  unfold compactCrates
  dsimp only
  split_ifs
  · exact ⟨by decide +kernel, List.all_iff_forall_prop.mp (by decide +kernel)⟩
  · exact ⟨by decide +kernel, List.all_iff_forall_prop.mp (by decide +kernel)⟩

theorem render_definition : String.ofList (definition now).toJson.render = json now := by
  have hrender : (definition now).toJson.render = (json now).toList := by decide +kernel
  rw [hrender, String.ofList_toList]

theorem ritual_fits_notification : (validateRitualDefinition compactCrates (definition now)).isOk = true ∧
    (encodeJsonFrame (okResponseJson 1 "ritual.created" (ritualRecordJson compactCrates ⟨2, "Focus", .draft, 3, ⟨0, 0⟩, ⟨0, 0⟩⟩
      ⟨3, 2, 1, ritualSchemaVersion, json now, compactCrates.sha256Hex (json now), ⟨0, 0⟩⟩ (definition now)))).isOk = true := by
  have hvalid : (definition now).validate = .ok () := by decide +kernel
  obtain ⟨haccepted, hfits⟩ := ritual_fits compactCrates_isCompact (definition now)
  obtain ⟨-, hframed⟩ := hfits hvalid
  have hcanonical : compactCrates.canonicalJson (definition now) = some (json now) := congrArg some render_definition
  have hhash : (definition now).contentHash compactCrates = some (compactCrates.sha256Hex (json now)) :=
    congrArg (Option.map compactCrates.sha256Hex) hcanonical
  have hrecord : IsRecord compactCrates ⟨2, "Focus", .draft, 3, ⟨0, 0⟩, ⟨0, 0⟩⟩
      ⟨3, 2, 1, ritualSchemaVersion, json now, compactCrates.sha256Hex (json now), ⟨0, 0⟩⟩ (definition now) := by
    refine ⟨rfl, ⟨hcanonical, ?_⟩, rfl, show 1 ≤ u32Max by decide⟩
    rw [hhash]
  refine ⟨?_, hframed 1 _ _ hrecord _ List.mem_cons_self⟩
  rw [haccepted, ritualValidate, hvalid]
  rfl

end Sample

end Fubun

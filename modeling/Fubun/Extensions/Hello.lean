import Fubun.Bridge.Sequence
import Fubun.Core.Adapters
import Fubun.Extensions.Observation
import Fubun.Extensions.Observing
import Fubun.Ids

/-! The hello of the browser extension, from its storage to the registry of the core. It names every page
that is observed with permission, and the native host takes no more than 256. -/

namespace Fubun
open Encoding Extensions

namespace Extensions
open Concurrency Program System Relational

/-! ## The extension -/

/-- The loop of `extensionHello`. -/
def permittedResourceIds : List BrowserResourceMapping → Browser (List String)
  | [] => return []
  | mapping :: current => do
    if mapping.isActive then
      if ← browser (.permissionGranted mapping.originPattern) then
        return mapping.resourceId :: (← permittedResourceIds current)
      else permittedResourceIds current
    else permittedResourceIds current

def extensionVersion : String := "0.1.0"

def extensionHello (extensionId : String) (instanceId requestId : Uuid) : Browser Json := do
  let permitted ← permittedResourceIds (← mappings)
  let envelope := Bridge.extensionHello ⟨requestId.text, extensionId, extensionVersion, permitted⟩ ⟨instanceId.text, 1⟩
  return nativeEnvelope requestId envelope.type (envelope.payload.getD .null)

def actGranted (granted : String → Bool) (o : BrowserOp) (w : BrowserWorld) : Option (o.Res × BrowserWorld) :=
  BrowserWorld.act 0 o
    { tab := none, connected := false, posted := false, reply := none
      granted := match o with
        | .permissionGranted origin => granted origin
        | _ => false } w

def permitted (granted : String → Bool) (store : List BrowserResourceMapping) : List BrowserResourceMapping :=
  (store.filter (·.isMapping)).filter fun mapping => mapping.isActive && granted mapping.originPattern

/-! ## The native host and the core -/

structure ExtensionHello where
  extensionId : String
  extensionVersion : String
  extensionInstanceId : Uuid
  permittedResourceIds : List Uuid

def decodeExtensionHello (D : Decoders) (value : Json) : Option ExtensionHello := do
  match ← structFields ["extension_id", "extension_version", "extension_instance_id", "permitted_resource_ids"] value with
  | [extensionId, extensionVersion, instanceId, .array ids] =>
    return ⟨← decodeText extensionId, ← decodeText extensionVersion, ← decodeUuid D instanceId, ← ids.mapM (decodeUuid D)⟩
  | _ => none

def validateExtensionHello (hello : ExtensionHello) (expectedExtensionId : String) : Except String Unit :=
  if hello.extensionId ≠ expectedExtensionId then .error "extension hello identity mismatch"
  else if hello.extensionVersion = "" ∨ hello.extensionVersion.utf8ByteSize > 64 ∨
      hello.extensionVersion.toList.any isControl then
    .error "invalid extension version"
  else if hello.permittedResourceIds.length > 256 ∨
      hello.permittedResourceIds.dedup.length ≠ hello.permittedResourceIds.length then
    .error "invalid permitted browser resources"
  else .ok ()

/-- The `uuid` crate reads what it writes. -/
def Decoders.ReadsUuids (D : Decoders) : Prop := ∀ id : Uuid, ∃ read, D.parseUuid id.text = some read ∧ read.text = id.text

/-- The hello that `run_host` makes of the extension's. -/
def ExtensionHello.adapterHello (hello : ExtensionHello) : AdapterHello where
  adapterId := browserAdapterId
  adapterVersion := "0.1.0"
  instanceId := hello.extensionInstanceId
  actionCapabilities := ["browser.tab.ensure_open.v1"]
  eventCapabilities := ["dev.fubun.browser.resource.opened.v1"]
  status := ⟨[], [], hello.permittedResourceIds⟩

def toolStatusJson (tool : AdapterToolStatus) : Json :=
  .object [("name", .string tool.name), ("available", .bool tool.available)]

def adapterHelloJson (requestId : Uuid) (hello : AdapterHello) : Json :=
  requestJson requestId "adapter.hello" (.object [("adapter_id", .string hello.adapterId),
    ("adapter_version", .string hello.adapterVersion), ("instance_id", hello.instanceId.toJson),
    ("action_capabilities", .array (hello.actionCapabilities.map .string)),
    ("event_capabilities", .array (hello.eventCapabilities.map .string)),
    ("status", .object [("tools", .array (hello.status.tools.map toolStatusJson)),
      ("desktop_entry_ids", .array (hello.status.desktopEntryIds.map .string)),
      ("permitted_resource_ids", .array (hello.status.permittedResourceIds.map Uuid.toJson))])])

/-- The hello gets through to the registry: the host takes it, and the core takes what the host makes of it. -/
def Accepted (D : Decoders) (extensionId : String) (requestId : Uuid) (value : Json) : Prop :=
  ∃ message hello, decodeNativeEnvelope D value = some message ∧
    message.protocolVersion.major = currentProtocolVersion.major ∧ message.messageType = "extension.hello" ∧
    decodeExtensionHello D message.payload = some hello ∧ validateExtensionHello hello extensionId = .ok () ∧
    validateHello hello.adapterHello = .ok () ∧ (encodeJsonFrame (adapterHelloJson requestId hello.adapterHello)).isOk = true

/-! ## What the hello says -/

section Hello
variable {granted : String → Bool} {w : BrowserWorld} {store : List BrowserResourceMapping}

theorem permittedResourceIds_evaluate (current : List BrowserResourceMapping) :
    (permittedResourceIds current).evaluate (actGranted granted) w =
      some ((current.filter fun mapping => mapping.isActive && granted mapping.originPattern).map (·.resourceId), w) := by
  induction current with
  | nil => rfl
  | cons mapping current ih =>
    unfold permittedResourceIds
    rw [List.filter_cons]
    cases hactive : mapping.isActive with
    | false => exact ih
    | true =>
      have hact : actGranted granted (.permissionGranted mapping.originPattern) w = some (granted mapping.originPattern, w) := rfl
      rw [if_pos rfl, evaluate_perform_of hact]
      cases hgranted : granted mapping.originPattern with
      | false => exact ih
      | true =>
        rw [if_pos rfl, evaluate_bind_of ih]
        rfl

def helloJson (granted : String → Bool) (store : List BrowserResourceMapping) (extensionId : String)
    (instanceId requestId : Uuid) : Json :=
  nativeEnvelope requestId "extension.hello" (.object [("extension_id", .string extensionId),
    ("extension_version", .string extensionVersion), ("extension_instance_id", instanceId.toJson),
    ("permitted_resource_ids", .array (((permitted granted store).map (·.resourceId)).map .string))])

theorem extensionHello_evaluate (extensionId : String) (instanceId requestId : Uuid) :
    (extensionHello extensionId instanceId requestId).evaluate (actGranted granted) w =
      some (helloJson granted w.store extensionId instanceId requestId, w) := by
  have hmappings : mappings.evaluate (actGranted granted) w = some (w.store.filter (·.isMapping), w) := rfl
  have hpermitted : (permittedResourceIds (w.store.filter (·.isMapping))).evaluate (actGranted granted) w =
      some ((permitted granted w.store).map (·.resourceId), w) := permittedResourceIds_evaluate _
  rw [extensionHello, evaluate_bind_of hmappings, evaluate_bind_of hpermitted]
  rfl

/-! ## What the others make of it -/

theorem decodeIds {D : Decoders} (hD : D.ReadsUuids) {store : List BrowserResourceMapping}
    (h : ∀ m ∈ store, ∃ id : Uuid, m.resourceId = id.text) :
    ∃ ids : List Uuid, ((store.map (·.resourceId)).map Json.string).mapM (decodeUuid D) = some ids ∧
      ids.map Uuid.text = store.map (·.resourceId) := by
  induction store with
  | nil => exact ⟨[], rfl, rfl⟩
  | cons m store ih =>
    obtain ⟨ids, hids, htexts⟩ := ih fun m' hm' => h m' (List.mem_cons_of_mem m hm')
    obtain ⟨id, hid⟩ := h m List.mem_cons_self
    obtain ⟨read, hread, htext⟩ := hD id
    have hdecode : decodeUuid D (.string m.resourceId) = some read := by
      rw [hid]
      exact hread
    refine ⟨read :: ids, ?_, ?_⟩
    · rw [List.map_cons, List.map_cons, List.mapM_cons, hdecode, hids]
      rfl
    · rw [List.map_cons, List.map_cons, htexts, htext, hid]

/-- The core has no objection to what the host says of itself. -/
theorem validateHello_adapterHello (hello : ExtensionHello) : validateHello hello.adapterHello = .ok () := by
  have hfixed : ∀ hello' : AdapterHello, hello'.adapterId = browserAdapterId → hello'.adapterVersion = "0.1.0" →
      hello'.actionCapabilities = ["browser.tab.ensure_open.v1"] →
      hello'.eventCapabilities = ["dev.fubun.browser.resource.opened.v1"] → validateHello hello' = .ok () := by
    intro hello' hid hversion hactions hevents
    rw [validateHello, hid, hversion, hactions, hevents]
    decide +kernel
  exact hfixed _ rfl rfl rfl rfl

theorem size_ids (ids : List Uuid) : (Json.array (ids.map Uuid.toJson)).size ≤ 39 * ids.length + 2 := by
  have hsizes : ((ids.map Uuid.toJson).map Json.size).sum = 38 * ids.length := by
    induction ids with
    | nil => rfl
    | cons id ids ih =>
      rw [List.map_cons, List.map_cons, List.sum_cons, ih, size_uuid, List.length_cons]
      omega
  rw [size_array, hsizes, List.length_map]
  omega

theorem size_adapterHelloJson (requestId : Uuid) (hello : ExtensionHello) :
    (adapterHelloJson requestId hello.adapterHello).size ≤ 39 * hello.permittedResourceIds.length + 600 := by
  -- only the permitted ids grow with the store
  have hids := size_ids hello.permittedResourceIds
  have hstatus : (Json.object [("tools", .array ([] : List Json)), ("desktop_entry_ids", .array ([] : List Json)),
      ("permitted_resource_ids", .array (hello.permittedResourceIds.map Uuid.toJson))]).size ≤
      39 * hello.permittedResourceIds.length + 80 := by
    have htools : fieldSize ("tools", .array []) = 10 := by decide
    have hentries : fieldSize ("desktop_entry_ids", .array []) = 22 := by decide
    have hkey : byteSize (renderString "permitted_resource_ids") = 24 := by decide
    simp only [size_object, List.map_cons, List.map_nil, List.sum_cons, List.sum_nil, List.length_cons, List.length_nil,
      htools, hentries, fieldSize_eq "permitted_resource_ids", hkey]
    omega
  have hparams : (Json.object [("adapter_id", .string browserAdapterId), ("adapter_version", .string "0.1.0"),
      ("instance_id", hello.extensionInstanceId.toJson),
      ("action_capabilities", .array [.string "browser.tab.ensure_open.v1"]),
      ("event_capabilities", .array [.string "dev.fubun.browser.resource.opened.v1"]),
      ("status", .object [("tools", .array ([] : List Json)), ("desktop_entry_ids", .array ([] : List Json)),
        ("permitted_resource_ids", .array (hello.permittedResourceIds.map Uuid.toJson))])]).size ≤
      39 * hello.permittedResourceIds.length + 400 := by
    have hid : fieldSize ("adapter_id", .string browserAdapterId) = 41 := by decide
    have hversion : fieldSize ("adapter_version", .string "0.1.0") = 25 := by decide
    have hinstance : byteSize (renderString "instance_id") = 13 := by decide
    have hactions : fieldSize ("action_capabilities", .array [.string "browser.tab.ensure_open.v1"]) = 52 := by decide
    have hevents : fieldSize ("event_capabilities", .array [.string "dev.fubun.browser.resource.opened.v1"]) = 61 := by decide
    have hkey : byteSize (renderString "status") = 8 := by decide
    simp only [size_object, List.map_cons, List.map_nil, List.sum_cons, List.sum_nil, List.length_cons, List.length_nil,
      hid, hversion, hactions, hevents, fieldSize_eq "instance_id", hinstance, fieldSize_eq "status", hkey, size_uuid]
      at hstatus ⊢
    omega
  have hversion : fieldSize ("protocol_version", currentProtocolVersion.toJson) = 40 := by decide
  have hrequest : byteSize (renderString "request_id") = 12 := by decide
  have hbody : byteSize (renderString "body") = 6 := by decide
  have hmethod : fieldSize ("method", .string "adapter.hello") = 24 := by decide
  have hkey : byteSize (renderString "params") = 8 := by decide
  have hframe : (requestJson requestId "adapter.hello" (.object [("adapter_id", .string browserAdapterId),
      ("adapter_version", .string "0.1.0"), ("instance_id", hello.extensionInstanceId.toJson),
      ("action_capabilities", .array [.string "browser.tab.ensure_open.v1"]),
      ("event_capabilities", .array [.string "dev.fubun.browser.resource.opened.v1"]),
      ("status", .object [("tools", .array ([] : List Json)), ("desktop_entry_ids", .array ([] : List Json)),
        ("permitted_resource_ids", .array (hello.permittedResourceIds.map Uuid.toJson))])])).size ≤
      39 * hello.permittedResourceIds.length + 600 := by
    rw [requestJson, size_object]
    simp only [List.map_cons, List.map_nil, List.sum_cons, List.sum_nil, List.length_cons, List.length_nil, hversion,
      fieldSize_eq "request_id", hrequest, size_uuid, fieldSize_eq "body", hbody]
    rw [size_object]
    simp only [List.map_cons, List.map_nil, List.sum_cons, List.sum_nil, List.length_cons, List.length_nil, hmethod,
      fieldSize_eq "params", hkey]
    omega
  exact hframe

/-- Mappings of different resources, each under an id as the core writes it. -/
structure Registered (store : List BrowserResourceMapping) : Prop where
  keyed : Keyed (·.resourceId) store
  written : ∀ m ∈ store, ∃ id : Uuid, m.resourceId = id.text

theorem Registered.sublist {store' : List BrowserResourceMapping} (h : Registered store) (hs : store'.Sublist store) :
    Registered store' := ⟨h.keyed.sublist (hs.map _), fun m hm => h.written m (hs.subset hm)⟩

theorem permitted_sublist (granted : String → Bool) (store : List BrowserResourceMapping) :
    (permitted granted store).Sublist store := List.filter_sublist.trans List.filter_sublist

variable (granted) in
theorem decode_helloJson {D : Decoders} (hD : D.ReadsUuids) (hs : Registered store) (extensionId : String)
    (instanceId requestId : Uuid) :
    ∃ message hello, decodeNativeEnvelope D (helloJson granted store extensionId instanceId requestId) = some message ∧
      message.protocolVersion = currentProtocolVersion ∧ message.messageType = "extension.hello" ∧
      decodeExtensionHello D message.payload = some hello ∧ hello.extensionId = extensionId ∧
      hello.extensionVersion = extensionVersion ∧
      hello.permittedResourceIds.map Uuid.text = (permitted granted store).map (·.resourceId) := by
  obtain ⟨readRequest, hrequest, -⟩ := hD requestId
  obtain ⟨readInstance, hinstance, -⟩ := hD instanceId
  obtain ⟨ids, hids, htexts⟩ := decodeIds hD (hs.sublist (permitted_sublist granted store)).written
  have hversion : decodeVersion currentProtocolVersion.toJson = some currentProtocolVersion := rfl
  have hrequest' : decodeUuid D requestId.toJson = some readRequest := hrequest
  have hinstance' : decodeUuid D instanceId.toJson = some readInstance := hinstance
  let payload : Json := .object [("extension_id", .string extensionId), ("extension_version", .string extensionVersion),
    ("extension_instance_id", instanceId.toJson),
    ("permitted_resource_ids", .array (((permitted granted store).map (·.resourceId)).map .string))]
  have hmessage : decodeNativeEnvelope D (helloJson granted store extensionId instanceId requestId) =
      some ⟨currentProtocolVersion, readRequest, "extension.hello", payload⟩ := by
    have hfields : structFields ["protocol_version", "request_id", "type", "payload"]
        (nativeEnvelope requestId "extension.hello" payload) =
        some [currentProtocolVersion.toJson, requestId.toJson, .string "extension.hello", payload] := rfl
    have htype : decodeText (.string "extension.hello") = some "extension.hello" := rfl
    show decodeNativeEnvelope D (nativeEnvelope requestId "extension.hello" payload) = _
    simp only [decodeNativeEnvelope, hfields, Option.bind_eq_bind, Option.bind_some, hversion, hrequest', htype]
    rfl
  have hhello : decodeExtensionHello D payload = some ⟨extensionId, extensionVersion, readInstance, ids⟩ := by
    have hfields : structFields ["extension_id", "extension_version", "extension_instance_id", "permitted_resource_ids"]
        payload = some [.string extensionId, .string extensionVersion, instanceId.toJson,
          .array (((permitted granted store).map (·.resourceId)).map .string)] := rfl
    have hid : decodeText (.string extensionId) = some extensionId := rfl
    have hmanifest : decodeText (.string extensionVersion) = some extensionVersion := rfl
    simp only [decodeExtensionHello, hfields, Option.bind_eq_bind, Option.bind_some, hid, hmanifest, hinstance', hids]
    rfl
  exact ⟨_, _, hmessage, rfl, rfl, hhello, rfl, rfl, htexts⟩

/-- The host takes the hello exactly as long as it is not too long. -/
theorem accepted_iff {D : Decoders} (hD : D.ReadsUuids) (hs : Registered store) (extensionId : String)
    (instanceId requestId coreRequestId : Uuid) :
    Accepted D extensionId coreRequestId (helloJson granted store extensionId instanceId requestId) ↔
      (permitted granted store).length ≤ 256 := by
  obtain ⟨message, hello, hmessage, hversion, htype, hhello, hid, hmanifest, htexts⟩ :=
    decode_helloJson granted hD hs extensionId instanceId requestId
  -- the ids of the hello are those of the mappings, in their order
  have hlength : hello.permittedResourceIds.length = (permitted granted store).length := by
    have heq := congrArg List.length htexts
    rwa [List.length_map, List.length_map] at heq
  have hunique : hello.permittedResourceIds.Nodup := by
    have hkeyed : (hello.permittedResourceIds.map Uuid.text).Nodup :=
      htexts ▸ (hs.sublist (permitted_sublist granted store)).keyed
    exact hkeyed.of_map _
  have hvalid : validateExtensionHello hello extensionId = .ok () ↔ (permitted granted store).length ≤ 256 := by
    have hfine : ¬ (hello.extensionVersion = "" ∨ hello.extensionVersion.utf8ByteSize > 64 ∨
        hello.extensionVersion.toList.any isControl) := by
      rw [hmanifest]
      decide
    rw [validateExtensionHello, if_neg (not_not_intro hid), if_neg hfine, hunique.dedup, hlength]
    simp
  constructor
  · rintro ⟨message', hello', hmessage', -, -, hhello', hvalid', -, -⟩
    obtain rfl := Option.some.inj (hmessage.symm.trans hmessage')
    obtain rfl := Option.some.inj (hhello.symm.trans hhello')
    exact hvalid.mp hvalid'
  · intro hshort
    have hframe : (adapterHelloJson coreRequestId hello.adapterHello).size ≤ maxMessageSize := by
      have hsize := size_adapterHelloJson coreRequestId hello
      unfold maxMessageSize
      omega
    exact ⟨message, hello, hmessage, congrArg _ hversion, htype, hhello, hvalid.mpr hshort,
      validateHello_adapterHello hello, (encodeJsonFrame_isOk _).mpr hframe⟩

end Hello

/-! ## The stores that calls make -/

/-- An answer that turns an observation on has its ids as the core writes them. -/
def AsWritten (reply : Option Json) : Prop :=
  ∀ value enabled, reply = some value → parseEnabledPayload value = .ok enabled → ∃ id : Uuid, enabled.resourceId = id.text

/-- The native host hands on what the core answers. -/
def FromCore : BrowserState → BrowserStep → Prop
  | _, .call _ ch => AsWritten ch.reply
  | _, _ => True

theorem asWritten_handedOn (crates : Crates) (response : ResponseEnvelope) : AsWritten (handedOn crates response) := by
  intro value enabled hvalue hparsed
  unfold handedOn at hvalue
  split at hvalue
  · rename_i resource scope hash pattern hbody
    rw [← Option.some.inj hvalue, parseEnabledPayload_json] at hparsed
    split_ifs at hparsed
    exact ⟨resource.id, by rw [← Except.ok.inj hparsed]⟩
  · exact nomatch hvalue

/-- What an answer to a call says of the store. -/
def Sound : (o : BrowserOp) → o.Res → Prop
  | .read, stored => Registered stored
  | .response _, reply => AsWritten reply
  | _, _ => True

section Runs
variable {crates : Crates} {now : Int} {c c' : BrowserState} {τ : BrowserTrace} {written : List BrowserResourceMapping}

theorem Registered.nil : Registered [] := ⟨keyed_nil, fun _ h => nomatch h⟩

theorem registered_copied (h : ∀ x ∈ τ, Sound x.op x.res) : Registered (copied τ) := by
  by_cases hnone : copied τ = []
  · rw [hnone]
    exact .nil
  · obtain ⟨stored, hread, hcopied⟩ := copied_read_mem hnone
    have hstored : Registered stored := h _ hread
    rw [hcopied]
    exact hstored.sublist List.filter_sublist

theorem observedMapping_resourceId {canonical pattern : String} {reply : Json} {mapping : BrowserResourceMapping}
    (h : observedMapping crates canonical pattern reply = .ok mapping) :
    ∃ enabled, parseEnabledPayload reply = .ok enabled ∧ mapping.resourceId = enabled.resourceId := by
  unfold observedMapping at h
  obtain ⟨enabled, hparsed, h⟩ := bind_eq_ok.mp h
  split_ifs at h
  exact ⟨enabled, hparsed, by rw [← Except.ok.inj h]⟩

/-- What a call writes from sound answers has its ids as the core writes them, one mapping for each. -/
theorem registered_written {request : BrowserRequest} {k : Unit → Browser (Except String Unit)}
    (h : Leads (handleBrowserRequest crates request) τ (.call (.write written) k)) (hτ : ∀ x ∈ τ, Sound x.op x.res) :
    Registered written := by
  have hcopied := registered_copied hτ
  cases request with
  | observe requestedCanonical =>
    obtain ⟨canonical, pattern, reply, mapping, -, hreply, hmapping, -, rfl⟩ := observeCurrentPage_writes h
    obtain ⟨enabled, hparsed, hid⟩ := observedMapping_resourceId hmapping
    have hsound : AsWritten (some reply) := hτ _ hreply
    obtain ⟨id, hwritten⟩ := hsound reply enabled rfl hparsed
    -- the others are kept without what was there of the same resource
    have hkept : Registered ((copied τ).filter fun candidate => candidate.resourceId != mapping.resourceId) :=
      hcopied.sublist List.filter_sublist
    constructor
    · exact hkept.keyed.insert fun m hm => bne_iff_ne.mp (List.mem_filter.mp hm).2
    · intro m hm
      rcases List.mem_append.mp hm with hm | hm
      · exact hkept.written m hm
      · rw [List.mem_singleton.mp hm, hid]
        exact ⟨id, hwritten⟩
  | _ =>
    rcases handler_write h with ⟨_, _, _, hrequest, -⟩ | ⟨edit, -, rfl, hedit, -⟩ | ⟨completed, -, rfl, -⟩
    · exact nomatch hrequest
    · constructor
      · have hids : ((copied τ).map edit).map (·.resourceId) = (copied τ).map (·.resourceId) := by
          rw [List.map_map]
          exact List.map_congr_left fun m _ => hedit m
        have hkeyed := hcopied.keyed
        unfold Keyed at hkeyed ⊢
        rwa [hids]
      · intro m hm
        obtain ⟨m', hm', rfl⟩ := List.mem_map.mp hm
        obtain ⟨id, hid⟩ := hcopied.written m' hm'
        exact ⟨id, (hedit m').trans hid⟩
    · exact hcopied.sublist List.filter_sublist

theorem reaches_registered (h : (extension crates).Reaches (.start now) FromCore c) :
    Registered c.world.store ∧ ∀ i o r, .call i o r ∈ c.log → Sound o r := by
  induction h with
  | init => exact ⟨.nil, fun _ _ _ h => nomatch h⟩
  | @step c c' e hr hok hs ih =>
    obtain ⟨hstore, hlog⟩ := ih
    -- what is no operation adds nothing to the answers
    have hsame {l : Label Nat BrowserOp.Res BrowserRequest (Except String Unit)} (hl : c'.log = c.log ++ [l])
        (hnone : ∀ i o r, l ≠ .call i o r) : ∀ i o r, .call i o r ∈ c'.log → Sound o r := by
      intro i o r hmem
      rw [hl] at hmem
      rcases List.mem_append.mp hmem with hmem | hmem
      · exact hlog i o r hmem
      · exact absurd (List.mem_singleton.mp hmem).symm (hnone i o r)
    cases hs with
    | arrive => exact ⟨hstore, hsame rfl fun _ _ _ => nofun⟩
    | answer => exact ⟨hstore, hsame rfl fun _ _ _ => nofun⟩
    | @drift drift =>
      refine ⟨?_, hsame rfl fun _ _ _ => nofun⟩
      cases drift <;> exact hstore
    | restart => exact ⟨hstore, hsame rfl fun _ _ _ => nofun⟩
    | @call i t o k ch r w ht hrest hact =>
      have hact' : BrowserWorld.act i o ch c.world = some (r, w) := hact
      have htrace : ∀ x ∈ t.trace, Sound x.op x.res := fun x hx => hlog i x.op x.res (hr.mem_log ht hx)
      have hleads := (hr.traced ht).leads
      rw [hrest] at hleads
      have hkept : Sound o r ∧ Registered w.store := by
        cases o with
        | read =>
          obtain ⟨rfl, rfl⟩ := Prod.mk.inj (Option.some.inj hact')
          exact ⟨hstore, hstore⟩
        | write written =>
          obtain ⟨-, rfl⟩ := Prod.mk.inj (Option.some.inj hact')
          exact ⟨trivial, registered_written hleads htrace⟩
        | response expectedType =>
          obtain ⟨rfl, rfl⟩ := Prod.mk.inj (Option.some.inj hact')
          exact ⟨hok, hstore⟩
        | enqueue key =>
          -- the queue of events is beside the store
          have hw : (c.world.enqueue key).2 = w := congrArg Prod.snd (Option.some.inj hact')
          refine ⟨trivial, ?_⟩
          rw [← hw]
          show Registered (c.world.enqueue key).2.store
          unfold BrowserWorld.enqueue
          split_ifs <;> exact hstore
        | turn place =>
          simp only [BrowserWorld.act] at hact'
          split_ifs at hact'
          obtain ⟨-, rfl⟩ := Prod.mk.inj (Option.some.inj hact')
          exact ⟨trivial, hstore⟩
        | _ =>
          obtain ⟨-, rfl⟩ := Prod.mk.inj (Option.some.inj hact')
          exact ⟨trivial, hstore⟩
      refine ⟨hkept.2, ?_⟩
      intro j o' r' hmem
      rcases List.mem_append.mp hmem with hmem | hmem
      · exact hlog j o' r' hmem
      · cases List.mem_singleton.mp hmem
        exact hkept.1

/-- A call that the core serves, and that nothing interrupts, leaves its page in the store. -/
theorem reaches_observed {ch : BrowserChoice} {response : ResponseEnvelope} {reply : Json} {mapping : BrowserResourceMapping}
    {requestedCanonical : Option String} {input canonical pattern label : String} (hs : Serves crates ch response)
    (hfor : IsFor requestedCanonical ch.tab input) (hcanonical : canonicalizeWebUrl crates input = .ok canonical)
    (hpattern : originPattern crates canonical = .ok pattern) (hlabel : hostname crates canonical = .ok label)
    (hreply : handedOn crates response = some reply) (hmapping : observedMapping crates canonical pattern reply = .ok mapping)
    (h : (extension crates).Reaches (.start now) FromCore c) (hidle : c.threads 0 = none) :
    ∃ c', (extension crates).Reaches (.start now) FromCore c' ∧ c'.threads 0 = none ∧
      c'.world.store = observed mapping (c.world.store.filter (·.isMapping)) := by
  let c₁ := c.arrived (extension crates) 0 (.observe requestedCanonical)
  have harrive : (extension crates).Reaches (.start now) FromCore c₁ := by
    refine .step (e := .arrive 0 (.observe requestedCanonical)) h ?_ (.arrive hidle rfl)
    exact trivial
  have hcall : (handleBrowserRequest crates (.observe requestedCanonical)).evaluate
      (fun o => (extension crates).act 0 o ch) c₁.world =
      some (.ok (), { c.world with store := observed mapping (c.world.store.filter (·.isMapping)) }) :=
    (observeCurrentPage_evaluate (i := 0) hfor hcanonical hpattern hlabel).trans (observePage_evaluate hs hreply hmapping)
  have hthread : c₁.threads 0 = some ⟨.observe requestedCanonical, [], observeCurrentPage crates requestedCanonical⟩ :=
    Config.arrived_threads_self
  obtain ⟨n, c₂, t, hexec, hworld, ht, hrest⟩ := exec_evaluate hthread hcall
  have hreply' : AsWritten ch.reply := hs.reply ▸ asWritten_handedOn crates response
  have hcalled : (extension crates).Reaches (.start now) FromCore c₂ := by
    refine harrive.exec_of (fun e he c => ?_) hexec
    rw [(List.mem_replicate.mp he).2]
    exact hreply'
  refine ⟨c₂.answered 0 _, .step (e := .answer 0) hcalled ?_ (.answer ht hrest), Config.answered_threads_self, ?_⟩
  · exact trivial
  rw [Config.answered_world, hworld]

/-- The hello is accepted if and only if it names no more than 256 pages. -/
theorem handshake_accepted_iff {D : Decoders} (hD : D.ReadsUuids) (h : (extension crates).Reaches (.start now) FromCore c)
    (granted : String → Bool) (extensionId : String) (instanceId requestId coreRequestId : Uuid) :
    (∃ value w, (extensionHello extensionId instanceId requestId).evaluate (actGranted granted) c.world = some (value, w) ∧
      Accepted D extensionId coreRequestId value) ↔ (permitted granted c.world.store).length ≤ 256 := by
  rw [extensionHello_evaluate, ← accepted_iff hD (reaches_registered h).1 extensionId instanceId requestId coreRequestId]
  constructor
  · rintro ⟨value, w, heq, haccepted⟩
    obtain ⟨rfl, -⟩ := Prod.mk.inj (Option.some.inj heq)
    exact haccepted
  · intro haccepted
    exact ⟨_, _, rfl, haccepted⟩

end Runs
end Extensions

/-! ## One page after the other -/

namespace Sample
open Concurrency System Extensions

def originOf : List Char := ['h', 't', 't', 'p', ':', '/', '/', 'a', '.', 'b']

def pathOf (n : Nat) : List Char := '/' :: List.replicate n 'a'

def pageOf (n : Nat) : String := String.ofList (originOf ++ pathOf n)

def urlOf (path : List Char) : Url := ⟨"http", "", none, some "a.b", none, String.ofList path, none, none⟩

def manyCrates : Crates :=
  { homeCrates with
    parseUrl := fun input =>
      if (originOf ++ ['/']).isPrefixOf input.toList then some (urlOf (input.toList.drop 10)) else none
    sha256Hex := fun text => String.ofList (List.replicate (64 - text.length % 64) '0' ++ List.replicate (text.length % 64) '1') }

def manyDecoders : Decoders := { decoders with parseUuid := readUuid }

theorem manyDecoders_readsUuids : manyDecoders.ReadsUuids := by
  intro id
  have hread : manyDecoders.parseUuid = readUuid := rfl
  rw [hread, readUuid_text]
  exact ⟨_, rfl, text_mod id⟩

def manyResource (n : Nat) : Resource :=
  ⟨n, .webPage, "a.b", pageOf n, pageOf n, .normal, .exact, ⟨0, 0⟩, ⟨0, 0⟩⟩

def manyScope (n : Nat) : ObservationScope := ⟨n, .browserChromium, n, .active, ⟨0, 0⟩, ⟨0, 0⟩⟩

def manyResponse (n : Nat) : ResponseEnvelope :=
  .ok 0 (.browserObservationEnabled (manyResource n) (manyScope n) (canonicalWebUrlHash manyCrates (pageOf n)) "http://a.b/*")

def manyMapping (n : Nat) : BrowserResourceMapping :=
  pageMapping manyCrates (pageOf n) "http://a.b/*" (manyResource n) (manyScope n)

theorem toList_pageOf (n : Nat) : (pageOf n).toList = originOf ++ pathOf n := String.toList_ofList

theorem parse_pageOf (n : Nat) : manyCrates.parseUrl (pageOf n) = some (urlOf (pathOf n)) := by
  have hprefix : (originOf ++ ['/']).isPrefixOf (pageOf n).toList = true := by
    rw [toList_pageOf, List.isPrefixOf_iff_prefix]
    exact ⟨List.replicate n 'a', rfl⟩
  have hdrop : (pageOf n).toList.drop 10 = pathOf n := by
    rw [toList_pageOf]
    rfl
  show (if _ then _ else _) = _
  rw [if_pos hprefix, hdrop]

theorem mem_pageOf {n : Nat} {c : Char} (h : c ∈ (pageOf n).toList) : c ∈ originOf ++ ['/', 'a'] := by
  rw [toList_pageOf, pathOf] at h
  rcases List.mem_append.mp h with h | h
  · exact List.mem_append_left _ h
  · apply List.mem_append_right
    rcases List.mem_cons.mp h with rfl | h
    · exact List.mem_cons_self
    · rw [(List.mem_replicate.mp h).2]
      exact List.mem_cons_of_mem _ List.mem_cons_self

theorem canonicalize_pageOf {n : Nat} (h : n ≤ 2000) :
    Extensions.canonicalizeWebUrl manyCrates (pageOf n) = .ok (pageOf n) := by
  have hascii : IsAscii (pageOf n) := by
    intro c hc
    have hall : ∀ c ∈ originOf ++ ['/', 'a'], c.toNat < 127 := List.all_iff_forall_prop.mp (by decide)
    exact hall c (mem_pageOf hc)
  have hsize : utf16Length (pageOf n) = 11 + n := by
    rw [utf16Length_ascii hascii, ← String.length_toList, toList_pageOf, List.length_append, pathOf, List.length_cons,
      List.length_replicate]
    show 10 + (n + 1) = 11 + n
    omega
  have hcontrol : (pageOf n).toList.any isForbiddenControl = false := by
    apply List.any_eq_false.mpr
    intro c hc
    have hall : ∀ c ∈ originOf ++ ['/', 'a'], ¬ isForbiddenControl c = true :=
      List.all_iff_forall_prop.mp (by decide)
    exact hall c (mem_pageOf hc)
  have hpath : String.ofList (pathOf n) ≠ "" := by
    intro hempty
    have hnil : (String.ofList (pathOf n)).toList = [] := congrArg String.toList hempty
    rw [String.toList_ofList] at hnil
    exact nomatch hnil
  -- the page is written as it was read
  have hwritten : manyCrates.urlToString (urlOf (pathOf n)) = pageOf n := by
    apply String.toList_injective
    show ("http" ++ "://" ++ "a.b" ++ String.ofList (pathOf n)).toList = _
    rw [String.toList_append, String.toList_ofList, toList_pageOf]
    rfl
  have hplain : ¬ (utf16Length (pageOf n) > 2048 ∨ (pageOf n).toList.any isForbiddenControl = true) := by
    rw [hsize, hcontrol]
    rintro (hlong | hany)
    · omega
    · exact nomatch hany
  have hpage : (urlOf (pathOf n)).page = urlOf (pathOf n) := by
    unfold Url.page
    dsimp only
    rw [if_neg (show (urlOf (pathOf n)).path ≠ "" from hpath), if_neg]
    · rfl
    · rintro (h | h) <;> exact nomatch (Prod.mk.inj h).2
  have hlen : ¬ (utf16Length (pageOf n) = 0 ∨ utf16Length (pageOf n) > 2048) := by omega
  have hweb : ¬ ((urlOf (pathOf n)).scheme ≠ "http" ∧ (urlOf (pathOf n)).scheme ≠ "https") := fun h => h.1 rfl
  have hinfo : ¬ ((urlOf (pathOf n)).username ≠ "" ∨ (urlOf (pathOf n)).password.getD "" ≠ "") := by
    rintro (h | h) <;> exact h rfl
  rw [canonicalizeWebUrl_page hlen (parse_pageOf n), hpage, hwritten, if_neg hweb, if_neg hinfo, if_neg hplain]

theorem isMapping_manyMapping (n : Nat) : (manyMapping n).isMapping = true := by
  have hhash : isHash (canonicalUrlHash manyCrates (pageOf n)) = true := by
    show isHash (String.ofList _) = true
    rw [isHash, String.length_ofList, String.toList_ofList, List.length_append, List.length_replicate, List.length_replicate,
      Bool.and_eq_true_iff, List.all_eq_true]
    constructor
    · apply beq_iff_eq.mpr
      omega
    · intro c hc
      have hdigits : ∀ c ∈ ['0', '1'], (isHexDigit c && (c.toNat < 0x41 || 0x46 < c.toNat)) = true :=
        List.all_iff_forall_prop.mp (by decide)
      apply hdigits
      rcases List.mem_append.mp hc with hc | hc
      · rw [(List.mem_replicate.mp hc).2]
        exact List.mem_cons_self
      · rw [(List.mem_replicate.mp hc).2]
        exact List.mem_cons_of_mem _ List.mem_cons_self
  simp only [BrowserResourceMapping.isMapping, manyMapping, pageMapping, isUuid_text, hhash, beq_self_eq_true, Bool.and_self]

theorem exists_many {n : Nat} (h : n ≤ 2000) : ∃ c, (extension manyCrates).Reaches (.start 0) FromCore c ∧
    c.threads 0 = none ∧ c.world.store = (List.range n).map manyMapping := by
  induction n with
  | zero => exact ⟨_, .init, rfl, rfl⟩
  | succ n ih =>
    obtain ⟨c, hreach, hidle, hstore⟩ := ih (by omega)
    have hcanonical : Extensions.canonicalizeWebUrl manyCrates (pageOf n) = .ok (pageOf n) := canonicalize_pageOf (by omega)
    have hpattern : originPattern manyCrates (pageOf n) = .ok "http://a.b/*" := by
      rw [originPattern, parse_pageOf]
      rfl
    have hlabel : hostname manyCrates (pageOf n) = .ok "a.b" := by
      rw [hostname, parse_pageOf]
      rfl
    obtain ⟨c', hreach', hidle', hstore'⟩ := reaches_observed (serves_serving manyCrates (pageOf n) (manyResponse n))
      (isFor_serving manyCrates (pageOf n) (manyResponse n)) hcanonical hpattern hlabel rfl
      (observedMapping_enabled rfl rfl rfl) hreach hidle
    refine ⟨c', hreach', hidle', ?_⟩
    have hread : ((List.range n).map manyMapping).filter (·.isMapping) = (List.range n).map manyMapping := by
      apply List.filter_eq_self.mpr
      intro m hm
      obtain ⟨k, -, rfl⟩ := List.mem_map.mp hm
      exact isMapping_manyMapping k
    have hother : ((List.range n).map manyMapping).filter (fun m => m.resourceId != (manyMapping n).resourceId) =
        (List.range n).map manyMapping := by
      apply List.filter_eq_self.mpr
      intro m hm
      obtain ⟨k, hk, rfl⟩ := List.mem_map.mp hm
      have hlt : k < n := List.mem_range.mp hk
      apply bne_iff_ne.mpr
      intro hsame
      have hfits : n < 16 ^ 32 := lt_of_lt_of_le (by omega : n < 16 ^ 3) (by decide)
      have heq : k = n := text_injective (hlt.trans hfits) hfits hsame
      omega
    rw [hstore', hstore, hread, List.range_succ, List.map_append]
    exact congrArg (· ++ [manyMapping n]) hother

theorem permitted_many (n : Nat) :
    (permitted (fun _ => true) ((List.range n).map manyMapping)).length = n := by
  have hall : permitted (fun _ => true) ((List.range n).map manyMapping) = (List.range n).map manyMapping := by
    rw [permitted, List.filter_eq_self.mpr, List.filter_eq_self.mpr]
    · intro m hm
      obtain ⟨k, -, rfl⟩ := List.mem_map.mp hm
      exact isMapping_manyMapping k
    · intro m hm
      obtain ⟨k, -, rfl⟩ := List.mem_map.mp (List.mem_filter.mp hm).1
      rfl
  rw [hall, List.length_map, List.length_range]

end Sample

namespace Extensions
open Concurrency System

theorem hello_accepted_full : ∃ c value w, (extension Sample.manyCrates).Reaches (.start 0) FromCore c ∧
    (extensionHello "a" 1 2).evaluate (actGranted fun _ => true) c.world = some (value, w) ∧
      Accepted Sample.manyDecoders "a" 3 value := by
  obtain ⟨c, hreach, -, hstore⟩ := Sample.exists_many (show 256 ≤ 2000 by decide)
  have hlength : (permitted (fun _ => true) c.world.store).length ≤ 256 := by rw [hstore, Sample.permitted_many]
  obtain ⟨value, w, hvalue, haccepted⟩ := (handshake_accepted_iff Sample.manyDecoders_readsUuids hreach _ "a" 1 2 3).mpr hlength
  exact ⟨c, value, w, hreach, hvalue, haccepted⟩

/-- One page more, and the host does not take the hello. -/
theorem hello_not_accepted : ∃ c value w, (extension Sample.manyCrates).Reaches (.start 0) FromCore c ∧
    (extensionHello "a" 1 2).evaluate (actGranted fun _ => true) c.world = some (value, w) ∧
      ¬ Accepted Sample.manyDecoders "a" 3 value := by
  obtain ⟨c, hreach, -, hstore⟩ := Sample.exists_many (show 257 ≤ 2000 by decide)
  have hregistered : Registered c.world.store := (reaches_registered hreach).1
  refine ⟨c, _, _, hreach, extensionHello_evaluate "a" 1 2, fun haccepted => ?_⟩
  have hlength := (accepted_iff Sample.manyDecoders_readsUuids hregistered "a" 1 2 3).mp haccepted
  rw [hstore, Sample.permitted_many] at hlength
  exact absurd hlength (by decide)

end Extensions
end Fubun

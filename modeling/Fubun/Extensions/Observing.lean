import Fubun.Concurrency.Evaluation
import Fubun.Extensions.Canonical
import Fubun.NativeHost.State
import Fubun.Resources.Interleaving

/-! The observation of a page from the tab to the mapping. The extension names the page after its host,
and the core takes the name for the label of the resource. -/

namespace Fubun.Extensions
open Concurrency Program System Encoding

/-! ## Between the extension and the core -/

/-- The payload of `observeCurrentPage`. -/
def enablePayload (label canonical : String) : Json := .object [("label", .string label), ("url", .string canonical)]

section Relay
variable (crates : Crates)

/-- What the native host asks of the core for a page. -/
def enableBody (canonical : String) : Option RequestBody :=
  match hostname crates canonical with
  | .error _ => none
  | .ok label => (NativeHost.decodeEnableRequest (enablePayload label canonical)).map fun (label, url) =>
    .browserObservationEnable label url

/-- `BrowserObservationEnabled`, as the core serializes it. -/
def browserObservationEnabledJson (resource : Resource) (scope : ObservationScope) (canonicalUrlHash originPattern : String) :
    Json :=
  .object [("resource", resource.toJson crates), ("scope", scope.toJson crates),
    ("canonical_url_hash", .string canonicalUrlHash), ("origin_pattern", .string originPattern)]

/-- What the native host hands on of the core's response to an enabling. -/
def handedOn (response : ResponseEnvelope) : Option Json :=
  match response.body with
  | .ok (.browserObservationEnabled resource scope canonicalUrlHash originPattern) =>
    some (browserObservationEnabledJson crates resource scope canonicalUrlHash originPattern)
  | _ => none

end Relay

/-! ## Calls that nothing interrupts -/

namespace BrowserWorld

/-- Call `i` runs a program that no other interrupts. -/
def evaluate {α : Type} (i : Nat) (ch : BrowserChoice) (p : Browser α) (w : BrowserWorld) : Option (α × BrowserWorld) :=
  Program.evaluate (fun o => act i o ch) p w

variable {α β : Type} {i : Nat} {ch : BrowserChoice} {w w' : BrowserWorld}

theorem evaluate_bind {p : Browser α} {f : α → Browser β} {a : α} (h : w.evaluate i ch p = some (a, w')) :
    w.evaluate i ch (p >>= f) = w'.evaluate i ch (f a) := evaluate_bind_of h

theorem evaluate_browser {o : BrowserOp} {f : o.Res → Browser β} {r : o.Res} (h : act i o ch w = some (r, w')) :
    w.evaluate i ch (browser o >>= f) = w'.evaluate i ch (f r) := evaluate_perform_of h

end BrowserWorld

/-- The origin permission is granted, and the native host hands on the core's response. -/
structure Serves (crates : Crates) (ch : BrowserChoice) (response : ResponseEnvelope) : Prop where
  granted : ch.granted = true
  connected : ch.connected = true
  posted : ch.posted = true
  reply : ch.reply = handedOn crates response

/-- The URL that the call is for: the one it was asked for, or that of the active tab. -/
def IsFor (requestedCanonical : Option String) (tab : Option BrowserTab) (input : String) : Prop :=
  requestedCanonical = some input ∨
    requestedCanonical = none ∧ ∃ t, tab = some t ∧ t.incognito ≠ some true ∧ t.url = some input

section Observing
variable {crates : Crates} {i : Nat} {ch : BrowserChoice} {w : BrowserWorld} {response : ResponseEnvelope}
  {requestedCanonical : Option String} {input canonical pattern label : String} {mapping : BrowserResourceMapping}

/-! ## The answer -/

theorem parseEnabledPayload_json (resource : Resource) (scope : ObservationScope) (hash pattern : String) :
    parseEnabledPayload (browserObservationEnabledJson crates resource scope hash pattern) =
      if isText (some (.string resource.kind.name)) "web.page" && isText (some (.string scope.source.name)) "browser.chromium" &&
          isText (some (.string scope.status.name)) "active" && isText (some scope.resourceId.toJson) resource.id.text then
        .ok ⟨resource.id.text, scope.id.text, hash, pattern, resource.label⟩
      else .error "invalid browser observation response" := by
  have hpayload : objectRecord (some (browserObservationEnabledJson crates resource scope hash pattern))
      ["resource", "scope", "canonical_url_hash", "origin_pattern"] =
      .ok (browserObservationEnabledJson crates resource scope hash pattern) := rfl
  have hfields : (browserObservationEnabledJson crates resource scope hash pattern).field? "resource" =
      some (resource.toJson crates) := rfl
  have hfields' : (browserObservationEnabledJson crates resource scope hash pattern).field? "scope" =
      some (scope.toJson crates) := rfl
  have hrecord : objectRecord (some (resource.toJson crates)) ["id", "kind", "label", "locator", "canonical_locator",
      "sensitivity", "scope", "created_at", "updated_at"] = .ok (resource.toJson crates) := rfl
  have hscope : objectRecord (some (scope.toJson crates)) ["id", "source", "resource_id", "status", "created_at",
      "updated_at"] = .ok (scope.toJson crates) := rfl
  have hid : uuidText? ((resource.toJson crates).field? "id") = some resource.id.text := uuidText_toJson _
  have hscopeId : uuidText? ((scope.toJson crates).field? "id") = some scope.id.text := uuidText_toJson _
  have hlabel : text? ((resource.toJson crates).field? "label") = some resource.label := rfl
  have hhash : text? ((browserObservationEnabledJson crates resource scope hash pattern).field? "canonical_url_hash") =
      some hash := rfl
  have hpattern : text? ((browserObservationEnabledJson crates resource scope hash pattern).field? "origin_pattern") =
      some pattern := rfl
  simp only [parseEnabledPayload, hpayload, ok_bind, hfields, hfields', hrecord, hscope, hid, hscopeId, hlabel, hhash,
    hpattern]
  rfl

theorem parseEnabledPayload_enabled {resource : Resource} {scope : ObservationScope} (hash pattern : String)
    (hkind : resource.kind = .webPage) (hkey : scope.key = (.browserChromium, resource.id)) (hstatus : scope.status = .active) :
    parseEnabledPayload (browserObservationEnabledJson crates resource scope hash pattern) =
      .ok ⟨resource.id.text, scope.id.text, hash, pattern, resource.label⟩ := by
  obtain ⟨hsource, hresource⟩ := Prod.mk.inj hkey
  have hid : isText (some resource.id.toJson) resource.id.text = true := beq_self_eq_true resource.id.text
  rw [parseEnabledPayload_json, hkind, hsource, hstatus, hresource, hid]
  rfl

def pageMapping (crates : Crates) (canonical pattern : String) (resource : Resource) (scope : ObservationScope) :
    BrowserResourceMapping :=
  ⟨resource.id.text, scope.id.text, canonicalUrlHash crates canonical, pattern, resource.label,
    browserMappingSchemaVersion, some .active⟩

theorem observedMapping_enabled {resource : Resource} {scope : ObservationScope} (hkind : resource.kind = .webPage)
    (hkey : scope.key = (.browserChromium, resource.id)) (hstatus : scope.status = .active) :
    observedMapping crates canonical pattern
        (browserObservationEnabledJson crates resource scope (canonicalWebUrlHash crates canonical) pattern) =
      .ok (pageMapping crates canonical pattern resource scope) := by
  have hparsed : parseEnabledPayload
      (browserObservationEnabledJson crates resource scope (canonicalWebUrlHash crates canonical) pattern) = _ :=
    parseEnabledPayload_enabled _ _ hkind hkey hstatus
  have hsame : ¬ (canonicalWebUrlHash crates canonical ≠ canonicalUrlHash crates canonical ∨ pattern ≠ pattern) := by
    rintro (h | h) <;> exact h rfl
  rw [observedMapping, hparsed, ok_bind, if_neg hsame]
  rfl

/-! ## The call -/

theorem nativeRequest_evaluate (hs : Serves crates ch response) (type expectedType : String) (payload : Json) :
    w.evaluate i ch (nativeRequest type payload expectedType) =
      some (match handedOn crates response with
        | some reply => .ok reply
        | none => .error "native host rejected request", w) := by
  have hconnect : BrowserWorld.act i .ensureConnected ch w = some (true, w) := by
    rw [← hs.connected]
    rfl
  have hpost : BrowserWorld.act i (.post type payload) ch w = some (true, w) := by
    rw [← hs.posted]
    rfl
  have hreply : BrowserWorld.act i (.response expectedType) ch w = some (handedOn crates response, w) := by
    rw [← hs.reply]
    rfl
  unfold nativeRequest
  rw [BrowserWorld.evaluate_browser hconnect, if_pos rfl, BrowserWorld.evaluate_browser hpost, if_pos rfl,
    BrowserWorld.evaluate_browser hreply]
  cases handedOn crates response <;> rfl

theorem permissionGranted_act (hs : Serves crates ch response) (origin : String) :
    BrowserWorld.act i (.permissionGranted origin) ch w = some (true, w) := by
  rw [← hs.granted]
  rfl

theorem observePage_evaluate (hs : Serves crates ch response) {reply : Json} (hreply : handedOn crates response = some reply)
    (hmapping : observedMapping crates canonical pattern reply = .ok mapping) :
    w.evaluate i ch (observePage crates canonical pattern label) =
      some (.ok (), { w with store := observed mapping (w.store.filter (·.isMapping)) }) := by
  have hgranted := permissionGranted_act (i := i) (w := w) hs pattern
  have hrequest := nativeRequest_evaluate (i := i) (w := w) hs "browser.observation.enable" "browser.observation.enabled"
    (.object [("label", .string label), ("url", .string canonical)])
  rw [hreply] at hrequest
  have hmappings : w.evaluate i ch mappings = some (w.store.filter (·.isMapping), w) := rfl
  have hwrite : BrowserWorld.act i (.write (observed mapping (w.store.filter (·.isMapping)))) ch w =
    some ((), { w with store := observed mapping (w.store.filter (·.isMapping)) }) := rfl
  have hreconnect {w : BrowserWorld} : w.evaluate i ch nativeReconnect = some (.ok (), w) := by
    have hact : BrowserWorld.act i .reconnect ch w = some (true, w) := by
      rw [← hs.connected]
      rfl
    rw [nativeReconnect, BrowserWorld.evaluate_browser hact]
    rfl
  unfold observePage
  rw [BrowserWorld.evaluate_browser hgranted, if_neg (by decide), BrowserWorld.evaluate_bind hrequest]
  dsimp only
  rw [hmapping]
  dsimp only
  rw [BrowserWorld.evaluate_browser hgranted, if_neg (by decide), BrowserWorld.evaluate_bind hmappings,
    BrowserWorld.evaluate_browser hwrite]
  exact hreconnect

theorem currentCanonical_evaluate (hfor : IsFor requestedCanonical ch.tab input) :
    w.evaluate i ch (currentCanonical crates requestedCanonical) = some (canonicalizeWebUrl crates input, w) := by
  rcases hfor with rfl | ⟨rfl, tab, htab, hincognito, hurl⟩
  · rfl
  · have hact : BrowserWorld.act i .activeTab ch w = some (some tab, w) := by
      rw [← htab]
      rfl
    unfold currentCanonical
    dsimp only
    rw [BrowserWorld.evaluate_browser hact]
    dsimp only
    rw [if_neg hincognito, hurl]
    rfl

theorem observeCurrentPage_evaluate (hfor : IsFor requestedCanonical ch.tab input)
    (hcanonical : canonicalizeWebUrl crates input = .ok canonical) (hpattern : originPattern crates canonical = .ok pattern)
    (hlabel : hostname crates canonical = .ok label) :
    w.evaluate i ch (observeCurrentPage crates requestedCanonical) =
      w.evaluate i ch (observePage crates canonical pattern label) := by
  rw [observeCurrentPage, BrowserWorld.evaluate_bind (currentCanonical_evaluate hfor), hcanonical]
  dsimp only
  rw [hpattern, hlabel]

/-! ## What is stored -/

/-- The page has one active mapping under the ids of the core, and no other that it did not have before. -/
structure Mapped (crates : Crates) (canonical : String) (resource : Resource) (scope : ObservationScope)
    (before after : List BrowserResourceMapping) : Prop where
  one : ∃ mapping, mapping.resourceId = resource.id.text ∧ mapping.scopeId = scope.id.text ∧
    (after.filter (·.isMapping)).filter (fun m => isPage crates canonical m && m.resourceId == resource.id.text) = [mapping]
  others : ∀ m ∈ after, m.resourceId ≠ resource.id.text → m ∈ before
  alone : (∀ m ∈ before, isPage crates canonical m = true → m.resourceId = resource.id.text) →
    ((after.filter (·.isMapping)).filter (isPage crates canonical)).length = 1

theorem mapped_observed (hhash : ∀ text, isHash (crates.sha256Hex text) = true) (resource : Resource)
    (scope : ObservationScope) (store : List BrowserResourceMapping) :
    Mapped crates canonical resource scope store
      (observed (pageMapping crates canonical pattern resource scope) (store.filter (·.isMapping))) := by
  have hmapping : (pageMapping crates canonical pattern resource scope).isMapping = true := by
    simp only [BrowserResourceMapping.isMapping, pageMapping, isUuid_text, canonicalUrlHash, hhash, beq_self_eq_true,
      Bool.and_self]
  have hpage : isPage crates canonical (pageMapping crates canonical pattern resource scope) = true := by
    simp [isPage, pageMapping, BrowserResourceMapping.isActive]
  have hid : (pageMapping crates canonical pattern resource scope).resourceId = resource.id.text := rfl
  -- what is read back: the readable mappings that were there under other ids, and the new one
  have hafter : (observed (pageMapping crates canonical pattern resource scope) (store.filter (·.isMapping))).filter
      (·.isMapping) = (store.filter (·.isMapping)).filter (fun m => m.resourceId != resource.id.text) ++
        [pageMapping crates canonical pattern resource scope] := by
    have hkept : ((store.filter (·.isMapping)).filter fun m => m.resourceId != resource.id.text).filter (·.isMapping) =
        (store.filter (·.isMapping)).filter fun m => m.resourceId != resource.id.text := by
      apply List.filter_eq_self.mpr
      intro m hm
      exact (List.mem_filter.mp (List.mem_filter.mp hm).1).2
    rw [observed, List.filter_append, hid, hkept, List.filter_cons, if_pos hmapping, List.filter_nil]
  refine ⟨⟨_, hid, rfl, ?_⟩, ?_, ?_⟩
  · have hnone : ((store.filter (·.isMapping)).filter fun m => m.resourceId != resource.id.text).filter
        (fun m => isPage crates canonical m && m.resourceId == resource.id.text) = [] := by
      apply List.filter_eq_nil_iff.mpr
      intro m hm hboth
      have hne : m.resourceId ≠ resource.id.text := bne_iff_ne.mp (List.mem_filter.mp hm).2
      exact hne (eq_of_beq (Bool.and_eq_true_iff.mp hboth).2)
    rw [hafter, List.filter_append, hnone, List.nil_append, List.filter_cons,
      if_pos (Bool.and_eq_true_iff.mpr ⟨hpage, beq_iff_eq.mpr hid⟩), List.filter_nil]
  · intro m hm hne
    rcases List.mem_append.mp hm with hm | hm
    · exact (List.mem_filter.mp (List.mem_filter.mp hm).1).1
    · rw [List.mem_singleton.mp hm] at hne
      exact absurd hid hne
  · intro hown
    have hnone : ((store.filter (·.isMapping)).filter fun m => m.resourceId != resource.id.text).filter
        (isPage crates canonical) = [] := by
      apply List.filter_eq_nil_iff.mpr
      intro m hm hpageOf
      obtain ⟨hstored, hne⟩ := List.mem_filter.mp hm
      exact bne_iff_ne.mp hne (hown m (List.mem_filter.mp hstored).1 hpageOf)
    rw [hafter, List.filter_append, hnone, List.nil_append, List.filter_cons, if_pos hpage, List.filter_nil]
    rfl

/-! ## What the core answers -/

/-- The page is observed: the core has said so, and the call has stored what it has said. -/
def Observed (crates : Crates) (canonical : String) (response : ResponseEnvelope) (requestedCanonical : Option String)
    (i : Nat) (ch : BrowserChoice) (w : BrowserWorld) : Prop :=
  ∃ resource scope hash pattern w', response.body = .ok (.browserObservationEnabled resource scope hash pattern) ∧
    w.evaluate i ch (observeCurrentPage crates requestedCanonical) = some (.ok (), w') ∧
    Mapped crates canonical resource scope w.store w'.store

/-- The page has a host that the core takes for a label. -/
def Labelled (crates : Crates) (canonical : String) : Prop :=
  ∃ label, hostname crates canonical = .ok label ∧ 1 ≤ label.length ∧ label.length ≤ 128

theorem enableBody_eq (hlabel : hostname crates canonical = .ok label) :
    enableBody crates canonical = some (.browserObservationEnable label canonical) := by
  rw [enableBody, hlabel]
  rfl

theorem enable_refused_label {id : Uuid} {url : String} (hp : crates.ParsesWeb)
    (hcanonical : Fubun.canonicalizeWebUrl crates url = .ok canonical) (hlabel : label.length < 1 ∨ 128 < label.length) :
    (browserObservationEnableResponse crates id label url).Meets (fun _ => True)
      fun response => response = .error id "invalid_resource" "invalid web resource" := by
  unfold browserObservationEnableResponse
  rw [hcanonical]
  refine .perform_bind trivial fun now => .perform_bind trivial fun resourceId => ?_
  dsimp only
  rw [validate_webPage hp hcanonical rfl rfl rfl, if_pos hlabel]
  exact rfl

variable {now : Int} {instant : Nat} {files : Files} {path : String} {c : State} {n : Nat}
  {ok : State → Concurrency.Event Nat Frame Choice Drift → Prop} {t : Thread Op Op.Res Frame Reply}
  {request : RequestEnvelope}

/-- A page is observed if and only if the core takes its host for a label. -/
theorem observed_iff (hp : crates.ParsesWeb) (hhash : ∀ text, isHash (crates.sha256Hex text) = true)
    (h : (daemon crates).Reaches (World.start now instant files path) ok c) (ht : c.threads n = some t)
    (hrequest : t.request = .request request)
    (hversion : request.protocolVersion.major = currentProtocolVersion.major)
    (hrest : t.rest = .ret (.response response)) (hfault : ¬ Registration.Faulted t.trace)
    (hcanonical : canonicalizeWebUrl crates input = .ok canonical) (hbody : enableBody crates canonical = some request.body)
    (hfor : IsFor requestedCanonical ch.tab input) (hs : Serves crates ch response) :
    Observed crates canonical response requestedCanonical i ch w ↔ Labelled crates canonical := by
  obtain ⟨-, hof, hsize⟩ := (canonicalizeWebUrl_eq_ok hp).mp hcanonical
  have hcore : Fubun.canonicalizeWebUrl crates canonical = .ok canonical := canonicalizeWebUrl_self hp hof hsize
  obtain ⟨url, host, hread, hhost, -⟩ := hof.reads hp
  have hpattern : originPattern crates canonical = .ok (url.pattern host) := originPattern_read hread hhost
  have hlabel : hostname crates canonical = .ok host := by
    rw [hostname, hread]
    show Except.ok (url.host.getD "") = Except.ok host
    rw [hhost]
    rfl
  have hrequestBody : request.body = .browserObservationEnable host canonical :=
    (Option.some.inj ((enableBody_eq hlabel).symm.trans hbody)).symm
  constructor
  · rintro ⟨resource, scope, hash, pattern, w', hresponse, -⟩
    refine ⟨host, hlabel, ?_⟩
    -- a label out of bounds is refused before anything is stored
    by_contra hout
    have hbad : host.length < 1 ∨ 128 < host.length := by omega
    have hleads := (h.traced ht).leads
    rw [hrest, hrequest] at hleads
    have hmeets : (handleFrame crates (.request request)).Meets (fun _ => True)
        fun reply => reply = .response (.error request.requestId "invalid_resource" "invalid web resource") := by
      refine Meets.bind (R := fun response => response = .error request.requestId "invalid_resource" "invalid web resource")
        ?_ fun response hresponse => congrArg _ hresponse
      rw [processRequest, if_neg (by simp [hversion]), hrequestBody]
      exact enable_refused_label hp hcore hbad
    have hreply : Reply.response response = _ := hmeets.leads hleads
    rw [Reply.response.inj hreply] at hresponse
    cases hresponse
  · rintro ⟨label, hlabel', hbounds⟩
    obtain rfl := Except.ok.inj (hlabel.symm.trans hlabel')
    obtain ⟨response', hreply, hconcludes⟩ := Registration.concludes_of_ret h ht hrequest hrest
    obtain rfl := Reply.response.inj hreply
    have hanswers := hconcludes host canonical canonical hp ⟨hversion, hrequestBody, hcore, hbounds⟩
    -- only a fault can stand in the way
    obtain ⟨resource, scope, pattern, hresponse, he⟩ := hanswers.resolve_left hfault
    have hsame : pattern = url.pattern host := by
      have hread' := he.pattern
      rw [webOriginPattern_read hread hhost] at hread'
      exact (Except.ok.inj hread').symm
    rw [hsame] at he hresponse
    have hhanded : handedOn crates response = some (browserObservationEnabledJson crates resource scope
        (canonicalWebUrlHash crates canonical) (url.pattern host)) := by
      rw [hresponse]
      rfl
    let mapping := pageMapping crates canonical (url.pattern host) resource scope
    have hcall : w.evaluate i ch (observeCurrentPage crates requestedCanonical) =
        some (.ok (), { w with store := observed mapping (w.store.filter (·.isMapping)) }) := by
      rw [observeCurrentPage_evaluate hfor hcanonical hpattern hlabel]
      exact observePage_evaluate hs hhanded (observedMapping_enabled he.kind he.key he.status)
    exact ⟨resource, scope, _, _, _, congrArg ResponseEnvelope.body hresponse, hcall,
      mapped_observed hhash resource scope w.store⟩

end Observing
end Fubun.Extensions

/-! ## A short host and a long one -/

namespace Fubun.Sample
open Concurrency System Extensions

def lost : Answered Op.Res → Bool
  | ⟨.storage _, .error error⟩ => error == ioError
  | _ => false

theorem not_faulted {τ : List (Answered Op.Res)} (h : τ.any lost = false) : ¬ Registration.Faulted τ := by
  rintro ⟨operation, hx⟩
  exact List.any_eq_false.mp h _ hx (beq_self_eq_true ioError)

theorem exists_finished {crates : Crates} {schedule : Schedule} {frame : Frame} {reply : Reply}
    (hrun : ((daemon crates).exec (.init world) schedule).map (fun c =>
      ((c.threads 0).map fun t => (t.request, t.trace.any lost), answer? 0 c)) = some (some (frame, false), some reply)) :
    ∃ c t, (daemon crates).Reaches world Anywhere c ∧ c.threads 0 = some t ∧ t.request = frame ∧ t.rest = .ret reply ∧
      ¬ Registration.Faulted t.trace := by
  obtain ⟨c, hc, hends⟩ := Option.map_eq_some_iff.mp hrun
  obtain ⟨hthread, hanswer⟩ := Prod.mk.inj hends
  obtain ⟨t, ht, hboth⟩ := Option.map_eq_some_iff.mp hthread
  obtain ⟨hrequest, htrace⟩ := Prod.mk.inj hboth
  rw [answer?, ht, Option.bind_some] at hanswer
  refine ⟨c, t, System.Reaches.init.exec hc, ht, hrequest, ?_, not_faulted htrace⟩
  split at hanswer
  · rename_i a hrest
    rw [hrest, Option.some.inj hanswer]
  · cases hanswer

def hashedCrates : Crates :=
  { homeCrates with sha256Hex := fun _ => "bf16ca3b08491306e4c0431ce56177311363ff27efce4b8bb57c66c7fd6bbff6" }

theorem hashedCrates_parsesWeb : hashedCrates.ParsesWeb := by
  obtain ⟨hrelative, hpassword, hhost, hplain, hreads⟩ := homeCrates_parsesWeb
  exact ⟨hrelative, hpassword, hhost, hplain, hreads⟩

def homeResponse : ResponseEnvelope :=
  .ok 0 (.browserObservationEnabled ⟨10, .webPage, "a.b", home, home, .normal, .exact, ⟨0, 0⟩, ⟨0, 0⟩⟩
    ⟨11, .browserChromium, 10, .active, ⟨0, 0⟩, ⟨0, 0⟩⟩ (hashedCrates.sha256Hex home) "http://a.b/*")

def deepHost : String :=
  "aaaaaaaaaaaaaaaaaaaaaaaaaaaaaaaaaaaaaaaaaaaaaaaaaaaaaaaaaaaaaaa." ++
    "bbbbbbbbbbbbbbbbbbbbbbbbbbbbbbbbbbbbbbbbbbbbbbbbbbbbbbbbbbbbbbb.com"

def deepPage : String := "http://" ++ deepHost ++ "/"

def deepUrl : Url := ⟨"http", "", none, some deepHost, none, "/", none, none⟩

def deepCrates : Crates :=
  { homeCrates with parseUrl := fun input => if input = deepPage then some deepUrl else none }

theorem deepCrates_parsesWeb : deepCrates.ParsesWeb := by
  have hparsed {input : String} {url : Url} (h : deepCrates.parseUrl input = some url) : input = deepPage ∧ url = deepUrl := by
    unfold deepCrates at h
    dsimp only at h
    split_ifs at h with hdeep
    exact ⟨hdeep, (Option.some.inj h).symm⟩
  refine ⟨?_, ?_, ?_, ?_, ?_⟩
  · intro input h
    cases hparse : deepCrates.parseUrl input with
    | none => rfl
    | some url =>
      rw [(hparsed hparse).1] at h
      exact absurd h (by decide +kernel)
  · intro input url h
    rw [(hparsed h).2]
    exact (nomatch ·)
  · intro input url h _
    rw [(hparsed h).2]
    rfl
  · intro input url h _
    rw [(hparsed h).2]
    exact List.all_iff_forall_prop.mp (by decide +kernel)
  · intro input url h _ _
    rw [(hparsed h).2]
    decide +kernel

def serving (crates : Crates) (page : String) (response : ResponseEnvelope) : BrowserChoice :=
  ⟨some ⟨some 1, some page, none⟩, true, true, true, handedOn crates response⟩

theorem isFor_serving (crates : Crates) (page : String) (response : ResponseEnvelope) :
    IsFor none (serving crates page response).tab page := .inr ⟨rfl, _, rfl, nofun, rfl⟩

theorem serves_serving (crates : Crates) (page : String) (response : ResponseEnvelope) :
    Extensions.Serves crates (serving crates page response) response := ⟨rfl, rfl, rfl, rfl⟩

end Fubun.Sample

namespace Fubun.Extensions
open Concurrency System

theorem observed_home : ∃ c t, (daemon Sample.hashedCrates).Reaches Sample.world Anywhere c ∧
    c.threads 0 = some t ∧ t.rest = .ret (.response Sample.homeResponse) ∧
      Observed Sample.hashedCrates Sample.home Sample.homeResponse none 0
        (Sample.serving Sample.hashedCrates Sample.home Sample.homeResponse) (.start 0) := by
  have hrun : ((daemon Sample.hashedCrates).exec (.init Sample.world) (Sample.connected 0 ++
      Sample.request 0 (.browserObservationEnable "a.b" Sample.home) [0, 10, 0, 11, 0])).map (fun c =>
        ((c.threads 0).map fun t => (t.request, t.trace.any Sample.lost), Sample.answer? 0 c)) =
      some (some (.request ⟨currentProtocolVersion, 0, .browserObservationEnable "a.b" Sample.home⟩, false),
        some (.response Sample.homeResponse)) := by decide +kernel
  obtain ⟨c, t, hreach, ht, hrequest, hrest, hfault⟩ := Sample.exists_finished hrun
  have hdigest : isHash "bf16ca3b08491306e4c0431ce56177311363ff27efce4b8bb57c66c7fd6bbff6" = true := by decide +kernel
  have hhash : ∀ text, isHash (Sample.hashedCrates.sha256Hex text) = true := fun _ => hdigest
  have hcanonical : canonicalizeWebUrl Sample.hashedCrates Sample.home = .ok Sample.home := by decide +kernel
  refine ⟨c, t, hreach, ht, hrest, ?_⟩
  exact (observed_iff Sample.hashedCrates_parsesWeb hhash hreach ht hrequest rfl hrest hfault hcanonical
    (by decide +kernel) (Sample.isFor_serving _ _ _) (Sample.serves_serving _ _ _)).mpr
      ⟨"a.b", by decide +kernel, by decide +kernel⟩

/-- The extension takes the page and has the permission, the core refuses its label. -/
theorem deepPage_not_observed : Sample.deepCrates.ParsesWeb ∧
    canonicalizeWebUrl Sample.deepCrates Sample.deepPage = .ok Sample.deepPage ∧
    enableBody Sample.deepCrates Sample.deepPage = some (.browserObservationEnable Sample.deepHost Sample.deepPage) ∧
    ∃ c t response, (daemon Sample.deepCrates).Reaches Sample.world Anywhere c ∧ c.threads 0 = some t ∧
      t.request = .request ⟨currentProtocolVersion, 0, .browserObservationEnable Sample.deepHost Sample.deepPage⟩ ∧
      t.rest = .ret (.response response) ∧ ¬ Registration.Faulted t.trace ∧
      ¬ Observed Sample.deepCrates Sample.deepPage response none 0
        (Sample.serving Sample.deepCrates Sample.deepPage response) (.start 0) := by
  have hrun : ((daemon Sample.deepCrates).exec (.init Sample.world) (Sample.connected 0 ++
      Sample.request 0 (.browserObservationEnable Sample.deepHost Sample.deepPage) [0, 10])).map (fun c =>
        ((c.threads 0).map fun t => (t.request, t.trace.any Sample.lost), Sample.answer? 0 c)) =
      some (some (.request ⟨currentProtocolVersion, 0, .browserObservationEnable Sample.deepHost Sample.deepPage⟩, false),
        some (.response (.error 0 "invalid_resource" "invalid web resource"))) := by decide +kernel
  obtain ⟨c, t, hreach, ht, hrequest, hrest, hfault⟩ := Sample.exists_finished hrun
  refine ⟨Sample.deepCrates_parsesWeb, by decide +kernel, by decide +kernel, c, t, _, hreach, ht, hrequest, hrest, hfault, ?_⟩
  rintro ⟨resource, scope, hash, pattern, w', hresponse, -⟩
  exact nomatch hresponse

end Fubun.Extensions

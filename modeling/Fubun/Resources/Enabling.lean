import Fubun.Events.Observed
import Fubun.Resources.Registration
import Fubun.Resources.WebUrl

/-! Turning the observation of a web page on. Whichever request wins each step, all of them find one
resource for the page and one scope for the resource. -/

namespace Fubun
open Relational Concurrency Program System

/-! ## Candidates -/

section Candidates
variable {crates : Crates} {url canonical label : String} {resource : Resource}

theorem validatePathString_absolute {self : Resource} (h : self.validate crates = .ok ())
    (hkind : self.kind ≠ .webPage) : isAbsolute self.canonicalLocator = true := by
  unfold Resource.validate at h
  rw [if_neg hkind] at h
  split_ifs at h with hlabel hlocator hcanonical
  all_goals
    obtain ⟨_, -, h⟩ := bind_eq_ok.mp h
    obtain ⟨_, -, h⟩ := bind_eq_ok.mp h
  · exact nomatch h
  · exact nomatch h
  · simpa using hcanonical

theorem validate_webPage (hp : crates.ParsesWeb) (hcanonical : canonicalizeWebUrl crates url = .ok canonical)
    (hkind : resource.kind = .webPage) (hlocator : resource.locator = canonical)
    (hcanonicalLocator : resource.canonicalLocator = canonical) :
    resource.validate crates =
      if resource.label.length < 1 ∨ 128 < resource.label.length then .error .invalidLabel else .ok () := by
  obtain ⟨-, hof, hsize⟩ := (canonicalizeWebUrl_eq_ok hp).mp hcanonical
  have hself := canonicalizeWebUrl_self hp hof hsize
  unfold Resource.validate
  rw [if_pos hkind, hlocator, hcanonicalLocator, hself]
  simp

end Candidates

/-! ## The answer -/

/-- The page is stored, and the scope under which it is observed. -/
structure Database.HasPage (db : Database) (canonical : String) (resourceId scopeId : Uuid) : Prop where
  resource : ∃ row ∈ db.resources, row.id = resourceId ∧ row.canonicalLocator = canonical
  scope : ∃ row ∈ db.observationScopes, row.id = scopeId ∧ row.key = (.browserChromium, resourceId)

/-- An answer that the page is observed, with what is stored of it. -/
structure EnablesPage (crates : Crates) (canonical : String) (resource : Resource) (scope : ObservationScope)
    (pattern : String) (db : Database) : Prop where
  pattern : webOriginPattern crates canonical = .ok pattern
  kind : resource.kind = .webPage
  canonicalLocator : resource.canonicalLocator = canonical
  key : scope.key = (.browserChromium, resource.id)
  status : scope.status = .active
  stored : db.HasPage canonical resource.id scope.id

/-- The request passes validation, for the page at the address. -/
structure Enables (crates : Crates) (request : RequestEnvelope) (label url canonical : String) : Prop where
  version : request.protocolVersion.major = currentProtocolVersion.major
  body : request.body = .browserObservationEnable label url
  canonical : canonicalizeWebUrl crates url = .ok canonical
  label : 1 ≤ label.length ∧ label.length ≤ 128

/-- The page is enabled by the answer, or a storage operation of the request was lost. -/
def Answers (crates : Crates) (id : Uuid) (canonical : String) (τ : List (Answered Op.Res)) (response : ResponseEnvelope)
    (db : Database) : Prop :=
  Registration.Faulted τ ∨ ∃ resource scope pattern,
    response = .ok id (.browserObservationEnabled resource scope (canonicalWebUrlHash crates canonical) pattern) ∧
      EnablesPage crates canonical resource scope pattern db

theorem Database.HasPage.mono {db db' : Database} {canonical : String} {resourceId scopeId : Uuid}
    (h : db.HasPage canonical resourceId scopeId) (hg : Grows db db') : db'.HasPage canonical resourceId scopeId := by
  obtain ⟨⟨row, hrow, heq⟩, scope, hscope, hid, hkey⟩ := h
  obtain ⟨scope', hscope', hid', hsource, hresource⟩ := hg.scopes scope hscope
  have hkey' : scope'.key = scope.key := Prod.ext hsource hresource
  exact ⟨⟨row, hg.resources row hrow, heq⟩, scope', hscope', hid'.trans hid, hkey'.trans hkey⟩

theorem Answers.mono {crates : Crates} {id : Uuid} {canonical : String} {τ : List (Answered Op.Res)}
    {response : ResponseEnvelope} {db db' : Database} (h : Answers crates id canonical τ response db)
    (hg : Grows db db') : Answers crates id canonical τ response db' := by
  rcases h with h | ⟨resource, scope, pattern, hresponse, he⟩
  · exact .inl h
  · exact .inr ⟨resource, scope, pattern, hresponse, he.pattern, he.kind, he.canonicalLocator, he.key, he.status,
      he.stored.mono hg⟩

namespace Registration
variable {crates : Crates} {i : Nat} {id : Uuid}

theorem performs_ensure {resource : Resource} (source : ObservationSource) (scopeId : Uuid) (now : OffsetDateTime) :
    (registration crates).Performs i (fun _ w => Stored resource w ∧ Unused i scopeId w)
      (.storage (.ensureObservationScope ⟨scopeId, source, resource.id, .active, now, now⟩))
      fun r τ w => match r with
        | .ok scope => (scope.key = (source, resource.id) ∧ scope.status = .active) ∧ Stored resource w ∧
          ∃ row ∈ w.db.observationScopes, row.id = scope.id ∧ row.key = scope.key
        | .error _ => Faulted τ := by
  intro τ w ch r w' hw hA hrun
  obtain ⟨⟨row, hrow, hid, hlocator⟩, hunused⟩ := hA
  have hcat : Catalogued w := hw
  have hact : World.act crates i (.storage (.ensureObservationScope ⟨scopeId, source, resource.id, .active, now, now⟩))
    ch w = some (r, w') := hrun
  have hp : Permitted i w
    (.storage (.ensureObservationScope ⟨scopeId, source, resource.id, .active, now, now⟩)) := hunused
  refine ⟨hcat.act hp hact, ?_⟩
  have he := (act_storage hact).1
  -- the scope of this key is there already, or it is the new one
  cases r with
  | ok scope =>
    have hstored : scope.key = (source, resource.id) ∧ scope.status = .active := by
      rcases he with ⟨existing, hfind, hreply, -⟩ | ⟨-, hreply, -⟩
      · have hmatches := List.find?_some hfind
        simp only [Bool.and_eq_true, beq_iff_eq] at hmatches
        rw [hreply]
        exact ⟨Prod.ext hmatches.1 hmatches.2, rfl⟩
      · rw [hreply]
        exact ⟨rfl, rfl⟩
    exact ⟨hstored, ⟨row, he.grows.resources row hrow, hid, hlocator⟩, he.changedScope_mem rfl⟩
  | error e =>
    -- without a fault the insert fails only where the resource is missing or the id is taken
    rcases ensureObservationScope_failed hact with rfl | hnone | ⟨taken, htaken, htakenId⟩
    · exact faulted_snoc
    · exact absurd hid (hnone row hrow)
    · exact absurd (.inr ⟨taken, htaken, htakenId⟩) hunused.free

/-- Every enabling of a page that passes validation enables it, unless the storage fails. -/
theorem browserObservationEnableResponse_triple (label url : String) :
    (registration crates).Triple i (fun _ _ => True) (browserObservationEnableResponse crates id label url)
      fun τ response w => ∀ canonical, crates.ParsesWeb → canonicalizeWebUrl crates url = .ok canonical →
        1 ≤ label.length ∧ label.length ≤ 128 → Answers crates id canonical τ response w.db := by
  unfold browserObservationEnableResponse
  cases hcanonical : canonicalizeWebUrl crates url with
  | error e => exact Contract.Triple.ret fun _ _ _ canonical _ h => nomatch h
  | ok canonical =>
    refine Contract.Triple.perform (lasts_true i).stable ((lasts_true i).performs rfl) fun now => ?_
    refine Contract.Triple.perform (lasts_true i).stable (lasts_true i).performs_newUuid fun resourceId => ?_
    dsimp only
    cases hvalid : Resource.validate crates ⟨resourceId, .webPage, label, canonical, canonical, .normal, .exact, now, now⟩ with
    | error e =>
      -- only the bounds of the label are left to fail
      refine Contract.Triple.ret fun _ _ _ canonical' hp hcanonical' hlabel => ?_
      obtain rfl := Except.ok.inj hcanonical'
      rw [validate_webPage hp hcanonical rfl rfl rfl, if_neg (by simp only; omega)] at hvalid
      exact nomatch hvalid
    | ok u =>
      intro τ w hw hA
      refine Contract.Triple.bind (createOrFind_triple id _ fun hne => absurd rfl hne) (fun result => ?_) τ w hw hA.2
      cases result with
      | error response =>
        refine Contract.Triple.ret fun τ w h canonical' hp hcanonical' _ => ?_
        obtain ⟨-, hof, -⟩ := (canonicalizeWebUrl_eq_ok hp).mp hcanonical
        exact .inl (h ⟨rfl, hof.not_absolute hp⟩)
      | ok resource =>
        rintro τ w hw ⟨hmatches, hstored⟩
        have hstoredLasts := stored_lasts i resource
        refine Contract.Triple.perform hstoredLasts.stable hstoredLasts.performs_newUuid (fun scopeId => ?_) τ w hw hstored
        refine Contract.Triple.perform (hstoredLasts.and (unused_lasts i scopeId)).stable
          (performs_ensure .browserChromium scopeId now) fun r => ?_
        rcases r with e | scope
        · exact Contract.Triple.ret fun _ _ h _ _ _ _ => .inl h
        · dsimp only
          cases hpattern : webOriginPattern crates canonical with
          | error e =>
            -- the canonical form of a page always has an origin
            refine Contract.Triple.ret fun τ w h canonical' hp hcanonical' _ => ?_
            obtain ⟨-, hof, -⟩ := (canonicalizeWebUrl_eq_ok hp).mp hcanonical
            obtain ⟨url, host, hread, hhost, -⟩ := hof.reads hp
            rw [webOriginPattern_read hread hhost] at hpattern
            exact nomatch hpattern
          | ok pattern =>
            refine Contract.Triple.ret fun τ w h canonical' hp hcanonical' _ => ?_
            obtain rfl := Except.ok.inj hcanonical'
            obtain ⟨⟨hkey, hstatus⟩, ⟨row, hrow, hid, hlocator⟩, kept, hkept, hkeptId, hkeptKey⟩ := h
            have hpage : w.db.HasPage canonical resource.id scope.id :=
              ⟨⟨row, hrow, hid, hlocator.trans hmatches.canonicalLocator⟩, kept, hkept, hkeptId, hkeptKey.trans hkey⟩
            exact .inr ⟨resource, scope, pattern, rfl, hpattern, hmatches.kind, hmatches.canonicalLocator, hkey,
              hstatus, hpage⟩

theorem resourceCreateResponse_triple (label path : String) (sensitivity : Sensitivity) :
    (registration crates).Triple i (fun _ _ => True) (resourceCreateResponse crates id label path sensitivity)
      fun _ _ _ => True := by
  have htrue := lasts_true i
  have hret {response : ResponseEnvelope} : (registration crates).Triple i (fun _ _ => True)
      (.ret response : Core ResponseEnvelope) fun _ _ _ => True := Contract.Triple.ret fun _ _ _ => trivial
  unfold resourceCreateResponse
  split
  · exact hret
  refine Contract.Triple.perform htrue.stable (htrue.performs rfl) fun metadata => ?_
  split
  · exact hret
  refine Contract.Triple.perform htrue.stable (htrue.performs rfl) fun canonical => ?_
  split
  · exact hret
  dsimp only
  split
  · exact hret
  refine Contract.Triple.perform htrue.stable (htrue.performs rfl) fun now => ?_
  refine Contract.Triple.perform htrue.stable htrue.performs_newUuid fun resourceId => ?_
  split
  · exact Contract.Triple.ret fun _ _ _ => trivial
  · rename_i hvalid
    rintro τ w hw ⟨-, hunused⟩
    refine Contract.Triple.perform (unused_lasts i resourceId).stable
      (performs_createResource (validatePathString_absolute hvalid)) (fun r => ?_) τ w hw hunused
    rcases r with e | resource
    · cases e <;> exact Contract.Triple.ret fun _ _ _ => trivial
    · exact Contract.Triple.ret fun _ _ _ => trivial

theorem observationPauseResponse_issues (scopeId : Uuid) :
    (observationPauseResponse id scopeId).Issues fun o => Registers o = false := by
  unfold observationPauseResponse
  refine .perform_bind rfl fun r => ?_
  split <;> trivial

theorem vscodeObservationEnableResponse_triple (label path : String) :
    (registration crates).Triple i (fun _ _ => True) (vscodeObservationEnableResponse crates id label path)
      fun _ _ _ => True := by
  have htrue := lasts_true i
  have hret {response : ResponseEnvelope} : (registration crates).Triple i (fun _ _ => True)
      (.ret response : Core ResponseEnvelope) fun _ _ _ => True := Contract.Triple.ret fun _ _ _ => trivial
  unfold vscodeObservationEnableResponse
  split
  · exact hret
  refine Contract.Triple.perform htrue.stable (htrue.performs rfl) fun canonical => ?_
  split
  · exact hret
  refine Contract.Triple.perform htrue.stable (htrue.performs rfl) fun metadata => ?_
  split
  · exact hret
  refine Contract.Triple.perform htrue.stable (htrue.performs rfl) fun now => ?_
  refine Contract.Triple.perform htrue.stable htrue.performs_newUuid fun resourceId => ?_
  dsimp only
  split
  · exact Contract.Triple.ret fun _ _ _ => trivial
  · rename_i hvalid
    rintro τ w hw ⟨-, hunused⟩
    refine Contract.Triple.bind (createOrFind_triple id _ (validatePathString_absolute hvalid)) (fun result => ?_) τ w hw
      hunused
    cases result with
    | error response => exact Contract.Triple.ret fun _ _ _ => trivial
    | ok resource =>
      rintro τ w hw ⟨-, hstored⟩
      have hstoredLasts := stored_lasts i resource
      refine Contract.Triple.perform hstoredLasts.stable hstoredLasts.performs_newUuid (fun scopeId => ?_) τ w hw hstored
      refine Contract.Triple.perform (hstoredLasts.and (unused_lasts i scopeId)).stable
        (performs_ensure .vscodeWorkspace scopeId now) fun r => ?_
      cases r with
      | error e => exact Contract.Triple.ret fun _ _ _ => trivial
      | ok scope => exact Contract.Triple.ret fun _ _ _ => trivial

def Concludes (crates : Crates) (request : RequestEnvelope) (τ : List (Answered Op.Res)) (response : ResponseEnvelope)
    (w : World) : Prop :=
  ∀ label url canonical, crates.ParsesWeb → Enables crates request label url canonical →
    Answers crates request.requestId canonical τ response w.db

theorem processRequest_triple (request : RequestEnvelope) :
    (registration crates).Triple i (fun _ _ => True) (processRequest crates request)
      fun τ response w => Concludes crates request τ response w := by
  unfold processRequest
  split
  · rename_i hversion
    exact Contract.Triple.ret fun _ _ _ label url canonical _ he => absurd he.version hversion
  have hother {p : Core ResponseEnvelope}
      (hp : (registration crates).Triple i (fun _ _ => True) p fun _ _ _ => True)
      (hbody : ∀ label url, request.body ≠ .browserObservationEnable label url) :
      (registration crates).Triple i (fun _ _ => True) p fun τ response w => Concludes crates request τ response w :=
    hp.mono fun _ _ _ _ label url canonical _ he => absurd he.body (hbody label url)
  cases hbody : request.body with
  | browserObservationEnable label url =>
    refine (browserObservationEnableResponse_triple label url).mono fun τ response w h => ?_
    intro label' url' canonical hp he
    obtain ⟨rfl, rfl⟩ := RequestBody.browserObservationEnable.inj (hbody.symm.trans he.body)
    exact h canonical hp he.canonical he.label
  | vscodeObservationEnable label path =>
    exact hother (vscodeObservationEnableResponse_triple label path) fun _ _ heq => by cases hbody.symm.trans heq
  | resourceCreate label path sensitivity =>
    exact hother (resourceCreateResponse_triple label path sensitivity) fun _ _ heq => by cases hbody.symm.trans heq
  | observationPause scopeId =>
    have hpause : (registration crates).Triple i (fun _ _ => True) (observationPauseResponse request.requestId scopeId)
        fun _ _ _ => True ∧ True :=
      Contract.Triple.of_meets (lasts_true i).stable (observationPauseResponse_issues scopeId)
        fun o ho => (lasts_true i).performs ho
    exact hother (hpause.mono fun _ _ _ _ => trivial) fun _ _ heq => by cases hbody.symm.trans heq
  | _ =>
    have hacts := processBody_actsOn crates request.requestId request.body
    rw [hbody] at hacts
    exact hother (quiet_triple hacts (by simp [RequestBody.targets, executionTargets])
      (by simp [RequestBody.targets, executionTargets])) fun _ _ heq => by cases hbody.symm.trans heq

def ConcludesFrame (crates : Crates) (frame : Frame) (τ : List (Answered Op.Res)) (reply : Reply) (w : World) : Prop :=
  ∀ request, frame = .request request → ∃ response, reply = .response response ∧ Concludes crates request τ response w

theorem handleFrame_triple (frame : Frame) :
    (registration crates).Triple i (fun _ _ => True) (handleFrame crates frame)
      fun τ reply w => ConcludesFrame crates frame τ reply w := by
  cases frame with
  | request request =>
    refine Contract.Triple.bind (processRequest_triple request) fun response => Contract.Triple.ret fun τ w h => ?_
    intro request' heq
    obtain rfl := Frame.request.inj heq
    exact ⟨response, rfl, h⟩
  | _ =>
    refine (quiet_triple (handleFrame_actsOn crates _) (by simp [Frame.targets]) (by simp [Frame.targets])).mono ?_
    intro τ reply w _ request heq
    cases heq

theorem Concludes.mono {request : RequestEnvelope} {τ : List (Answered Op.Res)} {response : ResponseEnvelope}
    {w w' : World} (h : Concludes crates request τ response w) (hg : Grows w.db w'.db) :
    Concludes crates request τ response w' :=
  fun label url canonical hp he => (h label url canonical hp he).mono hg

variable {now : Int} {instant : Nat} {files : Files} {path : String} {c : State}
  {ok : State → Concurrency.Event Nat Frame Choice Drift → Prop}

theorem reaches_catalogued (h : (daemon crates).Reaches (World.start now instant files path) ok c) :
    Catalogued c.world ∧ ∀ i t, c.threads i = some t →
      (registration crates).Safe i (fun τ reply w => ConcludesFrame crates t.request τ reply w) t.rest t.trace
        c.world := by
  refine Contract.reaches_safe (registration crates) (fun _ frame τ reply w => ConcludesFrame crates frame τ reply w)
    ?_ (Catalogued.start now instant files path) ?_ h
  · intro i frame reply τ w w' hr _ h request heq
    obtain ⟨response, hreply, hconcludes⟩ := h request heq
    exact ⟨response, hreply, hconcludes.mono hr.grows⟩
  · intro i frame w hw _
    exact handleFrame_triple frame [] w hw trivial

/-- What a request that is answered says of the page that it enables. -/
theorem concludes_of_ret (h : (daemon crates).Reaches (World.start now instant files path) ok c) {i : Nat}
    {t : Thread Op Op.Res Frame Reply} {request : RequestEnvelope} {reply : Reply} (ht : c.threads i = some t)
    (hrequest : t.request = .request request) (hrest : t.rest = .ret reply) :
    ∃ response, reply = .response response ∧ Concludes crates request t.trace response c.world := by
  have hsafe := (reaches_catalogued h).2 i t ht
  rw [hrest] at hsafe
  exact hsafe request hrequest

end Registration
end Fubun

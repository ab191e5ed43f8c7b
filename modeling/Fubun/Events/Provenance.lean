import Fubun.Events.Observed
import Fubun.Wire

/-! Where a stored event comes from: whom its connection has authenticated as, and what the daemon
has checked before it stored it. -/

namespace Fubun
open Relational Concurrency Program System

def Serves (i : Nat) (frame : Frame) (log : Log) : Prop :=
  ∃ earlier later, log = earlier ++ .arrive i frame :: later ∧ ∀ l ∈ later, l.interrupts i = false

def Registered (i : Nat) (hello : AdapterHello) (token : Uuid) (log : Log) : Prop :=
  validateHello hello = .ok () ∧ .call i (.register hello) (.ok token) ∈ log

/-- What an event that was built from an emission says, beside the tables. -/
structure Emitted (db : Database) (hello : AdapterHello) (payload : AdapterEventEmitRequest) (event : Event) : Prop where
  actor : event.actor = .user
  privacy : event.privacy = .normal
  row : (event.adapter.id, event.source, event.eventType, event.data) =
      (browserAdapterId, "browser.chromium", .browserResourceOpenedV1, .browserResourceOpened payload.resourceId) ∨
    (event.adapter.id, event.source, event.eventType, event.data) =
      (vscodeAdapterId, "vscode.workspace", .vscodeWorkspaceOpenedV1, .vscodeWorkspaceOpened payload.resourceId)
  adapter : (event.adapter.id, event.adapter.version, event.adapter.instanceId) =
    (hello.adapterId, hello.adapterVersion, hello.instanceId)
  capability : event.eventType.name ∈ hello.eventCapabilities
  resource : ∃ resource ∈ db.resources, resource.id = payload.resourceId ∧
    resource.kind = if event.eventType = .browserResourceOpenedV1 then .webPage else .directory
  scope : ∃ scope ∈ db.observationScopes, event.scopeKey = some scope.key ∧ scope.resourceId = payload.resourceId
  permitted : event.adapter.id = browserAdapterId → payload.resourceId ∈ hello.status.permittedResourceIds

/-- A client's synthetic event, or an adapter's semantic one. -/
def Sourced (db : Database) (i : Nat) (event : Event) (log : Log) : Prop :=
  (∃ request e, Serves i (.request request) log ∧ request.body = .eventIngest e ∧
    event.eventType = .syntheticV1 ∧ event.data.isSynthetic = true) ∨
  ∃ hello token response payload, Serves i (.adapter hello token response) log ∧ Registered i hello token log ∧
    response.body = .eventEmit payload ∧ event.eventType ≠ .syntheticV1 ∧ Emitted db hello payload event

/-- Every stored event was inserted, and every insertion was sourced. -/
structure Provenance (c : State) : Prop where
  inserted : ∀ event ∈ c.world.db.events, ∃ before i after,
    c.log = before ++ .call i (.storage (.insertEvent event)) (.ok ()) :: after
  sourced : ∀ before i event after, c.log = before ++ .call i (.storage (.insertEvent event)) (.ok ()) :: after →
    Sourced c.world.db i event before

section Provenance
variable {crates : Crates} {now : Int} {instant : Nat} {files : Files} {path : String} {c : State} {i : Nat}
  {before after : Log}

/-! ## Sessions -/

/-- An operation leaves the session of a connection alone, or it registers a validated hello, or it
ends in a session that is no adapter's. -/
theorem act_session {j : Nat} {o : Op} {ch : Choice} {w w' : World} {r : o.Res}
    (h : World.act crates j o ch w = some (r, w')) {hello : AdapterHello} {token : Uuid}
    (hs : w'.sessions i = .adapter hello token) :
    w.sessions i = .adapter hello token ∨
      validateHello hello = .ok () ∧ (⟨j, ⟨o, r⟩⟩ : Nat × Answered Op.Res) = ⟨i, ⟨.register hello, .ok token⟩⟩ := by
  -- only the connection of the operation gets a session
  have hset : ∀ {session : Session}, Function.update w.sessions j session i = .adapter hello token →
      w.sessions i = .adapter hello token ∨ j = i ∧ session = .adapter hello token := by
    intro session hupdate
    by_cases hij : i = j
    · subst hij
      rw [Function.update_self] at hupdate
      exact .inr ⟨rfl, hupdate⟩
    · rw [Function.update_of_ne hij] at hupdate
      exact .inl hupdate
  cases o with
  | storage operation =>
    have hw := (act_storage h).2
    rw [hw] at hs
    exact .inl hs
  | execute action resolved timeout =>
    have hw : (w.execute action ch.reply).2 = w' := congrArg Prod.snd (Option.some.inj h)
    rw [← hw, execute_world] at hs
    exact .inl hs
  | register hello' =>
    simp only [World.act] at h
    split at h
    · obtain ⟨-, rfl⟩ := Prod.mk.inj (Option.some.inj h)
      exact .inl hs
    · rename_i hvalid
      split_ifs at h
      obtain ⟨rfl, rfl⟩ := Prod.mk.inj (Option.some.inj h)
      rcases hset hs with hs | ⟨rfl, hsession⟩
      · exact .inl hs
      · obtain ⟨rfl, rfl⟩ := Session.adapter.inj hsession
        exact .inr ⟨hvalid, rfl⟩
  | disconnectIfCurrent instanceId token' =>
    obtain ⟨-, rfl⟩ := Prod.mk.inj (Option.some.inj h)
    rcases hset hs with hs | ⟨-, hsession⟩
    · exact .inl hs
    · cases hsession
  | acceptClient =>
    obtain ⟨-, rfl⟩ := Prod.mk.inj (Option.some.inj h)
    rcases hset hs with hs | ⟨-, hsession⟩
    · exact .inl hs
    · cases hsession
  | newUuid =>
    simp only [World.act] at h
    split_ifs at h
    obtain ⟨-, rfl⟩ := Prod.mk.inj (Option.some.inj h)
    exact .inl hs
  | _ =>
    obtain ⟨-, rfl⟩ := Prod.mk.inj (Option.some.inj h)
    exact .inl hs

theorem session_registered (h : (daemon crates).Reaches (World.start now instant files path) Anywhere c)
    {hello : AdapterHello} {token : Uuid} (hs : c.world.sessions i = .adapter hello token) : Registered i hello token c.log := by
  induction h with
  | init => exact nomatch hs
  | @step c c' e hr _ hstep ih =>
    have hgrow : c.world.sessions i = .adapter hello token → Registered i hello token c'.log := by
      intro hc
      obtain ⟨hvalid, hmem⟩ := ih hc
      obtain ⟨l, hl⟩ := hstep.log
      exact ⟨hvalid, hl ▸ List.mem_append_left _ hmem⟩
    cases hstep with
    | arrive => exact hgrow hs
    | @call j t o k ch r w ht hrest hact =>
      rcases act_session hact hs with hc | ⟨hvalid, heq⟩
      · exact hgrow hc
      · cases heq
        exact ⟨hvalid, List.mem_append_right _ (List.mem_singleton_self _)⟩
    | answer => exact hgrow hs
    | @drift e =>
      cases e <;> exact hgrow hs
    | restart => exact nomatch hs

theorem arrive_registered (h : (daemon crates).Reaches (World.start now instant files path) Anywhere c)
    {hello : AdapterHello} {token : Uuid} {response : AdapterResponseEnvelope}
    (hlog : c.log = before ++ .arrive i (.adapter hello token response) :: after) : Registered i hello token before := by
  obtain ⟨d, e, d', hd, -, hs, rfl, hdlog'⟩ := h.split hlog
  cases hs with
  | @arrive j q hidle hadmits =>
    obtain ⟨rfl, rfl⟩ := Label.arrive.inj (List.cons.inj (List.append_cancel_left hdlog')).1
    have hsession : d.world.sessions j = .adapter hello token := by
      have hadmitted : admits d.world j (.adapter hello token response) = true := hadmits
      unfold admits at hadmitted
      have hmatch := (Bool.and_eq_true_iff.mp hadmitted).2
      cases hses : d.world.sessions j with
      | adapter hello' token' =>
        rw [hses] at hmatch
        obtain ⟨hhello, htoken⟩ := Bool.and_eq_true_iff.mp hmatch
        rw [eq_of_beq hhello, eq_of_beq htoken]
      | _ =>
        rw [hses] at hmatch
        exact nomatch hmatch
    exact session_registered hd hsession
  | call => exact nomatch (List.cons.inj (List.append_cancel_left hdlog')).1
  | answer => exact nomatch (List.cons.inj (List.append_cancel_left hdlog')).1
  | drift => exact nomatch (List.cons.inj (List.append_cancel_left hdlog')).1
  | restart => exact nomatch (List.cons.inj (List.append_cancel_left hdlog')).1

/-! ## Events -/

theorem Emission.Passes.emitted {m : Emission} (h : m.Passes) {db : Database}
    (hresource : m.resource ∈ db.resources ∧ m.resource.id = m.payload.resourceId)
    (hscope : ∃ scope ∈ db.observationScopes, scope.source = m.expected.observationSource ∧
      scope.resourceId = m.payload.resourceId) : Emitted db m.hello m.payload m.event := by
  obtain ⟨scope, hscope, hsource, hscopeResource⟩ := hscope
  have hscopeKey : ∃ scope ∈ db.observationScopes, m.event.scopeKey = some scope.key ∧
      scope.resourceId = m.payload.resourceId :=
    ⟨scope, hscope, by rw [h.scopeKey, ObservationScope.key, hsource, hscopeResource], hscopeResource⟩
  obtain ⟨-, -, hexpected, hpermitted, hkind, -, hdata, -⟩ := h
  obtain ⟨hello, token, response, payload, expected, eventId, resource, scopes, receivedAt, data⟩ := m
  simp only [emissionPermitted, Bool.and_eq_true, Bool.or_eq_true, bne_iff_ne, List.contains_iff_mem] at hpermitted
  obtain ⟨⟨-, hcapability⟩, hbrowser⟩ := hpermitted
  unfold expectedEvent at hexpected
  -- the two adapters of the table
  split_ifs at hexpected with hid hid'
  · obtain rfl := Option.some.inj hexpected
    obtain rfl : .browserResourceOpened payload.resourceId = data := Option.some.inj hdata
    have hrow : (hello.adapterId, "browser.chromium", EventType.browserResourceOpenedV1,
        EventData.browserResourceOpened payload.resourceId) = (browserAdapterId, "browser.chromium",
          .browserResourceOpenedV1, .browserResourceOpened payload.resourceId) := by
      rw [hid, browserAdapterId]
    exact ⟨rfl, rfl, .inl hrow, rfl, hcapability, ⟨resource, hresource.1, hresource.2, hkind⟩, hscopeKey,
      fun _ => hbrowser.resolve_left fun hne => hne hid⟩
  · obtain rfl := Option.some.inj hexpected
    obtain rfl : .vscodeWorkspaceOpened payload.resourceId = data := Option.some.inj hdata
    have hrow : (hello.adapterId, "vscode.workspace", EventType.vscodeWorkspaceOpenedV1,
        EventData.vscodeWorkspaceOpened payload.resourceId) = (vscodeAdapterId, "vscode.workspace",
          .vscodeWorkspaceOpenedV1, .vscodeWorkspaceOpened payload.resourceId) := by
      rw [hid', vscodeAdapterId]
    exact ⟨rfl, rfl, .inr hrow, rfl, hcapability, ⟨resource, hresource.1, hresource.2, hkind⟩, hscopeKey,
      fun hbrowserId => absurd hbrowserId hid⟩

theorem event_provenance (h : (daemon crates).Reaches (World.start now instant files path) Anywhere c) :
    Provenance c := by
  constructor
  · intro event hevent
    obtain ⟨before, i, operation, reply, after, hlog, hq⟩ := reaches_origin h
      (P := fun db => event ∈ db.events) (Q := fun answer => answer = ⟨.insertEvent event, .ok ()⟩)
      (fun hmem => nomatch hmem) (by
        intro now db db' o r he hmem
        rcases he.events with heq | ⟨inserted, hanswer, -, -, heq⟩
        · exact .inl (heq ▸ hmem)
        · rw [heq] at hmem
          rcases List.mem_append.mp hmem with hmem | hmem
          · exact .inl hmem
          · obtain rfl := List.mem_singleton.mp hmem
            exact .inr hanswer) (fun r hq => nomatch hq) hevent
    cases hq
    exact ⟨before, i, after, hlog⟩
  · intro before i event after hlog
    obtain ⟨earlier, q, later, k, hbefore, hquiet, hleads⟩ := h.called hlog
    rcases insertEvent_path hleads with ⟨request, e, receivedAt, rfl, hbody, htype, hdata, -, rfl⟩ |
      ⟨m, hpasses, rfl, hcalls, rfl⟩
    · exact .inl ⟨request, e, ⟨earlier, later, hbefore, hquiet⟩, hbody, htype, hdata⟩
    · have harrive : c.log = earlier ++ .arrive i (.adapter m.hello m.token m.response) ::
          (later ++ .call i (.storage (.insertEvent m.event)) (.ok ()) :: after) := by
        rw [hlog, hbefore]
        simp
      obtain ⟨hvalid, hregistered⟩ := arrive_registered h harrive
      -- what the emission has read is still in the tables
      have hread : ∀ x ∈ m.trace, Lasting crates x.op x.res c.world := by
        intro x hx
        have hmem : .call i x.op x.res ∈ later := (mem_callsOf i later).mp (hcalls ▸ hx)
        have hlogged : .call i x.op x.res ∈ c.log := by
          rw [harrive]
          simp [hmem]
        exact h.persistent (lasting crates) hlogged
      have hresource := hread ⟨.storage (.getResource m.payload.resourceId), .ok m.resource⟩ (by simp [Emission.trace])
      have hscopes := hread ⟨.storage (.listObservationScopes (some m.expected.observationSource)), .ok m.scopes⟩
        (by simp [Emission.trace])
      have hobserved : ∃ scope ∈ m.scopes, scope.resourceId = m.payload.resourceId ∧ scope.status = .active := by
        simpa [observes] using hpasses.observed
      obtain ⟨scope, hscope, hscopeResource, -⟩ := hobserved
      obtain ⟨hsource, row, hrow, -, hrowSource, hrowResource⟩ := hscopes scope hscope
      have hemitted : Emitted c.world.db m.hello m.payload m.event := hpasses.emitted hresource
        ⟨row, hrow, hrowSource.trans (hsource _ rfl), hrowResource.trans hscopeResource⟩
      have hsemantic : m.event.eventType ≠ .syntheticV1 := by
        intro htype
        rcases hemitted.row with hrow | hrow <;> simp [htype] at hrow
      exact .inr ⟨m.hello, m.token, m.response, m.payload, ⟨earlier, later, hbefore, hquiet⟩,
        ⟨hvalid, hbefore ▸ List.mem_append_left _ hregistered⟩, hpasses.body, hsemantic, hemitted⟩

end Provenance

theorem event_provenance_workspace : ∃ c, (daemon Sample.crates).Reaches Sample.world Anywhere c ∧
    c.world.db.events = [Sample.workspaceEvent] ∧ Provenance c := by
  have hrun : (Sample.exec (Sample.emitting ++ Sample.calls 1 [0])).map (·.world.db.events) =
      some [Sample.workspaceEvent] := by decide +kernel
  obtain ⟨c, hc, hevents⟩ := Option.map_eq_some_iff.mp hrun
  have hreach := System.Reaches.init.exec hc
  exact ⟨c, hreach, hevents, event_provenance hreach⟩

end Fubun

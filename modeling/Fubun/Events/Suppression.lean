import Fubun.Concurrency.Hiding
import Fubun.Events.Frames
import Fubun.Events.Observed
import Fubun.Storage.Aside

/-! What the synthetic events of clients can change for the adapters. All events share one table and
its keys, so a client that names the instance and the next sequence number of an adapter takes the
place of the adapter's event. Where no synthetic event stands in the way, the adapters are answered
as if no client had brought any. -/

namespace Fubun
open Relational Concurrency Program System

def semanticEvents (db : Database) : List Event := db.events.filter (! ·.data.isSynthetic)

def Frame.isIngest : Frame → Bool
  | .request r =>
    match r.body with
    | .eventIngest _ => true
    | _ => false
  | .first _ | .adapter .. | .hangup .. => false

def Reply.ack? : Reply → Option (Uuid × EventAck)
  | .eventAck requestId ack => some (requestId, ack)
  | .response _ | .silent => none

/-- No synthetic event clashes with a semantic one that is about to be stored. -/
def undisputed (c : State) : Concurrency.Event Nat Frame Choice Drift → Bool
  | .call i _ =>
    match c.next? i with
    | some (.storage (.insertEvent event)) =>
      event.data.isSynthetic || c.world.db.events.all fun row => ! (row.data.isSynthetic && row.clashes event)
    | _ => true
  | .arrive .. | .answer _ | .drift _ | .restart _ => true

abbrev Undisputed (c : State) (e : Concurrency.Event Nat Frame Choice Drift) : Prop := undisputed c e = true

/-! ## Worlds that differ in the synthetic events -/

def World.withEvents (adapters : List AdapterRow) (events : List Event) (w : World) : World :=
  { w with db := w.db.withEvents adapters events }

def WithoutSynthetic (w w' : World) : Prop := ∃ adapters, w' = w.withEvents adapters (semanticEvents w.db)

section Operations
variable {crates : Crates} {adapters : List AdapterRow} {events : List Event} {i : Nat} {o : Op} {ch : Choice}
  {w w' w'' : World} {r : o.Res}

theorem store_withEvents (crates : Crates) (adapters : List AdapterRow) (events : List Event) (w : World)
    {operation : Operation} (hinsert : ∀ event, operation ≠ .insertEvent event)
    (hlist : ∀ since limit, operation ≠ .listEvents since limit) (fault : Option Nat) :
    (w.withEvents adapters events).store crates operation fault =
      ((w.store crates operation fault).1, (w.store crates operation fault).2.withEvents adapters events) := by
  have hignores : executeOperation crates w.nowUtc operation ⟨w.db.withEvents adapters events, fault⟩ =
      ((executeOperation crates w.nowUtc operation ⟨w.db, fault⟩).1,
        (executeOperation crates w.nowUtc operation ⟨w.db, fault⟩).2.map (Database.withEvents adapters events)) :=
    executeOperation_ignores hinsert hlist ⟨w.db, fault⟩
  have hdb : (w.withEvents adapters events).db = w.db.withEvents adapters events := rfl
  have hnow : (w.withEvents adapters events).nowUtc = w.nowUtc := rfl
  unfold World.store
  rw [hdb, hnow, hignores]
  rfl

theorem act_withEvents (hinsert : ∀ event, o ≠ .storage (.insertEvent event))
    (hlist : ∀ since limit, o ≠ .storage (.listEvents since limit)) :
    World.act crates i o ch (w.withEvents adapters events) =
      (World.act crates i o ch w).map fun x => (x.1, x.2.withEvents adapters events) := by
  cases o with
  | storage operation =>
    have hstore := store_withEvents crates adapters events w
      (fun event heq => hinsert event (congrArg Op.storage heq))
      (fun since limit heq => hlist since limit (congrArg Op.storage heq)) ch.fault
    exact congrArg some hstore
  | execute action resolved timeout =>
    have hconnections : (w.withEvents adapters events).connections = w.connections := rfl
    simp only [World.act, World.execute, hconnections, Option.map_some]
    split
    · rfl
    · cases ch.reply <;> rfl
  | register hello =>
    have hissued : (w.withEvents adapters events).issued = w.issued := rfl
    simp only [World.act, hissued]
    split
    · rfl
    · split_ifs <;> rfl
  | newUuid =>
    have hissued : (w.withEvents adapters events).issued = w.issued := rfl
    simp only [World.act, hissued]
    split_ifs <;> rfl
  | _ => rfl

theorem act_semanticEvents (hact : World.act crates i o ch w = some (r, w'))
    (ho : ∀ event, o = .storage (.insertEvent event) → event.data.isSynthetic = true) :
    semanticEvents w'.db = semanticEvents w.db := by
  rcases act_effect hact with ⟨operation, reply, hx, he⟩ | hdb
  · rcases he.events with hevents | ⟨event, hinsert, -, -, hevents⟩
    · rw [semanticEvents, semanticEvents, hevents]
    · cases hinsert
      have hsynthetic : event.data.isSynthetic = true := ho event (congrArg Answered.op hx)
      rw [semanticEvents, semanticEvents, hevents, List.filter_append]
      simp [hsynthetic]
  · rw [hdb]

theorem WithoutSynthetic.act (h : WithoutSynthetic w w') (hact : World.act crates i o ch w = some (r, w''))
    (hinsert : ∀ event, o ≠ .storage (.insertEvent event))
    (hlist : ∀ since limit, o ≠ .storage (.listEvents since limit)) :
    ∃ v, World.act crates i o ch w' = some (r, v) ∧ WithoutSynthetic w'' v := by
  obtain ⟨adapters, rfl⟩ := h
  refine ⟨w''.withEvents adapters (semanticEvents w.db), ?_, adapters, ?_⟩
  · rw [act_withEvents hinsert hlist, hact]
    rfl
  · rw [act_semanticEvents hact fun event heq => absurd heq (hinsert event)]

theorem WithoutSynthetic.insert {event : Event} {r : Except StorageError Unit} (h : WithoutSynthetic w w')
    (hact : World.act crates i (.storage (.insertEvent event)) ch w = some (r, w''))
    (hevent : event.data.isSynthetic = true) : WithoutSynthetic w'' w' := by
  obtain ⟨adapters, rfl⟩ := h
  have hsame := act_semanticEvents hact fun e heq => by
    obtain rfl := Operation.insertEvent.inj (Op.storage.inj heq)
    exact hevent
  obtain ⟨he, hw⟩ := act_storage hact
  refine ⟨adapters, ?_⟩
  rw [hsame, hw]
  cases r with
  | ok _ =>
    obtain ⟨-, hdb⟩ := insertEvent_ok.mp he.2
    rw [hdb]
    rfl
  | error _ =>
    have hdb : w''.db = w.db := he
    rw [hdb]

/-- An insertion that no synthetic event stands in the way of goes by the semantic ones. -/
theorem insertEvent_withEvents {db : Database} {event : Event} (hevent : event.data.isSynthetic = false)
    (hclear : ∀ row ∈ db.events, row.data.isSynthetic = true → row.clashes event = false) :
    Database.insertEvent event (db.withEvents adapters (semanticEvents db)) =
      (Database.insertEvent event db).map fun x =>
        (x.1, x.2.withEvents (upsertAdapter event adapters) (semanticEvents x.2)) := by
  have hany : (semanticEvents db).any (·.clashes event) = db.events.any (·.clashes event) := by
    rw [Bool.eq_iff_iff, List.any_eq_true, List.any_eq_true]
    constructor
    · rintro ⟨row, hrow, hclash⟩
      exact ⟨row, (List.mem_filter.mp hrow).1, hclash⟩
    · rintro ⟨row, hrow, hclash⟩
      have hsemantic : row.data.isSynthetic = false := by
        by_contra hne
        exact nomatch hclash.symm.trans (hclear row hrow (by simpa using hne))
      exact ⟨row, List.mem_filter.mpr ⟨hrow, by simp [hsemantic]⟩, hclash⟩
  have hevents : (db.withEvents adapters (semanticEvents db)).events = semanticEvents db := rfl
  unfold Database.insertEvent insertRow
  rw [hevents, hany]
  split_ifs with hclash
  · rfl
  · simp [Except.map, Database.withEvents, semanticEvents, hevent]

/-- A semantic event that no synthetic one clashes with is stored, or refused, in both worlds. -/
theorem WithoutSynthetic.emit {event : Event} {r : Except StorageError Unit} (h : WithoutSynthetic w w')
    (hact : World.act crates i (.storage (.insertEvent event)) ch w = some (r, w''))
    (hevent : event.data.isSynthetic = false)
    (hclear : ∀ row ∈ w.db.events, row.data.isSynthetic = true → row.clashes event = false) :
    ∃ v, World.act crates i (.storage (.insertEvent event)) ch w' = some (r, v) ∧ WithoutSynthetic w'' v := by
  obtain ⟨adapters, rfl⟩ := h
  have hstore : w.store crates (.insertEvent event) ch.fault = (r, w'') := Option.some.inj hact
  have hrelated : (insertEvent crates event ⟨w.db.withEvents adapters (semanticEvents w.db), ch.fault⟩).1 =
      (insertEvent crates event ⟨w.db, ch.fault⟩).1 ∧ ∃ adapters',
        (insertEvent crates event ⟨w.db.withEvents adapters (semanticEvents w.db), ch.fault⟩).2.db =
          (insertEvent crates event ⟨w.db, ch.fault⟩).2.db.withEvents adapters'
            (semanticEvents (insertEvent crates event ⟨w.db, ch.fault⟩).2.db) := by
    unfold insertEvent
    split_ifs
    · exact ⟨rfl, adapters, rfl⟩
    · exact ⟨rfl, adapters, rfl⟩
    · exact Command.statement_related
        (R := fun d d' : Database => ∃ adapters', d' = d.withEvents adapters' (semanticEvents d)) ⟨adapters, rfl⟩
        (insertEvent_withEvents hevent hclear) (fun _ _ _ => ⟨_, rfl⟩) ch.fault
  obtain ⟨hanswer, adapters', hdb⟩ := hrelated
  obtain ⟨hr, rfl⟩ := Prod.mk.inj hstore
  have hr : (insertEvent crates event ⟨w.db, ch.fault⟩).1 = r := hr
  refine ⟨_, congrArg some (Prod.ext (hanswer.trans hr) rfl), adapters', ?_⟩
  exact congrArg (fun db => { w with db := db }) hdb

theorem listEvents_act {since : Option OffsetDateTime} {limit : Nat} {r : Except StorageError (List Event)}
    (hact : World.act crates i (.storage (.listEvents since limit)) ch w = some (r, w'')) : w'' = w := by
  obtain ⟨he, hw⟩ := act_storage hact
  have hdb : w''.db = w.db := by cases r <;> exact he
  rw [hw, hdb]

theorem WithoutSynthetic.list {since : Option OffsetDateTime} {limit : Nat} {r : Except StorageError (List Event)}
    (h : WithoutSynthetic w w') (hact : World.act crates i (.storage (.listEvents since limit)) ch w = some (r, w'')) :
    ∃ r' v, World.act crates i (.storage (.listEvents since limit)) ch w' = some (r', v) ∧ WithoutSynthetic w'' v := by
  have hact' : World.act crates i (.storage (.listEvents since limit)) ch w' =
      some (w'.store crates (.listEvents since limit) ch.fault) := rfl
  refine ⟨_, _, hact', ?_⟩
  rw [listEvents_act hact, listEvents_act hact']
  exact h

theorem WithoutSynthetic.drift (h : WithoutSynthetic w w') (e : Drift) :
    WithoutSynthetic (World.drift e w) (World.drift e w') := by
  obtain ⟨adapters, rfl⟩ := h
  refine ⟨adapters, ?_⟩
  cases e <;> rfl

theorem WithoutSynthetic.restart (h : WithoutSynthetic w w') (crates : Crates) (ch : Choice) :
    WithoutSynthetic (World.restart crates ch w) (World.restart crates ch w') := by
  obtain ⟨adapters, rfl⟩ := h
  have hstore : (w.withEvents adapters (semanticEvents w.db)).store crates .abortRunningExecutions ch.fault =
      ((w.store crates .abortRunningExecutions ch.fault).1,
        (w.store crates .abortRunningExecutions ch.fault).2.withEvents adapters (semanticEvents w.db)) :=
    store_withEvents crates adapters _ w (by simp) (by simp) ch.fault
  have hsame : semanticEvents (World.restart crates ch w).db = semanticEvents w.db := by
    obtain ⟨reply, he, -⟩ := restart_effect crates ch w
    rcases he.events with hevents | ⟨event, hinsert, -⟩
    · rw [semanticEvents, semanticEvents, hevents]
    · exact nomatch congrArg Sigma.fst hinsert
  refine ⟨adapters, ?_⟩
  rw [hsame]
  unfold World.restart
  rw [hstore]
  rfl

end Operations

/-! ## What the requests do -/

section Requests
variable {crates : Crates} {τ : List (Answered Op.Res)} {frame : Frame} {o : Op} {k : o.Res → Core Reply}

theorem Frame.isIngest_eq_true : frame.isIngest = true ↔
    ∃ request event, frame = .request request ∧ request.body = .eventIngest event := by
  cases frame with
  | request request =>
    cases hbody : request.body <;> simp [Frame.isIngest, hbody]
  | _ => simp [Frame.isIngest]

theorem ingestResponse_issues (id : Uuid) (event : Event) : (ingestResponse id event).Issues fun o =>
    o = .nowUtc ∨ ∃ e, o = .storage (.insertEvent e) ∧ e.data.isSynthetic = true := by
  unfold ingestResponse
  split
  · trivial
  rename_i hsynthetic
  push Not at hsynthetic
  refine .perform_bind (.inl rfl) fun now => ?_
  dsimp only
  split
  · trivial
  refine Meets.bind (R := fun _ => True) ?_ fun r _ => ?_
  · unfold storageInsertEvent
    split
    · trivial
    · exact ⟨.inr ⟨_, rfl, by simpa using hsynthetic.2⟩, fun _ => trivial⟩
  · split <;> trivial

theorem leads_ingest (hframe : frame.isIngest = true) (h : Leads (handleFrame crates frame) τ (.call o k)) :
    o = .nowUtc ∨ ∃ e, o = .storage (.insertEvent e) ∧ e.data.isSynthetic = true := by
  obtain ⟨request, event, rfl, hbody⟩ := Frame.isIngest_eq_true.mp hframe
  obtain ⟨k', hleads⟩ := leads_request h
  rw [hbody] at hleads
  exact ((ingestResponse_issues _ _).leads hleads).1

theorem leads_response {request : RequestEnvelope} {reply : Reply}
    (h : Leads (handleFrame crates (.request request)) τ (.ret reply)) : ∃ response, reply = .response response := by
  obtain ⟨τ₁, response, τ₂, -, -, hret⟩ := leads_bind_ret h
  obtain ⟨-, heq⟩ := leads_ret_iff.mp hret
  exact ⟨response, Program.ret.inj heq⟩

theorem EventType.resourceData_isSynthetic {eventType : EventType} {resourceId : Uuid} {data : EventData}
    (h : eventType.resourceData resourceId = some data) : data.isSynthetic = false := by
  cases eventType with
  | syntheticV1 => exact nomatch h
  | _ =>
    obtain rfl := Option.some.inj h
    rfl

theorem leads_insertEvent {event : Event} {k : Op.Res (.storage (.insertEvent event)) → Core Reply}
    (hframe : frame.isIngest = false) (h : Leads (handleFrame crates frame) τ (.call (.storage (.insertEvent event)) k)) :
    event.data.isSynthetic = false := by
  rcases insertEvent_path h with ⟨request, e, _, hrequest, hbody, -⟩ | ⟨m, hpasses, -, -, rfl⟩
  · have hingest := Frame.isIngest_eq_true.mpr ⟨request, e, hrequest, hbody⟩
    exact nomatch hframe.symm.trans hingest
  · exact EventType.resourceData_isSynthetic hpasses.data

theorem leads_listEvents {since : Option OffsetDateTime} {limit : Nat}
    {k : Op.Res (.storage (.listEvents since limit)) → Core Reply}
    (h : Leads (handleFrame crates frame) τ (.call (.storage (.listEvents since limit)) k)) :
    ∀ r, ∃ response, k r = .ret (.response response) := by
  have htarget : Target.listing ∈ (Op.storage (.listEvents since limit)).targets := List.mem_singleton_self _
  have hframe := leads_targets h htarget
  have hlisting : ∃ request s l, frame = .request request ∧ request.body = .eventsList s l := by
    cases frame with
    | request request =>
      cases hbody : request.body <;> simp [Frame.targets, hbody, RequestBody.targets, executionTargets] at hframe
      exact ⟨request, _, _, rfl, hbody⟩
    | _ => simp [Frame.targets] at hframe
  obtain ⟨request, s, l, rfl, hbody⟩ := hlisting
  have hversion : request.protocolVersion.major = currentProtocolVersion.major := by
    by_contra hne
    have hhandler : handleFrame crates (.request request) = .ret (.response (.error request.requestId
        "protocol_major_mismatch" "client and daemon protocol major versions differ")) := by
      simp only [handleFrame, processRequest, ne_eq, hne, not_false_eq_true, if_true]
      rfl
    rw [hhandler] at h
    exact not_leads_ret_call h
  cases leads_eventsList hversion hbody h
  intro r
  cases r with
  | ok events => exact ⟨_, rfl⟩
  | error error => exact ⟨_, rfl⟩

end Requests

/-! ## Runs -/

section Runs
variable {crates : Crates} {now : Int} {instant : Nat} {files : Files} {path : String}

/-- Nobody who does not list the events notices the synthetic ones. -/
def unnoticed (crates : Crates) (now : Int) (instant : Nat) (files : Files) (path : String) :
    Unnoticed (daemon crates) (World.start now instant files path) Undisputed Frame.isIngest Reply.ack? where
  Rel := WithoutSynthetic
  Alike p p' := p = p' ∨ ∃ response response', p = .ret (.response response) ∧ p' = .ret (.response response')
  refl _ := .inl rfl
  admits := by
    rintro w _ i q ⟨adapters, rfl⟩
    rfl
  hiddenCall := by
    intro c i t o k ch r w w' hreach ht hhidden hrest hact hrel
    have hleads := (hreach.traced ht).leads
    rw [hrest] at hleads
    rcases leads_ingest hhidden hleads with rfl | ⟨event, rfl, hevent⟩
    · obtain ⟨-, rfl⟩ := Prod.mk.inj (Option.some.inj hact)
      exact hrel
    · exact hrel.insert (i := i) hact hevent
  hiddenAnswer := by
    intro c i t reply hreach ht hhidden hrest
    obtain ⟨request, event, hrequest, -⟩ := Frame.isIngest_eq_true.mp hhidden
    have hleads := (hreach.traced ht).leads
    rw [hrest, hrequest] at hleads
    obtain ⟨response, rfl⟩ := leads_response hleads
    rfl
  call := by
    intro c i t o k ch r w p w' hreach hok ht hhidden hrest hact hrel halike
    obtain rfl : Program.call o k = p := by
      rcases halike with heq | ⟨_, _, hret, -⟩
      · exact heq
      · exact nomatch hret
    have hleads := (hreach.traced ht).leads
    rw [hrest] at hleads
    by_cases hinsert : ∃ event, o = .storage (.insertEvent event)
    · obtain ⟨event, rfl⟩ := hinsert
      have hevent := leads_insertEvent hhidden hleads
      have hnext : c.next? i = some (.storage (.insertEvent event)) := Config.next?_eq_some.mpr ⟨t, k, ht, hrest⟩
      have hclear : ∀ row ∈ c.world.db.events, row.data.isSynthetic = true → row.clashes event = false := by
        have hall : ∀ row ∈ c.world.db.events, row.data.isSynthetic = false ∨ row.clashes event = false := by
          simpa [Undisputed, undisputed, hnext, hevent] using hok
        exact fun row hrow hsynthetic => (hall row hrow).resolve_left (by simp [hsynthetic])
      obtain ⟨w'', hact', hrel'⟩ := hrel.emit (i := i) hact hevent hclear
      exact ⟨_, k, r, w'', rfl, hact', hrel', .inl rfl⟩
    by_cases hlist : ∃ since limit, o = .storage (.listEvents since limit)
    · obtain ⟨since, limit, rfl⟩ := hlist
      obtain ⟨r', w'', hact', hrel'⟩ := hrel.list (i := i) hact
      obtain ⟨response, hresponse⟩ := leads_listEvents hleads r
      obtain ⟨response', hresponse'⟩ := leads_listEvents hleads r'
      exact ⟨_, k, r', w'', rfl, hact', hrel', .inr ⟨response, response', hresponse, hresponse'⟩⟩
    push Not at hinsert hlist
    obtain ⟨w'', hact', hrel'⟩ := hrel.act hact hinsert hlist
    exact ⟨o, k, r, w'', rfl, hact', hrel', .inl rfl⟩
  answer := by
    rintro a p (rfl | ⟨response, response', heq, rfl⟩)
    · exact ⟨a, rfl, rfl⟩
    · obtain rfl := Program.ret.inj heq
      exact ⟨_, rfl, rfl⟩
  drift h := h.drift _
  restart h := h.restart crates _

/-- Two runs that differ only in the ingestions of clients, in which no synthetic event clashes with an
emission's when that is stored: the adapters get the same answers, and the same semantic events are stored. -/
theorem acks_of_visible {es₁ es₂ : List (Concurrency.Event Nat Frame Choice Drift)} {c₁ c₂ : State}
    (h₁ : (daemon crates).execIf Undisputed (.init (World.start now instant files path)) es₁ = some c₁)
    (h₂ : (daemon crates).execIf Undisputed (.init (World.start now instant files path)) es₂ = some c₂)
    (hes : visible Frame.isIngest [] es₁ = visible Frame.isIngest [] es₂) :
    shown Reply.ack? c₁.log = shown Reply.ack? c₂.log ∧ semanticEvents c₁.world.db = semanticEvents c₂.world.db := by
  have hrel : WithoutSynthetic (World.start now instant files path) (World.start now instant files path) := ⟨[], rfl⟩
  obtain ⟨hacks, w, ⟨adapters₁, hw₁⟩, adapters₂, hw₂⟩ :=
    (unnoticed crates now instant files path).exec_visible hrel h₁ h₂ hes
  have hsame := hw₁.symm.trans hw₂
  exact ⟨hacks, congrArg (·.db.events) hsame⟩

end Runs

/-! ## An adapter and a client -/

namespace Sample

/-- A client brings a synthetic event with the given id and the instance and number of the adapter's. -/
def ingesting (id : Uuid) (sequenceNo : Nat) : Schedule :=
  served 0 (.eventIngest { synthetic id sequenceNo with adapter := ⟨"fixture", "0.1.0", 101, sequenceNo⟩ }) [0, 0]

def acknowledging : Schedule := calls 1 [0] ++ [.answer 1]

end Sample

theorem acks_of_visible_sample : ∃ c₁ c₂,
    (daemon Sample.crates).execIf Undisputed (.init Sample.world)
      (Sample.emitting ++ (Sample.ingesting 7 2 ++ Sample.acknowledging)) = some c₁ ∧
    (daemon Sample.crates).execIf Undisputed (.init Sample.world) (Sample.emitting ++ Sample.acknowledging) = some c₂ ∧
    shown Reply.ack? c₁.log = shown Reply.ack? c₂.log ∧ semanticEvents c₁.world.db = semanticEvents c₂.world.db := by
  have hsome₁ : ((daemon Sample.crates).execIf Undisputed (.init Sample.world)
      (Sample.emitting ++ (Sample.ingesting 7 2 ++ Sample.acknowledging))).isSome = true := by decide +kernel
  have hsome₂ : ((daemon Sample.crates).execIf Undisputed (.init Sample.world)
      (Sample.emitting ++ Sample.acknowledging)).isSome = true := by decide +kernel
  obtain ⟨c₁, h₁⟩ := Option.isSome_iff_exists.mp hsome₁
  obtain ⟨c₂, h₂⟩ := Option.isSome_iff_exists.mp hsome₂
  exact ⟨c₁, c₂, h₁, h₂, acks_of_visible h₁ h₂ rfl⟩

/-- A client that brings an event under the adapter's next number has the adapter's refused as a duplicate. -/
theorem suppressed_by_ingest : ¬ ∀ (es₁ es₂ : Sample.Schedule) (c₁ c₂ : State),
    (daemon Sample.crates).exec (.init Sample.world) es₁ = some c₁ →
    (daemon Sample.crates).exec (.init Sample.world) es₂ = some c₂ →
    visible Frame.isIngest [] es₁ = visible Frame.isIngest [] es₂ →
    shown Reply.ack? c₁.log = shown Reply.ack? c₂.log ∧ semanticEvents c₁.world.db = semanticEvents c₂.world.db := by
  intro hall
  have hrun₁ : ((daemon Sample.crates).exec (.init Sample.world)
      (Sample.emitting ++ (Sample.ingesting 7 1 ++ Sample.acknowledging))).map (fun c => shown Reply.ack? c.log) =
      some [(1, 0, ⟨5, false, true⟩)] := by decide +kernel
  have hrun₂ : ((daemon Sample.crates).exec (.init Sample.world)
      (Sample.emitting ++ Sample.acknowledging)).map (fun c => shown Reply.ack? c.log) =
      some [(1, 0, ⟨5, true, false⟩)] := by decide +kernel
  obtain ⟨c₁, h₁, hacks₁⟩ := Option.map_eq_some_iff.mp hrun₁
  obtain ⟨c₂, h₂, hacks₂⟩ := Option.map_eq_some_iff.mp hrun₂
  have hsame := (hall _ _ c₁ c₂ h₁ h₂ rfl).1
  rw [hacks₁, hacks₂] at hsame
  exact absurd hsame (by decide)

end Fubun

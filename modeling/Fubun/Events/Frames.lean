import Fubun.Core.Runs
import Fubun.Encoding.Cost
import Fubun.Encoding.Text
import Fubun.Events.Duplicates
import Fubun.Events.Listing
import Fubun.Wire

/-! The frame that a listing of events is sent in. Nothing bounds the text fields of a stored
event but the frame it arrived in, and the answer wraps them into more bytes. -/

namespace Fubun
open Relational Concurrency Program System Encoding

/-! ## Sizes -/

def literalBytes (s : String) : Nat := cost escapedSize s.toList + 2

def numberBytes (n : Int) : Nat := (toString n).utf8ByteSize

/-- The bytes of the field that the context takes, and of the comma before it. -/
def contextBytes : Option ContextReference → Nat
  | none => 0
  | some ⟨none, none⟩ => 13
  | some ⟨some text, none⟩ | some ⟨none, some text⟩ => 23 + literalBytes text
  | some ⟨some project, some session⟩ => 34 + literalBytes project + literalBytes session

def dataBytes : EventData → Nat
  | .synthetic label counter => 40 + literalBytes label + numberBytes counter
  | .browserResourceOpened _ | .vscodeWorkspaceOpened _ => 87

def eventBytes (crates : Crates) (event : Event) : Nat :=
  234 + literalBytes event.specVersion + literalBytes event.eventType.name + literalBytes event.source +
    literalBytes (crates.formatRfc3339 event.occurredAt) + literalBytes (crates.formatRfc3339 event.receivedAt) +
    literalBytes event.actor.name + literalBytes event.adapter.id + literalBytes event.adapter.version +
    numberBytes event.adapter.sequenceNo + contextBytes event.context + literalBytes event.privacy.name +
    dataBytes event.data

/-- A stored event is asked for: it passes `since`, and fewer than the limit that pass stand before it. -/
def selected (crates : Crates) (since : Option OffsetDateTime) (limit : Nat) (events : List Event) (event : Event) : Bool :=
  receivedSince crates since event &&
    decide (rank (textOrder crates) (receivedSince crates since) events event < min limit 1000)

/-- The bytes that a request asks for: an envelope, the selected events and the commas between them. -/
def requestedBytes (crates : Crates) (since : Option OffsetDateTime) (limit : Nat) (events : List Event) : Nat :=
  171 + ((events.filter (selected crates since limit events)).map (eventBytes crates)).sum +
    (events.countP (selected crates since limit events) - 1)

section Sizes
variable {crates : Crates}

theorem size_string (s : String) : (Json.string s).size = literalBytes s := byteSize_renderString_eq s

theorem size_number (n : Int) : (Json.number n).size = numberBytes n := (utf8ByteSize_eq (toString n)).symm

theorem size_adapter (adapter : AdapterIdentity) : adapter.toJson.size =
    86 + literalBytes adapter.id + literalBytes adapter.version + numberBytes adapter.sequenceNo := by
  have hid : byteSize (renderString "id") = 4 := by decide
  have hversion : byteSize (renderString "version") = 9 := by decide
  have hinstance : byteSize (renderString "instance_id") = 13 := by decide
  have hsequence : byteSize (renderString "sequence_no") = 13 := by decide
  simp only [AdapterIdentity.toJson, size_object, List.map_cons, List.map_nil, List.sum_cons, List.sum_nil,
    List.length_cons, List.length_nil, fieldSize_eq, size_uuid, size_string, size_number, hid, hversion, hinstance, hsequence]
  omega

theorem size_data (data : EventData) : data.toJson.size = dataBytes data := by
  have hkind : byteSize (renderString "kind") = 6 := by decide
  have hlabel : byteSize (renderString "label") = 7 := by decide
  have hcounter : byteSize (renderString "counter") = 9 := by decide
  have hresource : byteSize (renderString "resource_id") = 13 := by decide
  have hsynthetic : literalBytes "synthetic" = 11 := by decide
  have hbrowser : literalBytes "browser.resource.opened" = 25 := by decide
  have hvscode : literalBytes "vscode.workspace.opened" = 25 := by decide
  cases data
  all_goals
    simp only [EventData.toJson, dataBytes, size_object, List.map_cons, List.map_nil, List.sum_cons, List.sum_nil,
      List.length_cons, List.length_nil, fieldSize_eq, size_uuid, size_string, size_number, hkind, hlabel, hcounter,
      hresource, hsynthetic, hbrowser, hvscode]
    omega

theorem size_context (context : Option ContextReference) :
    ((context.toList.map fun context => ("context", context.toJson)).map fieldSize).sum + context.toList.length =
      contextBytes context := by
  have hcontext : byteSize (renderString "context") = 9 := by decide
  have hproject : byteSize (renderString "project") = 9 := by decide
  have hsession : byteSize (renderString "session") = 9 := by decide
  rcases context with - | ⟨- | project, - | session⟩
  · rfl
  all_goals
    simp only [Option.toList_none, Option.toList_some, ContextReference.toJson, optionalField, contextBytes, size_object,
      List.map_cons, List.map_nil, List.nil_append, List.append_nil, List.cons_append, List.sum_cons, List.sum_nil,
      List.length_cons, List.length_nil, fieldSize_eq, size_string, hcontext, hproject, hsession]
    omega

theorem size_event (event : Event) : (event.toJson crates).size = eventBytes crates event := by
  have hspec : byteSize (renderString "spec_version") = 14 := by decide
  have hid : byteSize (renderString "id") = 4 := by decide
  have htype : byteSize (renderString "type") = 6 := by decide
  have hsource : byteSize (renderString "source") = 8 := by decide
  have hoccurred : byteSize (renderString "occurred_at") = 13 := by decide
  have hreceived : byteSize (renderString "received_at") = 13 := by decide
  have hactor : byteSize (renderString "actor") = 7 := by decide
  have hadapter : byteSize (renderString "adapter") = 9 := by decide
  have hprivacy : byteSize (renderString "privacy") = 9 := by decide
  have hdata : byteSize (renderString "data") = 6 := by decide
  have hcontext := size_context event.context
  simp only [Event.toJson, timestampJson, size_object, List.map_append, List.map_cons, List.map_nil, List.sum_append,
    List.sum_cons, List.sum_nil, List.length_append, List.length_map, List.length_cons, List.length_nil, fieldSize_eq,
    size_uuid, size_string, size_adapter, size_data, hspec, hid, htype, hsource, hoccurred, hreceived, hactor, hadapter,
    hprivacy, hdata, eventBytes] at hcontext ⊢
  omega

end Sizes

section Runs
variable {crates : Crates} {now : Int} {instant : Nat} {files : Files} {path : String} {c : State}

theorem leads_eventsList {request : RequestEnvelope} {since : Option OffsetDateTime} {limit : Nat}
    (hversion : request.protocolVersion.major = currentProtocolVersion.major)
    (hbody : request.body = .eventsList since limit) {τ : List (Answered Op.Res)} {o : Op} {k : Op.Res o → Core Reply}
    (h : Leads (handleFrame crates (.request request)) τ (.call o k)) :
    (⟨o, k⟩ : (o : Op) × (Op.Res o → Core Reply)) = ⟨.storage (.listEvents since limit), fun reply =>
      match reply with
      | .ok events => .ret (.response (.ok request.requestId (.eventList events)))
      | .error error => .ret (.response (storageError request.requestId error))⟩ := by
  have hhandler : handleFrame crates (.request request) = .call (.storage (.listEvents since limit)) fun reply =>
      match reply with
      | .ok events => .ret (.response (.ok request.requestId (.eventList events)))
      | .error error => .ret (.response (storageError request.requestId error)) := by
    simp only [handleFrame, processRequest, hversion, ne_eq, not_true_eq_false, if_false, hbody, processBody,
      readResponse, perform_bind]
    refine congrArg (Program.call _) (funext fun reply => ?_)
    cases reply <;> rfl
  rw [hhandler] at h
  rcases leads_call_iff.mp h with ⟨-, heq⟩ | ⟨r, τ', -, h'⟩
  · obtain ⟨ho, hk⟩ := Program.call.inj heq
    exact Sigma.ext ho hk
  · cases r with
    | ok events => exact absurd h' not_leads_ret_call
    | error error => exact absurd h' not_leads_ret_call

/-- What a listing takes is what the stored events and the request ask for. -/
theorem size_listEvents (h : (daemon crates).Reaches (World.start now instant files path) Anywhere c) (requestId : Uuid)
    (since : Option OffsetDateTime) (limit : Nat) :
    (eventListJson crates requestId (listEvents crates since limit c.world.db)).size =
      requestedBytes crates since limit c.world.db.events := by
  have hkeys : Keyed Event.id c.world.db.events :=
    reaches_database (I := fun db => Keyed Event.id db.events) h keyed_nil keyed_events
  have hperm : (listEvents crates since limit c.world.db).Perm
      (c.world.db.events.filter (selected crates since limit c.world.db.events)) :=
    take_orderBy_perm (linearOn_of_key (fun _ _ => textOrder_iff) hkeys) (List.Nodup.of_map _ hkeys)
  have hsum := (hperm.map (eventBytes crates)).sum_eq
  have hlength := hperm.length_eq
  rw [← List.countP_eq_length_filter] at hlength
  rw [size_eventListJson, hlength]
  simp only [size_event, hsum, requestedBytes]
  omega

/-- A request is answered with its listing in one frame exactly when its `since` formats and the
stored events it asks for fit into one. -/
theorem eventList_framed_iff (h : (daemon crates).Reaches (World.start now instant files path) Anywhere c)
    {i : Nat} {t : Thread Op Op.Res Frame Reply} {request : RequestEnvelope} {since : Option OffsetDateTime}
    {limit : Nat} (ht : c.threads i = some t) (hrequest : t.request = .request request)
    (hversion : request.protocolVersion.major = currentProtocolVersion.major)
    (hbody : request.body = .eventsList since limit) {o : Op} {k : Op.Res o → Core Reply}
    (hrest : t.rest = .call o k) {ch : Choice} (hfault : ch.fault = none) {r : Op.Res o} {w : World}
    (hact : World.act crates i o ch c.world = some (r, w)) :
    (k r = .ret (.response (.ok request.requestId (.eventList (listEvents crates since limit c.world.db)))) ∧
      (encodeJsonFrame (eventListJson crates request.requestId
        (listEvents crates since limit c.world.db))).isOk = true) ↔
      since.all crates.formats = true ∧ requestedBytes crates since limit c.world.db.events ≤ maxMessageSize := by
  rw [encodeJsonFrame_isOk, size_listEvents h]
  refine and_congr ?_ Iff.rfl
  have hleads := (h.traced ht).leads
  rw [hrest, hrequest] at hleads
  cases leads_eventsList hversion hbody hleads
  have hstore : c.world.store crates (.listEvents since limit) ch.fault = (r, w) := Option.some.inj hact
  have hanswer : (c.world.store crates (.listEvents since limit) none).1 = _ := store_listEvents since limit c.world
  rw [← hfault, hstore] at hanswer
  have hr : r = if since.all crates.formats then .ok (listEvents crates since limit c.world.db) else .error .time := hanswer
  by_cases hformats : since.all crates.formats = true
  · rw [if_pos hformats] at hr
    subst hr
    exact iff_of_true rfl hformats
  · rw [if_neg hformats] at hr
    subst hr
    refine iff_of_false (fun heq => ?_) hformats
    have hbody := congrArg ResponseEnvelope.body (Reply.response.inj (Program.ret.inj heq))
    exact nomatch hbody

end Runs

/-! ## One large event -/

namespace Sample

def sourced (n : Nat) : Fubun.Event := { synthetic 7 1 with source := String.ofList (List.replicate n 'a') }

theorem byteSize_source (n : Nat) : (Json.string (sourced n).source).size = n + 2 := by
  have hplain : ∀ c ∈ (sourced n).source.toList,
      0x20 ≤ c.toNat ∧ c.toNat < 0x80 ∧ c.toNat ≠ 0x22 ∧ c.toNat ≠ 0x5c := by
    intro c hc
    rw [sourced, String.toList_ofList] at hc
    rw [List.eq_of_mem_replicate hc]
    decide
  have hsize := byteSize_renderString hplain
  rw [← String.length_toList, sourced, String.toList_ofList, List.length_replicate] at hsize
  exact hsize

theorem eventBytes_sourced (n : Nat) : eventBytes crates (sourced n) = n + 398 := by
  have hone : eventBytes crates (sourced 1) = 399 := by decide +kernel
  have hsource : literalBytes (sourced n).source = n + 2 := (size_string _).symm.trans (byteSize_source n)
  have hsource₁ : literalBytes (sourced 1).source = 3 := (size_string _).symm.trans (byteSize_source 1)
  -- only the source depends on `n`
  simp only [eventBytes, hsource, hsource₁] at hone ⊢
  simp only [sourced] at hone ⊢
  omega

theorem sourced_valid {n : Nat} (hn : n ≠ 0) : (sourced n).validate = .ok () := by
  have hnonblank : (sourced n).source.toList.all isWhitespace = false := by
    obtain ⟨m, rfl⟩ := Nat.exists_eq_succ_of_ne_zero hn
    rw [sourced, String.toList_ofList, List.replicate_succ, List.all_cons]
    exact Bool.and_eq_false_imp.mpr (fun h => absurd h (by decide))
  have hsource : validateNonEmpty "source" (sourced n).source = .ok () := by
    rw [validateNonEmpty, hnonblank]
    rfl
  rw [Event.validate, hsource]
  have hrest : (synthetic 7 1).validate = .ok () := by decide +kernel
  exact hrest

/-- The request that brings an event is shorter than the listing that returns it. -/
theorem size_eventIngestJson (requestId : Uuid) (event : Fubun.Event) :
    (eventIngestJson crates requestId event).size = (event.toJson crates).size + 147 := by
  have hversionKey : byteSize (renderString "protocol_version") = 18 := by decide
  have hidKey : byteSize (renderString "request_id") = 12 := by decide
  have hbodyKey : byteSize (renderString "body") = 6 := by decide
  have hmethodKey : byteSize (renderString "method") = 8 := by decide
  have hparamsKey : byteSize (renderString "params") = 8 := by decide
  have heventKey : byteSize (renderString "event") = 7 := by decide
  have hversion : currentProtocolVersion.toJson.size = 21 := by decide
  have hmethod : (Json.string "event.ingest").size = 14 := by decide
  simp only [eventIngestJson, requestJson, size_object, List.map_cons, List.map_nil, List.sum_cons, List.sum_nil,
    List.length_cons, List.length_nil, fieldSize_eq, size_uuid, hversionKey, hidKey, hbodyKey, hmethodKey,
    hparamsKey, heventKey, hversion, hmethod]
  omega

theorem ingest_calls {event : Fubun.Event} (htype : event.eventType = .syntheticV1)
    (hdata : event.data.isSynthetic = true) (hreceived : event.receivedAt = ⟨0, 0⟩)
    (hvalid : event.validate = .ok ()) :
    ∃ k : Op.Res .nowUtc → Core Reply,
      handleFrame crates (.request ⟨currentProtocolVersion, 0, .eventIngest event⟩) = .call .nowUtc k ∧
        ∃ k' : Op.Res (.storage (.insertEvent event)) → Core Reply,
          k ⟨0, 0⟩ = .call (.storage (.insertEvent event)) k' ∧ ∃ a, k' (.ok ()) = .ret a := by
  have hsynthetic : ¬ (event.eventType ≠ .syntheticV1 ∨ event.data.isSynthetic = false) := by
    simp [htype, hdata]
  have hhandler : handleFrame crates (.request ⟨currentProtocolVersion, 0, .eventIngest event⟩) =
      ingestResponse 0 event >>= fun response => .ret (.response response) := rfl
  rw [hhandler, ingestResponse, if_neg hsynthetic]
  refine ⟨_, rfl, ?_⟩
  -- the stamp is the time the event already has
  obtain ⟨specVersion, id, eventType, source, occurredAt, receivedAt, actor, adapter, context, privacy, data⟩ := event
  obtain rfl : receivedAt = ⟨0, 0⟩ := hreceived
  simp only [Program.bind, hvalid, storageInsertEvent, perform_bind]
  refine ⟨_, rfl, ?_⟩
  exact ⟨_, rfl⟩

def holding (event : Fubun.Event) : Database :=
  { Database.empty with adapters := upsertAdapter event [], events := [event] }

theorem exists_listing (event : Fubun.Event) (htype : event.eventType = .syntheticV1)
    (hdata : event.data.isSynthetic = true) (hreceived : event.receivedAt = ⟨0, 0⟩)
    (hvalid : event.validate = .ok ()) :
    ∃ c t, (daemon crates).Reaches world Anywhere c ∧ c.world.db.events = [event] ∧
      c.threads 0 = some t ∧ t.request = .request ⟨currentProtocolVersion, 0, .eventsList none 100⟩ ∧
      t.rest = handleFrame crates t.request := by
  have hrun : (exec (connected 0)).map
      (fun c => ((c.threads 0).isNone, c.world.up, c.world.sessions 0, c.world.now, c.world.db)) =
      some (true, true, .client, 0, .empty) := by decide +kernel
  obtain ⟨c₀, hc₀, hproj⟩ := Option.map_eq_some_iff.mp hrun
  simp only [Prod.mk.injEq, Option.isNone_iff_eq_none] at hproj
  obtain ⟨hidle, hup, hsession, hnow, hdb⟩ := hproj
  obtain ⟨k, hhandler, k', hk, a, ha⟩ := ingest_calls htype hdata hreceived hvalid
  -- the client's request, its two operations and its answer
  have hadmits (request : RequestEnvelope) : (daemon crates).admits c₀.world 0 (.request request) = true := by
    simp only [daemon, admits, hup, hsession, Bool.and_self]
  have hreach₀ : (daemon crates).Reaches world Anywhere c₀ := System.Reaches.init.exec hc₀
  have hreach₁ := hreach₀.step trivial (.arrive hidle (hadmits ⟨currentProtocolVersion, 0, .eventIngest event⟩))
  have hclock : (daemon crates).act 0 .nowUtc ⟨0, none, .timeout⟩ c₀.world = some (⟨0, 0⟩, c₀.world) :=
    congrArg (fun now : Int => some (OffsetDateTime.mk now 0, c₀.world)) hnow
  have hreach₂ := hreach₁.step trivial (.call Config.arrived_threads_self hhandler hclock)
  have hinsert : (daemon crates).act 0 (.storage (.insertEvent event)) ⟨0, none, .timeout⟩ c₀.world =
      some (.ok (), { c₀.world with db := holding event }) := by
    have hok : Database.insertEvent event .empty = .ok ((), holding event) :=
      insertEvent_ok.mpr ⟨fun row hrow => (nomatch hrow), rfl⟩
    have hstore : insertEvent crates event ⟨c₀.world.db, none⟩ = (.ok (), ⟨holding event, none⟩) := by
      rw [insertEvent_valid hvalid ⟨rfl, rfl⟩, hdb, statement, Command.statement_no_fault, hok]
    simp only [daemon, World.act, World.store, executeOperation]
    rw [hstore]
  have hreach₃ := hreach₂.step trivial (.call Config.called_threads_self hk hinsert)
  have hreach₄ := hreach₃.step trivial (.answer Config.called_threads_self ha)
  have hreach₅ := hreach₄.step trivial
    (.arrive Config.answered_threads_self (hadmits ⟨currentProtocolVersion, 0, .eventsList none 100⟩))
  exact ⟨_, _, hreach₅, rfl, Config.arrived_threads_self, rfl, rfl⟩

end Sample

theorem eventList_framed_short : ∃ c, (daemon Sample.crates).Reaches Sample.world Anywhere c ∧
    c.world.db.events = [Sample.synthetic 7 1] ∧
      (encodeJsonFrame (eventListJson Sample.crates 0 (listEvents Sample.crates none 100 c.world.db))).isOk = true := by
  obtain ⟨c, t, hreach, hevents, ht, hrequest, hrest⟩ :=
    Sample.exists_listing (Sample.synthetic 7 1) rfl rfl rfl (by decide +kernel)
  refine ⟨c, hreach, hevents, ?_⟩
  rw [hrequest] at hrest
  have hfault : (Choice.mk 0 none .timeout).fault = none := rfl
  have hfits : requestedBytes Sample.crates none 100 c.world.db.events ≤ maxMessageSize := by
    rw [hevents]
    decide +kernel
  exact ((eventList_framed_iff hreach ht hrequest rfl rfl hrest hfault rfl).mpr ⟨rfl, hfits⟩).2

/-- An event that arrives in one frame and whose listing does not fit into one. -/
theorem unlistable_event : ∃ event c t,
    (encodeJsonFrame (eventIngestJson Sample.crates 0 event)).isOk = true ∧
      (daemon Sample.crates).Reaches Sample.world Anywhere c ∧ c.world.db.events = [event] ∧
        c.threads 0 = some t ∧ t.request = .request ⟨currentProtocolVersion, 0, .eventsList none 100⟩ ∧
          (encodeJsonFrame (eventListJson Sample.crates 0
            (listEvents Sample.crates none 100 c.world.db))).isOk = false := by
  obtain ⟨c, t, hreach, hevents, ht, hrequest, -⟩ :=
    Sample.exists_listing (Sample.sourced 261599) rfl rfl rfl (Sample.sourced_valid (by decide))
  refine ⟨_, c, t, ?_, hreach, hevents, ht, hrequest, ?_⟩
  · rw [encodeJsonFrame_isOk, Sample.size_eventIngestJson, size_event, Sample.eventBytes_sourced]
    decide
  · have hsize : ¬ requestedBytes Sample.crates none 100 c.world.db.events ≤ maxMessageSize := by
      have hselected : c.world.db.events.filter (selected Sample.crates none 100 c.world.db.events) =
          [Sample.sourced 261599] := by
        rw [hevents]
        rfl
      rw [requestedBytes, hselected, List.map_singleton, List.sum_singleton, Sample.eventBytes_sourced]
      have hmax : maxMessageSize = 262144 := rfl
      omega
    rw [← size_listEvents hreach 0] at hsize
    rw [Bool.eq_false_iff]
    exact mt (encodeJsonFrame_isOk _).mp hsize

end Fubun

import Fubun.Concurrency.Machine
import Fubun.Relational.Rollback
import Fubun.Storage.Effect

/-! The adapters table beside the event log: what the transaction of `insert_event` does statement by
statement, and what runs of it keep. -/

namespace Fubun
open Relational Concurrency.Machine

/-! ## One call -/

def upsertAdapterStatement (event : Event) (db : Database) : Except StorageError Database :=
  .ok { db with adapters := upsertAdapter event db.adapters }

def insertEventStatement (event : Event) (db : Database) : Except StorageError Database :=
  (insertRow Event.clashes .duplicateEvent db.events event).map fun events => { db with events }

/-- `StorageHandle::insert_event` with what `insert_event` does; one of the statements or the commit
may be lost. -/
def insertEventCall (crates : Crates) (event : Event) (fault : Option Nat) (db : Database) :
    Except StorageError Unit × Database :=
  match event.validate with
  | .error e => (.error (.validation e), db)
  | .ok () =>
    if ! (crates.formats event.occurredAt && crates.formats event.receivedAt) then (.error .time, db)
    else if event.adapter.sequenceNo > i64Max then (.error (.validation .sequenceOutOfRange), db)
    else transact (.sqlite .io) [upsertAdapterStatement event, insertEventStatement event] fault db

variable {crates : Crates} {event : Event} {fault : Option Nat} {db db' : Database}

theorem insertEventStatement_ok : insertEventStatement event db = .ok db' ↔
    (∀ row ∈ db.events, row.clashes event = false) ∧ db' = { db with events := db.events ++ [event] } := by
  unfold insertEventStatement
  cases hinsert : insertRow Event.clashes StorageError.duplicateEvent db.events event with
  | error e =>
    refine ⟨fun h => (nomatch h), fun h => ?_⟩
    exact nomatch hinsert.symm.trans (insertRow_eq_ok.mpr ⟨h.1, rfl⟩)
  | ok events =>
    obtain ⟨hclash, rfl⟩ := insertRow_eq_ok.mp hinsert
    exact ⟨fun h => ⟨hclash, (Except.ok.inj h).symm⟩, fun h => congrArg _ h.2.symm⟩

theorem statements_eq_ok : [upsertAdapterStatement event, insertEventStatement event].foldlM (fun db f => f db) db = .ok db' ↔
    Database.insertEvent event db = .ok ((), db') := by
  rw [insertEvent_ok, List.foldlM_cons]
  constructor
  · intro h
    obtain ⟨mid, hmid, hrest⟩ := bind_eq_ok.mp h
    obtain rfl := Except.ok.inj hmid
    obtain ⟨last, hlast, hdone⟩ := bind_eq_ok.mp hrest
    obtain rfl := Except.ok.inj hdone
    exact insertEventStatement_ok.mp hlast
  · intro h
    exact bind_eq_ok.mpr ⟨_, rfl, bind_eq_ok.mpr ⟨_, insertEventStatement_ok.mpr h, rfl⟩⟩

theorem insertEventCall_cases {r : Except StorageError Unit} (h : insertEventCall crates event fault db = (r, db')) :
    (r = .ok () ∧ Database.insertEvent event db = .ok ((), db')) ∨ ((∀ u, r ≠ .ok u) ∧ db' = db) := by
  unfold insertEventCall at h
  split at h
  · obtain ⟨rfl, rfl⟩ := Prod.mk.inj h
    exact .inr ⟨fun _ heq => (nomatch heq), rfl⟩
  · split_ifs at h
    · obtain ⟨rfl, rfl⟩ := Prod.mk.inj h
      exact .inr ⟨fun _ heq => (nomatch heq), rfl⟩
    · obtain ⟨rfl, rfl⟩ := Prod.mk.inj h
      exact .inr ⟨fun _ heq => (nomatch heq), rfl⟩
    · cases r with
      | ok u => exact .inl ⟨rfl, statements_eq_ok.mp (transact_ok h)⟩
      | error e => exact .inr ⟨fun _ heq => (nomatch heq), transact_error h⟩

/-- Without a fault a call on a valid event is the operation of the storage layer. -/
theorem insertEventCall_eq (hvalid : event.validate = .ok ()) :
    insertEventCall crates event none db =
      ((insertEvent crates event ⟨db, none⟩).1, (insertEvent crates event ⟨db, none⟩).2.db) := by
  unfold insertEventCall insertEvent
  rw [hvalid]
  dsimp only
  split_ifs
  · rfl
  · rfl
  · rw [statement, Command.statement_no_fault]
    simp only [transact, workOn, Option.map_none, upsertAdapterStatement, insertEventStatement, Database.insertEvent]
    cases hinsert : insertRow Event.clashes StorageError.duplicateEvent db.events event with
    | error e => simp [hinsert, bind, Except.bind, Except.map]
    | ok events => simp [hinsert, bind, Except.bind, Except.map]

/-! ## Runs -/

def insertEventStep (crates : Crates) (db : Database) (call : Event × Option Nat) : Option Database :=
  some (insertEventCall crates call.1 call.2 db).2

def eventsOf (instanceId : Uuid) (events : List Event) : List Event := events.filter (·.adapter.instanceId == instanceId)

theorem eventsOf_snoc_self {instanceId : Uuid} {events : List Event} (h : event.adapter.instanceId = instanceId) :
    eventsOf instanceId (events ++ [event]) = eventsOf instanceId events ++ [event] := by
  simp [eventsOf, h]

theorem eventsOf_snoc_other {instanceId : Uuid} {events : List Event} (h : event.adapter.instanceId ≠ instanceId) :
    eventsOf instanceId (events ++ [event]) = eventsOf instanceId events := by
  simp [eventsOf, h]

/-- A row of the adapters table says of its instance what the events say. -/
structure AdapterRow.Summarises (row : AdapterRow) (events : List Event) : Prop where
  bound : ∀ event ∈ eventsOf row.instanceId events, event.adapter.sequenceNo ≤ row.lastSequenceNo
  reached : ∃ event ∈ eventsOf row.instanceId events, event.adapter.sequenceNo = row.lastSequenceNo
  recent : ∃ event, (eventsOf row.instanceId events).getLast? = some event ∧ row.adapterId = event.adapter.id ∧
    row.adapterVersion = event.adapter.version

structure Database.MatchesLog (db : Database) : Prop where
  present : ∀ instanceId, (∃ row ∈ db.adapters, row.instanceId = instanceId) ↔
    ∃ event ∈ db.events, event.adapter.instanceId = instanceId
  single : Keyed AdapterRow.instanceId db.adapters
  summary : ∀ row ∈ db.adapters, row.Summarises db.events

namespace AdapterRow.Summarises
variable {row : AdapterRow} {events : List Event}

theorem other (h : row.Summarises events) (hother : event.adapter.instanceId ≠ row.instanceId) :
    row.Summarises (events ++ [event]) := by
  have hsame : eventsOf row.instanceId (events ++ [event]) = eventsOf row.instanceId events := eventsOf_snoc_other hother
  refine ⟨?_, ?_, ?_⟩
  · rw [hsame]
    exact h.bound
  · rw [hsame]
    exact h.reached
  · rw [hsame]
    exact h.recent

theorem fresh (hnone : eventsOf event.adapter.instanceId events = []) : (adapterRow event).Summarises (events ++ [event]) := by
  have hone : eventsOf (adapterRow event).instanceId (events ++ [event]) = [event] := by
    show eventsOf event.adapter.instanceId (events ++ [event]) = [event]
    rw [eventsOf_snoc_self rfl, hnone, List.nil_append]
  refine ⟨?_, ?_, ?_⟩
  · rw [hone]
    intro other hother
    obtain rfl := List.mem_singleton.mp hother
    exact le_rfl
  · rw [hone]
    exact ⟨event, List.mem_singleton_self event, rfl⟩
  · rw [hone]
    exact ⟨event, rfl, rfl, rfl⟩

end AdapterRow.Summarises

/-! ## The upsert -/

def AdapterRow.count (event : Event) (row : AdapterRow) : AdapterRow :=
  { row with
    adapterId := event.adapter.id
    adapterVersion := event.adapter.version
    lastSequenceNo := max row.lastSequenceNo event.adapter.sequenceNo
    updatedAt := event.receivedAt }

theorem upsertAdapter_known {rows : List AdapterRow} (h : rows.any (·.instanceId == event.adapter.instanceId) = true) :
    upsertAdapter event rows = updateRows (·.instanceId == event.adapter.instanceId) (·.count event) rows := if_pos h

theorem upsertAdapter_new {rows : List AdapterRow} (h : ¬ rows.any (·.instanceId == event.adapter.instanceId) = true) :
    upsertAdapter event rows = rows ++ [adapterRow event] := if_neg h

theorem AdapterRow.Summarises.count {row : AdapterRow} {events : List Event} (h : row.Summarises events)
    (hself : event.adapter.instanceId = row.instanceId) : (row.count event).Summarises (events ++ [event]) := by
  have hsnoc : eventsOf (row.count event).instanceId (events ++ [event]) = eventsOf row.instanceId events ++ [event] :=
    eventsOf_snoc_self hself
  refine ⟨?_, ?_, ?_⟩
  · rw [hsnoc]
    intro other hother
    rcases List.mem_append.mp hother with hother | hother
    · exact (h.bound other hother).trans (le_max_left _ _)
    · obtain rfl := List.mem_singleton.mp hother
      exact le_max_right _ _
  · rw [hsnoc]
    obtain ⟨highest, hmem, hreached⟩ := h.reached
    rcases Nat.le_total event.adapter.sequenceNo row.lastSequenceNo with hle | hle
    · exact ⟨highest, List.mem_append_left _ hmem, hreached.trans (max_eq_left hle).symm⟩
    · exact ⟨event, List.mem_append_right _ (List.mem_singleton_self event), (max_eq_right hle).symm⟩
  · rw [hsnoc]
    exact ⟨event, List.getLast?_concat, rfl, rfl⟩

namespace Database.MatchesLog

theorem count (h : db.MatchesLog) (hany : db.adapters.any (·.instanceId == event.adapter.instanceId) = true)
    (hstore : db' = { db with adapters := upsertAdapter event db.adapters, events := db.events ++ [event] }) :
    db'.MatchesLog := by
  rw [upsertAdapter_known hany] at hstore
  subst hstore
  have hkept : ∀ instanceId, (∃ row ∈ updateRows (·.instanceId == event.adapter.instanceId) (·.count event) db.adapters,
      row.instanceId = instanceId) ↔ ∃ row ∈ db.adapters, row.instanceId = instanceId := by
    intro instanceId
    have hids : (updateRows (·.instanceId == event.adapter.instanceId) (·.count event) db.adapters).map AdapterRow.instanceId =
        db.adapters.map AdapterRow.instanceId := map_updateRows fun _ => rfl
    have hmem : instanceId ∈ List.map AdapterRow.instanceId _ ↔ _ := iff_of_eq (congrArg (instanceId ∈ ·) hids)
    exact List.mem_map.symm.trans (hmem.trans List.mem_map)
  refine ⟨?_, h.single.update fun _ => rfl, ?_⟩
  · intro instanceId
    rw [hkept instanceId, h.present instanceId]
    constructor
    · rintro ⟨other, hother, hid⟩
      exact ⟨other, List.mem_append_left _ hother, hid⟩
    · rintro ⟨other, hother, rfl⟩
      rcases List.mem_append.mp hother with hother | hother
      · exact ⟨other, hother, rfl⟩
      · obtain rfl := List.mem_singleton.mp hother
        obtain ⟨row, hrow, hid⟩ := List.any_eq_true.mp hany
        exact (h.present _).mp ⟨row, hrow, beq_iff_eq.mp hid⟩
  · intro row hrow
    obtain ⟨before, hbefore, rfl⟩ := mem_updateRows.mp hrow
    split_ifs with hself
    · exact (h.summary before hbefore).count (beq_iff_eq.mp hself).symm
    · exact (h.summary before hbefore).other fun heq => hself (beq_iff_eq.mpr heq.symm)

theorem add (h : db.MatchesLog) (hany : ¬ db.adapters.any (·.instanceId == event.adapter.instanceId) = true)
    (hstore : db' = { db with adapters := upsertAdapter event db.adapters, events := db.events ++ [event] }) :
    db'.MatchesLog := by
  rw [upsertAdapter_new hany] at hstore
  subst hstore
  have hnew : ∀ row ∈ db.adapters, row.instanceId ≠ event.adapter.instanceId := by
    intro row hrow heq
    exact hany (List.any_eq_true.mpr ⟨row, hrow, beq_iff_eq.mpr heq⟩)
  have hnone : eventsOf event.adapter.instanceId db.events = [] := by
    apply List.filter_eq_nil_iff.mpr
    intro other hother heq
    obtain ⟨row, hrow, hid⟩ := (h.present event.adapter.instanceId).mpr ⟨other, hother, beq_iff_eq.mp heq⟩
    exact hnew row hrow hid
  refine ⟨?_, h.single.insert hnew, ?_⟩
  · intro instanceId
    simp only [List.mem_append, List.mem_singleton, or_and_right, exists_or, exists_eq_left]
    exact or_congr (h.present instanceId) Iff.rfl
  · intro row hrow
    rcases List.mem_append.mp hrow with hrow | hrow
    · exact (h.summary row hrow).other (hnew row hrow).symm
    · obtain rfl := List.mem_singleton.mp hrow
      exact .fresh hnone

theorem store (h : db.MatchesLog) (hstore : Database.insertEvent event db = .ok ((), db')) : db'.MatchesLog := by
  obtain ⟨-, hdb⟩ := insertEvent_ok.mp hstore
  by_cases hany : db.adapters.any (·.instanceId == event.adapter.instanceId) = true
  · exact h.count hany hdb
  · exact h.add hany hdb

end Database.MatchesLog

/-! ## Every run -/

def Database.unlogged (db : Database) : Database := { db with adapters := [], events := [] }

theorem adapters_match_log {db₀ : Database} (h : Reaches (insertEventStep crates) db₀.unlogged Anyhow db) :
    db.MatchesLog ∧ ∀ event fault r db', insertEventCall crates event fault db = (r, db') →
      (r = .ok () ∧ db'.events = db.events ++ [event]) ∨ ((∀ u, r ≠ .ok u) ∧ db' = db) := by
  constructor
  · apply h.invariant
    · refine ⟨?_, keyed_nil, fun _ hmem => nomatch hmem⟩
      exact fun _ => ⟨fun ⟨_, hmem, _⟩ => (nomatch hmem), fun ⟨_, hmem, _⟩ => nomatch hmem⟩
    · rintro s ⟨event, fault⟩ s' hs - hstep
      obtain rfl := Option.some.inj hstep
      have hcall : insertEventCall crates event fault s = ((insertEventCall crates event fault s).1, (insertEventCall crates event fault s).2) := rfl
      rcases insertEventCall_cases hcall with ⟨-, hstore⟩ | ⟨-, hsame⟩
      · exact hs.store hstore
      · exact hsame.symm ▸ hs
  · intro event fault r db' hcall
    rcases insertEventCall_cases hcall with ⟨hok, hstore⟩ | hsame
    · obtain ⟨-, rfl⟩ := insertEvent_ok.mp hstore
      exact .inl ⟨hok, rfl⟩
    · exact .inr hsame

namespace Sample

def timed : Crates where
  canonicalJson _ := none
  parseDefinition _ := none
  sha256Hex _ := ""
  parseUrl _ := none
  urlToString url := url.path
  formatRfc3339? _ := some "1970-01-01T00:00:00Z"

def recorded (instanceId id sequenceNo : Nat) (version : String) : Event where
  id := id
  specVersion := eventSpecVersion
  eventType := .syntheticV1
  source := "test"
  occurredAt := ⟨0, 0⟩
  receivedAt := ⟨0, 0⟩
  actor := .user
  adapter := ⟨"a", version, instanceId, sequenceNo⟩
  context := none
  privacy := .normal
  data := .synthetic "l" 0

end Sample

/-- A number out of order, a duplicate, and a call that is lost at its commit. -/
theorem adapters_match_log_duplicate : ∃ db, Reaches (insertEventStep Sample.timed) Database.empty.unlogged Anyhow db ∧
    db.adapters.map (fun row => (row.lastSequenceNo, row.adapterVersion)) = [(5, "2")] ∧ db.MatchesLog := by
  have hrun : (exec (insertEventStep Sample.timed) Database.empty.unlogged
      [(Sample.recorded 1 1 5 "1", none), (Sample.recorded 1 2 3 "2", none), (Sample.recorded 1 3 3 "3", none),
        (Sample.recorded 1 4 6 "4", some 2)]).map (fun db => db.adapters.map fun row => (row.lastSequenceNo, row.adapterVersion)) =
      some [(5, "2")] := by
    decide +kernel
  obtain ⟨db, hdb, hrows⟩ := Option.map_eq_some_iff.mp hrun
  have hr := Reaches.init.exec hdb
  exact ⟨db, hr, hrows, (adapters_match_log hr).1⟩

end Fubun

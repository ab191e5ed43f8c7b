import Fubun.Encoding.Value
import Fubun.Relational.Rollback
import Fubun.Schemas

/-! The migrations of the database, from the first schema on. The last one tags the payloads of the events
that were stored before events had a kind, and no other row is touched. -/

namespace Fubun
open Encoding Extensions Relational

/-! ## Texts and values -/

/-- The parser of `serde_json`: the entries of an object as the text has them. -/
structure SerdeJson where
  parse : String → Option Json

def textOf (v : Json) : String := .ofList v.render

/-- `from_str` into a type. -/
def SerdeJson.read (J : SerdeJson) (s : Schema) (text : String) : Option Json := (J.parse text).bind s.decode

/-- `from_str` into a `Value`. -/
def SerdeJson.value (J : SerdeJson) (text : String) : Option Json := (J.parse text).map Json.value

/-! ## The database before it has its schema -/

inductive MigrationError where
  | sqlite
  | json
  | unsupportedSchema (version : Nat)

/-- The columns of the table `events`. -/
structure EventRow where
  id : String
  specVersion : String
  eventType : String
  source : String
  occurredAt : String
  receivedAt : String
  actor : String
  adapterId : String
  adapterVersion : String
  adapterInstanceId : String
  sequenceNo : Int
  contextJson : Option String
  privacy : String
  dataJson : String
  canonicalJson : String
deriving DecidableEq

/-- The table `events`, by its primary key. -/
structure EventTable where
  rows : List EventRow
  keyed : Keyed (·.id) rows

def EventTable.empty : EventTable := ⟨[], List.nodup_nil⟩

/-- `UPDATE events SET data_json, canonical_json WHERE id`. -/
def EventTable.setPayload (table : EventTable) (id dataJson canonicalJson : String) : EventTable where
  rows := updateRows (·.id == id) (fun row => { row with dataJson, canonicalJson }) table.rows
  keyed := table.keyed.update fun _ => rfl

/-- What the migrations look at: the versions that were applied, the tables and indexes that there are, the columns
that were added to one, and the events. -/
structure MigrationDb where
  migrations : List (Nat × String)
  objects : List String
  columns : List (String × String)
  events : Option EventTable

abbrev Migration := MigrationDb → Except MigrationError MigrationDb

def MigrationDb.version (db : MigrationDb) : Nat := (db.migrations.map (·.1)).foldl max 0

def schemaVersion : Nat := 4

/-- `CREATE TABLE` and `CREATE INDEX`. -/
def create (names : List String) : Migration := fun db =>
  if names.any (db.objects.contains ·) then .error .sqlite else .ok { db with objects := db.objects ++ names }

def createEvents : Migration := fun db =>
  match db.events with
  | some _ => .error .sqlite
  | none => .ok { db with events := some .empty }

/-- `ALTER TABLE ... ADD COLUMN`. -/
def addColumn (table column : String) : Migration := fun db =>
  if ! db.objects.contains table || db.columns.contains (table, column) then .error .sqlite
  else .ok { db with columns := db.columns ++ [(table, column)] }

def recordVersion (version : Nat) (appliedAt : String) : Migration := fun db =>
  if db.migrations.any (·.1 = version) then .error .sqlite
  else .ok { db with migrations := db.migrations ++ [(version, appliedAt)] }

/-! ## The payloads -/

def syntheticEventType : String := "dev.fubun.dev.synthetic.v1"

/-- A payload from before the tag. -/
def isUntagged (object : List (String × Json)) : Bool :=
  ! hasKey "kind" object && hasKey "label" object && hasKey "counter" object

def tagged (object : List (String × Json)) : Json := .object (insertEntry "kind" (.string "synthetic") object)

/-- The two columns of a row with the tag, if it is one from before. -/
def taggedPayloads : Json → Json → Option (Json × Json)
  | .object dataObject, .object canonical =>
    if isUntagged dataObject then
      match Json.field? "data" (.object canonical) with
      | some (.object canonicalData) =>
        if isUntagged canonicalData then
          some (tagged dataObject, .object (insertEntry "data" (tagged canonicalData) canonical))
        else none
      | _ => none
    else none
  | _, _ => none

section Payloads
variable (J : SerdeJson)

def migratePayload (table : EventTable) (row : EventRow) : Except MigrationError EventTable :=
  match J.value row.dataJson, J.value row.canonicalJson with
  | some data, some canonical =>
    match taggedPayloads data canonical with
    | some (data, canonical) => .ok (table.setPayload row.id (textOf data) (textOf canonical))
    | none => .ok table
  | _, _ => .error .json

def migrateLegacyEventPayloads (table : EventTable) : Except MigrationError EventTable :=
  (table.rows.filter (·.eventType == syntheticEventType)).foldlM (migratePayload J) table

/-- The same in the transaction; there may be no table of events. -/
def migratePayloads : Migration := fun db =>
  match db.events with
  | none => .ok db
  | some table => (migrateLegacyEventPayloads J table).map fun table => { db with events := some table }

/-! ## The versions -/

def migrationsFrom : Nat → List Migration
  | 0 => [create ["adapters", "settings"], createEvents, create ["events_received_at_idx"]]
  | 1 => [create ["resources", "rituals", "ritual_versions", "ritual_approvals", "executions", "execution_steps",
      "ritual_execution_locks", "ritual_versions_ritual_idx", "executions_created_idx", "execution_steps_execution_idx"]]
  | 2 => [addColumn "execution_steps" "adapter_instance_id"]
  | 3 => [create ["observation_scopes", "observation_scopes_source_idx"], migratePayloads J]
  | _ => []

/-- The transaction of a version, for a database that stands at it. -/
def upgrade (now : Nat → String) (faults : Nat → Option Nat) (version : Nat) (db : MigrationDb) :
    Except MigrationError Unit × MigrationDb :=
  if db.version = version then
    transact .sqlite (migrationsFrom J version ++ [recordVersion (version + 1) (now version)]) (faults version) db
  else (.ok (), db)

/-- One version after the other, until one fails. -/
def upgrades (now : Nat → String) (faults : Nat → Option Nat) : List Nat → MigrationDb → Except MigrationError Unit × MigrationDb
  | [], db => (.ok (), db)
  | version :: versions, db =>
    match upgrade J now faults version db with
    | (.ok (), db) => upgrades now faults versions db
    | (.error e, db) => (.error e, db)

/-- `migrate`; the clock says `now` at each version, and a statement of each may be lost. -/
def migrate (now : Nat → String) (faults : Nat → Option Nat) (db : MigrationDb) : Except MigrationError Unit × MigrationDb :=
  if schemaVersion < db.version then (.error (.unsupportedSchema db.version), db) else upgrades J now faults [0, 1, 2, 3] db

end Payloads

/-! ## Events before and after -/

def SyntheticEventData.fields : List (String × Presence × Schema) :=
  [("label", .required, textSchema), ("counter", .required, .integer (-2 ^ 63) (2 ^ 63 - 1))]

def SyntheticEventData.schema : Schema := denying SyntheticEventData.fields

def legacyEventSchema (D : Decoders) : Schema :=
  denying ((Event.fields D).dropLast ++ [("data", .required, SyntheticEventData.schema)])

def legacyData (label : String) (counter : Int) : Json := .object [("label", .string label), ("counter", .number counter)]

/-- `EventData::Synthetic`. -/
def syntheticData (label : String) (counter : Int) : Json :=
  .object [("kind", .string "synthetic"), ("label", .string label), ("counter", .number counter)]

section Events
variable (J : SerdeJson) (D : Decoders)

/-- A row from before the tag: the fields of the event beside its data are `others`. -/
structure Legacy (row : EventRow) (label : String) (counter : Int) (others : List (String × Json)) : Prop where
  type : row.eventType = syntheticEventType
  data : ∃ object, J.parse row.dataJson = some (.object object) ∧
    SyntheticEventData.schema.decode (.object object) = some (legacyData label counter)
  canonical : ∃ event object, J.parse row.canonicalJson = some (.object event) ∧
    valuesAt "data" event = [.object object] ∧
    (legacyEventSchema D).decode (.object event) = some (.object (others ++ [("data", legacyData label counter)]))

def Tagged (row : EventRow) : Prop := ∃ object, J.value row.dataJson = some (.object object) ∧ hasKey "kind" object = true

/-- `serde_json` reads back the payloads that the migration writes of a row. -/
def Rereads (row : EventRow) : Prop :=
  ∀ data canonical data' canonical', J.value row.dataJson = some data → J.value row.canonicalJson = some canonical →
    taggedPayloads data canonical = some (data', canonical') →
    J.parse (textOf data') = some data' ∧ J.parse (textOf canonical') = some canonical'

/-- The row with the same columns but for the payload, which has the tag now. -/
structure Normalized (row row' : EventRow) (label : String) (counter : Int) (others : List (String × Json)) : Prop where
  columns : row' = { row with dataJson := row'.dataJson, canonicalJson := row'.canonicalJson }
  canonical : J.read (Event.schema D) row'.canonicalJson = some (.object (others ++ [("data", syntheticData label counter)]))
  data : J.read (EventData.schema D) row'.dataJson = some (syntheticData label counter)

end Events

section Payload
variable {J : SerdeJson} {D : Decoders} {row : EventRow} {label : String} {counter : Int} {others object event : List (String × Json)}
  {d : Json}

theorem untagged_of_synthetic (h : SyntheticEventData.schema.decode (.object object) = some d) :
    isUntagged (valueFields [] object) = true := by
  have hcollapsed := collapsed_valueFields object
  obtain ⟨read, hread, -⟩ := Option.map_eq_some_iff.mp h
  have hread' : (Fields.ofList SyntheticEventData.fields).decode true object = some read := hread
  have hkind : valuesAt "kind" object = [] := Fields.valuesAt_unknown _ _ read hread' (by decide)
  have hhas : ∀ f ∈ SyntheticEventData.fields, f.2.1 = .required → hasKey f.1 (valueFields [] object) = true := by
    intro f hf hrequired
    obtain ⟨x, hx⟩ := Fields.valuesAt_required _ _ read hread' f hf hrequired
    rw [hasKey_iff, hcollapsed.single f.1 x hx]
    exact nofun
  have hnone : hasKey "kind" (valueFields [] object) = false := hasKey_eq_false_iff.mpr (hcollapsed.nil _ hkind)
  have hlabel : hasKey "label" (valueFields [] object) = true := hhas _ List.mem_cons_self rfl
  have hcounter : hasKey "counter" (valueFields [] object) = true :=
    hhas _ (List.mem_cons_of_mem _ List.mem_cons_self) rfl
  rw [isUntagged, hnone, hlabel, hcounter]
  rfl

theorem decode_tagged (h : SyntheticEventData.schema.decode (.object object) = some (legacyData label counter)) :
    (EventData.schema D).decode (tagged (valueFields [] object)) = some (syntheticData label counter) := by
  obtain ⟨read, hread, heq⟩ := Option.map_eq_some_iff.mp h
  obtain rfl := Json.object.inj heq
  have hread' : (Fields.ofList SyntheticEventData.fields).decode true object =
    some [("label", .string label), ("counter", .number counter)] := hread
  exact Schema.decode_tag hread' (by decide) rfl

theorem event_fields_ne_data (D : Decoders) : ∀ f ∈ (Event.fields D).dropLast, f.1 ≠ "data" := by
  have hall : (Event.fields D).dropLast.all (fun f => f.1 != "data") = true := rfl
  exact fun f hf => bne_iff_ne.mp (List.all_eq_true.mp hall f hf)

theorem decode_canonical {canonicalData : List (String × Json)} (hdata : valuesAt "data" event = [.object canonicalData])
    (h : (legacyEventSchema D).decode (.object event) = some (.object (others ++ [("data", legacyData label counter)]))) :
    SyntheticEventData.schema.decode (.object canonicalData) = some (legacyData label counter) ∧
      (Event.schema D).decode (.object (insertEntry "data" (tagged (valueFields [] canonicalData)) (valueFields [] event))) =
        some (.object (others ++ [("data", syntheticData label counter)])) := by
  obtain ⟨read, hread, heq⟩ := Option.map_eq_some_iff.mp h
  obtain rfl := Json.object.inj heq
  have hchanged : Changed "data" (.object canonicalData) (tagged (valueFields [] canonicalData)) event
      (insertEntry "data" (tagged (valueFields [] canonicalData)) (valueFields [] event)) := changed_insertEntry hdata
  obtain ⟨others', d, hd, hothers, hdecoded⟩ := Fields.decode_changed _ _ _ _ (event_fields_ne_data D) hchanged hread
  obtain ⟨rfl, hlast⟩ := List.append_inj' hothers rfl
  obtain rfl : d = legacyData label counter := (congrArg Prod.snd (List.cons.inj hlast).1).symm
  exact ⟨hd, congrArg (Option.map Json.object) (hdecoded _ _ (decode_tagged hd))⟩

/-- An event that is valid but for the tag of its data makes a row from before. -/
theorem Legacy.of_decodes {canonicalData : List (String × Json)} (htype : row.eventType = syntheticEventType)
    (hparse : J.parse row.dataJson = some (.object object))
    (hobject : SyntheticEventData.schema.decode (.object object) = some (legacyData label counter))
    (hevent : J.parse row.canonicalJson = some (.object event)) (hdata : valuesAt "data" event = [.object canonicalData])
    (hcanonicalData : SyntheticEventData.schema.decode (.object canonicalData) = some (legacyData label counter))
    (hdecodes : (legacyEventSchema D).decode (.object event) = some d) : ∃ others, Legacy J D row label counter others := by
  obtain ⟨read, hread, rfl⟩ := Option.map_eq_some_iff.mp hdecodes
  have hchanged : Changed "data" (.object canonicalData) (.object []) event
      (insertEntry "data" (.object []) (valueFields [] event)) := changed_insertEntry hdata
  obtain ⟨others, data, hd, rfl, -⟩ := Fields.decode_changed _ _ _ _ (event_fields_ne_data D) hchanged hread
  obtain rfl := Option.some.inj (hd.symm.trans hcanonicalData)
  exact ⟨others, htype, ⟨object, hparse, hobject⟩, event, canonicalData, hevent, hdata, hdecodes⟩

theorem taggedPayloads_of_kind {object : List (String × Json)} (h : hasKey "kind" object = true) (canonical : Json) :
    taggedPayloads (.object object) canonical = none := by
  have hold : isUntagged object = false := by rw [isUntagged, h]; rfl
  cases canonical with
  | object => rw [taggedPayloads, if_neg (by rw [hold]; exact Bool.false_ne_true)]
  | _ => rfl

theorem taggedPayloads_of_untagged {canonicalData : List (String × Json)} (hobject : isUntagged (valueFields [] object) = true)
    (hdata : valuesAt "data" event = [.object canonicalData]) (hcanonical : isUntagged (valueFields [] canonicalData) = true) :
    taggedPayloads (.object (valueFields [] object)) (.object (valueFields [] event)) =
      some (tagged (valueFields [] object),
        .object (insertEntry "data" (tagged (valueFields [] canonicalData)) (valueFields [] event))) := by
  have hfield : Json.field? "data" (.object (valueFields [] event)) = some (.object (valueFields [] canonicalData)) := by
    rw [field?_object, (collapsed_valueFields event).single "data" _ hdata, Json.value]
    rfl
  rw [taggedPayloads, if_pos hobject, hfield]
  exact if_pos hcanonical

def Migrates (J : SerdeJson) (row row' : EventRow) : Prop :=
  ∃ data canonical, J.value row.dataJson = some data ∧ J.value row.canonicalJson = some canonical ∧
    ((taggedPayloads data canonical = none ∧ row' = row) ∨ ∃ data' canonical',
      taggedPayloads data canonical = some (data', canonical') ∧
      row' = { row with dataJson := textOf data', canonicalJson := textOf canonical' })

theorem Tagged.eq {row' : EventRow} (h : Tagged J row) (hrow : Migrates J row row') : row' = row := by
  obtain ⟨object, hobject, hkind⟩ := h
  obtain ⟨data, canonical, hdata, -, ⟨-, rfl⟩ | ⟨data', canonical', htagged, -⟩⟩ := hrow
  · rfl
  · obtain rfl := Option.some.inj (hobject.symm.trans hdata)
    rw [taggedPayloads_of_kind hkind] at htagged
    exact nomatch htagged

theorem Legacy.normalized {row' : EventRow} (h : Legacy J D row label counter others) (hreads : Rereads J row)
    (hrow : Migrates J row row') : Normalized J D row row' label counter others := by
  obtain ⟨object, hparse, hobject⟩ := h.data
  obtain ⟨event, canonicalData, hevent, hdata, hcanonical⟩ := h.canonical
  obtain ⟨hcanonicalData, hdecoded⟩ := decode_canonical hdata hcanonical
  have hvalue : J.value row.dataJson = some (.object (valueFields [] object)) := by
    rw [SerdeJson.value, hparse, Option.map_some, Json.value]
  have hvalueEvent : J.value row.canonicalJson = some (.object (valueFields [] event)) := by
    rw [SerdeJson.value, hevent, Option.map_some, Json.value]
  have htagged := taggedPayloads_of_untagged (untagged_of_synthetic hobject) hdata (untagged_of_synthetic hcanonicalData)
  obtain ⟨data, canonical, hdata', hcanonical', hrow⟩ := hrow
  obtain rfl := Option.some.inj (hvalue.symm.trans hdata')
  obtain rfl := Option.some.inj (hvalueEvent.symm.trans hcanonical')
  obtain ⟨hdataText, hcanonicalText⟩ := hreads _ _ _ _ hvalue hvalueEvent htagged
  rcases hrow with ⟨hnone, -⟩ | ⟨data', canonical', hsome, rfl⟩
  · rw [hnone] at htagged
    exact nomatch htagged
  · obtain ⟨rfl, rfl⟩ := Prod.mk.inj (Option.some.inj (htagged.symm.trans hsome))
    refine ⟨rfl, ?_, ?_⟩
    · rw [SerdeJson.read, hcanonicalText]
      exact hdecoded
    · rw [SerdeJson.read, hdataText]
      exact decode_tagged hobject

theorem migratePayload_of_none {table : EventTable} {data canonical : Json} (hdata : J.value row.dataJson = some data)
    (hcanonical : J.value row.canonicalJson = some canonical) (hnone : taggedPayloads data canonical = none) :
    migratePayload J table row = .ok table := by
  simp only [migratePayload, hdata, hcanonical, hnone]

theorem Migrates.settled {row' : EventRow} (h : Migrates J row row') (hreads : Rereads J row) (table : EventTable) :
    migratePayload J table row' = .ok table := by
  suffices hsettled : ∃ data canonical, J.value row'.dataJson = some data ∧ J.value row'.canonicalJson = some canonical ∧
      taggedPayloads data canonical = none by
    obtain ⟨data, canonical, hdata, hcanonical, hnone⟩ := hsettled
    exact migratePayload_of_none hdata hcanonical hnone
  obtain ⟨data, canonical, hdata, hcanonical, ⟨hnone, rfl⟩ | ⟨data', canonical', hsome, rfl⟩⟩ := h
  · exact ⟨data, canonical, hdata, hcanonical, hnone⟩
  · obtain ⟨hdataText, hcanonicalText⟩ := hreads _ _ _ _ hdata hcanonical hsome
    -- a rewritten payload has been tagged
    have htag : ∃ object, data' = tagged object := by
      unfold taggedPayloads at hsome
      split at hsome
      · split_ifs at hsome
        split at hsome
        · split_ifs at hsome
          exact ⟨_, (Prod.mk.inj (Option.some.inj hsome)).1.symm⟩
        · exact nomatch hsome
      · exact nomatch hsome
    obtain ⟨object, rfl⟩ := htag
    -- so the second pass finds its kind
    have hkind : hasKey "kind" (valueFields [] (insertEntry "kind" (.string "synthetic") object)) = true := by
      rw [hasKey_iff, valuesAt_valueFields valuesAt_insertEntry_self]
      exact nofun
    refine ⟨(tagged object).value, canonical'.value, ?_, ?_, ?_⟩
    · show (J.parse (textOf (tagged object))).map Json.value = _
      rw [hdataText]
      rfl
    · show (J.parse (textOf canonical')).map Json.value = _
      rw [hcanonicalText]
      rfl
    · rw [tagged, Json.value]
      exact taggedPayloads_of_kind hkind _

theorem Migrates.keeps {row' : EventRow} (h : Migrates J row row') : row'.id = row.id ∧ row'.eventType = row.eventType := by
  obtain ⟨-, -, -, -, ⟨-, rfl⟩ | ⟨-, -, -, rfl⟩⟩ := h
  · exact ⟨rfl, rfl⟩
  · exact ⟨rfl, rfl⟩

end Payload

/-! ## All the payloads -/

section Fold
variable {J : SerdeJson} {D : Decoders} {table table' : EventTable} {row : EventRow} {rows : List EventRow}

theorem migratePayload_ok (h : migratePayload J table row = .ok table') (hrow : row ∈ table.rows) :
    ∃ row', Migrates J row row' ∧ table'.rows = table.rows.map fun x => if x.id = row.id then row' else x := by
  unfold migratePayload at h
  split at h
  · rename_i data canonical hdata hcanonical
    split at h
    · rename_i data' canonical' htagged
      refine ⟨_, ⟨data, canonical, hdata, hcanonical, .inr ⟨data', canonical', htagged, rfl⟩⟩, ?_⟩
      rw [← Except.ok.inj h]
      exact table.keyed.update_eq hrow
    · rename_i hnone
      refine ⟨row, ⟨data, canonical, hdata, hcanonical, .inl ⟨hnone, rfl⟩⟩, ?_⟩
      rw [← Except.ok.inj h]
      have hsame : updateRows (·.id == row.id) id table.rows = table.rows := (List.map_congr_left fun x _ => ite_self x).trans
        (List.map_id _)
      exact hsame.symm.trans (table.keyed.update_eq hrow)
  · exact nomatch h

theorem migratePayload_of {data canonical data' canonical' : Json} (hdata : J.value row.dataJson = some data)
    (hcanonical : J.value row.canonicalJson = some canonical)
    (htagged : taggedPayloads data canonical = some (data', canonical')) :
    migratePayload J table row = .ok (table.setPayload row.id (textOf data') (textOf canonical')) := by
  simp only [migratePayload, hdata, hcanonical, htagged]

/-- Each of the selected rows gets its own payload, whatever was written of the others before; the rest stay. -/
theorem foldlM_migratePayload (h : rows.foldlM (migratePayload J) table = .ok table') (hsub : ∀ row ∈ rows, row ∈ table.rows)
    (hkeyed : Keyed (·.id) rows) : ∃ g : EventRow → EventRow, table'.rows = table.rows.map g ∧
      ∀ x ∈ table.rows, (x ∈ rows → Migrates J x (g x)) ∧ (x ∉ rows → g x = x) := by
  induction rows generalizing table with
  | nil =>
    obtain rfl := Except.ok.inj h
    exact ⟨id, (List.map_id _).symm, fun x _ => ⟨fun hx => (nomatch hx), fun _ => rfl⟩⟩
  | cons row rows ih =>
    rw [List.foldlM_cons] at h
    obtain ⟨mid, hmid, hrest⟩ := bind_eq_ok.mp h
    have hrow : row ∈ table.rows := hsub row List.mem_cons_self
    obtain ⟨row', hmigrates, hrows⟩ := migratePayload_ok hmid hrow
    obtain ⟨hfresh, hkeyed⟩ := List.nodup_cons.mp hkeyed
    have hne : ∀ x ∈ rows, x.id ≠ row.id := fun x hx heq => hfresh (List.mem_map.mpr ⟨x, hx, heq⟩)
    have hkept : ∀ x ∈ rows, x ∈ mid.rows := by
      intro x hx
      rw [hrows, List.mem_map]
      exact ⟨x, hsub x (List.mem_cons_of_mem _ hx), if_neg (hne x hx)⟩
    obtain ⟨g, hg, hrest⟩ := ih hrest hkept hkeyed
    refine ⟨_, by rw [hg, hrows, List.map_map], fun x hx => ?_⟩
    have hx' : (if x.id = row.id then row' else x) ∈ mid.rows := hrows ▸ List.mem_map_of_mem hx
    show (x ∈ row :: rows → Migrates J x (g (if x.id = row.id then row' else x))) ∧
      (x ∉ row :: rows → g (if x.id = row.id then row' else x) = x)
    split_ifs at hx' ⊢ with hid
    · -- the row that was written has the id of the head, so nothing behind the head writes it again
      obtain rfl := table.keyed.eq hx hrow hid
      have hbehind : row' ∉ rows := fun hmem => hne row' hmem hmigrates.keeps.1
      rw [(hrest row' hx').2 hbehind]
      exact ⟨fun _ => hmigrates, fun hnot => absurd List.mem_cons_self hnot⟩
    · have hxrow : x ≠ row := fun heq => hid (congrArg _ heq)
      obtain ⟨hin, hout⟩ := hrest x hx'
      refine ⟨fun hmem => hin ((List.mem_cons.mp hmem).resolve_left hxrow), fun hnot => hout ?_⟩
      exact fun hmem => hnot (List.mem_cons_of_mem _ hmem)

theorem foldlM_settled (h : ∀ row ∈ rows, migratePayload J table row = .ok table) :
    rows.foldlM (migratePayload J) table = .ok table := by
  induction rows with
  | nil => rfl
  | cons row rows ih =>
    rw [List.foldlM_cons, h row List.mem_cons_self]
    exact ih fun row hrow => h row (List.mem_cons_of_mem _ hrow)

/-- What the migration makes of a row: the rows of other types and those with the tag are as they were, to the byte. -/
structure Kept (J : SerdeJson) (D : Decoders) (row row' : EventRow) : Prop where
  unchanged : row.eventType ≠ syntheticEventType ∨ Tagged J row → row' = row
  normalized : ∀ label counter others, Legacy J D row label counter others → Normalized J D row row' label counter others

theorem migrateLegacyEventPayloads_kept (h : migrateLegacyEventPayloads J table = .ok table')
    (hreads : ∀ row ∈ table.rows, row.eventType = syntheticEventType → Rereads J row) :
    List.Forall₂ (Kept J D) table.rows table'.rows ∧ migrateLegacyEventPayloads J table' = .ok table' := by
  have hsub : ∀ row ∈ table.rows.filter (·.eventType == syntheticEventType), row ∈ table.rows :=
    fun row hrow => (List.mem_filter.mp hrow).1
  obtain ⟨g, hg, hrows⟩ := foldlM_migratePayload h hsub (table.keyed.sublist (List.filter_sublist.map _))
  have hselected : ∀ x ∈ table.rows, x.eventType = syntheticEventType → Migrates J x (g x) :=
    fun x hx htype => (hrows x hx).1 (List.mem_filter.mpr ⟨hx, beq_iff_eq.mpr htype⟩)
  have hother : ∀ x ∈ table.rows, x.eventType ≠ syntheticEventType → g x = x :=
    fun x hx htype => (hrows x hx).2 fun hmem => htype (beq_iff_eq.mp (List.mem_filter.mp hmem).2)
  constructor
  · rw [hg, List.forall₂_map_right_iff, List.forall₂_same]
    intro x hx
    by_cases htype : x.eventType = syntheticEventType
    · have hx' := hselected x hx htype
      refine ⟨fun hkept => (hkept.resolve_left fun hne => hne htype).eq hx', fun label counter others hlegacy => ?_⟩
      exact hlegacy.normalized (hreads x hx htype) hx'
    · exact ⟨fun _ => hother x hx htype, fun label counter others hlegacy => absurd hlegacy.type htype⟩
  · unfold migrateLegacyEventPayloads
    apply foldlM_settled
    intro row' hrow'
    obtain ⟨hmem, htype⟩ := List.mem_filter.mp hrow'
    rw [hg] at hmem
    obtain ⟨x, hx, rfl⟩ := List.mem_map.mp hmem
    by_cases hxtype : x.eventType = syntheticEventType
    · exact (hselected x hx hxtype).settled (hreads x hx hxtype) table'
    · rw [hother x hx hxtype] at htype
      exact absurd (beq_iff_eq.mp htype) hxtype

end Fold

/-! ## From one version to the next -/

section Versions
variable {J : SerdeJson} {D : Decoders} {db db' : MigrationDb} {table : EventTable} {now : Nat → String} {faults : Nat → Option Nat}
  {names : List String} {version : Nat}

theorem create_ok (h : create names db = .ok db') : db'.migrations = db.migrations ∧ db'.events = db.events := by
  unfold create at h
  split_ifs at h
  exact Except.ok.inj h ▸ ⟨rfl, rfl⟩

theorem addColumn_ok {name column : String} (h : addColumn name column db = .ok db') :
    db'.migrations = db.migrations ∧ db'.events = db.events := by
  unfold addColumn at h
  split_ifs at h
  exact Except.ok.inj h ▸ ⟨rfl, rfl⟩

theorem migratePayloads_ok (h : migratePayloads J db = .ok db') (hevents : db.events = some table) :
    db'.migrations = db.migrations ∧
      ∃ table', db'.events = some table' ∧ migrateLegacyEventPayloads J table = .ok table' := by
  rw [migratePayloads, hevents] at h
  cases hrows : migrateLegacyEventPayloads J table with
  | error e => simp only [hrows] at h; exact nomatch h
  | ok table' =>
    simp only [hrows] at h
    exact Except.ok.inj h ▸ ⟨rfl, table', rfl, rfl⟩

theorem recordVersion_ok {appliedAt : String} (h : recordVersion version appliedAt db = .ok db') :
    db'.version = max db.version version ∧ db'.events = db.events := by
  unfold recordVersion at h
  split_ifs at h
  refine Except.ok.inj h ▸ ⟨?_, rfl⟩
  show ((db.migrations ++ [(version, appliedAt)]).map (·.1)).foldl max 0 = _
  rw [List.map_append, List.foldl_append]
  rfl

theorem upgrade_ok (h : upgrade J now faults version db = (.ok (), db')) (hversion : db.version = version) :
    ∃ work, (migrationsFrom J version).foldlM (fun db f => f db) db = .ok work ∧
      recordVersion (version + 1) (now version) work = .ok db' := by
  rw [upgrade, if_pos hversion] at h
  have hfold := transact_ok h
  rw [List.foldlM_append] at hfold
  obtain ⟨work, hwork, hrecord⟩ := bind_eq_ok.mp hfold
  rw [List.foldlM_cons] at hrecord
  obtain ⟨last, hlast, hdone⟩ := bind_eq_ok.mp hrecord
  exact ⟨work, hwork, Except.ok.inj hdone ▸ hlast⟩

/-- The versions two and three leave the events alone. -/
theorem upgrade_schema (hbelow : version = 1 ∨ version = 2) (h : upgrade J now faults version db = (.ok (), db')) :
    db'.events = db.events ∧ db'.version = if db.version = version then version + 1 else db.version := by
  split_ifs with hversion
  · obtain ⟨work, hwork, hrecord⟩ := upgrade_ok h hversion
    have hkept : work.migrations = db.migrations ∧ work.events = db.events := by
      rcases hbelow with rfl | rfl
      · rw [migrationsFrom, List.foldlM_cons] at hwork
        obtain ⟨mid, hmid, hdone⟩ := bind_eq_ok.mp hwork
        exact Except.ok.inj hdone ▸ create_ok hmid
      · rw [migrationsFrom, List.foldlM_cons] at hwork
        obtain ⟨mid, hmid, hdone⟩ := bind_eq_ok.mp hwork
        exact Except.ok.inj hdone ▸ addColumn_ok hmid
    obtain ⟨hrecorded, hevents⟩ := recordVersion_ok hrecord
    have hworkVersion : work.version = version := by
      rw [MigrationDb.version, hkept.1]
      exact hversion
    exact ⟨hevents.trans hkept.2, by rw [hrecorded, hworkVersion]; omega⟩
  · rw [upgrade, if_neg hversion] at h
    exact (Prod.mk.inj h).2 ▸ ⟨rfl, rfl⟩

theorem upgrade_payloads (h : upgrade J now faults 3 db = (.ok (), db')) (hversion : db.version = 3)
    (hevents : db.events = some table) : db'.version = 4 ∧
      ∃ table', db'.events = some table' ∧ migrateLegacyEventPayloads J table = .ok table' := by
  obtain ⟨work, hwork, hrecord⟩ := upgrade_ok h hversion
  rw [migrationsFrom, List.foldlM_cons] at hwork
  obtain ⟨created, hcreated, hwork⟩ := bind_eq_ok.mp hwork
  rw [List.foldlM_cons] at hwork
  obtain ⟨migrated, hmigrated, hdone⟩ := bind_eq_ok.mp hwork
  obtain rfl := Except.ok.inj hdone
  obtain ⟨hcreatedMigrations, hcreatedEvents⟩ := create_ok hcreated
  obtain ⟨hmigrations, table', htable', hrows⟩ := migratePayloads_ok hmigrated (hcreatedEvents.trans hevents)
  obtain ⟨hrecorded, hrecordedEvents⟩ := recordVersion_ok hrecord
  have hworkVersion : migrated.version = 3 := by
    rw [MigrationDb.version, hmigrations, hcreatedMigrations]
    exact hversion
  exact ⟨by rw [hrecorded, hworkVersion]; rfl, table', hrecordedEvents.trans htable', hrows⟩

theorem upgrades_cons {versions : List Nat} (h : upgrades J now faults (version :: versions) db = (.ok (), db')) :
    ∃ mid, upgrade J now faults version db = (.ok (), mid) ∧ upgrades J now faults versions mid = (.ok (), db') := by
  rw [upgrades] at h
  split at h
  · rename_i mid hmid
    exact ⟨mid, hmid, h⟩
  · exact nomatch (Prod.mk.inj h).1

theorem migratePayloads_of {table' : EventTable} (hevents : db.events = some table)
    (h : migrateLegacyEventPayloads J table = .ok table') : migratePayloads J db = .ok { db with events := some table' } := by
  rw [migratePayloads, hevents]
  show (migrateLegacyEventPayloads J table).map _ = _
  rw [h]
  rfl

theorem upgrade_of (hversion : db.version = version) (hfault : faults version = none)
    (h : (migrationsFrom J version ++ [recordVersion (version + 1) (now version)]).foldlM (fun db f => f db) db = .ok db') :
    upgrade J now faults version db = (.ok (), db') := by
  rw [upgrade, if_pos hversion, hfault]
  exact transact_none h

theorem upgrade_payloads_of {created migrated : MigrationDb} (hversion : db.version = 3) (hfault : faults 3 = none)
    (hcreate : create ["observation_scopes", "observation_scopes_source_idx"] db = .ok created)
    (hmigrated : migratePayloads J created = .ok migrated) (hrecord : recordVersion 4 (now 3) migrated = .ok db') :
    upgrade J now faults 3 db = (.ok (), db') := by
  refine upgrade_of hversion hfault ?_
  exact bind_eq_ok.mpr ⟨created, hcreate, bind_eq_ok.mpr ⟨migrated, hmigrated, bind_eq_ok.mpr ⟨db', hrecord, rfl⟩⟩⟩

theorem upgrades_of {mid : MigrationDb} {versions : List Nat} (h : upgrade J now faults version db = (.ok (), mid)) :
    upgrades J now faults (version :: versions) db = upgrades J now faults versions mid := by
  rw [upgrades, h]

/-- The migration keeps the history of events: each row has its successor in its place, and a second run of the
payloads would change nothing. -/
theorem migrate_keeps_history (hversion : db.version = 1 ∨ db.version = 2 ∨ db.version = 3) (hevents : db.events = some table)
    (hreads : ∀ row ∈ table.rows, row.eventType = syntheticEventType → Rereads J row)
    (h : migrate J now faults db = (.ok (), db')) :
    db'.version = 4 ∧ ∃ table', db'.events = some table' ∧ table'.rows.length = table.rows.length ∧
      List.Forall₂ (Kept J D) table.rows table'.rows ∧ migrateLegacyEventPayloads J table' = .ok table' := by
  have hsupported : ¬ schemaVersion < db.version := by
    show ¬ 4 < db.version
    omega
  rw [migrate, if_neg hsupported] at h
  obtain ⟨zero, hzero, h⟩ := upgrades_cons h
  obtain ⟨one, hone, h⟩ := upgrades_cons h
  obtain ⟨two, htwo, h⟩ := upgrades_cons h
  obtain ⟨three, hthree, h⟩ := upgrades_cons h
  obtain rfl := (Prod.mk.inj h).2
  have hnew : db.version ≠ 0 := by omega
  rw [upgrade, if_neg hnew] at hzero
  obtain rfl := (Prod.mk.inj hzero).2
  obtain ⟨honeEvents, honeVersion⟩ := upgrade_schema (.inl rfl) hone
  obtain ⟨htwoEvents, htwoVersion⟩ := upgrade_schema (.inr rfl) htwo
  have htwo : two.version = 3 := by
    rw [htwoVersion, honeVersion]
    split_ifs <;> omega
  obtain ⟨hfour, table', htable', hrows⟩ := upgrade_payloads hthree htwo (htwoEvents.trans (honeEvents.trans hevents))
  obtain ⟨hkept, hsettled⟩ := migrateLegacyEventPayloads_kept hrows hreads
  exact ⟨hfour, table', htable', hkept.length_eq.symm, hkept, hsettled⟩

end Versions

namespace Sample

def parserOf (values : List Json) : SerdeJson := ⟨fun text => values.find? (·.render == text.toList)⟩

theorem parserOf_textOf {values : List Json} {v : Json} (h : values.find? (·.render == v.render) = some v) :
    (parserOf values).parse (textOf v) = some v := by
  show values.find? (·.render == (String.ofList v.render).toList) = some v
  rw [String.toList_ofList]
  exact h

def laterObjects : List String :=
  ["resources", "rituals", "ritual_versions", "ritual_approvals", "executions", "execution_steps",
    "ritual_execution_locks", "ritual_versions_ritual_idx", "executions_created_idx", "execution_steps_execution_idx",
    "observation_scopes", "observation_scopes_source_idx"]

def legacyEvent : Json := syntheticJson (legacyData "legacy" 1)

def migratedData : Json := tagged [("counter", .number 1), ("label", .string "legacy")]

def migratedEvent : Json :=
  match legacyEvent with
  | .object event => .object (insertEntry "data" migratedData (valueFields [] event))
  | v => v

def eventParser : SerdeJson := parserOf [legacyData "legacy" 1, legacyEvent, migratedData, migratedEvent]

def legacyRow : EventRow where
  id := "00000000-0000-0000-0000-000000000000"
  specVersion := "1.0"
  eventType := syntheticEventType
  source := "fubun-cli"
  occurredAt := "2023-11-14T22:13:20Z"
  receivedAt := "2023-11-14T22:13:20Z"
  actor := "user"
  adapterId := "dev.fixture"
  adapterVersion := "0.1.0"
  adapterInstanceId := "00000000-0000-0000-0000-000000000000"
  sequenceNo := 1
  contextJson := none
  privacy := "normal"
  dataJson := textOf (legacyData "legacy" 1)
  canonicalJson := textOf legacyEvent

def migratedRow : EventRow := { legacyRow with dataJson := textOf migratedData, canonicalJson := textOf migratedEvent }

def taggedRow : EventRow := { migratedRow with id := "00000000-0000-0000-0000-000000000001", sequenceNo := 2 }

def workspaceRow : EventRow :=
  { legacyRow with
    id := "00000000-0000-0000-0000-000000000002"
    eventType := "dev.fubun.vscode.workspace.opened.v1"
    sequenceNo := 3
    dataJson := ""
    canonicalJson := "" }

theorem keyed_rows {row : EventRow} (h : row.id = legacyRow.id) : Keyed (·.id) [row, taggedRow, workspaceRow] := by
  show List.Nodup [row.id, taggedRow.id, workspaceRow.id]
  rw [h]
  decide

def firstEvents : EventTable := ⟨[legacyRow, taggedRow, workspaceRow], keyed_rows rfl⟩

def fourthEvents : EventTable := ⟨[migratedRow, taggedRow, workspaceRow], keyed_rows rfl⟩

def firstDb : MigrationDb where
  migrations := [(1, "2026-08-03T00:00:00Z")]
  objects := ["adapters", "settings", "events_received_at_idx"]
  columns := []
  events := some firstEvents

/-- The same after the versions two and three. -/
def thirdDb : MigrationDb where
  migrations := [(1, "2026-08-03T00:00:00Z"), (2, "2026-08-03T00:00:00Z"), (3, "2026-08-03T00:00:00Z")]
  objects := firstDb.objects ++ laterObjects.take 10
  columns := [("execution_steps", "adapter_instance_id")]
  events := firstDb.events

def fourthDb : MigrationDb where
  migrations := thirdDb.migrations ++ [(4, "2026-08-03T00:00:00Z")]
  objects := thirdDb.objects ++ laterObjects.drop 10
  columns := thirdDb.columns
  events := some fourthEvents

theorem eventParser_data : eventParser.parse (textOf (legacyData "legacy" 1)) = some (legacyData "legacy" 1) :=
  parserOf_textOf (List.find?_cons_of_pos (beq_self_eq_true _))

theorem eventParser_event : eventParser.parse (textOf legacyEvent) = some legacyEvent := by
  apply parserOf_textOf
  rw [List.find?_cons_of_neg (by decide +kernel)]
  exact List.find?_cons_of_pos (beq_self_eq_true _)

theorem eventParser_migratedData : eventParser.parse (textOf migratedData) = some migratedData := by
  apply parserOf_textOf
  rw [List.find?_cons_of_neg (by decide +kernel), List.find?_cons_of_neg (by decide +kernel)]
  exact List.find?_cons_of_pos (beq_self_eq_true _)

theorem eventParser_migratedEvent : eventParser.parse (textOf migratedEvent) = some migratedEvent := by
  apply parserOf_textOf
  rw [List.find?_cons_of_neg (by decide +kernel), List.find?_cons_of_neg (by decide +kernel),
    List.find?_cons_of_neg (by decide +kernel)]
  exact List.find?_cons_of_pos (beq_self_eq_true _)

theorem legacyRow_tagged : taggedPayloads (legacyData "legacy" 1).value legacyEvent.value = some (migratedData, migratedEvent) := by
  rfl

theorem legacyRow_legacy : ∃ others, Legacy eventParser decoders legacyRow "legacy" 1 others := by
  have hdecodes : ((legacyEventSchema decoders).decode legacyEvent).isSome = true := by decide +kernel
  obtain ⟨d, hd⟩ := Option.isSome_iff_exists.mp hdecodes
  exact Legacy.of_decodes rfl eventParser_data rfl eventParser_event rfl rfl hd

theorem legacyRow_rereads : Rereads eventParser legacyRow := by
  intro data canonical data' canonical' hdata hcanonical htagged
  have hdata' : eventParser.value legacyRow.dataJson = some (legacyData "legacy" 1).value :=
    congrArg (Option.map Json.value) eventParser_data
  have hcanonical' : eventParser.value legacyRow.canonicalJson = some legacyEvent.value :=
    congrArg (Option.map Json.value) eventParser_event
  obtain rfl := Option.some.inj (hdata'.symm.trans hdata)
  obtain rfl := Option.some.inj (hcanonical'.symm.trans hcanonical)
  obtain ⟨rfl, rfl⟩ := Prod.mk.inj (Option.some.inj (legacyRow_tagged.symm.trans htagged))
  exact ⟨eventParser_migratedData, eventParser_migratedEvent⟩

theorem taggedRow_data : eventParser.value taggedRow.dataJson = some migratedData.value :=
  congrArg (Option.map Json.value) eventParser_migratedData

theorem taggedRow_canonical : eventParser.value taggedRow.canonicalJson = some migratedEvent.value :=
  congrArg (Option.map Json.value) eventParser_migratedEvent

theorem taggedRow_tagged : Tagged eventParser taggedRow := ⟨_, taggedRow_data, rfl⟩

theorem taggedRow_rereads : Rereads eventParser taggedRow := by
  intro data canonical data' canonical' hdata hcanonical htagged
  obtain rfl := Option.some.inj (taggedRow_data.symm.trans hdata)
  obtain rfl := Option.some.inj (taggedRow_canonical.symm.trans hcanonical)
  cases htagged

theorem migratePayload_legacyRow : migratePayload eventParser firstEvents legacyRow = .ok fourthEvents := by
  have hdata : eventParser.value legacyRow.dataJson = some (legacyData "legacy" 1).value :=
    congrArg (Option.map Json.value) eventParser_data
  have hcanonical : eventParser.value legacyRow.canonicalJson = some legacyEvent.value :=
    congrArg (Option.map Json.value) eventParser_event
  have hrows : ∀ f, updateRows (·.id == legacyRow.id) f [legacyRow, taggedRow, workspaceRow] =
      [f legacyRow, taggedRow, workspaceRow] := by
    intro f
    simp only [updateRows, List.map_cons, List.map_nil]
    rw [if_pos (beq_self_eq_true _), if_neg (by decide), if_neg (by decide)]
  rw [migratePayload_of hdata hcanonical legacyRow_tagged]
  simp only [EventTable.setPayload, firstEvents, hrows]
  rfl

theorem migratePayload_taggedRow : migratePayload eventParser fourthEvents taggedRow = .ok fourthEvents := by
  have hkind : hasKey "kind" [("counter", .number 1), ("kind", .string "synthetic"), ("label", .string "legacy")] = true := by
    decide
  have htagged : taggedPayloads migratedData.value migratedEvent.value = none := taggedPayloads_of_kind hkind _
  exact migratePayload_of_none taggedRow_data taggedRow_canonical htagged

theorem migrateLegacyEventPayloads_rows : migrateLegacyEventPayloads eventParser firstEvents = .ok fourthEvents := by
  have hlegacy : (legacyRow.eventType == syntheticEventType) = true := beq_self_eq_true _
  have htagged : (taggedRow.eventType == syntheticEventType) = true := beq_self_eq_true _
  have hworkspace : (workspaceRow.eventType == syntheticEventType) = false := by decide
  have hselected : firstEvents.rows.filter (·.eventType == syntheticEventType) = [legacyRow, taggedRow] := by
    simp only [firstEvents, List.filter_cons, List.filter_nil, hlegacy, htagged, hworkspace, if_true, Bool.false_eq_true, if_false]
  have hrest : ∀ row ∈ [taggedRow], migratePayload eventParser fourthEvents row = .ok fourthEvents := by
    intro row hrow
    rw [List.mem_singleton.mp hrow]
    exact migratePayload_taggedRow
  rw [migrateLegacyEventPayloads, hselected, List.foldlM_cons, migratePayload_legacyRow, ok_bind]
  exact foldlM_settled hrest

theorem migrate_firstDb : migrate eventParser (fun _ => "2026-08-03T00:00:00Z") (fun _ => none) firstDb =
    (.ok (), fourthDb) := by
  have hsecond : upgrade eventParser (fun _ => "2026-08-03T00:00:00Z") (fun _ => none) 1 firstDb =
      (.ok (), { thirdDb with migrations := thirdDb.migrations.take 2, columns := [] }) := upgrade_of rfl rfl rfl
  have hthird : upgrade eventParser (fun _ => "2026-08-03T00:00:00Z") (fun _ => none) 2
      { thirdDb with migrations := thirdDb.migrations.take 2, columns := [] } = (.ok (), thirdDb) := upgrade_of rfl rfl rfl
  have hpayloads : migratePayloads eventParser { thirdDb with objects := thirdDb.objects ++ laterObjects.drop 10 } =
      .ok { fourthDb with migrations := thirdDb.migrations } := migratePayloads_of rfl migrateLegacyEventPayloads_rows
  have hfourth : upgrade eventParser (fun _ => "2026-08-03T00:00:00Z") (fun _ => none) 3 thirdDb = (.ok (), fourthDb) :=
    upgrade_payloads_of rfl rfl rfl hpayloads rfl
  have hzero : upgrade eventParser (fun _ => "2026-08-03T00:00:00Z") (fun _ => none) 0 firstDb = (.ok (), firstDb) := rfl
  have hsupported : ¬ schemaVersion < firstDb.version := by decide
  rw [migrate, if_neg hsupported, upgrades_of hzero, upgrades_of hsecond, upgrades_of hthird, upgrades_of hfourth]
  rfl

end Sample

open Sample in
theorem migrate_keeps_history_rows : ∃ others db' table' row', Legacy eventParser decoders legacyRow "legacy" 1 others ∧
    Tagged eventParser taggedRow ∧ workspaceRow.eventType ≠ syntheticEventType ∧
    migrate eventParser (fun _ => "2026-08-03T00:00:00Z") (fun _ => none) firstDb = (.ok (), db') ∧ db'.events = some table' ∧
    table'.rows = [row', taggedRow, workspaceRow] ∧ Normalized eventParser decoders legacyRow row' "legacy" 1 others := by
  have hother : workspaceRow.eventType ≠ syntheticEventType := by decide
  have hreads : ∀ row ∈ [legacyRow, taggedRow, workspaceRow], row.eventType = syntheticEventType → Rereads eventParser row := by
    simp only [List.forall_mem_cons, List.not_mem_nil, false_implies, implies_true, and_true]
    exact ⟨fun _ => legacyRow_rereads, fun _ => taggedRow_rereads, fun htype => absurd htype hother⟩
  obtain ⟨-, table', htable', -, hkept, -⟩ :=
    migrate_keeps_history (D := decoders) (.inl rfl) rfl hreads migrate_firstDb
  obtain ⟨others, hlegacy⟩ := legacyRow_legacy
  obtain ⟨row', rows₁, hrow, hkept₁, hrows⟩ := List.forall₂_cons_left_iff.mp hkept
  obtain ⟨row₂, rows₂, htagged, hkept₂, rfl⟩ := List.forall₂_cons_left_iff.mp hkept₁
  obtain ⟨row₃, rows₃, hworkspace, hkept₃, rfl⟩ := List.forall₂_cons_left_iff.mp hkept₂
  obtain rfl := List.forall₂_nil_left_iff.mp hkept₃
  obtain rfl := htagged.unchanged (.inr taggedRow_tagged)
  obtain rfl := hworkspace.unchanged (.inl hother)
  exact ⟨others, fourthDb, table', row', hlegacy, taggedRow_tagged, hother, migrate_firstDb, htable', hrows,
    hrow.normalized "legacy" 1 others hlegacy⟩

end Fubun

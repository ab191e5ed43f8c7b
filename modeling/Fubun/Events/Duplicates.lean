import Fubun.Rituals.Dispatch

/-! Which insertions of an event the store answers with `DuplicateEvent`: every constraint of the
table is reported as one, the primary key on the event id included. -/

namespace Fubun
open Relational Concurrency Program System

/-- The key of the documented rule: the adapter instance and its sequence number. -/
def Event.SameKey (a b : Event) : Prop :=
  a.adapter.instanceId = b.adapter.instanceId ∧ a.adapter.sequenceNo = b.adapter.sequenceNo

instance (a b : Event) : Decidable (a.SameKey b) := inferInstanceAs (Decidable (_ ∧ _))

/-- `insert_event` goes by the adapter instance and the sequence number alone, and an insertion
that is not answered `Ok` changes neither table, also when a statement fails. -/
structure DeduplicatesByKey (crates : Crates) (db : Database) (event : Event) : Prop where
  duplicate : (insertEvent crates event ⟨db, none⟩).1 = .error .duplicateEvent ↔ ∃ row ∈ db.events, row.SameKey event
  stored : (insertEvent crates event ⟨db, none⟩).1 = .ok () ↔ ¬ ∃ row ∈ db.events, row.SameKey event
  untouched : ∀ fault, (insertEvent crates event ⟨db, fault⟩).1 ≠ .ok () →
    (insertEvent crates event ⟨db, fault⟩).2.db.events = db.events ∧
      (insertEvent crates event ⟨db, fault⟩).2.db.adapters = db.adapters

def Event.Formats (crates : Crates) (event : Event) : Prop :=
  crates.formats event.occurredAt = true ∧ crates.formats event.receivedAt = true

section Insertion
variable {crates : Crates} {db : Database} {event : Event}

theorem Event.clashes_eq_true {a b : Event} : a.clashes b = true ↔ a.id = b.id ∨ a.SameKey b := by
  simp [Event.clashes, Event.SameKey]

theorem insertEvent_valid (hvalid : event.validate = .ok ()) (hformats : event.Formats crates) (fault : Option Nat) :
    insertEvent crates event ⟨db, fault⟩ = statement (Database.insertEvent event) ⟨db, fault⟩ := by
  have hseq := (Event.validate_ok hvalid).1
  have htexts : ¬ (! (crates.formats event.occurredAt && crates.formats event.receivedAt)) = true := by
    simp [hformats.1, hformats.2]
  rw [insertEvent, if_neg htexts, if_neg (Nat.not_lt.mpr hseq)]

theorem insertEvent_unformatted (hformats : ¬ event.Formats crates) :
    insertEvent crates event ⟨db, none⟩ = (.error .time, ⟨db, none⟩) := by
  have htexts : (! (crates.formats event.occurredAt && crates.formats event.receivedAt)) = true := by
    by_contra h
    simp only [Bool.not_eq_true', Bool.not_eq_false, Bool.and_eq_true] at h
    exact hformats h
  rw [insertEvent, if_pos htexts]
  rfl

/-- Without a fault the answer tells whether some stored event clashes. -/
theorem insertEvent_answer (hvalid : event.validate = .ok ()) (hformats : event.Formats crates) :
    (insertEvent crates event ⟨db, none⟩).1 =
      if ∃ row ∈ db.events, row.id = event.id ∨ row.SameKey event then .error .duplicateEvent
      else .ok () := by
  rw [insertEvent_valid hvalid hformats, statement, Command.statement_no_fault]
  unfold Database.insertEvent insertRow
  have hany : db.events.any (·.clashes event) = true ↔
      ∃ row ∈ db.events, row.id = event.id ∨ row.SameKey event := by
    simp only [List.any_eq_true, Event.clashes_eq_true]
  by_cases hclash : ∃ row ∈ db.events, row.id = event.id ∨ row.SameKey event
  · rw [if_pos hclash, if_pos (hany.mpr hclash)]
    rfl
  · rw [if_neg hclash, if_neg (mt hany.mp hclash)]
    rfl

theorem insertEvent_failed {c c' : Relational.Connection Database} {e : StorageError}
    (h : insertEvent crates event c = (.error e, c')) : c'.db = c.db := by
  unfold insertEvent at h
  split_ifs at h
  · exact (Prod.mk.inj h).2 ▸ rfl
  · exact (Prod.mk.inj h).2 ▸ rfl
  · exact Command.statement_error h

/-- The upsert of the adapter is rolled back together with the insertion. -/
theorem insertEvent_untouched {fault : Option Nat}
    (h : (insertEvent crates event ⟨db, fault⟩).1 ≠ .ok ()) : (insertEvent crates event ⟨db, fault⟩).2.db = db := by
  obtain ⟨r, c, hrun⟩ : ∃ r c, insertEvent crates event ⟨db, fault⟩ = (r, c) := ⟨_, _, rfl⟩
  rw [hrun] at h ⊢
  cases r with
  | ok u => exact absurd rfl h
  | error e => exact insertEvent_failed hrun

theorem DeduplicatesByKey.formats (h : DeduplicatesByKey crates db event) : event.Formats crates := by
  by_contra hformats
  have hanswer : (insertEvent crates event ⟨db, none⟩).1 = .error .time :=
    congrArg Prod.fst (insertEvent_unformatted hformats)
  by_cases hkey : ∃ row ∈ db.events, row.SameKey event
  · exact nomatch hanswer.symm.trans (h.duplicate.mpr hkey)
  · exact nomatch hanswer.symm.trans (h.stored.mpr hkey)

/-- Among the events whose timestamps format, the store goes by the key exactly when the event's id is
new to it, or the key is stored too. -/
theorem deduplicates_iff (hvalid : event.validate = .ok ()) :
    DeduplicatesByKey crates db event ↔ event.Formats crates ∧
      ((∀ row ∈ db.events, row.id ≠ event.id) ∨ ∃ row ∈ db.events, row.SameKey event) := by
  constructor
  · intro h
    refine ⟨h.formats, ?_⟩
    by_cases hkey : ∃ row ∈ db.events, row.SameKey event
    · exact .inr hkey
    · refine .inl fun row hrow hid => ?_
      -- its id would clash, though the event is to be stored
      have hok := h.stored.mpr hkey
      have hclash : ∃ row ∈ db.events, row.id = event.id ∨ row.SameKey event := ⟨row, hrow, .inl hid⟩
      rw [insertEvent_answer hvalid h.formats, if_pos hclash] at hok
      exact nomatch hok
  · rintro ⟨hformats, h⟩
    have hanswer : (insertEvent crates event ⟨db, none⟩).1 =
        if ∃ row ∈ db.events, row.id = event.id ∨ row.SameKey event then .error .duplicateEvent
        else .ok () := insertEvent_answer hvalid hformats
    -- so the rows that clash are those with the key
    have hclash : (∃ row ∈ db.events, row.id = event.id ∨ row.SameKey event) ↔
        ∃ row ∈ db.events, row.SameKey event := by
      constructor
      · rintro ⟨row, hrow, hid | hkey⟩
        · exact h.elim (fun hnew => absurd hid (hnew row hrow)) id
        · exact ⟨row, hrow, hkey⟩
      · rintro ⟨row, hrow, hkey⟩
        exact ⟨row, hrow, .inr hkey⟩
    simp only [hclash] at hanswer
    refine ⟨?_, ?_, fun fault hne => ?_⟩
    · rw [hanswer]
      split_ifs with hkey <;> simp [hkey]
    · rw [hanswer]
      split_ifs with hkey <;> simp [hkey]
    · have hdb := insertEvent_untouched hne
      exact ⟨congrArg _ hdb, congrArg _ hdb⟩

end Insertion

namespace Sample

def synthetic (id : Uuid) (sequenceNo : Nat) : Fubun.Event where
  specVersion := eventSpecVersion
  id := id
  eventType := .syntheticV1
  source := "fixture"
  occurredAt := ⟨0, 0⟩
  receivedAt := ⟨0, 0⟩
  actor := .user
  adapter := ⟨"dev.fixture", "0.1.0", 200, sequenceNo⟩
  context := none
  privacy := .normal
  data := .synthetic "fixture" 0

/-- A client connects and stores an event with id 7 and sequence number 1. -/
def ingested : Schedule :=
  connected 0 ++ served 0 (.eventIngest (synthetic 7 1)) [0, 0]

theorem exists_ingested : ∃ c, (daemon crates).Reaches world Anywhere c ∧
    c.world.db.events = [synthetic 7 1] := by
  have hrun : (exec ingested).map (·.world.db.events) = some [synthetic 7 1] := by decide +kernel
  obtain ⟨c, hc, hevents⟩ := Option.map_eq_some_iff.mp hrun
  exact ⟨c, System.Reaches.init.exec hc, hevents⟩

end Sample

/-- The next event of the same instance, and one that comes again. -/
theorem deduplicates_ingested : ∃ c, (daemon Sample.crates).Reaches Sample.world Anywhere c ∧
    c.world.db.events = [Sample.synthetic 7 1] ∧ DeduplicatesByKey Sample.crates c.world.db (Sample.synthetic 8 2) ∧
      DeduplicatesByKey Sample.crates c.world.db (Sample.synthetic 7 1) := by
  obtain ⟨c, hreach, hevents⟩ := Sample.exists_ingested
  have hnew : ∀ row ∈ c.world.db.events, row.id ≠ (Sample.synthetic 8 2).id := by
    rw [hevents]
    decide +kernel
  have hagain : ∃ row ∈ c.world.db.events, row.SameKey (Sample.synthetic 7 1) := by
    rw [hevents]
    decide +kernel
  exact ⟨c, hreach, hevents, (deduplicates_iff (by decide +kernel)).mpr ⟨⟨rfl, rfl⟩, .inl hnew⟩,
    (deduplicates_iff (by decide +kernel)).mpr ⟨⟨rfl, rfl⟩, .inr hagain⟩⟩

/-- An event with a stored id but a new sequence number is reported as a duplicate. -/
theorem duplicate_of_stored_id : ¬ ∀ c event, (daemon Sample.crates).Reaches Sample.world Anywhere c →
    event.validate = .ok () → DeduplicatesByKey Sample.crates c.world.db event := by
  intro hall
  obtain ⟨c, hreach, hevents⟩ := Sample.exists_ingested
  have hvalid : (Sample.synthetic 7 2).validate = .ok () := by decide +kernel
  have hkey : ¬ ∃ row ∈ c.world.db.events, row.SameKey (Sample.synthetic 7 2) := by
    rw [hevents]
    decide +kernel
  have hstored := (hall c _ hreach hvalid).stored.mpr hkey
  have hclash : ∃ row ∈ c.world.db.events, row.id = (Sample.synthetic 7 2).id ∨ row.SameKey (Sample.synthetic 7 2) := by
    rw [hevents]
    decide +kernel
  rw [insertEvent_answer hvalid ⟨rfl, rfl⟩, if_pos hclash] at hstored
  exact nomatch hstored

end Fubun

import Fubun.Encoding.Timestamp
import Fubun.Events.Duplicates
import Fubun.Events.Emission
import Fubun.Relational.Order

/-! `events.list`: the statement filters and orders by the text of `received_at`, the request
means its instant. -/

namespace Fubun
open Relational Concurrency Program System Encoding

/-! ## The two readings -/

/-- `received_at >= ?1`, on the text. -/
def receivedSince (crates : Crates) (since : Option OffsetDateTime) (event : Event) : Bool :=
  (since.map fun since => decide (formatTs crates since ≤ formatTs crates event.receivedAt)).getD true

def textOrder (crates : Crates) (a b : Event) : Bool :=
  createdBefore (formatTs crates a.receivedAt, a.id) (formatTs crates b.receivedAt, b.id)

def notBefore (since : Option OffsetDateTime) (event : Event) : Bool :=
  (since.map fun since => decide (since.unixNanos ≤ event.receivedAt.unixNanos)).getD true

def instantOrder (a b : Event) : Bool :=
  decide (a.receivedAt.unixNanos < b.receivedAt.unixNanos) ||
    (a.receivedAt.unixNanos == b.receivedAt.unixNanos && decide (a.id ≤ b.id))

/-- What the request asks for. -/
def chronological (since : Option OffsetDateTime) (limit : Nat) (db : Database) : List Event :=
  (orderBy instantOrder (db.events.filter (notBefore since))).take (min limit 1000)

section Orders
variable {crates : Crates} {events : List Event}

theorem linearOn_of_key {κ : Type} [LinearOrder κ] {key : Event → κ} {le : Event → Event → Bool}
    (hle : ∀ a b, le a b = true ↔ key a < key b ∨ key a = key b ∧ a.id ≤ b.id)
    (hkeys : Keyed Event.id events) : LinearOn le events where
  total a b := by
    rw [hle, hle]
    rcases lt_trichotomy (key a) (key b) with h | h | h
    · exact .inl (.inl h)
    · exact (le_total a.id b.id).imp (fun hid => .inr ⟨h, hid⟩) fun hid => .inr ⟨h.symm, hid⟩
    · exact .inr (.inl h)
  trans a b c := by
    rw [hle, hle, hle]
    rintro (h | ⟨h, hid⟩) (h' | ⟨h', hid'⟩)
    · exact .inl (h.trans h')
    · exact .inl (h' ▸ h)
    · exact .inl (h ▸ h')
    · exact .inr ⟨h.trans h', hid.trans hid'⟩
  antisymm a ha b hb := by
    rw [hle, hle]
    rintro (h | ⟨h, hid⟩) (h' | ⟨h', hid'⟩)
    · exact absurd h' h.not_gt
    · exact absurd h'.symm h.ne
    · exact absurd h.symm h'.ne
    · exact hkeys.eq ha hb (le_antisymm hid hid')

theorem textOrder_iff {a b : Event} : textOrder crates a b = true ↔
    formatTs crates a.receivedAt < formatTs crates b.receivedAt ∨
      formatTs crates a.receivedAt = formatTs crates b.receivedAt ∧ a.id ≤ b.id := by
  simp [textOrder, createdBefore]

theorem instantOrder_iff {a b : Event} : instantOrder a b = true ↔
    a.receivedAt.unixNanos < b.receivedAt.unixNanos ∨
      a.receivedAt.unixNanos = b.receivedAt.unixNanos ∧ a.id ≤ b.id := by
  simp [instantOrder]

end Orders

theorem keyed_events {now : OffsetDateTime} {db db' : Database} {crates : Crates} {o : Operation}
    {r : Except StorageError o.Reply} (h : Effect crates now db db' o r) (hk : Keyed Event.id db.events) :
    Keyed Event.id db'.events := by
  rcases h.events with heq | ⟨event, -, -, hfresh, heq⟩
  · exact heq ▸ hk
  · rw [heq]
    refine hk.insert fun row hrow hid => ?_
    exact nomatch (hfresh row hrow).symm.trans (Event.clashes_eq_true.mpr (.inl hid))

/-! ## Timestamps -/

/-- `time` formats what RFC 3339 can write. -/
def Crates.WritesRfc3339 (crates : Crates) : Prop := ∀ t, crates.formatRfc3339? t =
  if Rfc3339Writable t.unixNanos t.offsetSeconds then some (rfc3339 t.unixNanos t.offsetSeconds) else none

/-- Two instants of one second where the digits of the earlier one's fraction begin the later
one's: in UTC the earlier text ends in 'Z' where the later one has a point or a digit. -/
def Confused (a b : OffsetDateTime) : Prop :=
  a.unixNanos < b.unixNanos ∧ a.unixNanos / 1000000000 = b.unixNanos / 1000000000 ∧
    subsecondDigits a.unixNanos <+: subsecondDigits b.unixNanos

/-- What the text of `since` lets pass of a time of reception in UTC: the later wall clock, and within
its second the higher fraction, unless the digits of one begin those of the other. -/
def ReadsFrom (since t : OffsetDateTime) : Prop :=
  wallSecond since.unixNanos since.offsetSeconds < wallSecond t.unixNanos 0 ∨
    wallSecond since.unixNanos since.offsetSeconds = wallSecond t.unixNanos 0 ∧
      ((since.unixNanos % 1000000000 < t.unixNanos % 1000000000 ∧
          (since.offsetSeconds ≠ 0 ∨ ¬ subsecondDigits since.unixNanos <+: subsecondDigits t.unixNanos)) ∨
        subsecondDigits t.unixNanos <+: subsecondDigits since.unixNanos)

/-- Not before `since`, but its text is. -/
def Missed (since t : OffsetDateTime) : Prop := since.unixNanos ≤ t.unixNanos ∧ ¬ ReadsFrom since t

/-- Before `since`, but its text is not. -/
def Slips (since t : OffsetDateTime) : Prop := t.unixNanos < since.unixNanos ∧ ReadsFrom since t

instance (a b : OffsetDateTime) : Decidable (Confused a b) := inferInstanceAs (Decidable (_ ∧ _ ∧ _))
instance (a b : OffsetDateTime) : Decidable (ReadsFrom a b) := inferInstanceAs (Decidable (_ ∨ _ ∧ _))
instance (a b : OffsetDateTime) : Decidable (Missed a b) := inferInstanceAs (Decidable (_ ∧ _))
instance (a b : OffsetDateTime) : Decidable (Slips a b) := inferInstanceAs (Decidable (_ ∧ _))

/-- Among the first `min limit 1000` events from `since` on, by instant. -/
def due (since : Option OffsetDateTime) (limit : Nat) (events : List Event) (event : Event) : Bool :=
  notBefore since event && decide (rank instantOrder (notBefore since) events event < min limit 1000)

/-- No timestamp puts a due event out of its place: `since` can be written, none is missed, a later one
that is read before a due one does not pass `since`, and an earlier one that slips through stands
behind all due ones and is cut off. -/
structure TimestampsAgree (since : Option OffsetDateTime) (limit : Nat) (events : List Event) : Prop where
  written : ∀ s ∈ since, Rfc3339Writable s.unixNanos s.offsetSeconds
  kept : ∀ s ∈ since, ∀ d ∈ events, due since limit events d = true → ¬ Missed s d.receivedAt
  later : ∀ d ∈ events, due since limit events d = true → ∀ e ∈ events, Confused d.receivedAt e.receivedAt →
    ∃ s ∈ since, Missed s e.receivedAt
  earlier : ∀ s ∈ since, ∀ e ∈ events, Slips s e.receivedAt → ∀ d ∈ events, due since limit events d = true →
    Confused e.receivedAt d.receivedAt
  few : events.countP (notBefore since) < min limit 1000 → ∀ s ∈ since, ∀ e ∈ events, ¬ Slips s e.receivedAt

/-- Written in UTC, within the years that RFC 3339 writes. -/
def InUtc (t : OffsetDateTime) : Prop := t.offsetSeconds = 0 ∧ Rfc3339Writable t.unixNanos 0

section Timestamps
variable {crates : Crates} {since : Option OffsetDateTime} {limit : Nat} {events : List Event} {s a b : OffsetDateTime}
  {d e : Event}

theorem formats_iff (hwrites : crates.WritesRfc3339) :
    crates.formats s = true ↔ Rfc3339Writable s.unixNanos s.offsetSeconds := by
  rw [Crates.formats, hwrites]
  split_ifs with h <;> simp [h]

theorem formatTs_eq (hwrites : crates.WritesRfc3339) (hs : Rfc3339Writable s.unixNanos s.offsetSeconds) :
    formatTs crates s = rfc3339 s.unixNanos s.offsetSeconds := by
  rw [formatTs, Crates.formatRfc3339, hwrites, if_pos hs]
  rfl

theorem InUtc.formatTs (hwrites : crates.WritesRfc3339) (ha : InUtc a) :
    formatTs crates a = rfc3339 a.unixNanos 0 := by
  rw [formatTs_eq hwrites (ha.1 ▸ ha.2), ha.1]

theorem InUtc.eq (ha : InUtc a) (hb : InUtc b) (h : a.unixNanos = b.unixNanos) : a = b := by
  obtain ⟨nanos, offset⟩ := a
  obtain ⟨nanos', offset'⟩ := b
  obtain rfl : nanos = nanos' := h
  obtain rfl : offset = offset' := ha.1.trans hb.1.symm
  rfl

theorem receivedSince_iff (hwrites : crates.WritesRfc3339)
    (hsince : ∀ s ∈ since, Rfc3339Writable s.unixNanos s.offsetSeconds) (he : InUtc e.receivedAt) :
    receivedSince crates since e = true ↔ ∀ s ∈ since, ReadsFrom s e.receivedAt := by
  cases since with
  | none => simp [receivedSince]
  | some s =>
    have hs := hsince s rfl
    simp only [receivedSince, Option.map_some, Option.getD_some, decide_eq_true_eq, Option.mem_some_iff, forall_eq']
    rw [formatTs_eq hwrites hs, he.formatTs hwrites]
    exact rfc3339_le_iff hs he.2

theorem notBefore_iff : notBefore since e = true ↔ ∀ s ∈ since, s.unixNanos ≤ e.receivedAt.unixNanos := by
  cases since <;> simp [notBefore]

/-- Texts of UTC instants are ordered as the instants are, unless these are confused. -/
theorem formatTs_le_iff (hwrites : crates.WritesRfc3339) (ha : InUtc a) (hb : InUtc b) :
    formatTs crates a ≤ formatTs crates b ↔ (a.unixNanos ≤ b.unixNanos ∧ ¬ Confused a b) ∨ Confused b a := by
  rw [ha.formatTs hwrites, hb.formatTs hwrites, rfc3339_le_iff ha.2 hb.2]
  simp only [wallSecond, ne_eq, not_true_eq_false, false_or, Int.add_zero]
  rcases lt_trichotomy (a.unixNanos / 1000000000) (b.unixNanos / 1000000000) with h | h | h
  · have hle : a.unixNanos ≤ b.unixNanos := by omega
    exact iff_of_true (.inl h) (.inl ⟨hle, fun hc => absurd hc.2.1 h.ne⟩)
  · -- within a second the fractions decide, and digits begin only those of a fraction that is not lower
    have hfraction : a.unixNanos % 1000000000 < b.unixNanos % 1000000000 ↔ a.unixNanos < b.unixNanos := by omega
    rcases lt_trichotomy a.unixNanos b.unixNanos with hlt | heq | hgt
    · have hba : ¬ subsecondDigits b.unixNanos <+: subsecondDigits a.unixNanos := by
        intro hprefix
        have hle := subsecond_le_of_isPrefix hprefix
        omega
      simp [Confused, h, hfraction, hlt, hlt.le, hba]
    · simp [Confused, heq]
    · have hnot : ¬ a.unixNanos < b.unixNanos := hgt.not_gt
      simp [Confused, h, hfraction, hgt, hnot, not_le.mpr hgt]
  · have hle : ¬ a.unixNanos ≤ b.unixNanos := by omega
    refine iff_of_false ?_ ?_
    · rintro (hlt | ⟨heq, -⟩) <;> omega
    · rintro (⟨hle', -⟩ | hc)
      · exact hle hle'
      · exact absurd hc.2.1 h.ne

theorem textOrder_eq_false_iff (hwrites : crates.WritesRfc3339) (hd : InUtc d.receivedAt) (he : InUtc e.receivedAt)
    (hne : d.receivedAt.unixNanos ≠ e.receivedAt.unixNanos) :
    textOrder crates d e = false ↔ ¬ formatTs crates d.receivedAt ≤ formatTs crates e.receivedAt := by
  have htexts : formatTs crates d.receivedAt ≠ formatTs crates e.receivedAt := by
    intro heq
    have hde := (formatTs_le_iff hwrites hd he).mp heq.le
    have hed := (formatTs_le_iff hwrites he hd).mp heq.ge
    rcases hde with ⟨hle, hc⟩ | hc
    · rcases hed with ⟨hle', -⟩ | hc'
      · exact hne (le_antisymm hle hle')
      · exact hc hc'
    · rcases hed with ⟨-, hc'⟩ | hc'
      · exact hc' hc
      · exact absurd hc.1 hc'.1.not_gt
  rw [Bool.eq_false_iff, Ne, textOrder_iff]
  simp [htexts, le_iff_lt_or_eq]

theorem due_of_earlier (hkeys : Keyed Event.id events) (hd : due since limit events d = true)
    (he : notBefore since e = true) (hlt : e.receivedAt.unixNanos < d.receivedAt.unixNanos) :
    due since limit events e = true := by
  obtain ⟨-, hrank⟩ := Bool.and_eq_true_iff.mp hd
  have hlinear : LinearOn instantOrder events := linearOn_of_key (fun _ _ => instantOrder_iff) hkeys
  have hle := rank_le (p := notBefore since) hlinear (instantOrder_iff.mpr (.inl hlt))
  exact Bool.and_eq_true_iff.mpr ⟨he, decide_eq_true (hle.trans_lt (of_decide_eq_true hrank))⟩

/-- Where the texts list the due events as the instants do, no timestamp stands in the way. -/
theorem timestampsAgree_of_agreeUpTo (hwrites : crates.WritesRfc3339) (hutc : ∀ e ∈ events, InUtc e.receivedAt)
    (hsince : ∀ s ∈ since, Rfc3339Writable s.unixNanos s.offsetSeconds)
    (h : AgreeUpTo (min limit 1000) events (receivedSince crates since) (notBefore since) (textOrder crates) instantOrder) :
    TimestampsAgree since limit events := by
  have hpasses : ∀ e ∈ events, receivedSince crates since e = true ↔ ∀ s ∈ since, ReadsFrom s e.receivedAt :=
    fun e he => receivedSince_iff hwrites hsince (hutc e he)
  have hslipped : ∀ s ∈ since, ∀ e ∈ events, Slips s e.receivedAt → receivedSince crates since e = true := by
    intro s hs e he hslips
    refine (hpasses e he).mpr fun s' hs' => ?_
    obtain rfl := Option.mem_unique hs hs'
    exact hslips.2
  have hdue : ∀ d ∈ events, due since limit events d = true → _ := fun d hd hdue =>
    h.due d hd (Bool.and_eq_true_iff.mp hdue).1 (of_decide_eq_true (Bool.and_eq_true_iff.mp hdue).2)
  refine ⟨hsince, ?_, ?_, ?_, ?_⟩
  · intro s hs d hd hd' hmissed
    exact hmissed.2 ((hpasses d hd).mp (hdue d hd hd').1 s hs)
  · intro d hd hd' e he hc
    -- else the later event would be listed before the due one
    by_contra hnone
    push Not at hnone
    have hfrom := notBefore_iff.mp (Bool.and_eq_true_iff.mp hd').1
    have hp : receivedSince crates since e = true := by
      refine (hpasses e he).mpr fun s hs => ?_
      by_contra hread
      exact hnone s hs ⟨(hfrom s hs).trans hc.1.le, hread⟩
    have hback : textOrder crates d e = false := by
      rw [textOrder_eq_false_iff hwrites (hutc d hd) (hutc e he) hc.1.ne, formatTs_le_iff hwrites (hutc d hd) (hutc e he)]
      rintro (⟨-, hnot⟩ | hc')
      · exact hnot hc
      · exact absurd hc'.1 hc.1.not_gt
    have hinstant := (((hdue d hd hd').2 e he).mp ⟨hp, hback⟩).2
    exact absurd (instantOrder_iff.mpr (.inl hc.1)) (by simp [hinstant])
  · intro s hs e he hslips d hd hd'
    have hfrom := notBefore_iff.mp (Bool.and_eq_true_iff.mp hd').1
    have hlt : e.receivedAt.unixNanos < d.receivedAt.unixNanos := hslips.1.trans_le (hfrom s hs)
    -- else the event that slips would be listed before the due one
    by_contra hc
    have hback : textOrder crates d e = false := by
      rw [textOrder_eq_false_iff hwrites (hutc d hd) (hutc e he) hlt.ne', formatTs_le_iff hwrites (hutc d hd) (hutc e he)]
      rintro (⟨hle, -⟩ | hc')
      · exact absurd hle (not_le.mpr hlt)
      · exact hc hc'
    have hq := (((hdue d hd hd').2 e he).mp ⟨hslipped s hs e he hslips, hback⟩).1
    exact absurd (notBefore_iff.mp hq s hs) (not_le.mpr hslips.1)
  · intro hfew s hs e he hslips
    exact absurd (notBefore_iff.mp (h.others hfew e he (hslipped s hs e he hslips)) s hs) (not_le.mpr hslips.1)

namespace TimestampsAgree

theorem passes (h : TimestampsAgree since limit events) (hwrites : crates.WritesRfc3339) (hd : d ∈ events)
    (hutc : InUtc d.receivedAt) (hdue : due since limit events d = true) : receivedSince crates since d = true := by
  refine (receivedSince_iff hwrites h.written hutc).mpr fun s hs => ?_
  by_contra hread
  exact h.kept s hs d hd hdue ⟨notBefore_iff.mp (Bool.and_eq_true_iff.mp hdue).1 s hs, hread⟩

/-- An earlier event that the text puts before a due one is due as well. -/
theorem earlier_iff (h : TimestampsAgree since limit events) (hwrites : crates.WritesRfc3339)
    (hkeys : Keyed Event.id events) (hutc : ∀ e ∈ events, InUtc e.receivedAt) (hd : d ∈ events)
    (hdue : due since limit events d = true) (he : e ∈ events) (hlt : e.receivedAt.unixNanos < d.receivedAt.unixNanos) :
    (receivedSince crates since e = true ∧ textOrder crates d e = false) ↔ notBefore since e = true := by
  rw [textOrder_eq_false_iff hwrites (hutc d hd) (hutc e he) hlt.ne', formatTs_le_iff hwrites (hutc d hd) (hutc e he)]
  constructor
  · rintro ⟨hp, hnot⟩
    refine notBefore_iff.mpr fun s hs => ?_
    by_contra hslips
    have hread := (receivedSince_iff hwrites h.written (hutc e he)).mp hp s hs
    exact hnot (.inr (h.earlier s hs e he ⟨not_le.mp hslips, hread⟩ d hd hdue))
  · intro hq
    have hdue' := due_of_earlier hkeys hdue hq hlt
    refine ⟨h.passes hwrites he (hutc e he) hdue', ?_⟩
    rintro (⟨hle, -⟩ | hc)
    · exact absurd hle (not_le.mpr hlt)
    · obtain ⟨s, hs, hmissed⟩ := h.later e he hdue' d hd hc
      exact h.kept s hs d hd hdue hmissed

/-- A later event that the text puts before a due one does not pass `since`. -/
theorem not_before (h : TimestampsAgree since limit events) (hwrites : crates.WritesRfc3339)
    (hutc : ∀ e ∈ events, InUtc e.receivedAt) (hd : d ∈ events) (hdue : due since limit events d = true) (he : e ∈ events)
    (hgt : d.receivedAt.unixNanos < e.receivedAt.unixNanos) :
    ¬ (receivedSince crates since e = true ∧ textOrder crates d e = false) := by
  rw [textOrder_eq_false_iff hwrites (hutc d hd) (hutc e he) hgt.ne, formatTs_le_iff hwrites (hutc d hd) (hutc e he)]
  rintro ⟨hp, hnot⟩
  have hc : Confused d.receivedAt e.receivedAt := by
    by_contra hc
    exact hnot (.inl ⟨hgt.le, hc⟩)
  obtain ⟨s, hs, hmissed⟩ := h.later d hd hdue e he hc
  exact hmissed.2 ((receivedSince_iff hwrites h.written (hutc e he)).mp hp s hs)

theorem agreeUpTo (h : TimestampsAgree since limit events) (hwrites : crates.WritesRfc3339)
    (hkeys : Keyed Event.id events) (hutc : ∀ e ∈ events, InUtc e.receivedAt) :
    AgreeUpTo (min limit 1000) events (receivedSince crates since) (notBefore since) (textOrder crates) instantOrder := by
  refine ⟨fun d hd hq hrank => ?_, fun hfew e he hp => ?_⟩
  · have hdue : due since limit events d = true := Bool.and_eq_true_iff.mpr ⟨hq, decide_eq_true hrank⟩
    have hpass := h.passes hwrites hd (hutc d hd) hdue
    refine ⟨hpass, fun e he => ?_⟩
    rcases lt_trichotomy e.receivedAt.unixNanos d.receivedAt.unixNanos with hlt | heq | hgt
    · have hinstant : instantOrder d e = false := by
        rw [Bool.eq_false_iff, Ne, instantOrder_iff]
        omega
      simp only [h.earlier_iff hwrites hkeys hutc hd hdue he hlt, hinstant, and_true]
    · -- the same time of reception, so the id decides in both orders
      have hsame : e.receivedAt = d.receivedAt := (hutc e he).eq (hutc d hd) heq
      have hp : receivedSince crates since e = true := by rwa [receivedSince, hsame]
      have hq' : notBefore since e = true := by rwa [notBefore, hsame]
      have horder : textOrder crates d e = instantOrder d e := by
        rw [Bool.eq_iff_iff, textOrder_iff, instantOrder_iff, hsame]
        simp
      simp only [hp, hq', horder]
    · have hinstant : instantOrder d e = true := instantOrder_iff.mpr (.inl hgt)
      exact iff_of_false (h.not_before hwrites hutc hd hdue he hgt) (by simp [hinstant])
  · refine notBefore_iff.mpr fun s hs => ?_
    by_contra hslips
    have hread := (receivedSince_iff hwrites h.written (hutc e he)).mp hp s hs
    exact h.few hfew s hs e he ⟨not_le.mp hslips, hread⟩

end TimestampsAgree
end Timestamps

/-! ## Runs -/

section Runs
variable {crates : Crates} {now : Int} {instant : Nat} {files : Files} {path : String} {c : State}

def utcClock (crates : Crates) : (daemon crates).Persistent where
  holds o r _ :=
    match o, r with
    | .nowUtc, t => t.offsetSeconds = 0
    | _, _ => True
  learned {i o ch w r w'} hact := by
    cases o with
    | nowUtc =>
      obtain ⟨rfl, -⟩ := Prod.mk.inj (Option.some.inj hact)
      rfl
    | _ => trivial
  act h _ := h
  drift _ h := h
  restart _ h := h

theorem stored_formats (h : (daemon crates).Reaches (World.start now instant files path) Anywhere c) :
    ∀ event ∈ c.world.db.events, event.Formats crates := by
  refine reaches_database (I := fun db => ∀ event ∈ db.events, event.Formats crates) h (fun _ he => nomatch he) ?_
  intro now db db' o r he hdb
  rcases he.events with heq | ⟨event, -, hstorable, -, heq⟩
  · exact heq ▸ hdb
  · rw [heq]
    intro row hrow
    rcases List.mem_append.mp hrow with hrow | hrow
    · exact hdb row hrow
    · obtain rfl := List.mem_singleton.mp hrow
      exact ⟨hstorable.occurredAt, hstorable.receivedAt⟩

theorem stored_utc (h : (daemon crates).Reaches (World.start now instant files path) Anywhere c) {event : Event}
    (hevent : event ∈ c.world.db.events) : event.receivedAt.offsetSeconds = 0 := by
  obtain ⟨before, i, operation, reply, after, hlog, hq⟩ := reaches_origin h
    (P := fun db => event ∈ db.events) (Q := fun answer => answer = ⟨.insertEvent event, .ok ()⟩)
    (fun hmem => nomatch hmem) (by
      intro now db db' o r he hmem
      rcases he.events with heq | ⟨inserted, hanswer, -, -, heq⟩
      · exact .inl (heq ▸ hmem)
      · rw [heq] at hmem
        rcases List.mem_append.mp hmem with hmem | hmem
        · exact .inl hmem
        · obtain rfl := List.mem_singleton.mp hmem
          exact .inr hanswer) (fun r hq => nomatch hq) hevent
  cases hq
  -- both paths stamp the event with the clock they have just read
  obtain ⟨earlier, q, later, k, hbefore, -, hleads⟩ := h.called hlog
  have hread : ∀ t : OffsetDateTime, (⟨.nowUtc, t⟩ : Answered Op.Res) ∈ callsOf i later → t.offsetSeconds = 0 := by
    intro t ht
    have hlogged : .call i .nowUtc t ∈ c.log := by
      rw [hlog, hbefore]
      simp [(mem_callsOf i later).mp ht]
    exact h.persistent (utcClock crates) hlogged
  rcases insertEvent_path hleads with ⟨request, e, receivedAt, -, -, -, -, hcalls, rfl⟩ | ⟨m, -, -, hcalls, rfl⟩
  · exact hread receivedAt (hcalls ▸ List.mem_singleton_self _)
  · exact hread m.receivedAt (hcalls ▸ by simp [Emission.trace])

theorem stored_inUtc (hwrites : crates.WritesRfc3339)
    (h : (daemon crates).Reaches (World.start now instant files path) Anywhere c) {event : Event}
    (hevent : event ∈ c.world.db.events) : InUtc event.receivedAt := by
  have hzero := stored_utc h hevent
  have hwritable := (formats_iff hwrites).mp (stored_formats h event hevent).2
  exact ⟨hzero, hzero ▸ hwritable⟩

theorem store_listEvents (since : Option OffsetDateTime) (limit : Nat) (w : World) :
    (w.store crates (.listEvents since limit) none).1 =
      if since.all crates.formats then .ok (listEvents crates since limit w.db) else .error .time := by
  rw [World.store, executeOperation]
  split_ifs
  · rw [select, statement, Command.statement_no_fault]
    rfl
  · rfl

/-- The events of a request are listed as asked exactly when no timestamp stands in the way. -/
theorem listEvents_iff (hwrites : crates.WritesRfc3339)
    (h : (daemon crates).Reaches (World.start now instant files path) Anywhere c) (since : Option OffsetDateTime)
    (limit : Nat) :
    (c.world.store crates (.listEvents since limit) none).1 = .ok (chronological since limit c.world.db) ↔
      TimestampsAgree since limit c.world.db.events := by
  have hkeys : Keyed Event.id c.world.db.events :=
    reaches_database (I := fun db => Keyed Event.id db.events) h keyed_nil keyed_events
  have hutc : ∀ e ∈ c.world.db.events, InUtc e.receivedAt := fun e he => stored_inUtc hwrites h he
  rw [store_listEvents]
  by_cases hsince : ∀ s ∈ since, Rfc3339Writable s.unixNanos s.offsetSeconds
  · have hall : since.all crates.formats = true :=
      Option.all_eq_true _ _ |>.mpr fun s hs => (formats_iff hwrites).mpr (hsince s hs)
    have hagree : listEvents crates since limit c.world.db = chronological since limit c.world.db ↔
        AgreeUpTo (min limit 1000) c.world.db.events (receivedSince crates since) (notBefore since)
          (textOrder crates) instantOrder :=
      take_orderBy_eq_iff (linearOn_of_key (fun _ _ => textOrder_iff) hkeys)
        (linearOn_of_key (fun _ _ => instantOrder_iff) hkeys) (List.Nodup.of_map _ hkeys)
    rw [if_pos hall, Except.ok.injEq, hagree]
    exact ⟨timestampsAgree_of_agreeUpTo hwrites hutc hsince, fun h => h.agreeUpTo hwrites hkeys hutc⟩
  · have hall : ¬ since.all crates.formats = true := fun hall =>
      hsince fun s hs => (formats_iff hwrites).mp ((Option.all_eq_true _ _).mp hall s hs)
    rw [if_neg hall]
    exact iff_of_false (fun heq => nomatch heq) fun hagree => hsince hagree.written

end Runs

/-! ## Half a second -/

namespace Sample

def clocked : Crates :=
  { crates with formatRfc3339? := fun t =>
      if Rfc3339Writable t.unixNanos t.offsetSeconds then some (rfc3339 t.unixNanos t.offsetSeconds) else none }

theorem clocked_writes : clocked.WritesRfc3339 := fun _ => rfl

def receivedAt (event : Fubun.Event) (unixNanos : Int) : Fubun.Event :=
  { event with receivedAt := ⟨unixNanos, 0⟩ }

/-- Two events, received on a second and half a second after it. -/
def halfSecond : Schedule :=
  connected 0 ++ .drift (.clock 1700000000000000000 0) :: served 0 (.eventIngest (synthetic 7 1)) [0, 0] ++
    .drift (.clock 1700000000500000000 500000000) :: served 0 (.eventIngest (synthetic 8 2)) [0, 0]

theorem exists_halfSecond : ∃ c, (daemon clocked).Reaches world Anywhere c ∧
    c.world.db.events = [receivedAt (synthetic 7 1) 1700000000000000000,
      receivedAt (synthetic 8 2) 1700000000500000000] := by
  have hrun : ((daemon clocked).exec (.init world) halfSecond).map (·.world.db.events) =
      some [receivedAt (synthetic 7 1) 1700000000000000000,
        receivedAt (synthetic 8 2) 1700000000500000000] := by decide +kernel
  obtain ⟨c, hc, hevents⟩ := Option.map_eq_some_iff.mp hrun
  exact ⟨c, System.Reaches.init.exec hc, hevents⟩

end Sample

/-- The first event from the half second on: the text of the whole second slips through, behind it. -/
theorem listEvents_halfSecond : ∃ c, (daemon Sample.clocked).Reaches Sample.world Anywhere c ∧
    (c.world.store Sample.clocked (.listEvents (some ⟨1700000000500000000, 0⟩) 1) none).1 =
      .ok [Sample.receivedAt (Sample.synthetic 8 2) 1700000000500000000] := by
  obtain ⟨c, hreach, hevents⟩ := Sample.exists_halfSecond
  have hagree : TimestampsAgree (some ⟨1700000000500000000, 0⟩) 1 c.world.db.events := by
    rw [hevents]
    exact ⟨by decide +kernel, by decide +kernel, by decide +kernel, by decide +kernel, by decide +kernel⟩
  have hlisted := (listEvents_iff Sample.clocked_writes hreach _ _).mpr hagree
  have hdue : chronological (some ⟨1700000000500000000, 0⟩) 1 c.world.db =
      [Sample.receivedAt (Sample.synthetic 8 2) 1700000000500000000] := by
    rw [chronological, hevents]
    decide +kernel
  exact ⟨c, hreach, hlisted.trans (congrArg Except.ok hdue)⟩

/-- Without `since` the later event comes first. -/
theorem listEvents_disordered : ¬ ∀ c since limit, (daemon Sample.clocked).Reaches Sample.world Anywhere c →
    (c.world.store Sample.clocked (.listEvents since limit) none).1 = .ok (chronological since limit c.world.db) := by
  intro hall
  obtain ⟨c, hreach, hevents⟩ := Sample.exists_halfSecond
  have hlisted := hall c none 100 hreach
  rw [store_listEvents] at hlisted
  have hlisted' := Except.ok.inj hlisted
  unfold listEvents chronological at hlisted'
  rw [hevents] at hlisted'
  revert hlisted'
  decide +kernel

end Fubun

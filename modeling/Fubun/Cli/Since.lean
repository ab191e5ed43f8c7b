import Fubun.Domain.Event
import Fubun.Encoding.Text
import Fubun.Encoding.Timestamp

/-! The durations of `fubun events list --since`. The split, the product and the difference of `parse_since` are each
partial, and what stands before them does not rule out all on which they panic. -/

namespace Fubun
open Encoding

inductive CliError where
  | invalidDuration (input : String)
  | unexpectedResponse
  | io
deriving DecidableEq, Repr

/-! ## Numbers, durations and instants -/

def checkedI64 (n : Int) : Option Int := if -2 ^ 63 ≤ n ∧ n < 2 ^ 63 then some n else none

/-- `str::parse::<i64>`. -/
def parseI64 (text : List Char) : Option Int := (integer? text).bind checkedI64

namespace Duration

/-! A duration of whole seconds is their number; `none` is the panic of its constructor. -/

def seconds (value : Int) : Option Int := some value
def minutes (value : Int) : Option Int := checkedI64 (value * 60)
def hours (value : Int) : Option Int := checkedI64 (value * 3600)
def days (value : Int) : Option Int := checkedI64 (value * 86400)

end Duration

namespace OffsetDateTime

def Representable (t : OffsetDateTime) : Prop :=
  -9999 ≤ yearOfSeconds (t.unixNanos / 1000000000 + t.offsetSeconds) ∧
    yearOfSeconds (t.unixNanos / 1000000000 + t.offsetSeconds) ≤ 9999

instance (t : OffsetDateTime) : Decidable t.Representable := inferInstanceAs (Decidable (_ ∧ _))

def before (t : OffsetDateTime) (seconds : Int) : OffsetDateTime :=
  { t with unixNanos := t.unixNanos - seconds * 1000000000 }

/-- The operator `-`, which panics where there is no such date. -/
def sub (t : OffsetDateTime) (duration : Int) : Option OffsetDateTime :=
  if (t.before duration).Representable then some (t.before duration) else none

end OffsetDateTime

/-! ## `parse_since` -/

section
variable (nowUtc : OffsetDateTime) (input : String)

/-- `none` is a panic. -/
def parseSince : Option (Except CliError OffsetDateTime) :=
  let invalid := some (.error (.invalidDuration input))
  let since := fun duration => (nowUtc.sub duration).map .ok
  if input.utf8ByteSize < 2 then invalid
  else
    match splitAtByte (input.utf8ByteSize - 1) input.toList with
    | none => none
    | some (number, unit) =>
      match (parseI64 number).filter (0 < ·) with
      | none => invalid
      | some value =>
        match unit with
        | ['s'] => (Duration.seconds value).bind since
        | ['m'] => (Duration.minutes value).bind since
        | ['h'] => (Duration.hours value).bind since
        | ['d'] => (Duration.days value).bind since
        | _ => invalid

def unitSeconds : Char → Option Int
  | 's' => some 1
  | 'm' => some 60
  | 'h' => some 3600
  | 'd' => some 86400
  | _ => none

/-- The input is a positive number of units. -/
def IsDuration (value seconds : Int) : Prop :=
  ∃ number unit, input.toList = number ++ [unit] ∧ parseI64 number = some value ∧ 0 < value ∧ unitSeconds unit = some seconds

/-- An instant that many units before now, or the error for the input; and no panic. -/
def IsSince : Option (Except CliError OffsetDateTime) → Prop
  | none => False
  | some (.error e) => e = .invalidDuration input
  | some (.ok instant) => ∃ value seconds, IsDuration input value seconds ∧ instant = nowUtc.before (value * seconds)

/-- A last character of a single byte, and a duration that fits and leads to a date. -/
def InReach : Prop :=
  input.utf8ByteSize < 2 ∨ (∀ unit ∈ input.toList.getLast?, unit.utf8Size = 1) ∧
    ∀ value seconds, IsDuration input value seconds →
      value * seconds < 2 ^ 63 ∧ (nowUtc.before (value * seconds)).Representable

end

variable {nowUtc : OffsetDateTime} {input : String}

theorem checkedI64_eq_some {n m : Int} : checkedI64 n = some m ↔ n = m ∧ -2 ^ 63 ≤ n ∧ n < 2 ^ 63 := by
  unfold checkedI64
  split_ifs with h
  · exact ⟨fun hsome => ⟨Option.some.inj hsome, h⟩, fun ⟨heq, _⟩ => congrArg some heq⟩
  · exact ⟨nofun, fun ⟨_, hbounds⟩ => absurd hbounds h⟩

theorem checkedI64_of_parseI64 {text : List Char} {value : Int} (h : parseI64 text = some value) :
    checkedI64 value = some value := by
  obtain ⟨n, -, hn⟩ := Option.bind_eq_some_iff.mp h
  obtain ⟨rfl, -⟩ := checkedI64_eq_some.mp hn
  exact hn

def sinceUnits (nowUtc : OffsetDateTime) (input : String) (value : Int) (unit : Char) : Option (Except CliError OffsetDateTime) :=
  match unitSeconds unit with
  | none => some (.error (.invalidDuration input))
  | some seconds => (checkedI64 (value * seconds)).bind fun duration => (nowUtc.sub duration).map .ok

theorem parseSince_short (h : input.utf8ByteSize < 2) : parseSince nowUtc input = some (.error (.invalidDuration input)) :=
  if_pos h

theorem parseSince_wide {number : List Char} {unit : Char} (hlong : ¬ input.utf8ByteSize < 2)
    (hinput : input.toList = number ++ [unit]) (hunit : unit.utf8Size ≠ 1) : parseSince nowUtc input = none := by
  have hsplit := splitAtByte_last number unit
  rw [if_neg hunit, ← hinput, ← utf8ByteSize_eq] at hsplit
  unfold parseSince
  rw [if_neg hlong, hsplit]

theorem parseSince_nan {number : List Char} {unit : Char} (hlong : ¬ input.utf8ByteSize < 2)
    (hinput : input.toList = number ++ [unit]) (hunit : unit.utf8Size = 1) (hnan : (parseI64 number).filter (0 < ·) = none) :
    parseSince nowUtc input = some (.error (.invalidDuration input)) := by
  have hsplit := splitAtByte_last number unit
  rw [if_pos hunit, ← hinput, ← utf8ByteSize_eq] at hsplit
  unfold parseSince
  rw [if_neg hlong, hsplit]
  dsimp only
  rw [hnan]

theorem parseSince_units {number : List Char} {unit : Char} {value : Int} (hlong : ¬ input.utf8ByteSize < 2)
    (hinput : input.toList = number ++ [unit]) (hunit : unit.utf8Size = 1) (hvalue : parseI64 number = some value)
    (hpos : 0 < value) : parseSince nowUtc input = sinceUnits nowUtc input value unit := by
  have hsplit := splitAtByte_last number unit
  rw [if_pos hunit, ← hinput, ← utf8ByteSize_eq] at hsplit
  have hfilter : (parseI64 number).filter (0 < ·) = some value := by simp [hvalue, hpos]
  unfold parseSince
  rw [if_neg hlong, hsplit]
  dsimp only
  rw [hfilter]
  dsimp only
  by_cases hs : unit = 's'
  · subst hs
    rw [sinceUnits, unitSeconds]
    dsimp only
    rw [mul_one, checkedI64_of_parseI64 hvalue]
    rfl
  by_cases hm : unit = 'm'
  · subst hm
    rfl
  by_cases hh : unit = 'h'
  · subst hh
    rfl
  by_cases hd : unit = 'd'
  · subst hd
    rfl
  have hnone : unitSeconds unit = none := by
    unfold unitSeconds
    split <;> simp_all
  rw [sinceUnits, hnone]
  split <;> simp_all

/-! ## When it does not panic -/

theorem isSince_invalid : IsSince nowUtc input (some (.error (.invalidDuration input))) := rfl

theorem isDuration_snoc {number : List Char} {unit : Char} (hinput : input.toList = number ++ [unit]) {value seconds : Int} :
    IsDuration input value seconds ↔ parseI64 number = some value ∧ 0 < value ∧ unitSeconds unit = some seconds := by
  constructor
  · rintro ⟨number', unit', heq, h⟩
    obtain ⟨rfl, hunit⟩ := List.append_inj' (hinput.symm.trans heq) rfl
    obtain rfl := List.head_eq_of_cons_eq hunit
    exact h
  · intro h
    exact ⟨number, unit, hinput, h⟩

/-- What comes of a positive number is as promised when the duration fits and leads to a date. -/
theorem isSince_units {value : Int} {unit : Char} (hpos : 0 < value) (hduration : ∀ seconds, unitSeconds unit = some seconds →
    IsDuration input value seconds) : IsSince nowUtc input (sinceUnits nowUtc input value unit) ↔
      ∀ seconds, unitSeconds unit = some seconds →
        value * seconds < 2 ^ 63 ∧ (nowUtc.before (value * seconds)).Representable := by
  unfold sinceUnits
  cases hunit : unitSeconds unit with
  | none => exact iff_of_true rfl nofun
  | some seconds =>
    have hseconds : 0 < seconds := by
      unfold unitSeconds at hunit
      split at hunit <;> simp_all
      all_goals omega
    have hproduct : 0 < value * seconds := Int.mul_pos hpos hseconds
    dsimp only
    constructor
    · intro h seconds' heq
      obtain rfl := Option.some.inj heq
      cases hchecked : checkedI64 (value * seconds) with
      | none => rw [hchecked] at h; exact h.elim
      | some duration =>
        obtain ⟨rfl, -, hfits⟩ := checkedI64_eq_some.mp hchecked
        rw [hchecked, Option.bind_some, OffsetDateTime.sub] at h
        split_ifs at h with hdate
        · exact ⟨hfits, hdate⟩
        · exact h.elim
    · intro h
      obtain ⟨hfits, hdate⟩ := h seconds rfl
      have hchecked : checkedI64 (value * seconds) = some (value * seconds) :=
        checkedI64_eq_some.mpr ⟨rfl, by omega, hfits⟩
      rw [hchecked, Option.bind_some, OffsetDateTime.sub, if_pos hdate]
      exact ⟨value, seconds, hduration seconds hunit, rfl⟩

/-- For every input there is an instant that many units before now, or the error for the input, just when the input is in
reach. -/
theorem parseSince_isSince (nowUtc : OffsetDateTime) (input : String) :
    IsSince nowUtc input (parseSince nowUtc input) ↔ InReach nowUtc input := by
  by_cases hshort : input.utf8ByteSize < 2
  · rw [parseSince_short hshort]
    exact iff_of_true isSince_invalid (.inl hshort)
  have hne : input.toList ≠ [] := by
    intro hnil
    rw [utf8ByteSize_eq, hnil] at hshort
    exact hshort (by decide)
  -- a number and the last character, its unit
  obtain ⟨number, unit, hinput⟩ := (List.eq_nil_or_concat input.toList).resolve_left hne
  rw [List.concat_eq_append] at hinput
  unfold InReach
  rw [or_iff_right hshort, hinput, List.getLast?_concat]
  by_cases hunit : unit.utf8Size = 1
  · rw [and_iff_right (by simpa using hunit)]
    simp only [isDuration_snoc hinput]
    cases hparse : (parseI64 number).filter (0 < ·) with
    | none =>
      rw [parseSince_nan hshort hinput hunit hparse]
      refine iff_of_true isSince_invalid ?_
      intro value seconds ⟨hvalue, hpos, _⟩
      rw [hvalue, Option.filter_some, if_pos (decide_eq_true hpos)] at hparse
      exact nomatch hparse
    | some value =>
      obtain ⟨hvalue, hpos⟩ := Option.filter_eq_some_iff.mp hparse
      have hpos := of_decide_eq_true hpos
      rw [parseSince_units hshort hinput hunit hvalue hpos,
        isSince_units hpos fun seconds hseconds => (isDuration_snoc hinput).mpr ⟨hvalue, hpos, hseconds⟩]
      constructor
      · intro h value' seconds ⟨hvalue', _, hseconds⟩
        obtain rfl := Option.some.inj (hvalue.symm.trans hvalue')
        exact h seconds hseconds
      · intro h seconds hseconds
        exact h value seconds ⟨hvalue, hpos, hseconds⟩
  -- the split before the last byte falls into a wider character
  · rw [parseSince_wide hshort hinput hunit]
    exact iff_of_false id fun h => hunit (h.1 unit rfl)

example : parseSince ⟨0, 0⟩ "2h" = some (.ok ⟨-7200000000000, 0⟩) := by decide +kernel

/-- The split before the last byte is inside the last character. -/
theorem parseSince_panics : ¬ ∀ (nowUtc : OffsetDateTime) (input : String), IsSince nowUtc input (parseSince nowUtc input) := by
  intro h
  have hpanic : parseSince ⟨0, 0⟩ "1é" = none := by decide +kernel
  have hsince := h ⟨0, 0⟩ "1é"
  rw [hpanic] at hsince
  exact hsince

end Fubun

import Mathlib.Algebra.GroupWithZero.Nat
import Mathlib.Data.List.Lex
import Mathlib.Data.String.Basic

/-! Instants as calendar texts: fixed-width decimals, the proleptic Gregorian calendar, and how
the order of RFC 3339 texts compares with the order of the instants. -/

namespace Encoding

/-! ## Lexicographic order -/

section Order
variable {α : Type} [LinearOrder α] {x y s t : List α}

theorem append_lt_append_iff (h : x.length = y.length) :
    x ++ s < y ++ t ↔ x < y ∨ x = y ∧ s < t := by
  induction x generalizing y with
  | nil =>
    obtain rfl := List.length_eq_zero_iff.mp h.symm
    simp
  | cons a x ih =>
    cases y with
    | nil => exact nomatch h
    | cons b y =>
      have hxy : x.length = y.length := by simpa using h
      simp only [List.cons_append, List.cons_lt_cons_iff, ih hxy, List.cons.injEq]
      tauto

theorem append_lt_append_of_not_isPrefix (h : ¬ x <+: y) (h' : ¬ y <+: x) : x ++ s < y ++ t ↔ x < y := by
  induction x generalizing y with
  | nil => exact absurd List.nil_prefix h
  | cons a x ih =>
    cases y with
    | nil => exact absurd List.nil_prefix h'
    | cons b y =>
      rw [List.cons_append, List.cons_append, List.cons_lt_cons_iff, List.cons_lt_cons_iff]
      refine or_congr Iff.rfl (and_congr_right fun hab => ?_)
      subst hab
      exact ih (fun hp => h (List.cons_prefix_cons.mpr ⟨rfl, hp⟩)) fun hp => h' (List.cons_prefix_cons.mpr ⟨rfl, hp⟩)

theorem append_cons_lt_iff {a b : α} (h : a ≠ b) : x ++ a :: s < x ++ b :: t ↔ a < b := by
  rw [append_lt_append_iff rfl, List.cons_lt_cons_iff]
  simp [h]

end Order

/-! ## Decimals -/

def pad : Nat → Nat → List Char
  | 0, _ => []
  | w + 1, n => pad w (n / 10) ++ [Nat.digitChar (n % 10)]

@[simp] theorem pad_length (w n : Nat) : (pad w n).length = w := by
  induction w generalizing n with
  | zero => rfl
  | succ w ih => rw [pad, List.length_append, ih, List.length_singleton]

theorem digitChar_lt {a b : Nat} (hb : b < 10) (h : a < b) : Nat.digitChar a < Nat.digitChar b := by
  have hall : ∀ b < 10, ∀ a < b, Nat.digitChar a < Nat.digitChar b := by decide
  exact hall b hb a h

theorem pad_lt {w a b : Nat} (hb : b < 10 ^ w) (h : a < b) : pad w a < pad w b := by
  induction w generalizing a b with
  | zero =>
    rw [pow_zero] at hb
    omega
  | succ w ih =>
    have hb' : b / 10 < 10 ^ w := by
      rw [pow_succ] at hb
      omega
    rw [pad, pad, append_lt_append_iff (by simp)]
    by_cases hq : a / 10 < b / 10
    · exact .inl (ih hb' hq)
    · have hq' : a / 10 = b / 10 := by omega
      refine .inr ⟨by rw [hq'], ?_⟩
      have hdigit : Nat.digitChar (a % 10) < Nat.digitChar (b % 10) := digitChar_lt (by omega) (by omega)
      exact List.cons_lt_cons_iff.mpr (.inl hdigit)

theorem isDigit_of_mem_pad {w n : Nat} {c : Char} (h : c ∈ pad w n) : '0' ≤ c ∧ c ≤ '9' := by
  induction w generalizing n with
  | zero => exact nomatch h
  | succ w ih =>
    rcases List.mem_append.mp h with h | h
    · exact ih h
    · obtain rfl := List.mem_singleton.mp h
      have hall : ∀ d < 10, '0' ≤ Nat.digitChar d ∧ Nat.digitChar d ≤ '9' := by decide
      exact hall _ (Nat.mod_lt _ (by decide))

def trim : List Char → List Char
  | [] => []
  | c :: cs => if trim cs = [] ∧ c = '0' then [] else c :: trim cs

theorem exists_trim_append (cs : List Char) : ∃ n, cs = trim cs ++ List.replicate n '0' := by
  induction cs with
  | nil => exact ⟨0, rfl⟩
  | cons c cs ih =>
    obtain ⟨n, hn⟩ := ih
    rw [trim]
    split_ifs with hdrop
    · refine ⟨n + 1, ?_⟩
      rw [hdrop.1, List.nil_append] at hn
      rw [hdrop.2, hn, List.nil_append, List.replicate_succ]
    · exact ⟨n, congrArg (c :: ·) hn⟩

theorem mem_of_mem_trim {c : Char} {cs : List Char} (h : c ∈ trim cs) : c ∈ cs := by
  obtain ⟨n, hn⟩ := exists_trim_append cs
  rw [hn]
  exact List.mem_append_left _ h

theorem replicate_le {w : List Char} (hw : ∀ c ∈ w, '0' ≤ c) : List.replicate w.length '0' ≤ w := by
  induction w with
  | nil => exact le_rfl
  | cons c w ih =>
    obtain ⟨hc, hw'⟩ := List.forall_mem_cons.mp hw
    rw [List.length_cons, List.replicate_succ, ← not_lt, List.cons_lt_cons_iff]
    rintro (hlt | ⟨-, hlt⟩)
    · exact absurd hlt (not_lt.mpr hc)
    · exact absurd hlt (not_lt.mpr (ih hw'))

section Trim
variable {x y : List Char}

/-- Digits whose significant ones begin those of others of the same length are not above them. -/
theorem le_of_trim_prefix (hlen : x.length = y.length) (hy : ∀ c ∈ y, '0' ≤ c) (h : trim x <+: trim y) : x ≤ y := by
  obtain ⟨m, hm⟩ := exists_trim_append x
  obtain ⟨n, hn⟩ := exists_trim_append y
  obtain ⟨w, hw⟩ := h
  have hyw : y = trim x ++ (w ++ List.replicate n '0') := by rw [← List.append_assoc, hw, ← hn]
  have hm' : m = (w ++ List.replicate n '0').length := by
    rw [hm, hyw] at hlen
    simp only [List.length_append, List.length_replicate] at hlen ⊢
    omega
  have hrest : List.replicate m '0' ≤ w ++ List.replicate n '0' := by
    rw [hm']
    refine replicate_le fun c hc => hy c ?_
    rw [hyw]
    exact List.mem_append_right _ hc
  rw [← not_lt, hm, hyw, append_lt_append_iff rfl]
  rintro (hlt | ⟨-, hlt⟩)
  · exact lt_irrefl _ hlt
  · exact absurd hlt (not_lt.mpr hrest)

theorem trim_lt_trim_iff (h : ¬ trim x <+: trim y) (h' : ¬ trim y <+: trim x) : trim x < trim y ↔ x < y := by
  obtain ⟨m, hm⟩ := exists_trim_append x
  obtain ⟨n, hn⟩ := exists_trim_append y
  have happend : trim x ++ List.replicate m '0' < trim y ++ List.replicate n '0' ↔ trim x < trim y :=
    append_lt_append_of_not_isPrefix h h'
  rw [← hm, ← hn] at happend
  exact happend.symm

end Trim

/-! ## The calendar -/

/-- Days from 0000-01-01 to the first of January of a year. -/
def daysBeforeYear (y : Int) : Int := 365 * y + (y + 3) / 4 - (y + 99) / 100 + (y + 399) / 400

/-- The year of a day; the mean length of a year misses it by one at most. -/
def yearOf (day : Int) : Int :=
  let y := day * 400 / 146097
  if daysBeforeYear (y + 1) ≤ day then y + 1 else if day < daysBeforeYear y then y - 1 else y

def isLeapYear (y : Int) : Bool := y % 4 = 0 ∧ (y % 100 ≠ 0 ∨ y % 400 = 0)

def monthLengths (y : Int) : List Nat :=
  [31, if isLeapYear y then 29 else 28, 31, 30, 31, 30, 31, 31, 30, 31, 30, 31]

/-- Month and day of the month of a day counted from the first of `months`. -/
def monthDay : List Nat → Nat → Nat × Nat
  | [], n => (1, n + 1)
  | l :: months, n => if n < l then (1, n + 1) else ((monthDay months (n - l)).1 + 1, (monthDay months (n - l)).2)

theorem yearOf_spec (day : Int) :
    daysBeforeYear (yearOf day) ≤ day ∧ day < daysBeforeYear (yearOf day + 1) := by
  unfold yearOf
  dsimp only
  generalize hy : day * 400 / 146097 = y
  have hyear : 146097 * y ≤ day * 400 ∧ day * 400 < 146097 * y + 146097 := by omega
  unfold daysBeforeYear
  split_ifs with habove hbelow
  · exact ⟨habove, by omega⟩
  · exact ⟨by omega, by rwa [Int.sub_add_cancel]⟩
  · exact ⟨not_lt.mp hbelow, not_le.mp habove⟩

theorem yearOf_mono {a b : Int} (h : a ≤ b) : yearOf a ≤ yearOf b := by
  have ha := (yearOf_spec a).1
  have hb := (yearOf_spec b).2
  by_contra hlt
  have hyears : daysBeforeYear (yearOf b + 1) ≤ daysBeforeYear (yearOf a) := by
    simp only [daysBeforeYear]
    omega
  omega

theorem monthDay_bounds {months : List Nat} {n : Nat} (h : n < months.sum) (hl : ∀ l ∈ months, l ≤ 31) :
    (monthDay months n).1 ≤ months.length ∧ (monthDay months n).2 ≤ 31 := by
  induction months generalizing n with
  | nil => cases h
  | cons l months ih =>
    obtain ⟨hl₀, hl'⟩ := List.forall_mem_cons.mp hl
    rw [monthDay]
    split_ifs with hn
    · exact ⟨by simp, Nat.succ_le_of_lt (hn.trans_le hl₀)⟩
    · have hrest : n - l < months.sum := by
        rw [List.sum_cons] at h
        omega
      obtain ⟨hm, hd⟩ := ih hrest hl'
      exact ⟨by simpa using hm, hd⟩

theorem monthDay_lt (months : List Nat) {m n : Nat} (h : m < n) :
    (monthDay months m).1 < (monthDay months n).1 ∨
      (monthDay months m).1 = (monthDay months n).1 ∧ (monthDay months m).2 < (monthDay months n).2 := by
  induction months generalizing m n with
  | nil => simpa [monthDay] using h
  | cons l months ih =>
    have hfirst : ∀ ls k, 1 ≤ (monthDay ls k).1 := by
      intro ls k
      cases ls with
      | nil => exact le_rfl
      | cons l' ls =>
        rw [monthDay]
        split_ifs <;> simp
    rw [monthDay, monthDay]
    split_ifs with hm hn hn
    · exact .inr ⟨rfl, by simpa using h⟩
    · exact .inl (Nat.lt_succ_of_le (hfirst _ _))
    · omega
    · have hrest := ih (m := m - l) (n := n - l) (by omega)
      simpa using hrest

/-! ## Date and time -/

def unixEpochDay : Int := 719528

/-- The date of a day of Unix time; `year` writes the year. -/
def dateText (year : Int → List Char) (day : Int) : List Char :=
  let y := yearOf (day + unixEpochDay)
  let (month, dayOfMonth) := monthDay (monthLengths y) (day + unixEpochDay - daysBeforeYear y).toNat
  year y ++ ('-' :: pad 2 month ++ ('-' :: pad 2 dayOfMonth))

def timeText (secondOfDay : Nat) : List Char :=
  pad 2 (secondOfDay / 3600) ++ (':' :: pad 2 (secondOfDay / 60 % 60) ++ (':' :: pad 2 (secondOfDay % 60)))

def dateTimeText (year : Int → List Char) (seconds : Int) : List Char :=
  dateText year (seconds / 86400) ++ ('T' :: timeText (seconds % 86400).toNat)

def yearOfSeconds (seconds : Int) : Int := yearOf (seconds / 86400 + unixEpochDay)

def fourDigits (y : Int) : List Char := pad 4 y.toNat

theorem timeText_lt {a b : Nat} (hb : b < 86400) (h : a < b) : timeText a < timeText b := by
  unfold timeText
  rw [append_lt_append_iff (by simp)]
  by_cases hh : a / 3600 < b / 3600
  · exact .inl (pad_lt (by omega) hh)
  · refine .inr ⟨by rw [show a / 3600 = b / 3600 by omega], ?_⟩
    rw [append_lt_append_iff (by simp)]
    by_cases hm : a / 60 % 60 < b / 60 % 60
    · exact .inl (List.cons_lt_cons_iff.mpr (.inr ⟨rfl, pad_lt (by omega) hm⟩))
    · refine .inr ⟨by rw [show a / 60 % 60 = b / 60 % 60 by omega], ?_⟩
      exact List.cons_lt_cons_iff.mpr (.inr ⟨rfl, pad_lt (by omega) (by omega)⟩)

theorem sum_monthLengths (y : Int) :
    ((monthLengths y).sum : Int) = daysBeforeYear (y + 1) - daysBeforeYear y := by
  unfold daysBeforeYear
  cases hleap : isLeapYear y with
  | true =>
    have hsum : (monthLengths y).sum = 366 := by rw [monthLengths, hleap]; rfl
    simp only [isLeapYear, decide_eq_true_eq] at hleap
    omega
  | false =>
    have hsum : (monthLengths y).sum = 365 := by rw [monthLengths, hleap]; rfl
    simp only [isLeapYear, decide_eq_false_iff_not] at hleap
    omega

theorem dayOfYear_lt (day : Int) :
    (day - daysBeforeYear (yearOf day)).toNat < (monthLengths (yearOf day)).sum := by
  obtain ⟨hlow, hhigh⟩ := yearOf_spec day
  have hsum := sum_monthLengths (yearOf day)
  omega

theorem monthLengths_le (y : Int) : ∀ l ∈ monthLengths y, l ≤ 31 := by
  unfold monthLengths
  split_ifs <;> decide

theorem dateText_lt {a b : Int} (hb : yearOf (b + unixEpochDay) ≤ 9999) (ha : 0 ≤ yearOf (a + unixEpochDay))
    (h : a < b) : dateText fourDigits a < dateText fourDigits b := by
  have hyears : yearOf (a + unixEpochDay) ≤ yearOf (b + unixEpochDay) := yearOf_mono (by omega)
  obtain ⟨hmonth, hday⟩ := monthDay_bounds (dayOfYear_lt (b + unixEpochDay)) (monthLengths_le _)
  have hmonth' : (monthLengths (yearOf (b + unixEpochDay))).length = 12 := rfl
  unfold dateText fourDigits
  rw [append_lt_append_iff (by simp)]
  rcases lt_or_eq_of_le hyears with hlt | heq
  · exact .inl (pad_lt (by omega) (by omega))
  · refine .inr ⟨by rw [heq], ?_⟩
    rw [heq, append_lt_append_iff (by simp)]
    have hlow := (yearOf_spec (a + unixEpochDay)).1
    rw [heq] at hlow
    rcases monthDay_lt (monthLengths (yearOf (b + unixEpochDay)))
      (m := (a + unixEpochDay - daysBeforeYear (yearOf (b + unixEpochDay))).toNat)
      (n := (b + unixEpochDay - daysBeforeYear (yearOf (b + unixEpochDay))).toNat) (by omega) with hm | ⟨hm, hd⟩
    · exact .inl (List.cons_lt_cons_iff.mpr (.inr ⟨rfl, pad_lt (by omega) hm⟩))
    · exact .inr ⟨by rw [hm], List.cons_lt_cons_iff.mpr (.inr ⟨rfl, pad_lt (by omega) hd⟩)⟩

theorem dateTimeText_length (seconds : Int) : (dateTimeText fourDigits seconds).length = 19 := by
  simp [dateTimeText, dateText, timeText, fourDigits]

/-- Up to the year 9999 date and time, written out, are ordered as the seconds are. -/
theorem dateTimeText_lt {a b : Int} (ha : 0 ≤ yearOfSeconds a) (hb : yearOfSeconds b ≤ 9999) (h : a < b) :
    dateTimeText fourDigits a < dateTimeText fourDigits b := by
  unfold dateTimeText
  rw [append_lt_append_iff (by simp [dateText, fourDigits])]
  by_cases hday : a / 86400 < b / 86400
  · exact .inl (dateText_lt hb ha hday)
  · have hday' : a / 86400 = b / 86400 := by omega
    refine .inr ⟨by rw [hday'], ?_⟩
    exact List.cons_lt_cons_iff.mpr (.inr ⟨rfl, timeText_lt (by omega) (by omega)⟩)

/-! ## RFC 3339 -/

def subsecondDigits (unixNanos : Int) : List Char := trim (pad 9 (unixNanos % 1000000000).toNat)

def subsecondText (unixNanos : Int) : List Char :=
  if subsecondDigits unixNanos = [] then [] else '.' :: subsecondDigits unixNanos

def offsetText (offsetSeconds : Int) : List Char :=
  if offsetSeconds = 0 then ['Z']
  else (if offsetSeconds < 0 then '-' else '+') ::
    pad 2 (offsetSeconds.natAbs / 3600) ++ (':' :: pad 2 (offsetSeconds.natAbs / 60 % 60))

/-- The second that the clock of an offset shows. -/
def wallSecond (unixNanos offsetSeconds : Int) : Int := unixNanos / 1000000000 + offsetSeconds

/-- What RFC 3339 can write: years of four digits and offsets of whole minutes. -/
def Rfc3339Writable (unixNanos offsetSeconds : Int) : Prop :=
  0 ≤ yearOfSeconds (wallSecond unixNanos offsetSeconds) ∧ yearOfSeconds (wallSecond unixNanos offsetSeconds) ≤ 9999 ∧
    offsetSeconds % 60 = 0 ∧ offsetSeconds.natAbs < 86400

instance (unixNanos offsetSeconds : Int) : Decidable (Rfc3339Writable unixNanos offsetSeconds) :=
  inferInstanceAs (Decidable (_ ∧ _))

/-- An instant, in nanoseconds of Unix time, in the local time of an offset. -/
def rfc3339 (unixNanos offsetSeconds : Int) : String :=
  .ofList (dateTimeText fourDigits (wallSecond unixNanos offsetSeconds) ++
    (subsecondText unixNanos ++ offsetText offsetSeconds))

example : rfc3339 1700000000500000000 0 = "2023-11-14T22:13:20.5Z" := by decide +kernel

example : rfc3339 1709164800000000000 (-34200) = "2024-02-28T14:30:00-09:30" := by decide +kernel

section Comparison
variable {a b o : Int}

theorem subsecondDigits_digit {c : Char} (h : c ∈ subsecondDigits a) : '0' ≤ c ∧ c ≤ '9' :=
  isDigit_of_mem_pad (mem_of_mem_trim h)

theorem subsecondDigits_lt_iff (h : ¬ subsecondDigits a <+: subsecondDigits b)
    (h' : ¬ subsecondDigits b <+: subsecondDigits a) :
    subsecondDigits a < subsecondDigits b ↔ a % 1000000000 < b % 1000000000 := by
  rw [subsecondDigits, subsecondDigits, trim_lt_trim_iff h h']
  constructor
  · intro hlt
    by_contra hle
    rcases Nat.lt_or_eq_of_le (show (b % 1000000000).toNat ≤ (a % 1000000000).toNat by omega) with hback | heq
    · exact absurd hlt (pad_lt (by omega) hback).not_gt
    · exact absurd hlt (heq ▸ lt_irrefl _)
  · exact fun hlt => pad_lt (by omega) (by omega)

theorem subsecond_le_of_isPrefix (h : subsecondDigits a <+: subsecondDigits b) : a % 1000000000 ≤ b % 1000000000 := by
  have hle := le_of_trim_prefix (by simp) (fun c hc => (isDigit_of_mem_pad hc).1) h
  by_contra hlt
  exact absurd hle (not_le.mpr (pad_lt (by omega) (by omega)))

theorem subsecondText_char {c : Char} (h : c ∈ subsecondText a) : '.' ≤ c ∧ c ≤ '9' := by
  unfold subsecondText at h
  split_ifs at h
  · exact nomatch h
  · rcases List.mem_cons.mp h with rfl | h
    · decide
    · exact ⟨le_trans (by decide) (subsecondDigits_digit h).1, (subsecondDigits_digit h).2⟩

theorem subsecondText_prefix (h : subsecondDigits a <+: subsecondDigits b) : subsecondText a <+: subsecondText b := by
  unfold subsecondText
  split_ifs with ha hb hb
  · exact List.prefix_rfl
  · exact List.nil_prefix
  · exact absurd (List.prefix_nil.mp (hb ▸ h)) ha
  · exact List.cons_prefix_cons.mpr ⟨rfl, h⟩

theorem offsetText_cons (ho : o ≠ 0) : ∃ c rest, offsetText o = c :: rest ∧ c ≤ '-' := by
  rw [offsetText, if_neg ho]
  split_ifs <;> exact ⟨_, _, rfl, by decide⟩

/-- The first character behind a fraction that is longer than the other. -/
theorem exists_subsecondText (h : subsecondDigits a <+: subsecondDigits b) (hne : subsecondDigits a ≠ subsecondDigits b) :
    ∃ c rest, subsecondText b = subsecondText a ++ c :: rest ∧ '.' ≤ c ∧ c ≤ '9' := by
  obtain ⟨rest, hrest⟩ := subsecondText_prefix h
  cases rest with
  | nil =>
    rw [List.append_nil] at hrest
    exfalso
    unfold subsecondText at hrest
    split_ifs at hrest with ha hb hb
    · exact hne (ha.trans hb.symm)
    · exact hne (List.cons.inj hrest).2
  | cons c rest =>
    refine ⟨c, rest, hrest.symm, subsecondText_char (a := b) ?_⟩
    rw [← hrest]
    exact List.mem_append_right _ List.mem_cons_self

/-- The texts behind the seconds, the first in any offset and the second in UTC. A fraction that ends
is followed by the offset: 'Z' stands above the digits, a sign below them. -/
theorem subsecondText_le_iff :
    subsecondText a ++ offsetText o ≤ subsecondText b ++ offsetText 0 ↔
      (a % 1000000000 < b % 1000000000 ∧ (o ≠ 0 ∨ ¬ subsecondDigits a <+: subsecondDigits b)) ∨
        subsecondDigits b <+: subsecondDigits a := by
  have hutc : offsetText 0 = ['Z'] := rfl
  by_cases hba : subsecondDigits b <+: subsecondDigits a
  · refine iff_of_true ?_ (.inr hba)
    by_cases heq : subsecondDigits b = subsecondDigits a
    · have htext : subsecondText a = subsecondText b := by rw [subsecondText, subsecondText, heq]
      rw [htext, ← not_lt, append_lt_append_iff rfl]
      rintro (hlt | ⟨-, hlt⟩)
      · exact lt_irrefl _ hlt
      · by_cases ho : o = 0
        · exact lt_irrefl _ (ho ▸ hlt)
        · obtain ⟨c, rest, hoffset, hc⟩ := offsetText_cons ho
          have hcz : c < 'Z' := hc.trans_lt (by decide)
          rw [hoffset, hutc] at hlt
          exact absurd hlt (List.cons_lt_cons_iff.mpr (.inl hcz)).not_gt
    · obtain ⟨c, rest, htext, -, hc⟩ := exists_subsecondText hba heq
      have hcz : c < 'Z' := hc.trans_lt (by decide)
      rw [htext, hutc, List.append_assoc, List.cons_append]
      exact ((append_cons_lt_iff hcz.ne).mpr hcz).le
  · by_cases hab : subsecondDigits a <+: subsecondDigits b
    · have hne : subsecondDigits a ≠ subsecondDigits b := fun heq => hba (heq ▸ List.prefix_rfl)
      have hlt : a % 1000000000 < b % 1000000000 := by
        refine lt_of_le_of_ne (subsecond_le_of_isPrefix hab) fun heq => hne ?_
        rw [subsecondDigits, subsecondDigits, heq]
      obtain ⟨c, rest, htext, hc, hc'⟩ := exists_subsecondText hab hne
      rw [htext, List.append_assoc, List.cons_append]
      by_cases ho : o = 0
      · have hcz : c < 'Z' := hc'.trans_lt (by decide)
        subst ho
        refine iff_of_false ?_ (by simp [hab, hba])
        rw [hutc, not_le]
        exact (append_cons_lt_iff hcz.ne).mpr hcz
      · obtain ⟨sign, offset, hoffset, hsign⟩ := offsetText_cons ho
        have hsc : sign < c := (hsign.trans_lt (by decide)).trans_le hc
        refine iff_of_true ?_ (.inl ⟨hlt, .inl ho⟩)
        rw [hoffset]
        exact ((append_cons_lt_iff hsc.ne).mpr hsc).le
    · -- the fractions differ in a digit
      have ha : subsecondDigits a ≠ [] := fun hnil => hab (hnil ▸ List.nil_prefix)
      have hb : subsecondDigits b ≠ [] := fun hnil => hba (hnil ▸ List.nil_prefix)
      have hdigits : subsecondDigits b ++ offsetText 0 < subsecondDigits a ++ offsetText o ↔
          b % 1000000000 < a % 1000000000 :=
        (append_lt_append_of_not_isPrefix hba hab).trans (subsecondDigits_lt_iff hba hab)
      have hne : a % 1000000000 ≠ b % 1000000000 := by
        intro heq
        have hsame : subsecondDigits a = subsecondDigits b := by rw [subsecondDigits, subsecondDigits, heq]
        exact hab (hsame ▸ List.prefix_rfl)
      rw [← not_lt, subsecondText, subsecondText, if_neg ha, if_neg hb, List.cons_append, List.cons_append,
        List.cons_lt_cons_iff]
      simp only [lt_irrefl, true_and, false_or, hdigits, hab, hba, not_false_eq_true, or_true, and_true, or_false]
      omega

/-- How the text of an instant in any offset compares with that of one in UTC. -/
theorem rfc3339_le_iff (ha : Rfc3339Writable a o) (hb : Rfc3339Writable b 0) :
    rfc3339 a o ≤ rfc3339 b 0 ↔ wallSecond a o < wallSecond b 0 ∨ wallSecond a o = wallSecond b 0 ∧
      ((a % 1000000000 < b % 1000000000 ∧ (o ≠ 0 ∨ ¬ subsecondDigits a <+: subsecondDigits b)) ∨
        subsecondDigits b <+: subsecondDigits a) := by
  obtain ⟨ha₀, ha₁, -⟩ := ha
  obtain ⟨hb₀, hb₁, -⟩ := hb
  have hlen : (dateTimeText fourDigits (wallSecond b 0)).length = (dateTimeText fourDigits (wallSecond a o)).length := by
    rw [dateTimeText_length, dateTimeText_length]
  rw [← not_lt, rfc3339, rfc3339, String.lt_iff_toList_lt, String.toList_ofList, String.toList_ofList,
    append_lt_append_iff hlen, ← subsecondText_le_iff]
  rcases lt_trichotomy (wallSecond a o) (wallSecond b 0) with h | h | h
  · have hlt : dateTimeText fourDigits (wallSecond a o) < dateTimeText fourDigits (wallSecond b 0) :=
      dateTimeText_lt ha₀ hb₁ h
    refine iff_of_true ?_ (.inl h)
    rintro (hback | ⟨heq, -⟩)
    · exact absurd hlt hback.not_gt
    · exact absurd heq hlt.ne'
  · have hsame : dateTimeText fourDigits (wallSecond b 0) = dateTimeText fourDigits (wallSecond a o) := by rw [h]
    simp [h, hsame]
  · have hlt : dateTimeText fourDigits (wallSecond b 0) < dateTimeText fourDigits (wallSecond a o) :=
      dateTimeText_lt hb₀ ha₁ h
    exact iff_of_false (not_not.mpr (.inl hlt)) (by omega)

end Comparison

end Encoding

import Fubun.Extensions.Protocol
import Mathlib.Data.String.Basic

/-! Ids as they are written: what their texts are read back as, and how the texts are ordered. -/

namespace Fubun
open Encoding Extensions

def hexDigitValue (c : Char) : Nat := if c.toNat < 0x60 then c.toNat - 0x30 else c.toNat - 0x57

def hexValue (digits : List Char) : Nat := digits.foldl (fun n c => 16 * n + hexDigitValue c) 0

def readUuid (text : String) : Option Uuid :=
  if isUuid text then some (hexValue (text.toList.filter (· ≠ '-'))) else none

theorem hexDigitValue_hexDigit (n : Nat) : hexDigitValue (hexDigit n) = n % 16 := by
  have hall : ∀ d < 16, hexDigitValue (Nat.digitChar d) = d := by decide
  exact hall _ (Nat.mod_lt _ (by decide))

theorem hexValue_hexDigits (w n : Nat) : hexValue (hexDigits w n) = n % 16 ^ w := by
  induction w generalizing n with
  | zero => simp [hexDigits, hexValue, Nat.mod_one]
  | succ w ih =>
    have hfold : hexValue (hexDigits (w + 1) n) = 16 * hexValue (hexDigits w (n / 16)) + n % 16 := by
      rw [hexDigits, hexValue, List.foldl_append, ← hexValue, List.foldl_cons, List.foldl_nil, hexDigitValue_hexDigit]
    rw [hfold, ih, pow_succ, Nat.mul_comm (16 ^ w) 16, Nat.mod_mul, Nat.add_comm]

theorem hexDigits_append (v w n : Nat) : hexDigits v (n / 16 ^ w) ++ hexDigits w n = hexDigits (v + w) n := by
  induction w generalizing n with
  | zero => simp [hexDigits]
  | succ w ih =>
    rw [hexDigits, ← List.append_assoc, pow_succ, Nat.mul_comm, ← Nat.div_div_eq_div_mul, ih, ← Nat.add_assoc, hexDigits]

theorem hexDigits_mod {v w : Nat} (h : w ≤ v) (n : Nat) : hexDigits w (n % 16 ^ v) = hexDigits w n := by
  induction w generalizing v n with
  | zero => rfl
  | succ w ih =>
    obtain ⟨v, rfl⟩ : ∃ u, v = u + 1 := ⟨v - 1, by omega⟩
    have hdiv : n % 16 ^ (v + 1) / 16 = n / 16 % 16 ^ v := by
      rw [pow_succ, Nat.mul_comm, Nat.mod_mul_right_div_self]
    have hlast : hexDigit (n % 16 ^ (v + 1)) = hexDigit n := by
      rw [hexDigit, hexDigit, Nat.mod_mod_of_dvd _ (dvd_pow_self 16 (Nat.succ_ne_zero v))]
    rw [hexDigits, hdiv, ih (by omega), hlast, hexDigits]

theorem filter_hexDigits (w n : Nat) : (hexDigits w n).filter (· ≠ '-') = hexDigits w n := by
  apply List.filter_eq_self.mpr
  intro c hc
  have hdigit : isHexDigit c = true := List.all_eq_true.mp (all_hexDigits w n) c hc
  have hne : c ≠ '-' := by
    rintro rfl
    exact absurd hdigit (by decide)
  simpa using hne

theorem hexDigits_groups (id : Uuid) : hexDigits 32 id = hexDigits 8 (id / 16 ^ 24) ++ (hexDigits 4 (id / 16 ^ 20) ++
    (hexDigits 4 (id / 16 ^ 16) ++ (hexDigits 4 (id / 16 ^ 12) ++ hexDigits 12 id))) := by
  have h₁₆ : hexDigits 4 (id / 16 ^ 12) ++ hexDigits 12 id = hexDigits 16 id := hexDigits_append 4 12 id
  have h₂₀ : hexDigits 4 (id / 16 ^ 16) ++ hexDigits 16 id = hexDigits 20 id := hexDigits_append 4 16 id
  have h₂₄ : hexDigits 4 (id / 16 ^ 20) ++ hexDigits 20 id = hexDigits 24 id := hexDigits_append 4 20 id
  rw [h₁₆, h₂₀, h₂₄]
  exact (hexDigits_append 8 24 id).symm

theorem filter_text (id : Uuid) : id.text.toList.filter (· ≠ '-') = hexDigits 32 id := by
  have hdash : ¬ decide ('-' ≠ '-') = true := by decide
  rw [Uuid.text, String.toList_ofList, hexDigits_groups]
  simp only [List.filter_append, filter_hexDigits, List.filter_cons, if_neg hdash, List.append_assoc]

theorem readUuid_text (id : Uuid) : readUuid id.text = some (id % 16 ^ 32) := by
  rw [readUuid, if_pos (isUuid_text id), filter_text, hexValue_hexDigits]

theorem text_mod (id : Uuid) : Uuid.text (id % 16 ^ 32) = id.text := by
  have hpart {w v : Nat} (h : v + w ≤ 32) : hexDigits w (id % 16 ^ 32 / 16 ^ v) = hexDigits w (id / 16 ^ v) := by
    obtain ⟨u, hu⟩ : ∃ u, 32 = v + (w + u) := ⟨32 - (v + w), by omega⟩
    rw [hu, pow_add, Nat.mod_mul_right_div_self, hexDigits_mod (Nat.le_add_right w u)]
  rw [Uuid.text, hpart (by decide), hpart (by decide), hpart (by decide), hpart (by decide), hexDigits_mod (by decide),
    Uuid.text]

theorem text_injective {id id' : Uuid} (hid : id < 16 ^ 32) (hid' : id' < 16 ^ 32) (h : id.text = id'.text) : id = id' := by
  have hread := readUuid_text id
  rw [h, readUuid_text, Nat.mod_eq_of_lt hid, Nat.mod_eq_of_lt hid'] at hread
  exact (Option.some.inj hread).symm

/-! ## Order -/

section Lists
variable {α : Type} [LinearOrder α] {l l' r r' : List α}

theorem append_lt_append (hlength : l.length = l'.length) (h : l < l') : l ++ r < l' ++ r' := by
  induction l generalizing l' with
  | nil =>
    cases l' with
    | nil => exact absurd h (lt_irrefl _)
    | cons => exact nomatch hlength
  | cons a l ih =>
    cases l' with
    | nil => exact nomatch hlength
    | cons a' l' =>
      rcases List.cons_lt_cons_iff.mp h with hhead | ⟨rfl, htail⟩
      · exact List.cons_lt_cons_iff.mpr (.inl hhead)
      · exact List.cons_lt_cons_iff.mpr (.inr ⟨rfl, ih (Nat.succ.inj hlength) htail⟩)

theorem append_cons_lt (mark : α) (hlength : l.length = l'.length) (h : l ++ r < l' ++ r') :
    l ++ mark :: r < l' ++ mark :: r' := by
  induction l generalizing l' with
  | nil =>
    cases l' with
    | nil => exact List.cons_lt_cons_iff.mpr (.inr ⟨rfl, h⟩)
    | cons => exact nomatch hlength
  | cons a l ih =>
    cases l' with
    | nil => exact nomatch hlength
    | cons a' l' =>
      rcases List.cons_lt_cons_iff.mp h with hhead | ⟨rfl, htail⟩
      · exact List.cons_lt_cons_iff.mpr (.inl hhead)
      · exact List.cons_lt_cons_iff.mpr (.inr ⟨rfl, ih (Nat.succ.inj hlength) htail⟩)

end Lists

theorem hexDigit_lt {n m : Nat} (h : n % 16 < m % 16) : hexDigit n < hexDigit m := by
  have hall : ∀ d < 16, ∀ e < 16, d < e → Nat.digitChar d < Nat.digitChar e := by decide
  exact hall _ (Nat.mod_lt _ (by decide)) _ (Nat.mod_lt _ (by decide)) h

theorem hexDigits_lt {w n m : Nat} (hm : m < 16 ^ w) (h : n < m) : hexDigits w n < hexDigits w m := by
  induction w generalizing n m with
  | zero => omega
  | succ w ih =>
    have hm' : m / 16 < 16 ^ w := by
      rw [pow_succ] at hm
      exact Nat.div_lt_of_lt_mul (by omega)
    have hlength : (hexDigits w (n / 16)).length = (hexDigits w (m / 16)).length := by
      rw [length_hexDigits, length_hexDigits]
    rw [hexDigits, hexDigits]
    rcases Nat.lt_or_eq_of_le (Nat.div_le_div_right (c := 16) h.le) with hquotient | hquotient
    · exact append_lt_append hlength (ih hm' hquotient)
    · rw [hquotient]
      apply List.append_left_lt
      exact List.cons_lt_cons_iff.mpr (.inl (hexDigit_lt (by omega)))

theorem text_lt_text {id id' : Uuid} (hid' : id' < 16 ^ 32) (h : id < id') : id.text < id'.text := by
  have hlt := hexDigits_lt hid' h
  rw [hexDigits_groups, hexDigits_groups] at hlt
  rw [String.lt_iff_toList_lt, Uuid.text, Uuid.text, String.toList_ofList, String.toList_ofList]
  simp only [List.append_assoc, List.cons_append]
  -- the dashes stand at the same places of both texts
  apply append_cons_lt _ (by simp only [length_hexDigits])
  rw [← List.append_assoc, ← List.append_assoc]
  apply append_cons_lt _ (by simp only [List.length_append, length_hexDigits])
  rw [← List.append_assoc, ← List.append_assoc]
  apply append_cons_lt _ (by simp only [List.length_append, length_hexDigits])
  rw [← List.append_assoc, ← List.append_assoc]
  apply append_cons_lt _ (by simp only [List.length_append, length_hexDigits])
  simpa only [List.append_assoc] using hlt

theorem text_le_text {id id' : Uuid} (hid : id < 16 ^ 32) (hid' : id' < 16 ^ 32) : id.text ≤ id'.text ↔ id ≤ id' := by
  rcases Nat.lt_trichotomy id id' with h | rfl | h
  · exact iff_of_true (text_lt_text hid' h).le h.le
  · exact iff_of_true le_rfl le_rfl
  · exact iff_of_false (not_le_of_gt (text_lt_text hid h)) (Nat.not_le_of_gt h)

end Fubun

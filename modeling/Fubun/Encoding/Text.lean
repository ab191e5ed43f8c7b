import Fubun.Encoding.Json
import Mathlib.Data.List.Induction

/-! Texts as bytes of UTF-8: how long they are, what a cut at a byte gives, and the integers that they write. -/

namespace Encoding

/-! ## Length -/

theorem utf8ByteSize_ofList (text : List Char) : (String.ofList text).utf8ByteSize = byteSize text := by
  induction text using List.reverseRecOn with
  | nil => rfl
  | append_singleton text c ih =>
    have hpush : String.ofList (text ++ [c]) = (String.ofList text).push c := by simp
    rw [hpush, String.utf8ByteSize_push, ih]
    simp

theorem utf8ByteSize_eq (s : String) : s.utf8ByteSize = byteSize s.toList := by
  rw [← utf8ByteSize_ofList, String.ofList_toList]

theorem length_le_byteSize (text : List Char) : text.length ≤ byteSize text := by
  induction text with
  | nil => exact Nat.le_refl 0
  | cons c text ih =>
    have hpos := c.utf8Size_pos
    simp
    omega

/-! ## Cuts -/

/-- The text up to a byte and the text behind it, unless the byte is inside a character or behind the end. -/
def splitAtByte : Nat → List Char → Option (List Char × List Char)
  | 0, text => some ([], text)
  | _ + 1, [] => none
  | n + 1, c :: text =>
    if c.utf8Size ≤ n + 1 then (splitAtByte (n + 1 - c.utf8Size) text).map fun parts => (c :: parts.1, parts.2) else none

theorem splitAtByte_cons {n : Nat} {c : Char} {text : List Char} (h : c.utf8Size ≤ n) :
    splitAtByte n (c :: text) = (splitAtByte (n - c.utf8Size) text).map fun parts => (c :: parts.1, parts.2) := by
  cases n with
  | zero => exact absurd h (Nat.not_le_of_lt c.utf8Size_pos)
  | succ n => exact if_pos h

theorem splitAtByte_append (front text : List Char) (n : Nat) :
    splitAtByte (byteSize front + n) (front ++ text) = (splitAtByte n text).map fun parts => (front ++ parts.1, parts.2) := by
  induction front with
  | nil => simp
  | cons c front ih =>
    have hrest : byteSize (c :: front) + n - c.utf8Size = byteSize front + n := by
      rw [byteSize_cons]
      omega
    rw [List.cons_append, splitAtByte_cons (by rw [byteSize_cons]; omega), hrest, ih, Option.map_map]
    rfl

theorem byteSize_snoc (text : List Char) (c : Char) : byteSize (text ++ [c]) = byteSize text + c.utf8Size := by
  simp

/-- The cut before the last byte is one between characters if the last character is a single byte. -/
theorem splitAtByte_last (text : List Char) (c : Char) :
    splitAtByte (byteSize (text ++ [c]) - 1) (text ++ [c]) = if c.utf8Size = 1 then some (text, [c]) else none := by
  have hpos := c.utf8Size_pos
  have hcut : byteSize (text ++ [c]) - 1 = byteSize text + (c.utf8Size - 1) := by
    rw [byteSize_snoc]
    omega
  rw [hcut, splitAtByte_append]
  by_cases hone : c.utf8Size = 1
  · rw [if_pos hone, hone]
    simp [splitAtByte]
  · obtain ⟨n, hn⟩ := Nat.exists_eq_add_of_lt (show 1 < c.utf8Size by omega)
    have hinside : splitAtByte (c.utf8Size - 1) [c] = none := by
      rw [show c.utf8Size - 1 = n + 1 by omega]
      exact if_neg (by omega)
    rw [if_neg hone, hinside]
    rfl

/-! ## Ends -/

def stripPrefix (front text : List Char) : Option (List Char) :=
  if front.isPrefixOf text then some (text.drop front.length) else none

def stripSuffix (text back : List Char) : Option (List Char) :=
  if back.isSuffixOf text then some (text.take (text.length - back.length)) else none

@[simp] theorem stripPrefix_append (front text : List Char) : stripPrefix front (front ++ text) = some text := by
  simp [stripPrefix]

@[simp] theorem stripSuffix_append (text back : List Char) : stripSuffix (text ++ back) back = some text := by
  simp [stripSuffix]

/-! ## Integers -/

def digit? (c : Char) : Option Nat := if '0' ≤ c ∧ c ≤ '9' then some (c.toNat - '0'.toNat) else none

def digits? (n : Nat) : List Char → Option Nat
  | [] => some n
  | c :: text => (digit? c).bind fun d => digits? (n * 10 + d) text

def integer? : List Char → Option Int
  | [] => none
  | '+' :: text => if text = [] then none else (digits? 0 text).map Int.ofNat
  | '-' :: text => if text = [] then none else (digits? 0 text).map fun n => -(Int.ofNat n)
  | text => (digits? 0 text).map Int.ofNat

example : integer? "+90".toList = some 90 := by decide

end Encoding

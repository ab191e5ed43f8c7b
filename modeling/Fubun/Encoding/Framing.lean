import Mathlib.Algebra.GroupWithZero.Nat
import Mathlib.Data.List.Infix

/-! Numbers as bytes in little endian, payloads behind their lengths, and what a part of a
concatenation holds of the pieces it is made of. -/

namespace Encoding

/-! ## Little endian -/

def littleEndian : Nat → Nat → List UInt8
  | 0, _ => []
  | width + 1, n => UInt8.ofNat n :: littleEndian width (n / 256)

def ofLittleEndian (bytes : List UInt8) : Nat := bytes.foldr (fun byte n => byte.toNat + 256 * n) 0

theorem length_littleEndian (width n : Nat) : (littleEndian width n).length = width := by
  induction width generalizing n with
  | zero => rfl
  | succ width ih => rw [littleEndian, List.length_cons, ih]

theorem ofLittleEndian_littleEndian {width n : Nat} (h : n < 256 ^ width) : ofLittleEndian (littleEndian width n) = n := by
  induction width generalizing n with
  | zero =>
    obtain rfl : n = 0 := by simpa using h
    rfl
  | succ width ih =>
    have hquotient : n / 256 < 256 ^ width := by
      apply Nat.div_lt_of_lt_mul
      rw [← Nat.pow_succ']
      exact h
    show (UInt8.ofNat n).toNat + 256 * ofLittleEndian (littleEndian width (n / 256)) = n
    rw [ih hquotient]
    exact Nat.mod_add_div n 256

/-! ## Frames -/

/-- A payload behind its length in four bytes. -/
def frame (payload : List UInt8) : List UInt8 := littleEndian 4 payload.length ++ payload

theorem length_frame (payload : List UInt8) : (frame payload).length = payload.length + 4 := by
  rw [frame, List.length_append, length_littleEndian, Nat.add_comm]

theorem frame_ne_nil (payload : List UInt8) : frame payload ≠ [] := by
  intro h
  have hlength := length_frame payload
  rw [h] at hlength
  exact nomatch hlength

theorem take_frame (payload rest : List UInt8) : (frame payload ++ rest).take 4 = littleEndian 4 payload.length := by
  rw [frame, List.append_assoc]
  exact List.take_left' (length_littleEndian 4 _)

theorem drop_frame (payload rest : List UInt8) : (frame payload ++ rest).drop 4 = payload ++ rest := by
  rw [frame, List.append_assoc]
  exact List.drop_left' (length_littleEndian 4 _)

/-! ## Parts of a concatenation -/

variable {α : Type}

/-- What a stream may hold of the pieces that are still to come: nothing, or a part of the first. -/
def IsPartial (rest : List α) : List (List α) → Prop
  | [] => rest = []
  | piece :: _ => rest <+: piece ∧ rest ≠ piece

/-- What has come of a concatenation is some of its pieces and a part of the next. -/
theorem exists_split {pieces : List (List α)} {received : List α} (h : received <+: pieces.flatten) :
    ∃ done left rest, pieces = done ++ left ∧ received = done.flatten ++ rest ∧ IsPartial rest left := by
  induction pieces generalizing received with
  | nil =>
    obtain rfl := List.prefix_nil.mp h
    exact ⟨[], [], [], rfl, rfl, rfl⟩
  | cons piece pieces ih =>
    rw [List.flatten_cons] at h
    by_cases hpiece : piece <+: received
    · obtain ⟨received, rfl⟩ := hpiece
      obtain ⟨done, left, rest, rfl, rfl, hrest⟩ := ih ((List.prefix_append_right_inj piece).mp h)
      exact ⟨piece :: done, left, rest, rfl, by rw [List.flatten_cons, List.append_assoc], hrest⟩
    · refine ⟨[], piece :: pieces, received, rfl, rfl, ?_, ?_⟩
      · exact (List.prefix_or_prefix_of_prefix h (List.prefix_append _ _)).resolve_right hpiece
      · rintro rfl
        exact hpiece (List.prefix_refl _)

theorem split_boundary {done left : List (List α)} {rest : List α} (h : IsPartial rest left) :
    (∃ k, done.flatten ++ rest = ((done ++ left).take k).flatten) ↔ rest = [] := by
  constructor
  · rintro ⟨k, hk⟩
    rcases Nat.le_total k done.length with hle | hle
    · -- what was done is no longer than its beginning
      rw [List.take_append_of_le_length hle] at hk
      have hlength := congrArg List.length hk
      have hshort : (done.take k).flatten.length ≤ done.flatten.length := by
        conv => rhs; rw [← List.take_append_drop k done, List.flatten_append, List.length_append]
        exact Nat.le_add_right _ _
      rw [List.length_append] at hlength
      exact List.eq_nil_of_length_eq_zero (by omega)
    · obtain ⟨m, rfl⟩ := Nat.exists_eq_add_of_le hle
      rw [List.take_append, List.take_of_length_le hle, List.flatten_append, List.append_cancel_left_eq,
        Nat.add_sub_cancel_left] at hk
      cases left with
      | nil => exact h
      | cons piece left =>
        cases m with
        | zero => exact hk
        | succ m =>
          rw [List.take_succ_cons, List.flatten_cons] at hk
          have hpiece : piece <+: rest := hk ▸ List.prefix_append _ _
          exact absurd (h.1.eq_of_length_le hpiece.length_le) h.2
  · rintro rfl
    exact ⟨done.length, by rw [List.append_nil, List.take_left]⟩

end Encoding

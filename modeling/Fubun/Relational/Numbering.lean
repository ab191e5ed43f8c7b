import Mathlib.Data.List.Range

/-! Rows numbered from one on, in the order in which they were inserted. A row that
goes in under a number of its own, and at most one beyond the last, is the next one. -/

namespace Relational

variable {α : Type} {number : α → Nat} {rows : List α} {row : α}

/-- The numbers of the rows are 1, 2, … without a gap or a repeat. -/
def Consecutive (number : α → Nat) (rows : List α) : Prop := rows.map number = List.range' 1 rows.length

theorem numbered_nil : Consecutive number [] := rfl

theorem Consecutive.bounds (h : Consecutive number rows) (hrow : row ∈ rows) :
    1 ≤ number row ∧ number row ≤ rows.length := by
  have hm : number row ∈ List.range' 1 rows.length := h ▸ List.mem_map_of_mem hrow
  rw [List.mem_range'_1] at hm
  omega

theorem Consecutive.taken (h : Consecutive number rows) {n : Nat} (hpos : 1 ≤ n) (hle : n ≤ rows.length) :
    ∃ row ∈ rows, number row = n := by
  have hm : n ∈ rows.map number := by
    rw [h, List.mem_range'_1]
    omega
  exact List.mem_map.mp hm

theorem Consecutive.append (h : Consecutive number rows) (hrow : number row = rows.length + 1) :
    Consecutive number (rows ++ [row]) := by
  unfold Consecutive at h ⊢
  rw [List.map_append, h, List.length_append, List.length_singleton, List.range'_concat]
  simp [hrow, Nat.add_comm]

/-- A number that follows that of a row and is not taken is the next one. -/
theorem Consecutive.next (h : Consecutive number rows) {last : α} {n : Nat} (hlast : last ∈ rows)
    (hpos : 1 ≤ n) (hle : n ≤ number last + 1) (hfree : ∀ row ∈ rows, number row ≠ n) :
    n = rows.length + 1 := by
  have hbound := (h.bounds hlast).2
  by_contra hne
  obtain ⟨row, hm, hrow⟩ := h.taken hpos (by omega : n ≤ rows.length)
  exact hfree row hm hrow

theorem Consecutive.last (h : Consecutive number rows) (hlast : rows.getLast? = some row) :
    number row = rows.length := by
  obtain ⟨init, rfl⟩ := List.getLast?_eq_some_iff.mp hlast
  unfold Consecutive at h
  rw [List.map_append, List.length_append, List.length_singleton, List.range'_concat] at h
  have heq := List.append_inj_right' h rfl
  simpa [Nat.add_comm] using heq

end Relational

import Fubun.Relational.Table

/-! A transaction statement by statement: they run on a working copy, which is committed after the last
of them and dropped on an error. -/

namespace Relational

variable {DB ε : Type}

/-- The statements on the working copy, and the commit; the one that `fault` counts down to is lost. -/
def workOn (lost : ε) : List (DB → Except ε DB) → Option Nat → DB → Except ε DB
  | _, some 0, _ => .error lost
  | [], _, work => .ok work
  | statement :: statements, fault, work =>
    statement work >>= workOn lost statements (fault.map (· - 1))

/-- A transaction that is not committed is rolled back when it is dropped. -/
def transact (lost : ε) (statements : List (DB → Except ε DB)) (fault : Option Nat) (db : DB) : Except ε Unit × DB :=
  match workOn lost statements fault db with
  | .ok work => (.ok (), work)
  | .error e => (.error e, db)

variable {lost e : ε} {statements : List (DB → Except ε DB)} {fault : Option Nat} {db db' work : DB}

theorem workOn_ok (h : workOn lost statements fault db = .ok work) : statements.foldlM (fun db f => f db) db = .ok work := by
  induction statements generalizing fault db with
  | nil =>
    rcases fault with _ | _ | n
    · exact h
    · exact nomatch h
    · exact h
  | cons statement statements ih =>
    rw [List.foldlM_cons]
    rcases fault with _ | _ | n
    · obtain ⟨mid, hmid, hrest⟩ := bind_eq_ok.mp h
      exact bind_eq_ok.mpr ⟨mid, hmid, ih hrest⟩
    · exact nomatch h
    · obtain ⟨mid, hmid, hrest⟩ := bind_eq_ok.mp h
      exact bind_eq_ok.mpr ⟨mid, hmid, ih hrest⟩

theorem workOn_none (h : statements.foldlM (fun db f => f db) db = .ok work) : workOn lost statements none db = .ok work := by
  induction statements generalizing db with
  | nil => exact h
  | cons statement statements ih =>
    rw [List.foldlM_cons] at h
    obtain ⟨mid, hmid, hrest⟩ := bind_eq_ok.mp h
    exact bind_eq_ok.mpr ⟨mid, hmid, ih hrest⟩

theorem transact_none (h : statements.foldlM (fun db f => f db) db = .ok work) :
    transact lost statements none db = (.ok (), work) := by
  rw [transact, workOn_none h]

theorem transact_ok (h : transact lost statements fault db = (.ok (), db')) :
    statements.foldlM (fun db f => f db) db = .ok db' := by
  unfold transact at h
  split at h
  · rename_i work hwork
    obtain ⟨-, rfl⟩ := Prod.mk.inj h
    exact workOn_ok hwork
  · exact nomatch (Prod.mk.inj h).1

theorem transact_error (h : transact lost statements fault db = (.error e, db')) : db' = db := by
  unfold transact at h
  split at h
  · exact nomatch (Prod.mk.inj h).1
  · exact ((Prod.mk.inj h).2).symm

end Relational

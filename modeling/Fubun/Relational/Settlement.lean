import Mathlib.Data.List.Nodup

/-! Promises that are settled at most once: some are pending and some were settled, and all of them
were made before. -/

namespace Relational

variable {α : Type}

structure Settles (made : α → Prop) (pending settled : List α) : Prop where
  nodup : (pending ++ settled).Nodup
  made : ∀ x ∈ pending ++ settled, made x

namespace Settles
variable {made made' : α → Prop} {pending pending' settled : List α} {x : α}

theorem nil (made : α → Prop) : Settles made [] [] := ⟨List.nodup_nil, fun _ h => nomatch h⟩

theorem mono (h : Settles made pending settled) (hmade : ∀ x, made x → made' x) : Settles made' pending settled :=
  ⟨h.nodup, fun x hx => hmade x (h.made x hx)⟩

theorem perm (h : Settles made pending settled) (hperm : pending'.Perm pending) : Settles made pending' settled where
  nodup := (hperm.append_right settled).nodup_iff.mpr h.nodup
  made := fun x hx => h.made x ((hperm.append_right settled).mem_iff.mp hx)

theorem shrink (h : Settles made pending settled) (hsub : pending'.Sublist pending) : Settles made pending' settled where
  nodup := h.nodup.sublist (hsub.append_right settled)
  made := fun x hx => h.made x ((hsub.append_right settled).subset hx)

theorem fresh (h : Settles made pending settled) (hx : ¬ made x) : x ∉ pending ++ settled :=
  fun hmem => hx (h.made x hmem)

theorem add (h : Settles made pending settled) (hmade : made x) (hx : x ∉ pending ++ settled) :
    Settles made (pending ++ [x]) settled := by
  have hnew : Settles made (x :: pending) settled :=
    ⟨List.nodup_cons.mpr ⟨hx, h.nodup⟩, List.forall_mem_cons.mpr ⟨hmade, h.made⟩⟩
  exact hnew.perm (List.perm_append_singleton x pending)

theorem settle (h : Settles made pending settled) (hmade : made x) (hx : x ∉ pending ++ settled) :
    Settles made pending (settled ++ [x]) where
  nodup := by
    rw [← List.append_assoc]
    refine List.nodup_append.mpr ⟨h.nodup, List.nodup_singleton x, fun y hy z hz heq => hx ?_⟩
    have hyx : y = x := heq.trans (List.mem_singleton.mp hz)
    exact hyx ▸ hy
  made := by
    intro y hy
    rw [← List.append_assoc] at hy
    rcases List.mem_append.mp hy with hy | hy
    · exact h.made y hy
    · exact List.mem_singleton.mp hy ▸ hmade

theorem finish (h : Settles made pending settled) (hsub : pending'.Sublist pending) (hx : x ∈ pending)
    (hx' : x ∉ pending') : Settles made pending' (settled ++ [x]) := by
  apply (h.shrink hsub).settle (h.made x (List.mem_append_left _ hx))
  intro hmem
  rcases List.mem_append.mp hmem with hmem | hmem
  · exact hx' hmem
  · exact (List.nodup_append.mp h.nodup).2.2 x hx x hmem rfl

theorem finishAll (h : Settles made pending settled) : Settles made [] (settled ++ pending) := by
  have hcomm : (pending ++ settled).Perm (settled ++ pending) := List.perm_append_comm
  exact ⟨hcomm.nodup_iff.mp h.nodup, fun x hx => h.made x (hcomm.mem_iff.mpr hx)⟩

theorem once (h : Settles made pending settled) : settled.Nodup := (List.nodup_append.mp h.nodup).2.1

end Settles
end Relational

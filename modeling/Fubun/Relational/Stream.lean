import Mathlib.Data.List.Basic

/-! Streams that grow at their end: what holds of each entry after those before it, and numbers that
are counted up under one key at a time. -/

namespace Relational

variable {α κ : Type}

/-- Each entry of a stream stands in `P` to what came before it. -/
def Follows (P : List α → α → Prop) (stream : List α) : Prop :=
  ∀ before x after, stream = before ++ x :: after → P before x

namespace Follows
variable {P : List α → α → Prop} {stream : List α}

theorem nil : Follows P [] := fun before x after h => by simp at h

theorem imp {Q : List α → α → Prop} (h : Follows P stream) (hPQ : ∀ x ∈ stream, ∀ before, P before x → Q before x) :
    Follows Q stream := by
  rintro before x after rfl
  exact hPQ x (List.mem_append_right _ List.mem_cons_self) before (h before x after rfl)

theorem snoc (h : Follows P stream) {x : α} (hx : P stream x) : Follows P (stream ++ [x]) := by
  intro before y after heq
  rcases List.eq_nil_or_concat after with rfl | ⟨after, z, rfl⟩
  · obtain ⟨rfl, hxy⟩ := List.append_inj' heq rfl
    obtain rfl := List.singleton_inj.mp hxy
    exact hx
  · have hsplit : stream ++ [x] = before ++ y :: after ++ [z] := by
      rw [heq, List.concat_eq_append, List.append_assoc, List.cons_append]
    have hstream := (List.append_inj' hsplit rfl).1
    exact h before y after hstream

theorem append (h : Follows P stream) {more : List α} (hmore : ∀ x ∈ more, ∀ before, P before x) :
    Follows P (stream ++ more) := by
  induction more generalizing stream with
  | nil => rwa [List.append_nil]
  | cons x more ih =>
    obtain ⟨hx, hmore⟩ := List.forall_mem_cons.mp hmore
    have hone := h.snoc (hx stream)
    rw [← List.singleton_append, ← List.append_assoc]
    exact ih hone hmore

end Follows

section Counting
variable [DecidableEq κ]

def numbersOf (k : κ) (stream : List (κ × ℕ)) : List ℕ := stream.filterMap fun x => if x.1 = k then some x.2 else none

theorem numbersOf_append (k : κ) (stream more : List (κ × ℕ)) :
    numbersOf k (stream ++ more) = numbersOf k stream ++ numbersOf k more := List.filterMap_append

theorem numbersOf_self (k : κ) (n : ℕ) : numbersOf k [(k, n)] = [n] := by simp [numbersOf]

theorem numbersOf_other {k l : κ} (h : l ≠ k) (n : ℕ) : numbersOf k [(l, n)] = [] := by simp [numbersOf, h]

theorem mem_numbersOf {k : κ} {stream : List (κ × ℕ)} {n : ℕ} : n ∈ numbersOf k stream ↔ (k, n) ∈ stream := by
  constructor
  · intro h
    obtain ⟨⟨l, m⟩, hx, heq⟩ := List.mem_filterMap.mp h
    dsimp only at heq
    split_ifs at heq with hk
    obtain rfl := Option.some.inj heq
    exact hk ▸ hx
  · exact fun h => List.mem_filterMap.mpr ⟨(k, n), h, if_pos rfl⟩

/-- A counter at `next` that numbers a stream, under the key `current` when there is one. -/
structure Counted (stream : List (κ × ℕ)) (current : Option κ) (next : ℕ) : Prop where
  increasing : ∀ k, (numbersOf k stream).Pairwise (· < ·)
  positive : ∀ k, ∀ n ∈ numbersOf k stream, 0 < n
  below : ∀ k, current = some k → ∀ n ∈ numbersOf k stream, n < next
  next_pos : 0 < next

namespace Counted
variable {stream : List (κ × ℕ)} {current : Option κ} {next : ℕ} {k : κ}

theorem nil (current : Option κ) : Counted ([] : List (κ × ℕ)) current 1 where
  increasing := fun _ => List.Pairwise.nil
  positive := fun _ _ h => nomatch h
  below := fun _ _ _ h => nomatch h
  next_pos := Nat.one_pos

theorem skip (h : Counted stream current next) : Counted stream current (next + 1) :=
  { h with
    below := fun k hk n hn => Nat.lt_succ_of_lt (h.below k hk n hn)
    next_pos := Nat.succ_pos next }

theorem drop (h : Counted stream current next) : Counted stream none next :=
  { h with below := fun _ hk => nomatch hk }

theorem restart (h : Counted stream current next) (hk : ∀ x ∈ stream, x.1 ≠ k) : Counted stream (some k) 1 where
  increasing := h.increasing
  positive := h.positive
  below := by
    rintro l ⟨⟩ n hn
    exact absurd rfl (hk (k, n) (mem_numbersOf.mp hn))
  next_pos := Nat.one_pos

theorem emit (h : Counted stream (some k) next) : Counted (stream ++ [(k, next)]) (some k) (next + 1) where
  increasing := by
    intro l
    rw [numbersOf_append]
    by_cases hl : k = l
    · subst hl
      rw [numbersOf_self]
      apply List.pairwise_append.mpr
      refine ⟨h.increasing k, List.pairwise_singleton _ next, ?_⟩
      intro n hn m hm
      rw [List.mem_singleton.mp hm]
      exact h.below k rfl n hn
    · rw [numbersOf_other hl, List.append_nil]
      exact h.increasing l
  positive := by
    intro l n hn
    rcases List.mem_append.mp (mem_numbersOf.mp hn) with hn | hn
    · exact h.positive l n (mem_numbersOf.mpr hn)
    · obtain ⟨-, rfl⟩ := Prod.mk.inj (List.mem_singleton.mp hn)
      exact h.next_pos
  below := by
    rintro l ⟨⟩ n hn
    rcases List.mem_append.mp (mem_numbersOf.mp hn) with hn | hn
    · exact Nat.lt_succ_of_lt (h.below k rfl n (mem_numbersOf.mpr hn))
    · obtain ⟨-, rfl⟩ := Prod.mk.inj (List.mem_singleton.mp hn)
      exact Nat.lt_succ_self n
  next_pos := Nat.succ_pos next

end Counted
end Counting

/-! ## Numbers that wait -/

/-- Numbers that are taken from a counter, and are used in the same order or not at all. -/
structure Issued (used waiting : List ℕ) (next : ℕ) : Prop where
  increasing : (used ++ waiting).Pairwise (· < ·)
  below : ∀ n ∈ used ++ waiting, n < next

namespace Issued
variable {used waiting waiting' : List ℕ} {next n : ℕ}

theorem nil (next : ℕ) : Issued [] [] next := ⟨List.Pairwise.nil, fun _ h => nomatch h⟩

theorem skip (h : Issued used waiting next) : Issued used waiting (next + 1) :=
  { h with below := fun n hn => Nat.lt_succ_of_lt (h.below n hn) }

theorem take (h : Issued used waiting next) : Issued used (waiting ++ [next]) (next + 1) where
  increasing := by
    rw [← List.append_assoc]
    apply List.pairwise_append.mpr
    refine ⟨h.increasing, List.pairwise_singleton _ next, ?_⟩
    intro n hn m hm
    rw [List.mem_singleton.mp hm]
    exact h.below n hn
  below := by
    intro n hn
    rw [← List.append_assoc] at hn
    rcases List.mem_append.mp hn with hn | hn
    · exact Nat.lt_succ_of_lt (h.below n hn)
    · rw [List.mem_singleton.mp hn]
      exact Nat.lt_succ_self next

theorem use (h : Issued used (n :: waiting) next) : Issued (used ++ [n]) waiting next := by
  have hsame : used ++ [n] ++ waiting = used ++ n :: waiting := by rw [List.append_assoc, List.singleton_append]
  constructor
  · rw [hsame]
    exact h.increasing
  · rw [hsame]
    exact h.below

theorem discard (h : Issued used waiting next) (hsub : waiting'.Sublist waiting) : Issued used waiting' next where
  increasing := h.increasing.sublist (hsub.append_left used)
  below := fun n hn => h.below n ((hsub.append_left used).subset hn)

end Issued
end Relational

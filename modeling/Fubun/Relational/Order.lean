import Fubun.Relational.Table

/-! Where a row stands in an ordered selection, and when two ordered selections of one table
begin with the same rows. -/

namespace Relational

variable {α : Type}

/-- An order of rows in which no two rows of the table are equal. -/
structure LinearOn (le : α → α → Bool) (rows : List α) : Prop where
  total : ∀ a b, le a b = true ∨ le b a = true
  trans : ∀ a b c, le a b = true → le b c = true → le a c = true
  antisymm : ∀ a ∈ rows, ∀ b ∈ rows, le a b = true → le b a = true → a = b

/-- The place of `d` among the rows that `p` selects: how many of them come before it. -/
def rank (le : α → α → Bool) (p : α → Bool) (rows : List α) (d : α) : Nat :=
  rows.countP fun e => p e && ! le d e

section Rank
variable {le le' : α → α → Bool} {p q : α → Bool} {rows L : List α} {d : α} {k n : Nat}

theorem LinearOn.filter (h : LinearOn le rows) : LinearOn le (rows.filter p) where
  total := h.total
  trans := h.trans
  antisymm a ha b hb := h.antisymm a (List.mem_filter.mp ha).1 b (List.mem_filter.mp hb).1

theorem LinearOn.refl (h : LinearOn le rows) (a : α) : le a a = true := (h.total a a).elim id id

theorem LinearOn.sorted (h : LinearOn le rows) : (orderBy le rows).Pairwise fun a b => le a b = true := by
  have htotal : Std.Total fun a b => le a b = true := ⟨h.total⟩
  have htrans : IsTrans α fun a b => le a b = true := ⟨h.trans⟩
  exact List.pairwise_insertionSort (fun a b => le a b = true) rows

theorem head?_orderBy (h : LinearOn le rows) :
    (orderBy le rows).head? = some d ↔ d ∈ rows ∧ ∀ e ∈ rows, le d e = true := by
  have hsorted := h.sorted
  cases hrows : orderBy le rows with
  | nil =>
    have hnone : ∀ e, e ∉ rows := by
      intro e he
      have hmem : e ∈ orderBy le rows := mem_orderBy.mpr he
      rw [hrows] at hmem
      exact nomatch hmem
    exact iff_of_false nofun fun hd => hnone d hd.1
  | cons first rest =>
    have hfirst : first ∈ rows := mem_orderBy.mp (hrows ▸ List.mem_cons_self)
    have hleast : ∀ e ∈ rows, le first e = true := by
      intro e he
      have hmem : e ∈ first :: rest := hrows ▸ mem_orderBy.mpr he
      rcases List.mem_cons.mp hmem with rfl | hrest
      · exact h.refl _
      · rw [hrows] at hsorted
        exact List.rel_of_pairwise_cons hsorted hrest
    rw [List.head?_cons, Option.some.injEq]
    constructor
    · rintro rfl
      exact ⟨hfirst, hleast⟩
    · rintro ⟨hd, hall⟩
      exact h.antisymm first hfirst d hd (hleast d hd) (hall first hfirst)

theorem pairwise_orderBy (h : LinearOn le rows) (hnodup : rows.Nodup) :
    (orderBy le rows).Pairwise fun a b => le b a = false := by
  have hsorted := h.sorted
  have hdistinct : (orderBy le rows).Nodup := (List.perm_insertionSort _ rows).nodup_iff.mpr hnodup
  refine List.Pairwise.imp_of_mem ?_ (hsorted.and hdistinct)
  rintro a b ha hb ⟨hab, hne⟩
  by_contra hba
  exact hne (h.antisymm a (mem_orderBy.mp ha) b (mem_orderBy.mp hb) hab (by simpa using hba))

/-- In an ordered list a row stands where its predecessors put it. -/
theorem getElem?_of_pairwise (hrefl : ∀ a, le a a = true) (htotal : ∀ a b, le a b = true ∨ le b a = true)
    (h : L.Pairwise fun a b => le b a = false) :
    L[k]? = some d ↔ d ∈ L ∧ L.countP (! le d ·) = k := by
  induction L generalizing k with
  | nil => simp
  | cons x xs ih =>
    obtain ⟨hx, hxs⟩ := List.pairwise_cons.mp h
    -- no row precedes the first, and the first precedes every later one
    have hfirst : (x :: xs).countP (! le x ·) = 0 := by
      refine List.countP_eq_zero.mpr fun y hy => ?_
      rcases List.mem_cons.mp hy with rfl | hy
      · simp [hrefl]
      · simp [(htotal x y).resolve_right (by simp [hx y hy])]
    have hlater : ∀ y ∈ xs, (x :: xs).countP (! le y ·) = xs.countP (! le y ·) + 1 := by
      intro y hy
      rw [List.countP_cons, if_pos (by simp [hx y hy])]
    have hnot : x ∉ xs := fun hmem => nomatch (hrefl x).symm.trans (hx x hmem)
    cases k with
    | zero =>
      rw [List.getElem?_cons_zero, Option.some.injEq]
      constructor
      · rintro rfl
        exact ⟨List.mem_cons_self, hfirst⟩
      · rintro ⟨hd, hcount⟩
        rcases List.mem_cons.mp hd with rfl | hd
        · rfl
        · exact nomatch (hlater d hd).symm.trans hcount
    | succ k =>
      rw [List.getElem?_cons_succ, ih hxs]
      constructor
      · rintro ⟨hd, hcount⟩
        exact ⟨List.mem_cons_of_mem _ hd, by rw [hlater d hd, hcount]⟩
      · rintro ⟨hd, hcount⟩
        rcases List.mem_cons.mp hd with rfl | hd
        · exact nomatch hfirst.symm.trans hcount
        · exact ⟨hd, by rw [hlater d hd] at hcount; omega⟩

theorem getElem?_orderBy (h : LinearOn le rows) (hnodup : rows.Nodup) :
    (orderBy le (rows.filter p))[k]? = some d ↔ d ∈ rows ∧ p d = true ∧ rank le p rows d = k := by
  have hpairwise := pairwise_orderBy (h.filter (p := p)) (hnodup.filter p)
  rw [getElem?_of_pairwise h.refl h.total hpairwise, mem_orderBy, List.mem_filter, and_assoc]
  have hcount : (orderBy le (rows.filter p)).countP (! le d ·) = rank le p rows d := by
    rw [orderBy, (List.perm_insertionSort _ _).countP_eq, List.countP_filter, rank]
    refine List.countP_congr fun e _ => ?_
    rw [Bool.and_comm]
  rw [hcount]

theorem length_orderBy_filter : (orderBy le (rows.filter p)).length = rows.countP p := by
  rw [orderBy, List.length_insertionSort, List.countP_eq_length_filter]

theorem take_orderBy_perm (h : LinearOn le rows) (hnodup : rows.Nodup) :
    ((orderBy le (rows.filter p)).take n).Perm (rows.filter fun d => p d && decide (rank le p rows d < n)) := by
  have hordered : (orderBy le (rows.filter p)).Nodup :=
    (List.perm_insertionSort _ _).nodup_iff.mpr (hnodup.filter p)
  refine (List.perm_ext_iff_of_nodup (hordered.sublist (List.take_sublist ..)) (hnodup.filter _)).mpr fun d => ?_
  rw [List.mem_filter, Bool.and_eq_true, decide_eq_true_iff, List.mem_iff_getElem?]
  constructor
  · rintro ⟨k, hk⟩
    rw [List.getElem?_take] at hk
    split_ifs at hk with hlt
    obtain ⟨hd, hp, hrank⟩ := (getElem?_orderBy h hnodup).mp hk
    exact ⟨hd, hp, hrank ▸ hlt⟩
  · rintro ⟨hd, hp, hrank⟩
    refine ⟨rank le p rows d, ?_⟩
    rw [List.getElem?_take_of_lt hrank]
    exact (getElem?_orderBy h hnodup).mpr ⟨hd, hp, rfl⟩

theorem rank_le (h : LinearOn le rows) {e : α} (hed : le e d = true) : rank le p rows e ≤ rank le p rows d := by
  refine List.countP_mono_left fun x _ hx => ?_
  obtain ⟨hp, hbefore⟩ := Bool.and_eq_true_iff.mp hx
  have hxd : le d x ≠ true := by
    intro hdx
    simp [h.trans e d x hed hdx] at hbefore
  simp [hp, hxd]

/-- `p` and `le` treat the first `n` rows that `q` and `le'` select as those do: a row that is due
has the same rows before it, and where fewer than `n` are due `p` selects no others. -/
structure AgreeUpTo (n : Nat) (rows : List α) (p q : α → Bool) (le le' : α → α → Bool) : Prop where
  due : ∀ d ∈ rows, q d = true → rank le' q rows d < n →
    p d = true ∧ ∀ e ∈ rows, (p e = true ∧ le d e = false) ↔ (q e = true ∧ le' d e = false)
  others : rows.countP q < n → ∀ e ∈ rows, p e = true → q e = true

theorem before_iff (h : LinearOn le rows) (hnodup : rows.Nodup)
    (hd : (orderBy le (rows.filter p))[k]? = some d) (e : α) :
    (e ∈ rows ∧ p e = true ∧ le d e = false) ↔
      ∃ j < k, (orderBy le (rows.filter p))[j]? = some e := by
  have hpairwise := pairwise_orderBy (h.filter (p := p)) (hnodup.filter p)
  have hindex := List.pairwise_iff_getElem.mp hpairwise
  obtain ⟨hk, hd'⟩ := List.getElem?_eq_some_iff.mp hd
  constructor
  · rintro ⟨he, hp, hlt⟩
    refine ⟨rank le p rows e, ?_, (getElem?_orderBy h hnodup).mpr ⟨he, hp, rfl⟩⟩
    obtain ⟨hj, he'⟩ := List.getElem?_eq_some_iff.mp ((getElem?_orderBy h hnodup).mpr ⟨he, hp, rfl⟩)
    by_contra hle
    rcases Nat.lt_or_eq_of_le (Nat.le_of_not_lt hle) with hlt' | heq
    · have hback := hindex k _ hk hj hlt'
      rw [hd', he'] at hback
      exact absurd ((h.total e d).resolve_left (by simp [hback])) (by simp [hlt])
    · have hsame : d = e := by
        subst heq
        exact hd'.symm.trans he'
      subst hsame
      rw [h.refl] at hlt
      exact nomatch hlt
  · rintro ⟨j, hjk, he⟩
    obtain ⟨hmem, hp, -⟩ := (getElem?_orderBy h hnodup).mp he
    obtain ⟨hj, he'⟩ := List.getElem?_eq_some_iff.mp he
    have hlt := hindex j k hj hk hjk
    rw [hd', he'] at hlt
    exact ⟨hmem, hp, hlt⟩

/-- Two ordered selections begin with the same `n` rows exactly when they agree on those. -/
theorem take_orderBy_eq_iff (h : LinearOn le rows) (h' : LinearOn le' rows) (hnodup : rows.Nodup) :
    (orderBy le (rows.filter p)).take n = (orderBy le' (rows.filter q)).take n ↔
      AgreeUpTo n rows p q le le' := by
  constructor
  · intro heq
    have hsame : ∀ k < n, (orderBy le (rows.filter p))[k]? = (orderBy le' (rows.filter q))[k]? := by
      intro k hk
      rw [← List.getElem?_take_of_lt hk, heq, List.getElem?_take_of_lt hk]
    constructor
    · intro d hd hq hrank
      have hplace := (getElem?_orderBy h' hnodup).mpr ⟨hd, hq, rfl⟩
      have hplace' := (hsame _ hrank).trans hplace
      refine ⟨((getElem?_orderBy h hnodup).mp hplace').2.1, fun e he => ?_⟩
      have hbefore := before_iff h hnodup hplace' e
      have hbefore' := before_iff h' hnodup hplace e
      have hplaces : (∃ j < rank le' q rows d, (orderBy le (rows.filter p))[j]? = some e) ↔
          ∃ j < rank le' q rows d, (orderBy le' (rows.filter q))[j]? = some e := by
        refine exists_congr fun j => and_congr_right fun hj => ?_
        rw [hsame j (hj.trans hrank)]
      have hiff := hbefore.trans (hplaces.trans hbefore'.symm)
      simpa [he] using hiff
    · intro hfew e he hp
      have hlength : (orderBy le (rows.filter p)).length ≤ rows.countP q := by
        by_contra hlong
        have hnone : (orderBy le' (rows.filter q))[rows.countP q]? = none :=
          List.getElem?_eq_none (by rw [length_orderBy_filter])
        have hsome := hsame _ hfew
        rw [hnone, List.getElem?_eq_none_iff] at hsome
        exact hlong hsome
      have hplace := (getElem?_orderBy h hnodup).mpr ⟨he, hp, rfl⟩
      obtain ⟨hk, -⟩ := List.getElem?_eq_some_iff.mp hplace
      rw [hsame _ (by omega)] at hplace
      exact ((getElem?_orderBy h' hnodup).mp hplace).2.1
  · intro hagree
    have hcarry : ∀ k < n, ∀ d, (orderBy le' (rows.filter q))[k]? = some d →
        (orderBy le (rows.filter p))[k]? = some d := by
      intro k hk d hplace
      obtain ⟨hd, hq, hrank⟩ := (getElem?_orderBy h' hnodup).mp hplace
      obtain ⟨hp, hbefore⟩ := hagree.due d hd hq (hrank ▸ hk)
      refine (getElem?_orderBy h hnodup).mpr ⟨hd, hp, ?_⟩
      rw [← hrank]
      refine List.countP_congr fun e he => ?_
      simpa using hbefore e he
    refine List.ext_getElem? fun k => ?_
    by_cases hk : k < n
    · rw [List.getElem?_take_of_lt hk, List.getElem?_take_of_lt hk]
      cases hplace : (orderBy le' (rows.filter q))[k]? with
      | some d => exact hcarry k hk d hplace
      | none =>
        -- past the due rows there are none that `p` selects either
        have hend := List.getElem?_eq_none_iff.mp hplace
        rw [length_orderBy_filter] at hend
        have hsub : rows.countP p ≤ rows.countP q :=
          List.countP_mono_left fun e he hp => hagree.others (by omega) e he hp
        exact List.getElem?_eq_none (by rw [length_orderBy_filter]; omega)
    · rw [List.getElem?_eq_none (by simp; omega), List.getElem?_eq_none (by simp; omega)]

end Rank
end Relational

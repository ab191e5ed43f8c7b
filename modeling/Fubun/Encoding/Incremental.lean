import Mathlib.Data.List.Basic
import Mathlib.Data.List.Infix

/-! Decoders that take what a stream holds so far and go on when there is more: where the values of a
stream end, and what comes out of it in which division. -/

namespace Encoding

variable {α β : Type}

/-- What stands at the front of a buffer, and how much of the buffer it takes to tell. -/
inductive Next (α : Type) where
  | more
  | malformed (size : Nat)
  | value (size : Nat) (v : α)

def Next.upTo (n : Nat) : Next α → Next α
  | .more => .more
  | .malformed size => if size ≤ n then .malformed size else .more
  | .value size v => if size ≤ n then .value size v else .more

/-- A decoder that tells of a buffer what it will tell when more has come. -/
structure Incremental (β α : Type) where
  next : List β → Next α
  next_prefix : ∀ l r, next l = (next (l ++ r)).upTo l.length
  value_pos : ∀ l size v, next l = .value size v → 0 < size

namespace Incremental
variable {D : Incremental β α} {buffer rest stream : List β} {size : Nat} {v : α} {n offset : Nat} {values : List α}

/-! ## The front of a buffer -/

theorem size_le_of_value (h : D.next buffer = .value size v) : size ≤ buffer.length := by
  have hself := D.next_prefix buffer []
  rw [List.append_nil, h, Next.upTo] at hself
  split_ifs at hself with hle
  exact hle

theorem size_le_of_malformed (h : D.next buffer = .malformed size) : size ≤ buffer.length := by
  have hself := D.next_prefix buffer []
  rw [List.append_nil, h, Next.upTo] at hself
  split_ifs at hself with hle
  exact hle

theorem next_append_value (h : D.next buffer = .value size v) (rest : List β) : D.next (buffer ++ rest) = .value size v := by
  have hprefix := D.next_prefix buffer rest
  rw [h] at hprefix
  cases hnext : D.next (buffer ++ rest) with
  | more => rw [hnext] at hprefix; exact nomatch hprefix
  | malformed size' =>
    rw [hnext, Next.upTo] at hprefix
    split_ifs at hprefix
  | value size' v' =>
    rw [hnext, Next.upTo] at hprefix
    split_ifs at hprefix
    exact hprefix.symm

theorem length_drop_lt (h : D.next buffer = .value size v) : (buffer.drop size).length < buffer.length := by
  have hpos := D.value_pos buffer size v h
  have hle := size_le_of_value h
  rw [List.length_drop]
  omega

/-! ## Draining -/

variable (D) in
def drain (buffer : List β) : Option (List α × List β) :=
  match _h : D.next buffer with
  | .more => some ([], buffer)
  | .malformed _ => none
  | .value size v => (drain (buffer.drop size)).map fun rest => (v :: rest.1, rest.2)
termination_by buffer.length
decreasing_by exact length_drop_lt _h

theorem drain_more (h : D.next buffer = .more) : D.drain buffer = some ([], buffer) := by
  rw [drain]
  split <;> simp_all

theorem drain_malformed (h : D.next buffer = .malformed size) : D.drain buffer = none := by
  rw [drain]
  split <;> simp_all

theorem drain_value (h : D.next buffer = .value size v) :
    D.drain buffer = (D.drain (buffer.drop size)).map fun rest => (v :: rest.1, rest.2) := by
  rw [drain]
  split <;> simp_all

theorem drain_append (h : D.drain buffer = some (values, rest)) (more : List β) :
    D.drain (buffer ++ more) = (D.drain (rest ++ more)).map fun last => (values ++ last.1, last.2) := by
  induction hlength : buffer.length using Nat.strong_induction_on generalizing buffer values with
  | _ length ih =>
    cases hnext : D.next buffer with
    | more =>
      rw [drain_more hnext] at h
      obtain ⟨rfl, rfl⟩ := Prod.mk.inj (Option.some.inj h)
      simp
    | malformed size =>
      rw [drain_malformed hnext] at h
      exact nomatch h
    | value size v =>
      rw [drain_value hnext] at h
      obtain ⟨⟨values, rest⟩, hrest, heq⟩ := Option.map_eq_some_iff.mp h
      obtain ⟨rfl, rfl⟩ := Prod.mk.inj heq
      have hmore := ih _ (hlength ▸ length_drop_lt hnext) hrest rfl
      rw [drain_value (next_append_value hnext more), List.drop_append_of_le_length (size_le_of_value hnext), hmore,
        Option.map_map]
      rfl

/-! ## The layout of a stream -/

variable (D) in
/-- Where the values of a stream end, and where it is malformed. -/
def layout (offset : Nat) (stream : List β) : List (Nat × α) × Option Nat :=
  match _h : D.next stream with
  | .more => ([], none)
  | .malformed size => ([], some (offset + size))
  | .value size v => ((offset + size, v) :: (layout (offset + size) (stream.drop size)).1, (layout (offset + size) (stream.drop size)).2)
termination_by stream.length
decreasing_by all_goals exact length_drop_lt _h

theorem layout_more (h : D.next stream = .more) : D.layout offset stream = ([], none) := by
  rw [layout]
  split <;> simp_all

theorem layout_malformed (h : D.next stream = .malformed size) : D.layout offset stream = ([], some (offset + size)) := by
  rw [layout]
  split <;> simp_all

theorem layout_value (h : D.next stream = .value size v) : D.layout offset stream =
    ((offset + size, v) :: (D.layout (offset + size) (stream.drop size)).1, (D.layout (offset + size) (stream.drop size)).2) := by
  rw [layout]
  split <;> simp_all

theorem layout_within (offset : Nat) (stream : List β) :
    (∀ e ∈ (D.layout offset stream).1, offset < e.1 ∧ e.1 ≤ offset + stream.length) ∧
      ∀ p, (D.layout offset stream).2 = some p → offset ≤ p ∧ p ≤ offset + stream.length := by
  induction hlength : stream.length using Nat.strong_induction_on generalizing offset stream with
  | _ length ih =>
    subst hlength
    cases hnext : D.next stream with
    | more =>
      rw [layout_more hnext]
      exact ⟨nofun, nofun⟩
    | malformed size =>
      have hle := size_le_of_malformed hnext
      rw [layout_malformed hnext]
      refine ⟨nofun, fun p hp => ?_⟩
      obtain rfl := Option.some.inj hp
      omega
    | value size v =>
      -- a value takes something, so that the rest is shorter
      have hpos := D.value_pos stream size v hnext
      have hle := size_le_of_value hnext
      obtain ⟨hends, hmalformed⟩ := ih _ (length_drop_lt hnext) (offset + size) _ rfl
      rw [List.length_drop] at hends hmalformed
      rw [layout_value hnext]
      constructor
      · intro e he
        rcases List.mem_cons.mp he with rfl | he
        · exact ⟨Nat.lt_add_of_pos_right hpos, Nat.add_le_add_left hle offset⟩
        · have hbounds := hends e he
          omega
      · intro p hp
        have hbounds := hmalformed p hp
        omega

/-- What a beginning of the stream gives: the values that end in it, unless it reaches the place where the stream is
malformed. -/
theorem drain_prefix (buffer rest : List β) (offset : Nat) : (D.drain buffer).map Prod.fst =
    if ∃ p, (D.layout offset (buffer ++ rest)).2 = some p ∧ p ≤ offset + buffer.length then none
    else some (((D.layout offset (buffer ++ rest)).1.filter (·.1 ≤ offset + buffer.length)).map Prod.snd) := by
  induction hlength : buffer.length using Nat.strong_induction_on generalizing buffer offset with
  | _ length ih =>
    subst hlength
    have hprefix := D.next_prefix buffer rest
    cases hnext : D.next (buffer ++ rest) with
    | more =>
      rw [hnext, Next.upTo] at hprefix
      rw [drain_more hprefix, layout_more hnext, if_neg (fun ⟨_, hp, _⟩ => nomatch hp)]
      rfl
    | malformed size =>
      rw [hnext, Next.upTo] at hprefix
      rw [layout_malformed hnext]
      split_ifs at hprefix with hsize
      · rw [drain_malformed hprefix, if_pos ⟨_, rfl, Nat.add_le_add_left hsize offset⟩]
        rfl
      · have hlate : ¬ ∃ p, some (offset + size) = some p ∧ p ≤ offset + buffer.length := by
          rintro ⟨p, hp, hle⟩
          obtain rfl := Option.some.inj hp
          omega
        rw [drain_more hprefix, if_neg hlate]
        rfl
    | value size v =>
      rw [hnext, Next.upTo] at hprefix
      rw [layout_value hnext]
      split_ifs at hprefix with hsize
      · have hend : offset + size + (buffer.drop size).length = offset + buffer.length := by
          rw [List.length_drop]
          omega
        have hrest := ih _ (length_drop_lt hprefix) (buffer.drop size) (offset + size) rfl
        rw [hend] at hrest
        have hcons : (D.drain buffer).map Prod.fst = ((D.drain (buffer.drop size)).map Prod.fst).map (v :: ·) := by
          rw [drain_value hprefix, Option.map_map, Option.map_map]
          rfl
        have hfirst : decide (offset + size ≤ offset + buffer.length) = true := decide_eq_true (Nat.add_le_add_left hsize offset)
        rw [hcons, hrest, List.drop_append_of_le_length hsize]
        dsimp only
        rw [List.filter_cons, if_pos hfirst]
        split_ifs <;> rfl
      · -- the front is not there yet, and all that follows ends behind it
        obtain ⟨hends, hmalformed⟩ := layout_within (D := D) (offset + size) ((buffer ++ rest).drop size)
        have hlate : ¬ ∃ p, (D.layout (offset + size) ((buffer ++ rest).drop size)).2 = some p ∧ p ≤ offset + buffer.length := by
          rintro ⟨p, hp, hle⟩
          have hbound := hmalformed p hp
          omega
        have hnone : ((offset + size, v) :: (D.layout (offset + size) ((buffer ++ rest).drop size)).1).filter
            (fun e => decide (e.1 ≤ offset + buffer.length)) = [] := by
          apply List.filter_eq_nil_iff.mpr
          intro e he hle
          have hle := of_decide_eq_true hle
          rcases List.mem_cons.mp he with rfl | he
          · exact hsize (by omega)
          · have hbound := hends e he
            omega
        rw [drain_more hprefix, if_neg hlate, hnone]
        rfl

/-! ## Divisions -/

variable (D) in
/-- What the chunks give one after another, and whether one of them fails; a chunk that fails gives nothing. -/
def returned (buffer : List β) : List (List β) → List α × Bool
  | [] => ([], false)
  | chunk :: chunks =>
    match D.drain (buffer ++ chunk) with
    | none => ([], true)
    | some (values, buffer) => (values ++ (returned buffer chunks).1, (returned buffer chunks).2)

/-- How much comes before the chunk that brings the stream to `n`. -/
def fedBefore : Nat → List (List β) → Nat
  | _, [] => 0
  | n, chunk :: chunks => if n ≤ chunk.length then 0 else chunk.length + fedBefore (n - chunk.length) chunks

/-- What chunks behind `fed` give of a stream with this layout. -/
def given (layout : List (Nat × α) × Option Nat) (fed : Nat) (chunks : List (List β)) : List α × Bool :=
  match layout.2 with
  | none => (layout.1.map Prod.snd, false)
  | some p => ((layout.1.filter (·.1 ≤ fed + fedBefore (p - fed) chunks)).map Prod.snd, true)

theorem given_none {layout : List (Nat × α) × Option Nat} (h : layout.2 = none) (fed : Nat) (chunks : List (List β)) :
    given layout fed chunks = (layout.1.map Prod.snd, false) := by
  rw [given, h]

theorem given_some {layout : List (Nat × α) × Option Nat} {p : Nat} (h : layout.2 = some p) (fed : Nat) (chunks : List (List β)) :
    given layout fed chunks = ((layout.1.filter (·.1 ≤ fed + fedBefore (p - fed) chunks)).map Prod.snd, true) := by
  rw [given, h]

theorem returned_eq {fed : List β} {chunks : List (List β)} (hfed : D.drain fed = some (values, buffer)) :
    (values ++ (D.returned buffer chunks).1, (D.returned buffer chunks).2) =
      given (D.layout 0 (fed ++ chunks.flatten)) fed.length chunks := by
  induction chunks generalizing fed values buffer with
  | nil =>
    obtain ⟨hends, hmalformed⟩ := layout_within (D := D) 0 fed
    have hgiven := drain_prefix (D := D) fed [] 0
    rw [List.append_nil, hfed] at hgiven
    rw [List.flatten_nil, List.append_nil, returned, List.append_nil]
    cases hp : (D.layout 0 fed).2 with
    | none =>
      have hall : (D.layout 0 fed).1.filter (fun e => decide (e.1 ≤ 0 + fed.length)) = (D.layout 0 fed).1 :=
        List.filter_eq_self.mpr fun e he => decide_eq_true (hends e he).2
      rw [hp, if_neg (fun ⟨_, hsome, _⟩ => nomatch hsome), hall] at hgiven
      rw [given_none hp]
      exact Prod.ext (Option.some.inj hgiven) rfl
    | some p =>
      rw [if_pos ⟨p, hp, (hmalformed p hp).2⟩] at hgiven
      exact nomatch hgiven
  | cons chunk chunks ih =>
    have hstream : fed ++ (chunk :: chunks).flatten = fed ++ chunk ++ chunks.flatten := by
      rw [List.flatten_cons, List.append_assoc]
    have hbefore := drain_prefix (D := D) fed (chunk :: chunks).flatten 0
    have hmore := drain_prefix (D := D) (fed ++ chunk) chunks.flatten 0
    rw [hfed, Nat.zero_add] at hbefore
    rw [drain_append hfed, ← hstream, List.length_append, Nat.zero_add] at hmore
    rw [returned]
    cases hdrain : D.drain (buffer ++ chunk) with
    | none =>
      rw [hdrain] at hmore
      split_ifs at hmore with hreached
      -- the stream turns out malformed within this chunk, which gives nothing
      · split_ifs at hbefore with hearlier
        · exact nomatch hbefore
        · obtain ⟨p, hp, hle⟩ := hreached
          have hzero : fedBefore (p - fed.length) (chunk :: chunks) = 0 := if_pos (by omega)
          rw [given_some hp, hzero]
          exact Prod.ext ((List.append_nil _).trans (Option.some.inj hbefore)) rfl
      · exact nomatch hmore
    | some drained =>
      obtain ⟨more, buffer'⟩ := drained
      have hnext : D.drain (fed ++ chunk) = some (values ++ more, buffer') := by
        rw [drain_append hfed, hdrain]
        rfl
      -- the chunk gives what ends in it, and the others go on from there
      have hrest := ih hnext
      rw [← hstream] at hrest
      rw [hdrain] at hmore
      split_ifs at hmore with hreached
      · exact nomatch hmore
      · dsimp only
        rw [← List.append_assoc, hrest]
        cases hp : (D.layout 0 (fed ++ (chunk :: chunks).flatten)).2 with
        | none => rw [given_none hp, given_none hp]
        | some p =>
          have hlate : ¬ p ≤ fed.length + chunk.length := fun hle => hreached ⟨p, hp, hle⟩
          have hsplit : fedBefore (p - fed.length) (chunk :: chunks) =
              chunk.length + fedBefore (p - fed.length - chunk.length) chunks := if_neg (by omega)
          rw [given_some hp, given_some hp, hsplit, List.length_append, Nat.sub_sub, Nat.add_assoc]

theorem returned_nil (hnil : D.next [] = .more) (chunks : List (List β)) :
    D.returned [] chunks = given (D.layout 0 chunks.flatten) 0 chunks := by
  have h : ([] ++ (D.returned [] chunks).1, (D.returned [] chunks).2) =
      given (D.layout 0 ([] ++ chunks.flatten)) ([] : List β).length chunks := returned_eq (drain_more hnil)
  rwa [List.nil_append, List.nil_append] at h

theorem filter_eq_iff {l : List α} {p q : α → Bool} : l.filter p = l.filter q ↔ ∀ x ∈ l, p x = q x := by
  constructor
  · intro h x hx
    have hmem : x ∈ l.filter p ↔ x ∈ l.filter q := by rw [h]
    rw [List.mem_filter, List.mem_filter] at hmem
    exact Bool.eq_iff_iff.mpr ⟨fun hp => (hmem.mp ⟨hx, hp⟩).2, fun hq => (hmem.mpr ⟨hx, hq⟩).2⟩
  · exact List.filter_congr

/-- Two divisions of one stream give the same just when no value ends between the chunks in which they fail. -/
theorem returned_eq_iff {chunks chunks' : List (List β)} (h : chunks.flatten = chunks'.flatten) (hnil : D.next [] = .more) :
    D.returned [] chunks = D.returned [] chunks' ↔ ∀ p, (D.layout 0 chunks.flatten).2 = some p →
      ∀ e ∈ (D.layout 0 chunks.flatten).1, (e.1 ≤ fedBefore p chunks ↔ e.1 ≤ fedBefore p chunks') := by
  rw [returned_nil hnil chunks, returned_nil hnil chunks', ← h]
  cases hp : (D.layout 0 chunks.flatten).2 with
  | none =>
    rw [given_none hp, given_none hp]
    exact iff_of_true rfl nofun
  | some p =>
    have hsublist : ∀ {l : List (Nat × α)} {m m' : Nat}, m ≤ m' →
        (l.filter fun e => decide (e.1 ≤ m)).Sublist (l.filter fun e => decide (e.1 ≤ m')) := fun hle =>
      List.monotone_filter_right _ fun e he => decide_eq_true ((of_decide_eq_true he).trans hle)
    rw [given_some hp, given_some hp, Nat.zero_add, Nat.zero_add, Nat.sub_zero, Prod.mk.injEq, and_iff_left rfl]
    have hfilter : ((D.layout 0 chunks.flatten).1.filter fun e => decide (e.1 ≤ fedBefore p chunks)) =
        ((D.layout 0 chunks.flatten).1.filter fun e => decide (e.1 ≤ fedBefore p chunks')) ↔
        ∀ e ∈ (D.layout 0 chunks.flatten).1, (e.1 ≤ fedBefore p chunks ↔ e.1 ≤ fedBefore p chunks') := by
      rw [filter_eq_iff]
      simp only [decide_eq_decide]
    constructor
    · intro hvalues q hq
      obtain rfl := Option.some.inj hq
      have hlength := congrArg List.length hvalues
      rw [List.length_map, List.length_map] at hlength
      -- the values that end before one place are among those that end before a later one
      rcases Nat.le_total (fedBefore p chunks) (fedBefore p chunks') with hle | hle
      · exact hfilter.mp ((hsublist hle).eq_of_length hlength)
      · exact hfilter.mp ((hsublist hle).eq_of_length hlength.symm).symm
    · intro hall
      rw [hfilter.mpr (hall p rfl)]

end Incremental
end Encoding

import Mathlib.Data.List.Sort

/-! Tables as lists of rows, and the commands of one database connection. A
transaction commits as a whole or changes nothing; the statements of a command
commit one by one, so that a fault can leave a command half done. -/

namespace Relational

variable {DB ε α β κ : Type}

theorem bind_eq_ok {x : Except ε α} {f : α → Except ε β} {b : β} :
    x >>= f = .ok b ↔ ∃ a, x = .ok a ∧ f a = .ok b := by
  cases x with
  | error e => exact ⟨fun h => (nomatch h), fun ⟨_, h, _⟩ => nomatch h⟩
  | ok a => exact ⟨fun h => ⟨a, rfl, h⟩, fun ⟨_, h, hf⟩ => Except.ok.inj h ▸ hf⟩

def require (holds : Bool) (e : ε) : Except ε Unit := if holds then .ok () else .error e

theorem require_eq_ok {b : Bool} {e : ε} {u : Unit} : require b e = .ok u ↔ b = true := by
  cases b <;> simp [require]

/-! ## Rows -/

def insertRow (clash : α → α → Bool) (e : ε) (rows : List α) (row : α) : Except ε (List α) :=
  if rows.any (clash · row) then .error e else .ok (rows ++ [row])

def insertRows (clash : α → α → Bool) (e : ε) : List α → List α → Except ε (List α)
  | rows, [] => .ok rows
  | rows, row :: more => insertRow clash e rows row >>= fun rows' => insertRows clash e rows' more

def updateRows (p : α → Bool) (f : α → α) (rows : List α) : List α :=
  rows.map fun x => if p x then f x else x

def deleteRows (p : α → Bool) (rows : List α) : List α := rows.filter (! p ·)

/-- `ON CONFLICT DO UPDATE`: `f` goes over the present row, else the row is new. -/
def upsertRow (p : α → Bool) (f : α → α) (row : α) (rows : List α) : List α :=
  if rows.any p then updateRows p f rows else rows ++ [row]

/-- `ORDER BY`, as a stable sort. -/
def orderBy (le : α → α → Bool) (rows : List α) : List α := rows.insertionSort (le · · = true)

section Rows
variable {clash : α → α → Bool} {e : ε} {rows rows' : List α} {row x : α} {p : α → Bool} {f : α → α}

theorem insertRow_eq_ok : insertRow clash e rows row = .ok rows' ↔
    (∀ y ∈ rows, clash y row = false) ∧ rows' = rows ++ [row] := by
  unfold insertRow
  split_ifs with h
  · simp only [List.any_eq_true] at h
    obtain ⟨y, hy, hc⟩ := h
    exact ⟨fun h' => (nomatch h'), fun h' => nomatch hc.symm.trans (h'.1 y hy)⟩
  · have hc : ∀ y ∈ rows, clash y row = false := by simpa using h
    exact ⟨fun h' => ⟨hc, (Except.ok.inj h').symm⟩, fun h' => congrArg _ h'.2.symm⟩

theorem insertRows_eq_ok {more : List α} (h : insertRows clash e rows more = .ok rows') :
    rows' = rows ++ more := by
  induction more generalizing rows with
  | nil => simpa using (Except.ok.inj h).symm
  | cons row more ih =>
    obtain ⟨mid, hmid, hmore⟩ := bind_eq_ok.mp h
    rw [ih hmore, (insertRow_eq_ok.mp hmid).2, List.append_assoc, List.singleton_append]

theorem insertRows_ok {more : List α} (h : ∀ y ∈ rows, ∀ z ∈ more, clash y z = false)
    (hmore : more.Pairwise fun y z => clash y z = false) :
    insertRows clash e rows more = .ok (rows ++ more) := by
  induction more generalizing rows with
  | nil => rw [List.append_nil]; rfl
  | cons row more ih =>
    obtain ⟨hrow, hmore⟩ := List.pairwise_cons.mp hmore
    have hfirst : insertRow clash e rows row = .ok (rows ++ [row]) :=
      insertRow_eq_ok.mpr ⟨fun y hy => h y hy row List.mem_cons_self, rfl⟩
    have hrest : insertRows clash e (rows ++ [row]) more = .ok (rows ++ [row] ++ more) := by
      refine ih (fun y hy z hz => ?_) hmore
      rcases List.mem_append.mp hy with hy | hy
      · exact h y hy z (List.mem_cons_of_mem _ hz)
      · exact List.mem_singleton.mp hy ▸ hrow z hz
    rw [insertRows, hfirst]
    rw [List.append_assoc] at hrest
    exact hrest

theorem mem_updateRows : x ∈ updateRows p f rows ↔ ∃ y ∈ rows, (if p y then f y else y) = x :=
  List.mem_map

theorem mem_deleteRows : x ∈ deleteRows p rows ↔ x ∈ rows ∧ p x = false := by
  simp [deleteRows]

theorem mem_upsertRow_const (h : x ∈ upsertRow p (fun _ => row) row rows) : x ∈ rows ∨ x = row := by
  unfold upsertRow at h
  split_ifs at h
  · obtain ⟨y, hy, rfl⟩ := List.mem_map.mp h
    split_ifs
    · exact .inr rfl
    · exact .inl hy
  · exact (List.mem_append.mp h).imp_right List.mem_singleton.mp

theorem mem_orderBy {le : α → α → Bool} : x ∈ orderBy le rows ↔ x ∈ rows :=
  List.mem_insertionSort _

/-- An update that does not touch what a selection looks at commutes with it. -/
theorem filter_updateRows {q : α → Bool} (hf : ∀ y, q (f y) = q y) :
    (updateRows p f rows).filter q = updateRows p f (rows.filter q) := by
  induction rows with
  | nil => rfl
  | cons y ys ih =>
    have hy : q (if p y then f y else y) = q y := by
      split_ifs
      · exact hf y
      · rfl
    simp only [updateRows, List.map_cons, List.filter_cons, hy] at ih ⊢
    by_cases hq : q y = true
    · rw [if_pos hq, if_pos hq, List.map_cons, ih]
    · rw [if_neg hq, if_neg hq, ih]

theorem updateRows_of_forall_not (h : ∀ y ∈ rows, p y = false) : updateRows p f rows = rows := by
  refine (List.map_congr_left fun y hy => ?_).trans (List.map_id rows)
  simp [h y hy]

theorem filter_updateRows_of_not {q : α → Bool} (hf : ∀ y, q (f y) = q y)
    (h : ∀ y ∈ rows, q y = true → p y = false) : (updateRows p f rows).filter q = rows.filter q := by
  rw [filter_updateRows hf]
  exact updateRows_of_forall_not fun y hy => h y (List.mem_filter.mp hy).1 (List.mem_filter.mp hy).2

theorem filter_deleteRows_of_not {q : α → Bool} (h : ∀ y ∈ rows, q y = true → p y = false) :
    (deleteRows p rows).filter q = rows.filter q := by
  rw [deleteRows, List.filter_filter]
  refine List.filter_congr fun y hy => ?_
  cases hq : q y with
  | false => rfl
  | true => rw [h y hy hq]; rfl

theorem map_updateRows {g : α → κ} (hf : ∀ y, g (f y) = g y) :
    (updateRows p f rows).map g = rows.map g := by
  simp only [updateRows, List.map_map]
  refine List.map_congr_left fun y _ => ?_
  simp only [Function.comp_apply]
  split_ifs <;> simp [hf]

theorem find?_updateRows {q : α → Bool} (hf : ∀ y, q (f y) = q y) :
    (updateRows p f rows).find? q = (rows.find? q).map fun x => if p x then f x else x := by
  have hq : (q ∘ fun x => if p x then f x else x) = q := by
    funext y
    simp only [Function.comp_apply]
    split_ifs
    · exact hf y
    · rfl
  rw [updateRows, List.find?_map, hq]

end Rows

/-! ## Keys -/

def Keyed (key : α → κ) (rows : List α) : Prop := (rows.map key).Nodup

section Keys
variable {clash : α → α → Bool} {e : ε} {key : α → κ} {rows rows' more : List α} {row x y : α}
  {p : α → Bool} {f : α → α}

theorem keyed_nil : Keyed key ([] : List α) := List.nodup_nil

theorem Keyed.eq (h : Keyed key rows) (hx : x ∈ rows) (hy : y ∈ rows) (hk : key x = key y) : x = y :=
  List.inj_on_of_nodup_map h hx hy hk

theorem Keyed.insert (h : Keyed key rows) (hrow : ∀ y ∈ rows, key y ≠ key row) :
    Keyed key (rows ++ [row]) := by
  rw [Keyed, List.map_append, List.map_singleton]
  refine List.nodup_append.mpr ⟨h, List.nodup_singleton _, ?_⟩
  intro k hk k' hk'
  obtain ⟨y, hy, rfl⟩ := List.mem_map.mp hk
  obtain rfl := List.mem_singleton.mp hk'
  exact hrow y hy

theorem Keyed.insertRows (h : Keyed key rows) (hclash : ∀ a b, clash a b = false → key a ≠ key b)
    (hins : Relational.insertRows clash e rows more = .ok rows') : Keyed key rows' := by
  induction more generalizing rows with
  | nil => exact Except.ok.inj hins ▸ h
  | cons row more ih =>
    obtain ⟨mid, hmid, hmore⟩ := bind_eq_ok.mp hins
    obtain ⟨hrow, rfl⟩ := insertRow_eq_ok.mp hmid
    exact ih (h.insert fun y hy => hclash y row (hrow y hy)) hmore

theorem Keyed.update (h : Keyed key rows) (hf : ∀ y, key (f y) = key y) :
    Keyed key (updateRows p f rows) := by
  rw [Keyed, map_updateRows hf]
  exact h

theorem Keyed.update_eq [DecidableEq κ] (h : Keyed key rows) (hrow : row ∈ rows) :
    updateRows (key · == key row) f rows = rows.map fun x => if key x = key row then f row else x := by
  apply List.map_congr_left
  intro x hx
  simp only [beq_iff_eq]
  split_ifs with hkey
  · rw [h.eq hx hrow hkey]
  · rfl

theorem Keyed.delete (h : Keyed key rows) : Keyed key (deleteRows p rows) :=
  h.sublist (List.filter_sublist.map key)

/-- Up to their order, the rows of a table after a row was put under its key. -/
theorem Keyed.upsertRow_perm [BEq κ] [LawfulBEq κ] (h : Keyed key rows) (row : α) :
    (upsertRow (key · == key row) (fun _ => row) row rows).Perm (deleteRows (key · == key row) rows ++ [row]) := by
  induction rows with
  | nil => exact .refl _
  | cons y ys ih =>
    obtain ⟨hy, hys⟩ := List.nodup_cons.mp h
    by_cases hk : key y = key row
    · have hother : ∀ z ∈ ys, (key z == key row) = false :=
        fun z hz => beq_false_of_ne fun hz' => hy (hk.trans hz'.symm ▸ List.mem_map_of_mem hz)
      have hupdate : updateRows (key · == key row) (fun _ => row) ys = ys :=
        (List.map_congr_left fun z hz => by simp [hother z hz]).trans (List.map_id ys)
      have hdelete : deleteRows (key · == key row) ys = ys :=
        List.filter_eq_self.mpr fun z hz => by simp [hother z hz]
      have hset : upsertRow (key · == key row) (fun _ => row) row (y :: ys) = row :: ys := by
        simp [upsertRow, updateRows, hk]
        exact hupdate
      have hdel : deleteRows (key · == key row) (y :: ys) = ys := by
        simpa [deleteRows, hk] using hdelete
      rw [hset, hdel]
      exact (List.perm_append_singleton row ys).symm
    · have hset : upsertRow (key · == key row) (fun _ => row) row (y :: ys) =
          y :: upsertRow (key · == key row) (fun _ => row) row ys := by
        simp only [upsertRow, List.any_cons, beq_false_of_ne hk, Bool.false_or]
        split_ifs <;> simp [updateRows, hk]
      have hdel : deleteRows (key · == key row) (y :: ys) = y :: deleteRows (key · == key row) ys := by
        simp [deleteRows, hk]
      rw [hset, hdel]
      exact (ih hys).cons y

theorem Keyed.find?_eq_some [BEq κ] [LawfulBEq κ] (h : Keyed key rows) {k : κ} :
    rows.find? (key · == k) = some x ↔ x ∈ rows ∧ key x = k := by
  constructor
  · intro hf
    exact ⟨List.mem_of_find?_eq_some hf, by simpa using List.find?_some hf⟩
  · rintro ⟨hx, hk⟩
    cases hf : rows.find? (key · == k) with
    | none =>
      have hnone := List.find?_eq_none.mp hf x hx
      exact absurd hk (by simpa using hnone)
    | some y =>
      have hy : key y = k := by simpa using List.find?_some hf
      rw [h.eq (List.mem_of_find?_eq_some hf) hx (hy.trans hk.symm)]

theorem Keyed.filter_eq [BEq κ] [LawfulBEq κ] (h : Keyed key rows) {k : κ} (hrow : row ∈ rows) (hk : key row = k) :
    rows.filter (fun x => key x == k) = [row] := by
  induction rows with
  | nil => exact nomatch hrow
  | cons y ys ih =>
    obtain ⟨hy, hys⟩ := List.nodup_cons.mp h
    rcases List.mem_cons.mp hrow with rfl | hmem
    · have hnone : ys.filter (fun x => key x == k) = [] := by
        apply List.filter_eq_nil_iff.mpr
        intro z hz heq
        have hkey : key z = key row := (beq_iff_eq.mp heq).trans hk.symm
        exact hy (hkey ▸ List.mem_map_of_mem hz)
      rw [List.filter_cons, if_pos (beq_iff_eq.mpr hk), hnone]
    · have hne : ¬ (key y == k) = true := by
        intro heq
        have hkey : key row = key y := hk.trans (beq_iff_eq.mp heq).symm
        exact hy (hkey ▸ List.mem_map_of_mem hmem)
      rw [List.filter_cons, if_neg hne]
      exact ih hys hmem

/-- A selection is the part of the table, in its order, that has the same rows. -/
theorem Keyed.filter_of_sublist (h : Keyed key rows) (hsub : more.Sublist rows)
    (hp : ∀ x ∈ rows, p x = true ↔ x ∈ more) : rows.filter p = more := by
  induction hsub with
  | slnil => rfl
  | @cons more ys y hsub ih =>
    obtain ⟨hy, hys⟩ := List.nodup_cons.mp h
    have hleft : ¬ p y = true := by
      rw [hp y List.mem_cons_self]
      exact fun hmem => hy (List.mem_map_of_mem (hsub.subset hmem))
    rw [List.filter_cons_of_neg hleft]
    exact ih hys fun x hx => hp x (List.mem_cons_of_mem _ hx)
  | @cons_cons more ys y hsub ih =>
    obtain ⟨hy, hys⟩ := List.nodup_cons.mp h
    rw [List.filter_cons_of_pos ((hp y List.mem_cons_self).mpr List.mem_cons_self)]
    refine congrArg _ (ih hys fun x hx => ?_)
    have hne : x ≠ y := fun heq => hy (heq ▸ List.mem_map_of_mem hx)
    rw [hp x (List.mem_cons_of_mem _ hx), List.mem_cons]
    exact or_iff_right hne

end Keys

/-! ## Commands -/

abbrev Transaction (DB ε α : Type) := DB → Except ε (α × DB)

def query (f : DB → Except ε α) : Transaction DB ε α := fun db => (f db).map (·, db)

/-- An open connection; the statement that `fault` counts down to will fail. -/
structure Connection (DB : Type) where
  db : DB
  fault : Option Nat

def Command (DB ε α : Type) := Connection DB → Except ε α × Connection DB

namespace Command

instance : Monad (Command DB ε) where
  pure a := fun c => (.ok a, c)
  bind m f := fun c =>
    match m c with
    | (.ok a, c') => f a c'
    | (.error e, c') => (.error e, c')

def fail (e : ε) : Command DB ε α := fun c => (.error e, c)

/-- Commit one statement or one transaction; `lost` is the error of a fault. -/
def statement (lost : ε) (t : Transaction DB ε α) : Command DB ε α := fun c =>
  if c.fault = some 0 then (.error lost, { c with fault := none })
  else
    match t c.db with
    | .ok (a, db) => (.ok a, ⟨db, c.fault.map (· - 1)⟩)
    | .error e => (.error e, { c with fault := c.fault.map (· - 1) })

variable {c c' : Connection DB} {lost e : ε} {t : Transaction DB ε α} {a : α}

@[simp] theorem pure_apply : (pure a : Command DB ε α) c = (.ok a, c) := rfl

@[simp] theorem fail_apply : (fail e : Command DB ε α) c = (.error e, c) := rfl

theorem bind_apply (m : Command DB ε α) (f : α → Command DB ε β) :
    (m >>= f) c = match m c with
      | (.ok a, c') => f a c'
      | (.error e, c') => (.error e, c') := rfl

theorem bind_ok {m : Command DB ε α} {f : α → Command DB ε β} {b : β} :
    (m >>= f) c = (.ok b, c') ↔ ∃ a c₁, m c = (.ok a, c₁) ∧ f a c₁ = (.ok b, c') := by
  rw [bind_apply]
  constructor
  · intro h
    split at h
    · exact ⟨_, _, ‹_›, h⟩
    · exact nomatch (Prod.mk.inj h).1
  · rintro ⟨a, c₁, hm, hf⟩
    rw [hm]
    exact hf

/-- A failing sequence fails in its first part or, with that part done, in its second. -/
theorem bind_error {m : Command DB ε α} {f : α → Command DB ε β}
    (h : (m >>= f) c = (.error e, c')) :
    m c = (.error e, c') ∨ ∃ a c₁, m c = (.ok a, c₁) ∧ f a c₁ = (.error e, c') := by
  rw [bind_apply] at h
  split at h
  · exact .inr ⟨_, _, ‹_›, h⟩
  · rename_i e' c₁ hm
    obtain ⟨he, rfl⟩ := Prod.mk.inj h
    cases he
    exact .inl hm

theorem statement_ok (h : statement lost t c = (.ok a, c')) :
    t c.db = .ok (a, c'.db) ∧ c'.fault = c.fault.map (· - 1) := by
  unfold statement at h
  split_ifs at h with hf
  · exact nomatch (Prod.mk.inj h).1
  · split at h
    · rename_i b db hb
      obtain ⟨h₁, rfl⟩ := Prod.mk.inj h
      obtain rfl := Except.ok.inj h₁
      exact ⟨hb, rfl⟩
    · exact nomatch (Prod.mk.inj h).1

theorem statement_error (h : statement lost t c = (.error e, c')) : c'.db = c.db := by
  unfold statement at h
  split_ifs at h with hf
  · exact (Prod.mk.inj h).2 ▸ rfl
  · split at h
    · exact nomatch (Prod.mk.inj h).1
    · exact (Prod.mk.inj h).2 ▸ rfl

theorem statement_no_fault (db : DB) : statement lost t ⟨db, none⟩ =
    match t db with
    | .ok (a, db') => (.ok a, ⟨db', none⟩)
    | .error e => (.error e, ⟨db, none⟩) := by
  simp only [statement, reduceCtorEq, ↓reduceIte, Option.map_none]

end Command
end Relational

import Fubun.Relational.Table

/-! Commands that do not notice a change of the database: run after it, they answer what they answer
before it, and leave the changed database where they left the other one. -/

namespace Relational

variable {DB ε α β : Type}

def Connection.map (g : DB → DB) (c : Connection DB) : Connection DB := ⟨g c.db, c.fault⟩

def Transaction.Ignores (g : DB → DB) (t : Transaction DB ε α) : Prop :=
  ∀ db, t (g db) = (t db).map fun x => (x.1, g x.2)

def Command.Ignores (g : DB → DB) (m : Command DB ε α) : Prop :=
  ∀ c, m (c.map g) = ((m c).1, (m c).2.map g)

variable {g : DB → DB}

theorem map_bind {γ : Type} (x : Except ε α) (f : α → Except ε β) (h : β → γ) :
    (x >>= f).map h = x >>= fun a => (f a).map h := by
  cases x <;> rfl

theorem query_ignores {f : DB → Except ε α} (h : ∀ db, f (g db) = f db) : (query f).Ignores g := by
  intro db
  rw [query, query, h]
  cases f db <;> rfl

namespace Command

theorem ignores_pure (a : α) : (pure a : Command DB ε α).Ignores g := fun _ => rfl

theorem ignores_fail (e : ε) : (fail e : Command DB ε α).Ignores g := fun _ => rfl

theorem Ignores.bind {m : Command DB ε α} {f : α → Command DB ε β} (hm : m.Ignores g) (hf : ∀ a, (f a).Ignores g) :
    (m >>= f).Ignores g := by
  intro c
  rw [bind_apply, bind_apply, hm c]
  cases h : m c with
  | mk r c' =>
    cases r with
    | error e => rfl
    | ok a => exact hf a c'

theorem ignores_statement {lost : ε} {t : Transaction DB ε α} (ht : t.Ignores g) : (statement lost t).Ignores g := by
  intro c
  have hfault : (c.map g).fault = c.fault := rfl
  have hdb : t (c.map g).db = (t c.db).map fun x => (x.1, g x.2) := ht c.db
  unfold statement
  rw [hfault, hdb]
  split_ifs with hnow
  · rfl
  · cases t c.db with
    | error e => rfl
    | ok x => rfl

theorem statement_related {lost : ε} {t : Transaction DB ε α} {R : DB → DB → Prop} {db db' : DB} (hR : R db db')
    (ht : t db' = (t db).map fun x => (x.1, g x.2)) (hg : ∀ a d, t db = .ok (a, d) → R d (g d)) (fault : Option Nat) :
    (statement lost t ⟨db', fault⟩).1 = (statement lost t ⟨db, fault⟩).1 ∧
      R (statement lost t ⟨db, fault⟩).2.db (statement lost t ⟨db', fault⟩).2.db := by
  unfold statement
  rw [ht]
  split_ifs with hnow
  · exact ⟨rfl, hR⟩
  · cases h : t db with
    | error e => exact ⟨rfl, hR⟩
    | ok x => exact ⟨rfl, hg x.1 x.2 h⟩

end Command
end Relational

import Mathlib.Data.List.Basic

/-! Programs as trees of atomic operations, and the paths through them. An
operation `o` is answered with a value of `Res o`; between two operations a
program computes without touching anything shared, so a path of answered
operations says all that a running program has done. -/

namespace Concurrency

inductive Program (Op : Type) (Res : Op → Type) (α : Type) where
  | ret (a : α)
  | call (o : Op) (k : Res o → Program Op Res α)

/-- An operation together with the answer it got. -/
structure Answered {Op : Type} (Res : Op → Type) where
  op : Op
  res : Res op

namespace Program

variable {Op : Type} {Res : Op → Type} {α β γ : Type}

def bind : Program Op Res α → (α → Program Op Res β) → Program Op Res β
  | .ret a, f => f a
  | .call o k, f => .call o fun r => (k r).bind f

instance : Monad (Program Op Res) where
  pure := .ret
  bind := bind

def perform (o : Op) : Program Op Res (Res o) := .call o .ret

@[simp] theorem pure_eq_ret (a : α) : (pure a : Program Op Res α) = .ret a := rfl

@[simp] theorem ret_bind (a : α) (f : α → Program Op Res β) : (.ret a : Program Op Res α) >>= f = f a := rfl

@[simp] theorem call_bind (o : Op) (k : Res o → Program Op Res α) (f : α → Program Op Res β) :
    .call o k >>= f = .call o fun r => k r >>= f := rfl

@[simp] theorem perform_bind (o : Op) (f : Res o → Program Op Res β) :
    perform o >>= f = .call o f := rfl

@[simp] theorem bind_bind (p : Program Op Res α) (f : α → Program Op Res β)
    (g : β → Program Op Res γ) : p >>= f >>= g = p >>= fun a => f a >>= g := by
  induction p with
  | ret a => rfl
  | call o k ih => exact congrArg (Program.call o) (funext ih)

/-! ## Paths -/

/-- `Leads p τ q`: after the answered operations `τ`, oldest first, `q` is left of `p`. -/
inductive Leads : Program Op Res α → List (Answered Res) → Program Op Res α → Prop
  | nil (p) : Leads p [] p
  | cons {o k r τ q} : Leads (k r) τ q → Leads (.call o k) (⟨o, r⟩ :: τ) q

theorem leads_ret_iff {a : α} {τ : List (Answered Res)} {q : Program Op Res α} :
    Leads (.ret a) τ q ↔ τ = [] ∧ q = .ret a := by
  constructor
  · rintro ⟨⟩
    exact ⟨rfl, rfl⟩
  · rintro ⟨rfl, rfl⟩
    exact .nil _

theorem leads_call_iff {o : Op} {k : Res o → Program Op Res α} {τ : List (Answered Res)}
    {q : Program Op Res α} :
    Leads (.call o k) τ q ↔ (τ = [] ∧ q = .call o k) ∨ ∃ r τ', τ = ⟨o, r⟩ :: τ' ∧ Leads (k r) τ' q := by
  constructor
  · rintro (_ | h)
    · exact .inl ⟨rfl, rfl⟩
    · exact .inr ⟨_, _, rfl, h⟩
  · rintro (⟨rfl, rfl⟩ | ⟨r, τ', rfl, h⟩)
    · exact .nil _
    · exact .cons h

theorem Leads.trans {p q s : Program Op Res α} {τ τ' : List (Answered Res)} (h : Leads p τ q)
    (h' : Leads q τ' s) : Leads p (τ ++ τ') s := by
  induction h with
  | nil => exact h'
  | cons _ ih => exact .cons (ih h')

theorem Leads.snoc {p : Program Op Res α} {τ : List (Answered Res)} {o : Op}
    {k : Res o → Program Op Res α} (h : Leads p τ (.call o k)) (r : Res o) :
    Leads p (τ ++ [⟨o, r⟩]) (k r) := h.trans (.cons (.nil _))

theorem Leads.bind {p q : Program Op Res α} {τ : List (Answered Res)} (h : Leads p τ q)
    (f : α → Program Op Res β) : Leads (p >>= f) τ (q >>= f) := by
  induction h with
  | nil => exact .nil _
  | cons _ ih => exact .cons ih

/-- A path through `p >>= f` stays in `p`, or it runs through `p` and on into `f`. -/
theorem leads_bind {p : Program Op Res α} {f : α → Program Op Res β} {τ : List (Answered Res)}
    {q : Program Op Res β} (h : Leads (p >>= f) τ q) :
    (∃ o k, Leads p τ (.call o k) ∧ q = .call o k >>= f) ∨
      ∃ τ₁ a τ₂, τ = τ₁ ++ τ₂ ∧ Leads p τ₁ (.ret a) ∧ Leads (f a) τ₂ q := by
  induction p generalizing τ with
  | ret a => exact .inr ⟨[], a, τ, rfl, .nil _, h⟩
  | call o k ih =>
    rcases leads_call_iff.mp h with ⟨rfl, rfl⟩ | ⟨r, τ', rfl, h'⟩
    · exact .inl ⟨o, k, .nil _, rfl⟩
    · rcases ih r h' with ⟨o', k', hl, hq⟩ | ⟨τ₁, a, τ₂, rfl, h₁, h₂⟩
      · exact .inl ⟨o', k', .cons hl, hq⟩
      · exact .inr ⟨⟨o, r⟩ :: τ₁, a, τ₂, rfl, .cons h₁, h₂⟩

theorem leads_bind_ret {p : Program Op Res α} {f : α → Program Op Res β}
    {τ : List (Answered Res)} {b : β} (h : Leads (p >>= f) τ (.ret b)) :
    ∃ τ₁ a τ₂, τ = τ₁ ++ τ₂ ∧ Leads p τ₁ (.ret a) ∧ Leads (f a) τ₂ (.ret b) := by
  rcases leads_bind h with ⟨o, k, _, hq⟩ | h'
  · exact nomatch hq
  · exact h'

theorem leads_bind_call {p : Program Op Res α} {f : α → Program Op Res β}
    {τ : List (Answered Res)} {o : Op} {k : Res o → Program Op Res β}
    (h : Leads (p >>= f) τ (.call o k)) :
    (∃ k', Leads p τ (.call o k')) ∨
      ∃ τ₁ a τ₂, τ = τ₁ ++ τ₂ ∧ Leads p τ₁ (.ret a) ∧ Leads (f a) τ₂ (.call o k) := by
  rcases leads_bind h with ⟨o', k', hl, hq⟩ | h'
  · obtain ⟨rfl, -⟩ := Program.call.inj hq
    exact .inl ⟨k', hl⟩
  · exact .inr h'

theorem leads_perform_bind {o : Op} {f : Res o → Program Op Res α} {τ : List (Answered Res)}
    {q : Program Op Res α} : Leads (perform o >>= f) τ q ↔
      (τ = [] ∧ q = .call o f) ∨ ∃ r τ', τ = ⟨o, r⟩ :: τ' ∧ Leads (f r) τ' q :=
  leads_call_iff

theorem not_leads_ret_call {a : α} {τ : List (Answered Res)} {o : Op} {k : Res o → Program Op Res α} :
    ¬ Leads (.ret a) τ (.call o k) := fun h => nomatch (leads_ret_iff.mp h).2

theorem leads_perform_call {o o' : Op} {f : Res o → Program Op Res α} {τ : List (Answered Res)}
    {k : Res o' → Program Op Res α} (h : Leads (perform o >>= f) τ (.call o' k)) (ho : o ≠ o') :
    ∃ r τ', τ = ⟨o, r⟩ :: τ' ∧ Leads (f r) τ' (.call o' k) := by
  rcases leads_perform_bind.mp h with ⟨-, heq⟩ | h'
  · exact absurd (Program.call.inj heq).1.symm ho
  · exact h'

/-! ## Contracts without a state -/

/-- Every operation on every path satisfies `P`, and every result `Q`. -/
def Meets (P : Op → Prop) (Q : α → Prop) : Program Op Res α → Prop
  | .ret a => Q a
  | .call o k => P o ∧ ∀ r, (k r).Meets P Q

abbrev Issues (P : Op → Prop) (p : Program Op Res α) : Prop := p.Meets P fun _ => True

section Meets
variable {P P' : Op → Prop} {Q Q' : α → Prop} {p q : Program Op Res α} {τ : List (Answered Res)}

@[simp] theorem meets_ret {a : α} : (.ret a : Program Op Res α).Meets P Q ↔ Q a := Iff.rfl

@[simp] theorem meets_call {o : Op} {k : Res o → Program Op Res α} :
    (Program.call o k).Meets P Q ↔ P o ∧ ∀ r, (k r).Meets P Q := Iff.rfl

theorem Meets.mono (h : p.Meets P Q) (hP : ∀ o, P o → P' o) (hQ : ∀ a, Q a → Q' a) :
    p.Meets P' Q' := by
  induction p with
  | ret a => exact hQ a h
  | call o k ih => exact ⟨hP o h.1, fun r => ih r (h.2 r)⟩

theorem Meets.bind {Q : β → Prop} {R : α → Prop} {f : α → Program Op Res β} (hp : p.Meets P R)
    (hf : ∀ a, R a → (f a).Meets P Q) : (p >>= f).Meets P Q := by
  induction p with
  | ret a => exact hf a hp
  | call o k ih => exact ⟨hp.1, fun r => ih r (hp.2 r)⟩

theorem Meets.perform_bind {Q : α → Prop} {o : Op} {f : Res o → Program Op Res α} (ho : P o)
    (hf : ∀ r, (f r).Meets P Q) : (perform o >>= f).Meets P Q := ⟨ho, hf⟩

theorem Meets.leads (h : p.Meets P Q) (hl : Leads p τ q) : q.Meets P Q := by
  induction hl with
  | nil => exact h
  | cons _ ih => exact ih (h.2 _)

theorem Meets.mem (h : p.Meets P Q) (hl : Leads p τ q) {x : Answered Res} (hx : x ∈ τ) :
    P x.op := by
  induction hl with
  | nil => exact nomatch hx
  | cons _ ih =>
    rcases List.mem_cons.mp hx with rfl | hx
    · exact h.1
    · exact ih (h.2 _) hx

/-- A program that has come to an operation which its first part never issues has left that part. -/
theorem Meets.leads_past {f : α → Program Op Res β} {o : Op} {k : Res o → Program Op Res β}
    (hp : p.Issues P) (ho : ¬ P o) (h : Leads (p >>= f) τ (.call o k)) :
    ∃ τ₁ a τ₂, τ = τ₁ ++ τ₂ ∧ Leads p τ₁ (.ret a) ∧ Leads (f a) τ₂ (.call o k) := by
  rcases leads_bind_call h with ⟨k', hl⟩ | h'
  · exact absurd (hp.leads hl).1 ho
  · exact h'

end Meets

/-! ## Contracts that rely on the answers -/

/-- While the answers satisfy `A`, every operation on the path satisfies `P`, and the result `Q`. -/
def MeetsIf (A : Answered Res → Prop) (P : Op → Prop) (Q : α → Prop) : Program Op Res α → Prop
  | .ret a => Q a
  | .call o k => P o ∧ ∀ r, A ⟨o, r⟩ → (k r).MeetsIf A P Q

section MeetsIf
variable {A : Answered Res → Prop} {P : Op → Prop} {Q : α → Prop} {p q : Program Op Res α} {τ : List (Answered Res)}

@[simp] theorem meetsIf_ret {a : α} : (.ret a : Program Op Res α).MeetsIf A P Q ↔ Q a := Iff.rfl

theorem Meets.meetsIf (h : p.Meets P Q) : p.MeetsIf A P Q := by
  induction p with
  | ret a => exact h
  | call o k ih => exact ⟨h.1, fun r _ => ih r (h.2 r)⟩

theorem MeetsIf.bind {Q : β → Prop} {R : α → Prop} {f : α → Program Op Res β} (hp : p.MeetsIf A P R)
    (hf : ∀ a, R a → (f a).MeetsIf A P Q) : (p >>= f).MeetsIf A P Q := by
  induction p with
  | ret a => exact hf a hp
  | call o k ih => exact ⟨hp.1, fun r hr => ih r (hp.2 r hr)⟩

theorem MeetsIf.perform_bind {Q : β → Prop} {o : Op} {f : Res o → Program Op Res β} (ho : P o)
    (hf : ∀ r, A ⟨o, r⟩ → (f r).MeetsIf A P Q) : (perform o >>= f).MeetsIf A P Q := ⟨ho, hf⟩

/-- A path whose answers are as they should be leaves a program that keeps the contract. -/
theorem MeetsIf.leads (h : p.MeetsIf A P Q) (hl : Leads p τ q) (hτ : ∀ x ∈ τ, A x) : q.MeetsIf A P Q := by
  induction hl with
  | nil => exact h
  | cons _ ih =>
    obtain ⟨hx, hτ⟩ := List.forall_mem_cons.mp hτ
    exact ih (h.2 _ hx) hτ

end MeetsIf

/-! ## How long a path is -/

def Within : Nat → Program Op Res α → Prop
  | _, .ret _ => True
  | 0, .call _ _ => False
  | n + 1, .call _ k => ∀ r, (k r).Within n

section Within
variable {m n : Nat} {p : Program Op Res α} {τ : List (Answered Res)}

theorem Within.mono (h : p.Within m) (hn : m ≤ n) : p.Within n := by
  induction p generalizing m n with
  | ret a => cases n <;> trivial
  | call o k ih =>
    cases m with
    | zero => exact nomatch h
    | succ m =>
      obtain ⟨n, rfl⟩ : ∃ k, n = k + 1 := ⟨n - 1, by omega⟩
      exact fun r => ih r (h r) (by omega)

theorem Within.bind {f : α → Program Op Res β} (hp : p.Within m) (hf : ∀ a, (f a).Within n) :
    (p >>= f).Within (m + n) := by
  induction p generalizing m with
  | ret a => exact (hf a).mono (Nat.le_add_left n m)
  | call o k ih =>
    cases m with
    | zero => exact nomatch hp
    | succ m =>
      rw [Nat.add_right_comm]
      exact fun r => ih r (hp r)

theorem Within.perform_bind {o : Op} {f : Res o → Program Op Res α} (hf : ∀ r, (f r).Within n) :
    (perform o >>= f).Within (n + 1) := hf

theorem Within.leads (h : p.Within n) {q : Program Op Res α} (hl : Leads p τ q) : τ.length ≤ n := by
  induction hl generalizing n with
  | nil => exact Nat.zero_le n
  | cons _ ih =>
    cases n with
    | zero => exact nomatch h
    | succ n => exact Nat.succ_le_succ (ih (h _))

end Within

/-! ## Runs against an oracle -/

def run (answer : List (Answered Res) → (o : Op) → Res o) :
    Program Op Res α → List (Answered Res) → α × List (Answered Res)
  | .ret a, τ => (a, τ)
  | .call o k, τ => (k (answer τ o)).run answer (τ ++ [⟨o, answer τ o⟩])

theorem run_leads (answer : List (Answered Res) → (o : Op) → Res o) (p : Program Op Res α)
    (τ : List (Answered Res)) :
    ∃ τ', (p.run answer τ).2 = τ ++ τ' ∧ Leads p τ' (.ret (p.run answer τ).1) ∧
      ∀ x ∈ τ', ∃ earlier, x.res = answer earlier x.op := by
  induction p generalizing τ with
  | ret a => exact ⟨[], by simp [run], .nil _, by simp⟩
  | call o k ih =>
    obtain ⟨τ', hτ, hl, ha⟩ := ih (answer τ o) (τ ++ [⟨o, answer τ o⟩])
    refine ⟨⟨o, answer τ o⟩ :: τ', by simpa [run] using hτ, .cons hl, ?_⟩
    intro x hx
    rcases List.mem_cons.mp hx with rfl | hx
    · exact ⟨τ, rfl⟩
    · exact ha x hx

end Program
end Concurrency

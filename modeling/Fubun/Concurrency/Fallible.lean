import Fubun.Concurrency.Program

/-! Programs that run alone, whose operations may answer in several ways. Where operations can fail, a failure ends
the program, and an assertion says what holds there too. -/

namespace Concurrency
open Program

variable {Op : Type} {Res : Op → Type} {σ ε α β : Type}

/-- A run from a state to a result and the state it leaves; `act` says how an operation may answer. -/
inductive Program.Runs (act : (o : Op) → σ → Res o → σ → Prop) : Program Op Res α → σ → α → σ → Prop
  | ret {a s} : Runs act (.ret a) s a s
  | call {o k s r s' a t} : act o s r s' → Runs act (k r) s' a t → Runs act (.call o k) s a t

section Runs
variable {act : (o : Op) → σ → Res o → σ → Prop} {s t : σ}

theorem runs_ret_iff {a b : α} : (Program.ret a : Program Op Res α).Runs act s b t ↔ b = a ∧ t = s := by
  constructor
  · rintro ⟨⟩
    exact ⟨rfl, rfl⟩
  · rintro ⟨rfl, rfl⟩
    exact .ret

theorem runs_call_iff {o : Op} {k : Res o → Program Op Res α} {a : α} :
    (Program.call o k).Runs act s a t ↔ ∃ r s', act o s r s' ∧ (k r).Runs act s' a t := by
  constructor
  · rintro (_ | ⟨hact, hrest⟩)
    exact ⟨_, _, hact, hrest⟩
  · rintro ⟨r, s', hact, hrest⟩
    exact .call hact hrest

theorem runs_bind_iff {p : Program Op Res α} {f : α → Program Op Res β} {b : β} :
    (p >>= f).Runs act s b t ↔ ∃ a s', p.Runs act s a s' ∧ (f a).Runs act s' b t := by
  induction p generalizing s with
  | ret a =>
    constructor
    · intro h
      exact ⟨a, s, .ret, h⟩
    · rintro ⟨a', s', hret, h⟩
      obtain ⟨rfl, rfl⟩ := runs_ret_iff.mp hret
      exact h
  | call o k ih =>
    rw [call_bind, runs_call_iff]
    constructor
    · rintro ⟨r, s', hact, hrest⟩
      obtain ⟨a, s'', hk, hf⟩ := (ih r).mp hrest
      exact ⟨a, s'', .call hact hk, hf⟩
    · rintro ⟨a, s'', hcall, hf⟩
      obtain ⟨r, s', hact, hk⟩ := runs_call_iff.mp hcall
      exact ⟨r, s', hact, (ih r).mpr ⟨a, s'', hk, hf⟩⟩

end Runs

/-- A program that a failure ends. -/
abbrev Fallible (Op : Type) (Res : Op → Type) (ε α : Type) := ExceptT ε (Program Op Res) α

theorem exists_leads_call {p q : Program Op Res α} {τ : List (Answered Res)} {o : Op} {r : Res o}
    (h : Leads p (τ ++ [⟨o, r⟩]) q) : ∃ k, Leads p τ (.call o k) := by
  induction τ generalizing p with
  | nil =>
    cases h with
    | cons _ => exact ⟨_, .nil _⟩
  | cons x τ ih =>
    cases h with
    | cons hrest =>
      obtain ⟨k, hbefore⟩ := ih hrest
      exact ⟨k, .cons hbefore⟩

namespace Fallible

def ask (o : Op) : Fallible Op Res ε (Res o) := ExceptT.lift (perform o)

/-- An operation that can; `answer` reads what it says. -/
def attempt (o : Op) (answer : Res o → Except ε α) : Fallible Op Res ε α :=
  ExceptT.mk (perform o >>= fun r => .ret (answer r))

def of (result : Except ε α) : Fallible Op Res ε α := ExceptT.mk (.ret result)

/-- From `P` the program comes to `Q`, or it fails where `E` holds. -/
def Ensures (act : (o : Op) → σ → Res o → σ → Prop) (P : σ → Prop) (p : Fallible Op Res ε α) (Q : α → σ → Prop)
    (E : σ → Prop) : Prop :=
  ∀ s, P s → ∀ r t, p.run.Runs act s r t → match r with
    | .ok a => Q a t
    | .error _ => E t

variable {act : (o : Op) → σ → Res o → σ → Prop} {P P' : σ → Prop} {Q Q' : α → σ → Prop} {E : σ → Prop}
  {p : Fallible Op Res ε α} {R : β → σ → Prop} {f : α → Fallible Op Res ε β}

theorem Ensures.pure {a : α} (h : ∀ s, P s → Q a s) : Ensures act P (Pure.pure a : Fallible Op Res ε α) Q E := by
  intro s hs r t hrun
  obtain ⟨rfl, rfl⟩ := runs_ret_iff.mp hrun
  exact h _ hs

theorem Ensures.bind (hp : Ensures act P p Q E) (hf : ∀ a, Ensures act (Q a) (f a) R E) :
    Ensures act P (p >>= f) R E := by
  intro s hs r t hrun
  obtain ⟨a, s', hfirst, hrest⟩ := runs_bind_iff.mp (show (p.run >>= ExceptT.bindCont f).Runs act s r t from hrun)
  have hmid := hp s hs a s' hfirst
  cases a with
  | ok a => exact hf a s' hmid r t hrest
  | error e =>
    obtain ⟨rfl, rfl⟩ := runs_ret_iff.mp hrest
    exact hmid

theorem Ensures.mono (hp : Ensures act P p Q E) (hP : ∀ s, P' s → P s) (hQ : ∀ a s, Q a s → Q' a s) :
    Ensures act P' p Q' E := by
  intro s hs r t hrun
  have h := hp s (hP s hs) r t hrun
  cases r with
  | ok a => exact hQ a t h
  | error e => exact h

/-- What does not speak of the state can be assumed from there on. -/
theorem Ensures.of_and {φ : Prop} (h : φ → Ensures act P p Q E) : Ensures act (fun s => φ ∧ P s) p Q E :=
  fun s hs => h hs.1 s hs.2

theorem Ensures.ask {o : Op} {Q : Res o → σ → Prop} (h : ∀ s r t, P s → act o s r t → Q r t) :
    Ensures act P (ask o : Fallible Op Res ε (Res o)) Q E := by
  intro s hs r t hrun
  obtain ⟨r', s', hact, hret⟩ := runs_call_iff.mp hrun
  obtain ⟨rfl, rfl⟩ := runs_ret_iff.mp hret
  exact h s r' _ hs hact

theorem Ensures.attempt {o : Op} {answer : Res o → Except ε α}
    (h : ∀ s r t, P s → act o s r t → match answer r with | .ok a => Q a t | .error _ => E t) :
    Ensures act P (attempt o answer) Q E := by
  intro s hs r t hrun
  obtain ⟨r', s', hact, hret⟩ := runs_call_iff.mp hrun
  obtain ⟨rfl, rfl⟩ := runs_ret_iff.mp hret
  exact h s r' _ hs hact

theorem Ensures.of {result : Except ε α}
    (h : ∀ s, P s → match result with | .ok a => Q a s | .error _ => E s) : Ensures act P (of result) Q E := by
  intro s hs r t hrun
  obtain ⟨rfl, rfl⟩ := runs_ret_iff.mp hrun
  exact h _ hs

/-! ## Runs that do not fail -/

variable {s s' t : σ} {a : α}

theorem runs_bind {r : Except ε β} (hp : p.run.Runs act s (.ok a) s') (hf : (f a).run.Runs act s' r t) :
    (p >>= f).run.Runs act s r t := runs_bind_iff.mpr ⟨.ok a, s', hp, hf⟩

theorem runs_attempt {o : Op} {answer : Res o → Except ε α} {r : Res o} (hact : act o s r t) (hr : answer r = .ok a) :
    (attempt o answer).run.Runs act s (.ok a) t := by
  rw [← hr]
  exact .call hact .ret

theorem runs_ask {o : Op} {r : Res o} (hact : act o s r t) : (ask o : Fallible Op Res ε (Res o)).run.Runs act s (.ok r) t :=
  .call hact .ret

theorem runs_of : (of (.ok a) : Fallible Op Res ε α).run.Runs act s (.ok a) s := .ret

/-! ## Operations in their order -/

section Traces
variable {ok : List (Answered Res) → Op → Prop} {A B : List (Answered Res) → Prop}
  {Q Q' : α → List (Answered Res) → Prop} {R : β → List (Answered Res) → Prop} {p : Fallible Op Res ε α} {f : α → Fallible Op Res ε β}

/-- What has been asked and answered decides what may be asked: behind `A`, every operation on every path is `ok` after
those before it, and `Q` holds of the path to a result. -/
def Traces (ok : List (Answered Res) → Op → Prop) (A : List (Answered Res) → Prop) (p : Fallible Op Res ε α)
    (Q : α → List (Answered Res) → Prop) : Prop :=
  ∀ τ, A τ → ∀ ν q, Leads p.run ν q → match q with
    | .call o _ => ok (τ ++ ν) o
    | .ret (.ok a) => Q a (τ ++ ν)
    | .ret (.error _) => True

theorem Traces.pure {a : α} (h : ∀ τ, A τ → Q a τ) : Traces ok A (Pure.pure a : Fallible Op Res ε α) Q := by
  intro τ hτ ν q hl
  obtain ⟨rfl, rfl⟩ := leads_ret_iff.mp hl
  rw [List.append_nil]
  exact h τ hτ

theorem Traces.throw {e : ε} : Traces ok A (throw e : Fallible Op Res ε α) Q := by
  intro τ hτ ν q hl
  obtain ⟨rfl, rfl⟩ := leads_ret_iff.mp hl
  trivial

theorem Traces.ask {o : Op} {Q : Res o → List (Answered Res) → Prop} (ho : ∀ τ, A τ → ok τ o)
    (h : ∀ τ r, A τ → Q r (τ ++ [⟨o, r⟩])) : Traces ok A (ask o : Fallible Op Res ε (Res o)) Q := by
  intro τ hτ ν q hl
  rcases leads_call_iff.mp hl with ⟨rfl, rfl⟩ | ⟨r, ν', rfl, hrest⟩
  · rw [List.append_nil]
    exact ho τ hτ
  · obtain ⟨rfl, rfl⟩ := leads_ret_iff.mp hrest
    exact h τ r hτ

theorem Traces.bind (hp : Traces ok A p Q) (hf : ∀ a, Traces ok (Q a) (f a) R) : Traces ok A (p >>= f) R := by
  intro τ hτ ν q hl
  rcases leads_bind (show Leads (p.run >>= ExceptT.bindCont f) ν q from hl) with ⟨o, k, hcall, rfl⟩ | ⟨ν₁, a, ν₂, rfl, hret, hrest⟩
  · exact hp τ hτ ν _ hcall
  · have hmid := hp τ hτ ν₁ _ hret
    cases a with
    | ok a =>
      rw [← List.append_assoc]
      exact hf a _ hmid ν₂ q hrest
    | error e =>
      obtain ⟨rfl, rfl⟩ := leads_ret_iff.mp hrest
      trivial

theorem Traces.tryCatch_pure {g : ε → α} (hp : Traces ok A p fun _ _ => True) :
    Traces ok A (tryCatch p fun e => Pure.pure (g e)) fun _ _ => True := by
  intro τ hτ ν q hl
  rcases leads_bind (show Leads (p.run >>= fun r => match r with
      | .ok a => (Program.ret (.ok a) : Program Op Res (Except ε α))
      | .error e => .ret (.ok (g e))) ν q from hl) with ⟨o, k, hcall, rfl⟩ | ⟨ν₁, a, ν₂, rfl, hret, hrest⟩
  · exact hp τ hτ ν _ hcall
  · cases a with
    | ok a =>
      obtain ⟨rfl, rfl⟩ := leads_ret_iff.mp hrest
      trivial
    | error e =>
      obtain ⟨rfl, rfl⟩ := leads_ret_iff.mp hrest
      trivial

theorem Traces.snoc (h : Traces ok A p Q) (hA : A []) {τ : List (Answered Res)} {o : Op} {r : Res o}
    {q : Program Op Res (Except ε α)} (hl : Leads p.run (τ ++ [⟨o, r⟩]) q) : ok τ o := by
  obtain ⟨k, hbefore⟩ := exists_leads_call hl
  exact h [] hA τ _ hbefore

end Traces

/-! ## Paths that do not fail -/

theorem exists_leads_bind {τ : List (Answered Res)} {o : Op} (hp : Leads p.run τ (.ret (.ok a)))
    (hf : ∃ τ' k, Leads (f a).run τ' (.call o k)) : ∃ τ k, Leads (p >>= f).run τ (.call o k) := by
  obtain ⟨τ', k, hf⟩ := hf
  exact ⟨τ ++ τ', k, (Leads.bind hp (ExceptT.bindCont f)).trans hf⟩

/-! ## Paths through an operation that can fail -/

section Attempts
variable {o o' : Op} {answer : Res o → Except ε α} {τ : List (Answered Res)} {result : Except ε β}
  {k : Res o' → Program Op Res (Except ε β)}

theorem issues_attempt_bind {P : Op → Prop} (ho : P o) (hf : ∀ a, (f a).run.Issues P) :
    (attempt o answer >>= f).run.Issues P := by
  refine ⟨ho, fun r => ?_⟩
  show Issues P (ExceptT.bindCont f (answer r))
  cases answer r with
  | error e => trivial
  | ok a => exact hf a

theorem leads_attempt_ret (h : Leads (attempt o answer >>= f).run τ (.ret result)) :
    ∃ r τ', τ = ⟨o, r⟩ :: τ' ∧ ((∃ e, answer r = .error e ∧ τ' = [] ∧ result = .error e) ∨
      ∃ a, answer r = .ok a ∧ Leads (f a).run τ' (.ret result)) := by
  obtain ⟨-, heq⟩ | ⟨r, τ', rfl, hrest⟩ := leads_call_iff.mp h
  · cases heq
  refine ⟨r, τ', rfl, ?_⟩
  have hcont : Leads (ExceptT.bindCont f (answer r)) τ' (.ret result) := hrest
  cases hanswer : answer r with
  | error e =>
    rw [hanswer] at hcont
    obtain ⟨rfl, heq⟩ := leads_ret_iff.mp hcont
    exact .inl ⟨e, rfl, rfl, Program.ret.inj heq⟩
  | ok a =>
    rw [hanswer] at hcont
    exact .inr ⟨a, rfl, hcont⟩

theorem leads_attempt_call (h : Leads (attempt o answer >>= f).run τ (.call o' k)) (ho : o ≠ o') :
    ∃ r τ' a, τ = ⟨o, r⟩ :: τ' ∧ answer r = .ok a ∧ Leads (f a).run τ' (.call o' k) := by
  obtain ⟨-, heq⟩ | ⟨r, τ', rfl, hrest⟩ := leads_call_iff.mp h
  · exact absurd (Program.call.inj heq).1.symm ho
  have hcont : Leads (ExceptT.bindCont f (answer r)) τ' (.call o' k) := hrest
  cases hanswer : answer r with
  | error e =>
    rw [hanswer] at hcont
    exact absurd hcont not_leads_ret_call
  | ok a =>
    rw [hanswer] at hcont
    exact ⟨r, τ', a, rfl, hanswer, hcont⟩

end Attempts
end Fallible
end Concurrency

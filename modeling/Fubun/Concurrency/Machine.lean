import Mathlib.Data.List.Basic

/-! Transition systems with a step function: runs, what they reach, and the invariant rule. -/

namespace Concurrency.Machine

variable {σ ε : Type} (step : σ → ε → Option σ)

/-- Take the events in turn; `none` when one is not possible where it stands. -/
def exec (s : σ) (es : List ε) : Option σ := es.foldlM step s

def execIf (ok : σ → ε → Prop) [∀ s e, Decidable (ok s e)] (s : σ) (es : List ε) : Option σ :=
  es.foldlM (fun s e => if ok s e then step s e else none) s

/-- What runs from `s₀` reach when every event is taken where `ok` allows it. -/
inductive Reaches (s₀ : σ) (ok : σ → ε → Prop) : σ → Prop
  | init : Reaches s₀ ok s₀
  | step {s s' : σ} {e : ε} : Reaches s₀ ok s → ok s e → step s e = some s' → Reaches s₀ ok s'

abbrev Anyhow : σ → ε → Prop := fun _ _ => True

variable {step} {s₀ s s' : σ} {ok ok' : σ → ε → Prop} {I : σ → Prop}

theorem Reaches.invariant (h : Reaches step s₀ ok s) (h₀ : I s₀)
    (hstep : ∀ s e s', I s → ok s e → step s e = some s' → I s') : I s := by
  induction h with
  | init => exact h₀
  | step _ he hs ih => exact hstep _ _ _ ih he hs

theorem Reaches.exec {es : List ε} (h : Reaches step s₀ Anyhow s) (he : exec step s es = some s') :
    Reaches step s₀ Anyhow s' := by
  induction es generalizing s with
  | nil => exact Option.some.inj he ▸ h
  | cons e es ih =>
    rw [Machine.exec, List.foldlM_cons] at he
    obtain ⟨d, hd, hes⟩ := Option.bind_eq_some_iff.mp he
    exact ih (.step h trivial hd) hes

theorem Reaches.execIf [∀ s e, Decidable (ok s e)] {es : List ε} (h : Reaches step s₀ ok s)
    (he : execIf step ok s es = some s') : Reaches step s₀ ok s' := by
  induction es generalizing s with
  | nil => exact Option.some.inj he ▸ h
  | cons e es ih =>
    rw [Machine.execIf, List.foldlM_cons] at he
    obtain ⟨d, hd, hes⟩ := Option.bind_eq_some_iff.mp he
    split_ifs at hd with hok
    exact ih (.step h hok hd) hes

end Concurrency.Machine

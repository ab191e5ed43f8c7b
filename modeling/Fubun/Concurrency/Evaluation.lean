import Fubun.Concurrency.System

/-! Programs that nothing interrupts. Evaluating one from a state performs its
operations one after the other; a system in which only its thread is scheduled
does the same. -/

namespace Concurrency
open Program

variable {ι Op : Type} {Res : Op → Type} {σ α β W Req Choice Env : Type}

/-- Run a program alone from a state; `act` performs one operation. -/
def Program.evaluate (act : (o : Op) → σ → Option (Res o × σ)) : Program Op Res α → σ → Option (α × σ)
  | .ret a, s => some (a, s)
  | .call o k, s => (act o s).bind fun x => (k x.1).evaluate act x.2

section Evaluate
variable {act : (o : Op) → σ → Option (Res o × σ)} {s s' : σ}

@[simp] theorem evaluate_ret (a : α) :
    (Program.ret a : Program Op Res α).evaluate act s = some (a, s) := rfl

theorem evaluate_bind (p : Program Op Res α) (f : α → Program Op Res β) :
    (p >>= f).evaluate act s = (p.evaluate act s).bind fun x => (f x.1).evaluate act x.2 := by
  induction p generalizing s with
  | ret a => rfl
  | call o k ih =>
    show ((act o s).bind fun x => (k x.1 >>= f).evaluate act x.2) =
      ((act o s).bind fun x => (k x.1).evaluate act x.2).bind fun x => (f x.1).evaluate act x.2
    rw [Option.bind_assoc]
    congr 1
    funext x
    exact ih x.1

theorem evaluate_bind_of {p : Program Op Res α} {f : α → Program Op Res β} {a : α}
    (h : p.evaluate act s = some (a, s')) : (p >>= f).evaluate act s = (f a).evaluate act s' := by
  rw [evaluate_bind, h]
  rfl

theorem evaluate_perform_of {o : Op} {f : Res o → Program Op Res α} {r : Res o}
    (h : act o s = some (r, s')) : (perform o >>= f).evaluate act s = (f r).evaluate act s' := by
  show ((act o s).bind fun x => (f x.1).evaluate act x.2) = _
  rw [h]
  rfl

end Evaluate

/-- A thread that alone is scheduled comes to what its program evaluates to. -/
theorem System.exec_evaluate [DecidableEq ι] {S : System ι Op Res W Req α Choice Env}
    {c : Config ι Op Res W Req α} {i : ι} {ch : Choice} {t : Thread Op Res Req α} {a : α} {w : W}
    (ht : c.threads i = some t)
    (he : t.rest.evaluate (fun o => S.act i o ch) c.world = some (a, w)) :
    ∃ n c' t', S.exec c (List.replicate n (.call i ch)) = some c' ∧ c'.world = w ∧
      c'.threads i = some t' ∧ t'.rest = .ret a := by
  obtain ⟨request, trace, rest⟩ := t
  induction rest generalizing c trace with
  | ret b =>
    obtain ⟨rfl, rfl⟩ := Prod.mk.inj (Option.some.inj he)
    exact ⟨0, c, _, rfl, rfl, ht, rfl⟩
  | call o k ih =>
    obtain ⟨⟨r, w₁⟩, hact, he⟩ := Option.bind_eq_some_iff.mp he
    let c₁ : Config ι Op Res W Req α := c.called i ⟨request, trace, .call o k⟩ k r w₁
    have hstep : S.step c (.call i ch) = some c₁ := by
      simp only [System.step, ht, hact]
      rfl
    have hthread : c₁.threads i = some ⟨request, trace ++ [⟨o, r⟩], k r⟩ := Config.called_threads_self
    obtain ⟨n, c', t', hexec, hc'⟩ := ih r (c := c₁) (trace ++ [⟨o, r⟩]) hthread he
    refine ⟨n + 1, c', t', ?_, hc'⟩
    rw [List.replicate_succ, System.exec, List.foldlM_cons, hstep]
    exact hexec

end Concurrency

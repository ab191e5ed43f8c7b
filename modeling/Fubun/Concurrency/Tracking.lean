import Fubun.Concurrency.History
import Fubun.Concurrency.RelyGuarantee

/-! Following a handler by what it has been answered. A contract on its operations may speak of the
path so far, and under a contract of the system a fact that ties the path of a handler to the world
holds of every running handler. -/

namespace Concurrency
open Program

variable {ι Op : Type} {Res : Op → Type} {W Req α β Choice Env : Type}

namespace Program

/-- Behind the path `τ`, every operation of the program is `P` after the path to it, and its end is
`Q` after the whole path. -/
def Along (P : List (Answered Res) → Op → Prop) (Q : List (Answered Res) → α → Prop) :
    Program Op Res α → List (Answered Res) → Prop
  | .ret a, τ => Q τ a
  | .call o k, τ => P τ o ∧ ∀ r, Along P Q (k r) (τ ++ [⟨o, r⟩])

/-- Behind every path that is `A`, the program keeps to `P` and ends in `Q`. -/
def Follows (P : List (Answered Res) → Op → Prop) (A : List (Answered Res) → Prop) (p : Program Op Res α)
    (Q : List (Answered Res) → α → Prop) : Prop := ∀ τ, A τ → p.Along P Q τ

section Follows
variable {P : List (Answered Res) → Op → Prop} {A B : List (Answered Res) → Prop}
  {Q Q' : List (Answered Res) → α → Prop} {p q : Program Op Res α} {τ ν : List (Answered Res)} {o : Op}

theorem Along.mono (h : p.Along P Q τ) (hQ : ∀ τ a, Q τ a → Q' τ a) : p.Along P Q' τ := by
  induction p generalizing τ with
  | ret a => exact hQ τ a h
  | call o k ih => exact ⟨h.1, fun r => ih r (h.2 r)⟩

theorem Along.bind {f : α → Program Op Res β} {R : List (Answered Res) → β → Prop} (h : p.Along P Q τ)
    (hf : ∀ τ a, Q τ a → (f a).Along P R τ) : (p >>= f).Along P R τ := by
  induction p generalizing τ with
  | ret a => exact hf τ a h
  | call o k ih => exact ⟨h.1, fun r => ih r (h.2 r)⟩

theorem Along.leads (h : p.Along P Q τ) (hl : Leads p ν q) : q.Along P Q (τ ++ ν) := by
  induction hl generalizing τ with
  | nil =>
    rw [List.append_nil]
    exact h
  | cons _ ih =>
    rw [List.append_cons]
    exact ih (h.2 _)

theorem Follows.ret {a : α} (h : ∀ τ, A τ → Q τ a) : Follows P A (.ret a) Q := h

theorem Follows.bind {f : α → Program Op Res β} {R : List (Answered Res) → β → Prop} (h : Follows P A p Q)
    (hf : ∀ a, Follows P (Q · a) (f a) R) : Follows P A (p >>= f) R :=
  fun τ hA => (h τ hA).bind fun τ a hQ => hf a τ hQ

theorem Follows.mono (h : Follows P A p Q) (hA : ∀ τ, B τ → A τ) (hQ : ∀ τ a, Q τ a → Q' τ a) :
    Follows P B p Q' := fun τ hB => (h τ (hA τ hB)).mono hQ

theorem Follows.perform {R : Res o → List (Answered Res) → Prop} {f : Res o → Program Op Res α}
    (ho : ∀ τ, A τ → P τ o) (hR : ∀ τ r, A τ → R r (τ ++ [⟨o, r⟩])) (hf : ∀ r, Follows P (R r) (f r) Q) :
    Follows P A (perform o >>= f) Q :=
  fun τ hA => ⟨ho τ hA, fun r => hf r _ (hR τ r hA)⟩

theorem Follows.of_meets {S : Op → Prop} {R : α → Prop} (hp : p.Meets S R) (ho : ∀ τ o, S o → A τ → P τ o)
    (hA : ∀ τ o r, S o → A τ → A (τ ++ [⟨o, r⟩])) : Follows P A p fun τ a => R a ∧ A τ := by
  intro τ hτ
  induction p generalizing τ with
  | ret a => exact ⟨hp, hτ⟩
  | call o k ih => exact ⟨ho τ o hp.1 hτ, fun r => ih r (hp.2 r) _ (hA τ o r hp.1 hτ)⟩

end Follows
end Program

/-! ## Runs -/

section Runs
variable [DecidableEq ι] {S : System ι Op Res W Req α Choice Env} {w₀ : W}
  {ok : Config ι Op Res W Req α → Event ι Req Choice Env → Prop} {c : Config ι Op Res W Req α}
  {P : List (Answered Res) → Op → Prop} {i : ι} {t : Thread Op Res Req α}

/-- What the handlers keep to, a running one keeps to behind its path. -/
theorem System.Reaches.along {Q : List (Answered Res) → α → Prop} (h : S.Reaches w₀ ok c)
    (hP : ∀ q, (S.handler q).Along P Q []) (ht : c.threads i = some t) : t.rest.Along P Q t.trace :=
  (hP t.request).leads (h.traced ht).leads

/-- An invariant of the world that the operations keep where handlers are at them. -/
theorem System.Reaches.invariant_called (h : S.Reaches w₀ ok c) {I : W → Prop} (h₀ : I w₀)
    (call : ∀ c i t o k ch r w', S.Reaches w₀ ok c → c.threads i = some t → t.rest = .call o k →
      S.act i o ch c.world = some (r, w') → I c.world → I w')
    (drift : ∀ e w, I w → I (S.drift e w)) (restart : ∀ ch w, I w → I (S.restart ch w)) : I c.world := by
  induction h with
  | init => exact h₀
  | step hc _ hs ih =>
    cases hs with
    | arrive => exact ih
    | call ht hrest hact => exact call _ _ _ _ _ _ _ _ hc ht hrest hact ih
    | answer => exact ih
    | drift => exact drift _ _ ih
    | restart => exact restart _ _ ih

theorem System.Step.answer_of_log {c' : Config ι Op Res W Req α} {e : Event ι Req Choice Env} {a : α} (hs : S.Step c e c')
    (hl : c'.log = c.log ++ [.answer i a]) : ∃ t, c.threads i = some t ∧ t.rest = .ret a := by
  cases hs with
  | @answer j t b ht hrest =>
    obtain ⟨rfl, rfl⟩ := Label.answer.inj (List.cons.inj (List.append_cancel_left hl)).1
    exact ⟨t, ht, hrest⟩
  | _ => cases (List.cons.inj (List.append_cancel_left hl)).1

/-- What a request has been answered with, its handler has come to on its path. -/
theorem System.Reaches.answered (h : S.Reaches w₀ ok c) {before after : List (Label ι Res Req α)} {a : α} {q : Req}
    {τ : List (Answered Res)} (hlog : c.log = before ++ .answer i a :: after) (hserving : Serving i q τ before) :
    Leads (S.handler q) τ (.ret a) := by
  obtain ⟨d, e, d', hd, -, hs, rfl, hdlog⟩ := h.split hlog
  obtain ⟨t, ht, hrest⟩ := hs.answer_of_log hdlog
  obtain ⟨rfl, rfl⟩ := (hd.serving ht).unique hserving
  exact hrest ▸ (hd.traced ht).leads

theorem System.arrive_of_exec {es : List (Event ι Req Choice Env)} {c' : Config ι Op Res W Req α} {q : Req}
    (he : S.exec c es = some c') (h : .arrive i q ∈ c'.log) : .arrive i q ∈ c.log ∨ .arrive i q ∈ es := by
  induction es generalizing c with
  | nil => exact .inl (Option.some.inj he ▸ h)
  | cons e es ih =>
    rw [System.exec, List.foldlM_cons] at he
    obtain ⟨d, hd, hes⟩ := Option.bind_eq_some_iff.mp he
    rcases ih hes with hmem | hmem
    · cases step_cases hd <;> rcases List.mem_append.mp hmem with hlog | hnew
      all_goals first | exact .inl hlog | cases List.mem_singleton.mp hnew
      exact .inr List.mem_cons_self
    · exact .inr (List.mem_cons_of_mem e hmem)

namespace Contract

/-- What ties the path of a handler to the world: the others leave it alone, it holds before the
first operation, and every operation that keeps the contract in its turn carries it on. -/
structure Tie (K : Contract S) (P : List (Answered Res) → Op → Prop) where
  holds : ι → List (Answered Res) → W → Prop
  stable : ∀ i, K.Stable i (holds i)
  nil : ∀ i w, holds i [] w
  own : ∀ {i τ o ch r w w'}, K.inv w → holds i τ w → P τ o → K.guarantee i o w w' →
    S.act i o ch w = some (r, w') → holds i (τ ++ [⟨o, r⟩]) w'

/-- In every reachable configuration the path of every running handler is tied to the world. -/
theorem reaches_tied {K : Contract S} (T : K.Tie P) {Q' : List (Answered Res) → α → Prop}
    (hP : ∀ q, (S.handler q).Along P Q' []) (Q : ι → Req → List (Answered Res) → α → W → Prop)
    (hQ : ∀ i q a, K.Stable i (Q i q · a)) (h₀ : K.inv w₀)
    (hstart : ∀ i q w, K.inv w → S.admits w i q = true → K.Safe i (Q i q) (S.handler q) [] w)
    (h : S.Reaches w₀ ok c) (ht : c.threads i = some t) : T.holds i t.trace c.world := by
  induction h generalizing i t with
  | init => cases ht
  | @step c c' e hc _ hs ih =>
    obtain ⟨hinv, hsafe⟩ := K.reaches_safe Q hQ h₀ hstart hc
    cases hs with
    | @arrive j q hidle hadm =>
      by_cases hj : i = j
      · subst hj
        rw [Config.arrived_threads_self] at ht
        obtain rfl := Option.some.inj ht
        exact T.nil i _
      · rw [Config.arrived_threads_ne hj] at ht
        exact ih ht
    | @call j u o k ch r w hu hrest hact =>
      have hj := hsafe j u hu
      have hturn := hc.along hP hu
      rw [hrest] at hj hturn
      -- the step keeps the invariant, and its guarantee is what the others rely on
      obtain ⟨⟨hinv', hg⟩, -⟩ := hj _ (K.refl j _) hinv ch r w hact
      by_cases hij : i = j
      · subst hij
        rw [Config.called_threads_self] at ht
        obtain rfl := Option.some.inj ht
        exact T.own hinv (ih hu) hturn.1 hg hact
      · rw [Config.called_threads_ne hij] at ht
        exact T.stable i _ _ _ (K.compat (Ne.symm hij) hinv hg) hinv' (ih ht)
    | @answer j u a hu hrest =>
      by_cases hj : i = j
      · subst hj
        rw [Config.answered_threads_self] at ht
        cases ht
      · rw [Config.answered_threads_ne hj] at ht
        exact ih ht
    | @drift e =>
      exact T.stable i _ _ _ (K.drift_rely i e hinv) (K.drift_inv e hinv) (ih ht)
    | restart => cases ht

end Contract
end Runs
end Concurrency

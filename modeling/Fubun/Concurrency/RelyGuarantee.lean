import Fubun.Concurrency.System

/-! Rely-guarantee reasoning about the handlers of a system. A handler relies on
what the others leave alone, guarantees what it leaves alone itself, and is
followed from operation to operation with what it has been answered. -/

namespace Concurrency
open Program

variable {ι Op : Type} {Res : Op → Type} {W Req α β Choice Env : Type}

/-- An invariant of the world with a rely for every connection and a guarantee for every
operation of one, such that what one connection guarantees is what the others rely on. -/
structure Contract (S : System ι Op Res W Req α Choice Env) where
  inv : W → Prop
  rely : ι → W → W → Prop
  guarantee : ι → Op → W → W → Prop
  refl : ∀ i w, rely i w w
  trans : ∀ {i w w' w''}, rely i w w' → rely i w' w'' → rely i w w''
  compat : ∀ {i j o w w'}, j ≠ i → inv w → guarantee j o w w' → rely i w w'
  drift_inv : ∀ {w} (e), inv w → inv (S.drift e w)
  drift_rely : ∀ {w} (i e), inv w → rely i w (S.drift e w)
  restart_inv : ∀ {w} (ch), inv w → inv (S.restart ch w)

namespace Contract
variable {S : System ι Op Res W Req α Choice Env} (K : Contract S) (i : ι)

/-- Run by connection `i`, the program keeps the contract at every operation and ends in `Q`;
`τ` is what it has been answered before. -/
def Safe (Q : List (Answered Res) → β → W → Prop) :
    Program Op Res β → List (Answered Res) → W → Prop
  | .ret a, τ, w => Q τ a w
  | .call o k, τ, w => ∀ w', K.rely i w w' → K.inv w' → ∀ ch r w'', S.act i o ch w' = some (r, w'') →
      (K.inv w'' ∧ K.guarantee i o w' w'') ∧ Safe Q (k r) (τ ++ [⟨o, r⟩]) w''

/-- What the others do does not undo the assertion. -/
def Stable (A : List (Answered Res) → W → Prop) : Prop :=
  ∀ τ w w', K.rely i w w' → K.inv w' → A τ w → A τ w'

def Triple (A : List (Answered Res) → W → Prop) (p : Program Op Res β)
    (Q : List (Answered Res) → β → W → Prop) : Prop :=
  ∀ τ w, K.inv w → A τ w → K.Safe i Q p τ w

variable {K i} {A : List (Answered Res) → W → Prop} {Q Q' : List (Answered Res) → β → W → Prop}
  {p : Program Op Res β} {τ : List (Answered Res)} {w w' : W} {o : Op}

theorem Safe.rely (hQ : ∀ a, K.Stable i (Q · a)) (h : K.Safe i Q p τ w) (hr : K.rely i w w')
    (hw : K.inv w') : K.Safe i Q p τ w' := by
  cases p with
  | ret a => exact hQ a τ w w' hr hw h
  | call o k => exact fun w₁ h₁ => h w₁ (K.trans hr h₁)

theorem Safe.mono (h : K.Safe i Q p τ w) (hQ : ∀ τ a w, Q τ a w → Q' τ a w) : K.Safe i Q' p τ w := by
  induction p generalizing τ w with
  | ret a => exact hQ τ a w h
  | call o k ih =>
    intro w₁ hr hw ch r w₂ ha
    have hs := h w₁ hr hw ch r w₂ ha
    exact ⟨hs.1, ih r hs.2⟩

theorem Safe.bind {γ : Type} {Q : List (Answered Res) → γ → W → Prop} {f : β → Program Op Res γ}
    (hw : K.inv w) (h : K.Safe i Q' p τ w)
    (hf : ∀ {τ a w}, K.inv w → Q' τ a w → K.Safe i Q (f a) τ w) : K.Safe i Q (p >>= f) τ w := by
  induction p generalizing τ w with
  | ret a => exact hf hw h
  | call o k ih =>
    intro w₁ hr hw₁ ch r w₂ ha
    have hs := h w₁ hr hw₁ ch r w₂ ha
    exact ⟨hs.1, ih r hs.1.1 hs.2⟩

/-! ## Rules -/

theorem Triple.ret {a : β} (h : ∀ τ w, A τ w → Q τ a w) : K.Triple i A (.ret a) Q :=
  fun τ w _ hA => h τ w hA

theorem Triple.bind {γ : Type} {Q : List (Answered Res) → γ → W → Prop} {f : β → Program Op Res γ}
    (h : K.Triple i A p Q') (hf : ∀ a, K.Triple i (Q' · a) (f a) Q) : K.Triple i A (p >>= f) Q :=
  fun τ w hw hA => (h τ w hw hA).bind hw fun hw' hQ' => hf _ _ _ hw' hQ'

theorem Triple.mono (h : K.Triple i A p Q) (hQ : ∀ τ a w, Q τ a w → Q' τ a w) : K.Triple i A p Q' :=
  fun τ w hw hA => (h τ w hw hA).mono hQ

def Performs (K : Contract S) (i : ι) (A : List (Answered Res) → W → Prop) (o : Op)
    (R : Res o → List (Answered Res) → W → Prop) : Prop :=
  ∀ τ w ch r w', K.inv w → A τ w → S.act i o ch w = some (r, w') →
    (K.inv w' ∧ K.guarantee i o w w') ∧ R r (τ ++ [⟨o, r⟩]) w'

theorem Triple.perform {R : Res o → List (Answered Res) → W → Prop} {f : Res o → Program Op Res β}
    (hA : K.Stable i A) (ho : K.Performs i A o R) (hf : ∀ r, K.Triple i (R r) (f r) Q) :
    K.Triple i A (perform o >>= f) Q := by
  intro τ w hw hτ w₁ hr hw₁ ch r w₂ ha
  obtain ⟨hkept, hR⟩ := ho τ w₁ ch r w₂ hw₁ (hA τ w w₁ hr hw₁ hτ) ha
  exact ⟨hkept, hf r _ _ hkept.1 hR⟩

theorem Triple.of_meets {P : Op → Prop} {R : β → Prop} (hA : K.Stable i A) (hp : p.Meets P R)
    (ho : ∀ o, P o → K.Performs i A o fun _ => A) :
    K.Triple i A p fun τ a w => R a ∧ A τ w := by
  induction p with
  | ret a => exact Triple.ret fun _ _ h => ⟨hp, h⟩
  | call o k ih => exact Triple.perform (f := k) hA (ho o hp.1) fun r => ih r (hp.2 r)

/-! ## Runs -/

variable [DecidableEq ι]

/-- In every reachable configuration the invariant holds and every running handler is safe. -/
theorem reaches_safe {w₀ : W} {ok : Config ι Op Res W Req α → Event ι Req Choice Env → Prop}
    (K : Contract S) (Q : ι → Req → List (Answered Res) → α → W → Prop)
    (hQ : ∀ i q a, K.Stable i (Q i q · a)) (h₀ : K.inv w₀)
    (hstart : ∀ i q w, K.inv w → S.admits w i q = true → K.Safe i (Q i q) (S.handler q) [] w)
    {c : Config ι Op Res W Req α} (h : S.Reaches w₀ ok c) :
    K.inv c.world ∧ ∀ i t, c.threads i = some t → K.Safe i (Q i t.request) t.rest t.trace c.world := by
  induction h with
  | init => exact ⟨h₀, fun _ _ ht => nomatch ht⟩
  | @step c c' e _ _ hs ih =>
    obtain ⟨hinv, hsafe⟩ := ih
    cases hs with
    | @arrive j q hidle hadm =>
      refine ⟨hinv, fun i t ht => ?_⟩
      by_cases hj : i = j
      · subst hj
        rw [Config.arrived_threads_self] at ht
        obtain rfl := Option.some.inj ht
        exact hstart i q _ hinv hadm
      · rw [Config.arrived_threads_ne hj] at ht
        exact hsafe i t ht
    | @call j u o k ch r w hu hrest hact =>
      have hj := hsafe j u hu
      rw [hrest] at hj
      -- the guarantee of the step is what the other programs rely on
      obtain ⟨⟨hinv', hg⟩, hnext⟩ := hj _ (K.refl j _) hinv ch r w hact
      refine ⟨hinv', fun i t ht => ?_⟩
      by_cases hij : i = j
      · subst hij
        rw [Config.called_threads_self] at ht
        obtain rfl := Option.some.inj ht
        exact hnext
      · rw [Config.called_threads_ne hij] at ht
        exact (hsafe i t ht).rely (hQ i t.request) (K.compat (Ne.symm hij) hinv hg) hinv'
    | @answer j u a hu hrest =>
      refine ⟨hinv, fun i t ht => ?_⟩
      by_cases hj : i = j
      · subst hj
        rw [Config.answered_threads_self] at ht
        exact nomatch ht
      · rw [Config.answered_threads_ne hj] at ht
        exact hsafe i t ht
    | @drift e =>
      exact ⟨K.drift_inv e hinv, fun i t ht =>
        (hsafe i t ht).rely (hQ i t.request) (K.drift_rely i e hinv) (K.drift_inv e hinv)⟩
    | @restart ch => exact ⟨K.restart_inv ch hinv, fun _ _ ht => nomatch ht⟩

end Contract
end Concurrency

import Fubun.Concurrency.System

/-! Requests that nobody notices. A run without its hidden requests answers the others alike, when
no operation of a hidden request changes what the others can see of the world. -/

namespace Concurrency
open Program

variable {ι Op : Type} {Res : Op → Type} {W Req α Choice Env β : Type}

def shown (shows : α → Option β) (log : List (Label ι Res Req α)) : List (ι × β) :=
  log.filterMap fun
    | .answer i a => (shows a).map fun b => (i, b)
    | _ => none

section Shown
variable {shows : α → Option β} {log log' : List (Label ι Res Req α)} {i : ι}

@[simp] theorem shown_append : shown shows (log ++ log') = shown shows log ++ shown shows log' :=
  List.filterMap_append

@[simp] theorem shown_nil : shown shows ([] : List (Label ι Res Req α)) = [] := rfl

@[simp] theorem shown_arrive {q : Req} : shown shows (.arrive i q :: log) = shown shows log := rfl

@[simp] theorem shown_call {o : Op} {r : Res o} : shown shows (.call i o r :: log) = shown shows log := rfl

@[simp] theorem shown_drift : shown shows (.drift :: log) = shown shows log := rfl

@[simp] theorem shown_restart : shown shows (.restart :: log) = shown shows log := rfl

theorem shown_answer {a : α} :
    shown shows ([.answer i a] : List (Label ι Res Req α)) = ((shows a).map fun b => (i, b)).toList := by
  cases h : shows a <;> simp [shown, h]

end Shown

variable [DecidableEq ι]

/-! ## Schedules without the hidden requests -/

section Schedules
variable (hidden : Req → Bool)

/-- Whether an event is not about a hidden request; `busy` are the connections that serve one. -/
def kept (busy : List ι) : Event ι Req Choice Env → Bool
  | .arrive _ q => ! hidden q
  | .call i _ | .answer i => decide (i ∉ busy)
  | .drift _ | .restart _ => true

def serving (busy : List ι) : Event ι Req Choice Env → List ι
  | .arrive i q => if hidden q then i :: busy else busy
  | .answer i => busy.filter (· ≠ i)
  | .restart _ => []
  | .call .. | .drift _ => busy

def visible : List ι → List (Event ι Req Choice Env) → List (Event ι Req Choice Env)
  | _, [] => []
  | busy, e :: es =>
    if kept hidden busy e then e :: visible (serving hidden busy e) es
    else visible (serving hidden busy e) es

end Schedules

theorem System.Step.step_eq {S : System ι Op Res W Req α Choice Env} {c d : Config ι Op Res W Req α}
    {e : Event ι Req Choice Env} (h : S.Step c e d) : S.step c e = some d := by
  cases h with
  | arrive hidle hadm => simp only [System.step, hidle, hadm, if_true]
  | call ht hrest hact => simp only [System.step, ht, hrest, hact, Option.map_some]
  | answer ht hrest => simp only [System.step, ht, hrest]
  | drift => rfl
  | restart => rfl

/-! ## Runs without the hidden requests -/

/-- In runs from `w₀` no hidden request changes what `Rel` keeps of the world, and the other requests
do `Alike` on worlds so related. -/
structure Unnoticed (S : System ι Op Res W Req α Choice Env) (w₀ : W)
    (ok : Config ι Op Res W Req α → Event ι Req Choice Env → Prop) (hidden : Req → Bool) (shows : α → Option β) where
  Rel : W → W → Prop
  Alike : Program Op Res α → Program Op Res α → Prop
  refl : ∀ p, Alike p p
  admits : ∀ {w w' i q}, Rel w w' → S.admits w i q = S.admits w' i q
  hiddenCall : ∀ {c i t o k ch r w w'}, S.Reaches w₀ ok c → c.threads i = some t → hidden t.request = true →
    t.rest = .call o k → S.act i o ch c.world = some (r, w) → Rel c.world w' → Rel w w'
  hiddenAnswer : ∀ {c i t a}, S.Reaches w₀ ok c → c.threads i = some t → hidden t.request = true →
    t.rest = .ret a → shows a = none
  call : ∀ {c i t o k ch r w p w'}, S.Reaches w₀ ok c → ok c (.call i ch) → c.threads i = some t →
    hidden t.request = false → t.rest = .call o k → S.act i o ch c.world = some (r, w) → Rel c.world w' →
    Alike (.call o k) p →
    ∃ o' k' r' w'', p = .call o' k' ∧ S.act i o' ch w' = some (r', w'') ∧ Rel w w'' ∧ Alike (k r) (k' r')
  answer : ∀ {a p}, Alike (.ret a) p → ∃ a', p = .ret a' ∧ shows a = shows a'
  drift : ∀ {w w' e}, Rel w w' → Rel (S.drift e w) (S.drift e w')
  restart : ∀ {w w' ch}, Rel w w' → Rel (S.restart ch w) (S.restart ch w')

namespace Unnoticed
variable {S : System ι Op Res W Req α Choice Env} {w₀ : W}
  {ok : Config ι Op Res W Req α → Event ι Req Choice Env → Prop} {hidden : Req → Bool} {shows : α → Option β}

/-- Two threads that are both idle, or serve a request alike. -/
def Matching (U : Unnoticed S w₀ ok hidden shows) : Option (Thread Op Res Req α) → Option (Thread Op Res Req α) → Prop
  | none, none => True
  | some t, some t' => hidden t.request = false ∧ U.Alike t.rest t'.rest
  | _, _ => False

/-- A configuration and its counterpart in the run without the hidden requests. -/
structure Sim (U : Unnoticed S w₀ ok hidden shows) (busy : List ι) (c c' : Config ι Op Res W Req α) : Prop where
  world : U.Rel c.world c'.world
  answers : shown shows c.log = shown shows c'.log
  served : ∀ i ∈ busy, c'.threads i = none ∧ ∃ t, c.threads i = some t ∧ hidden t.request = true
  others : ∀ i ∉ busy, U.Matching (c.threads i) (c'.threads i)

variable {U : Unnoticed S w₀ ok hidden shows} {busy : List ι} {c c' d : Config ι Op Res W Req α}
  {e : Event ι Req Choice Env} {i : ι} {t : Thread Op Res Req α}

theorem Sim.idle (h : U.Sim busy c c') (hidle : c.threads i = none) : i ∉ busy ∧ c'.threads i = none := by
  have hi : i ∉ busy := by
    intro hmem
    obtain ⟨-, t, ht, -⟩ := h.served i hmem
    exact nomatch hidle.symm.trans ht
  refine ⟨hi, ?_⟩
  have hmatch := h.others i hi
  rw [hidle] at hmatch
  cases hthread : c'.threads i with
  | none => rfl
  | some t => exact (hthread ▸ hmatch).elim

theorem Sim.running (h : U.Sim busy c c') (hi : i ∉ busy) (ht : c.threads i = some t) :
    hidden t.request = false ∧ ∃ t', c'.threads i = some t' ∧ U.Alike t.rest t'.rest := by
  have hmatch := h.others i hi
  rw [ht] at hmatch
  cases hthread : c'.threads i with
  | none => exact (hthread ▸ hmatch).elim
  | some t' =>
    rw [hthread] at hmatch
    exact ⟨hmatch.1, t', rfl, hmatch.2⟩

theorem Sim.hide (h : U.Sim busy c c') (hreach : S.Reaches w₀ ok c) (hs : S.Step c e d)
    (he : kept hidden busy e = false) : U.Sim (serving hidden busy e) d c' := by
  cases hs with
  | @arrive i q hidle hadm =>
    have hq : hidden q = true := by simpa [kept] using he
    obtain ⟨hi, hidle'⟩ := h.idle hidle
    simp only [serving, hq, if_true]
    constructor
    · exact h.world
    · simpa using h.answers
    -- the connection is busy from now on, and idle in the other run
    · intro j hj
      by_cases hji : j = i
      · subst hji
        exact ⟨hidle', _, Config.arrived_threads_self, hq⟩
      · rw [Config.arrived_threads_ne hji]
        exact h.served j ((List.mem_cons.mp hj).resolve_left hji)
    · intro j hj
      have hji : j ≠ i := fun heq => hj (heq ▸ List.mem_cons_self)
      rw [Config.arrived_threads_ne hji]
      exact h.others j fun hmem => hj (List.mem_cons_of_mem _ hmem)
  | @call i t o k ch r w ht hrest hact =>
    have hi : i ∈ busy := by simpa [kept] using he
    obtain ⟨hidle', u, hu, hhidden⟩ := h.served i hi
    obtain rfl := Option.some.inj (ht.symm.trans hu)
    constructor
    · exact U.hiddenCall hreach ht hhidden hrest hact h.world
    · simpa using h.answers
    · intro j hj
      by_cases hji : j = i
      · subst hji
        exact ⟨hidle', _, Config.called_threads_self, hhidden⟩
      · rw [Config.called_threads_ne hji]
        exact h.served j hj
    · intro j hj
      have hji : j ≠ i := fun heq => hj (heq ▸ hi)
      rw [Config.called_threads_ne hji]
      exact h.others j hj
  | @answer i t a ht hrest =>
    have hi : i ∈ busy := by simpa [kept] using he
    obtain ⟨hidle', u, hu, hhidden⟩ := h.served i hi
    obtain rfl := Option.some.inj (ht.symm.trans hu)
    have hnone := U.hiddenAnswer hreach ht hhidden hrest
    constructor
    · exact h.world
    · simpa [shown_answer, hnone] using h.answers
    · intro j hj
      obtain ⟨hmem, hji⟩ := List.mem_filter.mp hj
      rw [Config.answered_threads_ne (of_decide_eq_true hji)]
      exact h.served j hmem
    · intro j hj
      by_cases hji : j = i
      · subst hji
        rw [Config.answered_threads_self, hidle']
        trivial
      · rw [Config.answered_threads_ne hji]
        exact h.others j fun hmem => hj (List.mem_filter.mpr ⟨hmem, decide_eq_true hji⟩)
  | drift => exact nomatch he
  | restart => exact nomatch he

theorem Sim.keep (h : U.Sim busy c c') (hreach : S.Reaches w₀ ok c) (hok : ok c e) (hs : S.Step c e d)
    (he : kept hidden busy e = true) : ∃ d', S.Step c' e d' ∧ U.Sim (serving hidden busy e) d d' := by
  cases hs with
  | @arrive i q hidle hadm =>
    have hq : hidden q = false := by simpa [kept] using he
    obtain ⟨hi, hidle'⟩ := h.idle hidle
    refine ⟨_, .arrive hidle' ((U.admits h.world).symm.trans hadm), ?_⟩
    simp only [serving, hq]
    constructor
    · exact h.world
    · simpa using h.answers
    · intro j hj
      have hji : j ≠ i := fun heq => hi (heq ▸ hj)
      rw [Config.arrived_threads_ne hji, Config.arrived_threads_ne hji]
      exact h.served j hj
    · intro j hj
      by_cases hji : j = i
      · subst hji
        rw [Config.arrived_threads_self, Config.arrived_threads_self]
        exact ⟨hq, U.refl _⟩
      · rw [Config.arrived_threads_ne hji, Config.arrived_threads_ne hji]
        exact h.others j hj
  | @call i t o k ch r w ht hrest hact =>
    have hi : i ∉ busy := by simpa [kept] using he
    obtain ⟨hhidden, t', ht', halike⟩ := h.running hi ht
    rw [hrest] at halike
    -- the handlers are alike, so the other run has an operation that matches
    obtain ⟨o', k', r', w', hrest', hact', hworld, hnext⟩ :=
      U.call hreach hok ht hhidden hrest hact h.world halike
    refine ⟨_, .call ht' hrest' hact', ?_⟩
    constructor
    · exact hworld
    · simpa using h.answers
    · intro j hj
      have hji : j ≠ i := fun heq => hi (heq ▸ hj)
      rw [Config.called_threads_ne hji, Config.called_threads_ne hji]
      exact h.served j hj
    · intro j hj
      by_cases hji : j = i
      · subst hji
        rw [Config.called_threads_self, Config.called_threads_self]
        exact ⟨hhidden, hnext⟩
      · rw [Config.called_threads_ne hji, Config.called_threads_ne hji]
        exact h.others j hj
  | @answer i t a ht hrest =>
    have hi : i ∉ busy := by simpa [kept] using he
    obtain ⟨-, t', ht', halike⟩ := h.running hi ht
    rw [hrest] at halike
    obtain ⟨a', hrest', hshows⟩ := U.answer halike
    have hbusy : busy.filter (· ≠ i) = busy :=
      List.filter_eq_self.mpr fun j hj => decide_eq_true fun heq => hi (heq ▸ hj)
    refine ⟨_, .answer ht' hrest', ?_⟩
    simp only [serving, hbusy]
    constructor
    · exact h.world
    · simp [shown_answer, h.answers, hshows]
    · intro j hj
      have hji : j ≠ i := fun heq => hi (heq ▸ hj)
      rw [Config.answered_threads_ne hji, Config.answered_threads_ne hji]
      exact h.served j hj
    · intro j hj
      by_cases hji : j = i
      · subst hji
        rw [Config.answered_threads_self, Config.answered_threads_self]
        trivial
      · rw [Config.answered_threads_ne hji, Config.answered_threads_ne hji]
        exact h.others j hj
  | drift =>
    refine ⟨_, .drift, ⟨U.drift h.world, ?_, h.served, h.others⟩⟩
    simpa using h.answers
  | restart =>
    refine ⟨_, .restart, ⟨U.restart h.world, ?_, fun i hi => (nomatch hi), fun _ _ => trivial⟩⟩
    simpa using h.answers

/-- A run leads to the counterpart of where the run without its hidden requests leads. -/
theorem Sim.exec [∀ c e, Decidable (ok c e)] {es : List (Event ι Req Choice Env)} (h : U.Sim busy c c')
    (hreach : S.Reaches w₀ ok c) (hexec : S.execIf ok c es = some d) :
    ∃ busy' d', S.exec c' (visible hidden busy es) = some d' ∧ U.Sim busy' d d' := by
  induction es generalizing busy c c' with
  | nil => exact ⟨busy, c', rfl, Option.some.inj hexec ▸ h⟩
  | cons e es ih =>
    rw [System.execIf, List.foldlM_cons] at hexec
    obtain ⟨c₁, hstep, hrest⟩ := Option.bind_eq_some_iff.mp hexec
    split_ifs at hstep with hok
    have hs := System.step_cases hstep
    have hreach₁ := hreach.step hok hs
    rw [visible]
    split_ifs with he
    · obtain ⟨d₁, hs', hsim⟩ := h.keep hreach hok hs he
      obtain ⟨busy', d', hd', hsim'⟩ := ih hsim hreach₁ hrest
      refine ⟨busy', d', ?_, hsim'⟩
      rw [System.exec, List.foldlM_cons, hs'.step_eq]
      exact hd'
    · exact ih (h.hide hreach hs (Bool.eq_false_iff.mpr he)) hreach₁ hrest

/-- Two runs whose schedules are the same without the hidden requests show the same answers, and leave
worlds that look like one and the same. -/
theorem exec_visible [∀ c e, Decidable (ok c e)] (U : Unnoticed S w₀ ok hidden shows) (h₀ : U.Rel w₀ w₀)
    {es₁ es₂ : List (Event ι Req Choice Env)} {c₁ c₂ : Config ι Op Res W Req α}
    (h₁ : S.execIf ok (.init w₀) es₁ = some c₁) (h₂ : S.execIf ok (.init w₀) es₂ = some c₂)
    (hes : visible hidden [] es₁ = visible hidden [] es₂) :
    shown shows c₁.log = shown shows c₂.log ∧ ∃ w, U.Rel c₁.world w ∧ U.Rel c₂.world w := by
  have hinit : U.Sim [] (.init w₀) (.init w₀) := ⟨h₀, rfl, fun i hi => (nomatch hi), fun _ _ => trivial⟩
  obtain ⟨_, d₁, hd₁, hsim₁⟩ := hinit.exec .init h₁
  obtain ⟨_, d₂, hd₂, hsim₂⟩ := hinit.exec .init h₂
  rw [hes, hd₂] at hd₁
  obtain rfl := Option.some.inj hd₁
  exact ⟨hsim₁.answers.trans hsim₂.answers.symm, d₂.world, hsim₁.world, hsim₂.world⟩

end Unnoticed
end Concurrency

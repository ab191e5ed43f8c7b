import Fubun.Concurrency.System
import Mathlib.Data.List.DropRight

/-! The log of a run as its history. Every operation in it was issued on a path of
the handler that its connection ran then; what a view of the world shows is what
the logged operations make of its first value; and a fact that held at no start was
established by some operation in the log. -/

namespace Concurrency
open Program

variable {ι Op : Type} {Res : Op → Type} {W Req α Choice Env : Type}

/-! ## What a connection has done for its running request -/

section Since
variable [DecidableEq ι] {i : ι} {log earlier later before after : List (Label ι Res Req α)}

theorem callsOf_eq_append {τ₁ τ₂ : List (Answered Res)} (h : callsOf i log = τ₁ ++ τ₂) :
    ∃ before after, log = before ++ after ∧ callsOf i before = τ₁ ∧ callsOf i after = τ₂ :=
  List.filterMap_eq_append_iff.mp h

def Label.arrives (i : ι) : Label ι Res Req α → Bool
  | .arrive j _ => j = i
  | _ => false

def Label.calls (i : ι) : Label ι Res Req α → Bool
  | .call j _ _ => j = i
  | _ => false

theorem Label.arrives_le {l : Label ι Res Req α} (h : l.interrupts i = false) :
    l.arrives i = false := by
  cases l with
  | arrive j q => exact h
  | _ => rfl

theorem calls_of_callsOf_nil (h : callsOf i log = []) : ∀ l ∈ log, l.calls i = false := by
  intro l hl
  cases l with
  | call j o r =>
    by_contra hj
    obtain rfl : j = i := by simpa [Label.calls] using hj
    have hm : (⟨o, r⟩ : Answered Res) ∈ callsOf j log := (mem_callsOf j log).mpr hl
    exact absurd (h ▸ hm) List.not_mem_nil
  | _ => rfl

/-- What was logged after the running request of a connection had its first operation answered. -/
def sinceFirst (i : ι) (log : List (Label ι Res Req α)) : List (Label ι Res Req α) :=
  ((log.rtakeWhile fun l => ! l.arrives i).dropWhile fun l => ! l.calls i).tail

theorem rtakeWhile_of_forall {β : Type} {p : β → Bool} {x : β} {xs ys : List β} (hx : p x = false)
    (hys : ∀ y ∈ ys, p y = true) : (xs ++ x :: ys).rtakeWhile p = ys := by
  induction ys using List.reverseRecOn with
  | nil => exact List.rtakeWhile_concat_neg p xs x (by simp [hx])
  | append_singleton ys y ih =>
    have hy : p y = true := hys y (by simp)
    rw [← List.cons_append, ← List.append_assoc, List.rtakeWhile_concat_pos p _ y hy,
      ih fun z hz => hys z (by simp [hz])]

theorem sinceFirst_eq {q : Req} {o : Op} {r : Res o}
    (hlater : ∀ l ∈ before ++ .call i o r :: after, l.interrupts i = false)
    (hbefore : callsOf i before = []) :
    sinceFirst i (earlier ++ .arrive i q :: (before ++ .call i o r :: after)) = after := by
  have harrive : (earlier ++ .arrive i q :: (before ++ .call i o r :: after)).rtakeWhile
      (fun l => ! l.arrives i) = before ++ .call i o r :: after := by
    apply rtakeWhile_of_forall
    · simp [Label.arrives]
    · intro l hl
      rw [Label.arrives_le (hlater l hl)]
      rfl
  have hdrop : (before ++ .call i o r :: after).dropWhile (fun l => ! l.calls i) =
      .call i o r :: after := by
    rw [List.dropWhile_append_of_pos]
    · simp [Label.calls]
    · intro l hl
      rw [calls_of_callsOf_nil hbefore l hl]
      rfl
  rw [sinceFirst, harrive, hdrop, List.tail_cons]

/-- A connection serves a request at the end of a log, and has been answered `τ` for it. -/
def Serving (i : ι) (q : Req) (τ : List (Answered Res)) (log : List (Label ι Res Req α)) : Prop :=
  ∃ earlier later, log = earlier ++ .arrive i q :: later ∧ callsOf i later = τ ∧ ∀ l ∈ later, l.interrupts i = false

theorem Serving.unique {q q' : Req} {τ τ' : List (Answered Res)} (h : Serving i q τ log) (h' : Serving i q' τ' log) :
    q = q' ∧ τ = τ' := by
  obtain ⟨earlier, later, hlog, rfl, hlater⟩ := h
  obtain ⟨earlier', later', hlog', rfl, hlater'⟩ := h'
  have hsuffix {earlier later : List (Label ι Res Req α)} {q : Req} (hlog : log = earlier ++ .arrive i q :: later)
      (hlater : ∀ l ∈ later, l.interrupts i = false) : log.rtakeWhile (fun l => ! l.interrupts i) = later := by
    rw [hlog]
    apply rtakeWhile_of_forall
    · simp [Label.interrupts]
    · intro l hl
      rw [hlater l hl]
      rfl
  have hsame : later = later' := (hsuffix hlog hlater).symm.trans (hsuffix hlog' hlater')
  subst hsame
  obtain ⟨-, hcons⟩ := List.append_inj' (hlog.symm.trans hlog') rfl
  exact ⟨(Label.arrive.inj (List.cons.inj hcons).1).2, rfl⟩

end Since

namespace System
variable {S : System ι Op Res W Req α Choice Env}

/-! ## Views of the world -/

variable (S) in
/-- A view of the world that only some labels of the log change, each by what it writes. -/
structure Replayed (σ ω : Type) where
  view : W → σ
  write : Label ι Res Req α → Option ω
  apply : σ → ω → σ
  arrive : ∀ i q, write (.arrive i q) = none
  act : ∀ {i o ch w r w'}, S.act i o ch w = some (r, w') →
    view w' = ((write (.call i o r)).map (apply (view w))).getD (view w)
  answer : ∀ i a, write (.answer i a) = none
  drift : write .drift = none ∧ ∀ e w, view (S.drift e w) = view w
  restart : write .restart = none ∧ ∀ ch w, view (S.restart ch w) = view w

section Writes
variable {σ ω : Type} (V : S.Replayed σ ω)

def Replayed.writes (log : List (Label ι Res Req α)) : List ω := log.filterMap V.write

@[simp] theorem Replayed.writes_append (log log' : List (Label ι Res Req α)) :
    V.writes (log ++ log') = V.writes log ++ V.writes log' := List.filterMap_append

theorem Replayed.exists_of_mem {log : List (Label ι Res Req α)} {w : ω} (h : w ∈ V.writes log) :
    ∃ before l after, log = before ++ l :: after ∧ V.write l = some w := by
  obtain ⟨l, hl, hw⟩ := List.mem_filterMap.mp h
  obtain ⟨before, after, rfl⟩ := List.append_of_mem hl
  exact ⟨before, l, after, rfl, hw⟩

theorem Replayed.last_write {log : List (Label ι Res Req α)} {ws : List ω} {w : ω}
    (h : V.writes log = ws ++ [w]) :
    ∃ before l after, log = before ++ l :: after ∧ V.write l = some w ∧ V.writes after = [] := by
  obtain ⟨before, rest, rfl, -, hrest⟩ := List.filterMap_eq_append_iff.mp h
  obtain ⟨skipped, l, after, rfl, -, hl, hafter⟩ := List.filterMap_eq_cons_iff.mp hrest
  exact ⟨before ++ skipped, l, after, by simp, hl, hafter⟩

end Writes

variable [DecidableEq ι] {c c' : Config ι Op Res W Req α}
  {e : Event ι Req Choice Env} {w₀ : W}
  {ok : Config ι Op Res W Req α → Event ι Req Choice Env → Prop}

/-! ## Splitting a run -/

theorem split_snoc {β : Type} {log before after : List β} {l x : β}
    (h : log ++ [l] = before ++ x :: after) :
    (after = [] ∧ x = l ∧ before = log) ∨ ∃ after', after = after' ++ [l] ∧ log = before ++ x :: after' := by
  rcases List.eq_nil_or_concat after with rfl | ⟨after', y, rfl⟩
  · obtain ⟨hlog, hl⟩ := List.append_inj' h rfl
    exact .inl ⟨rfl, (List.cons.inj hl).1.symm, hlog.symm⟩
  · rw [List.concat_eq_append, ← List.cons_append, ← List.append_assoc] at h
    obtain ⟨hlog, hl⟩ := List.append_inj' h rfl
    obtain rfl := (List.cons.inj hl).1
    exact .inr ⟨after', List.concat_eq_append, hlog⟩

/-- A list that has grown at its end and is split in two: the second part has grown, or it is empty. -/
theorem append_snoc {β : Type} {log before after : List β} {l : β} (h : log ++ [l] = before ++ after) :
    (after = [] ∧ before = log ++ [l]) ∨ ∃ after', after = after' ++ [l] ∧ log = before ++ after' := by
  rcases List.eq_nil_or_concat after with rfl | ⟨after', y, rfl⟩
  · exact .inl ⟨rfl, by rw [h, List.append_nil]⟩
  · rw [List.concat_eq_append, ← List.append_assoc] at h
    obtain ⟨hlog, hl⟩ := List.append_inj' h rfl
    obtain rfl := (List.cons.inj hl).1
    exact .inr ⟨after', List.concat_eq_append, hlog⟩

theorem Step.log (h : S.Step c e c') : ∃ l, c'.log = c.log ++ [l] := by
  cases h <;> exact ⟨_, rfl⟩

/-- Every operation in the log was issued by the handler of the request that its connection
served then, after what that connection had been answered. -/
theorem Reaches.called (h : S.Reaches w₀ ok c) {before after : List (Label ι Res Req α)} {i : ι}
    {o : Op} {r : Res o} (hlog : c.log = before ++ .call i o r :: after) :
    ∃ earlier q later k, before = earlier ++ .arrive i q :: later ∧
      (∀ l ∈ later, l.interrupts i = false) ∧
      Leads (S.handler q) (callsOf i later) (.call o k) := by
  induction h generalizing after with
  | init =>
    exfalso
    cases before <;> exact nomatch hlog
  | @step c c' e hr _ hs ih =>
    obtain ⟨l, hl⟩ := hs.log
    -- the operation is the last label, or it was in the log before
    rcases split_snoc (hl.symm.trans hlog) with ⟨rfl, hx, rfl⟩ | ⟨after', rfl, hc⟩
    · cases hs with
      | @call j u o' k ch r' w hu hrest hact =>
        obtain rfl := (List.cons.inj (List.append_cancel_left hl)).1
        obtain ⟨rfl, rfl, hr'⟩ := Label.call.inj hx
        obtain ⟨earlier, later, he, hcalls, hq⟩ := (hr.traced hu).since
        exact ⟨earlier, u.request, later, k, he, hq, hcalls ▸ hrest ▸ (hr.traced hu).leads⟩
      | arrive =>
        obtain rfl := (List.cons.inj (List.append_cancel_left hl)).1
        exact nomatch hx
      | answer =>
        obtain rfl := (List.cons.inj (List.append_cancel_left hl)).1
        exact nomatch hx
      | drift =>
        obtain rfl := (List.cons.inj (List.append_cancel_left hl)).1
        exact nomatch hx
      | restart =>
        obtain rfl := (List.cons.inj (List.append_cancel_left hl)).1
        exact nomatch hx
    · exact ih hc

/-- A run whose log splits at a label was at the first part when it took that step. -/
theorem Reaches.split (h : S.Reaches w₀ ok c) {before after : List (Label ι Res Req α)}
    {l : Label ι Res Req α} (hlog : c.log = before ++ l :: after) :
    ∃ d e d', S.Reaches w₀ ok d ∧ ok d e ∧ S.Step d e d' ∧ d.log = before ∧ d'.log = d.log ++ [l] := by
  induction h generalizing after with
  | init =>
    exfalso
    cases before <;> exact nomatch hlog
  | @step c c' e hr hok hs ih =>
    obtain ⟨l', hl⟩ := hs.log
    rcases split_snoc (hl.symm.trans hlog) with ⟨rfl, rfl, rfl⟩ | ⟨after', rfl, hc⟩
    · exact ⟨c, e, c', hr, hok, hs, rfl, hl⟩
    · exact ih hc

theorem Step.call_of_log (hs : S.Step c e c') {i : ι} {o : Op} {r : Res o}
    (hl : c'.log = c.log ++ [.call i o r]) :
    ∃ t k ch, e = .call i ch ∧ c.threads i = some t ∧ t.rest = .call o k ∧
      S.act i o ch c.world = some (r, c'.world) := by
  cases hs with
  | @call j u o' k ch r' w hu hrest hact =>
    obtain ⟨rfl, rfl, hr⟩ := Label.call.inj (List.cons.inj (List.append_cancel_left hl)).1
    obtain rfl := eq_of_heq hr
    exact ⟨u, k, ch, rfl, hu, hrest, hact⟩
  | arrive => exact nomatch (List.cons.inj (List.append_cancel_left hl)).1
  | answer => exact nomatch (List.cons.inj (List.append_cancel_left hl)).1
  | drift => exact nomatch (List.cons.inj (List.append_cancel_left hl)).1
  | restart => exact nomatch (List.cons.inj (List.append_cancel_left hl)).1

theorem Reaches.serving (h : S.Reaches w₀ ok c) {i : ι} {t : Thread Op Res Req α} (ht : c.threads i = some t) :
    Serving i t.request t.trace c.log := (h.traced ht).since

theorem Reaches.split_call (h : S.Reaches w₀ ok c) {before after : List (Label ι Res Req α)} {i : ι}
    {o : Op} {r : Res o} (hlog : c.log = before ++ .call i o r :: after) :
    ∃ d d' t k ch, S.Reaches w₀ ok d ∧ d.log = before ∧ ok d (.call i ch) ∧ d.threads i = some t ∧
      t.rest = .call o k ∧ S.act i o ch d.world = some (r, d'.world) ∧
      S.Reaches w₀ ok d' ∧ d'.log = before ++ [.call i o r] := by
  obtain ⟨d, e, d', hd, hok, hs, rfl, hdlog'⟩ := h.split hlog
  obtain ⟨t, k, ch, rfl, ht, hrest, hact⟩ := hs.call_of_log hdlog'
  exact ⟨d, d', t, k, ch, hd, rfl, hok, ht, hrest, hact, hd.step hok hs, hdlog'⟩

/-! ## Views as replays of the log -/

section Replay
variable {σ ω : Type} (V : S.Replayed σ ω)

theorem Replayed.step (hs : S.Step c e c') {l : Label ι Res Req α} (hl : c'.log = c.log ++ [l]) :
    V.view c'.world = (V.writes [l]).foldl V.apply (V.view c.world) := by
  have hwrites : ∀ {l' : Label ι Res Req α} {s : σ}, c.log ++ [l'] = c.log ++ [l] →
      (V.writes [l]).foldl V.apply s = ((V.write l').map (V.apply s)).getD s := by
    intro l' s heq
    obtain rfl := (List.cons.inj (List.append_cancel_left heq)).1
    cases hw : V.write l' with
    | none => simp [Replayed.writes, hw]
    | some w => simp [Replayed.writes, hw]
  cases hs with
  | arrive =>
    rw [hwrites hl, V.arrive]
    rfl
  | call _ _ hact =>
    rw [hwrites hl]
    exact V.act hact
  | answer =>
    rw [hwrites hl, V.answer]
    rfl
  | drift =>
    rw [hwrites hl, V.drift.1]
    exact V.drift.2 _ _
  | restart =>
    rw [hwrites hl, V.restart.1]
    exact V.restart.2 _ _

theorem Reaches.replay (h : S.Reaches w₀ ok c) :
    V.view c.world = (V.writes c.log).foldl V.apply (V.view w₀) := by
  induction h with
  | init => rfl
  | step _ _ hs ih =>
    obtain ⟨l, hl⟩ := hs.log
    rw [V.step hs hl, hl, V.writes_append, List.foldl_append, ih]

/-- What was logged after a configuration says how the view has changed since. -/
theorem Reaches.replay_since (h : S.Reaches w₀ ok c) {d : Config ι Op Res W Req α}
    (hd : S.Reaches w₀ ok d) {after : List (Label ι Res Req α)} (hlog : c.log = d.log ++ after) :
    V.view c.world = (V.writes after).foldl V.apply (V.view d.world) := by
  rw [h.replay V, hd.replay V, hlog, V.writes_append, List.foldl_append]

end Replay

/-! ## Who established a fact -/

/-- A fact that did not hold at the start, and that only some operations establish, was
established by one of them in the log. -/
theorem Reaches.origin (h : S.Reaches w₀ ok c) {P : W → Prop} {Q : (o : Op) → Res o → Prop}
    (h₀ : ¬ P w₀)
    (act : ∀ {i o ch w r w'}, S.act i o ch w = some (r, w') → P w' → P w ∨ Q o r)
    (drift : ∀ e w, P (S.drift e w) → P w) (restart : ∀ ch w, P (S.restart ch w) → P w)
    (hP : P c.world) : ∃ before i o r after, c.log = before ++ .call i o r :: after ∧ Q o r := by
  induction h with
  | init => exact absurd hP h₀
  | @step c c' e _ _ hs ih =>
    have hgrow : P c.world →
        ∃ before i o r after, c'.log = before ++ .call i o r :: after ∧ Q o r := by
      intro hc
      obtain ⟨before, i, o, r, after, hlog, hq⟩ := ih hc
      obtain ⟨l, hl⟩ := hs.log
      exact ⟨before, i, o, r, after ++ [l], by simp [hl, hlog], hq⟩
    cases hs with
    | arrive => exact hgrow hP
    | @call i t o k ch r w ht hrest hact =>
      rcases act hact hP with hc | hq
      · exact hgrow hc
      · exact ⟨c.log, i, o, r, [], rfl, hq⟩
    | answer => exact hgrow hP
    | drift => exact hgrow (drift _ _ hP)
    | restart => exact hgrow (restart _ _ hP)

end System
end Concurrency

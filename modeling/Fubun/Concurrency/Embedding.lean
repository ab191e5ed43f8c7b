import Fubun.Concurrency.History

/-! A system with further handlers, which share its world and have a part of their own. When they leave
the shared part as it is, every run of the larger system shows a run of the smaller one. -/

namespace Concurrency
open Program

variable {ι Op More : Type} {Res : Op → Type} {M : More → Type} {W V Req ReqM α β Choice ChM Env EnvM : Type}

/-! ## Programs over more operations -/

abbrev BothRes (Res : Op → Type) (M : More → Type) : Op ⊕ More → Type := Sum.elim Res M

def Answered.lift (x : Answered Res) : Answered (BothRes Res M) := ⟨.inl x.op, x.res⟩

def Program.lift : Program Op Res α → Program (Op ⊕ More) (BothRes Res M) α
  | .ret a => .ret a
  | .call o k => .call (.inl o) fun r => (k r).lift

@[simp] theorem Program.lift_ret (a : α) : (.ret a : Program Op Res α).lift (M := M) = .ret a := rfl

@[simp] theorem Program.lift_call (o : Op) (k : Res o → Program Op Res α) :
    (Program.call o k).lift (M := M) = .call (.inl o) fun r => (k r).lift := rfl

theorem Program.lift_eq_call {p : Program Op Res α} {o : Op ⊕ More}
    {k : BothRes Res M o → Program (Op ⊕ More) (BothRes Res M) α} (h : p.lift = .call o k) :
    ∃ o' k', p = .call o' k' ∧ o = .inl o' ∧ HEq k fun r => (k' r).lift (M := M) := by
  cases p with
  | ret a => cases h
  | call o' k' =>
    obtain ⟨rfl, hk⟩ := Program.call.inj h
    exact ⟨o', k', rfl, rfl, hk.symm⟩

theorem Program.lift_eq_ret {p : Program Op Res α} {a : α} (h : p.lift (M := M) = .ret a) : p = .ret a := by
  cases p with
  | ret b => exact congrArg Program.ret (Program.ret.inj h)
  | call o k => cases h

/-! ## The larger system -/

/-- Handlers that work on the world `W` of a system and on a part `V` of their own. -/
structure Further (ι : Type) (Res : Op → Type) (M : More → Type) (W V ReqM α ChM EnvM : Type) where
  handler : ReqM → Program (Op ⊕ More) (BothRes Res M) α
  act : ι → (o : More) → ChM → W × V → Option (M o × V)
  drift : EnvM → W × V → V
  restart : ChM → W × V → V

namespace System
variable (S : System ι Op Res W Req α Choice Env) (F : Further ι Res M W V ReqM α ChM EnvM)

def extend : System ι (Op ⊕ More) (BothRes Res M) (W × V) (Req ⊕ ReqM) α (Choice × ChM) (Env ⊕ EnvM) where
  handler
    | .inl q => (S.handler q).lift
    | .inr q => F.handler q
  admits w i
    | .inl q => S.admits w.1 i q
    | .inr _ => true
  act i
    | .inl o, ch, w => (S.act i o ch.1 w.1).map fun x => (x.1, x.2, w.2)
    | .inr o, ch, w => (F.act i o ch.2 w).map fun x => (x.1, w.1, x.2)
  drift
    | .inl e, w => (S.drift e w.1, w.2)
    | .inr e, w => (w.1, F.drift e w)
  restart ch w := (S.restart ch.1 w.1, F.restart ch.2 w)

/-- The operation leaves the shared world as it is. -/
def Harmless : Op ⊕ More → Prop
  | .inl o => ∀ i ch w r w', S.act i o ch w = some (r, w') → w' = w
  | .inr _ => True

/-- The further handlers perform no operation that changes the shared world. -/
def Spares : Prop := ∀ q, (F.handler q).Meets S.Harmless fun _ => True

end System

def Label.lift : Label ι Res Req α → Label ι (BothRes Res M) (Req ⊕ ReqM) α
  | .arrive i q => .arrive i (.inl q)
  | .call i o r => .call i (.inl o) r
  | .answer i a => .answer i a
  | .drift => .drift
  | .restart => .restart

def Thread.lift (t : Thread Op Res Req α) : Thread (Op ⊕ More) (BothRes Res M) (Req ⊕ ReqM) α :=
  ⟨.inl t.request, t.trace.map Answered.lift, t.rest.lift⟩

structure Shows (c : Config ι Op Res W Req α) (c' : Config ι (Op ⊕ More) (BothRes Res M) (W × V) (Req ⊕ ReqM) α) : Prop where
  world : c.world = c'.world.1
  threads : ∀ i, (∃ t, c.threads i = some t ∧ c'.threads i = some t.lift) ∨
    c.threads i = none ∧ ∀ t', c'.threads i = some t' → ∃ q, t'.request = .inr q
  log : (c.log.map Label.lift).Sublist c'.log

namespace Shows
variable {c : Config ι Op Res W Req α} {c' d' : Config ι (Op ⊕ More) (BothRes Res M) (W × V) (Req ⊕ ReqM) α}

theorem snoc (h : Shows c c') (m : Label ι Res Req α) :
    ((c.log ++ [m]).map Label.lift).Sublist (c'.log ++ [(m.lift : Label ι (BothRes Res M) (Req ⊕ ReqM) α)]) := by
  rw [List.map_append]
  exact h.log.append (List.Sublist.refl _)

variable [DecidableEq ι] {S : System ι Op Res W Req α Choice Env} {F : Further ι Res M W V ReqM α ChM EnvM} {i : ι}
  {l : Label ι (BothRes Res M) (Req ⊕ ReqM) α} {w₀ : W} {v₀ : V}
  {ok : Config ι (Op ⊕ More) (BothRes Res M) (W × V) (Req ⊕ ReqM) α → Event ι (Req ⊕ ReqM) (Choice × ChM) (Env ⊕ EnvM) → Prop}

/-- Only the thread of one connection has changed, and it serves a further request now or none. -/
theorem aside (h : Shows c c') (hworld : d'.world.1 = c'.world.1) (hlog : d'.log = c'.log ++ [l]) (hidle : c.threads i = none)
    (hself : ∀ t', d'.threads i = some t' → ∃ q, t'.request = .inr q) (hothers : ∀ j, j ≠ i → d'.threads j = c'.threads j) :
    Shows c d' where
  world := hworld ▸ h.world
  threads j := by
    by_cases hj : j = i
    · subst hj
      exact .inr ⟨hidle, hself⟩
    · rw [hothers j hj]
      exact h.threads j
  log := hlog ▸ h.log.trans (List.sublist_append_left ..)

theorem update (h : Shows c c') {t : Option (Thread Op Res Req α)} {t' : Option (Thread (Op ⊕ More) (BothRes Res M) (Req ⊕ ReqM) α)}
    (ht : (∃ u, t = some u ∧ t' = some u.lift) ∨ t = none ∧ t' = none) (j : ι) :
    (∃ u, Function.update c.threads i t j = some u ∧ Function.update c'.threads i t' j = some u.lift) ∨
      Function.update c.threads i t j = none ∧
        ∀ u', Function.update c'.threads i t' j = some u' → ∃ q, u'.request = .inr q := by
  by_cases hj : j = i
  · subst hj
    simp only [Function.update_self]
    rcases ht with ht | ⟨rfl, rfl⟩
    · exact .inl ht
    · exact .inr ⟨rfl, fun u' hu' => by cases hu'⟩
  · simp only [Function.update_of_ne hj]
    exact h.threads j

/-- A step of the larger system is one of the smaller system, or none. -/
theorem step (hF : S.Spares F) (hreach : (S.extend F).Reaches (w₀, v₀) ok c') (h : Shows c c')
    {e : Event ι (Req ⊕ ReqM) (Choice × ChM) (Env ⊕ EnvM)} (hs : (S.extend F).Step c' e d') : Shows c d' ∨ ∃ e' d, S.Step c e' d ∧ Shows d d' := by
  cases hs with
  | @arrive i q hidle hadm =>
    have hnone : c.threads i = none := by
      rcases h.threads i with ⟨t, -, ht'⟩ | ⟨hnone, -⟩
      · cases hidle.symm.trans ht'
      · exact hnone
    cases q with
    | inl q =>
      refine .inr ⟨.arrive i q, c.arrived S i q, .arrive hnone (h.world ▸ hadm), h.world, ?_, h.snoc (.arrive i q)⟩
      exact h.update (.inl ⟨_, rfl, rfl⟩)
    | inr q =>
      refine .inl (h.aside rfl rfl hnone (fun t' ht' => ?_) fun j hj => Config.arrived_threads_ne hj)
      rw [Config.arrived_threads_self] at ht'
      exact ⟨q, Option.some.inj ht' ▸ rfl⟩
  | @call i t' o k ch r w ht' hrest hact =>
    -- a thread of the smaller system, or one that serves a further request
    rcases h.threads i with ⟨t, ht, hlift⟩ | ⟨hnone, hfurther⟩
    · obtain rfl := Option.some.inj (ht'.symm.trans hlift)
      obtain ⟨o', k', hrest', rfl, hk⟩ := Program.lift_eq_call hrest
      obtain rfl := eq_of_heq hk
      obtain ⟨⟨r', w'⟩, hact', hx⟩ := Option.map_eq_some_iff.mp hact
      obtain ⟨rfl, rfl⟩ := Prod.mk.inj hx
      refine .inr ⟨.call i ch.1, c.called i t k' r' w', .call ht hrest' (h.world ▸ hact'), rfl, ?_, h.snoc (.call i o' r')⟩
      exact h.update (.inl ⟨_, rfl, by simp [Thread.lift, Answered.lift]⟩)
    · obtain ⟨q, hq⟩ := hfurther t' ht'
      -- a further handler leaves the shared world as it is
      have hworld : w.1 = c'.world.1 := by
        cases o with
        | inl o =>
          have hleads := (hreach.traced ht').leads
          rw [hq, hrest] at hleads
          obtain ⟨⟨r', w'⟩, hact', hx⟩ := Option.map_eq_some_iff.mp hact
          obtain ⟨rfl, rfl⟩ := Prod.mk.inj hx
          exact ((hF q).leads hleads).1 _ _ _ _ _ hact'
        | inr o =>
          obtain ⟨x, -, hx⟩ := Option.map_eq_some_iff.mp hact
          exact (Prod.mk.inj hx).2 ▸ rfl
      refine .inl (h.aside hworld rfl hnone (fun u' hu' => ?_) fun j hj => Config.called_threads_ne hj)
      rw [Config.called_threads_self] at hu'
      exact ⟨q, Option.some.inj hu' ▸ hq⟩
  | @answer i t' a ht' hrest =>
    rcases h.threads i with ⟨t, ht, hlift⟩ | ⟨hnone, hfurther⟩
    · obtain rfl := Option.some.inj (ht'.symm.trans hlift)
      refine .inr ⟨.answer i, c.answered i a, .answer ht (Program.lift_eq_ret hrest), h.world, ?_, h.snoc (.answer i a)⟩
      exact h.update (.inr ⟨rfl, rfl⟩)
    · refine .inl (h.aside rfl rfl hnone (fun u' hu' => ?_) fun j hj => Config.answered_threads_ne hj)
      rw [Config.answered_threads_self] at hu'
      cases hu'
  | @drift e =>
    cases e with
    | inl e =>
      refine .inr ⟨.drift e, c.drifted (S.drift e c.world), .drift, congrArg (S.drift e) h.world, h.threads, h.snoc .drift⟩
    | inr e => exact .inl ⟨h.world, h.threads, h.log.trans (List.sublist_append_left ..)⟩
  | @restart ch =>
    refine .inr ⟨.restart ch.1, c.restarted (S.restart ch.1 c.world), .restart, congrArg (S.restart ch.1) h.world, ?_,
      h.snoc .restart⟩
    exact fun i => .inr ⟨rfl, fun t' ht' => by cases ht'⟩

end Shows

theorem System.Reaches.shows [DecidableEq ι] {S : System ι Op Res W Req α Choice Env}
    {F : Further ι Res M W V ReqM α ChM EnvM} {w₀ : W} {v₀ : V}
    {ok : Config ι (Op ⊕ More) (BothRes Res M) (W × V) (Req ⊕ ReqM) α → Event ι (Req ⊕ ReqM) (Choice × ChM) (Env ⊕ EnvM) → Prop}
    {c' : Config ι (Op ⊕ More) (BothRes Res M) (W × V) (Req ⊕ ReqM) α} (hF : S.Spares F)
    (h : (S.extend F).Reaches (w₀, v₀) ok c') : ∃ c, S.Reaches w₀ System.Anywhere c ∧ Shows c c' := by
  induction h with
  | init => exact ⟨.init w₀, .init, rfl, fun _ => .inr ⟨rfl, fun t' ht' => by cases ht'⟩, List.Sublist.refl _⟩
  | step hreach _ hs ih =>
    obtain ⟨c, hc, hshows⟩ := ih
    rcases hshows.step hF hreach hs with hshows' | ⟨e', d, hstep, hshows'⟩
    · exact ⟨c, hc, hshows'⟩
    · exact ⟨d, .step hc trivial hstep, hshows'⟩

end Concurrency

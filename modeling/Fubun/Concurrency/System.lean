import Fubun.Concurrency.Program
import Mathlib.Logic.Function.Basic

/-! A server as a pool of request handlers over one shared world. A connection
runs one handler at a time; the handlers of different connections interleave
operation by operation, the surroundings may change the world in between, and
the process may die and start again, which loses every running handler. -/

namespace Concurrency
open Program

/-- `act i o ch w` performs the operation `o` of connection `i`; `ch` settles what the
world leaves open (a fresh name, a fault, what another party replies). -/
structure System (ι Op : Type) (Res : Op → Type) (W Req α Choice Env : Type) where
  handler : Req → Program Op Res α
  admits : W → ι → Req → Bool
  act : ι → (o : Op) → Choice → W → Option (Res o × W)
  drift : Env → W → W
  restart : Choice → W → W

structure Thread (Op : Type) (Res : Op → Type) (Req α : Type) where
  request : Req
  trace : List (Answered Res)
  rest : Program Op Res α

inductive Event (ι Req Choice Env : Type) where
  | arrive (i : ι) (q : Req)
  | call (i : ι) (ch : Choice)
  | answer (i : ι)
  | drift (e : Env)
  | restart (ch : Choice)

inductive Label (ι : Type) {Op : Type} (Res : Op → Type) (Req α : Type) where
  | arrive (i : ι) (q : Req)
  | call (i : ι) (o : Op) (r : Res o)
  | answer (i : ι) (a : α)
  | drift
  | restart

structure Config (ι Op : Type) (Res : Op → Type) (W Req α : Type) where
  world : W
  threads : ι → Option (Thread Op Res Req α)
  log : List (Label ι Res Req α)

variable {ι Op : Type} {Res : Op → Type} {W Req α Choice Env : Type}

def callsOf [DecidableEq ι] (i : ι) (log : List (Label ι Res Req α)) : List (Answered Res) :=
  log.filterMap fun
    | .call j o r => if j = i then some ⟨o, r⟩ else none
    | _ => none

/-- Whether a label begins or ends the service of connection `i`. -/
def Label.interrupts [DecidableEq ι] (i : ι) : Label ι Res Req α → Bool
  | .arrive j _ | .answer j _ => j = i
  | .restart => true
  | .call .. | .drift => false

section Calls
variable [DecidableEq ι] (i : ι) (log log' : List (Label ι Res Req α))

@[simp] theorem callsOf_nil : callsOf i ([] : List (Label ι Res Req α)) = [] := rfl

@[simp] theorem callsOf_append : callsOf i (log ++ log') = callsOf i log ++ callsOf i log' :=
  List.filterMap_append

@[simp] theorem callsOf_arrive (j : ι) (q : Req) :
    callsOf i (.arrive j q :: log) = callsOf i log := rfl

@[simp] theorem callsOf_answer (j : ι) (a : α) :
    callsOf i (.answer j a :: log) = callsOf i log := rfl

@[simp] theorem callsOf_drift : callsOf i (.drift :: log) = callsOf i log := rfl

@[simp] theorem callsOf_restart : callsOf i (.restart :: log) = callsOf i log := rfl

@[simp] theorem callsOf_call_self (o : Op) (r : Res o) :
    callsOf i (.call i o r :: log) = ⟨o, r⟩ :: callsOf i log := by
  simp [callsOf]

@[simp] theorem callsOf_call_ne {j : ι} (h : j ≠ i) (o : Op) (r : Res o) :
    callsOf i (.call j o r :: log) = callsOf i log := by
  simp [callsOf, h]

theorem mem_callsOf {x : Answered Res} : x ∈ callsOf i log ↔ .call i x.op x.res ∈ log := by
  simp only [callsOf, List.mem_filterMap]
  constructor
  · rintro ⟨l, hl, hx⟩
    split at hx
    · split_ifs at hx with hj
      obtain rfl := Option.some.inj hx
      exact hj ▸ hl
    · exact nomatch hx
  · intro hl
    exact ⟨_, hl, by simp⟩

theorem callsOf_eq_cons {x : Answered Res} {τ : List (Answered Res)}
    (h : callsOf i log = x :: τ) :
    ∃ before after, log = before ++ .call i x.op x.res :: after ∧
      callsOf i before = [] ∧ callsOf i after = τ := by
  induction log with
  | nil => exact nomatch h
  | cons l log ih =>
    by_cases hl : callsOf i [l] = []
    · have hlog : callsOf i log = x :: τ := by
        rw [← h, ← List.singleton_append, callsOf_append, hl, List.nil_append]
      obtain ⟨before, after, rfl, hb, ha⟩ := ih hlog
      refine ⟨l :: before, after, rfl, ?_, ha⟩
      rw [← List.singleton_append, callsOf_append, hl, hb, List.nil_append]
    · cases l with
      | call j o r =>
        by_cases hj : j = i
        · subst hj
          rw [callsOf_call_self] at h
          obtain ⟨rfl, rfl⟩ := List.cons.inj h
          exact ⟨[], log, rfl, rfl, rfl⟩
        · exact absurd (callsOf_call_ne i [] hj o r) hl
      | arrive => exact absurd rfl hl
      | answer => exact absurd rfl hl
      | drift => exact absurd rfl hl
      | restart => exact absurd rfl hl

end Calls

def Program.next? {β : Type} : Program Op Res β → Option Op
  | .call o _ => some o
  | .ret _ => none

theorem Program.next?_eq_some {β : Type} {p : Program Op Res β} {o : Op} :
    p.next? = some o ↔ ∃ k, p = .call o k := by
  cases p with
  | ret a => exact ⟨fun h => (nomatch h), fun ⟨_, h⟩ => nomatch h⟩
  | call o' k =>
    constructor
    · intro h
      obtain rfl := Option.some.inj h
      exact ⟨k, rfl⟩
    · rintro ⟨k', h⟩
      exact congrArg some (Program.call.inj h).1

namespace Config

def init (w : W) : Config ι Op Res W Req α := ⟨w, fun _ => none, []⟩

variable (c : Config ι Op Res W Req α)

def drifted (w : W) : Config ι Op Res W Req α := { c with world := w, log := c.log ++ [.drift] }

def restarted (w : W) : Config ι Op Res W Req α where
  world := w
  threads := fun _ => none
  log := c.log ++ [.restart]

def next? (i : ι) : Option Op := (c.threads i).bind (·.rest.next?)

section
variable {c} {i : ι} {o : Op} {w : W}

@[simp] theorem drifted_world : (c.drifted w).world = w := rfl
@[simp] theorem drifted_threads : (c.drifted w).threads = c.threads := rfl
@[simp] theorem drifted_log : (c.drifted w).log = c.log ++ [.drift] := rfl
@[simp] theorem restarted_world : (c.restarted w).world = w := rfl
@[simp] theorem restarted_threads : (c.restarted w).threads i = none := rfl
@[simp] theorem restarted_log : (c.restarted w).log = c.log ++ [.restart] := rfl

theorem next?_eq_some : c.next? i = some o ↔ ∃ t k, c.threads i = some t ∧ t.rest = .call o k := by
  rw [next?, Option.bind_eq_some_iff]
  simp only [Program.next?_eq_some]
  exact ⟨fun ⟨t, ht, k, hk⟩ => ⟨t, k, ht, hk⟩, fun ⟨t, k, ht, hk⟩ => ⟨t, ht, k, hk⟩⟩

end

variable [DecidableEq ι]

def arrived (S : System ι Op Res W Req α Choice Env) (i : ι) (q : Req) : Config ι Op Res W Req α :=
  { c with threads := Function.update c.threads i (some ⟨q, [], S.handler q⟩), log := c.log ++ [.arrive i q] }

def called (i : ι) (t : Thread Op Res Req α) {o : Op} (k : Res o → Program Op Res α) (r : Res o)
    (w : W) : Config ι Op Res W Req α where
  world := w
  threads := Function.update c.threads i (some ⟨t.request, t.trace ++ [⟨o, r⟩], k r⟩)
  log := c.log ++ [.call i o r]

def answered (i : ι) (a : α) : Config ι Op Res W Req α :=
  { c with threads := Function.update c.threads i none, log := c.log ++ [.answer i a] }

section
variable {S : System ι Op Res W Req α Choice Env} {c} {i j : ι} {q : Req} {a : α} {r' : W}
  {t : Thread Op Res Req α} {o : Op} {k : Res o → Program Op Res α} {r : Res o} {w : W}

@[simp] theorem arrived_threads_self : (c.arrived S i q).threads i = some ⟨q, [], S.handler q⟩ :=
  Function.update_self ..

@[simp] theorem arrived_threads_ne (h : j ≠ i) : (c.arrived S i q).threads j = c.threads j :=
  Function.update_of_ne h ..

@[simp] theorem called_threads_self :
    (c.called i t k r w).threads i = some ⟨t.request, t.trace ++ [⟨o, r⟩], k r⟩ :=
  Function.update_self ..

@[simp] theorem called_threads_ne (h : j ≠ i) : (c.called i t k r w).threads j = c.threads j :=
  Function.update_of_ne h ..

@[simp] theorem answered_threads_self : (c.answered i a).threads i = none :=
  Function.update_self ..

@[simp] theorem answered_threads_ne (h : j ≠ i) : (c.answered i a).threads j = c.threads j :=
  Function.update_of_ne h ..

@[simp] theorem arrived_world : (c.arrived S i q).world = c.world := rfl
@[simp] theorem arrived_log : (c.arrived S i q).log = c.log ++ [.arrive i q] := rfl
@[simp] theorem called_world : (c.called i t k r w).world = w := rfl
@[simp] theorem called_log : (c.called i t k r w).log = c.log ++ [.call i o r] := rfl
@[simp] theorem answered_world : (c.answered i a).world = c.world := rfl
@[simp] theorem answered_log : (c.answered i a).log = c.log ++ [.answer i a] := rfl

end

end Config

namespace System
variable [DecidableEq ι] (S : System ι Op Res W Req α Choice Env)

def step (c : Config ι Op Res W Req α) : Event ι Req Choice Env → Option (Config ι Op Res W Req α)
  | .arrive i q =>
    match c.threads i with
    | none => if S.admits c.world i q then some (c.arrived S i q) else none
    | some _ => none
  | .call i ch =>
    match c.threads i with
    | some t =>
      match t.rest with
      | .call o k => (S.act i o ch c.world).map fun x => c.called i t k x.1 x.2
      | .ret _ => none
    | none => none
  | .answer i =>
    match c.threads i with
    | some t =>
      match t.rest with
      | .ret a => some (c.answered i a)
      | .call _ _ => none
    | none => none
  | .drift e => some (c.drifted (S.drift e c.world))
  | .restart ch => some (c.restarted (S.restart ch c.world))

/-- Run a schedule; `none` when an event is not possible where it stands. -/
def exec (c : Config ι Op Res W Req α) (es : List (Event ι Req Choice Env)) :
    Option (Config ι Op Res W Req α) := es.foldlM S.step c

theorem exec_append (c : Config ι Op Res W Req α) (es es' : List (Event ι Req Choice Env)) :
    S.exec c (es ++ es') = (S.exec c es).bind fun d => S.exec d es' := List.foldlM_append ..

@[simp] theorem exec_singleton (c : Config ι Op Res W Req α) (e : Event ι Req Choice Env) :
    S.exec c [e] = S.step c e := by
  simp [exec]

def execIf (ok : Config ι Op Res W Req α → Event ι Req Choice Env → Prop) [∀ c e, Decidable (ok c e)]
    (c : Config ι Op Res W Req α) (es : List (Event ι Req Choice Env)) :
    Option (Config ι Op Res W Req α) :=
  es.foldlM (fun c e => if ok c e then S.step c e else none) c

/-- Everything one event can do. -/
inductive Step (c : Config ι Op Res W Req α) :
    Event ι Req Choice Env → Config ι Op Res W Req α → Prop
  | arrive {i q} : c.threads i = none → S.admits c.world i q = true →
      Step c (.arrive i q) (c.arrived S i q)
  | call {i t o k ch r w} : c.threads i = some t → t.rest = .call o k →
      S.act i o ch c.world = some (r, w) → Step c (.call i ch) (c.called i t k r w)
  | answer {i t a} : c.threads i = some t → t.rest = .ret a → Step c (.answer i) (c.answered i a)
  | drift {e} : Step c (.drift e) (c.drifted (S.drift e c.world))
  | restart {ch} : Step c (.restart ch) (c.restarted (S.restart ch c.world))

variable {S} {c c' : Config ι Op Res W Req α} {e : Event ι Req Choice Env}

theorem step_cases (h : S.step c e = some c') : S.Step c e c' := by
  cases e with
  | arrive i q =>
    simp only [step] at h
    split at h
    · rename_i hidle
      split_ifs at h with hadm
      exact Option.some.inj h ▸ .arrive hidle hadm
    · exact nomatch h
  | call i ch =>
    simp only [step] at h
    split at h
    · rename_i t ht
      split at h
      · rename_i o k hrest
        obtain ⟨⟨r, w⟩, hact, rfl⟩ := Option.map_eq_some_iff.mp h
        exact .call ht hrest hact
      · exact nomatch h
    · exact nomatch h
  | answer i =>
    simp only [step] at h
    split at h
    · rename_i t ht
      split at h
      · rename_i a hrest
        exact Option.some.inj h ▸ .answer ht hrest
      · exact nomatch h
    · exact nomatch h
  | drift e => exact Option.some.inj h ▸ .drift
  | restart ch => exact Option.some.inj h ▸ .restart

/-! ## Runs -/

variable (S) in
/-- What runs from the world `w₀` reach when every event is taken where `ok` allows it. -/
inductive Reaches (w₀ : W) (ok : Config ι Op Res W Req α → Event ι Req Choice Env → Prop) :
    Config ι Op Res W Req α → Prop
  | init : Reaches w₀ ok (.init w₀)
  | step {c c' : Config ι Op Res W Req α} {e : Event ι Req Choice Env} : Reaches w₀ ok c → ok c e → S.Step c e c' → Reaches w₀ ok c'

abbrev Anywhere : Config ι Op Res W Req α → Event ι Req Choice Env → Prop := fun _ _ => True

variable {w₀ : W} {ok ok' : Config ι Op Res W Req α → Event ι Req Choice Env → Prop}

theorem Reaches.exec_of {es : List (Event ι Req Choice Env)} (h : S.Reaches w₀ ok c) (hok : ∀ e ∈ es, ∀ c, ok c e)
    (he : S.exec c es = some c') : S.Reaches w₀ ok c' := by
  induction es generalizing c with
  | nil => exact Option.some.inj he ▸ h
  | cons e es ih =>
    rw [System.exec, List.foldlM_cons] at he
    obtain ⟨d, hd, hes⟩ := Option.bind_eq_some_iff.mp he
    have hd' : S.Reaches w₀ ok d := .step h (hok e List.mem_cons_self c) (step_cases hd)
    exact ih hd' (fun e' he' => hok e' (List.mem_cons_of_mem e he')) hes

theorem Reaches.exec {es : List (Event ι Req Choice Env)} (h : S.Reaches w₀ Anywhere c)
    (he : S.exec c es = some c') : S.Reaches w₀ Anywhere c' := h.exec_of (fun _ _ _ => trivial) he

theorem Reaches.execIf [∀ c e, Decidable (ok c e)] {es : List (Event ι Req Choice Env)}
    (h : S.Reaches w₀ ok c) (he : S.execIf ok c es = some c') : S.Reaches w₀ ok c' := by
  induction es generalizing c with
  | nil => exact Option.some.inj he ▸ h
  | cons e es ih =>
    rw [System.execIf, List.foldlM_cons] at he
    obtain ⟨d, hd, hes⟩ := Option.bind_eq_some_iff.mp he
    split_ifs at hd with hok
    exact ih (.step h hok (step_cases hd)) hes

/-! ## What the log says of a running handler -/

/-- A running handler stands where its own operations since its arrival have led it. -/
structure Traced (c : Config ι Op Res W Req α) (i : ι) (t : Thread Op Res Req α) : Prop where
  leads : Leads (S.handler t.request) t.trace t.rest
  since : ∃ earlier later, c.log = earlier ++ .arrive i t.request :: later ∧
    callsOf i later = t.trace ∧ ∀ l ∈ later, l.interrupts i = false

theorem Traced.extend {i : ι} {t : Thread Op Res Req α} {l : Label ι Res Req α}
    (h : S.Traced c i t) (hlog : c'.log = c.log ++ [l]) (hcall : callsOf i [l] = [])
    (hl : l.interrupts i = false) : S.Traced c' i t := by
  obtain ⟨earlier, later, he, hc, hq⟩ := h.since
  refine ⟨h.leads, earlier, later ++ [l], by simp [hlog, he], by simp [hc, hcall], ?_⟩
  intro l' hl'
  rcases List.mem_append.mp hl' with hl' | hl'
  · exact hq l' hl'
  · exact List.mem_singleton.mp hl' ▸ hl

theorem Reaches.traced (h : S.Reaches w₀ ok c) {i : ι} {t : Thread Op Res Req α}
    (ht : c.threads i = some t) : S.Traced c i t := by
  induction h generalizing i t with
  | init => exact nomatch ht
  | @step c c' e _ _ hs ih =>
    cases hs with
    | @arrive j q hidle hadm =>
      by_cases hj : i = j
      · subst hj
        rw [Config.arrived_threads_self] at ht
        obtain rfl := Option.some.inj ht
        exact ⟨.nil _, c.log, [], rfl, rfl, by simp⟩
      · rw [Config.arrived_threads_ne hj] at ht
        exact (ih ht).extend rfl rfl (by simp [Label.interrupts, Ne.symm hj])
    | @call j u o k ch r w hu hrest hact =>
      by_cases hj : i = j
      · subst hj
        rw [Config.called_threads_self] at ht
        obtain rfl := Option.some.inj ht
        -- its own operation makes both the path and the log longer
        obtain ⟨earlier, later, he, hc, hq⟩ := (ih hu).since
        refine ⟨(hrest ▸ (ih hu).leads).snoc r, earlier, later ++ [.call i o r],
          by simp [he], by simp [hc], ?_⟩
        intro l hl
        rcases List.mem_append.mp hl with hl | hl
        · exact hq l hl
        · exact List.mem_singleton.mp hl ▸ rfl
      · rw [Config.called_threads_ne hj] at ht
        exact (ih ht).extend rfl (callsOf_call_ne i [] (Ne.symm hj) o r) rfl
    | @answer j u a hu hrest =>
      by_cases hj : i = j
      · subst hj
        rw [Config.answered_threads_self] at ht
        exact nomatch ht
      · rw [Config.answered_threads_ne hj] at ht
        exact (ih ht).extend rfl rfl (by simp [Label.interrupts, Ne.symm hj])
    | drift => exact (ih ht).extend rfl rfl rfl
    | restart => exact nomatch ht

theorem Reaches.mem_log (h : S.Reaches w₀ ok c) {i : ι} {t : Thread Op Res Req α}
    (ht : c.threads i = some t) {x : Answered Res} (hx : x ∈ t.trace) :
    .call i x.op x.res ∈ c.log := by
  obtain ⟨earlier, later, he, hc, -⟩ := (h.traced ht).since
  have hl := (mem_callsOf i later).mp (hc ▸ hx)
  rw [he]
  exact List.mem_append_right _ (List.mem_cons_of_mem _ hl)

theorem Reaches.invariant (h : S.Reaches w₀ ok c) {I : W → Prop} (h₀ : I w₀)
    (act : ∀ i o ch w r w', I w → S.act i o ch w = some (r, w') → I w')
    (drift : ∀ e w, I w → I (S.drift e w)) (restart : ∀ ch w, I w → I (S.restart ch w)) :
    I c.world := by
  induction h with
  | init => exact h₀
  | step _ _ hs ih =>
    cases hs with
    | arrive => exact ih
    | call _ _ hact => exact act _ _ _ _ _ _ ih hact
    | answer => exact ih
    | drift => exact drift _ _ ih
    | restart => exact restart _ _ ih

/-! ## Facts that answers establish for good -/

variable (S) in
/-- What an answer says about the world, when nothing can undo it. -/
structure Persistent where
  holds : (o : Op) → Res o → W → Prop
  learned : ∀ {i o ch w r w'}, S.act i o ch w = some (r, w') → holds o r w'
  act : ∀ {o r w i o' ch r' w'}, holds o r w → S.act i o' ch w = some (r', w') → holds o r w'
  drift : ∀ {o r w} (e), holds o r w → holds o r (S.drift e w)
  restart : ∀ {o r w} (ch), holds o r w → holds o r (S.restart ch w)

theorem Reaches.persistent (h : S.Reaches w₀ ok c) (F : S.Persistent) {i : ι} {o : Op} {r : Res o}
    (hl : .call i o r ∈ c.log) : F.holds o r c.world := by
  induction h with
  | init => exact nomatch hl
  | step _ _ hs ih =>
    cases hs with
    | arrive =>
      rcases List.mem_append.mp hl with hl | hl
      · exact ih hl
      · exact nomatch List.mem_singleton.mp hl
    | @call j u o' k ch r' w hu hrest hact =>
      rcases List.mem_append.mp hl with hl | hl
      · exact F.act (ih hl) hact
      · cases List.mem_singleton.mp hl
        exact F.learned hact
    | answer =>
      rcases List.mem_append.mp hl with hl | hl
      · exact ih hl
      · exact nomatch List.mem_singleton.mp hl
    | drift =>
      rcases List.mem_append.mp hl with hl | hl
      · exact F.drift _ (ih hl)
      · exact nomatch List.mem_singleton.mp hl
    | restart =>
      rcases List.mem_append.mp hl with hl | hl
      · exact F.restart _ (ih hl)
      · exact nomatch List.mem_singleton.mp hl

end System
end Concurrency

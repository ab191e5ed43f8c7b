import Fubun.Concurrency.History

/-! A worker that performs some operations of a system for its handlers. A handler sends its operation and
waits; the commands stand in a queue, and the worker takes the oldest, performs it and leaves the reply
for the handler that has sent it. Every run of this system is a run of the one in which the operations
are performed where they are issued. -/

namespace Concurrency
open Program

variable {ι Op : Type} {Res : Op → Type} {W Req α Choice Env : Type}

/-- Where a handler stands: it runs, or it has sent a command and waits for the reply. -/
inductive Standing (Op : Type) (Res : Op → Type) (Req α : Type) where
  | running (t : Thread Op Res Req α)
  | waiting (t : Thread Op Res Req α) (o : Op) (k : Res o → Program Op Res α)

inductive Entry (ι : Type) {Op : Type} (Res : Op → Type) (Req α : Type) where
  | sent (i : ι) (o : Op)
  | seen (l : Label ι Res Req α)

structure QueueConfig (ι Op : Type) (Res : Op → Type) (W Req α : Type) where
  world : W
  threads : ι → Option (Standing Op Res Req α)
  queue : List (ι × Op)
  /-- The replies that their handlers have not received. -/
  replies : ι → Option (Answered Res)
  log : List (Entry ι Res Req α)

namespace Entry
variable (slow : Op → Bool) (log : List (Entry ι Res Req α))

def labels : List (Label ι Res Req α) :=
  log.filterMap fun
    | .sent .. => none
    | .seen l => some l

def restarts : Entry ι Res Req α → Bool
  | .seen .restart => true
  | _ => false

def sinceRestart : List (Entry ι Res Req α) := log.rtakeWhile fun entry => ! entry.restarts

def sentIn : List (ι × Op) :=
  log.filterMap fun
    | .sent i o => some (i, o)
    | .seen _ => none

def performedIn : List (ι × Op) :=
  log.filterMap fun
    | .seen (.call i o _) => if slow o then some (i, o) else none
    | _ => none

@[simp] theorem labels_append (log' : List (Entry ι Res Req α)) : labels (log ++ log') = labels log ++ labels log' :=
  List.filterMap_append

@[simp] theorem sentIn_append (log' : List (Entry ι Res Req α)) : sentIn (log ++ log') = sentIn log ++ sentIn log' :=
  List.filterMap_append

@[simp] theorem performedIn_append (log' : List (Entry ι Res Req α)) :
    performedIn slow (log ++ log') = performedIn slow log ++ performedIn slow log' := List.filterMap_append

theorem sinceRestart_snoc {entry : Entry ι Res Req α} (h : entry.restarts = false) :
    sinceRestart (log ++ [entry]) = sinceRestart log ++ [entry] :=
  List.rtakeWhile_concat_pos _ log entry (by simp [h])

theorem sinceRestart_restart {entry : Entry ι Res Req α} (h : entry.restarts = true) : sinceRestart (log ++ [entry]) = [] :=
  List.rtakeWhile_concat_neg _ log entry (by simp [h])

end Entry

namespace QueueConfig
variable [DecidableEq ι]

def init (w : W) : QueueConfig ι Op Res W Req α := ⟨w, fun _ => none, [], fun _ => none, []⟩

variable (S : System ι Op Res W Req α Choice Env) (c : QueueConfig ι Op Res W Req α) (i : ι)

def setThread (s : Option (Standing Op Res Req α)) : QueueConfig ι Op Res W Req α :=
  { c with threads := Function.update c.threads i s }

def record (entry : Entry ι Res Req α) : QueueConfig ι Op Res W Req α := { c with log := c.log ++ [entry] }

def arrived (q : Req) : QueueConfig ι Op Res W Req α :=
  (c.setThread i (some (.running ⟨q, [], S.handler q⟩))).record (.seen (.arrive i q))

def sent (t : Thread Op Res Req α) (o : Op) (k : Res o → Program Op Res α) : QueueConfig ι Op Res W Req α :=
  { (c.setThread i (some (.waiting t o k))).record (.sent i o) with queue := c.queue ++ [(i, o)] }

def worked (rest : List (ι × Op)) (o : Op) (r : Res o) (w : W) : QueueConfig ι Op Res W Req α :=
  { c.record (.seen (.call i o r)) with
    world := w
    queue := rest
    replies := Function.update c.replies i (some ⟨o, r⟩) }

def received (t : Thread Op Res Req α) {o : Op} (k : Res o → Program Op Res α) (r : Res o) : QueueConfig ι Op Res W Req α :=
  { c.setThread i (some (.running ⟨t.request, t.trace ++ [⟨o, r⟩], k r⟩)) with
    replies := Function.update c.replies i none }

def called (t : Thread Op Res Req α) {o : Op} (k : Res o → Program Op Res α) (r : Res o) (w : W) : QueueConfig ι Op Res W Req α :=
  { (c.setThread i (some (.running ⟨t.request, t.trace ++ [⟨o, r⟩], k r⟩))).record (.seen (.call i o r)) with world := w }

def answered (a : α) : QueueConfig ι Op Res W Req α := (c.setThread i none).record (.seen (.answer i a))

def drifted (w : W) : QueueConfig ι Op Res W Req α := { c.record (.seen .drift) with world := w }

/-- The queue and the replies are gone with the process. -/
def restarted (w : W) : QueueConfig ι Op Res W Req α := ⟨w, fun _ => none, [], fun _ => none, c.log ++ [.seen .restart]⟩

end QueueConfig

namespace System
variable [DecidableEq ι] (S : System ι Op Res W Req α Choice Env) (slow : Op → Bool)

/-- Everything that one step can do when the operations that are `slow` go to the worker. -/
inductive QueueStep (c : QueueConfig ι Op Res W Req α) : QueueConfig ι Op Res W Req α → Prop
  | arrive {i q} : c.threads i = none → S.admits c.world i q = true → QueueStep c (c.arrived S i q)
  | send {i t o k} : c.threads i = some (.running t) → t.rest = .call o k → slow o = true → QueueStep c (c.sent i t o k)
  | work {i o rest ch r w} : c.queue = (i, o) :: rest → S.act i o ch c.world = some (r, w) →
      QueueStep c (c.worked i rest o r w)
  | receive {i t o k r} : c.threads i = some (.waiting t o k) → c.replies i = some ⟨o, r⟩ → QueueStep c (c.received i t k r)
  | call {i t o k ch r w} : c.threads i = some (.running t) → t.rest = .call o k → slow o = false →
      S.act i o ch c.world = some (r, w) → QueueStep c (c.called i t k r w)
  | answer {i t a} : c.threads i = some (.running t) → t.rest = .ret a → QueueStep c (c.answered i a)
  | drift {e} : QueueStep c (c.drifted (S.drift e c.world))
  | restart {ch} : QueueStep c (c.restarted (S.restart ch c.world))

inductive QueueEvent (ι Req Choice Env : Type) where
  | arrive (i : ι) (q : Req)
  | work (ch : Choice)
  /-- The handler of `i` receives its reply, or goes on with its next operation or its answer. -/
  | proceed (i : ι) (ch : Choice)
  | drift (e : Env)
  | restart (ch : Choice)

def queueStep [DecidableEq Op] (c : QueueConfig ι Op Res W Req α) : QueueEvent ι Req Choice Env → Option (QueueConfig ι Op Res W Req α)
  | .arrive i q =>
    match c.threads i with
    | none => if S.admits c.world i q then some (c.arrived S i q) else none
    | some _ => none
  | .work ch =>
    match c.queue with
    | (i, o) :: rest => (S.act i o ch c.world).map fun x => c.worked i rest o x.1 x.2
    | [] => none
  | .proceed i ch =>
    match c.threads i with
    | some (.running t) =>
      match t.rest with
      | .call o k =>
        if slow o then some (c.sent i t o k) else (S.act i o ch c.world).map fun x => c.called i t k x.1 x.2
      | .ret a => some (c.answered i a)
    | some (.waiting t o k) =>
      match c.replies i with
      | some ⟨o', r⟩ => if h : o' = o then some (c.received i t k (h ▸ r)) else none
      | none => none
    | none => none
  | .drift e => some (c.drifted (S.drift e c.world))
  | .restart ch => some (c.restarted (S.restart ch c.world))

def queueExec [DecidableEq Op] (c : QueueConfig ι Op Res W Req α) (es : List (QueueEvent ι Req Choice Env)) :
    Option (QueueConfig ι Op Res W Req α) := es.foldlM (S.queueStep slow) c

variable {S slow} in
theorem queueStep_cases [DecidableEq Op] {c c' : QueueConfig ι Op Res W Req α} {e : QueueEvent ι Req Choice Env}
    (h : S.queueStep slow c e = some c') : S.QueueStep slow c c' := by
  cases e with
  | arrive i q =>
    simp only [queueStep] at h
    split at h
    · rename_i hidle
      split_ifs at h with hadm
      exact Option.some.inj h ▸ .arrive hidle hadm
    · cases h
  | work ch =>
    simp only [queueStep] at h
    split at h
    · rename_i i o rest hqueue
      obtain ⟨⟨r, w⟩, hact, rfl⟩ := Option.map_eq_some_iff.mp h
      exact .work hqueue hact
    · cases h
  | proceed i ch =>
    simp only [queueStep] at h
    split at h
    · rename_i t hi
      split at h
      · rename_i o k hrest
        split_ifs at h with hslow
        · exact Option.some.inj h ▸ .send hi hrest hslow
        · obtain ⟨⟨r, w⟩, hact, rfl⟩ := Option.map_eq_some_iff.mp h
          exact .call hi hrest (Bool.eq_false_iff.mpr hslow) hact
      · rename_i a hrest
        exact Option.some.inj h ▸ .answer hi hrest
    · rename_i t o k hi
      split at h
      · rename_i o' r hreply
        split_ifs at h with heq
        subst heq
        exact Option.some.inj h ▸ .receive hi hreply
      · cases h
    · cases h
  | drift e => exact Option.some.inj h ▸ .drift
  | restart ch => exact Option.some.inj h ▸ .restart

inductive QueueReaches (w₀ : W) : QueueConfig ι Op Res W Req α → Prop
  | init : QueueReaches w₀ (.init w₀)
  | step {c c' : QueueConfig ι Op Res W Req α} : QueueReaches w₀ c → S.QueueStep slow c c' → QueueReaches w₀ c'

variable {S slow} in
theorem QueueReaches.exec [DecidableEq Op] {w₀ : W} {c c' : QueueConfig ι Op Res W Req α} {es : List (QueueEvent ι Req Choice Env)}
    (h : S.QueueReaches slow w₀ c) (he : S.queueExec slow c es = some c') : S.QueueReaches slow w₀ c' := by
  induction es generalizing c with
  | nil => exact Option.some.inj he ▸ h
  | cons e es ih =>
    rw [queueExec, List.foldlM_cons] at he
    obtain ⟨d, hd, hes⟩ := Option.bind_eq_some_iff.mp he
    exact ih (h.step (queueStep_cases hd)) hes

end System

/-! ## The system without a queue -/

/-- Where a handler stands in the system without a queue: an operation that has been performed has its reply. -/
inductive Stands : Option (Answered Res) → Standing Op Res Req α → Thread Op Res Req α → Prop
  | running (t) : Stands none (.running t) t
  | waiting (t o k) : t.rest = .call o k → Stands none (.waiting t o k) t
  | replied (t o k r) : t.rest = .call o k → Stands (some ⟨o, r⟩) (.waiting t o k) ⟨t.request, t.trace ++ [⟨o, r⟩], k r⟩

/-- A handler in both systems, with the reply that is left for it. -/
inductive Agrees (reply : Option (Answered Res)) : Option (Thread Op Res Req α) → Option (Standing Op Res Req α) → Prop
  | idle : reply = none → Agrees reply none none
  | serving (t s) : Stands reply s t → Agrees reply (some t) (some s)

/-- A configuration with a queue, and what it is without. -/
structure Atomic (slow : Op → Bool) (c : Config ι Op Res W Req α) (c' : QueueConfig ι Op Res W Req α) : Prop where
  world : c.world = c'.world
  log : c.log = Entry.labels c'.log
  threads : ∀ i, Agrees (c'.replies i) (c.threads i) (c'.threads i)
  waits : ∀ i o, (i, o) ∈ c'.queue ↔ (∃ t k, c'.threads i = some (.waiting t o k)) ∧ c'.replies i = none
  once : (c'.queue.map Prod.fst).Nodup
  queued : ∀ x ∈ c'.queue, slow x.2 = true
  inOrder : Entry.sentIn (Entry.sinceRestart c'.log) = Entry.performedIn slow (Entry.sinceRestart c'.log) ++ c'.queue

namespace Atomic
variable {slow : Op → Bool} {c : Config ι Op Res W Req α}
  {c' d' : QueueConfig ι Op Res W Req α} {i : ι} {t : Thread Op Res Req α} {o : Op} {k : Res o → Program Op Res α} {r : Res o}

theorem idle (h : Atomic slow c c') (hi : c'.threads i = none) : c.threads i = none ∧ c'.replies i = none := by
  have hthread := h.threads i
  rw [hi] at hthread
  generalize hc : c.threads i = u at hthread
  cases hthread with
  | idle hreply => exact ⟨rfl, hreply⟩

theorem running (h : Atomic slow c c') (hi : c'.threads i = some (.running t)) : c.threads i = some t ∧ c'.replies i = none := by
  have hthread := h.threads i
  rw [hi] at hthread
  generalize hc : c.threads i = u, hreply : c'.replies i = reply at hthread
  cases hthread with
  | serving _ _ hstands =>
    cases hstands with
    | running => exact ⟨rfl, rfl⟩

theorem waiting (h : Atomic slow c c') (hi : c'.threads i = some (.waiting t o k)) (hreply : c'.replies i = none) :
    c.threads i = some t ∧ t.rest = .call o k := by
  have hthread := h.threads i
  rw [hi, hreply] at hthread
  generalize hc : c.threads i = u at hthread
  cases hthread with
  | serving _ _ hstands =>
    cases hstands with
    | waiting _ _ _ hrest => exact ⟨rfl, hrest⟩

theorem replied (h : Atomic slow c c') (hi : c'.threads i = some (.waiting t o k)) (hreply : c'.replies i = some ⟨o, r⟩) :
    c.threads i = some ⟨t.request, t.trace ++ [⟨o, r⟩], k r⟩ := by
  have hthread := h.threads i
  rw [hi, hreply] at hthread
  generalize hc : c.threads i = u at hthread
  cases hthread with
  | serving _ _ hstands =>
    cases hstands with
    | replied => rfl

theorem init (w : W) : Atomic slow (.init w : Config ι Op Res W Req α) (.init w) where
  world := rfl
  log := rfl
  threads _ := .idle rfl
  waits i o := ⟨fun h => (by cases h), fun ⟨⟨_, _, h⟩, _⟩ => (by cases h)⟩
  once := List.nodup_nil
  queued _ h := (by cases h)
  inOrder := rfl

theorem log_snoc (h : Atomic slow c c') (l : Label ι Res Req α) : c.log ++ [l] = Entry.labels (c'.log ++ [.seen l]) := by
  rw [Entry.labels_append, h.log]
  rfl

theorem not_mem (h : Atomic slow c c') (hi : ∀ t o k, c'.threads i ≠ some (.waiting t o k)) (o : Op) : (i, o) ∉ c'.queue :=
  fun hmem => by
    obtain ⟨⟨t, k, ht⟩, -⟩ := (h.waits i o).mp hmem
    exact hi t o k ht

theorem inOrder_snoc (h : Atomic slow c c') {entry : Entry ι Res Req α} (hrestarts : entry.restarts = false)
    (hsent : Entry.sentIn [entry] = []) (hperformed : Entry.performedIn slow [entry] = []) :
    Entry.sentIn (Entry.sinceRestart (c'.log ++ [entry])) =
      Entry.performedIn slow (Entry.sinceRestart (c'.log ++ [entry])) ++ c'.queue := by
  rw [Entry.sinceRestart_snoc _ hrestarts, Entry.sentIn_append, Entry.performedIn_append, hsent, hperformed, List.append_nil,
    List.append_nil]
  exact h.inOrder

variable [DecidableEq ι] {S : System ι Op Res W Req α Choice Env}

theorem update (h : Atomic slow c c') {u : Option (Thread Op Res Req α)} {s : Option (Standing Op Res Req α)}
    (hagrees : Agrees (c'.replies i) u s) (hold : ∀ t o k, c'.threads i ≠ some (.waiting t o k))
    (hnew : ∀ t o k, s ≠ some (.waiting t o k)) :
    (∀ j, Agrees (c'.replies j) (Function.update c.threads i u j) (Function.update c'.threads i s j)) ∧
      ∀ j o, (j, o) ∈ c'.queue ↔ (∃ t k, Function.update c'.threads i s j = some (.waiting t o k)) ∧ c'.replies j = none := by
  constructor
  · intro j
    by_cases hj : j = i
    · subst hj
      simpa only [Function.update_self] using hagrees
    · simpa only [Function.update_of_ne hj] using h.threads j
  · intro j o
    by_cases hj : j = i
    · subst hj
      simp only [Function.update_self]
      exact ⟨fun hmem => absurd hmem (h.not_mem hold o), fun ⟨⟨t, k, hs⟩, _⟩ => absurd hs (hnew t o k)⟩
    · simpa only [Function.update_of_ne hj] using h.waits j o

theorem sends (h : Atomic slow c c') (hi : c'.threads i = some (.running t)) (hrest : t.rest = .call o k) (ho : slow o = true) :
    Atomic slow c (c'.sent i t o k) := by
  obtain ⟨ht, hreply⟩ := h.running hi
  -- a handler that runs has nothing in the queue
  have hnot : ∀ o', (i, o') ∉ c'.queue := h.not_mem fun t' o' k' hw => by cases hi.symm.trans hw
  refine ⟨h.world, ?_, fun j => ?_, fun j o' => ?_, ?_, ?_, ?_⟩
  · show c.log = Entry.labels (c'.log ++ [.sent i o])
    rw [Entry.labels_append, h.log]
    exact (List.append_nil _).symm
  · show Agrees (c'.replies j) (c.threads j) (Function.update c'.threads i _ j)
    by_cases hj : j = i
    · subst hj
      rw [Function.update_self, ht, hreply]
      exact .serving _ _ (.waiting t o k hrest)
    · rw [Function.update_of_ne hj]
      exact h.threads j
  · show (j, o') ∈ c'.queue ++ [(i, o)] ↔ (∃ t' k', Function.update c'.threads i _ j = some (.waiting t' o' k')) ∧ c'.replies j = none
    by_cases hj : j = i
    · subst hj
      rw [Function.update_self, List.mem_append, List.mem_singleton]
      constructor
      · rintro (hmem | heq)
        · exact absurd hmem (hnot o')
        · obtain rfl := (Prod.mk.inj heq).2
          exact ⟨⟨t, k, rfl⟩, hreply⟩
      · rintro ⟨⟨t', k', hw⟩, -⟩
        obtain ⟨-, rfl, -⟩ := Standing.waiting.inj (Option.some.inj hw)
        exact .inr rfl
    · rw [Function.update_of_ne hj, List.mem_append, List.mem_singleton, ← h.waits]
      exact or_iff_left fun heq => hj (Prod.mk.inj heq).1
  · show ((c'.queue ++ [(i, o)]).map Prod.fst).Nodup
    rw [List.map_append, List.nodup_append]
    refine ⟨h.once, List.pairwise_singleton _ _, fun j hj j' hj' heq => ?_⟩
    obtain ⟨x, hx, rfl⟩ := List.mem_map.mp hj
    obtain rfl : x.1 = i := heq.trans (List.mem_singleton.mp hj')
    exact hnot x.2 hx
  · intro x hx
    rcases List.mem_append.mp hx with hx | hx
    · exact h.queued x hx
    · rw [List.mem_singleton.mp hx]
      exact ho
  · show Entry.sentIn (Entry.sinceRestart (c'.log ++ [.sent i o])) =
      Entry.performedIn slow (Entry.sinceRestart (c'.log ++ [.sent i o])) ++ (c'.queue ++ [(i, o)])
    rw [Entry.sinceRestart_snoc _ rfl, Entry.sentIn_append, Entry.performedIn_append, h.inOrder, List.append_assoc, List.append_assoc]
    rfl

theorem works (h : Atomic slow c c') {rest : List (ι × Op)} {ch : Choice} {w : W} (hqueue : c'.queue = (i, o) :: rest)
    (hact : S.act i o ch c'.world = some (r, w)) : ∃ t k, S.Step c (.call i ch) (c.called i t k r w) ∧
      Atomic slow (c.called i t k r w) (c'.worked i rest o r w) := by
  have hfirst : (i, o) ∈ c'.queue := hqueue ▸ List.mem_cons_self
  obtain ⟨⟨t, k, hi⟩, hreply⟩ := (h.waits i o).mp hfirst
  obtain ⟨ht, hrest⟩ := h.waiting hi hreply
  -- its command is the first in the queue and stands nowhere else
  have honce : i ∉ rest.map Prod.fst ∧ (rest.map Prod.fst).Nodup := by
    have h' := h.once
    rw [hqueue, List.map_cons] at h'
    exact List.nodup_cons.mp h'
  refine ⟨t, k, .call ht hrest (h.world ▸ hact), rfl, h.log_snoc _, fun j => ?_, fun j o' => ?_, honce.2, ?_, ?_⟩
  · show Agrees (Function.update c'.replies i _ j) (Function.update c.threads i _ j) (c'.threads j)
    by_cases hj : j = i
    · subst hj
      rw [Function.update_self, Function.update_self, hi]
      exact .serving _ _ (.replied t o k r hrest)
    · rw [Function.update_of_ne hj, Function.update_of_ne hj]
      exact h.threads j
  · show (j, o') ∈ rest ↔ _ ∧ Function.update c'.replies i _ j = none
    by_cases hj : j = i
    · subst hj
      rw [Function.update_self]
      exact ⟨fun hmem => absurd (List.mem_map_of_mem (f := Prod.fst) hmem) honce.1, fun ⟨_, hnone⟩ => by cases hnone⟩
    · have hothers := h.waits j o'
      rw [hqueue, List.mem_cons, or_iff_right fun heq => hj (Prod.mk.inj heq).1] at hothers
      rw [Function.update_of_ne hj]
      exact hothers
  · exact fun x hx => h.queued x (hqueue ▸ List.mem_cons_of_mem _ hx)
  · have hslow : Entry.performedIn slow [(.seen (.call i o r) : Entry ι Res Req α)] = [(i, o)] :=
      List.filterMap_cons_some (if_pos (h.queued (i, o) hfirst))
    show Entry.sentIn (Entry.sinceRestart (c'.log ++ [.seen (.call i o r)])) =
      Entry.performedIn slow (Entry.sinceRestart (c'.log ++ [.seen (.call i o r)])) ++ rest
    rw [Entry.sinceRestart_snoc _ rfl, Entry.sentIn_append, Entry.performedIn_append, hslow, h.inOrder, hqueue, List.append_assoc, List.append_assoc]
    exact congrArg _ (List.append_nil _)

theorem receives (h : Atomic slow c c') (hi : c'.threads i = some (.waiting t o k)) (hreply : c'.replies i = some ⟨o, r⟩) :
    Atomic slow c (c'.received i t k r) := by
  have ht := h.replied hi hreply
  refine ⟨h.world, h.log, fun j => ?_, fun j o' => ?_, h.once, h.queued, h.inOrder⟩
  · show Agrees (Function.update c'.replies i none j) (c.threads j) (Function.update c'.threads i _ j)
    by_cases hj : j = i
    · subst hj
      rw [Function.update_self, Function.update_self, ht]
      exact .serving _ _ (.running _)
    · rw [Function.update_of_ne hj, Function.update_of_ne hj]
      exact h.threads j
  · show (j, o') ∈ c'.queue ↔ (∃ t' k', Function.update c'.threads i _ j = some (.waiting t' o' k')) ∧
      Function.update c'.replies i none j = none
    by_cases hj : j = i
    · subst hj
      rw [Function.update_self, h.waits, hreply]
      exact ⟨fun ⟨_, hnone⟩ => (by cases hnone), fun ⟨⟨_, _, hw⟩, _⟩ => (by cases hw)⟩
    · rw [Function.update_of_ne hj, Function.update_of_ne hj]
      exact h.waits j o'

/-- Every step with the queue is one of the system without, or none. -/
theorem step (h : Atomic slow c c') (hs : S.QueueStep slow c' d') : Atomic slow c d' ∨ ∃ e d, S.Step c e d ∧ Atomic slow d d' := by
  cases hs with
  | @arrive i q hidle hadm =>
    obtain ⟨hnone, hreply⟩ := h.idle hidle
    obtain ⟨hthreads, hwaits⟩ := h.update (i := i) (u := some ⟨q, [], S.handler q⟩) (s := some (.running ⟨q, [], S.handler q⟩))
      (.serving _ _ (hreply ▸ .running _)) (by simp [hidle]) (by simp)
    exact .inr ⟨.arrive i q, c.arrived S i q, .arrive hnone (h.world ▸ hadm), h.world, h.log_snoc _, hthreads, hwaits, h.once,
      h.queued, h.inOrder_snoc rfl rfl rfl⟩
  | @send i t o k hi hrest hslow => exact .inl (h.sends hi hrest hslow)
  | @work i o rest ch r w hqueue hact =>
    obtain ⟨t, k, hstep, hatomic⟩ := h.works hqueue hact
    exact .inr ⟨_, _, hstep, hatomic⟩
  | @receive i t o k r hi hreply => exact .inl (h.receives hi hreply)
  | @call i t o k ch r w hi hrest hslow hact =>
    obtain ⟨ht, hreply⟩ := h.running hi
    obtain ⟨hthreads, hwaits⟩ := h.update (i := i) (u := some ⟨t.request, t.trace ++ [⟨o, r⟩], k r⟩)
      (s := some (.running ⟨t.request, t.trace ++ [⟨o, r⟩], k r⟩)) (.serving _ _ (hreply ▸ .running _)) (by simp [hi]) (by simp)
    -- an operation that is not slow never goes through the queue
    have hfast : Entry.performedIn slow [(.seen (.call i o r) : Entry ι Res Req α)] = [] :=
      List.filterMap_cons_none (if_neg (by simp [hslow]))
    exact .inr ⟨.call i ch, c.called i t k r w, .call ht hrest (h.world ▸ hact), rfl, h.log_snoc _, hthreads, hwaits, h.once,
      h.queued, h.inOrder_snoc rfl rfl hfast⟩
  | @answer i t a hi hrest =>
    obtain ⟨ht, hreply⟩ := h.running hi
    obtain ⟨hthreads, hwaits⟩ := h.update (i := i) (u := none) (s := none) (.idle hreply) (by simp [hi]) (by simp)
    exact .inr ⟨.answer i, c.answered i a, .answer ht hrest, h.world, h.log_snoc _, hthreads, hwaits, h.once, h.queued,
      h.inOrder_snoc rfl rfl rfl⟩
  | @drift e =>
    exact .inr ⟨.drift e, c.drifted (S.drift e c.world), .drift, congrArg (S.drift e) h.world, h.log_snoc _, h.threads, h.waits,
      h.once, h.queued, h.inOrder_snoc rfl rfl rfl⟩
  | @restart ch =>
    refine .inr ⟨.restart ch, c.restarted (S.restart ch c.world), .restart, congrArg (S.restart ch) h.world, h.log_snoc _,
      fun _ => .idle rfl, fun i o => ⟨fun hmem => (by cases hmem), fun ⟨⟨_, _, hw⟩, _⟩ => (by cases hw)⟩, List.nodup_nil,
      fun _ hx => (by cases hx), ?_⟩
    show Entry.sentIn (Entry.sinceRestart (c'.log ++ [.seen .restart])) =
      Entry.performedIn slow (Entry.sinceRestart (c'.log ++ [.seen .restart])) ++ []
    rw [Entry.sinceRestart_restart _ rfl]
    rfl

end Atomic

theorem System.QueueReaches.atomic [DecidableEq ι] {S : System ι Op Res W Req α Choice Env} {slow : Op → Bool} {w₀ : W}
    {c' : QueueConfig ι Op Res W Req α} (h : S.QueueReaches slow w₀ c') : ∃ c, S.Reaches w₀ System.Anywhere c ∧ Atomic slow c c' := by
  induction h with
  | init => exact ⟨.init w₀, .init, .init w₀⟩
  | step _ hs ih =>
    obtain ⟨c, hc, hatomic⟩ := ih
    rcases hatomic.step hs with hsame | ⟨e, d, hstep, hatomic'⟩
    · exact ⟨c, hc, hsame⟩
    · exact ⟨d, .step hc trivial hstep, hatomic'⟩

end Concurrency

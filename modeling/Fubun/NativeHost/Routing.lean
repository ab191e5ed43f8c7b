import Fubun.NativeHost.Moves
import Fubun.Relational.Stream

/-! The native host between its tasks: an acknowledgement goes to the emission that asked for it, and
what the core asks is passed on in order. -/

namespace Fubun.NativeHost
open Encoding Extensions Relational

/-! ## Conclusions -/

/-- A frame has acknowledged the emission `n` after the host has read it. -/
def Acknowledged (log : List HostEntry) (n : Nat) (requestId : Uuid) (ack : EventAck) : Prop :=
  ∃ before request after, log = before ++ .received request :: after ∧ (∃ message, .read n message ∈ before) ∧
    request.requestId = requestId ∧ request.actionExecutionId = .nil ∧ request.body = .eventAck ack

theorem Acknowledged.append {log : List HostEntry} {n : Nat} {requestId : Uuid} {ack : EventAck}
    (h : Acknowledged log n requestId ack) (more : List HostEntry) : Acknowledged (log ++ more) n requestId ack := by
  obtain ⟨before, request, after, rfl, hrest⟩ := h
  exact ⟨before, request, after ++ more, by rw [List.append_assoc, List.cons_append], hrest⟩

def Concludes (log : List HostEntry) (n : Nat) (requestId : Uuid) (envelope : NativeEnvelope) : Prop :=
  envelope = integrationError requestId ∨
    ∃ ack, Acknowledged log n requestId ack ∧ envelope = eventAckMessage requestId ack

def HostEntry.IsRight (before : List HostEntry) : HostEntry → Prop
  | .answered n envelope =>
    ∀ message, .read n message ∈ before → isEmission message = true → Concludes before n message.requestId envelope
  | _ => True

def answeredNumbers (log : List HostEntry) : List Nat :=
  log.filterMap fun
    | .answered n _ => some n
    | _ => none

def inboundOf (log : List HostEntry) : List CoreInbound :=
  log.filterMap fun
    | .received request => request.inbound?
    | _ => none

def forwardedOf (log : List HostEntry) : List CoreInbound :=
  log.filterMap fun
    | .forwarded inbound _ => some inbound
    | _ => none

theorem answeredNumbers_append (log more : List HostEntry) :
    answeredNumbers (log ++ more) = answeredNumbers log ++ answeredNumbers more := List.filterMap_append

theorem inboundOf_append (log more : List HostEntry) : inboundOf (log ++ more) = inboundOf log ++ inboundOf more :=
  List.filterMap_append

theorem forwardedOf_append (log more : List HostEntry) : forwardedOf (log ++ more) = forwardedOf log ++ forwardedOf more :=
  List.filterMap_append

def MainLoop.number? : MainLoop → Option Nat
  | .requesting n _ _ | .returning n _ _ | .answering n _ => some n
  | .listening | .forwarding _ | .stopped => none

theorem EventTask.requestId_of_guarded {task : EventTask} {requestId : Uuid} (h : task.guarded? = some requestId) :
    task.requestId? = some requestId := by
  cases task <;> first | exact h | exact nomatch h

/-- The messages that were read, and who has them. -/
structure Numbered (mainLoop : MainLoop) (tasks : Nat → EventTask) (reads : Nat) (log : List HostEntry) : Prop where
  bounded : ∀ n message, .read n message ∈ log → n < reads
  same : ∀ n message message', .read n message ∈ log → .read n message' ∈ log → message = message'
  distinct : ∀ n n' message message', .read n message ∈ log → .read n' message' ∈ log → isEmission message = true →
    isEmission message' = true → message.requestId = message'.requestId → n = n'
  beyond : ∀ n, reads ≤ n → tasks n = .absent
  asked : ∀ n requestId, (tasks n).requestId? = some requestId →
    ∃ message, .read n message ∈ log ∧ isEmission message = true ∧ message.requestId = requestId
  turn : ∀ n, mainLoop.number? = some n → n < reads ∧ tasks n = .absent ∧ ∀ message, .read n message ∈ log →
    isEmission message = true → mainLoop = .answering n (integrationError message.requestId)

namespace Numbered
variable {mainLoop mainLoop' : MainLoop} {tasks : Nat → EventTask} {reads n : Nat} {log : List HostEntry} {requestId : Uuid}

theorem start : Numbered .listening (fun _ => .absent) 0 [] where
  bounded := fun _ _ hmem => nomatch hmem
  same := fun _ _ _ hmem => nomatch hmem
  distinct := fun _ _ _ _ hmem => nomatch hmem
  beyond := fun _ _ => rfl
  asked := fun _ _ heq => nomatch heq
  turn := fun _ heq => nomatch heq

theorem record (h : Numbered mainLoop tasks reads log) {entry : HostEntry} (hentry : ∀ n message, .read n message ≠ entry) :
    Numbered mainLoop tasks reads (log ++ [entry]) := by
  have hmem : ∀ {n message}, .read n message ∈ log ++ [entry] → .read n message ∈ log := by
    intro n message hmem
    rcases List.mem_append.mp hmem with hmem | hmem
    · exact hmem
    · exact absurd (List.mem_singleton.mp hmem) (hentry n message)
  refine ⟨?_, ?_, ?_, h.beyond, ?_, ?_⟩
  · exact fun n message hread => h.bounded n message (hmem hread)
  · exact fun n message message' hread hread' => h.same n message message' (hmem hread) (hmem hread')
  · exact fun n n' message message' hread hread' => h.distinct n n' message message' (hmem hread) (hmem hread')
  · intro n requestId hid
    obtain ⟨message, hread, hrest⟩ := h.asked n requestId hid
    exact ⟨message, List.mem_append_left _ hread, hrest⟩
  · intro n hn
    obtain ⟨hlt, habsent, hanswer⟩ := h.turn n hn
    exact ⟨hlt, habsent, fun message hread => hanswer message (hmem hread)⟩

theorem setTask (h : Numbered mainLoop tasks reads log) (hat : (tasks n).requestId? = some requestId) (task : EventTask)
    (htask : ∀ id, task.requestId? = some id → id = requestId) : Numbered mainLoop (Function.update tasks n task) reads log := by
  have hpresent : tasks n ≠ .absent := by
    intro habsent
    rw [habsent] at hat
    exact nomatch hat
  refine { h with beyond := ?_, asked := ?_, turn := ?_ }
  · intro m hm
    have hmn : m ≠ n := by
      rintro rfl
      exact hpresent (h.beyond m hm)
    rw [Function.update_of_ne hmn]
    exact h.beyond m hm
  · intro m id hid
    by_cases hmn : m = n
    · subst hmn
      rw [Function.update_self] at hid
      exact htask id hid ▸ h.asked m requestId hat
    · rw [Function.update_of_ne hmn] at hid
      exact h.asked m id hid
  · intro m hm
    obtain ⟨hlt, habsent, hanswer⟩ := h.turn m hm
    have hmn : m ≠ n := by
      rintro rfl
      exact hpresent habsent
    rw [Function.update_of_ne hmn]
    exact ⟨hlt, habsent, hanswer⟩

theorem leave (h : Numbered mainLoop tasks reads log) (hloop : mainLoop'.number? = none) : Numbered mainLoop' tasks reads log :=
  { h with turn := fun _ hn => nomatch hloop.symm.trans hn }

/-- The main loop has made no answer to the message it is at, or an error; in both cases it may answer. -/
theorem answerWith (h : Numbered mainLoop tasks reads log) (hat : mainLoop.number? = some n)
    (hno : ∀ envelope, mainLoop ≠ .answering n envelope) (envelope : NativeEnvelope) :
    Numbered (.answering n envelope) tasks reads log := by
  obtain ⟨hlt, habsent, hanswer⟩ := h.turn n hat
  refine { h with turn := ?_ }
  rintro m ⟨⟩
  exact ⟨hlt, habsent, fun message hread hemission => absurd (hanswer message hread hemission) (hno _)⟩

theorem read (h : Numbered mainLoop tasks reads log) {message : NativeEnvelope}
    (hnew : isEmission message = true → message.requestId ∉ emissionIds log) (hfree : mainLoop.number? = none) :
    Numbered mainLoop tasks (reads + 1) (log ++ [.read reads message]) := by
  have hcases : ∀ {n message'}, .read n message' ∈ log ++ [.read reads message] →
      .read n message' ∈ log ∨ (n = reads ∧ message' = message) := by
    intro n message' hmem
    rcases List.mem_append.mp hmem with hmem | hmem
    · exact .inl hmem
    · exact .inr (HostEntry.read.inj (List.mem_singleton.mp hmem))
  have hclash : ∀ {n : Nat} {message'}, .read n message' ∈ log → isEmission message' = true → isEmission message = true →
      message'.requestId ≠ message.requestId := by
    intro n message' hread hemission' hemission heq
    exact hnew hemission (mem_emissionIds.mpr ⟨n, message', hread, hemission', heq⟩)
  refine ⟨?_, ?_, ?_, ?_, ?_, fun n hn => nomatch hfree.symm.trans hn⟩
  · intro n message' hmem
    rcases hcases hmem with hread | ⟨rfl, -⟩
    · exact Nat.lt_succ_of_lt (h.bounded n message' hread)
    · exact Nat.lt_succ_self n
  · intro n message' message'' hmem hmem'
    rcases hcases hmem with hread | ⟨hn, rfl⟩ <;> rcases hcases hmem' with hread' | ⟨hn', rfl⟩
    · exact h.same n message' message'' hread hread'
    · exact absurd (hn' ▸ h.bounded n message' hread) (Nat.lt_irrefl reads)
    · exact absurd (hn ▸ h.bounded n message'' hread') (Nat.lt_irrefl reads)
    · rfl
  · intro n n' message' message'' hmem hmem' hemission hemission' heq
    rcases hcases hmem with hread | ⟨rfl, rfl⟩ <;> rcases hcases hmem' with hread' | ⟨rfl, rfl⟩
    · exact h.distinct n n' message' message'' hread hread' hemission hemission' heq
    · exact absurd heq (hclash hread hemission hemission')
    · exact absurd heq.symm (hclash hread' hemission' hemission)
    · rfl
  · exact fun n hn => h.beyond n (Nat.le_of_succ_le hn)
  · intro n requestId hid
    obtain ⟨message', hread, hrest⟩ := h.asked n requestId hid
    exact ⟨message', List.mem_append_left _ hread, hrest⟩

theorem spawn (h : Numbered mainLoop tasks reads log) {message : NativeEnvelope} (hread : .read n message ∈ log)
    (hemission : isEmission message = true) (hfree : mainLoop.number? = none) (event : BrowserEvent) :
    Numbered mainLoop (Function.update tasks n (.spawned message.requestId event)) reads log := by
  refine { h with beyond := ?_, asked := ?_, turn := fun m hm => nomatch hfree.symm.trans hm }
  · intro m hm
    have hmn : m ≠ n := by
      rintro rfl
      exact Nat.lt_irrefl m (Nat.lt_of_lt_of_le (h.bounded m message hread) hm)
    rw [Function.update_of_ne hmn]
    exact h.beyond m hm
  · intro m id hid
    by_cases hmn : m = n
    · subst hmn
      rw [Function.update_self] at hid
      exact ⟨message, hread, hemission, Option.some.inj hid⟩
    · rw [Function.update_of_ne hmn] at hid
      exact h.asked m id hid

theorem turnTo (h : Numbered mainLoop tasks reads log) {D : Decoders} {message : NativeEnvelope} (hread : .read n message ∈ log)
    (habsent : tasks n = .absent) (hturns : MainLoop.Turns D n message mainLoop') : Numbered mainLoop' tasks reads log := by
  have hnumber : mainLoop'.number? = some n := by cases hturns <;> rfl
  have hanswer : isEmission message = true → mainLoop' = .answering n (integrationError message.requestId) := by
    intro hemission
    cases hturns with
    | refused _ => rfl
    | requesting hhandle => exact nomatch (emits_iff hhandle).mp hemission
    | returning hhandle => exact nomatch (emits_iff hhandle).mp hemission
    | pong hhandle => exact nomatch (emits_iff hhandle).mp hemission
  refine { h with turn := ?_ }
  intro m hm
  obtain rfl := Option.some.inj (hnumber.symm.trans hm)
  refine ⟨h.bounded n message hread, habsent, ?_⟩
  intro message' hread' hemission
  rw [h.same n message' message hread' hread] at hemission ⊢
  exact hanswer hemission

end Numbered

abbrev Host.IsNumbered (s : Host) : Prop := Numbered s.mainLoop s.tasks s.reads s.log

theorem Moves.isNumbered {D : Decoders} {s s' : Host} {e : HostEvent} (h : s.IsNumbered) (hm : Moves D s e s') :
    s'.IsNumbered := by
  have hid : ∀ {requestId : Uuid} (id : Uuid), some requestId = some id → id = requestId := fun _ heq => (Option.some.inj heq).symm
  cases hm with
  | @turn message mainLoop hat hnew hturns =>
    have hcounted := h.read hnew (by rw [hat]; rfl)
    exact hcounted.turnTo (List.mem_append_right _ List.mem_cons_self) (h.beyond s.reads le_rfl) hturns
  | @spawn message event hat hnew hemit =>
    have hfree : s.mainLoop.number? = none := by rw [hat]; rfl
    have hcounted := h.read (fun _ => hnew) hfree
    exact hcounted.spawn (List.mem_append_right _ List.mem_cons_self) ((emits_iff hemit).mpr ⟨event, rfl⟩) hfree event
  | answerWith hat => exact h.answerWith (by rw [hat]; rfl) (by rw [hat]; exact fun _ heq => nomatch heq) _
  | take _ _ => exact h.leave rfl
  | returned _ _ => exact h.leave rfl
  | unreturned hat => exact h.answerWith (by rw [hat]; rfl) (by rw [hat]; exact fun _ heq => nomatch heq) _
  | answer _ _ => exact (h.leave rfl).record fun _ _ heq => nomatch heq
  | forwardAction _ _ => exact (h.leave rfl).record fun _ _ heq => nomatch heq
  | forwardStatus _ _ => exact (h.leave rfl).record fun _ _ heq => nomatch heq
  | enter hat _ => exact h.setTask (by rw [hat]; rfl) _ hid
  | duplicate hat => exact h.setTask (by rw [hat]; rfl) _ hid
  | send hat _ => exact h.setTask (by rw [hat]; rfl) _ hid
  | fail error hat _ => exact h.setTask (EventTask.requestId_of_guarded hat) _ hid
  | conclude hat _ => exact h.setTask (by rw [hat]; rfl) _ hid
  | @respond n requestId result _ hat _ =>
    have hid : (s.tasks n).requestId? = some requestId := by rw [hat]; rfl
    have hended := h.setTask hid .ended fun _ heq => nomatch heq
    exact hended.record fun _ _ heq => nomatch heq
  | deliver _ _ _ _ _ => exact h.record fun _ _ heq => nomatch heq
  | ignore _ _ => exact h.record fun _ _ heq => nomatch heq
  | accept _ _ => exact h.record fun _ _ heq => nomatch heq
  | _ => exact h

/-! ## The pending map -/

/-- The entries of the pending map belong to the tasks that wait under their request ids, and what
has come for a task is its acknowledgement. -/
structure Guards (pending : List PendingEventAck) (tasks : Nat → EventTask)
    (acks : Nat → Option (Except PendingAckError EventAck)) (log : List HostEntry) : Prop where
  rows : ∀ row ∈ pending, (tasks row.n).guarded? = some row.requestId ∧ acks row.n = none
  delivered : ∀ n requestId ack, (tasks n).guarded? = some requestId → acks n = some (.ok ack) → Acknowledged log n requestId ack
  concluded : ∀ n requestId ack, tasks n = .responding requestId (.ok ack) → Acknowledged log n requestId ack

namespace Guards
variable {pending : List PendingEventAck} {tasks : Nat → EventTask} {acks : Nat → Option (Except PendingAckError EventAck)}
  {log : List HostEntry} {n : Nat} {requestId : Uuid}

theorem start : Guards [] (fun _ => .absent) (fun _ => none) [] where
  rows := fun _ hmem => nomatch hmem
  delivered := fun _ _ _ heq => nomatch heq
  concluded := fun _ _ _ heq => nomatch heq

theorem append (h : Guards pending tasks acks log) (more : List HostEntry) : Guards pending tasks acks (log ++ more) where
  rows := h.rows
  delivered := fun n requestId ack hguard hack => (h.delivered n requestId ack hguard hack).append more
  concluded := fun n requestId ack hat => (h.concluded n requestId ack hat).append more

theorem setTask (h : Guards pending tasks acks log) (task : EventTask)
    (hrow : ∀ row ∈ pending, row.n = n → task.guarded? = some row.requestId)
    (hguard : ∀ id ack, task.guarded? = some id → acks n = some (.ok ack) → Acknowledged log n id ack)
    (hresult : ∀ id ack, task = .responding id (.ok ack) → Acknowledged log n id ack) :
    Guards pending (Function.update tasks n task) acks log where
  rows := by
    intro row hmem
    by_cases hn : row.n = n
    · rw [hn, Function.update_self]
      exact ⟨hrow row hmem hn, hn ▸ (h.rows row hmem).2⟩
    · rw [Function.update_of_ne hn]
      exact h.rows row hmem
  delivered := by
    intro m id ack
    by_cases hmn : m = n
    · subst hmn
      rw [Function.update_self]
      exact hguard id ack
    · rw [Function.update_of_ne hmn]
      exact h.delivered m id ack
  concluded := by
    intro m id ack
    by_cases hmn : m = n
    · subst hmn
      rw [Function.update_self]
      exact hresult id ack
    · rw [Function.update_of_ne hmn]
      exact h.concluded m id ack

theorem unguarded (h : Guards pending tasks acks log) (hat : (tasks n).guarded? = none) : ∀ row ∈ pending, row.n ≠ n := by
  rintro row hmem rfl
  exact nomatch hat.symm.trans (h.rows row hmem).1

theorem release (h : Guards pending tasks acks log) (requestId : Uuid) :
    Guards (deleteRows (·.requestId == requestId) pending) tasks acks log :=
  { h with rows := fun row hmem => h.rows row (mem_deleteRows.mp hmem).1 }

theorem finish (h : Guards pending tasks acks log) (hfree : ∀ row ∈ pending, row.n ≠ n) (result : Except HostMessageError EventAck)
    (hresult : ∀ ack, result = .ok ack → Acknowledged log n requestId ack) :
    Guards pending (Function.update tasks n (.responding requestId result)) acks log := by
  apply h.setTask
  · exact fun row hmem hn => absurd hn (hfree row hmem)
  · exact fun _ _ heq => nomatch heq
  · rintro id ack heq
    obtain ⟨rfl, hok⟩ := EventTask.responding.inj heq
    exact hresult ack hok

theorem fail (h : Guards pending tasks acks log) (hat : (tasks n).guarded? = some requestId) (error : HostMessageError) :
    Guards (deleteRows (·.requestId == requestId) pending) (Function.update tasks n (.responding requestId (.error error))) acks
      log := by
  apply (h.release requestId).finish
  · rintro row hmem rfl
    obtain ⟨hrow, hother⟩ := mem_deleteRows.mp hmem
    have hid : row.requestId = requestId := Option.some.inj ((h.rows row hrow).1.symm.trans hat)
    exact nomatch hother.symm.trans (beq_iff_eq.mpr hid)
  · exact fun _ heq => nomatch heq

theorem insert (h : Guards pending tasks acks log) (hat : (tasks n).guarded? = none) (event : BrowserEvent) :
    Guards (pending ++ [⟨requestId, n⟩]) (Function.update tasks n (.sending requestId event)) (Function.update acks n none)
      log where
  rows := by
    intro row hmem
    rcases List.mem_append.mp hmem with hmem | hmem
    · have hn := h.unguarded hat row hmem
      rw [Function.update_of_ne hn, Function.update_of_ne hn]
      exact h.rows row hmem
    · obtain rfl := List.mem_singleton.mp hmem
      rw [Function.update_self, Function.update_self]
      exact ⟨rfl, rfl⟩
  delivered := by
    intro m id ack hguard hack
    have hmn : m ≠ n := by
      rintro rfl
      rw [Function.update_self] at hack
      exact nomatch hack
    rw [Function.update_of_ne hmn] at hguard hack
    exact h.delivered m id ack hguard hack
  concluded := by
    intro m id ack heq
    have hmn : m ≠ n := by
      rintro rfl
      rw [Function.update_self] at heq
      exact nomatch heq
    rw [Function.update_of_ne hmn] at heq
    exact h.concluded m id ack heq

theorem drain (h : Guards pending tasks acks log) (error : PendingAckError) :
    Guards [] tasks (fun n => if pending.any (·.n == n) then some (.error error) else acks n) log where
  rows := fun _ hmem => nomatch hmem
  delivered := by
    intro n id ack hguard hack
    split_ifs at hack
    · exact nomatch hack
    · exact h.delivered n id ack hguard hack
  concluded := h.concluded

/-- An entry is taken out, and the task it belongs to gets what the frame says. -/
theorem deliver (h : Guards pending tasks acks log) {row : PendingEventAck} (hrow : row ∈ pending)
    {result : Except PendingAckError EventAck} (hresult : ∀ ack, result = .ok ack → Acknowledged log row.n row.requestId ack) :
    Guards (deleteRows (·.requestId == row.requestId) pending) tasks (Function.update acks row.n (some result)) log where
  rows := by
    intro other hmem
    obtain ⟨hother, hne⟩ := mem_deleteRows.mp hmem
    have hn : other.n ≠ row.n := by
      intro hn
      have hid : other.requestId = row.requestId :=
        Option.some.inj ((h.rows other hother).1.symm.trans (hn ▸ (h.rows row hrow).1))
      exact nomatch hne.symm.trans (beq_iff_eq.mpr hid)
    rw [Function.update_of_ne hn]
    exact h.rows other hother
  delivered := by
    intro m id ack hguard hack
    by_cases hm : m = row.n
    · subst hm
      rw [Function.update_self] at hack
      obtain rfl : row.requestId = id := Option.some.inj ((h.rows row hrow).1.symm.trans hguard)
      exact hresult ack (Option.some.inj hack)
    · rw [Function.update_of_ne hm] at hack
      exact h.delivered m id ack hguard hack
  concluded := h.concluded

end Guards

abbrev Host.IsGuarded (s : Host) : Prop := Guards s.pending s.tasks s.acks s.log

theorem Moves.isGuarded {D : Decoders} {s s' : Host} {e : HostEvent} (hn : s.IsNumbered) (h : s.IsGuarded) (hm : Moves D s e s') :
    s'.IsGuarded := by
  cases hm with
  | turn _ _ _ => exact h.append _
  | @spawn message _ _ _ _ =>
    have habsent : (s.tasks s.reads).guarded? = none := by
      rw [hn.beyond s.reads le_rfl]
      rfl
    have hread := h.append [.read s.reads message]
    -- a task that has not begun guards nothing
    apply hread.setTask
    · exact fun row hmem heq => absurd heq (hread.unguarded habsent row hmem)
    · exact fun _ _ heq => nomatch heq
    · exact fun _ _ heq => nomatch heq
  | answer _ _ => exact h.append _
  | forwardAction _ _ => exact h.append _
  | forwardStatus _ _ => exact h.append _
  | enter hat _ => exact h.insert (by rw [hat]; rfl) _
  | duplicate hat => exact h.finish (h.unguarded (by rw [hat]; rfl)) _ fun _ heq => nomatch heq
  | @send n requestId event adapter hat _ =>
    have hguard : (s.tasks n).guarded? = some requestId := by rw [hat]; rfl
    apply h.setTask
    · rintro row hmem rfl
      exact hguard.symm.trans (h.rows row hmem).1
    · rintro id ack ⟨⟩
      exact h.delivered n requestId ack hguard
    · exact fun _ _ heq => nomatch heq
  | fail error hat _ => exact h.fail hat error
  | @conclude n requestId result hat hack =>
    -- every row still waits, while this acknowledgement has come
    apply h.finish
    · rintro row hmem rfl
      exact nomatch hack.symm.trans (h.rows row hmem).2
    · intro ack hok
      have hguard : (s.tasks n).guarded? = some requestId := by rw [hat]; rfl
      apply h.delivered n requestId ack hguard
      rw [hack]
      cases result with
      | ok a => exact congrArg some (congrArg _ (Except.ok.inj hok))
      | error error => cases error <;> exact nomatch hok
  | @respond n requestId result native hat _ =>
    have hguard : (s.tasks n).guarded? = none := by rw [hat]; rfl
    have hended : Guards s.pending (Function.update s.tasks n .ended) s.acks s.log := by
      apply h.setTask
      · exact fun row hmem heq => absurd heq (h.unguarded hguard row hmem)
      · exact fun _ _ heq => nomatch heq
      · exact fun _ _ heq => nomatch heq
    exact hended.append _
  | disconnect _ => exact h.drain .disconnected
  | @deliver request row ack result _ hbody hrow hid hresult =>
    have hreceived := h.append [.received request]
    apply hreceived.deliver hrow
    intro a ha
    obtain ⟨rfl, hnil⟩ := hresult a ha
    have hasked := EventTask.requestId_of_guarded (h.rows row hrow).1
    obtain ⟨message, hread, -, -⟩ := hn.asked row.n row.requestId hasked
    exact ⟨s.log, request, [], rfl, ⟨message, hread⟩, hid.symm, hnil, hbody⟩
  | ignore _ _ => exact h.append _
  | accept _ _ => exact h.append _
  | _ => exact h

/-! ## One answer for each message -/

/-- Messages that something still has in hand, and those that are answered. -/
structure Ends (held : Nat → Prop) (reads : Nat) (log : List HostEntry) : Prop where
  once : (answeredNumbers log).Nodup
  finished : ∀ n ∈ answeredNumbers log, n < reads ∧ ¬ held n
  right : Follows HostEntry.IsRight log
  covered : ∀ n message, .read n message ∈ log → isEmission message = true → held n ∨ n ∈ answeredNumbers log

namespace Ends
variable {held held' : Nat → Prop} {reads n : Nat} {log : List HostEntry}

theorem congr (h : Ends held reads log) (hsame : ∀ m, held' m ↔ held m) : Ends held' reads log where
  once := h.once
  finished := fun m hm => ⟨(h.finished m hm).1, fun hheld => (h.finished m hm).2 ((hsame m).mp hheld)⟩
  right := h.right
  covered := fun m message hread hemission => (h.covered m message hread hemission).imp_left (hsame m).mpr

theorem record (h : Ends held reads log) {entry : HostEntry} (hread : ∀ n message, .read n message ≠ entry)
    (hanswer : ∀ n envelope, entry ≠ .answered n envelope) : Ends held reads (log ++ [entry]) := by
  have hnone : answeredNumbers [entry] = [] := by
    cases entry with
    | answered n envelope => exact absurd rfl (hanswer n envelope)
    | _ => rfl
  have hsame : answeredNumbers (log ++ [entry]) = answeredNumbers log := by
    rw [answeredNumbers_append, hnone, List.append_nil]
  refine ⟨?_, ?_, ?_, ?_⟩
  · rw [hsame]
    exact h.once
  · rw [hsame]
    exact h.finished
  · apply h.right.snoc
    cases entry with
    | answered n envelope => exact absurd rfl (hanswer n envelope)
    | _ => exact trivial
  · intro n message hmem hemission
    rw [hsame]
    rcases List.mem_append.mp hmem with hmem | hmem
    · exact h.covered n message hmem hemission
    · exact absurd (List.mem_singleton.mp hmem) (hread n message)

theorem answer (h : Ends held reads log) (hn : held n) (hlt : n < reads) (hsame : ∀ m, held' m ↔ held m ∧ m ≠ n)
    {envelope : NativeEnvelope} (hright : HostEntry.IsRight log (.answered n envelope)) :
    Ends held' reads (log ++ [.answered n envelope]) := by
  have hnumbers : answeredNumbers (log ++ [.answered n envelope]) = answeredNumbers log ++ [n] := answeredNumbers_append _ _
  have hmem : ∀ {m}, m ∈ answeredNumbers log ++ [n] → m ∈ answeredNumbers log ∨ m = n := by
    intro m hm
    rcases List.mem_append.mp hm with hm | hm
    · exact .inl hm
    · exact .inr (List.mem_singleton.mp hm)
  refine ⟨?_, ?_, h.right.snoc hright, ?_⟩
  · rw [hnumbers]
    apply List.Nodup.append h.once (List.nodup_singleton n)
    intro m hm hsingle
    obtain rfl := List.mem_singleton.mp hsingle
    exact (h.finished m hm).2 hn
  · intro m hm
    rw [hnumbers] at hm
    rcases hmem hm with hm | rfl
    · exact ⟨(h.finished m hm).1, fun hheld => (h.finished m hm).2 ((hsame m).mp hheld).1⟩
    · exact ⟨hlt, fun hheld => ((hsame m).mp hheld).2 rfl⟩
  · intro m message hread hemission
    rw [hnumbers]
    have hbefore : .read m message ∈ log := by simpa using hread
    rcases h.covered m message hbefore hemission with hheld | hdone
    · by_cases hmn : m = n
      · exact .inr (List.mem_append_right _ (List.mem_singleton.mpr hmn))
      · exact .inl ((hsame m).mpr ⟨hheld, hmn⟩)
    · exact .inr (List.mem_append_left _ hdone)

theorem leave (h : Ends held reads log) (hsame : ∀ m, held' m ↔ held m ∧ m ≠ n)
    (hno : ∀ message, .read n message ∈ log → isEmission message ≠ true) : Ends held' reads log where
  once := h.once
  finished := fun m hm => ⟨(h.finished m hm).1, fun hheld => (h.finished m hm).2 ((hsame m).mp hheld).1⟩
  right := h.right
  covered := by
    intro m message hread hemission
    have hmn : m ≠ n := by
      rintro rfl
      exact hno message hread hemission
    exact (h.covered m message hread hemission).imp_left fun hheld => (hsame m).mpr ⟨hheld, hmn⟩

theorem read (h : Ends held reads log) (message : NativeEnvelope) (hsame : ∀ m, held' m ↔ held m ∨ m = reads) :
    Ends held' (reads + 1) (log ++ [.read reads message]) := by
  have hnumbers : answeredNumbers (log ++ [.read reads message]) = answeredNumbers log := by
    rw [answeredNumbers_append]
    exact List.append_nil _
  refine ⟨?_, ?_, h.right.snoc trivial, ?_⟩
  · rw [hnumbers]
    exact h.once
  · intro m hm
    rw [hnumbers] at hm
    obtain ⟨hlt, hfree⟩ := h.finished m hm
    refine ⟨Nat.lt_succ_of_lt hlt, fun hheld => ?_⟩
    rcases (hsame m).mp hheld with hheld | rfl
    · exact hfree hheld
    · exact Nat.lt_irrefl m hlt
  · intro m message' hmem hemission
    rw [hnumbers]
    rcases List.mem_append.mp hmem with hmem | hmem
    · exact (h.covered m message' hmem hemission).imp_left fun hheld => (hsame m).mpr (.inl hheld)
    · obtain ⟨rfl, -⟩ := HostEntry.read.inj (List.mem_singleton.mp hmem)
      exact .inl ((hsame m).mpr (.inr rfl))

end Ends

def Holds (tasks : Nat → EventTask) (mainLoop : MainLoop) (n : Nat) : Prop :=
  (tasks n).requestId? ≠ none ∨ mainLoop.number? = some n

abbrev Host.IsEnding (s : Host) : Prop := Ends (Holds s.tasks s.mainLoop) s.reads s.log

theorem holds_setTask {tasks : Nat → EventTask} {n : Nat} {task : EventTask} (h : task.requestId? = (tasks n).requestId?)
    (mainLoop : MainLoop) (m : Nat) : Holds (Function.update tasks n task) mainLoop m ↔ Holds tasks mainLoop m := by
  unfold Holds
  by_cases hmn : m = n
  · subst hmn
    rw [Function.update_self, h]
  · rw [Function.update_of_ne hmn]

theorem holds_setMain {mainLoop mainLoop' : MainLoop} (h : mainLoop'.number? = mainLoop.number?) (tasks : Nat → EventTask) (m : Nat) :
    Holds tasks mainLoop' m ↔ Holds tasks mainLoop m := by
  unfold Holds
  rw [h]

theorem holds_leave {mainLoop mainLoop' : MainLoop} {tasks : Nat → EventTask} {n : Nat} (hat : mainLoop.number? = some n)
    (hloop : mainLoop'.number? = none) (habsent : tasks n = .absent) (m : Nat) :
    Holds tasks mainLoop' m ↔ Holds tasks mainLoop m ∧ m ≠ n := by
  unfold Holds
  rw [hat, hloop]
  constructor
  · rintro (htask | hnone)
    · refine ⟨.inl htask, ?_⟩
      rintro rfl
      exact htask (habsent ▸ rfl)
    · exact nomatch hnone
  · rintro ⟨htask | heq, hmn⟩
    · exact .inl htask
    · exact absurd (Option.some.inj heq).symm hmn

theorem holds_turnTo {mainLoop mainLoop' : MainLoop} {n : Nat} (hfree : mainLoop.number? = none)
    (hloop : mainLoop'.number? = some n) (tasks : Nat → EventTask) (m : Nat) :
    Holds tasks mainLoop' m ↔ Holds tasks mainLoop m ∨ m = n := by
  unfold Holds
  rw [hloop, hfree, Option.some_inj, eq_comm (a := n)]
  simp

theorem holds_begin {task : EventTask} (hbegun : task.requestId? ≠ none) (tasks : Nat → EventTask) (mainLoop : MainLoop) (n m : Nat) :
    Holds (Function.update tasks n task) mainLoop m ↔ Holds tasks mainLoop m ∨ m = n := by
  unfold Holds
  by_cases hmn : m = n
  · subst hmn
    rw [Function.update_self]
    exact ⟨fun _ => .inr rfl, fun _ => .inl hbegun⟩
  · rw [Function.update_of_ne hmn]
    exact ⟨.inl, fun hheld => hheld.resolve_right hmn⟩

theorem holds_end {task : EventTask} (hended : task.requestId? = none) {mainLoop : MainLoop} {n : Nat}
    (hloop : mainLoop.number? ≠ some n) (tasks : Nat → EventTask) (m : Nat) :
    Holds (Function.update tasks n task) mainLoop m ↔ Holds tasks mainLoop m ∧ m ≠ n := by
  unfold Holds
  by_cases hmn : m = n
  · subst hmn
    rw [Function.update_self]
    exact ⟨fun hheld => absurd (hheld.resolve_left (not_not_intro hended)) hloop, fun hboth => absurd rfl hboth.2⟩
  · rw [Function.update_of_ne hmn]
    exact ⟨fun hheld => ⟨hheld, hmn⟩, fun hboth => hboth.1⟩

theorem Moves.isEnding {D : Decoders} {s s' : Host} {e : HostEvent} (hn : s.IsNumbered) (hg : s.IsGuarded) (h : s.IsEnding)
    (hm : Moves D s e s') : s'.IsEnding := by
  cases hm with
  | @turn message mainLoop hat _ hturns =>
    have hnumber : mainLoop.number? = some s.reads := by cases hturns <;> rfl
    have hfree : s.mainLoop.number? = none := by rw [hat]; rfl
    exact h.read message (holds_turnTo hfree hnumber s.tasks)
  | @spawn message event hat _ _ =>
    apply h.read message (holds_begin _ s.tasks s.mainLoop s.reads)
    exact fun heq => nomatch heq
  | answerWith hat => exact h.congr (holds_setMain (by rw [hat]; rfl) _)
  | take hat _ => exact h.congr (holds_setMain (by rw [hat]; rfl) _)
  | @returned n _ _ _ hat _ =>
    have hnumber : s.mainLoop.number? = some n := by rw [hat]; rfl
    obtain ⟨-, habsent, hanswer⟩ := hn.turn n hnumber
    apply h.leave (holds_leave hnumber rfl habsent)
    -- what the loop returns is no emission
    intro message hread hemission
    exact nomatch hat.symm.trans (hanswer message hread hemission)
  | unreturned hat => exact h.congr (holds_setMain (by rw [hat]; rfl) _)
  | @answer n envelope _ hat _ =>
    have hnumber : s.mainLoop.number? = some n := by rw [hat]; rfl
    obtain ⟨hlt, habsent, hanswer⟩ := hn.turn n hnumber
    apply h.answer (.inr hnumber) hlt (holds_leave hnumber rfl habsent)
    intro message hread hemission
    have hloop := hat.symm.trans (hanswer message hread hemission)
    exact .inl (MainLoop.answering.inj hloop).2
  | forwardAction hat _ =>
    have hnone : MainLoop.listening.number? = s.mainLoop.number? := by rw [hat]; rfl
    have hlistening := h.congr (holds_setMain hnone s.tasks)
    exact hlistening.record (fun _ _ heq => nomatch heq) fun _ _ heq => nomatch heq
  | forwardStatus hat _ =>
    have hnone : MainLoop.listening.number? = s.mainLoop.number? := by rw [hat]; rfl
    have hlistening := h.congr (holds_setMain hnone s.tasks)
    exact hlistening.record (fun _ _ heq => nomatch heq) fun _ _ heq => nomatch heq
  | @enter n requestId event hat _ =>
    have hid : (EventTask.sending requestId event).requestId? = (s.tasks n).requestId? := by rw [hat]; rfl
    exact h.congr (holds_setTask hid _)
  | duplicate hat => exact h.congr (holds_setTask (by rw [hat]; rfl) _)
  | @send n requestId _ _ hat _ =>
    have hid : (EventTask.waiting requestId).requestId? = (s.tasks n).requestId? := by rw [hat]; rfl
    exact h.congr (holds_setTask hid _)
  | @fail n requestId _ error hat _ =>
    have hid : (EventTask.responding requestId (.error error)).requestId? = (s.tasks n).requestId? :=
      (EventTask.requestId_of_guarded hat).symm
    exact h.congr (holds_setTask hid _)
  | conclude hat _ => exact h.congr (holds_setTask (by rw [hat]; rfl) _)
  | @respond n requestId result _ hat _ =>
    have hid : (s.tasks n).requestId? = some requestId := by rw [hat]; rfl
    have hheld : (s.tasks n).requestId? ≠ none := by rw [hid]; exact Option.some_ne_none _
    have hpresent : s.tasks n ≠ .absent := by rw [hat]; exact fun heq => nomatch heq
    obtain ⟨message, hread, hemission, hask⟩ := hn.asked n requestId hid
    -- the task was the last that held this number, since the loop never takes up one that has a task
    have hloop : s.mainLoop.number? ≠ some n := fun heq => hpresent (hn.turn n heq).2.1
    apply h.answer (.inl hheld) (hn.bounded n message hread) (holds_end rfl hloop s.tasks)
    intro message' hread' _
    rw [hn.same n message' message hread' hread, hask]
    cases result with
    | error error => exact .inl rfl
    | ok ack => exact .inr ⟨ack, hg.concluded n requestId ack hat, rfl⟩
  | deliver _ _ _ _ _ => exact h.record (fun _ _ heq => nomatch heq) fun _ _ heq => nomatch heq
  | ignore _ _ => exact h.record (fun _ _ heq => nomatch heq) fun _ _ heq => nomatch heq
  | accept _ _ => exact h.record (fun _ _ heq => nomatch heq) fun _ _ heq => nomatch heq
  | _ => exact h

/-! ## What the core asks -/

def MainLoop.inbound? : MainLoop → Option CoreInbound
  | .forwarding inbound => some inbound
  | _ => none

def Reader.inbound? : Reader → Option CoreInbound
  | .passing inbound => some inbound
  | _ => none

/-- What was read from the core and is on its way. -/
def underway (mainLoop : MainLoop) (inbound : List CoreInbound) (reader : Reader) : List CoreInbound :=
  mainLoop.inbound?.toList ++ inbound ++ reader.inbound?.toList

structure Orders (mainLoop : MainLoop) (inbound : List CoreInbound) (reader : Reader) (log : List HostEntry) : Prop where
  forwarded : inboundOf log = forwardedOf log ++ underway mainLoop inbound reader
  taken : ∀ requestId actionExecutionId payload taken,
    .forwarded (.action requestId actionExecutionId payload) taken ∈ log → taken = true

namespace Orders
variable {mainLoop mainLoop' : MainLoop} {inbound : List CoreInbound} {reader reader' : Reader} {log : List HostEntry}

theorem start : Orders .listening [] .reading [] := ⟨rfl, fun _ _ _ _ hmem => nomatch hmem⟩

theorem keep (h : Orders mainLoop inbound reader log) (hmain : mainLoop'.inbound? = mainLoop.inbound?)
    (hreader : reader'.inbound? = reader.inbound?) : Orders mainLoop' inbound reader' log := by
  have hsame : underway mainLoop' inbound reader' = underway mainLoop inbound reader := by
    unfold underway
    rw [hmain, hreader]
  exact { h with forwarded := hsame.symm ▸ h.forwarded }

theorem record (h : Orders mainLoop inbound reader log) {entry : HostEntry} (hinbound : inboundOf [entry] = [])
    (hforward : ∀ inbound taken, entry ≠ .forwarded inbound taken) : Orders mainLoop inbound reader (log ++ [entry]) where
  forwarded := by
    have hnone : forwardedOf [entry] = [] := by
      cases entry with
      | forwarded inbound taken => exact absurd rfl (hforward inbound taken)
      | _ => rfl
    rw [inboundOf_append, forwardedOf_append, hinbound, hnone, List.append_nil, List.append_nil]
    exact h.forwarded
  taken := by
    intro requestId actionExecutionId payload taken hmem
    rcases List.mem_append.mp hmem with hmem | hmem
    · exact h.taken requestId actionExecutionId payload taken hmem
    · exact absurd (List.mem_singleton.mp hmem).symm (hforward _ _)

theorem accept (h : Orders mainLoop inbound reader log) (hreader : reader.inbound? = none) {request : AdapterRequestEnvelope}
    {asked : CoreInbound} (hasked : request.inbound? = some asked) :
    Orders mainLoop inbound (.passing asked) (log ++ [.received request]) where
  forwarded := by
    have hone : inboundOf [.received request] = [asked] := List.filterMap_cons_some hasked
    have hnone : forwardedOf [.received request] = [] := rfl
    have hbefore := h.forwarded
    rw [underway, hreader, Option.toList_none, List.append_nil] at hbefore
    rw [inboundOf_append, forwardedOf_append, hone, hnone, List.append_nil, hbefore, List.append_assoc]
    rfl
  taken := by
    intro requestId actionExecutionId payload taken hmem
    exact h.taken requestId actionExecutionId payload taken (by simpa using hmem)

theorem pass {asked : CoreInbound} (h : Orders mainLoop inbound (.passing asked) log) :
    Orders mainLoop (inbound ++ [asked]) .reading log := by
  have hsame : underway mainLoop (inbound ++ [asked]) .reading = underway mainLoop inbound (.passing asked) := by
    simp [underway, Reader.inbound?]
  exact { h with forwarded := hsame.symm ▸ h.forwarded }

theorem take {asked : CoreInbound} (h : Orders mainLoop (asked :: inbound) reader log) (hmain : mainLoop.inbound? = none) :
    Orders (.forwarding asked) inbound reader log := by
  have hsame : underway (.forwarding asked) inbound reader = underway mainLoop (asked :: inbound) reader := by
    rw [underway, underway, hmain]
    rfl
  exact { h with forwarded := hsame.symm ▸ h.forwarded }

theorem forward {asked : CoreInbound} (h : Orders (.forwarding asked) inbound reader log) {sent : Bool}
    (hsent : ∀ requestId actionExecutionId payload, asked = .action requestId actionExecutionId payload → sent = true) :
    Orders .listening inbound reader (log ++ [.forwarded asked sent]) where
  forwarded := by
    have hnone : inboundOf [.forwarded asked sent] = [] := rfl
    have hone : forwardedOf [.forwarded asked sent] = [asked] := rfl
    rw [inboundOf_append, forwardedOf_append, hnone, hone, List.append_nil, h.forwarded, List.append_assoc]
    rfl
  taken := by
    intro requestId actionExecutionId payload taken hmem
    rcases List.mem_append.mp hmem with hmem | hmem
    · exact h.taken requestId actionExecutionId payload taken hmem
    · obtain ⟨rfl, rfl⟩ := HostEntry.forwarded.inj (List.mem_singleton.mp hmem)
      exact hsent requestId actionExecutionId payload rfl

end Orders

abbrev Host.IsOrdered (s : Host) : Prop := Orders s.mainLoop s.inbound s.reader s.log

theorem Moves.isOrdered {D : Decoders} {s s' : Host} {e : HostEvent} (hr : s.IsRunning) (h : s.IsOrdered) (hm : Moves D s e s') :
    s'.IsOrdered := by
  cases hm with
  | @turn message mainLoop hat _ hturns =>
    have hread : Orders s.mainLoop s.inbound s.reader (s.log ++ [.read s.reads message]) :=
      h.record rfl fun _ _ heq => by cases heq
    have hmain : mainLoop.inbound? = s.mainLoop.inbound? := by
      rw [hat]
      cases hturns <;> rfl
    exact hread.keep hmain rfl
  | spawn _ _ _ => exact h.record rfl fun _ _ heq => by cases heq
  | answerWith hat => exact h.keep (by rw [hat]; rfl) rfl
  | take hat hqueue =>
    have hqueued : Orders s.mainLoop s.inbound s.reader s.log := h
    rw [hqueue] at hqueued
    exact hqueued.take (by rw [hat]; rfl)
  | returned hat _ => exact h.keep (by rw [hat]; rfl) rfl
  | unreturned hat => exact h.keep (by rw [hat]; rfl) rfl
  | answer hat _ =>
    have hlistening : Orders .listening s.inbound s.reader s.log := h.keep (by rw [hat]; rfl) rfl
    exact hlistening.record rfl fun _ _ heq => by cases heq
  | @forwardAction _ _ _ _ sent hat hsend =>
    have hasked : Orders s.mainLoop s.inbound s.reader s.log := h
    rw [hat] at hasked
    apply hasked.forward
    intro _ _ _ _
    cases sent with
    | true => rfl
    -- the writer of a running host takes what it is given
    | false => cases hr.speaking.symm.trans (Writer.send_false hsend)
  | forwardStatus hat _ =>
    have hasked : Orders s.mainLoop s.inbound s.reader s.log := h
    rw [hat] at hasked
    exact hasked.forward fun _ _ _ heq => by cases heq
  | respond _ _ => exact h.record rfl fun _ _ heq => by cases heq
  | disconnect hat => exact h.keep rfl (by rw [hat]; rfl)
  | @deliver request _ _ _ _ hbody _ _ _ =>
    have hnone : inboundOf [.received request] = [] := by simp [inboundOf, AdapterRequestEnvelope.inbound?, hbody]
    exact h.record hnone fun _ _ heq => by cases heq
  | @ignore request _ _ hbody =>
    have hnone : inboundOf [.received request] = [] := by simp [inboundOf, AdapterRequestEnvelope.inbound?, hbody]
    exact h.record hnone fun _ _ heq => by cases heq
  | accept hat hinbound => exact h.accept (by rw [hat]; rfl) hinbound
  | pass hat =>
    have hpassing : Orders s.mainLoop s.inbound s.reader s.log := h
    rw [hat] at hpassing
    exact hpassing.pass
  | _ => exact h

end Fubun.NativeHost

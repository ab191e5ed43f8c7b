import Fubun.Vscode.Handshake

/-! The numbers of events: they are taken when a call is made and written in the same order, and a call
succeeds once its frame is acknowledged. -/

namespace Fubun.Vscode
open Encoding Extensions Relational Concurrency.Machine

/-! ## What is emitted and written -/

def emissionOf : Option SessionCall → Option Emission
  | some (.emit emission) => some emission
  | _ => none

def SessionTask.emission? : SessionTask → Option Emission
  | .queued emission | .waiting emission _ => some emission
  | .joining call _ | .leading call _ | .connected call _ | .unavailable call _ | .ended call => emissionOf call
  | .absent => none

def SessionTask.unwritten? : SessionTask → Option Nat
  | .queued emission => some emission.sequenceNo
  | .joining call _ | .leading call _ | .connected call _ | .unavailable call _ => (emissionOf call).map (·.sequenceNo)
  | .absent | .waiting .. | .ended _ => none

def SessionTask.isInTurn : SessionTask → Bool
  | .joining call _ | .leading call _ | .connected call _ | .unavailable call _ => (emissionOf call).isSome
  | .waiting .. => true
  | .absent | .queued _ | .ended _ => false

def SessionEntry.sequenceNo? : SessionEntry → Option Nat
  | .wrote _ (.event _ emission) => some emission.sequenceNo
  | _ => none

def sequenceNumbers (log : List SessionEntry) : List Nat := log.filterMap SessionEntry.sequenceNo?

/-- The numbers on the event chain that may still be written. -/
def upcoming (chain : List Nat) (tasks : Nat → SessionTask) : List Nat := chain.filterMap fun n => (tasks n).unwritten?

/-- The frame of an emission was written, and later acknowledged. -/
def Answered (log : List SessionEntry) (emission : Emission) : Prop :=
  ∃ before after transport requestId transport' frame ack, log = before ++ after ∧
    .wrote transport (.event requestId emission) ∈ before ∧ .received transport' frame ∈ after ∧
      parseAdapterEventAck frame = .ok ack ∧ ack.requestId = requestId

theorem Answered.mono {log : List SessionEntry} {emission : Emission} (h : Answered log emission)
    (more : List SessionEntry) : Answered (log ++ more) emission := by
  obtain ⟨before, after, transport, requestId, transport', frame, ack, rfl, hwrote, hreceived, hack⟩ := h
  exact ⟨before, after ++ more, transport, requestId, transport', frame, ack, List.append_assoc .., hwrote,
    List.mem_append_left _ hreceived, hack⟩

theorem sequenceNumbers_append (log more : List SessionEntry) :
    sequenceNumbers (log ++ more) = sequenceNumbers log ++ sequenceNumbers more := List.filterMap_append

theorem upcoming_update {chain : List Nat} {tasks : Nat → SessionTask} {n : Nat} (task : SessionTask)
    (h : n ∈ chain → task.unwritten? = (tasks n).unwritten?) : upcoming chain (Function.update tasks n task) = upcoming chain tasks := by
  apply List.filterMap_congr
  intro m hm
  by_cases hmn : m = n
  · subst hmn
    rw [Function.update_self]
    exact h hm
  · rw [Function.update_of_ne hmn]

/-- An entry that writes no event and is not the result of a call or an acknowledgement. -/
def SessionEntry.isAside : SessionEntry → Bool
  | .wrote _ (.event ..) | .settled (.call _) _ | .settled (.ack _) (.ok ()) => false
  | _ => true

theorem sequenceNumbers_aside {more : List SessionEntry} (h : ∀ entry ∈ more, entry.sequenceNo? = none) :
    sequenceNumbers more = [] := List.filterMap_eq_nil_iff.mpr h

/-! ## Turns -/

/-- Each call of the chain has its number, and the first one may use it. -/
structure TakesTurns (chain : List Nat) (calls : Nat) (tasks : Nat → SessionTask) (nextSequence : Nat)
    (log : List SessionEntry) : Prop where
  issued : Issued (sequenceNumbers log) (upcoming chain tasks) nextSequence
  nodup : chain.Nodup
  made : ∀ n ∈ chain, n < calls
  turn : ∀ n, (tasks n).isInTurn = true → chain.head? = some n

namespace TakesTurns
variable {chain : List Nat} {calls n nextSequence : Nat} {tasks : Nat → SessionTask} {task : SessionTask}
  {log : List SessionEntry}

theorem aside (h : TakesTurns chain calls tasks nextSequence log) {more : List SessionEntry}
    (hmore : ∀ entry ∈ more, entry.sequenceNo? = none) : TakesTurns chain calls tasks nextSequence (log ++ more) := by
  refine { h with issued := ?_ }
  rw [sequenceNumbers_append, sequenceNumbers_aside hmore, List.append_nil]
  exact h.issued

theorem count (h : TakesTurns chain calls tasks nextSequence log) : TakesTurns chain (calls + 1) tasks nextSequence log :=
  { h with made := fun n hn => Nat.lt_succ_of_lt (h.made n hn) }

theorem setTask (h : TakesTurns chain calls tasks nextSequence log)
    (hsame : n ∈ chain → task.unwritten? = (tasks n).unwritten?)
    (hturn : task.isInTurn = true → chain.head? = some n) :
    TakesTurns chain calls (Function.update tasks n task) nextSequence log := by
  refine { h with issued := ?_, turn := ?_ }
  · rw [upcoming_update _ hsame]
    exact h.issued
  · intro m hm
    by_cases hmn : m = n
    · subst hmn
      rw [Function.update_self] at hm
      exact hturn hm
    · rw [Function.update_of_ne hmn] at hm
      exact h.turn m hm

theorem queue (h : TakesTurns chain calls tasks nextSequence log) (hnew : tasks calls = .absent) (emission : Emission)
    (hnumber : emission.sequenceNo = nextSequence) :
    TakesTurns (chain ++ [calls]) (calls + 1) (Function.update tasks calls (.queued emission)) (nextSequence + 1) log where
  issued := by
    have hunmade : calls ∉ chain := fun hmem => Nat.lt_irrefl calls (h.made calls hmem)
    -- the new call takes the next number and is the last of the chain
    have hwaiting : upcoming (chain ++ [calls]) (Function.update tasks calls (.queued emission)) =
        upcoming chain tasks ++ [nextSequence] := by
      have hlast : upcoming [calls] (Function.update tasks calls (.queued emission)) = [nextSequence] := by
        simp [upcoming, SessionTask.unwritten?, hnumber]
      rw [← hlast, ← upcoming_update (.queued emission) fun hmem => absurd hmem hunmade]
      exact List.filterMap_append
    rw [hwaiting]
    exact h.issued.take
  nodup := by
    apply List.Nodup.append h.nodup (List.nodup_singleton _)
    intro m hm hlast
    rw [List.mem_singleton.mp hlast] at hm
    exact Nat.lt_irrefl calls (h.made calls hm)
  made := by
    intro m hm
    rcases List.mem_append.mp hm with hm | hm
    · exact Nat.lt_succ_of_lt (h.made m hm)
    · rw [List.mem_singleton.mp hm]
      exact Nat.lt_succ_self calls
  turn := by
    intro m hm
    by_cases hmc : m = calls
    · subst hmc
      rw [Function.update_self] at hm
      exact nomatch hm
    · rw [Function.update_of_ne hmc] at hm
      rw [List.head?_append, h.turn m hm]
      rfl

/-- The chain as the call whose turn it is sees it. -/
theorem cons (h : TakesTurns chain calls tasks nextSequence log) (hturn : (tasks n).isInTurn = true) :
    ∃ rest, chain = n :: rest ∧ n ∉ rest := by
  obtain ⟨rest, rfl⟩ := List.head?_eq_some_iff.mp (h.turn n hturn)
  exact ⟨rest, rfl, (List.nodup_cons.mp h.nodup).1⟩

theorem write (h : TakesTurns chain calls tasks nextSequence log) {emission : Emission} {transport : Nat}
    (hat : tasks n = .connected (some (.emit emission)) transport) (requestId : String) :
    TakesTurns chain calls (Function.update tasks n (.waiting emission requestId)) nextSequence
      (log ++ [.wrote transport (.event requestId emission)]) := by
  have hturn : (tasks n).isInTurn = true := by
    rw [hat]
    rfl
  obtain ⟨rest, rfl, hnot⟩ := h.cons hturn
  have hbefore : upcoming (n :: rest) tasks = emission.sequenceNo :: upcoming rest tasks := by
    rw [upcoming, List.filterMap_cons, hat]
    rfl
  have hafter : upcoming (n :: rest) (Function.update tasks n (.waiting emission requestId)) = upcoming rest tasks := by
    rw [upcoming, List.filterMap_cons, Function.update_self]
    exact upcoming_update _ fun hmem => absurd hmem hnot
  have hissued := h.issued
  rw [hbefore] at hissued
  refine ⟨?_, h.nodup, h.made, ?_⟩
  · rw [sequenceNumbers_append, hafter]
    exact hissued.use
  · intro m hm
    by_cases hmn : m = n
    · rw [hmn]
      rfl
    · rw [Function.update_of_ne hmn] at hm
      exact h.turn m hm

theorem forgo (h : TakesTurns chain calls tasks nextSequence log) (hturn : (tasks n).isInTurn = true)
    (htask : task.unwritten? = none) :
    TakesTurns chain calls (Function.update tasks n task) nextSequence log := by
  obtain ⟨rest, rfl, hnot⟩ := h.cons hturn
  have hafter : upcoming (n :: rest) (Function.update tasks n task) = upcoming rest tasks := by
    rw [upcoming, List.filterMap_cons, Function.update_self, htask]
    exact upcoming_update _ fun hmem => absurd hmem hnot
  refine { h with issued := ?_, turn := ?_ }
  · rw [hafter]
    exact h.issued.discard ((List.sublist_cons_self n rest).filterMap _)
  · intro m hm
    by_cases hmn : m = n
    · rw [hmn]
      rfl
    · rw [Function.update_of_ne hmn] at hm
      exact h.turn m hm

theorem leave (h : TakesTurns chain calls tasks nextSequence log) (hturn : (tasks n).isInTurn = true)
    (htask : task.unwritten? = none) (hout : task.isInTurn = false) :
    TakesTurns chain.tail calls (Function.update tasks n task) nextSequence log := by
  have hforgone := h.forgo hturn htask
  obtain ⟨rest, rfl, hnot⟩ := h.cons hturn
  refine ⟨hforgone.issued.discard ((List.sublist_cons_self n rest).filterMap _), (List.nodup_cons.mp h.nodup).2,
    fun m hm => h.made m (List.mem_cons_of_mem _ hm), ?_⟩
  intro m hm
  by_cases hmn : m = n
  · subst hmn
    rw [Function.update_self, hout] at hm
    exact nomatch hm
  · rw [Function.update_of_ne hmn] at hm
    obtain rfl := Option.some.inj (h.turn m hm)
    exact absurd rfl hmn

end TakesTurns

/-! ## Answers -/

def emissionsOf (tasks : Nat → SessionTask) (n : Nat) : Option Emission := (tasks n).emission?

theorem emissionsOf_update {tasks : Nat → SessionTask} {n : Nat} {task : SessionTask}
    (h : task.emission? = (tasks n).emission?) : emissionsOf (Function.update tasks n task) = emissionsOf tasks := by
  funext m
  by_cases hmn : m = n
  · subst hmn
    rw [emissionsOf, Function.update_self, h]
    rfl
  · rw [emissionsOf, Function.update_of_ne hmn]
    rfl

theorem emissionsOf_queue (tasks : Nat → SessionTask) (n : Nat) (emission : Emission) :
    emissionsOf (Function.update tasks n (.queued emission)) = Function.update (emissionsOf tasks) n (some emission) := by
  funext m
  by_cases hmn : m = n
  · subst hmn
    rw [emissionsOf, Function.update_self, Function.update_self]
    rfl
  · rw [emissionsOf, Function.update_of_ne hmn, Function.update_of_ne hmn]
    rfl

def AfterAnswer (emissions : Nat → Option Emission) (before : List SessionEntry) (entry : SessionEntry) : Prop :=
  ∀ n emission, entry = .settled (.call n) (.ok ()) → emissions n = some emission → Answered before emission

/-- What is known about the frame of each emission. -/
structure Answers (pending : List PendingEvent) (calls nextSequence : Nat) (emissions : Nat → Option Emission)
    (log : List SessionEntry) : Prop where
  asked : ∀ p ∈ pending, ∃ emission transport, emissions p.n = some emission ∧
    .wrote transport (.event p.requestId emission) ∈ log
  acked : ∀ n, .settled (.ack n) (.ok ()) ∈ log → ∃ emission, emissions n = some emission ∧ Answered log emission
  called : ∀ n result, .settled (.call n) result ∈ log → n < calls
  owned : ∀ transport requestId emission, .wrote transport (.event requestId emission) ∈ log →
    ∃ n, emissions n = some emission
  distinct : ∀ n m e f, emissions n = some e → emissions m = some f → e.sequenceNo = f.sequenceNo → n = m
  below : ∀ n emission, emissions n = some emission → n < calls ∧ emission.sequenceNo < nextSequence
  concluded : Follows (AfterAnswer emissions) log

namespace Answers
variable {pending pending' : List PendingEvent} {calls nextSequence n : Nat} {emissions : Nat → Option Emission}
  {log : List SessionEntry} {emission : Emission}

theorem snoc (h : Answers pending calls nextSequence emissions log) {entry : SessionEntry}
    (hack : ∀ n, entry = .settled (.ack n) (.ok ()) → ∃ emission, emissions n = some emission ∧ Answered log emission)
    (hcall : ∀ n result, entry = .settled (.call n) result →
      n < calls ∧ (result = .ok () → ∀ emission, emissions n = some emission → Answered log emission))
    (hown : ∀ transport requestId emission, entry = .wrote transport (.event requestId emission) →
      ∃ n, emissions n = some emission) : Answers pending calls nextSequence emissions (log ++ [entry]) where
  asked := by
    intro p hp
    obtain ⟨emission, transport, hemission, hwrote⟩ := h.asked p hp
    exact ⟨emission, transport, hemission, List.mem_append_left _ hwrote⟩
  acked := by
    intro n hmem
    rcases List.mem_append.mp hmem with hmem | hmem
    · obtain ⟨emission, hemission, hanswered⟩ := h.acked n hmem
      exact ⟨emission, hemission, hanswered.mono _⟩
    · obtain ⟨emission, hemission, hanswered⟩ := hack n (List.mem_singleton.mp hmem).symm
      exact ⟨emission, hemission, hanswered.mono _⟩
  called := by
    intro n result hmem
    rcases List.mem_append.mp hmem with hmem | hmem
    · exact h.called n result hmem
    · exact (hcall n result (List.mem_singleton.mp hmem).symm).1
  owned := by
    intro transport requestId emission hmem
    rcases List.mem_append.mp hmem with hmem | hmem
    · exact h.owned transport requestId emission hmem
    · exact hown transport requestId emission (List.mem_singleton.mp hmem).symm
  distinct := h.distinct
  below := h.below
  concluded := h.concluded.snoc fun n emission heq hemission => (hcall n _ heq).2 rfl emission hemission

theorem aside (h : Answers pending calls nextSequence emissions log) {more : List SessionEntry}
    (hmore : ∀ entry ∈ more, entry.isAside = true) : Answers pending calls nextSequence emissions (log ++ more) := by
  induction more generalizing log with
  | nil => rwa [List.append_nil]
  | cons entry more ih =>
    obtain ⟨hentry, hmore⟩ := List.forall_mem_cons.mp hmore
    have hone : Answers pending calls nextSequence emissions (log ++ [entry]) := by
      apply h.snoc
      · rintro n rfl
        exact nomatch hentry
      · rintro n result rfl
        exact nomatch hentry
      · rintro transport requestId emission rfl
        exact nomatch hentry
    rw [← List.singleton_append, ← List.append_assoc]
    exact ih hone hmore

theorem shrink (h : Answers pending calls nextSequence emissions log) (hsub : ∀ p ∈ pending', p ∈ pending) :
    Answers pending' calls nextSequence emissions log :=
  { h with asked := fun p hp => h.asked p (hsub p hp) }

theorem count (h : Answers pending calls nextSequence emissions log) : Answers pending (calls + 1) nextSequence emissions log :=
  { h with
    called := fun n result hmem => Nat.lt_succ_of_lt (h.called n result hmem)
    below := fun n emission hn => ⟨Nat.lt_succ_of_lt (h.below n emission hn).1, (h.below n emission hn).2⟩ }

theorem skip (h : Answers pending calls nextSequence emissions log) : Answers pending calls (nextSequence + 1) emissions log :=
  { h with below := fun n emission hn => ⟨(h.below n emission hn).1, Nat.lt_succ_of_lt (h.below n emission hn).2⟩ }

theorem queue (h : Answers pending calls nextSequence emissions log) (emission : Emission) (hnumber : emission.sequenceNo = nextSequence) :
    Answers pending (calls + 1) (nextSequence + 1) (Function.update emissions calls (some emission)) log := by
  -- the number of the new call was not in use
  have hnone : emissions calls = none := by
    apply Option.eq_none_iff_forall_ne_some.mpr
    intro e he
    exact Nat.lt_irrefl calls (h.below calls e he).1
  have hkeeps : ∀ n e, emissions n = some e → Function.update emissions calls (some emission) n = some e := by
    intro n e hn
    rw [Function.update_of_ne]
    · exact hn
    · rintro rfl
      exact nomatch hnone.symm.trans hn
  have hcases : ∀ n e, Function.update emissions calls (some emission) n = some e →
      (n = calls ∧ e = emission) ∨ emissions n = some e := by
    intro n e hn
    by_cases hnc : n = calls
    · subst hnc
      rw [Function.update_self] at hn
      exact .inl ⟨rfl, (Option.some.inj hn).symm⟩
    · rw [Function.update_of_ne hnc] at hn
      exact .inr hn
  refine ⟨?_, ?_, fun n result hmem => Nat.lt_succ_of_lt (h.called n result hmem), ?_, ?_, ?_, ?_⟩
  · intro p hp
    obtain ⟨e, transport, he, hwrote⟩ := h.asked p hp
    exact ⟨e, transport, hkeeps _ _ he, hwrote⟩
  · intro n hmem
    obtain ⟨e, he, hanswered⟩ := h.acked n hmem
    exact ⟨e, hkeeps _ _ he, hanswered⟩
  · intro transport requestId e hmem
    obtain ⟨n, hn⟩ := h.owned transport requestId e hmem
    exact ⟨n, hkeeps _ _ hn⟩
  · intro n m e f hn hm heq
    -- the new emission has a number that no earlier one has
    rcases hcases n e hn with ⟨hnc, he⟩ | hn <;> rcases hcases m f hm with ⟨hmc, hf⟩ | hm
    · exact hnc.trans hmc.symm
    · have hlt := (h.below m f hm).2
      exact absurd (heq.symm.trans (he ▸ hnumber)) (Nat.ne_of_lt hlt)
    · have hlt := (h.below n e hn).2
      exact absurd (heq.trans (hf ▸ hnumber)) (Nat.ne_of_lt hlt)
    · exact h.distinct n m e f hn hm heq
  · intro n e hn
    rcases hcases n e hn with ⟨rfl, rfl⟩ | hn
    · exact ⟨Nat.lt_succ_self _, hnumber ▸ Nat.lt_succ_self _⟩
    · exact ⟨Nat.lt_succ_of_lt (h.below n e hn).1, Nat.lt_succ_of_lt (h.below n e hn).2⟩
  · refine h.concluded.imp (Q := AfterAnswer _) ?_
    rintro entry hentry before hafter n e rfl hn
    rcases hcases n e hn with ⟨rfl, -⟩ | hn
    · exact absurd (h.called n _ hentry) (Nat.lt_irrefl n)
    · exact hafter n e rfl hn

theorem write (h : Answers pending calls nextSequence emissions log) (hemission : emissions n = some emission) {requestId : String}
    (transport : Nat) (hpending : ∀ p ∈ pending', p ∈ pending ∨ (p.n = n ∧ p.requestId = requestId)) :
    Answers pending' calls nextSequence emissions (log ++ [.wrote transport (.event requestId emission)]) := by
  have hone : Answers pending calls nextSequence emissions (log ++ [.wrote transport (.event requestId emission)]) := by
    refine h.snoc (fun _ heq => nomatch heq) (fun _ _ heq => nomatch heq) ?_
    rintro t r e ⟨⟩
    exact ⟨n, hemission⟩
  refine { hone with asked := ?_ }
  intro p hp
  rcases hpending p hp with hp | ⟨hpn, rfl⟩
  · exact hone.asked p hp
  · exact ⟨emission, transport, hpn ▸ hemission, List.mem_append_right _ (List.mem_singleton_self _)⟩

theorem acknowledge (h : Answers pending calls nextSequence emissions log) {p : PendingEvent} (hp : p ∈ pending) (transport : Nat)
    {frame : Json} {ack : AdapterEventAck} (hack : parseAdapterEventAck frame = .ok ack) (hid : ack.requestId = p.requestId) :
    Answers pending calls nextSequence emissions (log ++ [.received transport frame] ++ [.settled (.ack p.n) (.ok ())]) := by
  have hreceived : Answers pending calls nextSequence emissions (log ++ [.received transport frame]) :=
    h.aside (List.forall_mem_singleton.mpr rfl)
  refine hreceived.snoc ?_ (fun _ _ heq => nomatch heq) fun _ _ _ heq => nomatch heq
  rintro m ⟨⟩
  obtain ⟨e, t, he, hwrote⟩ := h.asked p hp
  exact ⟨e, he, log, [.received transport frame], t, p.requestId, transport, frame, ack, rfl, hwrote,
    List.mem_singleton_self _, hack, hid⟩

theorem conclude (h : Answers pending calls nextSequence emissions log) {result : Outcome} (hlt : n < calls)
    (hanswer : result = .ok () → ∀ e, emissions n = some e → Answered log e) :
    Answers pending calls nextSequence emissions (log ++ [.settled (.call n) result]) := by
  refine h.snoc (fun _ heq => nomatch heq) ?_ fun _ _ _ heq => nomatch heq
  rintro m r ⟨⟩
  exact ⟨hlt, hanswer⟩

end Answers

/-! ## Moves -/

namespace SessionState
variable {s s' : SessionState}

abbrev IsOrdered (s : SessionState) : Prop :=
  TakesTurns s.eventChain s.calls s.tasks s.nextSequence s.log ∧
    Answers s.pending s.calls s.nextSequence (emissionsOf s.tasks) s.log

theorem IsOrdered.aside (h : s.IsOrdered) {more : List SessionEntry} (hmore : ∀ entry ∈ more, entry.isAside = true) :
    TakesTurns s.eventChain s.calls s.tasks s.nextSequence (s.log ++ more) ∧
      Answers s.pending s.calls s.nextSequence (emissionsOf s.tasks) (s.log ++ more) := by
  refine ⟨h.1.aside ?_, h.2.aside hmore⟩
  intro entry hentry
  have haside := hmore entry hentry
  cases entry with
  | wrote transport frame =>
    cases frame with
    | hello _ _ => rfl
    | event _ _ => exact nomatch haside
  | _ => rfl

theorem IsOrdered.record (h : s.IsOrdered) {entry : SessionEntry} (hentry : entry.isAside = true) :
    (s.record entry).IsOrdered := h.aside (List.forall_mem_singleton.mpr hentry)

theorem IsOrdered.closeCurrent (h : s.IsOrdered) (error : String) : (s.closeCurrent error).IsOrdered := by
  have hreleased : ∀ entry ∈ s.released error ++ s.transport.toList.map SessionEntry.ended, entry.isAside = true := by
    intro entry hentry
    rcases List.mem_append.mp hentry with hentry | hentry
    · rcases List.mem_append.mp hentry with hentry | hentry
      · obtain ⟨hello, -, rfl⟩ := List.mem_map.mp hentry
        rfl
      · obtain ⟨p, -, rfl⟩ := List.mem_map.mp hentry
        rfl
    · obtain ⟨transport, -, rfl⟩ := List.mem_map.mp hentry
      rfl
  have hgrown := h.aside hreleased
  rw [← List.append_assoc] at hgrown
  exact ⟨hgrown.1, hgrown.2.shrink fun _ hp => nomatch hp⟩

theorem IsOrdered.setTask (h : s.IsOrdered) {n : Nat} {task : SessionTask} (hemission : task.emission? = (s.tasks n).emission?)
    (hsame : n ∈ s.eventChain → task.unwritten? = (s.tasks n).unwritten?)
    (hturn : task.isInTurn = true → s.eventChain.head? = some n) : (s.setTask n task).IsOrdered := by
  have hanswers := h.2
  rw [← emissionsOf_update hemission] at hanswers
  exact ⟨h.1.setTask hsame hturn, hanswers⟩

theorem IsOrdered.settle (h : s.IsOrdered) {n : Nat} (result : Outcome) (hlt : n < s.calls)
    (hanswer : result = .ok () → ∀ e, emissionsOf s.tasks n = some e → Answered s.log e) :
    (s.settle (.call n) result).IsOrdered :=
  ⟨h.1.aside (List.forall_mem_singleton.mpr rfl), h.2.conclude hlt hanswer⟩

/-- A call that goes on keeps its number and its turn. -/
theorem Goes.task {n : Nat} {call : Option SessionCall} (h : s.Goes n call) :
    (s.tasks n).emission? = emissionOf call ∧ (s.tasks n).unwritten? = (emissionOf call).map (·.sequenceNo) ∧
      ((emissionOf call).isSome = true → (s.tasks n).isInTurn = true ∨ s.eventChain.head? = some n) := by
  cases h with
  | new hat _ hcall =>
    rcases call with _ | _ | emission
    case some.emit => exact absurd rfl (hcall emission)
    all_goals
      rw [hat]
      exact ⟨rfl, rfl, fun hsome => nomatch hsome⟩
  | turn hat hhead =>
    rw [hat]
    exact ⟨rfl, rfl, fun _ => .inr hhead⟩
  | joined hat =>
    rw [hat]
    exact ⟨rfl, rfl, fun hsome => .inl hsome⟩
  | led hat =>
    rw [hat]
    exact ⟨rfl, rfl, fun hsome => .inl hsome⟩

theorem told_task {call : Option SessionCall} {task : SessionTask} (h : task.IsTold s call) :
    task.emission? = emissionOf call ∧ task.unwritten? = (emissionOf call).map (·.sequenceNo) ∧
      task.isInTurn = (emissionOf call).isSome := by
  cases h <;> exact ⟨rfl, rfl, rfl⟩

/-! ### What emits -/

theorem IsOrdered.emit (hs : s.IsOrdered) (hnew : s.IsNew) {occurredAt resourceId : String} {now : Int}
    (hdate : toISOString now = some occurredAt) : (s.emitWorkspaceOpened resourceId now).IsOrdered := by
  have habsent := hnew s.calls le_rfl
  have hqueued := hs.1.queue habsent ⟨resourceId, s.nextSequence, occurredAt⟩ rfl
  have hanswers := hs.2.queue ⟨resourceId, s.nextSequence, occurredAt⟩ rfl
  rw [← emissionsOf_queue] at hanswers
  unfold SessionState.emitWorkspaceOpened
  rw [hdate]
  exact ⟨hqueued, hanswers⟩

theorem IsOrdered.misdate (hs : s.IsOrdered) (hnew : s.IsNew) {resourceId : String} {now : Int} (hdate : toISOString now = none) :
    (s.emitWorkspaceOpened resourceId now).IsOrdered := by
  have hskipped : s.takeNumber.IsOrdered := ⟨{ hs.1.count with issued := hs.1.issued.skip }, hs.2.count.skip⟩
  have hended := hskipped.settle (n := s.calls) (.error "Invalid time value") (Nat.lt_succ_self _)
    fun hok => nomatch hok
  have hnone : s.takeNumber.tasks s.calls = .absent := hnew s.calls le_rfl
  unfold SessionState.emitWorkspaceOpened
  rw [hdate]
  apply hended.setTask
  · show _ = (s.takeNumber.tasks s.calls).emission?
    rw [hnone]
    rfl
  · intro hmem
    exact absurd (hs.1.made s.calls hmem) (Nat.lt_irrefl _)
  · exact fun hin => nomatch hin

/-! ### What calls do -/

theorem IsOrdered.go (hs : s.IsOrdered) {n : Nat} {call : Option SessionCall} {task : SessionTask} (hgoes : s.Goes n call)
    (htold : task.IsTold s call) : (s.setTask n task).IsOrdered := by
  obtain ⟨hemission, hunwritten, hturn⟩ := hgoes.task
  obtain ⟨hemission', hunwritten', hturn'⟩ := told_task htold
  apply hs.setTask (hemission'.trans hemission.symm) fun _ => hunwritten'.trans hunwritten.symm
  intro hin
  rw [hturn'] at hin
  rcases hturn hin with hin | hhead
  · exact hs.1.turn n hin
  · exact hhead

theorem IsOrdered.write (hs : s.IsOrdered) {n transport : Nat} {emission : Emission}
    (hat : s.tasks n = .connected (some (.emit emission)) transport) (requestId : String) (timeout : Nat) :
    (((s.setPending ⟨requestId, n, timeout⟩).record (.wrote transport (.event requestId emission))).setTask n
      (.waiting emission requestId)).IsOrdered := by
  have hemission : emissionsOf s.tasks n = some emission := by
    rw [emissionsOf, hat]
    rfl
  have hpending : ∀ p ∈ (s.setPending ⟨requestId, n, timeout⟩).pending, p ∈ s.pending ∨ (p.n = n ∧ p.requestId = requestId) := by
    intro p hp
    rcases mem_upsertRow_const hp with hp | rfl
    · exact .inl hp
    · exact .inr ⟨rfl, rfl⟩
  have hanswers := hs.2.write hemission transport hpending
  have hkeeps : (SessionTask.waiting emission requestId).emission? = (s.tasks n).emission? := by
    rw [hat]
    rfl
  rw [← emissionsOf_update hkeeps] at hanswers
  exact ⟨hs.1.write hat requestId, hanswers⟩

theorem IsOrdered.forgo (hs : s.IsOrdered) {n transport : Nat} {emission : Emission}
    (hat : s.tasks n = .connected (some (.emit emission)) transport) (requestId error : String) (timeout : Nat) :
    (((s.setPending ⟨requestId, n, timeout⟩).finish ⟨requestId, n, timeout⟩ (.error error)).setTask n
      (.waiting emission requestId)).IsOrdered := by
  have hrejected : (s.record (.settled (.ack n) (.error error))).IsOrdered := hs.record rfl
  have hturn : (s.tasks n).isInTurn = true := by
    rw [hat]
    rfl
  have hkeeps : (SessionTask.waiting emission requestId).emission? = (s.tasks n).emission? := by
    rw [hat]
    rfl
  have hanswers : Answers s.pending s.calls s.nextSequence (emissionsOf s.tasks) (s.log ++ [.settled (.ack n) (.error error)]) :=
    hrejected.2
  rw [← emissionsOf_update hkeeps] at hanswers
  refine ⟨hrejected.1.forgo hturn rfl, hanswers.shrink ?_⟩
  intro p hp
  obtain ⟨hp, hother⟩ := mem_deleteRows.mp hp
  rcases mem_upsertRow_const hp with hp | rfl
  · exact hp
  · exact nomatch (beq_self_eq_true _).symm.trans hother

theorem IsOrdered.acknowledge (hs : s.IsOrdered) {frame : Json} {ack : AdapterEventAck} {pending : PendingEvent} (transport : Nat)
    (hack : parseAdapterEventAck frame = .ok ack) (hfind : s.findPending ack.requestId = some pending) :
    ((s.record (.received transport frame)).finish pending (.ok ())).IsOrdered := by
  have hmem : pending ∈ s.pending := List.mem_of_find?_eq_some hfind
  have hid : pending.requestId = ack.requestId := by simpa using List.find?_some hfind
  have hanswers := hs.2.acknowledge hmem transport hack hid.symm
  have hturns := (hs.1.aside (List.forall_mem_singleton.mpr (show (SessionEntry.received transport frame).sequenceNo? = none
    from rfl))).aside (List.forall_mem_singleton.mpr (show (SessionEntry.settled (.ack pending.n) (.ok ())).sequenceNo? = none
    from rfl))
  exact ⟨hturns, hanswers.shrink fun p hp => (mem_deleteRows.mp hp).1⟩

/-! ### How calls end -/

section Concludes
variable {n : Nat} {call : Option SessionCall} {result : Outcome}

theorem Concludes.lt (h : s.Concludes n call result) (hnew : s.IsNew) : n < s.calls := by
  apply Nat.lt_of_not_le
  intro hle
  have habsent := hnew n hle
  cases h with
  | started hat _ => exact nomatch hat.symm.trans habsent
  | unavailable hat => exact nomatch hat.symm.trans habsent
  | answered hat _ => exact nomatch hat.symm.trans habsent

theorem Concludes.emission (h : s.Concludes n call result) : (s.tasks n).emission? = emissionOf call := by
  cases h with
  | started hat _ => rw [hat]; rfl
  | unavailable hat => rw [hat]; rfl
  | answered hat _ => rw [hat]; rfl

theorem Concludes.answer (h : s.Concludes n call (.ok ())) (hs : s.IsOrdered) {e : Emission} (he : emissionsOf s.tasks n = some e) :
    Answered s.log e := by
  cases h with
  | @started call transport hat hcall =>
    rw [emissionsOf, hat] at he
    rcases call with _ | _ | emission
    case some.emit => exact absurd rfl (hcall emission)
    all_goals exact nomatch he
  | answered hat hsettled =>
    obtain ⟨e', he', hanswered⟩ := hs.2.acked n (settlement?_mem hsettled)
    obtain rfl := Option.some.inj (he.symm.trans he')
    exact hanswered

theorem Concludes.inTurn {emission : Emission} (h : s.Concludes n (some (.emit emission)) result) : (s.tasks n).isInTurn = true := by
  cases h with
  | started hat hcall => exact absurd rfl (hcall emission)
  | unavailable hat => rw [hat]; rfl
  | answered hat _ => rw [hat]; rfl

theorem Concludes.unwritten (h : s.Concludes n call result) (hcall : emissionOf call = none) : (s.tasks n).unwritten? = none := by
  cases h with
  | started hat _ =>
    rw [hat, SessionTask.unwritten?, hcall]
    rfl
  | unavailable hat =>
    rw [hat, SessionTask.unwritten?, hcall]
    rfl
  | answered hat _ => exact nomatch hcall

theorem IsOrdered.conclude (hs : s.IsOrdered) (hnew : s.IsNew) (h : s.Concludes n call result) :
    (s.conclude n call result).IsOrdered := by
  have hsettled : (s.settle (.call n) result).IsOrdered :=
    hs.settle result (h.lt hnew) fun hok _ he => Concludes.answer (hok ▸ h) hs he
  have hkeeps : (SessionTask.ended call).emission? = (s.tasks n).emission? := h.emission.symm
  unfold SessionState.conclude
  split
  · have hanswers : Answers s.pending s.calls s.nextSequence (emissionsOf s.tasks) (s.log ++ [.settled (.call n) result]) :=
      hsettled.2
    rw [← emissionsOf_update hkeeps] at hanswers
    exact ⟨hsettled.1.leave h.inTurn rfl rfl, hanswers⟩
  all_goals
    exact hsettled.setTask hkeeps (fun _ => (h.unwritten rfl).symm) fun hin => nomatch hin

end Concludes
end SessionState

open SessionState

theorem Moves.isOrdered {o : VscodeAdapterSessionOptions} {ok : SessionState → SessionEvent → Prop} {s s' : SessionState}
    (hs : s.IsOrdered) (hnew : s.IsNew) (hm : Moves o ok s s') : s'.IsOrdered := by
  cases hm with
  | rest h => exact (untimed_congr IsOrdered (fun _ => rfl) h).mpr hs
  | call => exact ⟨hs.1.count, hs.2.count⟩
  | start _ => exact ⟨hs.1.count, hs.2.count⟩
  | stop => exact IsOrdered.closeCurrent (s := s.setDesired false) hs _
  | queue resourceId now hdate => exact hs.emit hnew hdate
  | misdate resourceId now hdate => exact hs.misdate hnew hdate
  | establish requestId _ _ _ => exact hs.record rfl
  | unmade _ _ _ _ => exact hs
  | endConnecting _ _ _ _ => exact hs
  | go hgoes htold => exact hs.go hgoes htold
  | connected _ _ _ => exact hs
  | close error => exact hs.closeCurrent error
  | failed _ _ _ => exact hs
  | greet _ _ => exact hs.record rfl
  | @answer transport hello frame htransport hhello =>
    have hreceived : (s.record (.received transport frame)).IsOrdered := hs.record rfl
    exact hreceived.record rfl
  | @acknowledge transport frame ack pending _ hack hfind => exact hs.acknowledge transport hack hfind
  | overhear frame _ => exact hs.record rfl
  | expireHello _ _ => exact hs.record rfl
  | @expire pending error _ =>
    have hrejected : (s.record (.settled (.ack pending.n) (.error error))).IsOrdered := hs.record rfl
    exact ⟨hrejected.1, hrejected.2.shrink fun p hp => (mem_deleteRows.mp hp).1⟩
  | write out _ hat timeout => exact hs.write hat out.uuid timeout
  | unwritten requestId error hat timeout => exact hs.forgo hat requestId error timeout
  | conclude h => exact hs.conclude hnew h

/-! ## Instances -/

def SessionEntry.instanceId? : SessionEntry → Option String
  | .wrote _ (.hello _ instanceId) => some instanceId
  | _ => none

/-- Hellos announce one instance. -/
def Announces (instanceId : String) (log : List SessionEntry) : Prop :=
  ∀ entry ∈ log, ∀ i, entry.instanceId? = some i → i = instanceId

theorem Announces.append {instanceId : String} {log more : List SessionEntry} (h : Announces instanceId log)
    (hmore : ∀ entry ∈ more, ∀ i, entry.instanceId? = some i → i = instanceId) : Announces instanceId (log ++ more) := by
  intro entry hentry
  rcases List.mem_append.mp hentry with hentry | hentry
  · exact h entry hentry
  · exact hmore entry hentry

theorem Announces.snoc {instanceId : String} {log : List SessionEntry} (h : Announces instanceId log) {entry : SessionEntry}
    (hentry : entry.instanceId? = none) : Announces instanceId (log ++ [entry]) := by
  apply h.append
  intro x hx i hi
  rw [List.mem_singleton.mp hx, hentry] at hi
  exact nomatch hi

theorem Announces.closeCurrent {s : SessionState} (h : Announces s.instanceId s.log) (error : String) :
    Announces s.instanceId (s.closeCurrent error).log := by
  have hreleased : ∀ entry ∈ s.released error, ∀ i, entry.instanceId? = some i → i = s.instanceId := by
    intro entry hentry i hi
    rcases List.mem_append.mp hentry with hentry | hentry
    · obtain ⟨hello, -, rfl⟩ := List.mem_map.mp hentry
      exact nomatch hi
    · obtain ⟨p, -, rfl⟩ := List.mem_map.mp hentry
      exact nomatch hi
  apply (h.append hreleased).append
  intro entry hentry i hi
  obtain ⟨transport, -, rfl⟩ := List.mem_map.mp hentry
  exact nomatch hi

theorem Moves.announces {o : VscodeAdapterSessionOptions} {ok : SessionState → SessionEvent → Prop} {s s' : SessionState}
    {instanceId : String} (hs : s.instanceId = instanceId ∧ Announces instanceId s.log) (hm : Moves o ok s s') :
    s'.instanceId = instanceId ∧ Announces instanceId s'.log := by
  obtain ⟨rfl, hs⟩ := hs
  cases hm with
  | rest h =>
    -- nothing but the timers has changed
    have hsame : s'.instanceId = s.instanceId := untimed_congr (·.instanceId) (fun _ => rfl) h
    have hlog : s'.log = s.log := untimed_congr (·.log) (fun _ => rfl) h
    exact ⟨hsame, hlog ▸ hs⟩
  | stop => exact ⟨rfl, Announces.closeCurrent (s := s.setDesired false) hs _⟩
  | close error => exact ⟨rfl, hs.closeCurrent error⟩
  | queue resourceId now hdate =>
    unfold SessionState.emitWorkspaceOpened
    rw [hdate]
    exact ⟨rfl, hs⟩
  | misdate resourceId now hdate =>
    unfold SessionState.emitWorkspaceOpened
    rw [hdate]
    exact ⟨rfl, hs.snoc rfl⟩
  | greet _ _ =>
    refine ⟨rfl, hs.append ?_⟩
    intro entry hentry i hi
    rw [List.mem_singleton.mp hentry] at hi
    exact (Option.some.inj hi).symm
  | establish _ _ _ _ => exact ⟨rfl, hs.snoc rfl⟩
  | answer _ _ _ => exact ⟨rfl, (hs.snoc rfl).snoc rfl⟩
  | acknowledge _ _ _ => exact ⟨rfl, (hs.snoc rfl).snoc rfl⟩
  | overhear _ _ => exact ⟨rfl, hs.snoc rfl⟩
  | expireHello _ _ => exact ⟨rfl, hs.snoc rfl⟩
  | expire _ _ => exact ⟨rfl, hs.snoc rfl⟩
  | write _ _ _ _ => exact ⟨rfl, hs.snoc rfl⟩
  | unwritten _ _ _ _ => exact ⟨rfl, hs.snoc rfl⟩
  | conclude _ =>
    unfold SessionState.conclude
    split <;> exact ⟨rfl, hs.snoc rfl⟩
  | _ => exact ⟨rfl, hs⟩

/-! ## Runs -/

variable {o : VscodeAdapterSessionOptions} {ok : SessionState → SessionEvent → Prop} {s : SessionState} {instanceId : String}

theorem reaches_isOrdered (h : Reaches (step o) (.init instanceId) ok s) : s.IsOrdered := by
  have hboth : s.IsOrdered ∧ s.IsNew := by
    apply Moves.invariant (I := fun s => s.IsOrdered ∧ s.IsNew) (Moves.reaches h)
    · exact ⟨⟨⟨.nil 1, List.nodup_nil, fun _ hn => (nomatch hn), fun _ hn => (nomatch hn)⟩,
        ⟨fun _ hp => (nomatch hp), fun _ hm => (nomatch hm), fun _ _ hm => (nomatch hm), fun _ _ _ hm => (nomatch hm),
          fun _ _ _ _ hn => (nomatch hn), fun _ _ hn => (nomatch hn), .nil⟩⟩, fun _ _ => rfl⟩
    · exact fun s s' hs hm => ⟨hm.isOrdered hs.1 hs.2, hm.isNew hs.2⟩
  exact hboth.1

/-- Numbers are written in order, each for one call, and a call succeeds after its acknowledgement. -/
structure IsSequential (instanceId : String) (s : SessionState) : Prop where
  increasing : (sequenceNumbers s.log).Pairwise (· < ·)
  owned : ∀ transport requestId emission, .wrote transport (.event requestId emission) ∈ s.log →
    ∃ n, (s.tasks n).emission? = some emission
  distinct : ∀ n m e f, (s.tasks n).emission? = some e → (s.tasks m).emission? = some f → e.sequenceNo = f.sequenceNo → n = m
  once : ∀ n emission, (s.tasks n).emission? = some emission → (sequenceNumbers s.log).count emission.sequenceNo ≤ 1
  announced : ∀ transport requestId i, .wrote transport (.hello requestId i) ∈ s.log → i = instanceId
  succeeded : ∀ before n after emission, s.log = before ++ .settled (.call n) (.ok ()) :: after →
    (s.tasks n).emission? = some emission → Answered before emission

theorem numbers_never_reused (h : Reaches (step o) (.init instanceId) Anyhow s) : IsSequential instanceId s := by
  obtain ⟨hturns, hanswers⟩ := reaches_isOrdered h
  have hannounces : s.instanceId = instanceId ∧ Announces instanceId s.log := by
    apply Moves.invariant (I := fun s => s.instanceId = instanceId ∧ Announces instanceId s.log) (Moves.reaches h)
    · exact ⟨rfl, fun _ hentry => nomatch hentry⟩
    · exact fun s s' hs hm => hm.announces hs
  have hincreasing : (sequenceNumbers s.log).Pairwise (· < ·) := (List.pairwise_append.mp hturns.issued.increasing).1
  refine ⟨hincreasing, hanswers.owned, hanswers.distinct, ?_, ?_, ?_⟩
  · intro n emission _
    have hnodup : (sequenceNumbers s.log).Nodup := hincreasing.imp Nat.ne_of_lt
    exact List.nodup_iff_count_le_one.mp hnodup emission.sequenceNo
  · exact fun transport requestId i hmem => hannounces.2 _ hmem i rfl
  · exact fun before n after emission hlog hemission => hanswers.concluded before _ after hlog n emission rfl hemission

end Fubun.Vscode

namespace Fubun.Sample
open Vscode Encoding

def eventAck (requestId : String) : Json :=
  .object [("protocol_version", .object [("major", .number 1), ("minor", .number 0)]), ("request_id", .string requestId),
    ("action_execution_id", .string (adapterId '0')),
    ("body", .object [("method", .string "event.ack"),
      ("params", .object [("event_id", .string (adapterId '9')), ("stored", .bool true), ("duplicate", .bool false)])])]

def ackOptions : VscodeAdapterSessionOptions where
  timeoutMs := 5000
  parse := fun bytes => [coreOk (adapterId '1') "adapter.hello_ack", eventAck (adapterId '2'),
    coreOk (adapterId '3') "adapter.hello_ack"].find? fun value => bytesOf value == bytes

/-- Two events are queued. The transport is lost after the first, and the second goes over the next one. -/
def acrossTransports : List SessionEvent :=
  greeted ++ [.proceed 0, .emitWorkspaceOpened "r" 0, .emitWorkspaceOpened "r" 1, .advance 1 ⟨"", true⟩,
    .advance 1 ⟨adapterId '2', true⟩, .data 0 (framed (eventAck (adapterId '2'))), .advance 1 ⟨"", true⟩,
    .advance 0 ⟨"", true⟩, .close 0, .advance 2 ⟨adapterId '3', true⟩, .connect 1 ⟨"", true⟩,
    .data 1 (framed (coreOk (adapterId '3') "adapter.hello_ack")), .proceed 1, .advance 2 ⟨"", true⟩,
    .advance 2 ⟨adapterId '4', true⟩]

end Fubun.Sample

namespace Fubun.Vscode
open Concurrency.Machine SessionState

theorem numbers_never_reused_across : ∃ s, Reaches (step Sample.ackOptions) (.init "i") Anyhow s ∧
    sequenceNumbers s.log = [1, 2] ∧ IsSequential "i" s := by
  have hrun : ((exec (step Sample.ackOptions) (.init "i") Sample.acrossTransports).map fun s => sequenceNumbers s.log) =
      some [1, 2] := by
    decide +kernel
  obtain ⟨s, hs, hnumbers⟩ := Option.map_eq_some_iff.mp hrun
  have hr := Reaches.init.exec hs
  exact ⟨s, hr, hnumbers, numbers_never_reused hr⟩

end Fubun.Vscode

import Fubun.Manager.Bookkeeping
import Mathlib.Data.Fintype.EquivFin

/-! Whether the timeout of a dispatch always covers it. The timeout only begins once the request is in
the queue to its adapter, and the queue is full as long as an adapter does not read. -/

namespace Fubun
open Relational Concurrency

namespace ManagerTask

def isInserting : ManagerTask → Bool
  | .inserting .. => true
  | _ => false

def sendsTo : ManagerTask → Option Uuid
  | .sending request _ => some request.connectionToken
  | _ => none

end ManagerTask

namespace ManagerState
open ManagerTask

/-- The queue of a connection takes another message, or nobody reads it any more. -/
def takes (s : ManagerState) (token : Uuid) : Bool := ! (s.channels token).isOpen || (s.channels token).hasRoom

/-- A message on the queue leaves room for the other dispatches that are about to send, if there are any. -/
def leavesRoom (s : ManagerState) (n : Nat) (token : Uuid) : Bool :=
  ! (s.channels token).isOpen || decide ((s.channels token).queue.length + 1 < channelCapacity) ||
    decide (∀ m < s.calls, m ≠ n → (s.tasks m).sendsTo ≠ some token)

/-- A dispatch comes to send only where the queue takes its message, and no message fills the queue
before a dispatch that is about to send. -/
def roomy (s : ManagerState) : ManagerEvent → Bool
  | .advance n _ =>
    match s.tasks n with
    | .inserting identity token _ _ =>
      (s.manager.findConnection identity.instanceId).all fun connection =>
        connection.connectionToken != token || s.takes token
    | .sending request _ => s.leavesRoom n request.connectionToken
    | .acknowledging token _ => s.leavesRoom n token
    | _ => true
  | _ => true

abbrev Roomy (s : ManagerState) (e : ManagerEvent) : Prop := s.roomy e = true

def Flowing (s : ManagerState) : Prop := ∀ n token, (s.tasks n).sendsTo = some token → s.takes token = true

section Steps
variable {s s' : ManagerState} {e : ManagerEvent} {n : Nat} {task : ManagerTask} {token : Uuid}

theorem send_channels {envelope : AdapterRequestEnvelope} {delivered : Bool}
    (h : s.send token envelope = some (delivered, s')) : s'.channels = s.channels ∨
      (s.channels token).isOpen = true ∧
        s'.channels = Function.update s.channels token ((s.channels token).push envelope) := by
  unfold send at h
  dsimp only at h
  split_ifs at h with hclosed hroom
  · obtain ⟨-, rfl⟩ := Prod.mk.inj (Option.some.inj h)
    exact .inl rfl
  · obtain ⟨-, rfl⟩ := Prod.mk.inj (Option.some.inj h)
    exact .inr ⟨by simpa using hclosed, rfl⟩

/-- A call changes a queue by registering its connection, or by a message. -/
theorem advance_channels {fresh : Uuid × Uuid} {task' : ManagerTask} (h : s.advance fresh task = some (task', s')) :
    s'.channels = s.channels ∨ (∃ id, s'.channels = Function.update s.channels id .fresh) ∨
      ∃ token envelope, (task.sendsTo = some token ∨ task = .acknowledging token envelope) ∧ task'.sendsTo = none ∧
        (s.channels token).isOpen = true ∧
          s'.channels = Function.update s.channels token ((s.channels token).push envelope) := by
  cases task with
  | registering hello =>
    rw [advance, register] at h
    split at h
    · obtain ⟨-, rfl⟩ := Prod.mk.inj (Option.some.inj h)
      exact .inl rfl
    · split_ifs at h
      split at h
      all_goals
        obtain ⟨-, rfl⟩ := Prod.mk.inj (Option.some.inj h)
        -- the connection gets a channel of its own
        exact .inr (.inl ⟨_, rfl⟩)
  | disconnecting instanceId token =>
    rw [advance, disconnect] at h
    split at h
    · split_ifs at h
      all_goals
        obtain ⟨-, rfl⟩ := Prod.mk.inj (Option.some.inj h)
        exact .inl rfl
    · obtain ⟨-, rfl⟩ := Prod.mk.inj (Option.some.inj h)
      exact .inl rfl
  | inserting identity token action resolved =>
    rw [advance, insertPendingIfCurrent] at h
    split_ifs at h
    dsimp only at h
    split at h
    · split_ifs at h
      all_goals
        obtain ⟨-, rfl⟩ := Prod.mk.inj (Option.some.inj h)
        exact .inl rfl
    · obtain ⟨-, rfl⟩ := Prod.mk.inj (Option.some.inj h)
      exact .inl rfl
  | sending request envelope =>
    obtain ⟨⟨delivered, sent⟩, hsend, heq⟩ := Option.map_eq_some_iff.mp h
    obtain ⟨rfl, rfl⟩ := Prod.mk.inj heq
    -- a closed channel takes nothing
    rcases send_channels hsend with hsame | ⟨hopen, hpush⟩
    · exact .inl hsame
    · refine .inr (.inr ⟨_, envelope, .inl rfl, ?_, hopen, hpush⟩)
      cases delivered <;> rfl
  | acknowledging token envelope =>
    obtain ⟨⟨delivered, sent⟩, hsend, heq⟩ := Option.map_eq_some_iff.mp h
    obtain ⟨rfl, rfl⟩ := Prod.mk.inj heq
    rcases send_channels hsend with hsame | ⟨hopen, hpush⟩
    · exact .inl hsame
    · exact .inr (.inr ⟨_, envelope, .inr rfl, rfl, hopen, hpush⟩)
  | waiting request =>
    obtain ⟨outcome, -, heq⟩ := Option.map_eq_some_iff.mp h
    obtain ⟨-, rfl⟩ := Prod.mk.inj heq
    exact .inl rfl
  | taking arrivedOn response =>
    have h := Option.some.inj h
    split at h
    all_goals
      obtain ⟨-, rfl⟩ := Prod.mk.inj h
      exact .inl rfl
  | absent | registered | completed | dropped | ended => cases h
  | _ =>
    obtain ⟨-, rfl⟩ := Prod.mk.inj (Option.some.inj h)
    exact .inl rfl

theorem takes_setChannel {channel : AdapterChannel} {id : Uuid} (h : s.takes token = true)
    (hid : ! (s.channels id).isOpen || (s.channels id).hasRoom → ! channel.isOpen || channel.hasRoom) :
    (s.setChannel id channel).takes token = true := by
  by_cases heq : token = id
  · subst heq
    have hself : (s.setChannel token channel).channels token = channel := Function.update_self ..
    rw [takes, hself]
    exact hid h
  · have hne : (s.setChannel id channel).channels token = s.channels token := Function.update_of_ne heq ..
    rw [takes, hne]
    exact h

theorem receive_queue {channel channel' : AdapterChannel} (h : receive channel = some channel') :
    channel'.isOpen = channel.isOpen ∧ channel'.queue.length + 1 = channel.queue.length := by
  unfold receive at h
  split at h
  · rename_i hqueue
    obtain rfl := Option.some.inj h
    rw [hqueue]
    exact ⟨rfl, rfl⟩
  · exact nomatch h

theorem write_queue {socketRoom : Nat} {channel channel' : AdapterChannel} (h : write socketRoom channel = some channel') :
    channel'.isOpen = channel.isOpen ∧ channel'.queue = channel.queue := by
  unfold write at h
  split at h
  · split_ifs at h
    obtain rfl := Option.some.inj h
    exact ⟨rfl, rfl⟩
  · exact nomatch h

/-- A queue that takes a message still does after a step, unless the step has put one on it. -/
theorem takes_step (hs : s.step e = some s') (h : s.takes token = true) : s'.takes token = true ∨
    ∃ n fresh envelope, e = .advance n fresh ∧
      ((s.tasks n).sendsTo = some token ∨ s.tasks n = .acknowledging token envelope) ∧
        (s'.tasks n).sendsTo = none ∧ (s.channels token).isOpen = true ∧
          s'.channels token = (s.channels token).push envelope := by
  cases e with
  | start call => exact .inl (Option.some.inj hs ▸ h)
  | clock now => exact .inl (Option.some.inj hs ▸ h)
  | timeout n =>
    obtain ⟨task, -, rfl⟩ := Option.map_eq_some_iff.mp hs
    exact .inl h
  | cancel n =>
    obtain ⟨task, -, rfl⟩ := Option.map_eq_some_iff.mp hs
    exact .inl h
  | receive id =>
    obtain ⟨channel, hreceive, rfl⟩ := Option.map_eq_some_iff.mp hs
    obtain ⟨hopen, hqueue⟩ := receive_queue hreceive
    refine .inl (takes_setChannel h fun htakes => ?_)
    simp only [AdapterChannel.hasRoom, hopen, Bool.or_eq_true, decide_eq_true_eq] at htakes ⊢
    exact htakes.imp_right fun hlt => by omega
  | write id =>
    obtain ⟨channel, hwrite, rfl⟩ := Option.map_eq_some_iff.mp hs
    obtain ⟨hopen, hqueue⟩ := write_queue hwrite
    refine .inl (takes_setChannel h fun htakes => ?_)
    rw [AdapterChannel.hasRoom, hopen, hqueue]
    exact htakes
  | read id =>
    obtain rfl := Option.some.inj hs
    exact .inl (takes_setChannel h fun htakes => htakes)
  | close id =>
    obtain rfl := Option.some.inj hs
    exact .inl (takes_setChannel h fun _ => rfl)
  | advance n fresh =>
    obtain ⟨⟨task, advanced⟩, hadvance, rfl⟩ := Option.map_eq_some_iff.mp hs
    have hchannels : (advanced.setTask n task).channels = advanced.channels := rfl
    rcases advance_channels hadvance with hsame | ⟨id, hfresh⟩ | ⟨id, envelope, hpushes, htask, hopen, hpush⟩
    · refine .inl ?_
      rw [takes, hchannels, hsame]
      exact h
    · refine .inl ?_
      rw [takes, hchannels, hfresh]
      by_cases heq : token = id
      · rw [heq, Function.update_self]
        decide
      · rw [Function.update_of_ne heq]
        exact h
    · by_cases heq : token = id
      · subst heq
        -- the message is on this very queue
        refine .inr ⟨n, fresh, envelope, rfl, hpushes, ?_, hopen, ?_⟩
        · rw [setTask_self, htask]
        · rw [hchannels, hpush, Function.update_self]
      · refine .inl ?_
        rw [takes, hchannels, hpush, Function.update_of_ne heq]
        exact h

/-! ## Runs -/

theorem Moves.sendsTo {task task' : ManagerTask} {m : Nat} (h : Moves s m e task task') (htask : task'.sendsTo = some token) :
    ∃ fresh identity connection action resolved, e = .advance m fresh ∧ task = .inserting identity token action resolved ∧
      s.manager.findConnection identity.instanceId = some connection ∧ connection.connectionToken = token := by
  cases h with
  | quiet hq => cases hq <;> exact nomatch htask
  | fail hf => cases hf <;> exact nomatch htask
  | dispatch hfound =>
    obtain rfl := Option.some.inj htask
    exact ⟨_, _, _, _, _, rfl, rfl, hfound, rfl⟩
  | _ => exact nomatch htask

/-- A dispatch that is about to send was so before the step, or comes to it where the queue has room. -/
theorem Flowing.takes_before (h : Flowing s) (hok : Roomy s e) (hs : Step s e s') {m : Nat}
    (hm : (s'.tasks m).sendsTo = some token) : s.takes token = true ∧
      (s'.tasks m = s.tasks m ∨ ∃ fresh, e = .advance m fresh ∧ (s.tasks m).isInserting = true) := by
  rcases hs.moved m with ⟨call, -, hcall⟩ | hsame | hmove
  · rw [hcall] at hm
    cases call <;> exact nomatch hm
  · exact ⟨h m token (hsame ▸ hm), .inl hsame⟩
  · obtain ⟨fresh, identity, connection, action, resolved, rfl, hinserting, hfound, rfl⟩ := hmove.sendsTo hm
    refine ⟨?_, .inr ⟨fresh, rfl, by rw [hinserting]; rfl⟩⟩
    simpa [Roomy, roomy, hinserting, hfound] using hok

theorem Flowing.step (h : Flowing s) (ho : Owned s) (hok : Roomy s e) (hs : s.step e = some s') : Flowing s' := by
  intro m token hm
  obtain ⟨htakes, hbefore⟩ := h.takes_before hok (step_cases hs) hm
  rcases takes_step hs htakes with hkept | ⟨n, fresh, envelope, rfl, hpushes, hnone, hopen, hpush⟩
  · exact hkept
  · -- another call has put a message on the queue
    have hmn : m ≠ n := by
      rintro rfl
      exact nomatch hnone.symm.trans hm
    have hsame : s'.tasks m = s.tasks m := by
      rcases hbefore with hsame | ⟨fresh', heq, -⟩
      · exact hsame
      · exact absurd (ManagerEvent.advance.inj heq).1.symm hmn
    have hstarted : m < s.calls := by
      by_contra hge
      rw [hsame, ho.absent m (Nat.le_of_not_lt hge)] at hm
      exact nomatch hm
    have hroom : s.leavesRoom n token = true := by
      rcases hpushes with hsends | hacks
      · cases htask : s.tasks n with
        | sending request envelope =>
          rw [htask] at hsends
          obtain rfl := Option.some.inj hsends
          simpa only [Roomy, roomy, htask] using hok
        | _ => simp [htask, ManagerTask.sendsTo] at hsends
      · simpa only [Roomy, roomy, hacks] using hok
    rw [hsame] at hm
    have hlast : ¬ ∀ m < s.calls, m ≠ n → (s.tasks m).sendsTo ≠ some token := fun hall => hall m hstarted hmn hm
    have hlength : (s.channels token).queue.length + 1 < channelCapacity := by
      simpa [leavesRoom, hopen, hlast] using hroom
    rw [takes, hpush]
    simpa [AdapterChannel.push, AdapterChannel.hasRoom, hopen] using hlength

end Steps
end ManagerState

/-! ## An adapter that does not read -/

namespace Sample

/-- Events of the connection are acknowledged one after the other, from the given call on. -/
def acknowledgements (first count : Nat) : List ManagerEvent :=
  (List.range count).flatMap fun k => [.start (.acknowledge 10 0 ⟨0, false, false⟩), .advance (first + k) (0, 0)]

/-- The adapter reads nothing: the first acknowledgement fills its socket, the writer holds the second,
the next ones fill the queue, and a dispatch comes to send behind them. -/
def unread : List ManagerEvent :=
  [.start (.register hello), .advance 0 (10, 0)] ++ acknowledgements 1 1 ++ [.receive 10, .write 10] ++
    acknowledgements 2 1 ++ [.receive 10] ++ acknowledgements 3 channelCapacity ++
      [.start (.execute (notify now) none), .advance 35 (0, 0), .advance 35 (20, 21)]

end Sample

namespace ManagerState

end ManagerState
end Fubun

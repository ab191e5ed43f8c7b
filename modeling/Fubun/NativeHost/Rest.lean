import Mathlib.Algebra.BigOperators.Group.Finset.Basic
import Fubun.NativeHost.Routing

/-! Without new input the native host comes to rest, and at rest every emission has ended. -/

namespace Fubun.NativeHost
open Encoding Extensions Relational Concurrency.Machine

/-! ## Work that is left -/

/-- What a host does by itself while its output is read. -/
def HostEvent.isOwn : HostEvent → Bool
  | .native _ | .frame _ | .quit => false
  | .writeNative ok => ok
  | _ => true

def EventTask.work : EventTask → Nat
  | .spawned .. => 8
  | .sending .. => 7
  | .waiting _ => 4
  | .responding .. => 3
  | .absent | .ended | .aborted => 0

def MainLoop.work : MainLoop → Nat
  | .requesting .. | .returning .. => 4
  | .answering .. | .forwarding _ => 3
  | .listening | .stopped => 0

def Reader.work : Reader → Nat
  | .passing _ => 5
  | .reading | .ended => 0

def Writer.work {α : Type} (w : Writer α) : Nat := 2 * w.queue.length + (if w.writing.isSome then 1 else 0)

def tasksWork (tasks : Nat → EventTask) (reads : Nat) : Nat := ∑ n ∈ Finset.range reads, (tasks n).work

def Host.work (s : Host) : Nat :=
  s.mainLoop.work + s.reader.work + 4 * s.inbound.length + s.native.work + s.adapter.work + tasksWork s.tasks s.reads

namespace Writer
variable {α : Type} {w w' : Writer α} {x : α}

/-- A writer with nothing left to do takes what is sent, or its receiver is gone. -/
theorem send_of_idle (hqueue : w.queue = []) (x : α) : ∃ sent w', w.send x = some (sent, w') := by
  unfold send
  split_ifs with hclosed hroom
  · exact ⟨_, _, rfl⟩
  · exact ⟨_, _, rfl⟩
  · rw [hqueue] at hroom
    exact absurd (show 0 < channelCapacity by decide) hroom

theorem idle_of_still (hreceive : w.receive = none) (hwrite : w.write true = none) : w.queue = [] := by
  have hwriting : w.writing = none := Option.map_eq_none_iff.mp hwrite
  unfold receive at hreceive
  rw [hwriting] at hreceive
  cases hqueue : w.queue with
  | nil => rfl
  | cons x rest =>
    rw [hqueue] at hreceive
    exact nomatch hreceive

end Writer

open Host

section Work
variable {s : Host} {n : Nat}

theorem Host.IsNumbered.lt (hn : s.IsNumbered) {requestId : Uuid} (hid : (s.tasks n).requestId? = some requestId) : n < s.reads := by
  obtain ⟨message, hread, -⟩ := hn.asked n requestId hid
  exact hn.bounded n message hread

end Work

/-- There is nothing that the host could do by itself. -/
def Host.IsResting (D : Decoders) (s : Host) : Prop := ∀ e, e.isOwn = true → s.step D e = none

namespace Host.IsResting
variable {D : Decoders} {s : Host}

theorem speaks (h : s.IsResting D) (envelope : NativeEnvelope) : s.native.send envelope ≠ none := by
  have hqueue : s.native.queue = [] :=
    Writer.idle_of_still (Option.map_eq_none_iff.mp (h .receiveNative rfl)) (Option.map_eq_none_iff.mp (h (.writeNative true) rfl))
  intro hnone
  obtain ⟨sent, native, hsend⟩ := Writer.send_of_idle hqueue envelope
  exact nomatch hnone.symm.trans hsend

theorem returns (h : s.IsResting D) (response : AdapterResponseEnvelope) : s.adapter.send response ≠ none := by
  have hqueue : s.adapter.queue = [] :=
    Writer.idle_of_still (Option.map_eq_none_iff.mp (h .receiveAdapter rfl)) (Option.map_eq_none_iff.mp (h (.writeAdapter true) rfl))
  intro hnone
  obtain ⟨sent, adapter, hsend⟩ := Writer.send_of_idle hqueue response
  exact nomatch hnone.symm.trans hsend

theorem mainLoop (h : s.IsResting D) (hr : s.IsRunning) : s.mainLoop = .listening := by
  have hproceed : s.proceed = none := h .proceed rfl
  cases hloop : s.mainLoop with
  | listening => rfl
  | stopped => exact absurd hloop hr.running
  | requesting n requestId answerType =>
    have hrespond : s.respond none = none := h (.respond none) rfl
    unfold Host.respond at hrespond
    rw [hloop] at hrespond
    exact nomatch hrespond
  | returning n requestId response =>
    unfold Host.proceed at hproceed
    rw [hloop] at hproceed
    exact absurd (Option.map_eq_none_iff.mp hproceed) (h.returns response)
  | answering n envelope =>
    unfold Host.proceed at hproceed
    rw [hloop] at hproceed
    exact absurd (Option.map_eq_none_iff.mp hproceed) (h.speaks envelope)
  | forwarding inbound =>
    unfold Host.proceed at hproceed
    rw [hloop] at hproceed
    have hforward := Option.map_eq_none_iff.mp hproceed
    cases inbound with
    | action _ _ _ => exact absurd (Option.map_eq_none_iff.mp hforward) (h.speaks _)
    | status _ _ => exact absurd (Option.map_eq_none_iff.mp hforward) (h.returns _)

theorem inbound (h : s.IsResting D) (hmain : s.mainLoop = .listening) : s.inbound = [] := by
  have htake : s.take = none := h .take rfl
  cases hqueue : s.inbound with
  | nil => rfl
  | cons inbound rest =>
    unfold Host.take at htake
    rw [hmain, hqueue] at htake
    exact nomatch htake

theorem reader (h : s.IsResting D) (hmain : s.mainLoop = .listening) (hinbound : s.inbound = []) : s.reader.inbound? = none := by
  have hpass : s.pass = none := h .pass rfl
  cases hat : s.reader with
  | passing inbound =>
    unfold Host.pass at hpass
    rw [hat, hmain, hinbound] at hpass
    exact nomatch hpass
  | _ => rfl

theorem task (h : s.IsResting D) (n : Nat) : (s.tasks n).requestId? = none := by
  have htask : s.runTask n = none := h (.task n) rfl
  unfold Host.runTask at htask
  cases hat : s.tasks n with
  | spawned requestId event =>
    rw [hat] at htask
    dsimp only at htask
    split_ifs at htask
  | sending requestId event =>
    rw [hat] at htask
    exact absurd (Option.map_eq_none_iff.mp htask) (h.returns _)
  | waiting requestId =>
    have hexpire : s.expire n = none := h (.expire n) rfl
    unfold Host.expire at hexpire
    rw [hat] at htask hexpire
    cases hack : s.acks n with
    | none =>
      rw [hack] at hexpire
      exact nomatch hexpire
    | some result =>
      rw [hack] at htask
      exact nomatch htask
  | responding requestId result =>
    rw [hat] at htask
    exact absurd (Option.map_eq_none_iff.mp htask) (h.speaks _)
  | _ => rfl

/-- At rest no task has anything in hand, and neither has the main loop. -/
theorem idle (h : s.IsResting D) (hr : s.IsRunning) :
    (∀ n, ¬ Holds s.tasks s.mainLoop n) ∧ underway s.mainLoop s.inbound s.reader = [] := by
  have hmain := h.mainLoop hr
  have hinbound := h.inbound hmain
  constructor
  · rintro n (hheld | hheld)
    · exact hheld (h.task n)
    · rw [hmain] at hheld
      exact nomatch hheld
  · rw [underway, hmain, hinbound, h.reader hmain hinbound]
    rfl

end Host.IsResting

/-! ## Every run -/

/-- What holds of a host in all its runs. -/
structure Host.IsRouted (s : Host) : Prop where
  running : s.IsRunning
  numbered : s.IsNumbered
  guarded : s.IsGuarded
  ending : s.IsEnding
  ordered : s.IsOrdered

theorem Host.IsRouted.start (adapterStatus : AdapterStatusSnapshot) : (Host.start adapterStatus).IsRouted where
  running := ⟨(nomatch ·), rfl⟩
  numbered := Numbered.start
  guarded := Guards.start
  ending := by
    refine ⟨List.nodup_nil, ?_, Follows.nil, ?_⟩
    · exact fun _ hmem => nomatch hmem
    · exact fun _ _ hmem => nomatch hmem
  ordered := Orders.start

theorem Host.IsRouted.step {D : Decoders} {s s' : Host} {e : HostEvent} (h : s.IsRouted) (hok : Routine s e)
    (hs : s.step D e = some s') : s'.IsRouted := by
  have hm := Moves.of_step h.running hok hs
  exact ⟨hm.isRunning h.running, hm.isNumbered h.numbered, hm.isGuarded h.numbered h.guarded,
    hm.isEnding h.numbered h.guarded h.ending, hm.isOrdered h.running h.ordered⟩

theorem Host.IsRouted.released {s : Host} (h : s.IsRouted) {n : Nat} {message : NativeEnvelope} (hread : .read n message ∈ s.log)
    (hemission : isEmission message = true) (hanswered : n ∈ answeredNumbers s.log) :
    ∀ row ∈ s.pending, row.requestId ≠ message.requestId := by
  intro row hrow heq
  have hasked := EventTask.requestId_of_guarded (h.guarded.rows row hrow).1
  obtain ⟨message', hread', hemission', hid⟩ := h.numbered.asked row.n row.requestId hasked
  obtain rfl := h.numbered.distinct row.n n message' message hread' hread hemission' hemission (hid.trans heq)
  apply (h.ending.finished row.n hanswered).2
  left
  rw [hasked]
  exact Option.some_ne_none _

variable {D : Decoders} {adapterStatus : AdapterStatusSnapshot} {s : Host}

end Fubun.NativeHost

namespace Fubun.Sample
open Encoding Extensions NativeHost

def emission : NativeEnvelope where
  protocolVersion := currentProtocolVersion
  requestId := 7
  messageType := "browser.event.emit"
  payload := .object [("sequence_no", .number 1), ("occurred_at", .array (List.replicate 9 (.number 0))),
    ("resource_id", (2 : Uuid).toJson)]

/-- An action comes before the acknowledgement of an emission. -/
def acknowledged : List HostEvent :=
  [.native emission, .task 0, .task 0,
    .frame (some ⟨currentProtocolVersion, 8, 9, .actionExecute ⟨.browserTabEnsureOpen 2, none⟩⟩), .pass,
    .frame (some ⟨currentProtocolVersion, 7, .nil, .eventAck ⟨3, true, false⟩⟩), .take, .task 0, .proceed, .task 0]

end Fubun.Sample

namespace Fubun.NativeHost
open Concurrency.Machine

end Fubun.NativeHost

import Fubun.Concurrency.Queue
import Fubun.Rituals.Dispatch

/-! The storage writer. A handler sends its operation into the writer's queue and waits on a channel of
its own for the reply; the writer thread performs the operations one after the other. The daemon that
performs them where they are issued is all that can be seen of this. -/

namespace Fubun
open Concurrency System

/-- The operations that `StorageHandle::request` sends to the writer. -/
def Op.toWriter : Op → Bool
  | .storage _ => true
  | _ => false

abbrev WriterState := QueueConfig Nat Op Op.Res World Frame Reply

section Runs
variable {crates : Crates} {now : Int} {instant : Nat} {files : Files} {path : String} {c : WriterState}

/-- A run with the writer thread is one of the daemon with the storage at hand: the same world, the same
history, and every task where it stands, or, when the writer has replied to it, behind its operation. -/
theorem writer_atomic (h : (daemon crates).QueueReaches Op.toWriter (World.start now instant files path) c) :
    ∃ d, (daemon crates).Reaches (World.start now instant files path) Anywhere d ∧ d.world = c.world ∧
      d.log = Entry.labels c.log ∧ ∀ i, Agrees (c.replies i) (d.threads i) (c.threads i) := by
  obtain ⟨d, hd, hatomic⟩ := h.atomic
  exact ⟨d, hd, hatomic.world, hatomic.log, hatomic.threads⟩

/-- The writer performs what it is sent in order and once, it can always go on, nobody waits in vain, and
when no task is left there is nothing in the queue that its end would lose. -/
theorem writer_in_order (h : (daemon crates).QueueReaches Op.toWriter (World.start now instant files path) c) :
    Entry.sentIn (Entry.sinceRestart c.log) = Entry.performedIn Op.toWriter (Entry.sinceRestart c.log) ++ c.queue ∧
      (∀ i o rest, c.queue = (i, o) :: rest → ∀ _ : Choice, ∃ r w, (daemon crates).QueueStep Op.toWriter c (c.worked i rest o r w)) ∧
      (∀ i t o k, c.threads i = some (.waiting t o k) → (i, o) ∈ c.queue ∨ ∃ r, c.replies i = some ⟨o, r⟩) ∧
      ((∀ i, c.threads i = none) → c.queue = []) := by
  obtain ⟨d, hd, hatomic⟩ := h.atomic
  refine ⟨hatomic.inOrder, fun i o rest hqueue ch => ?_, fun i t o k hi => ?_, fun hnone => ?_⟩
  · have hstorage : Op.toWriter o = true := hatomic.queued (i, o) (hqueue ▸ List.mem_cons_self)
    cases o with
    | storage operation => exact ⟨_, _, .work hqueue (show World.act crates i (.storage operation) ch c.world = some _ from rfl)⟩
    | _ => cases hstorage
  · have hthread := hatomic.threads i
    rw [hi] at hthread
    generalize hu : d.threads i = u, hreply : c.replies i = reply at hthread
    cases hthread with
    | serving _ _ hstands =>
      cases hstands with
      | waiting => exact .inl ((hatomic.waits i o).mpr ⟨⟨t, k, hi⟩, hreply⟩)
      | replied _ _ _ r => exact .inr ⟨r, rfl⟩
  · refine List.eq_nil_iff_forall_not_mem.mpr fun x hx => ?_
    obtain ⟨⟨t, k, hi⟩, -⟩ := (hatomic.waits x.1 x.2).mp hx
    cases (hnone x.1).symm.trans hi

end Runs

/-! ## Two clients at once -/

namespace Sample

def handshake (i : Nat) : List (QueueEvent Nat Frame Choice Drift) :=
  .arrive i (.first ⟨currentProtocolVersion, 0, .clientHello ⟨"fubun", "0.1.0", currentProtocolVersion⟩⟩) ::
    List.replicate 2 (.proceed i ⟨0, none, .timeout⟩)

/-- Two clients list the rituals; the writer has replied to the first and not to the second. -/
def bothAsking : List (QueueEvent Nat Frame Choice Drift) :=
  handshake 0 ++ handshake 1 ++
    [.arrive 0 (.request ⟨currentProtocolVersion, 0, .ritualList⟩), .arrive 1 (.request ⟨currentProtocolVersion, 1, .ritualList⟩),
      .proceed 0 ⟨0, none, .timeout⟩, .proceed 1 ⟨0, none, .timeout⟩, .work ⟨0, none, .timeout⟩]

theorem asking_reached : ∃ c, (daemon crates).QueueReaches Op.toWriter world c ∧ c.queue = [(1, .storage .listRituals)] := by
  have hrun : ((daemon crates).queueExec Op.toWriter (.init world) bothAsking).map (·.queue) =
      some [(1, .storage .listRituals)] := by decide +kernel
  obtain ⟨c, hc, hqueue⟩ := Option.map_eq_some_iff.mp hrun
  exact ⟨c, QueueReaches.init.exec hc, hqueue⟩

end Sample

theorem writer_atomic_both : ∃ c d, (daemon Sample.crates).QueueReaches Op.toWriter Sample.world c ∧
    c.queue = [(1, .storage .listRituals)] ∧ (daemon Sample.crates).Reaches Sample.world Anywhere d ∧
      d.world = c.world ∧ d.log = Entry.labels c.log := by
  obtain ⟨c, hc, hqueue⟩ := Sample.asking_reached
  obtain ⟨d, hd, hworld, hlog, -⟩ := writer_atomic hc
  exact ⟨c, d, hc, hqueue, hd, hworld, hlog⟩

theorem writer_in_order_both : ∃ c, (daemon Sample.crates).QueueReaches Op.toWriter Sample.world c ∧
    Entry.sentIn (Entry.sinceRestart c.log) =
      Entry.performedIn Op.toWriter (Entry.sinceRestart c.log) ++ [(1, .storage .listRituals)] := by
  obtain ⟨c, hc, hqueue⟩ := Sample.asking_reached
  exact ⟨c, hc, hqueue ▸ (writer_in_order hc).1⟩

end Fubun

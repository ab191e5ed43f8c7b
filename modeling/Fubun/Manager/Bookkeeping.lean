import Fubun.Manager.Steps
import Fubun.Rituals.Dispatch

/-! The bookkeeping of dispatches across reconnects: who owns a pending request, which connection it
belongs to, and what its oneshot has been sent. -/

namespace Fubun
open Relational Concurrency

namespace AdapterManager
variable {m : AdapterManager} {p : PendingRequest → Bool} {outcome : Oneshot} {row request : PendingRequest}
  {requestId : Uuid}

theorem mem_remove : row ∈ (m.remove p outcome).pending ↔ row ∈ m.pending ∧ p row = false := by
  simp [remove, deleteRows]

theorem remove_replies_of_any (h : ∃ row ∈ m.pending, p row = true ∧ row.requestId = requestId) :
    (m.remove p outcome).replies requestId = outcome := by
  have hany : (m.pending.any fun row => p row && row.requestId == requestId) = true := by simpa using h
  simp only [remove, hany, if_true]

theorem remove_replies_of_not_any (h : ¬ ∃ row ∈ m.pending, p row = true ∧ row.requestId = requestId) :
    (m.remove p outcome).replies requestId = m.replies requestId := by
  have hany : ¬ (m.pending.any fun row => p row && row.requestId == requestId) = true := by simpa using h
  simp only [remove, hany]
  rfl

theorem mem_insertPending : row ∈ (m.insertPending request).pending ↔
    row ∈ m.pending ∧ row.requestId ≠ request.requestId ∨ row = request := by
  simp [insertPending, deleteRows]

theorem mem_takePending : row ∈ (m.takePending requestId).pending ↔ row ∈ m.pending ∧ row.requestId ≠ requestId := by
  simp [takePending, deleteRows]

theorem findPending_eq_some (h : m.findPending requestId = some request) :
    request ∈ m.pending ∧ request.requestId = requestId :=
  ⟨List.mem_of_find?_eq_some h, by simpa using List.find?_some h⟩

end AdapterManager

namespace ManagerState
open ManagerTask

/-- Every pending request belongs to a running `execute`, and its oneshot is empty; a request that a
`resolve` has taken out is answered by nobody else. -/
structure Owned (s : ManagerState) : Prop where
  absent : ∀ n, s.calls ≤ n → s.tasks n = .absent
  issued : ∀ n request, (s.tasks n).request? = some request → request.requestId ∈ s.issued
  distinct : ∀ n m request request', (s.tasks n).request? = some request → (s.tasks m).request? = some request' →
    request.requestId = request'.requestId → n = m
  owner : ∀ row ∈ s.manager.pending, ∃ n, (s.tasks n).holds? = some row
  empty : ∀ row ∈ s.manager.pending, s.manager.replies row.requestId = .empty
  created : ∀ id, s.manager.replies id ≠ .closed → id ∈ s.issued
  taken : ∀ n request, (s.tasks n).replying? = some request → request.requestId ∈ s.issued ∧
    s.manager.replies request.requestId = .empty ∧ ∀ row ∈ s.manager.pending, row.requestId ≠ request.requestId
  takenOnce : ∀ n m request request', (s.tasks n).replying? = some request → (s.tasks m).replying? = some request' →
    request.requestId = request'.requestId → n = m

/-- The connections are keyed by their instance, and a pending request belongs to one of them, or is
about to be failed. -/
structure Current (s : ManagerState) : Prop where
  keyed : Keyed AdapterConnection.instanceId s.manager.connections
  current : ∀ row ∈ s.manager.pending, (∃ connection ∈ s.manager.connections,
    connection.connectionToken = row.connectionToken) ∨ ∃ n, (s.tasks n).condemns row = true

section Tasks
variable {s : ManagerState} {n m : Nat} {task : ManagerTask}

/-- What a step of one call leaves as it is, it leaves as it is for all calls. -/
theorem setTask_same {α : Type} (f : ManagerTask → α) (h : f task = f (s.tasks n)) (m : Nat) :
    f ((s.setTask n task).tasks m) = f (s.tasks m) := by
  by_cases hm : m = n
  · subst hm
    rw [setTask_self, h]
  · rw [setTask_ne hm]

theorem started_same {α : Type} (f : ManagerTask → α) {call : ManagerCall} (habsent : s.tasks s.calls = .absent)
    (h : f call.task = f .absent) (m : Nat) : f ((s.started call).tasks m) = f (s.tasks m) := by
  by_cases hm : m = s.calls
  · subst hm
    rw [started_self, h, habsent]
  · rw [started_ne hm]

theorem Fails.quiet {p : PendingRequest → Bool} {task' : ManagerTask} (h : Fails task p task') :
    task.request? = none ∧ task'.request? = none ∧ task.holds? = none ∧ task'.holds? = none ∧
      task.replying? = none ∧ task'.replying? = none := by
  cases h <;> exact ⟨rfl, rfl, rfl, rfl, rfl, rfl⟩

theorem replacingPrevious_quiet {token : Uuid} {hello : AdapterHello} :
    (s.replacingPrevious token hello).request? = none ∧ (s.replacingPrevious token hello).holds? = none ∧
      (s.replacingPrevious token hello).replying? = none := by
  unfold replacingPrevious
  split <;> exact ⟨rfl, rfl, rfl⟩

theorem released_quiet {request : PendingRequest} {error : Option AdapterDispatchErrorKind} :
    (released request error).request? = some request ∧ (released request error).holds? = none ∧
      (released request error).replying? = none := by
  cases error <;> exact ⟨rfl, rfl, rfl⟩

end Tasks

section Steps
variable {s s' : ManagerState} {e : ManagerEvent}

theorem Step.issued (h : Step s e s') : s.issued ⊆ s'.issued := by
  cases h with
  | connect => exact List.subset_cons_self _ _
  | dispatch => exact fun id hid => List.mem_cons_of_mem _ (List.mem_cons_of_mem _ hid)
  | _ => exact List.Subset.refl _

theorem Step.requests (h : Step s e s') (habsent : s.tasks s.calls = .absent) :
    (∀ m, (s'.tasks m).request? = (s.tasks m).request?) ∨
      ∃ n request, (s'.tasks n).request? = some request ∧ (s.tasks n).request? = none ∧
        (∀ m, m ≠ n → s'.tasks m = s.tasks m) ∧ request.requestId ∉ s.issued ∧ request.requestId ∈ s'.issued := by
  cases h with
  | start => exact .inl (started_same request? habsent (request?_task _))
  | other => exact .inl fun m => rfl
  | quiet hn hq => exact .inl (setTask_same request? (hn ▸ hq.request?))
  | connect hn => exact .inl (setTask_same request? (hn ▸ replacingPrevious_quiet.1))
  | disconnect hn => exact .inl (setTask_same request? (hn ▸ rfl))
  | clear hn => exact .inl (setTask_same request? (hn ▸ rfl))
  | fail hn hf => exact .inl (setTask_same request? (hn ▸ hf.quiet.2.1.trans hf.quiet.1.symm))
  | @dispatch n fresh _ _ _ _ _ hn hid =>
    refine .inr ⟨n, _, ?_, hn ▸ rfl, fun m hm => setTask_ne hm, hid, List.mem_cons_self⟩
    rw [setTask_self]
    rfl
  | release hn => exact .inl (setTask_same request? (hn ▸ released_quiet.1))
  | touch hn => exact .inl (setTask_same request? (hn ▸ rfl))
  | take hn => exact .inl (setTask_same request? (hn ▸ rfl))
  | reply hn => exact .inl (setTask_same request? (hn ▸ rfl))

theorem Quiet.running {task task' : ManagerTask} (h : Quiet s task task') : task.isEnded = false := by
  cases h <;> rfl

theorem setTask_ended {n : Nat} {task : ManagerTask} (hn : (s.tasks n).isEnded = false) {m : Nat}
    (hm : (s.tasks m).isEnded = true) : (s.setTask n task).tasks m = s.tasks m := by
  have hne : m ≠ n := by
    intro heq
    rw [heq, hn] at hm
    exact nomatch hm
  exact setTask_ne hne

theorem Step.ended (h : Step s e s') : (∃ call, s' = s.started call) ∨
    s'.calls = s.calls ∧ ∀ m, (s.tasks m).isEnded = true → s'.tasks m = s.tasks m := by
  cases h with
  | start => exact .inl ⟨_, rfl⟩
  | other => exact .inr ⟨rfl, fun m _ => rfl⟩
  | quiet hn hq => exact .inr ⟨rfl, fun m hm => setTask_ended (hn ▸ hq.running) hm⟩
  | @fail n fresh task p task' hn hf =>
    have hrunning : (s.tasks n).isEnded = false := by
      rw [hn]
      cases hf <;> rfl
    exact .inr ⟨rfl, fun m hm => setTask_ended hrunning hm⟩
  | connect hn => exact .inr ⟨rfl, fun m hm => setTask_ended (hn ▸ rfl) hm⟩
  | disconnect hn => exact .inr ⟨rfl, fun m hm => setTask_ended (hn ▸ rfl) hm⟩
  | clear hn => exact .inr ⟨rfl, fun m hm => setTask_ended (hn ▸ rfl) hm⟩
  | dispatch hn => exact .inr ⟨rfl, fun m hm => setTask_ended (hn ▸ rfl) hm⟩
  | release hn => exact .inr ⟨rfl, fun m hm => setTask_ended (hn ▸ rfl) hm⟩
  | touch hn => exact .inr ⟨rfl, fun m hm => setTask_ended (hn ▸ rfl) hm⟩
  | take hn => exact .inr ⟨rfl, fun m hm => setTask_ended (hn ▸ rfl) hm⟩
  | reply hn => exact .inr ⟨rfl, fun m hm => setTask_ended (hn ▸ rfl) hm⟩

/-! ## Ownership -/

theorem Owned.pending_unique (h : Owned s) {row row' : PendingRequest} (hrow : row ∈ s.manager.pending)
    (hrow' : row' ∈ s.manager.pending) (hid : row.requestId = row'.requestId) : row = row' := by
  obtain ⟨n, hn⟩ := h.owner row hrow
  obtain ⟨m, hm⟩ := h.owner row' hrow'
  obtain rfl := h.distinct n m row row' (request?_of_holds? hn) (request?_of_holds? hm) hid
  exact Option.some.inj (hn.symm.trans hm)

theorem Owned.pending_issued (h : Owned s) {row : PendingRequest} (hrow : row ∈ s.manager.pending) :
    row.requestId ∈ s.issued := by
  obtain ⟨n, hn⟩ := h.owner row hrow
  exact h.issued n row (request?_of_holds? hn)

theorem Owned.remove_replies (h : Owned s) {p : PendingRequest → Bool} {outcome : Oneshot} {row : PendingRequest}
    (hrow : row ∈ s.manager.pending) (hp : p row = false) :
    (s.manager.remove p outcome).replies row.requestId = s.manager.replies row.requestId := by
  apply AdapterManager.remove_replies_of_not_any
  rintro ⟨other, hother, hremoved, hid⟩
  obtain rfl := h.pending_unique hother hrow hid
  exact nomatch hremoved.symm.trans hp

theorem Owned.next_absent (h : Owned s) : s.tasks s.calls = .absent := h.absent _ (Nat.le_refl _)

theorem Owned.step_absent (h : Owned s) (hs : Step s e s') : ∀ n, s'.calls ≤ n → s'.tasks n = .absent := by
  rcases hs.ended with ⟨call, rfl⟩ | ⟨hcalls, hkept⟩
  · intro n hn
    have hlt : s.calls < n := hn
    rw [started_ne (Nat.ne_of_gt hlt)]
    exact h.absent n (Nat.le_of_lt hlt)
  · intro n hn
    have habsent := h.absent n (hcalls ▸ hn)
    rw [hkept n (by rw [habsent]; rfl), habsent]

theorem Owned.step_issued (h : Owned s) (hs : Step s e s') (n : Nat) (request : PendingRequest)
    (hn : (s'.tasks n).request? = some request) : request.requestId ∈ s'.issued := by
  rcases hs.requests h.next_absent with hsame | ⟨k, fresh, hk, -, hothers, -, hfresh⟩
  · rw [hsame] at hn
    exact hs.issued (h.issued n request hn)
  · by_cases hnk : n = k
    · subst hnk
      obtain rfl := Option.some.inj (hk.symm.trans hn)
      exact hfresh
    · rw [hothers n hnk] at hn
      exact hs.issued (h.issued n request hn)

theorem Owned.step_distinct (h : Owned s) (hs : Step s e s') (n m : Nat) (request request' : PendingRequest)
    (hn : (s'.tasks n).request? = some request) (hm : (s'.tasks m).request? = some request')
    (hid : request.requestId = request'.requestId) : n = m := by
  rcases hs.requests h.next_absent with hsame | ⟨k, fresh, hk, -, hothers, hnew, -⟩
  · rw [hsame] at hn hm
    exact h.distinct n m request request' hn hm hid
  · by_cases hnk : n = k
    · by_cases hmk : m = k
      · rw [hnk, hmk]
      · subst hnk
        obtain rfl := Option.some.inj (hk.symm.trans hn)
        rw [hothers m hmk] at hm
        exact absurd (hid ▸ h.issued m request' hm) hnew
    · rw [hothers n hnk] at hn
      by_cases hmk : m = k
      · subst hmk
        obtain rfl := Option.some.inj (hk.symm.trans hm)
        exact absurd (hid ▸ h.issued n request hn) hnew
      · rw [hothers m hmk] at hm
        exact h.distinct n m request request' hn hm hid

theorem Owned.owner_same (h : Owned s) {row : PendingRequest} (hrow : row ∈ s.manager.pending)
    (hsame : ∀ m, (s'.tasks m).holds? = (s.tasks m).holds?) : ∃ n, (s'.tasks n).holds? = some row := by
  obtain ⟨n, hn⟩ := h.owner row hrow
  exact ⟨n, (hsame n).trans hn⟩

theorem Owned.step_owner (h : Owned s) (hs : Step s e s') (row : PendingRequest) (hrow : row ∈ s'.manager.pending) :
    ∃ n, (s'.tasks n).holds? = some row := by
  cases hs with
  | start => exact h.owner_same hrow (started_same holds? h.next_absent (holds?_task _))
  | other => exact h.owner row hrow
  | @quiet e n task task' channels hn hq =>
    obtain ⟨m, hm⟩ := h.owner row hrow
    by_cases hmn : m = n
    · subst hmn
      -- a task that lets go of its row has a reply, and the row has none
      rcases hq.holds? with hsame | ⟨request, hheld, hreplied⟩
      · exact ⟨m, by rw [setTask_self, hsame, ← hn, hm]⟩
      · rw [← hn] at hheld
        obtain rfl := Option.some.inj (hm.symm.trans hheld)
        exact absurd (h.empty row hrow) hreplied
    · exact ⟨m, by rw [setTask_ne hmn]; exact hm⟩
  | connect hn => exact h.owner_same hrow (setTask_same holds? (hn ▸ replacingPrevious_quiet.2.1))
  | disconnect hn => exact h.owner_same hrow (setTask_same holds? (hn ▸ rfl))
  | clear hn => exact h.owner_same hrow (setTask_same holds? (hn ▸ rfl))
  | fail hn hf =>
    have hkept := (AdapterManager.mem_remove.mp hrow).1
    exact h.owner_same hkept (setTask_same holds? (hn ▸ hf.quiet.2.2.2.1.trans hf.quiet.2.2.1.symm))
  | @dispatch n fresh identity connection action resolved envelope hn =>
    rcases AdapterManager.mem_insertPending.mp hrow with ⟨hkept, -⟩ | rfl
    · obtain ⟨m, hm⟩ := h.owner row hkept
      -- the task that dispatches held no row before
      have hmn : m ≠ n := by
        intro heq
        rw [heq, hn] at hm
        exact nomatch hm
      exact ⟨m, by rw [setTask_ne hmn]; exact hm⟩
    · exact ⟨n, by rw [setTask_self]; rfl⟩
  | @release n fresh request error hn =>
    obtain ⟨hkept, hother⟩ := AdapterManager.mem_remove.mp hrow
    obtain ⟨m, hm⟩ := h.owner row hkept
    have hmn : m ≠ n := by
      intro heq
      rw [heq, hn] at hm
      obtain rfl := Option.some.inj hm
      simp at hother
    exact ⟨m, by rw [setTask_ne hmn]; exact hm⟩
  | touch hn => exact h.owner_same hrow (setTask_same holds? (hn ▸ rfl))
  | take hn =>
    have hkept := (AdapterManager.mem_takePending.mp hrow).1
    exact h.owner_same hkept (setTask_same holds? (hn ▸ rfl))
  | reply hn => exact h.owner_same hrow (setTask_same holds? (hn ▸ rfl))

theorem Owned.step_empty (h : Owned s) (hs : Step s e s') (row : PendingRequest) (hrow : row ∈ s'.manager.pending) :
    s'.manager.replies row.requestId = .empty := by
  cases hs with
  | fail hn hf =>
    obtain ⟨hkept, hp⟩ := AdapterManager.mem_remove.mp hrow
    exact (h.remove_replies hkept hp).trans (h.empty row hkept)
  | release hn =>
    obtain ⟨hkept, hp⟩ := AdapterManager.mem_remove.mp hrow
    exact (h.remove_replies hkept hp).trans (h.empty row hkept)
  | dispatch hn hid =>
    rcases AdapterManager.mem_insertPending.mp hrow with ⟨hkept, hne⟩ | rfl
    · exact (Function.update_of_ne hne ..).trans (h.empty row hkept)
    · exact Function.update_self ..
  | take hn hfound => exact h.empty row (AdapterManager.mem_takePending.mp hrow).1
  | @reply n fresh request arrivedOn response hn =>
    have hne := (h.taken n request (hn ▸ rfl)).2.2 row hrow
    exact (Function.update_of_ne hne ..).trans (h.empty row hrow)
  | _ => exact h.empty row hrow

theorem Owned.remove_created (h : Owned s) {p : PendingRequest → Bool} {outcome : Oneshot} {id : Uuid}
    (hid : (s.manager.remove p outcome).replies id ≠ .closed) : id ∈ s.issued := by
  by_cases hany : ∃ row ∈ s.manager.pending, p row = true ∧ row.requestId = id
  · obtain ⟨row, hrow, -, rfl⟩ := hany
    exact h.pending_issued hrow
  · rw [AdapterManager.remove_replies_of_not_any hany] at hid
    exact h.created id hid

theorem Owned.step_created (h : Owned s) (hs : Step s e s') (id : Uuid) (hid : s'.manager.replies id ≠ .closed) :
    id ∈ s'.issued := by
  cases hs with
  | connect => exact List.mem_cons_of_mem _ (h.created id hid)
  | fail => exact h.remove_created hid
  | release => exact h.remove_created hid
  | @dispatch n fresh =>
    by_cases heq : id = fresh.1
    · exact heq ▸ List.mem_cons_self
    · have hold : s.manager.replies id ≠ .closed := fun hclosed => hid ((Function.update_of_ne heq ..).trans hclosed)
      exact List.mem_cons_of_mem _ (List.mem_cons_of_mem _ (h.created id hold))
  | @reply n fresh request arrivedOn response hn =>
    by_cases heq : id = request.requestId
    · exact heq ▸ (h.taken n request (hn ▸ rfl)).1
    · exact h.created id fun hclosed => hid ((Function.update_of_ne heq ..).trans hclosed)
  | _ => exact h.created id hid

/-- A `resolve` that has taken a request out took it in this step, or had it before. -/
theorem Step.replying (h : Step s e s') (habsent : s.tasks s.calls = .absent) {m : Nat} {request : PendingRequest}
    (hm : (s'.tasks m).replying? = some request) : (s.tasks m).replying? = some request ∨
      request ∈ s.manager.pending ∧ s'.manager = s.manager.takePending request.requestId ∧ s'.issued = s.issued ∧
        ∀ k, k ≠ m → s'.tasks k = s.tasks k := by
  cases h with
  | start => exact .inl ((started_same replying? habsent (replying?_task _) m).symm.trans hm)
  | other => exact .inl hm
  | quiet hn hq =>
    have hsame := setTask_same replying? (hn ▸ hq.replying?.2.trans hq.replying?.1.symm) m
    exact .inl (hsame.symm.trans hm)
  | connect hn => exact .inl ((setTask_same replying? (hn ▸ replacingPrevious_quiet.2.2) m).symm.trans hm)
  | disconnect hn => exact .inl ((setTask_same replying? (hn ▸ rfl) m).symm.trans hm)
  | clear hn => exact .inl ((setTask_same replying? (hn ▸ rfl) m).symm.trans hm)
  | fail hn hf =>
    have hsame := setTask_same replying? (hn ▸ hf.quiet.2.2.2.2.2.trans hf.quiet.2.2.2.2.1.symm) m
    exact .inl (hsame.symm.trans hm)
  | dispatch hn => exact .inl ((setTask_same replying? (hn ▸ rfl) m).symm.trans hm)
  | release hn => exact .inl ((setTask_same replying? (hn ▸ released_quiet.2.2) m).symm.trans hm)
  | touch hn => exact .inl ((setTask_same replying? (hn ▸ rfl) m).symm.trans hm)
  | @take n fresh arrivedOn response found hn hfound =>
    by_cases hmn : m = n
    · subst hmn
      rw [setTask_self] at hm
      obtain rfl := Option.some.inj hm
      obtain ⟨hmem, hid⟩ := AdapterManager.findPending_eq_some hfound
      exact .inr ⟨hmem, hid ▸ rfl, rfl, fun k hk => setTask_ne hk⟩
    · rw [setTask_ne hmn] at hm
      exact .inl hm
  | @reply n fresh replied arrivedOn response hn =>
    by_cases hmn : m = n
    · subst hmn
      rw [setTask_self] at hm
      exact nomatch hm
    · rw [setTask_ne hmn] at hm
      exact .inl hm

/-- The oneshot of a request that a `resolve` has taken out stays empty until that one answers. -/
theorem Owned.taken_replies (h : Owned s) (hs : Step s e s') {m : Nat} {request : PendingRequest}
    (hm : (s.tasks m).replying? = some request) (hm' : (s'.tasks m).replying? = some request) :
    s'.manager.replies request.requestId = .empty := by
  obtain ⟨hissued, hempty, hgone⟩ := h.taken m request hm
  have hremove : ∀ p outcome, (s.manager.remove p outcome).replies request.requestId = .empty := by
    intro p outcome
    rw [AdapterManager.remove_replies_of_not_any]
    · exact hempty
    · rintro ⟨row, hrow, -, hid⟩
      exact hgone row hrow hid
  cases hs with
  | fail => exact hremove _ _
  | release => exact hremove _ _
  | @dispatch n fresh _ _ _ _ _ _ hid =>
    have hne : request.requestId ≠ fresh.1 := fun heq => hid (heq ▸ hissued)
    exact (Function.update_of_ne hne ..).trans hempty
  | @reply n fresh replied arrivedOn response hn =>
    by_cases hid : request.requestId = replied.requestId
    · obtain rfl := h.takenOnce m n request replied hm (hn ▸ rfl) hid
      rw [setTask_self] at hm'
      exact nomatch hm'
    · exact (Function.update_of_ne hid ..).trans hempty
  | _ => exact hempty

theorem Owned.taken_pending (h : Owned s) (hs : Step s e s') {m : Nat} {request : PendingRequest}
    (hm : (s.tasks m).replying? = some request) (row : PendingRequest) (hrow : row ∈ s'.manager.pending) :
    row.requestId ≠ request.requestId := by
  obtain ⟨hissued, -, hgone⟩ := h.taken m request hm
  cases hs with
  | fail => exact hgone row (AdapterManager.mem_remove.mp hrow).1
  | release => exact hgone row (AdapterManager.mem_remove.mp hrow).1
  | @dispatch n fresh _ _ _ _ _ _ hid =>
    rcases AdapterManager.mem_insertPending.mp hrow with ⟨hkept, -⟩ | rfl
    · exact hgone row hkept
    · intro heq
      have heq : fresh.1 = request.requestId := heq
      exact hid (heq ▸ hissued)
  | take => exact hgone row (AdapterManager.mem_takePending.mp hrow).1
  | _ => exact hgone row hrow

theorem Owned.step_taken (h : Owned s) (hs : Step s e s') (n : Nat) (request : PendingRequest)
    (hn : (s'.tasks n).replying? = some request) : request.requestId ∈ s'.issued ∧
      s'.manager.replies request.requestId = .empty ∧ ∀ row ∈ s'.manager.pending, row.requestId ≠ request.requestId := by
  rcases hs.replying h.next_absent hn with hold | ⟨hmem, hmanager, -, -⟩
  · exact ⟨hs.issued (h.taken n request hold).1, h.taken_replies hs hold hn, h.taken_pending hs hold⟩
  · refine ⟨hs.issued (h.pending_issued hmem), ?_, ?_⟩
    · rw [hmanager]
      exact h.empty request hmem
    · rw [hmanager]
      exact fun row hrow => (AdapterManager.mem_takePending.mp hrow).2

theorem Owned.step_takenOnce (h : Owned s) (hs : Step s e s') (n m : Nat) (request request' : PendingRequest)
    (hn : (s'.tasks n).replying? = some request) (hm : (s'.tasks m).replying? = some request')
    (hid : request.requestId = request'.requestId) : n = m := by
  by_contra hnm
  rcases hs.replying h.next_absent hn with hn | ⟨hmem, -, -, hothers⟩
  · rcases hs.replying h.next_absent hm with hm | ⟨hmem, -, -, -⟩
    · exact hnm (h.takenOnce n m request request' hn hm hid)
    · exact (h.taken n request hn).2.2 request' hmem hid.symm
  · rw [hothers m (Ne.symm hnm)] at hm
    exact (h.taken m request' hm).2.2 request hmem hid

theorem Owned.step (h : Owned s) (hs : Step s e s') : Owned s' where
  absent := h.step_absent hs
  issued := h.step_issued hs
  distinct := h.step_distinct hs
  owner := h.step_owner hs
  empty := h.step_empty hs
  created := h.step_created hs
  taken := h.step_taken hs
  takenOnce := h.step_takenOnce hs

/-! ## Registration -/

theorem mem_insert {connections : Registry} {connection connection' : AdapterConnection} :
    connection' ∈ connections.insert connection ↔
      connection' ∈ connections ∧ connection'.instanceId ≠ connection.instanceId ∨ connection' = connection := by
  simp [Registry.insert, mem_deleteRows]

theorem mem_disconnectIfCurrent {connections : Registry} {instanceId token : Uuid} {connection : AdapterConnection} :
    connection ∈ connections.disconnectIfCurrent instanceId token ↔ connection ∈ connections ∧
      (connection.instanceId = instanceId → connection.connectionToken ≠ token) := by
  simp [Registry.disconnectIfCurrent, mem_deleteRows]

theorem Fails.condemns {task task' : ManagerTask} {p : PendingRequest → Bool} (h : Fails task p task')
    (row : PendingRequest) : task.condemns row = p row := by
  cases h <;> rfl

theorem setTask_condemns {n : Nat} {task : ManagerTask} {row : PendingRequest} (hn : (s.tasks n).condemns row = false)
    {m : Nat} (hm : (s.tasks m).condemns row = true) : ((s.setTask n task).tasks m).condemns row = true := by
  have hne : m ≠ n := by
    intro heq
    rw [heq, hn] at hm
    exact nomatch hm
  rw [setTask_ne hne, hm]

/-- A request keeps its connection, or its condemnation. -/
theorem Current.kept (h : Current s) {row : PendingRequest} (hrow : row ∈ s.manager.pending)
    (hconnection : ∀ connection ∈ s.manager.connections, connection.connectionToken = row.connectionToken →
      (∃ connection' ∈ s'.manager.connections, connection'.connectionToken = row.connectionToken) ∨
        ∃ n, (s'.tasks n).condemns row = true)
    (hcondemns : ∀ m, (s.tasks m).condemns row = true → (s'.tasks m).condemns row = true) :
    (∃ connection ∈ s'.manager.connections, connection.connectionToken = row.connectionToken) ∨
      ∃ n, (s'.tasks n).condemns row = true := by
  rcases h.current row hrow with ⟨connection, hmem, htoken⟩ | ⟨m, hm⟩
  · exact hconnection connection hmem htoken
  · exact .inr ⟨m, hcondemns m hm⟩

theorem Current.step_keyed (h : Current s) (hs : Step s e s') :
    Keyed AdapterConnection.instanceId s'.manager.connections := by
  cases hs with
  | connect =>
    refine h.keyed.delete.insert fun connection hconnection => ?_
    have hkept := (mem_deleteRows.mp hconnection).2
    simpa using hkept
  | disconnect => exact h.keyed.delete
  | clear => exact keyed_nil
  | touch => exact h.keyed.update fun _ => rfl
  | _ => exact h.keyed

theorem Current.step_current (h : Current s) (ho : Owned s) (hs : Step s e s') (row : PendingRequest)
    (hrow : row ∈ s'.manager.pending) : (∃ connection ∈ s'.manager.connections,
      connection.connectionToken = row.connectionToken) ∨ ∃ n, (s'.tasks n).condemns row = true := by
  cases hs with
  | @start call =>
    have hsame := started_same (fun task => task.condemns row) ho.next_absent (condemns_task call row)
    exact h.kept hrow (fun c hc ht => .inl ⟨c, hc, ht⟩) fun m hm => (hsame m).trans hm
  | other => exact h.current row hrow
  | quiet hn hq =>
    exact h.kept hrow (fun c hc ht => .inl ⟨c, hc, ht⟩) fun m hm => setTask_condemns (hn ▸ hq.condemns row) hm
  | @connect n fresh hello hn =>
    refine h.kept hrow (fun connection hmem htoken => ?_) fun m hm => setTask_condemns (hn ▸ rfl) hm
    by_cases hinstance : connection.instanceId = hello.instanceId
    · -- the connection is replaced, and its requests are the ones to fail
      have hfound : s.manager.findConnection hello.instanceId = some connection :=
        h.keyed.find?_eq_some.mpr ⟨hmem, hinstance⟩
      refine .inr ⟨n, ?_⟩
      rw [setTask_self, replacingPrevious, hfound]
      simpa [condemns] using htoken.symm
    · exact .inl ⟨connection, mem_insert.mpr (.inl ⟨hmem, hinstance⟩), htoken⟩
  | @disconnect n fresh instanceId current hn hfound =>
    refine h.kept hrow (fun connection hmem htoken => ?_) fun m hm => setTask_condemns (hn ▸ rfl) hm
    by_cases hcurrent : connection.instanceId = instanceId → connection.connectionToken ≠ current.connectionToken
    · exact .inl ⟨connection, mem_disconnectIfCurrent.mpr ⟨hmem, hcurrent⟩, htoken⟩
    · push Not at hcurrent
      refine .inr ⟨n, ?_⟩
      rw [setTask_self]
      simpa [condemns] using htoken.symm.trans hcurrent.2
  | @clear n fresh hn => exact .inr ⟨n, by rw [setTask_self]; rfl⟩
  | @fail n fresh task p task' hn hf =>
    obtain ⟨hkept, hp⟩ := AdapterManager.mem_remove.mp hrow
    have hcondemns : (s.tasks n).condemns row = false := by rw [hn, hf.condemns row, hp]
    exact h.kept hkept (fun c hc ht => .inl ⟨c, hc, ht⟩) fun m hm => setTask_condemns hcondemns hm
  | @dispatch n fresh identity connection action resolved envelope hn hid hid' hne hfound =>
    rcases AdapterManager.mem_insertPending.mp hrow with ⟨hkept, -⟩ | rfl
    · exact h.kept hkept (fun c hc ht => .inl ⟨c, hc, ht⟩) fun m hm => setTask_condemns (hn ▸ rfl) hm
    · exact .inl ⟨connection, List.mem_of_find?_eq_some hfound, rfl⟩
  | release hn =>
    have hkept := (AdapterManager.mem_remove.mp hrow).1
    exact h.kept hkept (fun c hc ht => .inl ⟨c, hc, ht⟩) fun m hm => setTask_condemns (hn ▸ rfl) hm
  | @touch n fresh instanceId arrivedOn response hn =>
    refine h.kept hrow (fun connection hmem htoken => .inl ?_) fun m hm => setTask_condemns (hn ▸ rfl) hm
    refine ⟨_, mem_updateRows.mpr ⟨connection, hmem, rfl⟩, ?_⟩
    split_ifs <;> exact htoken
  | take hn =>
    have hkept := (AdapterManager.mem_takePending.mp hrow).1
    exact h.kept hkept (fun c hc ht => .inl ⟨c, hc, ht⟩) fun m hm => setTask_condemns (hn ▸ rfl) hm
  | reply hn => exact h.kept hrow (fun c hc ht => .inl ⟨c, hc, ht⟩) fun m hm => setTask_condemns (hn ▸ rfl) hm

theorem Current.step (h : Current s) (ho : Owned s) (hs : Step s e s') : Current s' :=
  ⟨h.step_keyed hs, h.step_current ho hs⟩

/-- Every registration draws a token of its own. -/
structure Tokens (s : ManagerState) : Prop where
  issued : ∀ token ∈ s.hellos.map Prod.fst, token ∈ s.issued
  nodup : (s.hellos.map Prod.fst).Nodup

theorem Tokens.step (h : Tokens s) (hs : Step s e s') : Tokens s' := by
  cases hs with
  | connect hn hvalid hfresh =>
    constructor
    · intro token htoken
      rcases List.mem_cons.mp htoken with rfl | htoken
      · exact List.mem_cons_self
      · exact List.mem_cons_of_mem _ (h.issued token htoken)
    · exact List.nodup_cons.mpr ⟨fun hmem => hfresh (h.issued _ hmem), h.nodup⟩
  | dispatch =>
    exact ⟨fun token htoken => List.mem_cons_of_mem _ (List.mem_cons_of_mem _ (h.issued token htoken)), h.nodup⟩
  | _ => exact ⟨h.issued, h.nodup⟩

/-! ## Runs -/

theorem Owned.sent (h : Owned s) (hs : Step s e s') {id : Uuid} {result : Except AdapterDispatchErrorKind ActionResult}
    (hsent : s.manager.replies id = .sent result) : s'.manager.replies id = .sent result := by
  have hremove : ∀ p outcome, (s.manager.remove p outcome).replies id = .sent result := by
    intro p outcome
    rw [AdapterManager.remove_replies_of_not_any]
    · exact hsent
    · rintro ⟨row, hrow, -, rfl⟩
      exact nomatch hsent.symm.trans (h.empty row hrow)
  cases hs with
  | fail => exact hremove _ _
  | release => exact hremove _ _
  | @dispatch n fresh _ _ _ _ _ _ hid =>
    have hne : id ≠ fresh.1 := by
      rintro rfl
      refine hid (h.created _ fun hclosed => ?_)
      exact nomatch hsent.symm.trans hclosed
    exact (Function.update_of_ne hne ..).trans hsent
  | @reply n fresh replied arrivedOn response hn =>
    have hne : id ≠ replied.requestId := by
      rintro rfl
      exact nomatch hsent.symm.trans (h.taken n replied (hn ▸ rfl)).2.1
    exact (Function.update_of_ne hne ..).trans hsent
  | _ => exact hsent

theorem Owned.ended (h : Owned s) (hs : Step s e s') {n : Nat} {task : ManagerTask} (hn : s.tasks n = task)
    (hended : task.isEnded = true) (hbegun : task ≠ .absent) : s'.tasks n = task := by
  rcases hs.ended with ⟨call, rfl⟩ | ⟨-, hkept⟩
  · have hne : n ≠ s.calls := by
      rintro rfl
      exact hbegun (hn.symm.trans h.next_absent)
    rw [started_ne hne, hn]
  · rw [hkept n (hn ▸ hended), hn]

end Steps

/-- The bookkeeping of dispatches, at any point of a run and from it on. -/
structure Bookkeeping (s : ManagerState) : Prop where
  /-- With no reconnection in progress, a pending request belongs to a running `execute` and to a
  registered connection. -/
  pending : (∀ n, (s.tasks n).isReconnecting = false) → ∀ row ∈ s.manager.pending,
    (∃ n, (s.tasks n).holds? = some row) ∧
      ∃ connection ∈ s.manager.connections, connection.connectionToken = row.connectionToken
  tokens : (s.hellos.map Prod.fst).Nodup
  /-- Ending a connection removes no other one, the one that replaced it included, and no request of another. -/
  ending : ∀ n fresh instanceId token s', (s.tasks n = .disconnecting instanceId token ∨ s.tasks n = .failing token) →
    s.step (.advance n fresh) = some s' →
      (∀ connection ∈ s.manager.connections, connection.connectionToken ≠ token → connection ∈ s'.manager.connections) ∧
        ∀ row ∈ s.manager.pending, row.connectionToken ≠ token → row ∈ s'.manager.pending
  /-- An `execute` completes once, and is sent one reply. -/
  once : ∀ s', Machine.Reaches step s Machine.Anyhow s' →
    (∀ n request outcome, s.tasks n = .completed request outcome → s'.tasks n = .completed request outcome) ∧
      ∀ id result, s.manager.replies id = .sent result → s'.manager.replies id = .sent result
  /-- A call that has completed or been dropped leaves no request. -/
  finished : ∀ n request, ((∃ outcome, s.tasks n = .completed (some request) outcome) ∨
    s.tasks n = .dropped (some request)) → ∀ row ∈ s.manager.pending, row.requestId ≠ request.requestId

section Runs
variable {s s' : ManagerState} {now : OffsetDateTime} {socketRoom : Nat}

theorem owned_start : Owned (.start now socketRoom) where
  absent _ _ := rfl
  issued _ _ h := nomatch h
  distinct _ _ _ _ h := nomatch h
  owner _ h := nomatch h
  empty _ h := nomatch h
  created _ h := absurd rfl h
  taken _ _ h := nomatch h
  takenOnce _ _ _ _ h := nomatch h

theorem reaches_current (h : Machine.Reaches step (.start now socketRoom) Machine.Anyhow s) :
    Owned s ∧ Current s ∧ Tokens s := by
  have hcurrent : Current (.start now socketRoom) := ⟨keyed_nil, fun _ h => (nomatch h)⟩
  have htokens : Tokens (.start now socketRoom) := ⟨fun _ h => (nomatch h), List.nodup_nil⟩
  refine h.invariant (I := fun s => Owned s ∧ Current s ∧ Tokens s) ⟨owned_start, hcurrent, htokens⟩ ?_
  rintro s e s' ⟨ho, hc, ht⟩ - hstep
  have hs := step_cases hstep
  exact ⟨ho.step hs, hc.step ho hs, ht.step hs⟩

theorem Owned.finished (h : Owned s) {n : Nat} {request : PendingRequest} (hn : (s.tasks n).request? = some request)
    (hheld : (s.tasks n).holds? = none) (row : PendingRequest) (hrow : row ∈ s.manager.pending) :
    row.requestId ≠ request.requestId := by
  intro hid
  obtain ⟨m, hm⟩ := h.owner row hrow
  obtain rfl := h.distinct m n row request (request?_of_holds? hm) hn hid
  exact nomatch hm.symm.trans hheld

theorem disconnect_kept {n : Nat} {fresh : Uuid × Uuid} {instanceId token : Uuid}
    (hn : s.tasks n = .disconnecting instanceId token ∨ s.tasks n = .failing token)
    (hs : s.step (.advance n fresh) = some s') :
    (∀ connection ∈ s.manager.connections, connection.connectionToken ≠ token → connection ∈ s'.manager.connections) ∧
      ∀ row ∈ s.manager.pending, row.connectionToken ≠ token → row ∈ s'.manager.pending := by
  rw [step] at hs
  obtain ⟨⟨task, advanced⟩, hadvance, rfl⟩ := Option.map_eq_some_iff.mp hs
  rcases hn with hn | hn
  · rw [hn, advance, disconnect] at hadvance
    split at hadvance
    · split_ifs at hadvance
      · obtain ⟨-, rfl⟩ := Prod.mk.inj (Option.some.inj hadvance)
        exact ⟨fun connection hmem hne => mem_disconnectIfCurrent.mpr ⟨hmem, fun _ => hne⟩, fun row hrow _ => hrow⟩
      · obtain ⟨-, rfl⟩ := Prod.mk.inj (Option.some.inj hadvance)
        exact ⟨fun _ hmem _ => hmem, fun _ hrow _ => hrow⟩
    · obtain ⟨-, rfl⟩ := Prod.mk.inj (Option.some.inj hadvance)
      exact ⟨fun _ hmem _ => hmem, fun _ hrow _ => hrow⟩
  · rw [hn, advance] at hadvance
    obtain ⟨-, rfl⟩ := Prod.mk.inj (Option.some.inj hadvance)
    refine ⟨fun _ hmem _ => hmem, fun row hrow hne => ?_⟩
    exact AdapterManager.mem_remove.mpr ⟨hrow, beq_eq_false_iff_ne.mpr hne⟩

theorem reaches_bookkeeping (h : Machine.Reaches step (.start now socketRoom) Machine.Anyhow s) : Bookkeeping s := by
  obtain ⟨ho, hc, ht⟩ := reaches_current h
  constructor
  · intro hquiet row hrow
    refine ⟨ho.owner row hrow, ?_⟩
    rcases hc.current row hrow with hconnection | ⟨n, hn⟩
    · exact hconnection
    · exact nomatch (hquiet n).symm.trans (isReconnecting_of_condemns hn)
  · exact ht.nodup
  · intro n fresh instanceId token s' hn hs
    exact disconnect_kept hn hs
  · intro s' hlater
    have hkept := hlater.invariant (I := fun s' => Owned s' ∧
      (∀ n request outcome, s.tasks n = .completed request outcome → s'.tasks n = .completed request outcome) ∧
        ∀ id result, s.manager.replies id = .sent result → s'.manager.replies id = .sent result)
      ⟨ho, fun _ _ _ hn => hn, fun _ _ hsent => hsent⟩ (by
        rintro d e d' ⟨hd, htasks, hreplies⟩ - hstep
        have hs := step_cases hstep
        refine ⟨hd.step hs, fun n request outcome hn => ?_, fun id result hsent => ?_⟩
        · exact hd.ended hs (htasks n request outcome hn) rfl (fun heq => nomatch heq)
        · exact hd.sent hs (hreplies id result hsent))
    exact hkept.2
  · rintro n request (⟨outcome, hn⟩ | hn)
    · exact ho.finished (by rw [hn]; rfl) (by rw [hn]; rfl)
    · exact ho.finished (by rw [hn]; rfl) (by rw [hn]; rfl)

end Runs
end ManagerState

/-! ## A reconnection -/

namespace Sample

/-- The adapter registers, and a dispatch to it comes to wait for the reply. -/
def dispatched : List ManagerEvent :=
  [.start (.register hello), .advance 0 (10, 0), .start (.execute (notify now) none), .advance 1 (0, 0),
    .advance 1 (20, 21), .advance 1 (0, 0)]

/-- The adapter registers again; the requests of its first connection are yet to be failed. -/
def reconnecting : List ManagerEvent := dispatched ++ [.start (.register hello), .advance 2 (11, 0)]

end Sample

theorem reaches_bookkeeping_reconnecting : ∃ s : ManagerState,
    Machine.Reaches ManagerState.step (.start ⟨0, 0⟩ 4) Machine.Anyhow s ∧
      s.manager.pending.map (·.connectionToken) = [10] ∧
        s.manager.connections.map (·.connectionToken) = [11] ∧ ManagerState.Bookkeeping s := by
  have hrun : (Machine.exec ManagerState.step (.start ⟨0, 0⟩ 4) Sample.reconnecting).map (fun s =>
      (s.manager.pending.map (·.connectionToken), s.manager.connections.map (·.connectionToken))) =
      some ([10], [11]) := by decide +kernel
  obtain ⟨s, hs, hproj⟩ := Option.map_eq_some_iff.mp hrun
  have hreach : Machine.Reaches ManagerState.step (.start ⟨0, 0⟩ 4) Machine.Anyhow s := Machine.Reaches.init.exec hs
  obtain ⟨hpending, hconnections⟩ := Prod.mk.inj hproj
  exact ⟨s, hreach, hpending, hconnections, ManagerState.reaches_bookkeeping hreach⟩

end Fubun

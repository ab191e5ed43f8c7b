import Fubun.Manager.Bookkeeping

/-! Which connection answers a dispatch. `resolve` goes by the request id alone, so the outcome of a
dispatch comes from the connection it was sent to only as long as no other one names its id. -/

namespace Fubun
open Relational Concurrency

def ManagerTask.resolving? : ManagerTask → Option (Uuid × AdapterResponseEnvelope)
  | .finding arrivedOn response | .touching _ arrivedOn response | .taking arrivedOn response
  | .replying _ arrivedOn response => some (arrivedOn, response)
  | _ => none

/-- An outcome that a response has brought: a result, or a protocol error. -/
def isAnswer : Except DispatchedActionError DispatchedActionResult → Bool
  | .ok _ => true
  | .error error => error.kind == .protocol

namespace ManagerState
open ManagerTask

/-- A `resolve` takes a request out only for the connection that was asked. -/
def fromSelected (s : ManagerState) : ManagerEvent → Bool
  | .advance n _ =>
    match s.tasks n with
    | .taking arrivedOn response =>
      (s.manager.findPending response.requestId).all fun request => request.connectionToken == arrivedOn
    | _ => true
  | _ => true

abbrev FromSelected (s : ManagerState) (e : ManagerEvent) : Prop := s.fromSelected e = true

/-- The outcome of a request comes from a response on the connection that was asked. -/
def Determined (s : ManagerState) (request : PendingRequest)
    (outcome : Except DispatchedActionError DispatchedActionResult) : Prop :=
  ∃ response, (request.connectionToken, response) ∈ s.arrivals ∧ response.requestId = request.requestId ∧
    request.outcome (.sent (request.verdict response)) = some outcome

/-- The identity is the one of the hello that registered the connection. -/
def Named (s : ManagerState) (token : Uuid) (identity : EligibleAdapter) : Prop :=
  ∃ hello, (token, hello) ∈ s.hellos ∧ identity = ⟨hello.adapterId, hello.instanceId⟩

/-- What a oneshot has been sent is a disconnection, or a response of the connection that was asked. -/
def Answers (s : ManagerState) (id : Uuid) (result : Except AdapterDispatchErrorKind ActionResult) : Prop :=
  result = .error .disconnected ∨ ∃ m request response, (s.tasks m).request? = some request ∧
    request.requestId = id ∧ (request.connectionToken, response) ∈ s.arrivals ∧ response.requestId = id ∧
      result = request.verdict response

section Steps
variable {s s' : ManagerState} {e : ManagerEvent} {n : Nat} {task task' : ManagerTask} {request : PendingRequest}

theorem Step.arrivals (h : Step s e s') : s.arrivals ⊆ s'.arrivals := by
  cases h with
  | @start call =>
    cases call with
    | resolve => exact List.subset_cons_self _ _
    | _ => exact List.Subset.refl _
  | _ => exact List.Subset.refl _

theorem Step.hellos (h : Step s e s') : s.hellos ⊆ s'.hellos := by
  cases h with
  | connect => exact List.subset_cons_self _ _
  | _ => exact List.Subset.refl _

theorem Step.request_kept (h : Step s e s') (habsent : s.tasks s.calls = .absent) {m : Nat}
    (hm : (s.tasks m).request? = some request) : (s'.tasks m).request? = some request := by
  rcases h.requests habsent with hsame | ⟨n, fresh, -, hnone, hothers, -⟩
  · exact (hsame m).trans hm
  · have hne : m ≠ n := by
      rintro rfl
      exact nomatch hm.symm.trans hnone
    rw [hothers m hne, hm]

theorem Quiet.resolving? (h : Quiet s task task') :
    task'.resolving? = task.resolving? ∨ task'.resolving? = none := by
  cases h <;> first | exact .inl rfl | exact .inr rfl

theorem selectEligible_ok {requirements : AdapterRequirements} {connections : Registry} {identity : EligibleAdapter}
    {token : Uuid} (h : connections.selectEligible requirements = .ok (identity, token)) :
    ∃ connection ∈ connections, connection.connectionToken = token ∧
      identity = ⟨connection.hello.adapterId, connection.hello.instanceId⟩ := by
  unfold Registry.selectEligible at h
  split_ifs at h
  dsimp only at h
  split at h
  · rename_i candidate rest hcandidates
    have hmem : candidate ∈ orderBy (fun a b => decide (a.1.instanceId ≤ b.1.instanceId))
        ((connections.filter (connectionSatisfies · requirements)).map fun connection =>
          (EligibleAdapter.mk connection.hello.adapterId connection.instanceId, connection.connectionToken)) := by
      rw [hcandidates]
      exact List.mem_cons_self
    obtain ⟨connection, hconnection, rfl⟩ := List.mem_map.mp (mem_orderBy.mp hmem)
    obtain ⟨hidentity, htoken⟩ := Prod.mk.inj (Except.ok.inj h)
    exact ⟨connection, (List.mem_filter.mp hconnection).1, htoken, hidentity.symm⟩
  · exact nomatch h

theorem Named.mono {token : Uuid} {identity : EligibleAdapter} (h : Named s token identity) (hs : Step s e s') :
    Named s' token identity := by
  obtain ⟨hello, hmem, hidentity⟩ := h
  exact ⟨hello, hs.hellos hmem, hidentity⟩

theorem Determined.mono {outcome : Except DispatchedActionError DispatchedActionResult}
    (h : Determined s request outcome) (hs : Step s e s') : Determined s' request outcome := by
  obtain ⟨response, hmem, hrest⟩ := h
  exact ⟨response, hs.arrivals hmem, hrest⟩

theorem Answers.mono {id : Uuid} {result : Except AdapterDispatchErrorKind ActionResult} (h : Answers s id result)
    (habsent : s.tasks s.calls = .absent) (hs : Step s e s') : Answers s' id result := by
  rcases h with hdisconnected | ⟨m, request, response, hm, hid, hmem, hrest⟩
  · exact .inl hdisconnected
  · exact .inr ⟨m, request, response, hs.request_kept habsent hm, hid, hs.arrivals hmem, hrest⟩

/-! ## Identities -/

/-- The identity beside a token is the one that registered it, in the registry and in every dispatch. -/
structure Identified (s : ManagerState) : Prop where
  registry : ∀ connection ∈ s.manager.connections, (connection.connectionToken, connection.hello) ∈ s.hellos
  selected : ∀ n identity token action resolved, s.tasks n = .inserting identity token action resolved →
    Named s token identity
  dispatched : ∀ n request, (s.tasks n).request? = some request → Named s request.connectionToken request.identity

theorem identified_start (now : OffsetDateTime) (socketRoom : Nat) : Identified (.start now socketRoom) :=
  ⟨fun _ h => (nomatch h), fun _ _ _ _ _ h => (nomatch h), fun _ _ h => (nomatch h)⟩

theorem Identified.step_registry (h : Identified s) (hs : Step s e s') (connection : AdapterConnection)
    (hmem : connection ∈ s'.manager.connections) : (connection.connectionToken, connection.hello) ∈ s'.hellos := by
  cases hs with
  | connect =>
    rcases mem_insert.mp hmem with ⟨hkept, -⟩ | rfl
    · exact List.mem_cons_of_mem _ (h.registry connection hkept)
    · exact List.mem_cons_self
  | disconnect => exact h.registry connection (mem_disconnectIfCurrent.mp hmem).1
  | clear => exact nomatch hmem
  | touch =>
    obtain ⟨touched, hkept, rfl⟩ := mem_updateRows.mp hmem
    have hregistered := h.registry touched hkept
    split_ifs <;> exact hregistered
  | _ => exact h.registry connection hmem

theorem Moves.inserting {identity : EligibleAdapter} {token : Uuid} {action : ActionSpec}
    {resolved : Option ResolvedResource} (h : Moves s n e task (.inserting identity token action resolved)) :
    s.manager.connections.selectEligible (.fromAction action) = .ok (identity, token) := by
  cases h with
  | fail hf => cases hf
  | quiet hq =>
    cases hq with
    | selected h => exact h

theorem Moves.request? (h : Moves s n e task task') (htask : task'.request? = some request) :
    task.request? = some request ∨
      ∃ action resolved, task = .inserting request.identity request.connectionToken action resolved := by
  cases h with
  | quiet hq => exact .inl (hq.request?.symm.trans htask)
  | fail hf => exact .inl (hf.quiet.1.trans (hf.quiet.2.1.symm.trans htask))
  | @dispatch identity connection action resolved =>
    obtain rfl := Option.some.inj htask
    exact .inr ⟨action, resolved, rfl⟩
  | replace => exact nomatch htask
  | register => exact nomatch htask
  | disconnect => exact nomatch htask
  | clear => exact nomatch htask
  | abandon => exact .inl htask
  | drop => exact .inl htask
  | touch => exact nomatch htask
  | take => exact nomatch htask
  | reply => exact nomatch htask

theorem Identified.select (h : Identified s) {action : ActionSpec} {identity : EligibleAdapter} {token : Uuid}
    (hselected : s.manager.connections.selectEligible (.fromAction action) = .ok (identity, token)) :
    Named s token identity := by
  obtain ⟨connection, hmem, rfl, hidentity⟩ := selectEligible_ok hselected
  exact ⟨connection.hello, h.registry connection hmem, hidentity⟩

theorem Identified.step_selected (h : Identified s) (hs : Step s e s') (identity : EligibleAdapter) (token : Uuid)
    (action : ActionSpec) (resolved : Option ResolvedResource)
    (hn : s'.tasks n = .inserting identity token action resolved) : Named s token identity := by
  rcases hs.moved n with ⟨call, -, hcall⟩ | hsame | hmove
  · rw [hcall] at hn
    cases call <;> exact nomatch hn
  · exact h.selected n identity token action resolved (hsame ▸ hn)
  · rw [hn] at hmove
    exact h.select hmove.inserting

theorem Identified.step_dispatched (h : Identified s) (hs : Step s e s')
    (request : PendingRequest) (hn : (s'.tasks n).request? = some request) :
    Named s request.connectionToken request.identity := by
  rcases hs.moved n with ⟨call, -, hcall⟩ | hsame | hmove
  · rw [hcall, request?_task] at hn
    exact nomatch hn
  · exact h.dispatched n request (hsame ▸ hn)
  · rcases hmove.request? hn with hold | ⟨action, resolved, hinserting⟩
    · exact h.dispatched n request hold
    · exact h.selected n _ _ action resolved hinserting

theorem Identified.step (h : Identified s) (hs : Step s e s') : Identified s' where
  registry := h.step_registry hs
  selected _ identity token action resolved hn := (h.step_selected hs identity token action resolved hn).mono hs
  dispatched _ request hn := (h.step_dispatched hs request hn).mono hs

/-! ## Answers -/

/-- Where every response that is taken is one of the connection that was asked, every outcome is. -/
structure Answered (s : ManagerState) : Prop where
  arrived : ∀ n arrival, (s.tasks n).resolving? = some arrival → arrival ∈ s.arrivals
  replying : ∀ n request arrivedOn response, s.tasks n = .replying request arrivedOn response →
    request.connectionToken = arrivedOn ∧ response.requestId = request.requestId ∧
      ∃ m, (s.tasks m).request? = some request
  sent : ∀ id result, s.manager.replies id = .sent result → Answers s id result
  failed : ∀ n request kind, s.tasks n = .releasing request (some kind) → kind ≠ .protocol
  completed : ∀ n request outcome, s.tasks n = .completed (some request) outcome → isAnswer outcome = true →
    Determined s request outcome

theorem Moves.resolving? (h : Moves s n e task task') {arrival : Uuid × AdapterResponseEnvelope}
    (htask : task'.resolving? = some arrival) : task.resolving? = some arrival := by
  cases h with
  | quiet hq =>
    rcases hq.resolving? with hsame | hnone
    · exact hsame.symm.trans htask
    · exact nomatch hnone.symm.trans htask
  | fail hf => cases hf <;> exact nomatch htask
  | touch => exact htask
  | take => exact htask
  | _ => exact nomatch htask

theorem Answered.step_arrived (h : Answered s) (hs : Step s e s') (arrival : Uuid × AdapterResponseEnvelope)
    (hn : (s'.tasks n).resolving? = some arrival) : arrival ∈ s'.arrivals := by
  rcases hs.moved n with ⟨call, rfl, hcall⟩ | hsame | hmove
  · rw [hcall] at hn
    cases call with
    | resolve arrivedOn response =>
      obtain rfl := Option.some.inj hn
      exact List.mem_cons_self
    | _ => exact nomatch hn
  · exact hs.arrivals (h.arrived n arrival (hsame ▸ hn))
  · exact hs.arrivals (h.arrived n arrival (hmove.resolving? hn))

theorem Moves.replying {arrivedOn : Uuid} {response : AdapterResponseEnvelope}
    (h : Moves s n e task (.replying request arrivedOn response)) :
    task = .taking arrivedOn response ∧ s.manager.findPending response.requestId = some request ∧
      ∃ fresh, e = .advance n fresh := by
  cases h with
  | fail hf => cases hf
  | take hfound => exact ⟨rfl, hfound, _, rfl⟩
  | quiet hq => cases hq

theorem Answered.step_replying (h : Answered s) (ho : Owned s) (hok : FromSelected s e) (hs : Step s e s')
    (request : PendingRequest) (arrivedOn : Uuid) (response : AdapterResponseEnvelope)
    (hn : s'.tasks n = .replying request arrivedOn response) :
    request.connectionToken = arrivedOn ∧ response.requestId = request.requestId ∧
      ∃ m, (s'.tasks m).request? = some request := by
  have hkept : s.tasks n = .replying request arrivedOn response → request.connectionToken = arrivedOn ∧
      response.requestId = request.requestId ∧ ∃ m, (s'.tasks m).request? = some request := by
    intro hold
    obtain ⟨htoken, hid, m, hm⟩ := h.replying n request arrivedOn response hold
    exact ⟨htoken, hid, m, hs.request_kept ho.next_absent hm⟩
  rcases hs.moved n with ⟨call, -, hcall⟩ | hsame | hmove
  · rw [hcall] at hn
    cases call <;> exact nomatch hn
  · exact hkept (hsame ▸ hn)
  · rw [hn] at hmove
    obtain ⟨htaking, hfound, fresh, rfl⟩ := hmove.replying
    obtain ⟨hmem, hid⟩ := AdapterManager.findPending_eq_some hfound
    obtain ⟨m, hm⟩ := ho.owner request hmem
    have htoken : request.connectionToken = arrivedOn := by
      simpa [FromSelected, fromSelected, htaking, hfound] using hok
    exact ⟨htoken, hid.symm, m, hs.request_kept ho.next_absent (request?_of_holds? hm)⟩

theorem Answered.step_sent (h : Answered s) (ho : Owned s) (hs : Step s e s') (id : Uuid)
    (result : Except AdapterDispatchErrorKind ActionResult) (hsent : s'.manager.replies id = .sent result) :
    Answers s' id result := by
  have hkept : s.manager.replies id = .sent result → Answers s' id result :=
    fun hold => (h.sent id result hold).mono ho.next_absent hs
  have hremove : ∀ p outcome, (∀ r, outcome = .sent r → r = .error .disconnected) →
      (s.manager.remove p outcome).replies id = .sent result → Answers s' id result := by
    intro p outcome houtcome hremoved
    by_cases hany : ∃ row ∈ s.manager.pending, p row = true ∧ row.requestId = id
    · rw [AdapterManager.remove_replies_of_any hany] at hremoved
      exact .inl (houtcome result hremoved)
    · rw [AdapterManager.remove_replies_of_not_any hany] at hremoved
      exact hkept hremoved
  cases hs with
  | fail => exact hremove _ _ (fun r hr => (Oneshot.sent.inj hr).symm) hsent
  | release => exact hremove _ .closed (fun r hr => (nomatch hr)) hsent
  | @dispatch n fresh =>
    by_cases hid : id = fresh.1
    · subst hid
      have hempty : Oneshot.empty = .sent result := (Function.update_self ..).symm.trans hsent
      exact nomatch hempty
    · exact hkept ((Function.update_of_ne hid ..).symm.trans hsent)
  | @reply n fresh request arrivedOn response hn =>
    by_cases hid : id = request.requestId
    · subst hid
      have hverdict : Oneshot.sent (request.verdict response) = .sent result :=
        (Function.update_self ..).symm.trans hsent
      obtain ⟨rfl, hid, m, hm⟩ := h.replying n request arrivedOn response hn
      have harrived := h.arrived n _ (congrArg resolving? hn)
      have hstep : Step s (.advance n fresh) _ := .reply hn
      have hm' := hstep.request_kept ho.next_absent hm
      exact .inr ⟨m, request, response, hm', rfl, harrived, hid, (Oneshot.sent.inj hverdict).symm⟩
    · exact hkept ((Function.update_of_ne hid ..).symm.trans hsent)
  | _ => exact hkept hsent

theorem Moves.releasing {kind : AdapterDispatchErrorKind} (h : Moves s n e task (.releasing request (some kind))) :
    kind ≠ .protocol := by
  cases h with
  | fail hf => cases hf
  | quiet hq =>
    cases hq with
    | undelivered => decide
    | timedOut => decide

theorem Answered.step_failed (h : Answered s) (hs : Step s e s') (request : PendingRequest)
    (kind : AdapterDispatchErrorKind) (hn : s'.tasks n = .releasing request (some kind)) : kind ≠ .protocol := by
  rcases hs.moved n with ⟨call, -, hcall⟩ | hsame | hmove
  · rw [hcall] at hn
    cases call <;> exact nomatch hn
  · exact h.failed n request kind (hsame ▸ hn)
  · rw [hn] at hmove
    exact hmove.releasing

/-- A call with a request completes with what its oneshot holds, or with an error of its own. -/
theorem Moves.completed {outcome : Except DispatchedActionError DispatchedActionResult}
    (h : Moves s n e task (.completed (some request) outcome)) :
    (task = .waiting request ∧ request.outcome (s.manager.replies request.requestId) = some outcome) ∨
      ∃ kind, task = .releasing request (some kind) ∧ outcome = .error ⟨some request.identity, kind⟩ := by
  cases h with
  | fail hf => cases hf
  | abandon => exact .inr ⟨_, rfl, rfl⟩
  | quiet hq =>
    cases hq with
    | answered houtcome => exact .inl ⟨rfl, houtcome⟩

/-- What a waiting call reads from its oneshot is determined by the connection it has asked. -/
theorem Answered.read (h : Answered s) (ho : Owned s) {outcome : Except DispatchedActionError DispatchedActionResult}
    (hn : s.tasks n = .waiting request) (houtcome : request.outcome (s.manager.replies request.requestId) = some outcome)
    (hanswer : isAnswer outcome = true) : Determined s request outcome := by
  cases hreply : s.manager.replies request.requestId with
  | empty =>
    rw [hreply] at houtcome
    exact nomatch houtcome
  | closed =>
    rw [hreply] at houtcome
    obtain rfl := Option.some.inj houtcome
    exact nomatch hanswer
  | sent result =>
    rw [hreply] at houtcome
    rcases h.sent _ result hreply with rfl | ⟨m, request', response, hm, hid, hmem, hresponse, rfl⟩
    · obtain rfl := Option.some.inj houtcome
      exact nomatch hanswer
    · have hrequest : (s.tasks n).request? = some request := by rw [hn]; rfl
      obtain rfl := ho.distinct m n request' request hm hrequest hid
      obtain rfl := Option.some.inj (hm.symm.trans hrequest)
      exact ⟨response, hmem, hresponse, houtcome⟩

theorem Answered.step_completed (h : Answered s) (ho : Owned s) (hs : Step s e s') (request : PendingRequest)
    (outcome : Except DispatchedActionError DispatchedActionResult)
    (hn : s'.tasks n = .completed (some request) outcome) (hanswer : isAnswer outcome = true) :
    Determined s request outcome := by
  rcases hs.moved n with ⟨call, -, hcall⟩ | hsame | hmove
  · rw [hcall] at hn
    cases call <;> exact nomatch hn
  · exact h.completed n request outcome (hsame ▸ hn) hanswer
  · rw [hn] at hmove
    rcases hmove.completed with ⟨hwaiting, houtcome⟩ | ⟨kind, hreleasing, rfl⟩
    · exact h.read ho hwaiting houtcome hanswer
    · have hkind : kind = .protocol := by simpa [isAnswer] using hanswer
      exact absurd hkind (h.failed n request kind hreleasing)

theorem Answered.step (h : Answered s) (ho : Owned s) (hok : FromSelected s e) (hs : Step s e s') : Answered s' where
  arrived _ arrival hn := h.step_arrived hs arrival hn
  replying _ request arrivedOn response hn := h.step_replying ho hok hs request arrivedOn response hn
  sent id result hsent := h.step_sent ho hs id result hsent
  failed _ request kind hn := h.step_failed hs request kind hn
  completed _ request outcome hn hanswer := (h.step_completed ho hs request outcome hn hanswer).mono hs

theorem Answered.resolve_kept (h : Answered s) (ho : Owned s) {fresh : Uuid × Uuid} {arrivedOn : Uuid}
    {response : AdapterResponseEnvelope} (hn : (s.tasks n).resolving? = some (arrivedOn, response))
    (hok : FromSelected s (.advance n fresh)) (hs : s.step (.advance n fresh) = some s') {m : Nat}
    (hm : (s.tasks m).request? = some request) (htoken : request.connectionToken ≠ arrivedOn) :
    (request ∈ s.manager.pending → request ∈ s'.manager.pending) ∧
      s'.manager.replies request.requestId = s.manager.replies request.requestId := by
  rw [ManagerState.step] at hs
  obtain ⟨⟨task, advanced⟩, hadvance, rfl⟩ := Option.map_eq_some_iff.mp hs
  cases htask : s.tasks n with
  | finding on r =>
    rw [htask, advance] at hadvance
    obtain ⟨-, rfl⟩ := Prod.mk.inj (Option.some.inj hadvance)
    exact ⟨fun hmem => hmem, rfl⟩
  | touching instanceId on r =>
    rw [htask, advance] at hadvance
    obtain ⟨-, rfl⟩ := Prod.mk.inj (Option.some.inj hadvance)
    exact ⟨fun hmem => hmem, rfl⟩
  | taking on r =>
    rw [htask] at hn
    obtain ⟨rfl, rfl⟩ := Prod.mk.inj (Option.some.inj hn)
    rw [htask, advance] at hadvance
    cases hfound : s.manager.findPending r.requestId with
    | none =>
      rw [hfound] at hadvance
      obtain ⟨-, rfl⟩ := Prod.mk.inj (Option.some.inj hadvance)
      exact ⟨fun hmem => hmem, rfl⟩
    | some taken =>
      rw [hfound] at hadvance
      obtain ⟨-, rfl⟩ := Prod.mk.inj (Option.some.inj hadvance)
      refine ⟨fun hmem => AdapterManager.mem_takePending.mpr ⟨hmem, fun hid => ?_⟩, rfl⟩
      -- a request under the same id would be the one that is taken, and that is of this connection
      obtain ⟨htaken, hid'⟩ := AdapterManager.findPending_eq_some hfound
      obtain rfl := ho.pending_unique hmem htaken (hid.trans hid'.symm)
      exact htoken (by simpa [FromSelected, fromSelected, htask, hfound] using hok)
  | replying replied on r =>
    rw [htask] at hn
    obtain ⟨rfl, rfl⟩ := Prod.mk.inj (Option.some.inj hn)
    rw [htask, advance] at hadvance
    obtain ⟨-, rfl⟩ := Prod.mk.inj (Option.some.inj hadvance)
    refine ⟨fun hmem => hmem, Function.update_of_ne (fun hid => ?_) ..⟩
    obtain ⟨hreplied, -, k, hk⟩ := h.replying n replied on r htask
    obtain rfl := ho.distinct m k request replied hm hk hid
    obtain rfl := Option.some.inj (hm.symm.trans hk)
    exact htoken hreplied
  | _ => simp [htask, resolving?] at hn

end Steps

section Runs
variable {s : ManagerState} {now : OffsetDateTime} {socketRoom : Nat}

theorem answered_start : Answered (.start now socketRoom) where
  arrived _ _ h := nomatch h
  replying _ _ _ _ h := nomatch h
  sent _ _ h := nomatch h
  failed _ _ _ h := nomatch h
  completed _ _ _ h := nomatch h

theorem reaches_answered (h : Machine.Reaches step (.start now socketRoom) FromSelected s) :
    Owned s ∧ Identified s ∧ Answered s := by
  refine h.invariant (I := fun s => Owned s ∧ Identified s ∧ Answered s)
    ⟨owned_start, identified_start now socketRoom, answered_start⟩ ?_
  rintro s e s' ⟨ho, hi, ha⟩ hok hstep
  have hs := step_cases hstep
  exact ⟨ho.step hs, hi.step hs, ha.step ho hok hs⟩

/-- Where a response is taken only for the connection that was asked, the outcome of a dispatch comes
from that connection, whose adapter it names, and no response of another one has any part in it. -/
theorem determined_by_selected (h : Machine.Reaches step (.start now socketRoom) FromSelected s) :
    (∀ n request outcome, s.tasks n = .completed (some request) outcome → isAnswer outcome = true →
      Determined s request outcome ∧ Named s request.connectionToken request.identity) ∧
    ∀ n fresh arrivedOn response s', (s.tasks n).resolving? = some (arrivedOn, response) →
      FromSelected s (.advance n fresh) → s.step (.advance n fresh) = some s' →
        ∀ m request, (s.tasks m).request? = some request → request.connectionToken ≠ arrivedOn →
          (request ∈ s.manager.pending → request ∈ s'.manager.pending) ∧
            s'.manager.replies request.requestId = s.manager.replies request.requestId := by
  obtain ⟨ho, hi, ha⟩ := reaches_answered h
  constructor
  · intro n request outcome hn hanswer
    have hrequest : (s.tasks n).request? = some request := by rw [hn]; rfl
    exact ⟨ha.completed n request outcome hn hanswer, hi.dispatched n request hrequest⟩
  · intro n fresh arrivedOn response s' hn hok hs m request hm htoken
    exact ha.resolve_kept ho hn hok hs hm htoken

end Runs
end ManagerState

/-! ## Two adapters -/

namespace Sample

def otherHello : AdapterHello := { hello with instanceId := 102 }

def shownNotification : ActionResult := ⟨.succeeded, "notification_shown", "notification was shown"⟩

/-- The other adapter registers, and a response to the dispatch arrives on the connection `token`. -/
def responding (token : Uuid) : List ManagerEvent :=
  dispatched ++ [.start (.register otherHello), .advance 2 (11, 0),
    .start (.resolve token ⟨currentProtocolVersion, 20, 21, .actionResult shownNotification⟩),
    .advance 3 (0, 0), .advance 3 (0, 0), .advance 3 (0, 0), .advance 3 (0, 0), .advance 1 (0, 0)]

end Sample

def ManagerTask.completed? : ManagerTask →
    Option (PendingRequest × Except DispatchedActionError DispatchedActionResult)
  | .completed (some request) outcome => some (request, outcome)
  | _ => none

theorem ManagerTask.completed?_eq_some {task : ManagerTask} {request : PendingRequest}
    {outcome : Except DispatchedActionError DispatchedActionResult} (h : task.completed? = some (request, outcome)) :
    task = .completed (some request) outcome := by
  unfold completed? at h
  split at h
  · obtain ⟨rfl, rfl⟩ := Prod.mk.inj (Option.some.inj h)
    rfl
  · exact nomatch h

theorem determined_by_selected_sample : ∃ s request outcome,
    Machine.Reaches ManagerState.step (.start ⟨0, 0⟩ 4) ManagerState.FromSelected s ∧
      s.tasks 1 = .completed (some request) outcome ∧ isAnswer outcome = true ∧
        (∀ n request outcome, s.tasks n = .completed (some request) outcome → isAnswer outcome = true →
          s.Determined request outcome ∧ s.Named request.connectionToken request.identity) := by
  have hrun : (Machine.execIf ManagerState.step ManagerState.FromSelected (.start ⟨0, 0⟩ 4)
      (Sample.responding 10)).map (fun s => (s.tasks 1).completed?) =
      some (some (⟨20, ⟨linuxAdapterId, 100⟩, 10, 21⟩, .ok ⟨⟨linuxAdapterId, 100⟩, Sample.shownNotification⟩)) := by
    decide +kernel
  obtain ⟨s, hs, hcompleted⟩ := Option.map_eq_some_iff.mp hrun
  have hreach : Machine.Reaches ManagerState.step (.start ⟨0, 0⟩ 4) ManagerState.FromSelected s :=
    Machine.Reaches.init.execIf hs
  exact ⟨s, _, _, hreach, ManagerTask.completed?_eq_some hcompleted, rfl,
    (ManagerState.determined_by_selected hreach).1⟩

/-- The other adapter answers a dispatch that was not sent to it, and its result is recorded as the first one's. -/
theorem determined_by_another : ¬ ∀ s, Machine.Reaches ManagerState.step (.start ⟨0, 0⟩ 4) Machine.Anyhow s →
    ∀ n request outcome, s.tasks n = .completed (some request) outcome → isAnswer outcome = true →
      s.Determined request outcome ∧ s.Named request.connectionToken request.identity := by
  intro hall
  have hrun : (Machine.exec ManagerState.step (.start ⟨0, 0⟩ 4) (Sample.responding 11)).map (fun s =>
      ((s.tasks 1).completed?, s.arrivals.map Prod.fst)) =
      some (some (⟨20, ⟨linuxAdapterId, 100⟩, 10, 21⟩,
        .ok ⟨⟨linuxAdapterId, 100⟩, Sample.shownNotification⟩), [11]) := by decide +kernel
  obtain ⟨s, hs, hproj⟩ := Option.map_eq_some_iff.mp hrun
  obtain ⟨hcompleted, harrivals⟩ := Prod.mk.inj hproj
  have hreach : Machine.Reaches ManagerState.step (.start ⟨0, 0⟩ 4) Machine.Anyhow s := Machine.Reaches.init.exec hs
  obtain ⟨⟨response, hmem, -⟩, -⟩ := hall s hreach 1 _ _ (ManagerTask.completed?_eq_some hcompleted) rfl
  have htoken := List.mem_map_of_mem (f := Prod.fst) hmem
  rw [harrivals] at htoken
  have hother : (10 : Uuid) ≠ 11 := by decide
  exact hother (List.mem_singleton.mp htoken)

end Fubun

import Fubun.Bridge.Silence
import Fubun.Relational.Settlement

/-! Requests of a bridge and what becomes of them: each promise is settled at most once, and only the
answer to a request fulfils it. -/

namespace Fubun.Bridge
open Encoding Relational

variable {κ φ ν η : Type}

def BridgeEntry.promise? : BridgeEntry → Option NativePromise
  | .settled promise _ => some promise
  | _ => none

/-- The promises that were settled, in order, with repetitions. -/
def settledPromises (log : List BridgeEntry) : List NativePromise := log.filterMap BridgeEntry.promise?

def fulfilments (log : List BridgeEntry) : List (NativePromise × Option Json) :=
  log.filterMap fun
    | .settled promise (.fulfilled payload) => some (promise, payload)
    | _ => none

theorem settledPromises_rejected (pending : List PendingNativeRequest) (error : Thrown) :
    settledPromises (pending.map fun request => .settled request.promise (.rejected error)) = pending.map (·.promise) := by
  rw [settledPromises, List.filterMap_map]
  exact congrFun List.filterMap_eq_map' pending

theorem fulfilments_rejected (pending : List PendingNativeRequest) (error : Thrown) :
    fulfilments (pending.map fun request => .settled request.promise (.rejected error)) = [] := by
  rw [fulfilments, List.filterMap_map]
  exact List.filterMap_none pending

@[simp] theorem settledPromises_append (log more : List BridgeEntry) :
    settledPromises (log ++ more) = settledPromises log ++ settledPromises more := List.filterMap_append

@[simp] theorem fulfilments_append (log more : List BridgeEntry) :
    fulfilments (log ++ more) = fulfilments log ++ fulfilments more := List.filterMap_append

theorem mem_fulfilments {log : List BridgeEntry} {promise : NativePromise} {payload : Option Json} :
    (promise, payload) ∈ fulfilments log ↔ .settled promise (.fulfilled payload) ∈ log := by
  constructor
  · intro h
    obtain ⟨entry, hentry, heq⟩ := List.mem_filterMap.mp h
    rcases entry with _ | _ | _ | ⟨promise', payload' | error⟩
    case settled.fulfilled =>
      obtain ⟨rfl, rfl⟩ := Prod.mk.inj (Option.some.inj heq)
      exact hentry
    all_goals exact nomatch heq
  · exact fun h => List.mem_filterMap.mpr ⟨_, h, rfl⟩

theorem mem_settledPromises {log : List BridgeEntry} {promise : NativePromise} {settlement : Settlement}
    (h : .settled promise settlement ∈ log) : promise ∈ settledPromises log :=
  List.mem_filterMap.mpr ⟨_, h, rfl⟩

theorem PendingNativeRequest.outcome_cases (request : PendingNativeRequest) (message : NativeEnvelope) :
    (∃ error, request.outcome message = .rejected error) ∨
      (message.type = request.expectedType ∧ request.outcome message = .fulfilled message.payload) := by
  unfold outcome
  split_ifs with herror htype
  · exact .inl ⟨_, rfl⟩
  · exact .inl ⟨_, rfl⟩
  · exact .inr ⟨not_not.mp htype, rfl⟩

def BridgeTask.isMade : BridgeTask φ ν → Bool
  | .waiting .. | .ended _ => true
  | _ => false

def BridgeTask.isUnderway : BridgeTask φ ν → Bool
  | .absent | .waiting .. | .ended _ => false
  | _ => true

def Attempt.isMade : Attempt → Bool
  | .greeting .. | .ended _ => true
  | _ => false

theorem BridgeTask.not_isMade {task : BridgeTask φ ν} (h : task.isUnderway = true) : task.isMade = false := by
  cases task <;> first | rfl | exact nomatch h

def Made (tasks : Nat → BridgeTask φ ν) (attempts : Nat → Attempt) : NativePromise → Prop
  | .call n => (tasks n).isMade = true
  | .hello n => (attempts n).isMade = true

/-- The promises of the pending map and of the log, and the calls that they belong to. -/
structure Corresponds (o : NativeBridgeOptions κ φ ν η) (pending : List PendingNativeRequest) (calls : Nat)
    (tasks : Nat → BridgeTask φ ν) (attempts : Nat → Attempt) (log : List BridgeEntry) : Prop where
  keyed : Keyed PendingNativeRequest.requestId pending
  promises : Settles (Made tasks attempts) (pending.map (·.promise)) (settledPromises log)
  bounded : pending.length ≤ o.maxPending
  asked : ∀ request ∈ pending, ∀ n, request.promise = .call n →
    ∃ prepared, tasks n = .waiting prepared request.requestId ∧ request.expectedType = o.expectedType prepared
  beyond : ∀ n, calls ≤ n → tasks n = .absent ∧ attempts n = .absent

namespace Corresponds
variable {o : NativeBridgeOptions κ φ ν η} {pending : List PendingNativeRequest} {calls n : Nat}
  {tasks : Nat → BridgeTask φ ν} {attempts : Nat → Attempt} {log : List BridgeEntry}

theorem lt_of_task (h : Corresponds o pending calls tasks attempts log) (hat : (tasks n).isUnderway = true) :
    n < calls := by
  by_contra hn
  rw [(h.beyond n (Nat.le_of_not_lt hn)).1] at hat
  exact nomatch hat

theorem lt_of_attempt (h : Corresponds o pending calls tasks attempts log) (hat : attempts n ≠ .absent) : n < calls := by
  by_contra hn
  exact hat (h.beyond n (Nat.le_of_not_lt hn)).2

theorem setTask (h : Corresponds o pending calls tasks attempts log) (hn : n < calls) (hat : (tasks n).isMade = false)
    (task : BridgeTask φ ν) : Corresponds o pending calls (Function.update tasks n task) attempts log where
  keyed := h.keyed
  bounded := h.bounded
  promises := by
    apply h.promises.mono
    rintro (m | m) hm
    · have hmn : m ≠ n := by
        rintro rfl
        exact nomatch hat.symm.trans hm
      show (Function.update tasks n task m).isMade = true
      rw [Function.update_of_ne hmn]
      exact hm
    · exact hm
  asked := by
    intro request hr m hm
    obtain ⟨prepared, hwaiting, htype⟩ := h.asked request hr m hm
    have hmn : m ≠ n := by
      rintro rfl
      rw [hwaiting] at hat
      exact nomatch hat
    exact ⟨prepared, (Function.update_of_ne hmn ..).trans hwaiting, htype⟩
  beyond := by
    intro m hm
    obtain ⟨htask, hattempt⟩ := h.beyond m hm
    exact ⟨(Function.update_of_ne (by omega) ..).trans htask, hattempt⟩

theorem setAttempt (h : Corresponds o pending calls tasks attempts log) (hn : n < calls) (attempt : Attempt)
    (hat : (attempts n).isMade = true → attempt.isMade = true) :
    Corresponds o pending calls tasks (Function.update attempts n attempt) log where
  keyed := h.keyed
  bounded := h.bounded
  asked := h.asked
  promises := by
    apply h.promises.mono
    rintro (m | m) hm
    · exact hm
    · show (Function.update attempts n attempt m).isMade = true
      by_cases hmn : m = n
      · subst hmn
        rw [Function.update_self]
        exact hat hm
      · rw [Function.update_of_ne hmn]
        exact hm
  beyond := by
    intro m hm
    obtain ⟨htask, hattempt⟩ := h.beyond m hm
    exact ⟨htask, (Function.update_of_ne (by omega) ..).trans hattempt⟩

theorem countCall (h : Corresponds o pending calls tasks attempts log) :
    Corresponds o pending (calls + 1) tasks attempts log :=
  { h with beyond := fun n hn => h.beyond n (Nat.le_of_succ_le hn) }

theorem record (h : Corresponds o pending calls tasks attempts log) {entry : BridgeEntry} (hentry : entry.promise? = none) :
    Corresponds o pending calls tasks attempts (log ++ [entry]) := by
  have hnone : settledPromises [entry] = [] := List.filterMap_cons_none hentry
  have hsame : settledPromises (log ++ [entry]) = settledPromises log := by
    rw [settledPromises_append, hnone, List.append_nil]
  exact { h with promises := hsame ▸ h.promises }

theorem settle (h : Corresponds o pending calls tasks attempts log) {promise : NativePromise}
    (hmade : Made tasks attempts promise) (hnew : promise ∉ pending.map (·.promise) ++ settledPromises log)
    (settlement : Settlement) :
    Corresponds o pending calls tasks attempts (log ++ [.settled promise settlement]) := by
  refine { h with promises := ?_ }
  rw [settledPromises_append]
  exact h.promises.settle hmade hnew

theorem request (h : Corresponds o pending calls tasks attempts log) (request : PendingNativeRequest)
    (hmade : Made tasks attempts request.promise)
    (hnew : request.promise ∉ pending.map (·.promise) ++ settledPromises log) (hroom : pending.length < o.maxPending)
    (hasked : ∀ n, request.promise = .call n →
      ∃ prepared, tasks n = .waiting prepared request.requestId ∧ request.expectedType = o.expectedType prepared) :
    Corresponds o (upsertRow (·.requestId == request.requestId) (fun _ => request) request pending) calls tasks attempts
      log := by
  have hperm := h.keyed.upsertRow_perm request
  have hdeleted : (deleteRows (·.requestId == request.requestId) pending).Sublist pending := List.filter_sublist
  refine { h with keyed := ?_, promises := ?_, bounded := ?_, asked := ?_ }
  · apply (hperm.map _).nodup_iff.mpr
    apply h.keyed.delete.insert
    intro r hr heq
    exact absurd heq (by simpa using (mem_deleteRows.mp hr).2)
  · apply Settles.perm _ (hperm.map _)
    rw [List.map_append]
    apply (h.promises.shrink (hdeleted.map _)).add hmade
    exact fun hmem => hnew (((hdeleted.map _).append_right _).subset hmem)
  · rw [hperm.length_eq, List.length_append, List.length_singleton]
    exact (Nat.add_le_add_right hdeleted.length_le 1).trans hroom
  · intro r hr n hn
    rcases mem_upsertRow_const hr with hr | rfl
    · exact h.asked r hr n hn
    · exact hasked n hn

theorem finish (h : Corresponds o pending calls tasks attempts log) {request : PendingNativeRequest}
    (hr : request ∈ pending) (settlement : Settlement) :
    Corresponds o (deleteRows (·.requestId == request.requestId) pending) calls tasks attempts
      (log ++ [.settled request.promise settlement]) := by
  have hdeleted : (deleteRows (·.requestId == request.requestId) pending).Sublist pending := List.filter_sublist
  refine { h with keyed := h.keyed.delete, promises := ?_, bounded := hdeleted.length_le.trans h.bounded, asked := ?_ }
  · rw [settledPromises_append]
    apply h.promises.finish (hdeleted.map _) (List.mem_map_of_mem hr)
    intro hmem
    obtain ⟨r, hr', heq⟩ := List.mem_map.mp hmem
    obtain ⟨hr', hne⟩ := mem_deleteRows.mp hr'
    have hkeyed : Keyed PendingNativeRequest.promise pending := (List.nodup_append.mp h.promises.nodup).1
    rw [hkeyed.eq hr' hr heq, beq_self_eq_true] at hne
    exact nomatch hne
  · exact fun r hr' => h.asked r (hdeleted.subset hr')

theorem finishAll (h : Corresponds o pending calls tasks attempts log) (error : Thrown) :
    Corresponds o [] calls tasks attempts
      (log ++ pending.map fun request => .settled request.promise (.rejected error)) where
  keyed := keyed_nil
  promises := by
    rw [settledPromises_append, settledPromises_rejected]
    exact h.promises.finishAll
  bounded := Nat.zero_le _
  asked := fun _ hr => nomatch hr
  beyond := h.beyond

end Corresponds

namespace BridgeState
variable {o : NativeBridgeOptions κ φ ν η} {s s' : BridgeState κ φ ν}

variable (o) in
abbrev Corresponding (s : BridgeState κ φ ν) : Prop := Corresponds o s.pending s.calls s.tasks s.attempts s.log

/-- What a request leaves behind, once the promise it settles was made. -/
theorem Requests.corresponding {port : Nat} {envelope : NativeEnvelope} {expectedType : String}
    {promise : NativePromise} (hs : Requests o s port envelope expectedType promise s')
    {tasks : Nat → BridgeTask φ ν} {attempts : Nat → Attempt}
    (h : Corresponds o s.pending s.calls tasks attempts s.log) (hmade : Made tasks attempts promise)
    (hnew : promise ∉ s.pending.map (·.promise) ++ settledPromises s.log)
    (hasked : ∀ n, promise = .call n →
      ∃ prepared, tasks n = .waiting prepared envelope.requestId ∧ expectedType = o.expectedType prepared) :
    Corresponds o s'.pending s'.calls tasks attempts s'.log := by
  cases hs with
  | refused _ => exact h.settle hmade hnew _
  | posted hroom _ =>
    have hopened := h.request ⟨envelope.requestId, expectedType, promise, s.nextTimer⟩ hmade hnew hroom hasked
    exact hopened.record rfl
  | failed hroom =>
    have hopened := h.request ⟨envelope.requestId, expectedType, promise, s.nextTimer⟩ hmade hnew hroom hasked
    have hmem := (h.keyed.upsertRow_perm ⟨envelope.requestId, expectedType, promise, s.nextTimer⟩).mem_iff.mpr
      (List.mem_append_right _ (List.mem_singleton_self _))
    exact hopened.finish hmem _

theorem scheduleReconnect_frame (s : BridgeState κ φ ν) : s.scheduleReconnect.pending = s.pending ∧
    s.scheduleReconnect.calls = s.calls ∧ s.scheduleReconnect.tasks = s.tasks ∧
    s.scheduleReconnect.attempts = s.attempts ∧ s.scheduleReconnect.log = s.log := by
  unfold scheduleReconnect
  split_ifs <;> exact ⟨rfl, rfl, rfl, rfl, rfl⟩

theorem cancelReconnect_frame (s : BridgeState κ φ ν) : s.cancelReconnect.pending = s.pending ∧
    s.cancelReconnect.calls = s.calls ∧ s.cancelReconnect.tasks = s.tasks ∧
    s.cancelReconnect.attempts = s.attempts ∧ s.cancelReconnect.log = s.log := by
  unfold cancelReconnect
  split <;> exact ⟨rfl, rfl, rfl, rfl, rfl⟩

theorem settlement?_mem {promise : NativePromise} {settlement : Settlement}
    (h : s.settlement? promise = some settlement) : .settled promise settlement ∈ s.log := by
  obtain ⟨entry, hentry, heq⟩ := List.exists_of_findSome?_eq_some h
  rcases entry with _ | _ | _ | ⟨promise', settlement'⟩
  case settled =>
    dsimp only at heq
    split_ifs at heq with hp
    obtain rfl := Option.some.inj heq
    exact hp ▸ hentry
  all_goals exact nomatch heq

theorem Corresponding.not_pending (h : s.Corresponding o)
    {promise : NativePromise} {settlement : Settlement} (hs : s.settlement? promise = some settlement) :
    ∀ request ∈ s.pending, request.promise ≠ promise := by
  intro request hr heq
  have hsettled := mem_settledPromises (settlement?_mem hs)
  exact (List.nodup_append.mp h.promises.nodup).2.2 promise (heq ▸ List.mem_map_of_mem hr) promise hsettled rfl

theorem Corresponding.scheduleReconnect (h : s.Corresponding o) : s.scheduleReconnect.Corresponding o := by
  obtain ⟨hpending, hcalls, htasks, hattempts, hlog⟩ := scheduleReconnect_frame s
  rw [Corresponding, hpending, hcalls, htasks, hattempts, hlog]
  exact h

theorem Corresponding.cancelReconnect (h : s.Corresponding o) : s.cancelReconnect.Corresponding o := by
  obtain ⟨hpending, hcalls, htasks, hattempts, hlog⟩ := cancelReconnect_frame s
  rw [Corresponding, hpending, hcalls, htasks, hattempts, hlog]
  exact h

theorem Corresponding.closeCurrentPort (h : s.Corresponding o) (error : Thrown) :
    (s.closeCurrentPort error).Corresponding o :=
  h.finishAll error

theorem Corresponding.failAttempt (h : s.Corresponding o) {n port : Nat} {error : Thrown}
    (hat : s.attempts n ≠ .absent) : (s.failAttempt n port error).Corresponding o := by
  unfold BridgeState.failAttempt
  split_ifs
  · have hclosed := h.closeCurrentPort (some (error.getD "native host hello failed"))
    exact hclosed.scheduleReconnect.setAttempt ((scheduleReconnect_frame _).2.1.symm ▸ h.lt_of_attempt hat) _ fun _ => rfl
  · exact h.setAttempt (h.lt_of_attempt hat) _ fun _ => rfl

theorem Corresponding.ensureConnected (h : s.Corresponding o) {n : Nat} (hn : n < s.calls) (htask : s.tasks n = .absent)
    (hattempt : s.attempts n = .absent) (call : Option (BridgeCall φ ν)) (est : Establishing) :
    (s.ensureConnected o n call est).Corresponding o := by
  have hunmade : (s.tasks n).isMade = false := by rw [htask]; rfl
  unfold BridgeState.ensureConnected
  split
  · exact h.setTask hn hunmade _
  · exact h.setTask hn hunmade _
  · unfold BridgeState.establish
    split_ifs
    · have hset := h.setAttempt hn (.preparing s.ports) (by rw [hattempt]; exact fun h => nomatch h)
      exact hset.setTask hn hunmade _
    · obtain ⟨-, hcalls, htasks, -, -⟩ := scheduleReconnect_frame s
      have hset := h.scheduleReconnect.setAttempt (hcalls.symm ▸ hn)
        (.ended (.error (some "native host connection failed"))) fun _ => rfl
      exact hset.setTask (hcalls.symm ▸ hn) (htasks.symm ▸ hunmade) _

theorem Corresponding.invoke (h : s.Corresponding o) (call : BridgeCall φ ν) (est : Establishing) :
    (s.invoke o call est).Corresponding o := by
  obtain ⟨htask, hattempt⟩ := h.beyond s.calls (Nat.le_refl _)
  have hcounted : s.countCall.Corresponding o := h.countCall
  have hwanted : (s.countCall.setDesired true).Corresponding o := hcounted
  cases call with
  | start => exact hwanted.ensureConnected (Nat.lt_succ_self _) htask hattempt ..
  | reconnect =>
    obtain ⟨-, hcalls, htasks, hattempts, -⟩ := cancelReconnect_frame (s.countCall.setDesired true)
    have hclosed := hwanted.cancelReconnect.closeCurrentPort (some "native host connection replaced")
    apply hclosed.ensureConnected
    · exact hcalls.symm ▸ Nat.lt_succ_self s.calls
    · exact (congrFun htasks s.calls).trans htask
    · exact (congrFun hattempts s.calls).trans hattempt
  | request prepared => exact hcounted.ensureConnected (Nat.lt_succ_self _) htask hattempt ..
  | notify notice => exact hcounted.ensureConnected (Nat.lt_succ_self _) htask hattempt ..

theorem Corresponding.endCall (h : s.Corresponding o) {n : Nat} (hat : (s.tasks n).isUnderway = true)
    (call : Option (BridgeCall φ ν)) (settlement : Settlement) :
    ((s.settle (.call n) settlement).setTask n (.ended call)).Corresponding o := by
  have hunmade := BridgeTask.not_isMade hat
  have hset := h.setTask (h.lt_of_task hat) hunmade (.ended call)
  apply hset.settle
  · show (Function.update s.tasks n (.ended call) n).isMade = true
    rw [Function.update_self]
    rfl
  · apply h.promises.fresh
    show ¬ (s.tasks n).isMade = true
    rw [hunmade]
    exact Bool.false_ne_true

theorem Corresponding.advance (h : s.Corresponding o) {n : Nat} {requestId : String} {writes : Bool}
    (hs : s.advance o n requestId writes = some s') : s'.Corresponding o := by
  cases advance_cases hs with
  | joined hat _ =>
    have hunder : (s.tasks n).isUnderway = true := by rw [hat]; rfl
    exact h.setTask (h.lt_of_task hunder) (BridgeTask.not_isMade hunder) _
  | led hat _ =>
    have hunder : (s.tasks n).isUnderway = true := by rw [hat]; rfl
    exact h.setTask (h.lt_of_task hunder) (BridgeTask.not_isMade hunder) _
  | fulfilled hat _ => exact h.endCall (by rw [hat]; rfl) ..
  | @noticed notice port hat _ =>
    have hposted : (s.record (.posted port (o.notice notice))).Corresponding o := h.record rfl
    exact hposted.endCall ((congrArg BridgeTask.isUnderway hat).trans rfl) ..
  | @rejected call error client hat _ =>
    have hclient : (s.setClient client).Corresponding o := h
    apply hclient.endCall
    rcases hat with ⟨port, hat⟩ | hat <;> exact (congrArg BridgeTask.isUnderway hat).trans rfl
  | @requested prepared port payload client s₁ hat _ hreq =>
    have hunder : (s.tasks n).isUnderway = true := by rw [hat]; rfl
    have hunmade := BridgeTask.not_isMade hunder
    -- the call waits from now on, so that the promise is made before the request is
    have hset := h.setTask (h.lt_of_task hunder) hunmade (.waiting prepared requestId)
    have hself : Function.update s.tasks n (.waiting prepared requestId) n = .waiting prepared requestId :=
      Function.update_self ..
    have hnew : ¬ Made s.tasks s.attempts (.call n) := by
      show ¬ (s.tasks n).isMade = true
      rw [hunmade]
      exact Bool.false_ne_true
    have hmade : Made (Function.update s.tasks n (.waiting prepared requestId)) s.attempts (.call n) := by
      show BridgeTask.isMade (Function.update s.tasks n (.waiting prepared requestId) n) = true
      rw [hself]
      rfl
    have hdone := hreq.corresponding hset hmade (h.promises.fresh hnew) (by rintro m ⟨⟩; exact ⟨prepared, hself, rfl⟩)
    have htasks : s₁.tasks = s.tasks := hreq.tasks
    have hattempts : s₁.attempts = s.attempts := hreq.attempts
    rw [← htasks, ← hattempts] at hdone
    exact hdone

theorem Corresponding.proceed (h : s.Corresponding o) {n : Nat} {writes : Bool}
    (hs : s.proceed o n writes = some s') : s'.Corresponding o := by
  cases proceed_cases hs with
  | failed hat => exact h.failAttempt (by intro heq; rw [heq] at hat; exact nomatch hat)
  | @greeted port hello s₁ hat hreq =>
    have hlt : n < s.calls := h.lt_of_attempt (by rw [hat]; exact fun h => nomatch h)
    have hset := h.setAttempt hlt (.greeting port hello.requestId) fun _ => rfl
    have hself : Function.update s.attempts n (.greeting port hello.requestId) n = .greeting port hello.requestId :=
      Function.update_self ..
    have hnew : ¬ Made s.tasks s.attempts (.hello n) := by
      show ¬ (s.attempts n).isMade = true
      rw [hat]
      exact Bool.false_ne_true
    have hmade : Made s.tasks (Function.update s.attempts n (.greeting port hello.requestId)) (.hello n) := by
      show Attempt.isMade (Function.update s.attempts n (.greeting port hello.requestId) n) = true
      rw [hself]
      rfl
    have hdone := hreq.corresponding hset hmade (h.promises.fresh hnew) fun _ heq => nomatch heq
    rw [← hreq.tasks, ← hreq.attempts] at hdone
    exact hdone
  | connected hat _ _ => exact h.setAttempt (h.lt_of_attempt (by rw [hat]; exact fun h => nomatch h)) _ fun _ => rfl

theorem Corresponding.message (h : s.Corresponding o) {port : Nat} {raw : Json} (hs : s.handleMessage port raw = s') :
    s'.Corresponding o := by
  rcases handleMessage_cases hs with rfl | ⟨message, -, -, hreceives⟩
  · exact h
  · have hreceived : Corresponds o s.pending s.calls s.tasks s.attempts (s.log ++ [.received port message]) :=
      h.record rfl
    cases hreceives with
    | executed _ => exact hreceived.record rfl
    | answered _ hfind => exact hreceived.finish (List.mem_of_find?_eq_some hfind) _
    | unmatched _ => exact hreceived

theorem Corresponding.fire (h : s.Corresponding o) (callback : TimerCallback) (est : Establishing) :
    (s.fire o callback est).Corresponding o := by
  unfold BridgeState.fire
  split
  · split
    · rename_i hfind
      exact h.finish (List.mem_of_find?_eq_some hfind) _
    · exact h
  · dsimp only
    split_ifs
    · exact h
    · obtain ⟨htask, hattempt⟩ := h.beyond s.calls (Nat.le_refl _)
      have hcounted : ({ s with reconnectTimer := none }.countCall).Corresponding o := h.countCall
      exact hcounted.ensureConnected (Nat.lt_succ_self _) htask hattempt ..

theorem Corresponding.step (h : s.Corresponding o) {e : BridgeEvent φ ν η} (hs : BridgeState.step o s e = some s') :
    s'.Corresponding o := by
  cases e with
  | call call est => exact Option.some.inj hs ▸ h.invoke call est
  | stop =>
    have hstopped : (s.setDesired false).Corresponding o := h
    exact Option.some.inj hs ▸ hstopped.cancelReconnect.closeCurrentPort _
  | hello n found =>
    simp only [BridgeState.step] at hs
    split at hs
    · rename_i hat
      exact Option.some.inj hs ▸ h.setAttempt (h.lt_of_attempt (by rw [hat]; exact fun h => by cases h)) _
        (by rw [hat]; exact fun h => by cases h)
    · cases hs
  | proceed n writes =>
    have hs : s.proceed o n writes = some s' := hs
    exact h.proceed hs
  | advance n requestId writes =>
    have hs : s.advance o n requestId writes = some s' := hs
    exact h.advance hs
  | message port raw => exact h.message (Option.some.inj hs)
  | disconnect port =>
    simp only [BridgeState.step] at hs
    split_ifs at hs
    rw [← Option.some.inj hs]
    unfold handleDisconnect
    split_ifs
    · have hlost : ((s.disconnect [port]).losePort (some "native host disconnected")).Corresponding o := h.finishAll _
      exact hlost.scheduleReconnect
    · exact h
  | fire handle est =>
    obtain ⟨timer, -, rfl⟩ := Option.map_eq_some_iff.mp hs
    have hfired : (s.clearTimer handle).Corresponding o := h
    exact hfired.fire timer.callback est

/-! ## What fulfils a promise -/

/-- What a step adds to the fulfilled promises. -/
inductive Fulfils (s : BridgeState κ φ ν) : BridgeEvent φ ν η → BridgeState κ φ ν → Prop
  | nothing {e s'} (hlog : fulfilments s'.log = fulfilments s.log) : Fulfils s e s'
  | call {e s' n call} (hlog : fulfilments s'.log = fulfilments s.log ++ [(.call n, none)])
      (hat : s'.tasks n = .ended call) (hcall : ∀ prepared, call ≠ some (.request prepared)) : Fulfils s e s'
  | answer {port raw message request s'} (hlog : fulfilments s'.log = fulfilments s.log ++ [(request.promise, message.payload)])
      (hport : s.port = some port) (hparse : parseNativeEnvelope raw = .ok message)
      (htype : message.type ≠ "browser.action.execute") (hmem : request ∈ s.pending)
      (hid : message.requestId = request.requestId) (hexpected : message.type = request.expectedType)
      (htasks : s'.tasks = s.tasks) : Fulfils s (.message port raw) s'

theorem fulfilments_record {log : List BridgeEntry} {entry : BridgeEntry}
    (h : ∀ promise payload, entry ≠ .settled promise (.fulfilled payload)) :
    fulfilments (log ++ [entry]) = fulfilments log := by
  have hnone : fulfilments [entry] = [] := by
    rcases entry with _ | _ | _ | ⟨promise, payload | error⟩
    case settled.fulfilled => exact absurd rfl (h promise payload)
    all_goals rfl
  rw [fulfilments_append, hnone, List.append_nil]

theorem fulfilments_posted (log : List BridgeEntry) (port : Nat) (envelope : NativeEnvelope) :
    fulfilments (log ++ [.posted port envelope]) = fulfilments log :=
  fulfilments_record fun _ _ heq => nomatch heq

theorem fulfilments_reject (s : BridgeState κ φ ν) (promise : NativePromise) (error : Thrown) :
    fulfilments (s.settle promise (.rejected error)).log = fulfilments s.log :=
  fulfilments_record fun _ _ heq => nomatch heq

theorem losePort_fulfilments (s : BridgeState κ φ ν) (error : Thrown) :
    fulfilments (s.losePort error).log = fulfilments s.log := by
  show fulfilments (s.log ++ s.pending.map fun request => .settled request.promise (.rejected error)) = _
  rw [fulfilments_append, fulfilments_rejected, List.append_nil]

theorem failAttempt_fulfilments (s : BridgeState κ φ ν) (n port : Nat) (error : Thrown) :
    fulfilments (s.failAttempt n port error).log = fulfilments s.log := by
  unfold BridgeState.failAttempt
  split_ifs
  · have hlog := (scheduleReconnect_frame (s.closeCurrentPort (some (error.getD "native host hello failed")))).2.2.2.2
    exact (congrArg fulfilments hlog).trans (losePort_fulfilments ..)
  · rfl

theorem Requests.fulfilments {port : Nat} {envelope : NativeEnvelope} {expectedType : String}
    {promise : NativePromise} (hs : Requests o s port envelope expectedType promise s') :
    fulfilments s'.log = fulfilments s.log := by
  cases hs <;> exact fulfilments_record (fun _ _ h => nomatch h)

theorem ensureConnected_frame (s : BridgeState κ φ ν) (n : Nat) (call : Option (BridgeCall φ ν)) (est : Establishing) :
    (s.ensureConnected o n call est).log = s.log ∧ (s.ensureConnected o n call est).pending = s.pending := by
  unfold BridgeState.ensureConnected
  split
  · exact ⟨rfl, rfl⟩
  · exact ⟨rfl, rfl⟩
  · unfold BridgeState.establish
    split_ifs
    · exact ⟨rfl, rfl⟩
    · exact ⟨(scheduleReconnect_frame s).2.2.2.2, (scheduleReconnect_frame s).1⟩

theorem invoke_fulfilments (s : BridgeState κ φ ν) (call : BridgeCall φ ν) (est : Establishing) :
    fulfilments (s.invoke o call est).log = fulfilments s.log := by
  cases call with
  | reconnect =>
    have hclosed := losePort_fulfilments (s.countCall.setDesired true).cancelReconnect
      (some "native host connection replaced")
    have hlog := (cancelReconnect_frame (s.countCall.setDesired true)).2.2.2.2
    exact (congrArg fulfilments (ensureConnected_frame ..).1).trans (hclosed.trans (congrArg fulfilments hlog))
  | start => exact congrArg fulfilments (ensureConnected_frame (s.countCall.setDesired true) ..).1
  | request prepared => exact congrArg fulfilments (ensureConnected_frame s.countCall ..).1
  | notify notice => exact congrArg fulfilments (ensureConnected_frame s.countCall ..).1

theorem advance_fulfils {n : Nat} {requestId : String} {writes : Bool} (hs : s.advance o n requestId writes = some s')
    (e : BridgeEvent φ ν η) : Fulfils s e s' := by
  have hself : ∀ (s : BridgeState κ φ ν) call, (s.fulfil n call).tasks n = .ended call :=
    fun s call => Function.update_self ..
  cases advance_cases hs with
  | joined _ _ => exact .nothing rfl
  | led _ _ => exact .nothing rfl
  | @fulfilled call _ _ hcall => exact .call (fulfilments_append ..) (hself ..) hcall
  | @noticed notice port _ _ =>
    refine .call ?_ (hself ..) fun _ h => nomatch h
    have hposted : fulfilments (s.record (.posted port (o.notice notice))).log = fulfilments s.log :=
      fulfilments_posted ..
    exact (fulfilments_append ..).trans (by rw [hposted]; rfl)
  | rejected _ _ => exact .nothing (fulfilments_record (fun _ _ h => nomatch h))
  | requested _ _ hreq => exact .nothing hreq.fulfilments

theorem message_fulfils {port : Nat} {raw : Json} (hs : s.handleMessage port raw = s') :
    Fulfils s (.message port raw : BridgeEvent φ ν η) s' := by
  rcases handleMessage_cases hs with rfl | ⟨message, hport, hparse, hreceives⟩
  · exact .nothing rfl
  · have hreceived : fulfilments (s.log ++ [.received port message]) = fulfilments s.log :=
      fulfilments_record (fun _ _ h => nomatch h)
    cases hreceives with
    | executed _ =>
      have hexecuted : fulfilments (s.log ++ [.received port message] ++ [.executed message]) =
          fulfilments (s.log ++ [.received port message]) :=
        fulfilments_record (fun _ _ h => nomatch h)
      exact .nothing (hexecuted.trans hreceived)
    | unmatched _ => exact .nothing hreceived
    | @answered request htype hfind =>
      have hlog : fulfilments (s.log ++ [.received port message] ++ [.settled request.promise (request.outcome message)]) =
          fulfilments s.log ++ fulfilments [.settled request.promise (request.outcome message)] := by
        rw [fulfilments_append, hreceived]
      have hid : request.requestId = message.requestId := by simpa using List.find?_some hfind
      rcases request.outcome_cases message with ⟨error, hout⟩ | ⟨hexpected, hout⟩
      · exact .nothing (hlog.trans (by rw [hout]; exact List.append_nil _))
      · exact .answer (hlog.trans (by rw [hout]; rfl)) hport hparse htype (List.mem_of_find?_eq_some hfind) hid.symm
          hexpected rfl

theorem step_fulfils {e : BridgeEvent φ ν η} (hs : BridgeState.step o s e = some s') : Fulfils s e s' := by
  cases e with
  | call call est => exact .nothing (Option.some.inj hs ▸ invoke_fulfilments s call est)
  | stop =>
    have hlog := (cancelReconnect_frame (s.setDesired false)).2.2.2.2
    rw [← Option.some.inj hs]
    exact .nothing ((losePort_fulfilments (s.setDesired false).cancelReconnect _).trans (congrArg fulfilments hlog))
  | hello n found =>
    simp only [BridgeState.step] at hs
    split at hs
    · exact .nothing (Option.some.inj hs ▸ rfl)
    · cases hs
  | proceed n writes =>
    have hs : s.proceed o n writes = some s' := hs
    cases proceed_cases hs with
    | failed _ => exact .nothing (failAttempt_fulfilments ..)
    | greeted _ hreq => exact .nothing hreq.fulfilments
    | connected _ _ _ => exact .nothing rfl
  | advance n requestId writes =>
    have hs : s.advance o n requestId writes = some s' := hs
    exact advance_fulfils hs _
  | message port raw => exact message_fulfils (Option.some.inj hs)
  | disconnect port =>
    simp only [BridgeState.step] at hs
    split_ifs at hs
    rw [← Option.some.inj hs]
    unfold handleDisconnect
    -- only the current port takes its requests with it
    split_ifs
    · have hlog := (scheduleReconnect_frame ((s.disconnect [port]).losePort (some "native host disconnected"))).2.2.2.2
      exact .nothing ((congrArg fulfilments hlog).trans (losePort_fulfilments (s.disconnect [port]) _))
    · exact .nothing rfl
  | fire handle est =>
    obtain ⟨timer, -, rfl⟩ := Option.map_eq_some_iff.mp hs
    unfold BridgeState.fire
    split
    · split
      · exact .nothing (fulfilments_record (fun _ _ h => by cases h))
      · exact .nothing rfl
    · dsimp only
      split_ifs
      · exact .nothing rfl
      · exact .nothing (congrArg fulfilments (ensureConnected_frame ..).1)

/-! ## What takes a connection down -/

/-- Why the requests of a connection fail, where an event takes it down. -/
def tearsDown (s : BridgeState κ φ ν) : BridgeEvent φ ν η → Option String
  | .call .reconnect _ => some "native host connection replaced"
  | .stop => some "native host connection stopped"
  | .disconnect port => if s.port = some port then some "native host disconnected" else none
  | _ => none

/-- The requests that were pending have been rejected, and their timers cleared. -/
structure TornDown (pending : List PendingNativeRequest) (reason : String) (s : BridgeState κ φ ν) : Prop where
  emptied : s.pending = []
  rejected : ∀ request ∈ pending, .settled request.promise (.rejected (some reason)) ∈ s.log
  cleared : ∀ request ∈ pending, ∀ timer ∈ s.timers, timer.handle ≠ request.timeout

theorem losePort_tornDown (s : BridgeState κ φ ν) (reason : String) :
    TornDown s.pending reason (s.losePort (some reason)) where
  emptied := rfl
  rejected := fun request hr => List.mem_append_right _ (List.mem_map.mpr ⟨request, hr, rfl⟩)
  cleared := by
    intro request hr timer ht heq
    have hkept : (s.pending.any fun request => request.timeout == timer.handle) = false := (mem_deleteRows.mp ht).2
    have hother := List.any_eq_false.mp hkept request hr
    exact hother (beq_iff_eq.mpr heq.symm)

theorem mem_scheduleReconnect {timer : Timer} (ht : timer ∈ s.scheduleReconnect.timers) :
    timer ∈ s.timers ∨ timer.handle = s.nextTimer := by
  unfold scheduleReconnect at ht
  split_ifs at ht
  · exact .inl ht
  · rcases List.mem_append.mp ht with ht | ht
    · exact .inl ht
    · exact .inr (by rw [List.mem_singleton.mp ht])

theorem mem_ensureConnected {n : Nat} {call : Option (BridgeCall φ ν)} {est : Establishing} {timer : Timer}
    (ht : timer ∈ (s.ensureConnected o n call est).timers) : timer ∈ s.timers ∨ timer.handle = s.nextTimer := by
  unfold BridgeState.ensureConnected at ht
  split at ht
  · exact .inl ht
  · exact .inl ht
  · unfold BridgeState.establish at ht
    split_ifs at ht
    · exact .inl ht
    · exact mem_scheduleReconnect ht

/-- What is set up afterwards is not among the old timers. -/
theorem TornDown.later {pending : List PendingNativeRequest} {reason : String} (h : TornDown pending reason s)
    (hlt : ∀ request ∈ pending, request.timeout < s.nextTimer) (hpending : s'.pending = s.pending)
    (hlog : s'.log = s.log) (htimers : ∀ timer ∈ s'.timers, timer ∈ s.timers ∨ timer.handle = s.nextTimer) :
    TornDown pending reason s' where
  emptied := hpending.trans h.emptied
  rejected := fun request hr => hlog ▸ h.rejected request hr
  cleared := by
    intro request hr timer ht
    rcases htimers timer ht with ht | heq
    · exact h.cleared request hr timer ht
    · rw [heq]
      exact (hlt request hr).ne'

theorem cancelReconnect_nextTimer (s : BridgeState κ φ ν) : s.cancelReconnect.nextTimer = s.nextTimer := by
  unfold cancelReconnect
  split <;> rfl

theorem step_tornDown (ht : s.Ticking) {e : BridgeEvent φ ν η} (hs : BridgeState.step o s e = some s') {reason : String}
    (hdown : s.tearsDown e = some reason) : TornDown s.pending reason s' := by
  cases e with
  | call call est =>
    cases call with
    | reconnect =>
      obtain rfl := Option.some.inj hdown
      obtain rfl := Option.some.inj hs
      have hclosed := losePort_tornDown (s.countCall.setDesired true).cancelReconnect "native host connection replaced"
      rw [(cancelReconnect_frame _).1] at hclosed
      have hnext := cancelReconnect_nextTimer (s.countCall.setDesired true)
      have hlt : ∀ request ∈ s.pending, request.timeout < (s.countCall.setDesired true).cancelReconnect.nextTimer := by
        rw [hnext]
        exact ht.pending_lt
      obtain ⟨hlog, hpending⟩ := ensureConnected_frame (o := o) ((s.countCall.setDesired true).cancelReconnect.closeCurrentPort
        (some "native host connection replaced")) s.calls (some .reconnect) est
      exact hclosed.later hlt hpending hlog fun _ => mem_ensureConnected
    | _ => cases hdown
  | stop =>
    obtain rfl := Option.some.inj hdown
    obtain rfl := Option.some.inj hs
    have hclosed := losePort_tornDown (s.setDesired false).cancelReconnect "native host connection stopped"
    rw [(cancelReconnect_frame _).1] at hclosed
    exact ⟨hclosed.emptied, hclosed.rejected, hclosed.cleared⟩
  | disconnect port =>
    simp only [tearsDown] at hdown
    split_ifs at hdown with hport
    obtain rfl := Option.some.inj hdown
    simp only [BridgeState.step] at hs
    split_ifs at hs
    rw [← Option.some.inj hs, handleDisconnect, if_pos hport]
    have hlost := losePort_tornDown (s.disconnect [port]) "native host disconnected"
    obtain ⟨hpending, -, -, -, hlog⟩ := scheduleReconnect_frame
      ((s.disconnect [port]).losePort (some "native host disconnected"))
    exact hlost.later ht.pending_lt hpending hlog fun _ => mem_scheduleReconnect
  | _ => cases hdown

end BridgeState

open Concurrency.Machine BridgeState

def BridgeTask.request? : BridgeTask φ ν → Option φ
  | .joining (some (.request prepared)) _ | .leading (some (.request prepared)) | .connected (some (.request prepared)) _
  | .unavailable (some (.request prepared)) _ | .waiting prepared _ | .ended (some (.request prepared)) => some prepared
  | _ => none

theorem BridgeTask.request?_ended {call : Option (BridgeCall φ ν)} {prepared : φ}
    (h : (BridgeTask.ended call).request? = some prepared) : call = some (.request prepared) := by
  rcases call with _ | _ | _ | prepared' | notice
  case some.request => exact congrArg (fun p => some (BridgeCall.request p)) (Option.some.inj h)
  all_goals exact nomatch h

structure Correlated (o : NativeBridgeOptions κ φ ν η) (s : BridgeState κ φ ν) (e : BridgeEvent φ ν η)
    (s' : BridgeState κ φ ν) : Prop where
  once : (settledPromises s'.log).Nodup
  answered : ∀ n prepared payload, (s'.tasks n).request? = some prepared →
    (NativePromise.call n, payload) ∈ fulfilments s'.log → (NativePromise.call n, payload) ∉ fulfilments s.log →
    ∃ requestId port raw message, s.tasks n = .waiting prepared requestId ∧ e = .message port raw ∧
      s.port = some port ∧ parseNativeEnvelope raw = .ok message ∧ message.type ≠ "browser.action.execute" ∧
      message.requestId = requestId ∧ message.type = o.expectedType prepared ∧ message.payload = payload
  executed : ∀ port raw message, e = .message port raw → parseNativeEnvelope raw = .ok message →
    message.type = "browser.action.execute" → settledPromises s'.log = settledPromises s.log
  tornDown : ∀ reason, s.tearsDown e = some reason → TornDown s.pending reason s'
  bounded : s'.pending.length ≤ o.maxPending

variable {o : NativeBridgeOptions κ φ ν η} {client : κ} {s s' : BridgeState κ φ ν} {e : BridgeEvent φ ν η}

theorem reaches_corresponding {ok : BridgeState κ φ ν → BridgeEvent φ ν η → Prop}
    (h : Reaches (step o) (.init client) ok s) : s.Corresponding o := by
  apply h.invariant (I := fun s => s.Corresponding o)
  · exact ⟨keyed_nil, .nil _, Nat.zero_le _, fun _ h => (nomatch h), fun _ _ => ⟨rfl, rfl⟩⟩
  · exact fun s e s' hi _ hs => hi.step hs

theorem BridgeState.Fulfils.answered (hf : Fulfils s e s') (h : s.Corresponding o) {n : Nat} {prepared : φ} {payload : Option Json}
    (hrequest : (s'.tasks n).request? = some prepared) (hnew : (NativePromise.call n, payload) ∈ fulfilments s'.log)
    (hold : (NativePromise.call n, payload) ∉ fulfilments s.log) :
    ∃ requestId port raw message, s.tasks n = .waiting prepared requestId ∧ e = .message port raw ∧
      s.port = some port ∧ parseNativeEnvelope raw = .ok message ∧ message.type ≠ "browser.action.execute" ∧
      message.requestId = requestId ∧ message.type = o.expectedType prepared ∧ message.payload = payload := by
  cases hf with
  | nothing hlog => exact absurd (hlog ▸ hnew) hold
  | @call _ _ m call hlog hat hcall =>
    rw [hlog] at hnew
    obtain hnew := List.mem_singleton.mp ((List.mem_append.mp hnew).resolve_left hold)
    obtain ⟨⟨rfl⟩, rfl⟩ := Prod.mk.inj hnew
    rw [hat] at hrequest
    exact absurd (BridgeTask.request?_ended hrequest) (hcall prepared)
  | @answer port raw message request s' hlog hport hparse htype hmem hid hexpected htasks =>
    rw [hlog] at hnew
    obtain hnew := List.mem_singleton.mp ((List.mem_append.mp hnew).resolve_left hold)
    obtain ⟨hpromise, rfl⟩ := Prod.mk.inj hnew
    obtain ⟨prepared', hwaiting, htype'⟩ := h.asked request hmem n hpromise.symm
    rw [htasks, hwaiting] at hrequest
    obtain rfl := Option.some.inj hrequest
    exact ⟨_, port, raw, message, hwaiting, rfl, hport, hparse, htype, hid, hexpected.trans htype', rfl⟩

theorem requests_correlated (h : Reaches (step o) (.init client) Anyhow s) (hs : step o s e = some s') :
    Correlated o s e s' := by
  have hcorr := reaches_corresponding h
  have hcorr' := hcorr.step hs
  refine ⟨hcorr'.promises.once, ?_, ?_, ?_, hcorr'.bounded⟩
  · exact fun n prepared payload => (step_fulfils hs).answered hcorr
  · rintro port raw message rfl hparse htype
    rcases handleMessage_cases (Option.some.inj hs) with rfl | ⟨message', -, hparse', hreceives⟩
    · rfl
    · obtain rfl := Except.ok.inj (hparse.symm.trans hparse')
      cases hreceives with
      | executed _ =>
        show settledPromises (s.log ++ [.received port message] ++ [.executed message]) = settledPromises s.log
        rw [settledPromises_append, settledPromises_append]
        exact (List.append_nil _).trans (List.append_nil _)
      | answered hne _ => exact absurd htype hne
      | unmatched hne => exact absurd htype hne
  · exact fun reason => step_tornDown (reaches_ticking h) hs

end Fubun.Bridge

namespace Fubun.Sample
open Bridge Encoding

def nativeId (c : Char) : String := String.ofList ("00000000-0000-0000-0000-00000000000".toList ++ [c])

def nativeMessage (requestId type : String) : Json :=
  .object [("protocol_version", .object [("major", .number 1), ("minor", .number 0)]), ("request_id", .string requestId),
    ("type", .string type), ("payload", .bool true)]

/-- The extension has started, and a ping is on its way. -/
def pinging : List (BridgeEvent Unit Unit (Except Thrown NativeEnvelope)) :=
  [.call .start ⟨true, "i"⟩, .hello 0 (.ok ⟨currentProtocolVersion, nativeId '1', "extension.hello", none⟩),
    .proceed 0 true, .message 0 (nativeMessage (nativeId '1') "extension.hello.ack"), .proceed 0 true, .advance 0 "" true,
    .call (.request ()) ⟨true, "j"⟩, .advance 1 (nativeId '2') true]

end Fubun.Sample

namespace Fubun.Bridge
open Concurrency.Machine BridgeState

theorem requests_correlated_pinging : ∃ s s', Reaches (step Sample.quietClient) (.init ()) Anyhow s ∧
    step Sample.quietClient s (.message 0 (Sample.nativeMessage (Sample.nativeId '2') "integration.pong")) = some s' ∧
    settledPromises s'.log = [.hello 0, .call 1] ∧ Correlated Sample.quietClient s
      (.message 0 (Sample.nativeMessage (Sample.nativeId '2') "integration.pong")) s' := by
  have hrun : ((exec (step Sample.quietClient) (.init ()) Sample.pinging).bind fun s =>
      (step Sample.quietClient s (.message 0 (Sample.nativeMessage (Sample.nativeId '2') "integration.pong"))).map fun s' =>
        settledPromises s'.log) = some [.hello 0, .call 1] := by
    decide +kernel
  obtain ⟨s, hs, hstep⟩ := Option.bind_eq_some_iff.mp hrun
  obtain ⟨s', hs', hsettled⟩ := Option.map_eq_some_iff.mp hstep
  have hr := Reaches.init.exec hs
  exact ⟨s, s', hr, hs', hsettled, requests_correlated hr hs'⟩

end Fubun.Bridge

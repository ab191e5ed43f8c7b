import Fubun.NativeHost.State

/-! What one step of a host that keeps running can be. -/

namespace Fubun.NativeHost
open Encoding Extensions Relational

/-! ## Channels -/

namespace Writer
variable {α : Type} {w w' : Writer α} {x : α}

theorem send_false (h : w.send x = some (false, w')) : w.isOpen = false := by
  unfold send at h
  split_ifs at h with hclosed
  · simpa using hclosed
  · exact nomatch (Prod.mk.inj (Option.some.inj h)).1

theorem send_isOpen {sent : Bool} (h : w.send x = some (sent, w')) : w'.isOpen = w.isOpen := by
  unfold send at h
  split_ifs at h
  · rw [← (Prod.mk.inj (Option.some.inj h)).2]
  · rw [← (Prod.mk.inj (Option.some.inj h)).2]

theorem receive_eq (h : w.receive = some w') :
    ∃ x, w.writing = none ∧ w.queue = x :: w'.queue ∧ w'.writing = some x ∧ w'.isOpen = w.isOpen := by
  unfold receive at h
  split at h
  · rename_i x rest hwriting hqueue
    obtain rfl := Option.some.inj h
    exact ⟨x, hwriting, hqueue, rfl, rfl⟩
  · exact nomatch h

theorem write_eq {ok : Bool} (h : w.write ok = some w') :
    w.writing.isSome = true ∧ w' = if ok then { w with writing := none } else ⟨[], none, false⟩ := by
  obtain ⟨x, hx, rfl⟩ := Option.map_eq_some_iff.mp h
  exact ⟨Option.isSome_iff_exists.mpr ⟨x, hx⟩, rfl⟩

end Writer

/-! ## Decisions of the main loop -/

theorem decodeHandling_of_ok {D : Decoders} {message : NativeEnvelope} {handling : Handling}
    (h : handleNativeMessage D message = .ok handling) : decodeHandling D message = some handling := by
  unfold handleNativeMessage at h
  split_ifs at h
  split at h
  · rename_i hhandling
    rw [hhandling, Except.ok.inj h]
  · exact nomatch h

/-- A task is spawned for emissions and for nothing else. -/
theorem emits_iff {D : Decoders} {message : NativeEnvelope} {handling : Handling}
    (h : handleNativeMessage D message = .ok handling) :
    isEmission message = true ↔ ∃ event, handling = .emit event := by
  have hdecoded := decodeHandling_of_ok h
  rw [isEmission, beq_iff_eq]
  constructor
  · intro htype
    rw [decodeHandling, htype] at hdecoded
    obtain ⟨event, -, rfl⟩ := Option.map_eq_some_iff.mp hdecoded
    exact ⟨event, rfl⟩
  · rintro ⟨event, rfl⟩
    unfold decodeHandling at hdecoded
    split at hdecoded
    case h_3 htype => exact htype
    all_goals simp at hdecoded

/-- What the main loop does with the message `n` when it spawns no task for it. -/
inductive MainLoop.Turns (D : Decoders) (n : Nat) (message : NativeEnvelope) : MainLoop → Prop
  | refused {error} (h : handleNativeMessage D message = .error error) :
      Turns D n message (.answering n (integrationError message.requestId))
  | requesting {answerType} (h : handleNativeMessage D message = .ok (.request answerType)) :
      Turns D n message (.requesting n message.requestId answerType)
  | returning {response} (h : handleNativeMessage D message = .ok (.result response)) :
      Turns D n message (.returning n message.requestId response)
  | pong (h : handleNativeMessage D message = .ok .pong) :
      Turns D n message (.answering n (pongMessage message.requestId))

/-! ## Runs of a host that keeps running -/

def emissionIds (log : List HostEntry) : List Uuid :=
  log.filterMap fun
    | .read _ message => if isEmission message then some message.requestId else none
    | _ => none

/-- The host goes on, its output is read, and every emission has a request id of its own. -/
def Host.isRoutine (s : Host) : HostEvent → Bool
  | .native message => ! (isEmission message && (emissionIds s.log).contains message.requestId)
  | .writeNative ok => ok
  | .quit => false
  | _ => true

abbrev Routine (s : Host) (e : HostEvent) : Prop := s.isRoutine e = true

theorem mem_emissionIds {log : List HostEntry} {requestId : Uuid} :
    requestId ∈ emissionIds log ↔ ∃ n message, .read n message ∈ log ∧ isEmission message = true ∧ message.requestId = requestId := by
  constructor
  · intro h
    obtain ⟨entry, hentry, heq⟩ := List.mem_filterMap.mp h
    cases entry with
    | read n message =>
      dsimp only at heq
      split_ifs at heq with hemission
      exact ⟨n, message, hentry, hemission, Option.some.inj heq⟩
    | _ => exact nomatch heq
  · rintro ⟨n, message, hmem, hemission, rfl⟩
    exact List.mem_filterMap.mpr ⟨_, hmem, if_pos hemission⟩

def EventTask.requestId? : EventTask → Option Uuid
  | .spawned requestId _ | .sending requestId _ | .waiting requestId | .responding requestId _ => some requestId
  | .absent | .ended | .aborted => none

/-- The request id under which a task may be in the pending map. -/
def EventTask.guarded? : EventTask → Option Uuid
  | .sending requestId _ | .waiting requestId => some requestId
  | _ => none

open Host

/-- The steps of a host that keeps running, with what each of them needs. -/
inductive Moves (D : Decoders) (s : Host) : HostEvent → Host → Prop
  | turn {message mainLoop} (hat : s.mainLoop = .listening)
      (hnew : isEmission message = true → message.requestId ∉ emissionIds s.log) (hturns : MainLoop.Turns D s.reads message mainLoop) :
      Moves D s (.native message) ((s.countRead message).setMain mainLoop)
  | spawn {message event} (hat : s.mainLoop = .listening) (hnew : message.requestId ∉ emissionIds s.log)
      (hemit : handleNativeMessage D message = .ok (.emit event)) :
      Moves D s (.native message) ((s.countRead message).setTask s.reads (.spawned message.requestId event))
  | answerWith {n requestId answerType value envelope} (hat : s.mainLoop = .requesting n requestId answerType) :
      Moves D s (.respond value) (s.setMain (.answering n envelope))
  | take {inbound rest} (hat : s.mainLoop = .listening) (hqueue : s.inbound = inbound :: rest) :
      Moves D s .take (s.dequeue inbound rest)
  | returned {n requestId response adapter} (hat : s.mainLoop = .returning n requestId response)
      (hsend : s.adapter.send response = some (true, adapter)) :
      Moves D s .proceed ((s.setAdapter adapter).setMain .listening)
  | unreturned {n requestId response} (hat : s.mainLoop = .returning n requestId response) :
      Moves D s .proceed (s.setMain (.answering n (integrationError requestId)))
  | answer {n envelope native} (hat : s.mainLoop = .answering n envelope)
      (hsend : s.native.send envelope = some (true, native)) :
      Moves D s .proceed (((s.setNative native).setMain .listening).record (.answered n envelope))
  | forwardAction {requestId actionExecutionId payload native} {sent : Bool}
      (hat : s.mainLoop = .forwarding (.action requestId actionExecutionId payload))
      (hsend : s.native.send (actionMessage requestId actionExecutionId payload) = some (sent, native)) :
      Moves D s .proceed (((s.setNative native).setMain .listening).record
        (.forwarded (.action requestId actionExecutionId payload) sent))
  | forwardStatus {requestId actionExecutionId adapter} {sent : Bool}
      (hat : s.mainLoop = .forwarding (.status requestId actionExecutionId))
      (hsend : s.adapter.send ⟨currentProtocolVersion, requestId, actionExecutionId, .status s.adapterStatus⟩ =
        some (sent, adapter)) :
      Moves D s .proceed (((s.setAdapter adapter).setMain .listening).record
        (.forwarded (.status requestId actionExecutionId) sent))
  | enter {n requestId event} (hat : s.tasks n = .spawned requestId event) (hfree : ∀ row ∈ s.pending, row.requestId ≠ requestId) :
      Moves D s (.task n) ((s.insertPending requestId n).setTask n (.sending requestId event))
  | duplicate {n requestId event} (hat : s.tasks n = .spawned requestId event) :
      Moves D s (.task n) (s.finish n requestId (.error .duplicateEventRequest))
  | send {n requestId event adapter} (hat : s.tasks n = .sending requestId event)
      (hsend : s.adapter.send (eventRequest requestId event) = some (true, adapter)) :
      Moves D s (.task n) ((s.setAdapter adapter).setTask n (.waiting requestId))
  | fail {n requestId e} (error : HostMessageError) (hat : (s.tasks n).guarded? = some requestId) (he : e = .task n ∨ e = .expire n) :
      Moves D s e (s.fail n requestId error)
  | conclude {n requestId result} (hat : s.tasks n = .waiting requestId) (hack : s.acks n = some result) :
      Moves D s (.task n) (s.finish n requestId (ackResult result))
  | respond {n requestId result native} (hat : s.tasks n = .responding requestId result)
      (hsend : s.native.send (response requestId result) = some (true, native)) :
      Moves D s (.task n) (((s.setNative native).setTask n .ended).record (.answered n (response requestId result)))
  | disconnect {frame} (hat : s.reader = .reading) : Moves D s (.frame frame) s.disconnect
  | deliver {request row ack result} (hat : s.reader = .reading) (hbody : request.body = .eventAck ack) (hrow : row ∈ s.pending)
      (hid : row.requestId = request.requestId) (hresult : ∀ a, result = .ok a → a = ack ∧ request.actionExecutionId = .nil) :
      Moves D s (.frame (some request)) ((s.record (.received request)).deliver row result)
  | ignore {request ack} (hat : s.reader = .reading) (hbody : request.body = .eventAck ack) :
      Moves D s (.frame (some request)) (s.record (.received request))
  | accept {request inbound} (hat : s.reader = .reading) (hinbound : request.inbound? = some inbound) :
      Moves D s (.frame (some request)) ((s.record (.received request)).setReader (.passing inbound))
  | pass {inbound} (hat : s.reader = .passing inbound) : Moves D s .pass (s.enqueue inbound)
  | receiveNative {native} (h : s.native.receive = some native) : Moves D s .receiveNative (s.setNative native)
  | writeNative {native} (h : s.native.write true = some native) : Moves D s (.writeNative true) (s.setNative native)
  | receiveAdapter {adapter} (h : s.adapter.receive = some adapter) : Moves D s .receiveAdapter (s.setAdapter adapter)
  | writeAdapter {adapter ok} (h : s.adapter.write ok = some adapter) : Moves D s (.writeAdapter ok) (s.setAdapter adapter)

/-- The main loop has not ended, and what the browser is told goes out. -/
structure Host.IsRunning (s : Host) : Prop where
  running : s.mainLoop ≠ .stopped
  speaking : s.native.isOpen = true

theorem Host.isListening_iff {s : Host} : s.isListening = true ↔ s.mainLoop = .listening := by
  unfold isListening
  split
  · rename_i h
    exact ⟨fun _ => h, fun _ => rfl⟩
  · rename_i h
    exact ⟨(nomatch ·), fun hlistening => absurd hlistening h⟩

theorem Host.isReading_iff {s : Host} : s.isReading = true ↔ s.reader = .reading := by
  unfold isReading
  split
  · rename_i h
    exact ⟨fun _ => h, fun _ => rfl⟩
  · rename_i h
    exact ⟨(nomatch ·), fun hreading => absurd hreading h⟩

namespace Moves
variable {D : Decoders} {s s' : Host} {n : Nat} {message : NativeEnvelope} {e : HostEvent}

theorem readNative (hat : s.mainLoop = .listening) (hnew : isEmission message = true → message.requestId ∉ emissionIds s.log) :
    Moves D s (.native message) (s.readNative D message) := by
  unfold Host.readNative
  split
  · rename_i herror
    exact .turn hat hnew (.refused herror)
  · rename_i hrequest
    exact .turn hat hnew (.requesting hrequest)
  · rename_i hemit
    exact .spawn hat (hnew ((emits_iff hemit).mpr ⟨_, rfl⟩)) hemit
  · rename_i hresult
    exact .turn hat hnew (.returning hresult)
  · rename_i hpong
    exact .turn hat hnew (.pong hpong)

theorem runTask (hspeaking : s.native.isOpen = true) (hs : s.runTask n = some s') : Moves D s (.task n) s' := by
  unfold Host.runTask at hs
  split at hs
  · rename_i requestId event hat
    split_ifs at hs with hfound
    · exact Option.some.inj hs ▸ .duplicate hat
    · have hfree : ∀ row ∈ s.pending, row.requestId ≠ requestId := by
        intro row hrow heq
        exact hfound (List.any_eq_true.mpr ⟨row, hrow, beq_iff_eq.mpr heq⟩)
      exact Option.some.inj hs ▸ .enter hat hfree
  · rename_i requestId event hat
    obtain ⟨⟨sent, adapter⟩, hsend, rfl⟩ := Option.map_eq_some_iff.mp hs
    cases sent with
    | true => exact .send hat hsend
    | false => exact .fail .adapterUnavailable (by rw [hat]; rfl) (.inl rfl)
  · rename_i requestId hat
    split at hs
    · rename_i result hack
      exact Option.some.inj hs ▸ .conclude hat hack
    · split_ifs at hs
      exact Option.some.inj hs ▸ .fail .eventAckClosed (by rw [hat]; rfl) (.inl rfl)
  · rename_i requestId result hat
    obtain ⟨⟨sent, native⟩, hsend, rfl⟩ := Option.map_eq_some_iff.mp hs
    cases sent with
    | true => exact .respond hat hsend
    | false => exact nomatch hspeaking.symm.trans (Writer.send_false hsend)
  all_goals exact nomatch hs

theorem expire (hs : s.expire n = some s') : Moves D s (.expire n) s' := by
  unfold Host.expire at hs
  split at hs
  · rename_i requestId hat hack
    exact Option.some.inj hs ▸ .fail .eventAckTimeout (by rw [hat]; rfl) (.inr rfl)
  · exact nomatch hs

theorem route {request : AdapterRequestEnvelope} (hat : s.reader = .reading) :
    Moves D s (.frame (some request)) ((s.record (.received request)).routeAdapterRequest request) := by
  unfold routeAdapterRequest
  split
  · rename_i ack hbody
    split
    · rename_i row hfind
      have hid : row.requestId = request.requestId := by simpa using List.find?_some hfind
      apply Moves.deliver hat hbody (List.mem_of_find?_eq_some hfind) hid
      intro a ha
      split_ifs at ha with hnil
      exact ⟨(Except.ok.inj ha).symm, hnil⟩
    · exact .ignore hat hbody
  · rename_i payload hbody
    have hinbound : request.inbound? = some (.action request.requestId request.actionExecutionId payload) := by
      rw [AdapterRequestEnvelope.inbound?, hbody]
    exact .accept hat hinbound
  · rename_i hbody
    have hinbound : request.inbound? = some (.status request.requestId request.actionExecutionId) := by
      rw [AdapterRequestEnvelope.inbound?, hbody]
    exact .accept hat hinbound

theorem readFrame (hat : s.reader = .reading) (frame : Option AdapterRequestEnvelope) :
    Moves D s (.frame frame) (s.readFrame frame) := by
  unfold Host.readFrame
  split
  · split_ifs
    · exact route hat
    · exact .disconnect hat
  · exact .disconnect hat

theorem pass_of (hrunning : s.mainLoop ≠ .stopped) (hs : s.pass = some s') : Moves D s .pass s' := by
  unfold Host.pass at hs
  split at hs
  · rename_i hstopped
    exact absurd hstopped hrunning
  · rename_i hat _
    split_ifs at hs
    exact Option.some.inj hs ▸ .pass hat
  · exact nomatch hs

theorem respond_of {value : Option Json} (hs : s.respond value = some s') : Moves D s (.respond value) s' := by
  unfold Host.respond at hs
  split at hs
  · rename_i hat
    exact Option.some.inj hs ▸ .answerWith hat
  · rename_i hat
    exact Option.some.inj hs ▸ .answerWith hat
  · exact nomatch hs

theorem proceed (hspeaking : s.native.isOpen = true) (hs : s.proceed = some s') : Moves D s .proceed s' := by
  unfold Host.proceed at hs
  split at hs
  · rename_i n requestId response hat
    obtain ⟨⟨sent, adapter⟩, hsend, rfl⟩ := Option.map_eq_some_iff.mp hs
    cases sent with
    | true => exact .returned hat hsend
    | false => exact .unreturned hat
  · rename_i n envelope hat
    obtain ⟨⟨sent, native⟩, hsend, rfl⟩ := Option.map_eq_some_iff.mp hs
    cases sent with
    | true => exact .answer hat hsend
    | false => exact nomatch hspeaking.symm.trans (Writer.send_false hsend)
  · rename_i inbound hat
    obtain ⟨⟨sent, t⟩, hforward, rfl⟩ := Option.map_eq_some_iff.mp hs
    cases inbound with
    | action requestId actionExecutionId payload =>
      obtain ⟨⟨sent', native⟩, hsend, heq⟩ := Option.map_eq_some_iff.mp hforward
      obtain ⟨rfl, rfl⟩ := Prod.mk.inj heq
      exact .forwardAction hat hsend
    | status requestId actionExecutionId =>
      obtain ⟨⟨sent', adapter⟩, hsend, heq⟩ := Option.map_eq_some_iff.mp hforward
      obtain ⟨rfl, rfl⟩ := Prod.mk.inj heq
      exact .forwardStatus hat hsend
  · exact nomatch hs

theorem of_step (h : s.IsRunning) (hok : Routine s e) (hs : s.step D e = some s') : Moves D s e s' := by
  cases e with
  | native message =>
    simp only [Host.step] at hs
    split_ifs at hs with hat
    have hnew : isEmission message = true → message.requestId ∉ emissionIds s.log := by
      intro hemission hmem
      have hroutine : (! (isEmission message && (emissionIds s.log).contains message.requestId)) = true := hok
      rw [hemission, List.contains_iff_mem.mpr hmem] at hroutine
      exact nomatch hroutine
    exact Option.some.inj hs ▸ readNative (isListening_iff.mp hat) hnew
  | respond value => exact respond_of hs
  | take =>
    have htake : s.take = some s' := hs
    unfold Host.take at htake
    split at htake
    · rename_i hat hqueue
      exact Option.some.inj htake ▸ .take hat hqueue
    · exact nomatch htake
  | proceed => exact proceed h.speaking hs
  | task n => exact runTask h.speaking hs
  | expire n => exact expire hs
  | frame frame =>
    simp only [Host.step] at hs
    split_ifs at hs with hat
    exact Option.some.inj hs ▸ readFrame (isReading_iff.mp hat) frame
  | pass => exact pass_of h.running hs
  | receiveNative =>
    obtain ⟨native, hnative, rfl⟩ := Option.map_eq_some_iff.mp hs
    exact .receiveNative hnative
  | writeNative ok =>
    obtain rfl : ok = true := hok
    obtain ⟨native, hnative, rfl⟩ := Option.map_eq_some_iff.mp hs
    exact .writeNative hnative
  | receiveAdapter =>
    obtain ⟨adapter, hadapter, rfl⟩ := Option.map_eq_some_iff.mp hs
    exact .receiveAdapter hadapter
  | writeAdapter ok =>
    obtain ⟨adapter, hadapter, rfl⟩ := Option.map_eq_some_iff.mp hs
    exact .writeAdapter hadapter
  | quit => exact nomatch hok

theorem isRunning (h : s.IsRunning) (hm : Moves D s e s') : s'.IsRunning := by
  have hspeaks : ∀ {native : Writer NativeEnvelope} {envelope} {sent : Bool}, s.native.send envelope = some (sent, native) →
      native.isOpen = true := fun hsend => (Writer.send_isOpen hsend).trans h.speaking
  cases hm with
  | turn _ _ hturns =>
    refine ⟨?_, h.speaking⟩
    cases hturns <;> exact fun hstopped => nomatch hstopped
  | answerWith _ => exact ⟨(nomatch ·), h.speaking⟩
  | take _ _ => exact ⟨(nomatch ·), h.speaking⟩
  | returned _ _ => exact ⟨(nomatch ·), h.speaking⟩
  | unreturned _ => exact ⟨(nomatch ·), h.speaking⟩
  | answer _ hsend => exact ⟨(nomatch ·), hspeaks hsend⟩
  | forwardAction _ hsend => exact ⟨(nomatch ·), hspeaks hsend⟩
  | forwardStatus _ _ => exact ⟨(nomatch ·), h.speaking⟩
  | respond _ hsend => exact ⟨h.running, hspeaks hsend⟩
  | receiveNative hreceive =>
    obtain ⟨-, -, -, -, hopen⟩ := Writer.receive_eq hreceive
    exact ⟨h.running, hopen.trans h.speaking⟩
  | writeNative hwrite =>
    obtain ⟨-, rfl⟩ := Writer.write_eq hwrite
    exact ⟨h.running, h.speaking⟩
  | _ => exact ⟨h.running, h.speaking⟩

end Moves
end Fubun.NativeHost

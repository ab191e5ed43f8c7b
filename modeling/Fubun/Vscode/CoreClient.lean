import Fubun.Concurrency.Machine
import Fubun.Frames.Divisions
import Fubun.Relational.Stream

/-! `CoreClient.request`: a connection for one request. Its socket may deliver anything, in any pieces and at
any time, and may fail or close whenever it likes. -/

namespace Fubun.Vscode
open Encoding Extensions Frames Relational Concurrency.Machine

/-- What `request` is called with, the ids that it has drawn, and what it decodes payloads with. When the
request makes no frame, `framed` throws. -/
structure CoreRequest where
  helloId : String
  requestId : String
  expectedKind : String
  framed : Except String Unit
  parse : List UInt8 → Option Json

inductive ClientEntry where
  | wroteHello
  | wroteRequest
  | received (frame : Json)
  /-- The promise is settled; the timer is cleared and the socket is ended. -/
  | settled (outcome : Except String (Option Json))

structure ClientState where
  decoder : List UInt8
  connected : Bool
  helloComplete : Bool
  settled : Bool
  timed : Bool
  log : List ClientEntry

inductive ClientEvent where
  | connect
  | data (chunk : List UInt8)
  | error (message : String)
  | close
  | timeout

namespace ClientState
variable (q : CoreRequest) (s : ClientState)

def init : ClientState := ⟨[], false, false, false, true, []⟩

def record (entry : ClientEntry) : ClientState := { s with log := s.log ++ [entry] }

def finish (outcome : Except String (Option Json)) : ClientState :=
  if s.settled then s else { s with settled := true, timed := false, log := s.log ++ [.settled outcome] }

def completeHello : ClientState := { s with helloComplete := true }

/-- One frame of `onData`, with what its `catch` makes of an error. -/
def handleFrame (frame : Json) : ClientState :=
  let s := s.record (.received frame)
  match parseCoreResponse frame with
  | .error error => s.finish (.error error)
  | .ok response =>
    if s.helloComplete then
      if response.requestId ≠ q.requestId ∨ response.kind ≠ q.expectedKind then
        s.finish (.error "unexpected Core response")
      else s.finish (.ok response.data)
    else if response.requestId ≠ q.helloId ∨ response.kind ≠ "client.hello_ack" then
      s.finish (.error "invalid Core hello acknowledgement")
    else
      -- the request is written even when the promise has been settled in between
      match q.framed with
      | .ok () => s.completeHello.record .wroteRequest
      | .error error => s.completeHello.finish (.error error)

def handleData (chunk : List UInt8) : ClientState :=
  match push q.parse s.decoder chunk with
  | (.ok frames, buffer) => frames.foldl (handleFrame q) { s with decoder := buffer }
  | (.error error, buffer) => finish { s with decoder := buffer } (.error error)

/-- The callbacks of the socket and of the timer. -/
def step : ClientEvent → Option ClientState
  | .connect => if s.connected then none else some (record { s with connected := true } .wroteHello)
  | .data chunk => some (s.handleData q chunk)
  | .error message => some (s.finish (.error message))
  | .close => some (s.finish (.error "Core connection closed"))
  | .timeout => if s.timed then some (finish { s with timed := false } (.error "Core request timed out")) else none

end ClientState

/-! ## What the log tells -/

def AnsweredLast (q : CoreRequest) (log : List ClientEntry) (data : Option Json) : Prop :=
  .wroteRequest ∈ log ∧ ∃ earlier frame, log = earlier ++ [.received frame] ∧
    responseData q.requestId q.expectedKind frame = .ok data

/-- The request is written once, behind the acknowledgement of the hello. The promise is settled once, and
with data only when they are those of the answer to the request. -/
def IsDue (q : CoreRequest) (log : List ClientEntry) : ClientEntry → Prop
  | .wroteRequest => .wroteRequest ∉ log ∧
    ∃ frame data, .received frame ∈ log ∧ responseData q.helloId "client.hello_ack" frame = .ok data
  | .settled outcome => (∀ earlier, .settled earlier ∉ log) ∧ ∀ data, outcome = .ok data → AnsweredLast q log data
  | .wroteHello | .received _ => True

structure ClientState.IsSound (q : CoreRequest) (s : ClientState) : Prop where
  log : Follows (IsDue q) s.log
  settled : s.settled = true ↔ ∃ outcome, .settled outcome ∈ s.log
  timed : s.timed = ! s.settled
  unasked : s.helloComplete = false → .wroteRequest ∉ s.log
  asked : s.helloComplete = true → s.settled = false → .wroteRequest ∈ s.log

namespace ClientState.IsSound
variable {q : CoreRequest} {s : ClientState}

theorem init : ClientState.init.IsSound q where
  log := .nil
  settled := by simp [ClientState.init]
  timed := rfl
  unasked _ := List.not_mem_nil
  asked h := by cases h

theorem received (h : s.IsSound q) (frame : Json) : (s.record (.received frame)).IsSound q where
  log := h.log.snoc trivial
  settled := by simpa [ClientState.record] using h.settled
  timed := h.timed
  unasked hhello := by simpa [ClientState.record] using h.unasked hhello
  asked hhello hsettled := List.mem_append_left _ (h.asked hhello hsettled)

theorem finish (h : s.IsSound q) {outcome : Except String (Option Json)}
    (hdata : s.settled = false → ∀ data, outcome = .ok data → AnsweredLast q s.log data) : (s.finish outcome).IsSound q := by
  unfold ClientState.finish
  split
  · exact h
  rename_i hopen
  have hopen : s.settled = false := by simpa using hopen
  have hnone : ∀ earlier, .settled earlier ∉ s.log := by
    intro earlier hmem
    rw [h.settled.mpr ⟨earlier, hmem⟩] at hopen
    cases hopen
  refine ⟨h.log.snoc ⟨hnone, hdata hopen⟩, ?_, rfl, fun hhello => ?_, fun _ hsettled => by cases hsettled⟩
  · exact iff_of_true rfl ⟨outcome, List.mem_append_right _ List.mem_cons_self⟩
  · simpa using h.unasked hhello

theorem fail (h : s.IsSound q) (error : String) : (s.finish (.error error)).IsSound q :=
  h.finish fun _ _ ho => by cases ho

/-- An error on the way settles the promise, so that a completed hello without a request does not stay open. -/
theorem failHello (h : s.IsSound q) (error : String) :
    (s.completeHello.finish (.error error)).IsSound q := by
  have hfailed := h.fail error
  unfold ClientState.finish at hfailed ⊢
  split at hfailed
  · rename_i hsettled
    rw [if_pos (show s.completeHello.settled = true from hsettled)]
    exact ⟨h.log, h.settled, h.timed, fun hh => (by cases hh),
      fun _ hopen => absurd (hsettled.symm.trans hopen) (by decide)⟩
  · rename_i hopen
    rw [if_neg (show ¬ s.completeHello.settled = true from hopen)]
    exact ⟨hfailed.log, hfailed.settled, hfailed.timed, fun hh => (by cases hh), fun _ hh => (by cases hh)⟩

theorem ask (h : s.IsSound q) (hhello : s.helloComplete = false)
    (hack : ∃ frame data, .received frame ∈ s.log ∧ responseData q.helloId "client.hello_ack" frame = .ok data) :
    (s.completeHello.record .wroteRequest).IsSound q where
  log := h.log.snoc ⟨h.unasked hhello, hack⟩
  settled := by simpa [ClientState.record, ClientState.completeHello] using h.settled
  timed := h.timed
  unasked hh := by cases hh
  asked _ _ := List.mem_append_right _ List.mem_cons_self

theorem responseData_of_parse {requestId kind : String} {frame : Json} {response : CoreResponse}
    (hparse : parseCoreResponse frame = .ok response) (hsame : ¬ (response.requestId ≠ requestId ∨ response.kind ≠ kind)) :
    responseData requestId kind frame = .ok response.data := by
  unfold responseData
  rw [hparse]
  exact if_neg hsame

theorem handleFrame (h : s.IsSound q) (frame : Json) : (s.handleFrame q frame).IsSound q := by
  have hreceived := h.received frame
  unfold ClientState.handleFrame
  cases hparse : parseCoreResponse frame with
  | error error => exact hreceived.fail error
  | ok response =>
    dsimp only
    split
    · rename_i hhello
      split
      · exact hreceived.fail _
      · rename_i hsame
        refine hreceived.finish fun hopen data hdata => ?_
        obtain rfl := Except.ok.inj hdata
        exact ⟨hreceived.asked hhello hopen, s.log, frame, rfl, responseData_of_parse hparse hsame⟩
    · rename_i hhello
      have hhello : (s.record (.received frame)).helloComplete = false := by simpa using hhello
      split
      · exact hreceived.fail _
      · rename_i hsame
        split
        · exact hreceived.ask hhello ⟨frame, response.data, List.mem_append_right _ List.mem_cons_self, responseData_of_parse hparse hsame⟩
        · exact hreceived.failHello _

theorem handleFrames (h : s.IsSound q) (frames : List Json) : (frames.foldl (ClientState.handleFrame q) s).IsSound q := by
  induction frames generalizing s with
  | nil => exact h
  | cons frame frames ih => exact ih (h.handleFrame frame)

theorem step {s' : ClientState} {e : ClientEvent} (h : s.IsSound q) (hs : s.step q e = some s') : s'.IsSound q := by
  cases e with
  | connect =>
    simp only [ClientState.step] at hs
    split at hs
    · cases hs
    obtain rfl := Option.some.inj hs
    exact ⟨h.log.snoc trivial, by simpa [ClientState.record] using h.settled, h.timed,
      fun hhello => by simpa [ClientState.record] using h.unasked hhello, fun hhello hopen => List.mem_append_left _ (h.asked hhello hopen)⟩
  | data chunk =>
    obtain rfl := Option.some.inj hs
    have hbuffer : ∀ buffer, ({ s with decoder := buffer } : ClientState).IsSound q :=
      fun buffer => ⟨h.log, h.settled, h.timed, h.unasked, h.asked⟩
    unfold ClientState.handleData
    split
    · exact (hbuffer _).handleFrames _
    · exact (hbuffer _).fail _
  | error message => exact Option.some.inj hs ▸ h.fail message
  | close => exact Option.some.inj hs ▸ h.fail _
  | timeout =>
    simp only [ClientState.step] at hs
    split at hs
    · rename_i htimed
      obtain rfl := Option.some.inj hs
      -- the timer runs only while the promise is open, and its firing closes it
      have hopen : s.settled = false := by simpa [htimed] using h.timed
      have hfailed := h.fail "Core request timed out"
      unfold ClientState.finish at hfailed ⊢
      rw [if_neg (by simp [hopen])] at hfailed ⊢
      exact ⟨hfailed.log, hfailed.settled, hfailed.timed, hfailed.unasked, hfailed.asked⟩
    · cases hs

end ClientState.IsSound

/-- Whatever the socket delivers and whenever the timer fires, the request is written at most once and only
behind the acknowledgement of its hello, its promise is settled at most once and with data only by the answer
to it, and as long as it is open its timer is running and will settle it. -/
theorem request_settles {q : CoreRequest} {s : ClientState} (h : Reaches (ClientState.step q) .init Anyhow s) :
    Follows (IsDue q) s.log ∧ (s.settled = true ↔ ∃ outcome, .settled outcome ∈ s.log) ∧
      (s.settled = false → ∃ s', s.step q .timeout = some s' ∧ s'.settled = true) := by
  have hsound : s.IsSound q := h.invariant (I := (·.IsSound q)) .init fun _ _ _ hi _ hs => hi.step hs
  refine ⟨hsound.log, hsound.settled, fun hopen => ?_⟩
  have htimed : s.timed = true := by simp [hsound.timed, hopen]
  refine ⟨_, by rw [ClientState.step, if_pos htimed], ?_⟩
  simp [ClientState.finish, hopen]

end Fubun.Vscode

namespace Fubun.Sample
open Vscode Encoding Extensions

def statusRequest : CoreRequest where
  helloId := (1 : Uuid).text
  requestId := (2 : Uuid).text
  expectedKind := "status"
  framed := .ok ()
  parse
    | [1] => some (okResponseJson 1 "client.hello_ack" .null)
    | [2] => some (okResponseJson 2 "status" (.number 5))
    | _ => none

end Fubun.Sample

namespace Fubun.Vscode
open Encoding Extensions Frames Relational Concurrency.Machine

theorem request_settles_answered : ∃ s, Reaches (ClientState.step Sample.statusRequest) .init Anyhow s ∧
    s.settled = true ∧ Follows (IsDue Sample.statusRequest) s.log := by
  have hrun : ((exec (ClientState.step Sample.statusRequest) .init
      [.connect, .data [1, 0, 0, 0, 1, 1, 0], .data [0, 0, 2], .close]).map
        (fun s => (s.settled, s.log.length))) = some (true, 5) := by
    decide +kernel
  obtain ⟨s, hs, heq⟩ := Option.map_eq_some_iff.mp hrun
  have hr := Reaches.init.exec hs
  exact ⟨s, hr, (Prod.mk.inj heq).1, (request_settles hr).1⟩

/-! ## The answers in any pieces -/

namespace ClientState
variable {q : CoreRequest} {s : ClientState}

def greeted : ClientState := record { init with connected := true } .wroteHello

def hold (s : ClientState) (buffer : List UInt8) : ClientState := { s with decoder := buffer }

theorem finish_hold (buffer : List UInt8) (outcome : Except String (Option Json)) :
    (s.hold buffer).finish outcome = (s.finish outcome).hold buffer := by
  unfold finish
  by_cases hsettled : s.settled = true
  · rw [if_pos hsettled, if_pos (show (s.hold buffer).settled = true from hsettled)]
  · rw [if_neg hsettled, if_neg (show ¬ (s.hold buffer).settled = true from hsettled)]
    rfl

theorem handleFrame_hold (buffer : List UInt8) (frame : Json) :
    (s.hold buffer).handleFrame q frame = (s.handleFrame q frame).hold buffer := by
  unfold handleFrame
  cases parseCoreResponse frame with
  | error error => exact finish_hold (s := s.record _) buffer _
  | ok response =>
    dsimp only
    split
    · rename_i hhello
      rw [if_pos (show (s.record (.received frame)).helloComplete = true from hhello)]
      split <;> exact finish_hold (s := s.record _) buffer _
    · rename_i hhello
      rw [if_neg (show ¬ (s.record (.received frame)).helloComplete = true from hhello)]
      split
      · exact finish_hold (s := s.record _) buffer _
      · cases q.framed with
        | ok => rfl
        | error error => exact finish_hold (s := (s.record _).completeHello) buffer _

theorem handleFrames_hold (buffer : List UInt8) (frames : List Json) :
    frames.foldl (handleFrame q) (s.hold buffer) = (frames.foldl (handleFrame q) s).hold buffer := by
  induction frames generalizing s with
  | nil => rfl
  | cons frame frames ih => rw [List.foldl_cons, handleFrame_hold, ih, List.foldl_cons]

/-- While the decoder does not throw, the values that come out of it are handled in turn. -/
theorem exec_data {chunks : List (List UInt8)} {values : List Json} (h : received q.parse s.decoder chunks = (values, false)) :
    ∃ rest, exec (ClientState.step q) s (chunks.map .data) = some ((values.foldl (handleFrame q) s).hold rest) := by
  induction chunks generalizing s values with
  | nil =>
    obtain ⟨rfl, -⟩ := Prod.mk.inj h
    exact ⟨s.decoder, rfl⟩
  | cons chunk chunks ih =>
    rw [received] at h
    cases hpush : push q.parse s.decoder chunk with
    | mk result buffer =>
      cases result with
      | error error =>
        rw [hpush] at h
        cases (Prod.mk.inj h).2
      | ok frames =>
        rw [hpush] at h
        obtain ⟨hvalues, hraised⟩ := Prod.mk.inj h
        have hdata : s.handleData q chunk = (frames.foldl (handleFrame q) s).hold buffer := by
          rw [handleData, hpush]
          exact handleFrames_hold buffer frames
        have hmore : received q.parse ((frames.foldl (handleFrame q) s).hold buffer).decoder chunks =
            ((received q.parse buffer chunks).1, false) := Prod.ext rfl hraised
        obtain ⟨rest, hrest⟩ := ih hmore
        refine ⟨rest, ?_⟩
        rw [List.map_cons, exec, List.foldlM_cons]
        show exec (ClientState.step q) (s.handleData q chunk) (chunks.map .data) = _
        rw [hdata, hrest, ← hvalues, handleFrames_hold, List.foldl_append]
        rfl

theorem parse_of_responseData {requestId kind : String} {frame : Json} {data : Option Json}
    (h : responseData requestId kind frame = .ok data) : parseCoreResponse frame = .ok ⟨requestId, kind, data⟩ := by
  unfold responseData at h
  cases hparse : parseCoreResponse frame with
  | error error =>
    rw [hparse] at h
    cases h
  | ok response =>
    rw [hparse] at h
    by_cases hsame : response.requestId ≠ requestId ∨ response.kind ≠ kind
    · cases (if_pos hsame).symm.trans h
    · obtain rfl := Except.ok.inj ((if_neg hsame).symm.trans h)
      obtain ⟨hid, hkind⟩ := not_or.mp hsame
      rw [← not_not.mp hid, ← not_not.mp hkind]

theorem handleFrame_ack {frame : Json} {data : Option Json} (hhello : s.helloComplete = false) (hframed : q.framed = .ok ())
    (h : responseData q.helloId "client.hello_ack" frame = .ok data) :
    s.handleFrame q frame = (s.record (.received frame)).completeHello.record .wroteRequest := by
  unfold handleFrame
  rw [parse_of_responseData h]
  dsimp only
  rw [if_neg (show ¬ (s.record (.received frame)).helloComplete = true from Bool.eq_false_iff.mp hhello), if_neg (by simp), hframed]

theorem handleFrame_answer {frame : Json} {data : Option Json} (hhello : s.helloComplete = true)
    (h : responseData q.requestId q.expectedKind frame = .ok data) :
    s.handleFrame q frame = (s.record (.received frame)).finish (.ok data) := by
  unfold handleFrame
  rw [parse_of_responseData h]
  dsimp only
  rw [if_pos (show (s.record (.received frame)).helloComplete = true from hhello), if_neg (by simp)]

end ClientState

/-- The payload fits into a frame, and this is the value that is read from it. -/
structure CoreRequest.Reads (q : CoreRequest) (payload : List UInt8) (value : Json) : Prop where
  pos : 1 ≤ payload.length
  le : payload.length ≤ maxMessageSize
  parse : q.parse payload = some value

/-- However the frames of two values are cut, the decoder gives the values and does not throw. -/
theorem received_two {q : CoreRequest} {first second : List UInt8} {v w : Json} (hfirst : q.Reads first v)
    (hsecond : q.Reads second w) {chunks : List (List UInt8)} (hchunks : chunks.flatten = frame first ++ frame second) :
    received q.parse [] chunks = ([v, w], false) := by
  have hdrained : drain q.parse (frame first ++ (frame second ++ [])) = (.ok [v, w], []) := by
    rw [drain_frame hfirst.pos hfirst.le hfirst.parse, drain_frame hsecond.pos hsecond.le hsecond.parse]
    rfl
  rw [List.append_nil] at hdrained
  have hwhole : received q.parse [] [frame first ++ frame second] = ([v, w], false) := by
    have hpush : push q.parse [] (frame first ++ frame second) = (.ok [v, w], []) := hdrained
    rw [received, hpush]
    rfl
  -- the stream is nowhere malformed, so that it does not matter where it is cut
  have hflatten : chunks.flatten = [frame first ++ frame second].flatten := by
    rw [hchunks, List.flatten_singleton]
  have hsound : (received q.parse [] [frame first ++ frame second]).2 =
      (malformedAt q.parse [frame first ++ frame second].flatten).isSome := received_raises _
  rw [hwhole, ← hflatten] at hsound
  rw [← hwhole, received_division hflatten]
  intro p hp
  rw [hp] at hsound
  cases hsound

/-- However the socket cuts the acknowledgement and the answer, the request is written between them, and the
promise is resolved with the data of the answer. -/
theorem request_resolves {q : CoreRequest} {helloId requestId : Uuid} {ack answer : List UInt8} {greeting data : Json}
    (hhello : q.helloId = helloId.text) (hrequest : q.requestId = requestId.text) (hframed : q.framed = .ok ())
    (hack : q.Reads ack (okResponseJson helloId "client.hello_ack" greeting))
    (hanswer : q.Reads answer (okResponseJson requestId q.expectedKind data)) {chunks : List (List UInt8)}
    (hchunks : chunks.flatten = frame ack ++ frame answer) :
    ∃ s, exec (ClientState.step q) .init (.connect :: chunks.map .data) = some s ∧
      s.log = [.wroteHello, .received (okResponseJson helloId "client.hello_ack" greeting), .wroteRequest,
        .received (okResponseJson requestId q.expectedKind data), .settled (.ok (some data))] := by
  have hacked : responseData q.helloId "client.hello_ack" (okResponseJson helloId "client.hello_ack" greeting) = .ok (some greeting) :=
    hhello ▸ responseData_ok helloId _ greeting
  have hanswered : responseData q.requestId q.expectedKind (okResponseJson requestId q.expectedKind data) = .ok (some data) :=
    hrequest ▸ responseData_ok requestId _ data
  obtain ⟨rest, hrest⟩ := ClientState.exec_data (s := .greeted) (received_two hack hanswer hchunks)
  have hexec : exec (ClientState.step q) .init (.connect :: chunks.map .data) = _ := hrest
  refine ⟨_, hexec, ?_⟩
  -- the first frame completes the hello, the second one settles the promise
  rw [List.foldl_cons, ClientState.handleFrame_ack rfl hframed hacked, List.foldl_cons, ClientState.handleFrame_answer rfl hanswered]
  rfl

theorem request_resolves_cut : ∃ s, exec (ClientState.step Sample.statusRequest) .init
      [.connect, .data [1, 0, 0, 0, 1, 1, 0], .data [0, 0, 2]] = some s ∧ .settled (.ok (some (.number 5))) ∈ s.log := by
  have hack : Sample.statusRequest.Reads [1] (okResponseJson 1 "client.hello_ack" .null) := ⟨by decide, by decide, rfl⟩
  have hanswer : Sample.statusRequest.Reads [2] (okResponseJson 2 "status" (.number 5)) := ⟨by decide, by decide, rfl⟩
  have hhello : Sample.statusRequest.helloId = (1 : Uuid).text := rfl
  have hrequest : Sample.statusRequest.requestId = (2 : Uuid).text := rfl
  have hchunks : [[1, 0, 0, 0, 1, 1, 0], [0, 0, 2]].flatten = frame [1] ++ frame [2] := by decide
  obtain ⟨s, hs, hlog⟩ := request_resolves hhello hrequest rfl hack hanswer hchunks
  exact ⟨s, hs, by simp [hlog]⟩

end Fubun.Vscode

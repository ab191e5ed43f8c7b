import Fubun.Bridge.Correlation
import Fubun.Extensions.Browser
import Fubun.Relational.Stream

/-! The browser integration on its bridge: the numbers of its events go with the instance that the
hello of their port has announced. -/

namespace Fubun.Bridge
open Encoding Extensions Relational

/-! ## The integration -/

structure BrowserSession where
  adapterInstanceId : String
  nextSequence : Nat

/-- The requests of the integration. -/
inductive BrowserCall where
  | enable (label url : String)
  | pause (scopeId : String)
  | event (now : Int) (resourceId : String)

/-- What `extensionHello` reads while it is under way. -/
structure HelloFound where
  requestId : String
  extensionId : String
  extensionVersion : String
  permittedResourceIds : List String

namespace BrowserCall

def type : BrowserCall → String
  | .enable .. => "browser.observation.enable"
  | .pause _ => "browser.observation.pause"
  | .event .. => "browser.event.emit"

def expectedType : BrowserCall → String
  | .enable .. => "browser.observation.enabled"
  | .pause _ => "browser.observation.paused"
  | .event .. => "browser.event.ack"

/-- The payload factory; a number is taken before the date is written, which may throw. -/
def payload (session : BrowserSession) : BrowserCall → Except Thrown (Option Json) × BrowserSession
  | .enable label url => (.ok (some (.object [("label", .string label), ("url", .string url)])), session)
  | .pause scopeId => (.ok (some (.object [("scope_id", .string scopeId)])), session)
  | .event now resourceId =>
    match preparedEvent now session.nextSequence resourceId with
    | some payload => (.ok (some payload), { session with nextSequence := session.nextSequence + 1 })
    | none => (.error (some "Invalid time value"), { session with nextSequence := session.nextSequence + 1 })

end BrowserCall

def extensionHello (found : HelloFound) (session : BrowserSession) : NativeEnvelope :=
  ⟨currentProtocolVersion, found.requestId, "extension.hello",
    some (.object [("extension_id", .string found.extensionId), ("extension_version", .string found.extensionVersion),
      ("extension_instance_id", .string session.adapterInstanceId),
      ("permitted_resource_ids", .array (found.permittedResourceIds.map .string))])⟩

/-- `browser.action.result`, the one message that is not a request. -/
def actionResult (requestId : String) (payload : Json) : NativeEnvelope :=
  ⟨currentProtocolVersion, requestId, "browser.action.result", some payload⟩

/-- The bridge as the service worker makes it. The event chain decides when a request for an event is
made, which here is at any time. -/
def integration : NativeBridgeOptions BrowserSession BrowserCall (String × Json) (Except Thrown HelloFound) where
  requestTimeoutMs := 10000
  maxPending := 64
  type := BrowserCall.type
  expectedType := BrowserCall.expectedType
  payloadFactory := fun call session => call.payload session
  notice := fun (requestId, payload) => actionResult requestId payload
  beginHello := fun uuid session => { session with adapterInstanceId := uuid, nextSequence := 1 }
  createHello := fun found session => found.map (extensionHello · session)

abbrev IntegrationState := BridgeState BrowserSession BrowserCall (String × Json)

abbrev IntegrationEvent := BridgeEvent BrowserCall (String × Json) (Except Thrown HelloFound)

/-! ## What ports are told -/

def NativeEnvelope.sequenceNo? (envelope : NativeEnvelope) : Option Nat :=
  match envelope.payload.bind (·.field? "sequence_no") with
  | some (.number (.ofNat n)) => some n
  | _ => none

def NativeEnvelope.instanceId? (envelope : NativeEnvelope) : Option String :=
  match envelope.payload.bind (·.field? "extension_instance_id") with
  | some (.string instanceId) => some instanceId
  | _ => none

/-- The number of an event, with the port that it was delivered to. -/
def BridgeEntry.delivery? : BridgeEntry → Option (Nat × Nat)
  | .posted port envelope =>
    if envelope.type = "browser.event.emit" then envelope.sequenceNo?.map fun n => (port, n) else none
  | _ => none

def BridgeEntry.announcement? : BridgeEntry → Option (Nat × String)
  | .posted port envelope =>
    if envelope.type = "extension.hello" then envelope.instanceId?.map fun instanceId => (port, instanceId) else none
  | _ => none

def deliveries (log : List BridgeEntry) : List (Nat × Nat) := log.filterMap BridgeEntry.delivery?

def announcements (log : List BridgeEntry) : List (Nat × String) := log.filterMap BridgeEntry.announcement?

theorem mem_deliveries {log : List BridgeEntry} {port n : Nat} : (port, n) ∈ deliveries log ↔
    ∃ envelope, .posted port envelope ∈ log ∧ envelope.type = "browser.event.emit" ∧ envelope.sequenceNo? = some n := by
  constructor
  · intro h
    obtain ⟨entry, hentry, heq⟩ := List.mem_filterMap.mp h
    cases entry with
    | posted p envelope =>
      simp only [BridgeEntry.delivery?] at heq
      split_ifs at heq with htype
      obtain ⟨m, hm, hpair⟩ := Option.map_eq_some_iff.mp heq
      obtain ⟨rfl, rfl⟩ := Prod.mk.inj hpair
      exact ⟨envelope, hentry, htype, hm⟩
    | _ => exact nomatch heq
  · rintro ⟨envelope, hentry, htype, hn⟩
    refine List.mem_filterMap.mpr ⟨_, hentry, ?_⟩
    rw [BridgeEntry.delivery?, if_pos htype, hn]
    rfl

theorem mem_announcements {log : List BridgeEntry} {port : Nat} {instanceId : String} :
    (port, instanceId) ∈ announcements log ↔ ∃ envelope, .posted port envelope ∈ log ∧
      envelope.type = "extension.hello" ∧ envelope.instanceId? = some instanceId := by
  constructor
  · intro h
    obtain ⟨entry, hentry, heq⟩ := List.mem_filterMap.mp h
    cases entry with
    | posted p envelope =>
      simp only [BridgeEntry.announcement?] at heq
      split_ifs at heq with htype
      obtain ⟨i, hi, hpair⟩ := Option.map_eq_some_iff.mp heq
      obtain ⟨rfl, rfl⟩ := Prod.mk.inj hpair
      exact ⟨envelope, hentry, htype, hi⟩
    | _ => exact nomatch heq
  · rintro ⟨envelope, hentry, htype, hi⟩
    refine List.mem_filterMap.mpr ⟨_, hentry, ?_⟩
    rw [BridgeEntry.announcement?, if_pos htype, hi]
    rfl

/-- The sequence numbers of the events delivered to ports that were announced an instance. -/
def sequenceNumbers (log : List BridgeEntry) (instanceId : String) : List Nat :=
  (deliveries log).filterMap fun x => if (x.1, instanceId) ∈ announcements log then some x.2 else none

/-- A hello was posted on the port, and its acknowledgement has been received there. -/
def Acknowledged (log : List BridgeEntry) (port : Nat) : Prop :=
  ∃ hello ack, .posted port hello ∈ log ∧ hello.type = "extension.hello" ∧ .received port ack ∈ log ∧
    ack.type = "extension.hello.ack" ∧ ack.requestId = hello.requestId

theorem Acknowledged.mono {log : List BridgeEntry} {port : Nat} (h : Acknowledged log port) (more : List BridgeEntry) :
    Acknowledged (log ++ more) port := by
  obtain ⟨hello, ack, hposted, htype, hreceived, hack⟩ := h
  exact ⟨hello, ack, List.mem_append_left _ hposted, htype, List.mem_append_left _ hreceived, hack⟩

/-- An event has its number and a hello its instance. -/
def NativeEnvelope.IsComplete (envelope : NativeEnvelope) : Prop :=
  (envelope.type = "browser.event.emit" → envelope.sequenceNo?.isSome = true) ∧
    (envelope.type = "extension.hello" → envelope.instanceId?.isSome = true)

def BridgeEntry.isSilent : BridgeEntry → Bool
  | .posted .. => false
  | _ => true

/-- What the ports were told, by the counter and the instance of the session. -/
structure Allocates (port : Option Nat) (ports : Nat) (session : BrowserSession) (log : List BridgeEntry) : Prop where
  counted : Counted (deliveries log) port session.nextSequence
  posted_lt : ∀ p envelope, .posted p envelope ∈ log → p < ports
  announced : ∀ p, port = some p → ∀ a ∈ announcements log, a.2 = session.adapterInstanceId ↔ a.1 = p
  paired : ∀ a ∈ announcements log, ∀ b ∈ announcements log, a.1 = b.1 ↔ a.2 = b.2
  complete : ∀ p envelope, .posted p envelope ∈ log → envelope.IsComplete

theorem deliveries_append (log more : List BridgeEntry) : deliveries (log ++ more) = deliveries log ++ deliveries more :=
  List.filterMap_append

theorem announcements_append (log more : List BridgeEntry) :
    announcements (log ++ more) = announcements log ++ announcements more := List.filterMap_append

theorem deliveries_silent {more : List BridgeEntry} (h : ∀ entry ∈ more, entry.isSilent = true) : deliveries more = [] := by
  apply List.filterMap_eq_nil_iff.mpr
  intro entry hentry
  cases entry with
  | posted port envelope => exact nomatch h _ hentry
  | _ => rfl

theorem announcements_silent {more : List BridgeEntry} (h : ∀ entry ∈ more, entry.isSilent = true) :
    announcements more = [] := by
  apply List.filterMap_eq_nil_iff.mpr
  intro entry hentry
  cases entry with
  | posted port envelope => exact nomatch h _ hentry
  | _ => rfl

namespace Allocates
variable {port : Option Nat} {ports p : Nat} {session : BrowserSession} {log : List BridgeEntry}

theorem silent (h : Allocates port ports session log) {more : List BridgeEntry}
    (hmore : ∀ entry ∈ more, entry.isSilent = true) : Allocates port ports session (log ++ more) := by
  have hold : ∀ q envelope, .posted q envelope ∈ log ++ more → .posted q envelope ∈ log := by
    intro q envelope hmem
    rcases List.mem_append.mp hmem with hmem | hmem
    · exact hmem
    · exact nomatch hmore _ hmem
  have hsame : announcements (log ++ more) = announcements log := by
    rw [announcements_append, announcements_silent hmore, List.append_nil]
  refine ⟨?_, fun q envelope hq => h.posted_lt q envelope (hold q envelope hq), ?_, ?_,
    fun q envelope hq => h.complete q envelope (hold q envelope hq)⟩
  · rw [deliveries_append, deliveries_silent hmore, List.append_nil]
    exact h.counted
  · rw [hsame]
    exact h.announced
  · rw [hsame]
    exact h.paired

theorem lose (h : Allocates port ports session log) : Allocates none ports session log :=
  { h with counted := h.counted.drop, announced := fun _ hp => nomatch hp }

theorem skip (h : Allocates port ports session log) :
    Allocates port ports { session with nextSequence := session.nextSequence + 1 } log :=
  { h with counted := h.counted.skip }

theorem establish (h : Allocates port ports session log) {uuid : String}
    (hfresh : uuid ∉ (announcements log).map Prod.snd) :
    Allocates (some ports) (ports + 1) { session with adapterInstanceId := uuid, nextSequence := 1 } log where
  counted := by
    apply h.counted.restart
    rintro ⟨q, n⟩ hx rfl
    obtain ⟨envelope, hposted, -, -⟩ := mem_deliveries.mp hx
    exact absurd (h.posted_lt q envelope hposted) (Nat.lt_irrefl q)
  posted_lt := fun q envelope hq => Nat.lt_succ_of_lt (h.posted_lt q envelope hq)
  announced := by
    rintro p ⟨⟩ ⟨q, instanceId⟩ ha
    constructor
    · intro heq
      exact absurd (List.mem_map.mpr ⟨_, ha, heq⟩) hfresh
    · rintro rfl
      obtain ⟨envelope, hposted, -, -⟩ := mem_announcements.mp ha
      exact absurd (h.posted_lt q envelope hposted) (Nat.lt_irrefl q)
  paired := h.paired
  complete := h.complete

theorem post (h : Allocates (some p) ports session log) (hlt : p < ports) {envelope : NativeEnvelope}
    {session' : BrowserSession} (hsession : session'.adapterInstanceId = session.adapterInstanceId)
    (hcounted : Counted (deliveries log ++ deliveries [.posted p envelope]) (some p) session'.nextSequence)
    (hannounced : ∀ a ∈ announcements [.posted p envelope], a = (p, session.adapterInstanceId))
    (hcomplete : envelope.IsComplete) : Allocates (some p) ports session' (log ++ [.posted p envelope]) where
  counted := by
    rw [deliveries_append]
    exact hcounted
  posted_lt := by
    intro q envelope' hq
    rcases List.mem_append.mp hq with hq | hq
    · exact h.posted_lt q envelope' hq
    · obtain ⟨rfl, -⟩ := BridgeEntry.posted.inj (List.mem_singleton.mp hq)
      exact hlt
  announced := by
    rintro q ⟨⟩ a ha
    rw [announcements_append] at ha
    rw [hsession]
    rcases List.mem_append.mp ha with ha | ha
    · exact h.announced p rfl a ha
    · simp [hannounced a ha]
  paired := by
    intro a ha b hb
    rw [announcements_append] at ha hb
    -- on either side an announcement of before, or that of this message
    rcases List.mem_append.mp ha with ha | ha <;> rcases List.mem_append.mp hb with hb | hb
    · exact h.paired a ha b hb
    · rw [hannounced b hb]
      exact (h.announced p rfl a ha).symm
    · rw [hannounced a ha, eq_comm, h.announced p rfl b hb |>.symm, eq_comm]
    · rw [hannounced a ha, hannounced b hb]
      exact iff_of_true rfl rfl
  complete := by
    intro q envelope' hq
    rcases List.mem_append.mp hq with hq | hq
    · exact h.complete q envelope' hq
    · obtain ⟨-, rfl⟩ := BridgeEntry.posted.inj (List.mem_singleton.mp hq)
      exact hcomplete

theorem deliveries_other {envelope : NativeEnvelope} (htype : envelope.type ≠ "browser.event.emit") :
    deliveries [.posted p envelope] = [] := by
  simp [deliveries, BridgeEntry.delivery?, htype]

theorem deliveries_event {envelope : NativeEnvelope} {n : Nat} (htype : envelope.type = "browser.event.emit")
    (hnumber : envelope.sequenceNo? = some n) : deliveries [.posted p envelope] = [(p, n)] := by
  simp [deliveries, BridgeEntry.delivery?, htype, hnumber]

theorem announcements_other {envelope : NativeEnvelope} (htype : envelope.type ≠ "extension.hello") :
    announcements [.posted p envelope] = [] := by
  simp [announcements, BridgeEntry.announcement?, htype]

theorem message (h : Allocates (some p) ports session log) (hlt : p < ports) {envelope : NativeEnvelope}
    (hhello : envelope.type ≠ "extension.hello") (hevent : envelope.type ≠ "browser.event.emit") :
    Allocates (some p) ports session (log ++ [.posted p envelope]) := by
  apply h.post hlt rfl
  · rw [deliveries_other hevent, List.append_nil]
    exact h.counted
  · rw [announcements_other hhello]
    exact fun _ ha => nomatch ha
  · exact ⟨fun htype => absurd htype hevent, fun htype => absurd htype hhello⟩

theorem hello (h : Allocates (some p) ports session log) (hlt : p < ports) {envelope : NativeEnvelope}
    (htype : envelope.type = "extension.hello") (hinstance : envelope.instanceId? = some session.adapterInstanceId) :
    Allocates (some p) ports session (log ++ [.posted p envelope]) := by
  have hevent : envelope.type ≠ "browser.event.emit" := by
    rw [htype]
    decide
  apply h.post hlt rfl
  · rw [deliveries_other hevent, List.append_nil]
    exact h.counted
  · rintro ⟨q, instanceId⟩ ha
    obtain ⟨envelope', hmem, -, hinstance'⟩ := mem_announcements.mp ha
    obtain ⟨rfl, rfl⟩ := BridgeEntry.posted.inj (List.mem_singleton.mp hmem)
    rw [Option.some.inj (hinstance.symm.trans hinstance')]
  · exact ⟨fun htype => absurd htype hevent, fun _ => by rw [hinstance]; rfl⟩

theorem event (h : Allocates (some p) ports session log) (hlt : p < ports) {envelope : NativeEnvelope}
    (htype : envelope.type = "browser.event.emit") (hnumber : envelope.sequenceNo? = some session.nextSequence) :
    Allocates (some p) ports { session with nextSequence := session.nextSequence + 1 } (log ++ [.posted p envelope]) := by
  have hhello : envelope.type ≠ "extension.hello" := by
    rw [htype]
    decide
  have hdelivery : deliveries [.posted p envelope] = [(p, session.nextSequence)] := deliveries_event htype hnumber
  have hsame : ({ session with nextSequence := session.nextSequence + 1 } : BrowserSession).adapterInstanceId =
      session.adapterInstanceId := rfl
  apply h.post hlt hsame
  · rw [hdelivery]
    exact h.counted.emit
  · rw [announcements_other hhello]
    exact fun _ ha => nomatch ha
  · exact ⟨fun _ => by rw [hnumber]; rfl, fun htype => absurd htype hhello⟩

end Allocates

def AfterHello (before : List BridgeEntry) (entry : BridgeEntry) : Prop :=
  ∀ p envelope, entry = .posted p envelope → envelope.type = "browser.event.emit" → Acknowledged before p

/-- Where the hello of the current port stands. -/
structure Greets (port : Option Nat) (ready : Bool) (pending : List PendingNativeRequest) (attempts : Nat → Attempt)
    (session : BrowserSession) (log : List BridgeEntry) : Prop where
  hello : ∀ n p envelope, attempts n = .prepared p (.ok envelope) → port = some p →
    envelope.type = "extension.hello" ∧ envelope.instanceId? = some session.adapterInstanceId
  asked : ∀ request ∈ pending, ∀ n, request.promise = .hello n → ∃ p envelope,
    attempts n = .greeting p request.requestId ∧ port = some p ∧ .posted p envelope ∈ log ∧
      envelope.type = "extension.hello" ∧ envelope.requestId = request.requestId ∧
      request.expectedType = "extension.hello.ack"
  answered : ∀ n p requestId, attempts n = .greeting p requestId → ∀ payload,
    (NativePromise.hello n, payload) ∈ fulfilments log → Acknowledged log p
  ready : ∀ p, port = some p → ready = true → Acknowledged log p
  ordered : Follows AfterHello log

namespace Greets
variable {port : Option Nat} {ready : Bool} {pending pending' : List PendingNativeRequest} {attempts : Nat → Attempt}
  {session session' : BrowserSession} {log more : List BridgeEntry} {n : Nat} {attempt : Attempt}

theorem grow (h : Greets port ready pending attempts session log)
    (hfulfil : ∀ n payload, (NativePromise.hello n, payload) ∉ fulfilments more)
    (hordered : Follows AfterHello (log ++ more)) : Greets port ready pending attempts session (log ++ more) where
  hello := h.hello
  asked := by
    intro request hr n hn
    obtain ⟨p, envelope, hat, hport, hposted, hrest⟩ := h.asked request hr n hn
    exact ⟨p, envelope, hat, hport, List.mem_append_left _ hposted, hrest⟩
  answered := by
    intro n p requestId hat payload hmem
    rw [fulfilments_append] at hmem
    rcases List.mem_append.mp hmem with hmem | hmem
    · exact (h.answered n p requestId hat payload hmem).mono more
    · exact absurd hmem (hfulfil n payload)
  ready := fun p hp hready => (h.ready p hp hready).mono more
  ordered := hordered

theorem post (h : Greets port ready pending attempts session log) {p : Nat} {envelope : NativeEnvelope}
    (hafter : envelope.type = "browser.event.emit" → Acknowledged log p) :
    Greets port ready pending attempts session (log ++ [.posted p envelope]) := by
  have hnone : ∀ n payload, (NativePromise.hello n, payload) ∉ fulfilments [.posted p envelope] :=
    fun _ _ hmem => nomatch hmem
  apply h.grow hnone
  apply h.ordered.snoc
  rintro q envelope' ⟨⟩
  exact hafter

theorem answer (h : Greets port ready pending attempts session log) {promise : NativePromise} (payload : Option Json)
    (hack : ∀ n p requestId, promise = .hello n → attempts n = .greeting p requestId → Acknowledged log p) :
    Greets port ready pending attempts session (log ++ [.settled promise (.fulfilled payload)]) where
  hello := h.hello
  asked := by
    intro request hr n hn
    obtain ⟨p, envelope, hat, hport, hposted, hrest⟩ := h.asked request hr n hn
    exact ⟨p, envelope, hat, hport, List.mem_append_left _ hposted, hrest⟩
  answered := by
    intro n p requestId hat payload' hmem
    rw [fulfilments_append] at hmem
    rcases List.mem_append.mp hmem with hmem | hmem
    · exact (h.answered n p requestId hat payload' hmem).mono _
    · obtain ⟨hn, -⟩ := Prod.mk.inj (List.mem_singleton.mp hmem)
      exact (hack n p requestId hn.symm hat).mono _
  ready := fun p hp hready => (h.ready p hp hready).mono _
  ordered := h.ordered.snoc fun _ _ heq => nomatch heq

theorem shrink (h : Greets port ready pending attempts session log) (hsub : ∀ request ∈ pending', request ∈ pending) :
    Greets port ready pending' attempts session log :=
  { h with asked := fun request hr => h.asked request (hsub request hr) }

theorem setSession (h : Greets port ready pending attempts session log)
    (hsame : session'.adapterInstanceId = session.adapterInstanceId) :
    Greets port ready pending attempts session' log := by
  refine { h with hello := ?_ }
  intro n p envelope hat hport
  rw [hsame]
  exact h.hello n p envelope hat hport

theorem lose (h : Greets port ready pending attempts session log) : Greets none false [] attempts session log where
  hello := fun _ _ _ _ hp => nomatch hp
  asked := fun _ hr => nomatch hr
  answered := h.answered
  ready := fun _ hp => nomatch hp
  ordered := h.ordered

theorem setAttempt (h : Greets port ready pending attempts session log)
    (hhello : ∀ p envelope, attempt = .prepared p (.ok envelope) → port = some p →
      envelope.type = "extension.hello" ∧ envelope.instanceId? = some session.adapterInstanceId)
    (hgreeting : ∀ p requestId, attempt ≠ .greeting p requestId)
    (hpending : ∀ request ∈ pending, request.promise ≠ .hello n) :
    Greets port ready pending (Function.update attempts n attempt) session log where
  hello := by
    intro m p envelope hat hport
    by_cases hmn : m = n
    · subst hmn
      rw [Function.update_self] at hat
      exact hhello p envelope hat hport
    · rw [Function.update_of_ne hmn] at hat
      exact h.hello m p envelope hat hport
  asked := by
    intro request hr m hm
    have hmn : m ≠ n := by
      rintro rfl
      exact hpending request hr hm
    rw [Function.update_of_ne hmn]
    exact h.asked request hr m hm
  answered := by
    intro m p requestId hat
    by_cases hmn : m = n
    · subst hmn
      rw [Function.update_self] at hat
      exact absurd hat (hgreeting p requestId)
    · rw [Function.update_of_ne hmn] at hat
      exact h.answered m p requestId hat
  ready := h.ready
  ordered := h.ordered

theorem greet (h : Greets port ready pending attempts session log) {p : Nat} {requestId : String}
    (hunasked : ∀ request ∈ pending, request.promise ≠ .hello n)
    (hunanswered : ∀ payload, (NativePromise.hello n, payload) ∉ fulfilments log)
    (hpending : ∀ request ∈ pending', request ∈ pending ∨
      (request.promise = .hello n ∧ port = some p ∧ ∃ envelope, .posted p envelope ∈ log ∧
        envelope.type = "extension.hello" ∧ envelope.requestId = request.requestId ∧
        request.requestId = requestId ∧ request.expectedType = "extension.hello.ack")) :
    Greets port ready pending' (Function.update attempts n (.greeting p requestId)) session log where
  hello := by
    intro m q envelope hat hport
    by_cases hmn : m = n
    · subst hmn
      rw [Function.update_self] at hat
      exact nomatch hat
    · rw [Function.update_of_ne hmn] at hat
      exact h.hello m q envelope hat hport
  asked := by
    intro request hr m hm
    rcases hpending request hr with hr | ⟨hn, hport, envelope, hposted, htype, hid, rfl, hexpected⟩
    · have hmn : m ≠ n := by
        rintro rfl
        exact hunasked request hr hm
      rw [Function.update_of_ne hmn]
      exact h.asked request hr m hm
    · obtain rfl := NativePromise.hello.inj (hm.symm.trans hn)
      exact ⟨p, envelope, Function.update_self .., hport, hposted, htype, hid, hexpected⟩
  answered := by
    intro m q requestId' hat payload hmem
    by_cases hmn : m = n
    · subst hmn
      exact absurd hmem (hunanswered payload)
    · rw [Function.update_of_ne hmn] at hat
      exact h.answered m q requestId' hat payload hmem
  ready := h.ready
  ordered := h.ordered

theorem establish (h : Greets none ready [] attempts session log) {ports : Nat}
    (hlt : ∀ n p, (attempts n).port? = some p → p < ports) (hready : ready = false) :
    Greets (some ports) ready [] (Function.update attempts n (.preparing ports)) session' log where
  hello := by
    rintro m p envelope hat ⟨⟩
    by_cases hmn : m = n
    · subst hmn
      rw [Function.update_self] at hat
      exact nomatch hat
    · rw [Function.update_of_ne hmn] at hat
      exact absurd (hlt m ports (by rw [hat]; rfl)) (Nat.lt_irrefl ports)
  asked := fun _ hr => nomatch hr
  answered := by
    intro m p requestId hat
    by_cases hmn : m = n
    · subst hmn
      rw [Function.update_self] at hat
      exact nomatch hat
    · rw [Function.update_of_ne hmn] at hat
      exact h.answered m p requestId hat
  ready := fun _ _ hr => nomatch hready.symm.trans hr
  ordered := h.ordered

end Greets

/-! ## Steps -/

namespace BridgeState
variable {s s' : IntegrationState}

abbrev InOrder (s : IntegrationState) : Prop :=
  Allocates s.port s.ports s.client s.log ∧ Greets s.port s.ready s.pending s.attempts s.client s.log

/-- The identifier of a new instance is not that of an earlier one. -/
def freshInstance (s : IntegrationState) : IntegrationEvent → Bool
  | .call _ est | .fire _ est => ! ((announcements s.log).map Prod.snd).contains est.uuid
  | _ => true

abbrev FreshInstance (s : IntegrationState) (e : IntegrationEvent) : Prop := freshInstance s e = true

theorem follows_silent {log more : List BridgeEntry} (h : Follows AfterHello log)
    (hmore : ∀ entry ∈ more, entry.isSilent = true) : Follows AfterHello (log ++ more) := by
  apply h.append
  rintro entry hentry before p envelope rfl
  exact nomatch hmore _ hentry

theorem InOrder.silent (h : s.InOrder) (more : List BridgeEntry) (hmore : ∀ entry ∈ more, entry.isSilent = true)
    (hfulfil : ∀ n payload, (NativePromise.hello n, payload) ∉ fulfilments more) :
    Allocates s.port s.ports s.client (s.log ++ more) ∧
      Greets s.port s.ready s.pending s.attempts s.client (s.log ++ more) :=
  ⟨h.1.silent hmore, h.2.grow hfulfil (follows_silent h.2.ordered hmore)⟩

theorem InOrder.record (h : s.InOrder) {entry : BridgeEntry} (hentry : entry.isSilent = true)
    (hfulfil : ∀ n payload, entry ≠ .settled (.hello n) (.fulfilled payload)) : (s.record entry).InOrder := by
  apply h.silent [entry]
  · exact fun x hx => List.mem_singleton.mp hx ▸ hentry
  · intro n payload hmem
    obtain ⟨x, hx, heq⟩ := List.mem_filterMap.mp hmem
    obtain rfl := List.mem_singleton.mp hx
    rcases x with _ | _ | _ | ⟨promise, payload' | error⟩
    case settled.fulfilled =>
      obtain ⟨rfl, rfl⟩ := Prod.mk.inj (Option.some.inj heq)
      exact hfulfil n payload' rfl
    all_goals exact nomatch heq

theorem InOrder.reject (h : s.InOrder) (promise : NativePromise) (error : Thrown) :
    (s.settle promise (.rejected error)).InOrder :=
  h.record rfl fun _ _ heq => nomatch heq

theorem InOrder.losePort (h : s.InOrder) (error : Thrown) : (s.losePort error).InOrder := by
  have hgrown := h.silent (s.pending.map fun request => .settled request.promise (.rejected error))
    (fun entry hentry => by obtain ⟨request, -, rfl⟩ := List.mem_map.mp hentry; rfl)
    (fun n payload hmem => by rw [fulfilments_rejected] at hmem; exact nomatch hmem)
  exact ⟨hgrown.1.lose, hgrown.2.lose⟩

theorem announcements_losePort (s : IntegrationState) (error : Thrown) :
    announcements (s.losePort error).log = announcements s.log := by
  have hnone : announcements (s.pending.map fun request => .settled request.promise (.rejected error)) = [] := by
    apply announcements_silent
    intro entry hentry
    obtain ⟨request, -, rfl⟩ := List.mem_map.mp hentry
    rfl
  exact (announcements_append ..).trans (by rw [hnone, List.append_nil])

theorem InOrder.closeCurrentPort (h : s.InOrder) (error : Thrown) : (s.closeCurrentPort error).InOrder :=
  h.losePort error

theorem InOrder.scheduleReconnect (h : s.InOrder) : s.scheduleReconnect.InOrder := by
  unfold BridgeState.scheduleReconnect
  split_ifs <;> exact h

theorem InOrder.cancelReconnect (h : s.InOrder) : s.cancelReconnect.InOrder := by
  unfold BridgeState.cancelReconnect
  split <;> exact h

theorem InOrder.failAttempt (h : s.InOrder) {n port : Nat} {error : Thrown} (hat : (s.attempts n).port? = some port) :
    (s.failAttempt n port error).InOrder := by
  unfold BridgeState.failAttempt
  split_ifs with hport
  · have hclosed := (h.closeCurrentPort (some (error.getD "native host hello failed"))).scheduleReconnect
    have hpending : ((s.closeCurrentPort (some (error.getD "native host hello failed"))).scheduleReconnect).pending = [] :=
      (scheduleReconnect_wiring _).2.2.2.2.2.1
    refine ⟨hclosed.1, hclosed.2.setAttempt (fun _ _ heq => nomatch heq) (fun _ _ heq => nomatch heq) ?_⟩
    intro request hr
    rw [hpending] at hr
    exact nomatch hr
  · refine ⟨h.1, h.2.setAttempt (fun _ _ heq => nomatch heq) (fun _ _ heq => nomatch heq) ?_⟩
    -- a request for the hello of this attempt would be on the current port
    intro request hr hn
    obtain ⟨p, envelope, hgreeting, hcurrent, -⟩ := h.2.asked request hr n hn
    rw [hgreeting] at hat
    exact hport (hcurrent.trans hat)

theorem InOrder.ensureConnected (h : s.InOrder) (hw : s.IsWired) {n : Nat} {call : Option (BridgeCall BrowserCall (String × Json))}
    {est : Establishing} (hfresh : est.uuid ∉ (announcements s.log).map Prod.snd) :
    (s.ensureConnected integration n call est).InOrder := by
  unfold BridgeState.ensureConnected
  split
  · exact h
  · exact h
  · rename_i error hcurrent hconnecting
    have hnone := hw.port_none hcurrent hconnecting
    unfold BridgeState.establish
    split_ifs
    · have hgreets := h.2
      rw [hnone, hw.idle hnone] at hgreets
      refine ⟨h.1.establish hfresh, ?_⟩
      show Greets (some s.ports) s.ready s.pending (Function.update s.attempts n (.preparing s.ports)) ⟨est.uuid, 1⟩ s.log
      rw [hw.idle hnone]
      exact hgreets.establish hw.attempt_lt (hw.unready hnone)
    · have hscheduled := h.scheduleReconnect
      refine ⟨hscheduled.1, hscheduled.2.setAttempt (fun _ _ heq => nomatch heq) (fun _ _ heq => nomatch heq) ?_⟩
      intro request hr
      rw [(scheduleReconnect_wiring s).2.2.2.2.2.1, hw.idle hnone] at hr
      exact nomatch hr

theorem InOrder.invoke (h : s.InOrder) (hw : s.IsWired) {call : BridgeCall BrowserCall (String × Json)} {est : Establishing}
    (hfresh : est.uuid ∉ (announcements s.log).map Prod.snd) : (s.invoke integration call est).InOrder := by
  have hwanted : (s.countCall.setDesired true).InOrder := h
  have hwired : (s.countCall.setDesired true).IsWired := hw
  cases call with
  | start => exact hwanted.ensureConnected hwired hfresh
  | reconnect =>
    have hclosed := hwanted.cancelReconnect.closeCurrentPort (some "native host connection replaced")
    apply hclosed.ensureConnected (hwired.cancelReconnect.closeCurrentPort _)
    -- what is rejected announces nothing
    have hlog : (s.countCall.setDesired true).cancelReconnect.log = s.log := (cancelReconnect_frame _).2.2.2.2
    have hsame := announcements_losePort (s.countCall.setDesired true).cancelReconnect
      (some "native host connection replaced")
    rw [hlog] at hsame
    show est.uuid ∉ (announcements ((s.countCall.setDesired true).cancelReconnect.losePort
      (some "native host connection replaced")).log).map Prod.snd
    rw [hsame]
    exact hfresh
  | request prepared => exact InOrder.ensureConnected (s := s.countCall) h hw hfresh
  | notify notice => exact InOrder.ensureConnected (s := s.countCall) h hw hfresh

theorem InOrder.proceed (h : s.InOrder) (hw : s.IsWired) (hc : s.Corresponding integration) {n : Nat} {writes : Bool}
    (hs : s.proceed integration n writes = some s') : s'.InOrder := by
  cases proceed_cases hs with
  | failed hat => exact h.failAttempt hat
  | @greeted port hello s₁ hat hreq =>
    -- nobody waits for this hello yet, and nothing has fulfilled its promise
    have hunasked : ∀ request ∈ s.pending, request.promise ≠ .hello n := by
      intro request hr hn
      obtain ⟨p, envelope, hgreeting, -⟩ := h.2.asked request hr n hn
      exact nomatch hat.symm.trans hgreeting
    have hunmade : ¬ Made s.tasks s.attempts (.hello n) := by
      show ¬ (s.attempts n).isMade = true
      rw [hat]
      exact Bool.false_ne_true
    have hunanswered : ∀ payload, (NativePromise.hello n, payload) ∉ fulfilments s.log := by
      intro payload hmem
      have hsettled := mem_settledPromises (mem_fulfilments.mp hmem)
      exact hc.promises.fresh hunmade (List.mem_append_right _ hsettled)
    cases hreq with
    | refused _ =>
      have hrejected := h.reject (.hello n) (some "too many native requests")
      have hunfulfilled : ∀ payload, (NativePromise.hello n, payload) ∉
          fulfilments (s.settle (.hello n) (.rejected (some "too many native requests"))).log := by
        intro payload
        rw [fulfilments_reject]
        exact hunanswered payload
      exact ⟨hrejected.1, hrejected.2.greet hunasked hunfulfilled fun _ hr => .inl hr⟩
    | posted _ hconnected =>
      have hport : s.port = some port := hw.connected.mp hconnected
      obtain ⟨htype, hinstance⟩ := h.2.hello n port hello hat hport
      have halloc := h.1
      rw [hport] at halloc
      have htold := halloc.hello (hw.live port hport).1 htype hinstance
      rw [← hport] at htold
      have hgrown := h.2.post (p := port) fun hemit => absurd (htype.symm.trans hemit) (by decide)
      refine ⟨htold, hgrown.greet hunasked ?_ ?_⟩
      · intro payload
        rw [fulfilments_posted]
        exact hunanswered payload
      · intro request hr
        rcases mem_upsertRow_const hr with hr | rfl
        · exact .inl hr
        · exact .inr ⟨rfl, hport, hello, List.mem_append_right _ (List.mem_singleton_self _), htype, rfl, rfl, rfl⟩
    | failed _ =>
      have hrejected := h.reject (.hello n) (some "native host write failed")
      have hunfulfilled : ∀ payload, (NativePromise.hello n, payload) ∉
          fulfilments (s.settle (.hello n) (.rejected (some "native host write failed"))).log := by
        intro payload
        rw [fulfilments_reject]
        exact hunanswered payload
      refine ⟨hrejected.1, hrejected.2.greet hunasked hunfulfilled ?_⟩
      -- the request that could not be written is gone again
      intro request hr
      obtain ⟨hr, hother⟩ := mem_deleteRows.mp hr
      rcases mem_upsertRow_const hr with hr | rfl
      · exact .inl hr
      · exact nomatch (beq_self_eq_true _).symm.trans hother
  | @connected port requestId payload hat hsettled hport =>
    have hended : Greets s.port s.ready s.pending (Function.update s.attempts n (.ended (.ok ()))) s.client s.log :=
      h.2.setAttempt (fun _ _ heq => nomatch heq) (fun _ _ heq => nomatch heq) (hc.not_pending hsettled)
    refine ⟨h.1, { hended with ready := ?_ }⟩
    intro p hp _
    obtain rfl := Option.some.inj (hport.symm.trans hp)
    exact h.2.answered n port requestId hat payload (mem_fulfilments.mpr (settlement?_mem hsettled))

theorem payload_session (call : BrowserCall) (session : BrowserSession) : (call.payload session).2 = session ∨
    (call.payload session).2 = { session with nextSequence := session.nextSequence + 1 } := by
  cases call with
  | enable _ _ => exact .inl rfl
  | pause _ => exact .inl rfl
  | event now resourceId =>
    simp only [BrowserCall.payload]
    split <;> exact .inr rfl

theorem InOrder.setSession (h : s.InOrder) {session : BrowserSession} (hsession : session = s.client ∨
    session = { s.client with nextSequence := s.client.nextSequence + 1 }) : (s.setClient session).InOrder := by
  rcases hsession with rfl | rfl
  · exact h
  · exact ⟨h.1.skip, h.2.setSession rfl⟩

/-- A request for an event carries the number that was next. -/
theorem payload_event {call : BrowserCall} {session session' : BrowserSession} {payload : Option Json}
    (h : call.payload session = (.ok payload, session')) (requestId : String) :
    (call.type = "browser.event.emit" ∧ session' = { session with nextSequence := session.nextSequence + 1 } ∧
        NativeEnvelope.sequenceNo? ⟨currentProtocolVersion, requestId, call.type, payload⟩ = some session.nextSequence) ∨
      (call.type ≠ "browser.event.emit" ∧ call.type ≠ "extension.hello" ∧ session' = session) := by
  cases call with
  | enable label url =>
    obtain ⟨-, rfl⟩ := Prod.mk.inj h
    exact .inr ⟨by simp [BrowserCall.type], by simp [BrowserCall.type], rfl⟩
  | pause scopeId =>
    obtain ⟨-, rfl⟩ := Prod.mk.inj h
    exact .inr ⟨by simp [BrowserCall.type], by simp [BrowserCall.type], rfl⟩
  | event now resourceId =>
    simp only [BrowserCall.payload] at h
    split at h
    · rename_i payload' hpayload
      obtain ⟨hok, rfl⟩ := Prod.mk.inj h
      obtain rfl := Except.ok.inj hok
      obtain ⟨occurredAt, -, rfl⟩ := Option.map_eq_some_iff.mp hpayload
      exact .inl ⟨rfl, rfl, rfl⟩
    · exact nomatch (Prod.mk.inj h).1

theorem InOrder.advance (h : s.InOrder) (hw : s.IsWired) {n : Nat} {requestId : String} {writes : Bool}
    (hs : s.advance integration n requestId writes = some s') : s'.InOrder := by
  cases advance_cases hs with
  | joined _ _ => exact h
  | led _ _ => exact h
  | fulfilled _ _ => exact h.record rfl fun _ _ heq => nomatch heq
  | @noticed notice port hat hconnected =>
    have hport : s.port = some port := hw.connected.mp hconnected
    have halloc := h.1
    rw [hport] at halloc
    have htype : (integration.notice notice).type = "browser.action.result" := rfl
    have htold : Allocates (some port) s.ports s.client (s.log ++ [.posted port (integration.notice notice)]) :=
      halloc.message (hw.live port hport).1 (by rw [htype]; decide) (by rw [htype]; decide)
    rw [← hport] at htold
    have hposted : (s.record (.posted port (integration.notice notice))).InOrder :=
      ⟨htold, h.2.post fun hemit => absurd (htype.symm.trans hemit) (by decide)⟩
    exact hposted.record rfl fun _ _ heq => nomatch heq
  | @rejected call error client hat hclient =>
    -- a payload factory that throws may have taken its number
    have hsession : client = s.client ∨ client = { s.client with nextSequence := s.client.nextSequence + 1 } := by
      rcases hclient with rfl | ⟨prepared, rfl⟩
      · exact .inl rfl
      · exact payload_session prepared s.client
    exact (h.setSession hsession).reject (.call n) error
  | @requested prepared port payload client s₁ hat hpayload hreq =>
    have hsession : client = s.client ∨ client = { s.client with nextSequence := s.client.nextSequence + 1 } := by
      have hsecond : client = (prepared.payload s.client).2 := (congrArg Prod.snd hpayload).symm
      rw [hsecond]
      exact payload_session prepared s.client
    have hset := h.setSession hsession
    cases hreq with
    | refused _ => exact hset.reject (.call n) _
    | posted _ hconnected =>
      have hport : s.port = some port := hw.connected.mp hconnected
      have hready : s.ready = true := (hw.handed n _ port hat).2 hport
      have halloc := h.1
      rw [hport] at halloc
      have hlt : port < s.ports := (hw.live port hport).1
      have htold : Allocates (some port) s.ports client
          (s.log ++ [.posted port ⟨currentProtocolVersion, requestId, prepared.type, payload⟩]) := by
        rcases payload_event hpayload requestId with ⟨htype, rfl, hnumber⟩ | ⟨hemit, hhello, rfl⟩
        · exact halloc.event hlt htype hnumber
        · exact halloc.message hlt hhello hemit
      rw [← hport] at htold
      have hgrown : Greets s.port s.ready s.pending s.attempts client
          (s.log ++ [.posted port ⟨currentProtocolVersion, requestId, prepared.type, payload⟩]) :=
        hset.2.post fun _ => h.2.ready port hport hready
      refine ⟨htold, { hgrown with asked := ?_ }⟩
      -- the new request is for no hello
      intro request hr m hm
      rcases mem_upsertRow_const hr with hr | rfl
      · exact hgrown.asked request hr m hm
      · exact nomatch hm
    | failed _ =>
      have hrejected := hset.reject (.call n) (some "native host write failed")
      refine ⟨hrejected.1, hrejected.2.shrink ?_⟩
      intro request hr
      obtain ⟨hr, hother⟩ := mem_deleteRows.mp hr
      rcases mem_upsertRow_const hr with hr | rfl
      · exact hr
      · exact nomatch (beq_self_eq_true _).symm.trans hother

theorem InOrder.message (h : s.InOrder) {port : Nat} {raw : Json} (hs : s.handleMessage port raw = s') : s'.InOrder := by
  rcases handleMessage_cases hs with rfl | ⟨message, hport, -, hreceives⟩
  · exact h
  · have hreceived : (s.record (.received port message)).InOrder := h.record rfl fun _ _ heq => nomatch heq
    cases hreceives with
    | executed _ => exact hreceived.record rfl fun _ _ heq => nomatch heq
    | unmatched _ => exact hreceived
    | @answered request _ hfind =>
      have hr : request ∈ s.pending := List.mem_of_find?_eq_some hfind
      have hid : request.requestId = message.requestId := by simpa using List.find?_some hfind
      have hsilent : ∀ entry ∈ [BridgeEntry.settled request.promise (request.outcome message)], entry.isSilent = true := by
        intro entry hentry
        rw [List.mem_singleton.mp hentry]
        rfl
      have hshrunk : Greets s.port s.ready (deleteRows (·.requestId == request.requestId) s.pending) s.attempts s.client
          (s.log ++ [.received port message]) :=
        hreceived.2.shrink fun r hr => (mem_deleteRows.mp hr).1
      refine ⟨hreceived.1.silent hsilent, ?_⟩
      rcases request.outcome_cases message with ⟨error, hout⟩ | ⟨hexpected, hout⟩
      · rw [hout]
        have hrejected := hreceived.reject request.promise error
        exact hrejected.2.shrink fun r hr => (mem_deleteRows.mp hr).1
      · rw [hout]
        apply hshrunk.answer
        intro n p requestId hn hat
        obtain ⟨q, envelope, hgreeting, hcurrent, hposted, htype, henvelope, hack⟩ := h.2.asked request hr n hn
        obtain ⟨rfl, -⟩ := Attempt.greeting.inj (hat.symm.trans hgreeting)
        obtain rfl := Option.some.inj (hport.symm.trans hcurrent)
        exact ⟨envelope, message, List.mem_append_left _ hposted, htype, List.mem_append_right _ (List.mem_singleton_self _),
          hexpected.trans hack, hid.symm.trans henvelope.symm⟩

theorem InOrder.fire (h : s.InOrder) (hw : s.IsWired) {callback : TimerCallback} {est : Establishing}
    (hfresh : est.uuid ∉ (announcements s.log).map Prod.snd) : (s.fire integration callback est).InOrder := by
  unfold BridgeState.fire
  split
  · split
    · rename_i request hfind
      have hrejected := h.reject request.promise (some "native request timed out")
      exact ⟨hrejected.1, hrejected.2.shrink fun r hr => (mem_deleteRows.mp hr).1⟩
    · exact h
  · dsimp only
    split_ifs
    · exact h
    · exact InOrder.ensureConnected (s := { s with reconnectTimer := none }.countCall) h hw hfresh

theorem InOrder.step (h : s.InOrder) (hw : s.IsWired) (hc : s.Corresponding integration) {e : IntegrationEvent}
    (hok : FreshInstance s e) (hs : BridgeState.step integration s e = some s') : s'.InOrder := by
  cases e with
  | call call est =>
    have hnew : (! ((announcements s.log).map Prod.snd).contains est.uuid) = true := hok
    have hfresh : est.uuid ∉ (announcements s.log).map Prod.snd := by simpa using hnew
    exact Option.some.inj hs ▸ h.invoke hw hfresh
  | stop =>
    have hstopped : (s.setDesired false).InOrder := h
    exact Option.some.inj hs ▸ hstopped.cancelReconnect.closeCurrentPort _
  | hello n found =>
    simp only [BridgeState.step] at hs
    split at hs
    · rename_i port hat
      rw [← Option.some.inj hs]
      refine ⟨h.1, h.2.setAttempt ?_ (fun _ _ heq => by cases heq) ?_⟩
      · intro p envelope heq _
        obtain ⟨-, hok⟩ := Attempt.prepared.inj heq
        cases found with
        | error error => cases hok
        | ok found =>
          obtain rfl := Except.ok.inj hok
          exact ⟨rfl, rfl⟩
      -- the attempt carries no hello yet, so that no request of it can be pending
      · intro request hr hn
        obtain ⟨p, envelope, hgreeting, -⟩ := h.2.asked request hr n hn
        cases hat.symm.trans hgreeting
    · cases hs
  | proceed n writes =>
    have hs : s.proceed integration n writes = some s' := hs
    exact h.proceed hw hc hs
  | advance n requestId writes =>
    have hs : s.advance integration n requestId writes = some s' := hs
    exact h.advance hw hs
  | message port raw => exact h.message (Option.some.inj hs)
  | disconnect port =>
    simp only [BridgeState.step] at hs
    split_ifs at hs
    rw [← Option.some.inj hs]
    unfold handleDisconnect
    split_ifs
    · have hdisconnected : (s.disconnect [port]).InOrder := h
      exact (hdisconnected.losePort _).scheduleReconnect
    · exact h
  | fire handle est =>
    have hnew : (! ((announcements s.log).map Prod.snd).contains est.uuid) = true := hok
    have hfresh : est.uuid ∉ (announcements s.log).map Prod.snd := by simpa using hnew
    obtain ⟨timer, -, rfl⟩ := Option.map_eq_some_iff.mp hs
    exact InOrder.fire (s := s.clearTimer handle) h hw hfresh

/-! ## Deliveries -/

/-- What a step may deliver: an event under the number of the session, after the session's hello. -/
inductive Delivers (s s' : IntegrationState) : Prop
  | nothing (hlog : deliveries s'.log = deliveries s.log)
  | event (port : Nat) (hport : s.port = some port) (hready : s.ready = true)
      (hlog : deliveries s'.log = deliveries s.log ++ [(port, s.client.nextSequence)])
      (hnext : s'.client.nextSequence = s.client.nextSequence + 1)

theorem deliveries_record {entry : BridgeEntry} (hentry : entry.isSilent = true) :
    deliveries (s.record entry).log = deliveries s.log := by
  have hnone : deliveries [entry] = [] := deliveries_silent fun x hx => List.mem_singleton.mp hx ▸ hentry
  exact (deliveries_append ..).trans (by rw [hnone, List.append_nil])

theorem deliveries_losePort (s : IntegrationState) (error : Thrown) :
    deliveries (s.losePort error).log = deliveries s.log := by
  have hnone : deliveries (s.pending.map fun request => .settled request.promise (.rejected error)) = [] := by
    apply deliveries_silent
    intro entry hentry
    obtain ⟨request, -, rfl⟩ := List.mem_map.mp hentry
    rfl
  exact (deliveries_append ..).trans (by rw [hnone, List.append_nil])

theorem deliveries_posted {port : Nat} {envelope : NativeEnvelope} (htype : envelope.type ≠ "browser.event.emit") :
    deliveries (s.record (.posted port envelope)).log = deliveries s.log :=
  (deliveries_append ..).trans (by rw [Allocates.deliveries_other htype, List.append_nil])

theorem deliveries_failAttempt (s : IntegrationState) (n port : Nat) (error : Thrown) :
    deliveries (s.failAttempt n port error).log = deliveries s.log := by
  unfold BridgeState.failAttempt
  split_ifs
  · have hlog := (scheduleReconnect_frame (s.closeCurrentPort (some (error.getD "native host hello failed")))).2.2.2.2
    exact (congrArg deliveries hlog).trans (deliveries_losePort s _)
  · rfl

theorem Requests.deliveries {port : Nat} {envelope : NativeEnvelope} {expectedType : String} {promise : NativePromise}
    (hs : Requests integration s port envelope expectedType promise s') (htype : envelope.type ≠ "browser.event.emit") :
    Bridge.deliveries s'.log = Bridge.deliveries s.log := by
  cases hs with
  | refused _ => exact deliveries_record rfl
  | posted _ _ => exact deliveries_posted htype
  | failed _ => exact deliveries_record rfl

theorem invoke_deliveries (s : IntegrationState) (call : BridgeCall BrowserCall (String × Json)) (est : Establishing) :
    deliveries (s.invoke integration call est).log = deliveries s.log := by
  cases call with
  | reconnect =>
    have hlog := (cancelReconnect_frame (s.countCall.setDesired true)).2.2.2.2
    have hclosed := deliveries_losePort (s.countCall.setDesired true).cancelReconnect
      (some "native host connection replaced")
    rw [hlog] at hclosed
    exact (congrArg deliveries (ensureConnected_frame ..).1).trans hclosed
  | _ => exact congrArg deliveries (ensureConnected_frame ..).1

theorem advance_delivers (hw : s.IsWired) {n : Nat} {requestId : String} {writes : Bool}
    (hs : s.advance integration n requestId writes = some s') : Delivers s s' := by
  cases advance_cases hs with
  | joined _ _ => exact .nothing rfl
  | led _ _ => exact .nothing rfl
  | fulfilled _ _ => exact .nothing (deliveries_record rfl)
  | @noticed notice port _ _ =>
    have hposted : deliveries (s.record (.posted port (integration.notice notice))).log = deliveries s.log :=
      deliveries_posted (show "browser.action.result" ≠ "browser.event.emit" by decide)
    exact .nothing ((deliveries_record rfl).trans hposted)
  | @rejected call error client _ _ => exact .nothing (deliveries_record (s := s.setClient client) rfl)
  | @requested prepared port payload client s₁ hat hpayload hreq =>
    rcases payload_event hpayload requestId with ⟨htype, rfl, hnumber⟩ | ⟨hemit, -, rfl⟩
    · cases hreq with
      | refused _ => exact .nothing (deliveries_record (s := s.setClient _) rfl)
      | failed _ => exact .nothing (deliveries_record (s := s.setClient _) rfl)
      | posted _ hconnected =>
        have hport : s.port = some port := hw.connected.mp hconnected
        have hdelivery : deliveries [.posted port ⟨currentProtocolVersion, requestId, prepared.type, payload⟩] =
            [(port, s.client.nextSequence)] := Allocates.deliveries_event htype hnumber
        refine .event port hport ((hw.handed n _ port hat).2 hport) ?_ rfl
        exact (deliveries_append ..).trans (congrArg (deliveries s.log ++ ·) hdelivery)
    · exact .nothing (hreq.deliveries hemit)

theorem message_deliveries {port : Nat} {raw : Json} (hs : s.handleMessage port raw = s') :
    deliveries s'.log = deliveries s.log := by
  rcases handleMessage_cases hs with rfl | ⟨message, -, -, hreceives⟩
  · rfl
  · have hreceived : deliveries (s.record (.received port message)).log = deliveries s.log := deliveries_record rfl
    cases hreceives with
    | executed _ => exact (deliveries_record rfl).trans hreceived
    | answered _ _ => exact (deliveries_record rfl).trans hreceived
    | unmatched _ => exact hreceived

theorem fire_deliveries (s : IntegrationState) (callback : TimerCallback) (est : Establishing) :
    deliveries (s.fire integration callback est).log = deliveries s.log := by
  unfold BridgeState.fire
  split
  · split
    · exact deliveries_record rfl
    · rfl
  · dsimp only
    split_ifs
    · rfl
    · exact congrArg deliveries (ensureConnected_frame ..).1

theorem step_delivers (h : s.InOrder) (hw : s.IsWired) {e : IntegrationEvent}
    (hs : BridgeState.step integration s e = some s') : Delivers s s' := by
  cases e with
  | call call est => exact .nothing (Option.some.inj hs ▸ invoke_deliveries s call est)
  | stop =>
    have hlog := (cancelReconnect_frame (s.setDesired false)).2.2.2.2
    rw [← Option.some.inj hs]
    exact .nothing ((deliveries_losePort (s.setDesired false).cancelReconnect _).trans (congrArg deliveries hlog))
  | hello n found =>
    simp only [BridgeState.step] at hs
    split at hs
    · exact .nothing (Option.some.inj hs ▸ rfl)
    · cases hs
  | proceed n writes =>
    have hs : s.proceed integration n writes = some s' := hs
    cases proceed_cases hs with
    | failed _ => exact .nothing (deliveries_failAttempt ..)
    | connected _ _ _ => exact .nothing rfl
    | @greeted port hello s₁ hat hreq =>
      cases hreq with
      | refused _ => exact .nothing (deliveries_record rfl)
      | failed _ => exact .nothing (deliveries_record rfl)
      | posted _ hconnected =>
        -- what is posted here is a hello
        have htype := (h.2.hello n port hello hat (hw.connected.mp hconnected)).1
        exact .nothing (deliveries_posted (htype ▸ (by decide)))
  | advance n requestId writes =>
    have hs : s.advance integration n requestId writes = some s' := hs
    exact advance_delivers hw hs
  | message port raw => exact .nothing (message_deliveries (Option.some.inj hs))
  | disconnect port =>
    simp only [BridgeState.step] at hs
    split_ifs at hs
    rw [← Option.some.inj hs]
    unfold handleDisconnect
    split_ifs
    · have hlog := (scheduleReconnect_frame ((s.disconnect [port]).losePort (some "native host disconnected"))).2.2.2.2
      exact .nothing ((congrArg deliveries hlog).trans (deliveries_losePort (s.disconnect [port]) _))
    · exact .nothing rfl
  | fire handle est =>
    obtain ⟨timer, -, rfl⟩ := Option.map_eq_some_iff.mp hs
    exact .nothing (fire_deliveries (s.clearTimer handle) timer.callback est)

end BridgeState

open Concurrency.Machine BridgeState

variable {s s' : IntegrationState} {e : IntegrationEvent} {instanceId : String}

/-- Events are delivered after the hello of their port, and in sequence for each instance. -/
structure InSequence (s s' : IntegrationState) : Prop where
  acknowledged : ∀ before port envelope after, s'.log = before ++ .posted port envelope :: after →
    envelope.type = "browser.event.emit" → Acknowledged before port
  numbered : ∀ port envelope, .posted port envelope ∈ s'.log → envelope.type = "browser.event.emit" →
    ∃ n instanceId, envelope.sequenceNo? = some n ∧ (port, instanceId) ∈ announcements s'.log ∧
      n ∈ sequenceNumbers s'.log instanceId
  increasing : ∀ instanceId, (sequenceNumbers s'.log instanceId).Pairwise (· < ·)
  positive : ∀ instanceId, ∀ n ∈ sequenceNumbers s'.log instanceId, 1 ≤ n
  paired : ∀ a ∈ announcements s'.log, ∀ b ∈ announcements s'.log, a.1 = b.1 ↔ a.2 = b.2
  current : ∀ port n, deliveries s'.log = deliveries s.log ++ [(port, n)] →
    (port, s.client.adapterInstanceId) ∈ announcements s.log ∧ n = s.client.nextSequence ∧
      s'.client.nextSequence = n + 1

/-- The announcements of an instance are made on one port. -/
theorem sequenceNumbers_eq {log : List BridgeEntry}
    (h : ∀ a ∈ announcements log, ∀ b ∈ announcements log, a.1 = b.1 ↔ a.2 = b.2) (instanceId : String) :
    sequenceNumbers log instanceId = [] ∨
      ∃ port, sequenceNumbers log instanceId = numbersOf port (deliveries log) := by
  by_cases hport : ∃ port, (port, instanceId) ∈ announcements log
  · obtain ⟨port, hport⟩ := hport
    refine .inr ⟨port, ?_⟩
    apply List.filterMap_congr
    intro x _
    have hiff : (x.1, instanceId) ∈ announcements log ↔ x.1 = port := by
      constructor
      · exact fun hx => (h _ hx _ hport).mpr rfl
      · rintro rfl
        exact hport
    simp only [hiff]
  · left
    apply List.filterMap_eq_nil_iff.mpr
    intro x _
    exact if_neg fun hx => hport ⟨x.1, hx⟩

theorem reaches_inOrder (h : Reaches (step integration) (.init ⟨instanceId, 1⟩) FreshInstance s) : s.InOrder := by
  have hinit : Reaches (step integration) (.init ⟨instanceId, 1⟩) FreshInstance (.init ⟨instanceId, 1⟩) := .init
  have hall : s.InOrder ∧ s.IsWired ∧ s.Corresponding integration := by
    apply h.invariant (I := fun s => s.InOrder ∧ s.IsWired ∧ s.Corresponding integration)
    · refine ⟨⟨⟨.nil _, fun _ _ hp => (nomatch hp), fun _ hp => (nomatch hp), fun _ ha => (nomatch ha),
        fun _ _ hp => (nomatch hp)⟩, ⟨fun _ _ _ hat => (nomatch hat), fun _ hr => (nomatch hr),
        fun _ _ _ hat => (nomatch hat), fun _ hp => (nomatch hp), .nil⟩⟩, reaches_wired hinit, reaches_corresponding hinit⟩
    · exact fun s e s' hi hok hs => ⟨hi.1.step hi.2.1 hi.2.2 hok hs, hi.2.1.step hs, hi.2.2.step hs⟩
  exact hall.1

/-- The session's instance has been announced on a port that is ready. -/
theorem BridgeState.InOrder.announced (h : s.InOrder) {port : Nat} (hport : s.port = some port) (hready : s.ready = true) :
    (port, s.client.adapterInstanceId) ∈ announcements s.log := by
  obtain ⟨hello, ack, hposted, htype, -⟩ := h.2.ready port hport hready
  obtain ⟨instanceId, hinstance⟩ := Option.isSome_iff_exists.mp ((h.1.complete port hello hposted).2 htype)
  have hmem : (port, instanceId) ∈ announcements s.log := mem_announcements.mpr ⟨hello, hposted, htype, hinstance⟩
  have hsame : instanceId = s.client.adapterInstanceId := (h.1.announced port hport _ hmem).mpr rfl
  exact hsame ▸ hmem

theorem events_in_sequence (h : Reaches (step integration) (.init ⟨instanceId, 1⟩) FreshInstance s)
    (hfresh : FreshInstance s e) (hs : step integration s e = some s') : InSequence s s' := by
  have horder := reaches_inOrder h
  have horder' := reaches_inOrder (.step h hfresh hs)
  obtain ⟨hallocates, hgreets⟩ := horder'
  have hnumbers := sequenceNumbers_eq hallocates.paired
  refine ⟨fun before port envelope after hlog htype => hgreets.ordered before _ after hlog port envelope rfl htype,
    ?_, ?_, ?_, hallocates.paired, ?_⟩
  · intro port envelope hposted htype
    -- the hello before the event on its port has announced an instance
    obtain ⟨n, hn⟩ := Option.isSome_iff_exists.mp ((hallocates.complete port envelope hposted).1 htype)
    obtain ⟨before, after, hlog⟩ := List.append_of_mem hposted
    obtain ⟨hello, ack, hhello, hkind, -⟩ := hgreets.ordered before _ after hlog port envelope rfl htype
    have hmem : .posted port hello ∈ s'.log := hlog ▸ List.mem_append_left _ hhello
    obtain ⟨i, hi⟩ := Option.isSome_iff_exists.mp ((hallocates.complete port hello hmem).2 hkind)
    have hannounced : (port, i) ∈ announcements s'.log := mem_announcements.mpr ⟨hello, hmem, hkind, hi⟩
    have hdelivered : (port, n) ∈ deliveries s'.log := mem_deliveries.mpr ⟨envelope, hposted, htype, hn⟩
    exact ⟨n, i, hn, hannounced, List.mem_filterMap.mpr ⟨(port, n), hdelivered, if_pos hannounced⟩⟩
  · intro i
    -- an instance is announced on one port, and there the counter orders the numbers
    rcases hnumbers i with heq | ⟨port, heq⟩
    · rw [heq]
      exact List.Pairwise.nil
    · rw [heq]
      exact hallocates.counted.increasing port
  · intro i n hn
    rcases hnumbers i with heq | ⟨port, heq⟩
    · rw [heq] at hn
      exact nomatch hn
    · rw [heq] at hn
      exact hallocates.counted.positive port n hn
  · intro port n hlog
    -- what this step delivers is under the number and the instance of the session
    cases step_delivers horder (reaches_wired h) hs with
    | nothing hsame =>
      rw [hsame] at hlog
      exact nomatch List.self_eq_append_right.mp hlog
    | event port' hport hready hlog' hnext =>
      rw [hlog'] at hlog
      obtain ⟨rfl, rfl⟩ := Prod.mk.inj (List.singleton_inj.mp (List.append_cancel_left hlog))
      exact ⟨horder.announced hport hready, rfl, hnext⟩

end Fubun.Bridge

namespace Fubun.Sample
open Bridge

/-- An event on each of two ports, of which the first is lost in between. -/
def reestablished : List IntegrationEvent :=
  [.call .start ⟨true, "i"⟩, .hello 0 (.ok ⟨nativeId '1', "", "", []⟩), .proceed 0 true,
    .message 0 (nativeMessage (nativeId '1') "extension.hello.ack"), .proceed 0 true, .advance 0 "" true,
    .call (.request (.event 0 "r")) ⟨true, "j"⟩, .advance 1 (nativeId '2') true, .disconnect 0,
    .fire 2 ⟨true, "k"⟩, .hello 2 (.ok ⟨nativeId '3', "", "", []⟩), .proceed 2 true,
    .message 1 (nativeMessage (nativeId '3') "extension.hello.ack"), .proceed 2 true, .advance 2 "" true,
    .call (.request (.event 0 "r")) ⟨true, "l"⟩]

end Fubun.Sample

namespace Fubun.Bridge
open Concurrency.Machine BridgeState

theorem events_in_sequence_reestablished : ∃ s s', Reaches (step integration) (.init ⟨"", 1⟩) FreshInstance s ∧
    step integration s (.advance 3 (Sample.nativeId '4') true) = some s' ∧ deliveries s'.log = [(0, 1), (1, 1)] ∧
    InSequence s s' := by
  have hrun : ((execIf (step integration) FreshInstance (.init ⟨"", 1⟩) Sample.reestablished).bind fun s =>
      (step integration s (.advance 3 (Sample.nativeId '4') true)).map fun s' => deliveries s'.log) =
        some [(0, 1), (1, 1)] := by
    decide +kernel
  obtain ⟨s, hs, hstep⟩ := Option.bind_eq_some_iff.mp hrun
  obtain ⟨s', hs', hdelivered⟩ := Option.map_eq_some_iff.mp hstep
  have hr := Reaches.init.execIf hs
  exact ⟨s, s', hr, hs', hdelivered, events_in_sequence hr rfl hs'⟩

end Fubun.Bridge

import Fubun.Relational.Stream
import Fubun.Vscode.Moves

/-! The handshake of a session: it is connected on a transport whose hello was acknowledged, as long as
nothing takes the transport away before the acknowledgement has been noticed. -/

namespace Fubun.Vscode
open Encoding Extensions Relational Concurrency.Machine

def Acknowledged (log : List SessionEntry) (transport : Nat) : Prop :=
  ∃ requestId frame, .opened transport requestId ∈ log ∧ .received transport frame ∈ log ∧
    checkHelloAck requestId frame = .ok ()

theorem Acknowledged.mono {log : List SessionEntry} {transport : Nat} (h : Acknowledged log transport)
    (more : List SessionEntry) : Acknowledged (log ++ more) transport := by
  obtain ⟨requestId, frame, hopened, hreceived, hack⟩ := h
  exact ⟨requestId, frame, List.mem_append_left _ hopened, List.mem_append_left _ hreceived, hack⟩

def AfterHello (before : List SessionEntry) (entry : SessionEntry) : Prop :=
  ∀ transport requestId emission, entry = .wrote transport (.event requestId emission) → Acknowledged before transport

def SessionEntry.isPlain : SessionEntry → Bool
  | .wrote _ (.event ..) | .settled (.hello _) _ => false
  | _ => true

/-- Where the hello of the current transport stands. -/
structure Shakes (transport : Option Nat) (connected : Bool) (hello : Option PendingHello) (attemptCount : Nat)
    (attempts : Nat → Attempt) (tasks : Nat → SessionTask) (log : List SessionEntry) : Prop where
  linked : connected = true → ∃ t, transport = some t ∧ Acknowledged log t
  handed : ∀ n call t, tasks n = .connected call t → Acknowledged log t
  asked : ∀ h, hello = some h → (∃ t, attempts h.attempt = .greeting t ∧ transport = some t ∧
    .opened t h.requestId ∈ log) ∧ ∀ result, .settled (.hello h.attempt) result ∉ log
  greeted : ∀ a t, attempts a = .greeting t → .settled (.hello a) (.ok ()) ∈ log → Acknowledged log t
  ahead : ∀ a, attemptCount ≤ a → attempts a = .absent ∧ ∀ result, .settled (.hello a) result ∉ log
  ordered : Follows AfterHello log

namespace Shakes
variable {transport : Option Nat} {connected : Bool} {hello : Option PendingHello} {attemptCount n : Nat}
  {attempts : Nat → Attempt} {tasks : Nat → SessionTask} {log : List SessionEntry}

theorem grow (h : Shakes transport connected hello attemptCount attempts tasks log) {more : List SessionEntry}
    (hmore : ∀ a result, .settled (.hello a) result ∉ more) (hordered : Follows AfterHello (log ++ more)) :
    Shakes transport connected hello attemptCount attempts tasks (log ++ more) := by
  have hsettled : ∀ a result, .settled (.hello a) result ∈ log ++ more → .settled (.hello a) result ∈ log := by
    intro a result hmem
    rcases List.mem_append.mp hmem with hmem | hmem
    · exact hmem
    · exact absurd hmem (hmore a result)
  refine ⟨?_, fun m call t hat => (h.handed m call t hat).mono more, ?_, ?_, ?_, hordered⟩
  · intro hconnected
    obtain ⟨t, ht, hack⟩ := h.linked hconnected
    exact ⟨t, ht, hack.mono more⟩
  · intro hello' heq
    obtain ⟨⟨t, hat, ht, hopened⟩, hunsettled⟩ := h.asked hello' heq
    exact ⟨⟨t, hat, ht, List.mem_append_left _ hopened⟩, fun result hmem => hunsettled result (hsettled _ _ hmem)⟩
  · exact fun a t hat hmem => (h.greeted a t hat (hsettled _ _ hmem)).mono more
  · exact fun a ha => ⟨(h.ahead a ha).1, fun result hmem => (h.ahead a ha).2 result (hsettled _ _ hmem)⟩

theorem plain (h : Shakes transport connected hello attemptCount attempts tasks log) {more : List SessionEntry}
    (hmore : ∀ entry ∈ more, entry.isPlain = true) :
    Shakes transport connected hello attemptCount attempts tasks (log ++ more) := by
  have hsettled : ∀ a result, SessionEntry.settled (.hello a) result ∉ more := fun a result hmem => nomatch hmore _ hmem
  apply h.grow hsettled
  apply h.ordered.append
  rintro entry hentry before t requestId emission rfl
  exact nomatch hmore _ hentry

theorem write (h : Shakes transport connected hello attemptCount attempts tasks log) {t : Nat} (hack : Acknowledged log t)
    (requestId : String) (emission : Emission) :
    Shakes transport connected hello attemptCount attempts tasks (log ++ [.wrote t (.event requestId emission)]) := by
  have hsettled : ∀ a result, SessionEntry.settled (.hello a) result ∉ [SessionEntry.wrote t (.event requestId emission)] :=
    fun a result hmem => nomatch List.mem_singleton.mp hmem
  apply h.grow hsettled
  apply h.ordered.snoc
  rintro t' requestId' emission' ⟨⟩
  exact hack

theorem setTask (h : Shakes transport connected hello attemptCount attempts tasks log) (task : SessionTask)
    (htask : ∀ call t, task = .connected call t → Acknowledged log t) :
    Shakes transport connected hello attemptCount attempts (Function.update tasks n task) log := by
  refine { h with handed := ?_ }
  intro m call t hat
  by_cases hmn : m = n
  · subst hmn
    rw [Function.update_self] at hat
    exact htask call t hat
  · rw [Function.update_of_ne hmn] at hat
    exact h.handed m call t hat

theorem settleHello (h : Shakes transport connected hello attemptCount attempts tasks log) {attempt : Nat} (result : Outcome)
    (hlt : attempt < attemptCount) (hack : ∀ t, result = .ok () → attempts attempt = .greeting t → Acknowledged log t) :
    Shakes transport connected none attemptCount attempts tasks (log ++ [.settled (.hello attempt) result]) where
  linked := by
    intro hconnected
    obtain ⟨t, ht, hacked⟩ := h.linked hconnected
    exact ⟨t, ht, hacked.mono _⟩
  handed := fun m call t hat => (h.handed m call t hat).mono _
  asked := fun _ heq => nomatch heq
  greeted := by
    intro a t hat hmem
    rcases List.mem_append.mp hmem with hmem | hmem
    · exact (h.greeted a t hat hmem).mono _
    · obtain ⟨heq, hok⟩ := SessionEntry.settled.inj (List.mem_singleton.mp hmem)
      obtain rfl := SessionPromise.hello.inj heq
      exact (hack t hok.symm hat).mono _
  ahead := by
    intro a ha
    refine ⟨(h.ahead a ha).1, ?_⟩
    intro r hmem
    rcases List.mem_append.mp hmem with hmem | hmem
    · exact (h.ahead a ha).2 r hmem
    · obtain ⟨heq, -⟩ := SessionEntry.settled.inj (List.mem_singleton.mp hmem)
      rw [SessionPromise.hello.inj heq] at ha
      exact absurd hlt (Nat.not_lt.mpr ha)
  ordered := h.ordered.snoc fun _ _ _ heq => nomatch heq

theorem lt_of_present (h : Shakes transport connected hello attemptCount attempts tasks log) {a : Nat} (hat : attempts a ≠ .absent) :
    a < attemptCount := by
  apply Nat.lt_of_not_le
  intro hle
  exact hat (h.ahead a hle).1

theorem lt_of_asked (h : Shakes transport connected hello attemptCount attempts tasks log) {hello' : PendingHello}
    (heq : hello = some hello') : hello'.attempt < attemptCount := by
  obtain ⟨⟨t, hat, -⟩, -⟩ := h.asked hello' heq
  apply h.lt_of_present
  rw [hat]
  exact fun habsent => nomatch habsent

theorem lose (h : Shakes transport connected hello attemptCount attempts tasks log) :
    Shakes none false none attemptCount attempts tasks log :=
  { h with
    linked := fun hc => nomatch hc
    asked := fun _ heq => nomatch heq }

theorem setAttempt (h : Shakes transport connected hello attemptCount attempts tasks log) {attempt : Nat} (result : Outcome)
    (hlt : attempt < attemptCount) (hunasked : ∀ hello', hello = some hello' → hello'.attempt ≠ attempt) :
    Shakes transport connected hello attemptCount (Function.update attempts attempt (.ended result)) tasks log := by
  refine { h with asked := ?_, greeted := ?_, ahead := ?_ }
  · intro hello' heq
    rw [Function.update_of_ne (hunasked hello' heq)]
    exact h.asked hello' heq
  · intro a t hat
    by_cases ha : a = attempt
    · subst ha
      rw [Function.update_self] at hat
      exact nomatch hat
    · rw [Function.update_of_ne ha] at hat
      exact h.greeted a t hat
  · intro a ha
    rw [Function.update_of_ne (Nat.ne_of_gt (Nat.lt_of_lt_of_le hlt ha))]
    exact h.ahead a ha

theorem begin (h : Shakes transport connected hello attemptCount attempts tasks log) (stage : Attempt) :
    Shakes transport connected hello (attemptCount + 1) (Function.update attempts attemptCount stage) tasks log := by
  have hnew := h.ahead attemptCount le_rfl
  refine { h with asked := ?_, greeted := ?_, ahead := ?_ }
  · intro hello' heq
    rw [Function.update_of_ne (Nat.ne_of_lt (h.lt_of_asked heq))]
    exact h.asked hello' heq
  · intro a t hat hmem
    by_cases ha : a = attemptCount
    · subst ha
      exact absurd hmem (hnew.2 _)
    · rw [Function.update_of_ne ha] at hat
      exact h.greeted a t hat hmem
  · intro a ha
    rw [Function.update_of_ne (Nat.ne_of_gt (Nat.lt_of_succ_le ha))]
    exact h.ahead a (Nat.le_of_succ_le ha)

end Shakes

namespace SessionState
variable {s s' : SessionState}

/-- The hello of each transport comes before what depends on it. -/
abbrev HasShaken (s : SessionState) : Prop :=
  Shakes s.transport s.connected s.hello s.attemptCount s.attempts s.tasks s.log

/-- A run of `establish` whose hello is acknowledged notices it while its transport is the current one. -/
def attached (s : SessionState) : SessionEvent → Bool
  | .proceed attempt =>
    match s.attempts attempt, s.settlement? (.hello attempt) with
    | .greeting transport, some (.ok ()) => s.transport == some transport
    | _, _ => true
  | _ => true

abbrev Attached (s : SessionState) (e : SessionEvent) : Prop := attached s e = true

theorem HasShaken.current (h : s.HasShaken) {transport : Nat} (hcurrent : s.current = some transport) :
    Acknowledged s.log transport := by
  unfold SessionState.current at hcurrent
  split_ifs at hcurrent with hconnected
  obtain ⟨t, ht, hack⟩ := h.linked hconnected
  obtain rfl := Option.some.inj (hcurrent.symm.trans ht)
  exact hack

theorem HasShaken.record (h : s.HasShaken) {entry : SessionEntry} (hentry : entry.isPlain = true) :
    (s.record entry).HasShaken :=
  h.plain (List.forall_mem_singleton.mpr hentry)

theorem HasShaken.closeCurrent (h : s.HasShaken) (error : String) : (s.closeCurrent error).HasShaken := by
  have hended : ∀ entry ∈ s.transport.toList.map SessionEntry.ended, entry.isPlain = true := by
    intro entry hentry
    obtain ⟨t, -, rfl⟩ := List.mem_map.mp hentry
    rfl
  have hrejected : ∀ entry ∈ s.pending.map fun pending => SessionEntry.settled (.ack pending.n) (.error error),
      entry.isPlain = true := by
    intro entry hentry
    obtain ⟨pending, -, rfl⟩ := List.mem_map.mp hentry
    rfl
  have hhello : Shakes s.transport s.connected none s.attemptCount s.attempts s.tasks
      (s.log ++ s.hello.toList.map fun hello => SessionEntry.settled (.hello hello.attempt) (.error error)) := by
    cases heq : s.hello with
    | none =>
      rw [Option.toList_none, List.map_nil, List.append_nil]
      exact { h with asked := fun _ hnone => nomatch hnone }
    | some hello => exact h.settleHello (.error error) (h.lt_of_asked heq) fun _ hok => nomatch hok
  have hclosed := ((hhello.plain hrejected).plain hended).lose
  rw [List.append_assoc s.log] at hclosed
  exact hclosed

theorem HasShaken.establish (h : s.HasShaken) (requestId : String) (hcurrent : s.current = none) :
    ((s.openTransport requestId).setAttempt s.attemptCount (.greeting s.transports.length)).awaitAttempt.HasShaken := by
  have hbegun := h.begin (.greeting s.transports.length)
  have hnew := h.ahead s.attemptCount le_rfl
  have hopened := hbegun.plain (List.forall_mem_singleton.mpr (show (SessionEntry.opened s.transports.length requestId).isPlain = true from rfl))
  refine { hopened with linked := ?_, asked := ?_ }
  · intro hconnected
    obtain ⟨t, ht, -⟩ := h.linked hconnected
    have hsome : s.current = some t := (if_pos hconnected).trans ht
    exact nomatch hcurrent.symm.trans hsome
  · rintro hello ⟨⟩
    refine ⟨⟨s.transports.length, Function.update_self .., rfl, List.mem_append_right _ (List.mem_singleton_self _)⟩, ?_⟩
    intro result hmem
    rcases List.mem_append.mp hmem with hmem | hmem
    · exact hnew.2 result hmem
    · exact nomatch List.mem_singleton.mp hmem

end SessionState

open SessionState

theorem Moves.hasShaken {o : VscodeAdapterSessionOptions} {s s' : SessionState} (hs : s.HasShaken)
    (hm : Moves o Attached s s') : s'.HasShaken := by
  cases hm with
  | rest h => exact (untimed_congr HasShaken (fun _ => rfl) h).mpr hs
  | call => exact hs
  | start _ => exact hs
  | stop => exact HasShaken.closeCurrent (s := s.setDesired false) hs _
  | queue resourceId now hdate =>
    have hqueued : ∀ emission, Shakes s.transport s.connected s.hello s.attemptCount s.attempts
        (Function.update s.tasks s.calls (.queued emission)) s.log :=
      fun emission => hs.setTask _ fun _ _ heq => nomatch heq
    unfold SessionState.emitWorkspaceOpened
    rw [hdate]
    exact hqueued _
  | misdate resourceId now hdate =>
    have hrefused : (s.record (.settled (.call s.calls) (.error "Invalid time value"))).HasShaken := hs.record rfl
    have hended := hrefused.setTask (n := s.calls) (.ended none) fun _ _ heq => nomatch heq
    unfold SessionState.emitWorkspaceOpened
    rw [hdate]
    exact hended
  | establish requestId _ hcurrent _ => exact hs.establish requestId hcurrent
  | unmade error _ _ _ => exact hs.begin _
  | endConnecting _ _ _ _ => exact hs
  | go _ htold =>
    apply hs.setTask
    rintro call t rfl
    cases htold with
    | connected hcurrent => exact hs.current hcurrent
  | @connected attempt transport hok hat hsettled =>
    have hport : s.transport = some transport := by
      have hattached : s.attached (.proceed attempt) = true := hok
      simp only [attached, hat, hsettled, beq_iff_eq] at hattached
      exact hattached
    have hmem := settlement?_mem hsettled
    have hlt : attempt < s.attemptCount := hs.lt_of_present fun habsent => nomatch hat.symm.trans habsent
    have hended := hs.setAttempt (.ok ()) hlt (by
      rintro hello heq rfl
      exact (hs.asked hello heq).2 _ hmem)
    exact { hended with linked := fun _ => ⟨transport, hport, hs.greeted attempt transport hat hmem⟩ }
  | close error => exact hs.closeCurrent error
  | @failed attempt transport error hat hhello =>
    have hlt : attempt < s.attemptCount := hs.lt_of_present fun habsent => nomatch hat.symm.trans habsent
    apply hs.setAttempt _ hlt
    intro hello heq
    exact nomatch hhello.symm.trans heq
  | greet _ _ => exact hs.record rfl
  | @answer transport hello frame htransport hhello =>
    have hreceived : (s.record (.received transport frame)).HasShaken := hs.record rfl
    apply hreceived.settleHello _ (hs.lt_of_asked hhello)
    intro t hok hat
    obtain ⟨⟨t', hat', ht', hopened⟩, -⟩ := hs.asked hello hhello
    obtain rfl := Attempt.greeting.inj (hat.symm.trans hat')
    obtain rfl := Option.some.inj (htransport.symm.trans ht')
    exact ⟨hello.requestId, frame, List.mem_append_left _ hopened, List.mem_append_right _ (List.mem_singleton_self _), hok⟩
  | @acknowledge transport frame ack pending _ _ _ =>
    have hreceived : (s.record (.received transport frame)).HasShaken := hs.record rfl
    exact hreceived.record rfl
  | overhear frame _ => exact hs.record rfl
  | expireHello error hhello => exact hs.settleHello _ (hs.lt_of_asked hhello) fun _ hok => nomatch hok
  | expire error _ => exact hs.record rfl
  | @write n emission transport out _ hat timeout =>
    have hack := hs.handed n _ transport hat
    have hwritten := hs.write hack out.uuid emission
    exact hwritten.setTask _ fun _ _ heq => nomatch heq
  | @unwritten n emission transport requestId error hat timeout =>
    have hrefused : (s.record (.settled (.ack n) (.error error))).HasShaken := hs.record rfl
    exact hrefused.setTask _ fun _ _ heq => nomatch heq
  | @conclude n call result h =>
    have hsettled : (s.record (.settled (.call n) result)).HasShaken := hs.record rfl
    have hended := hsettled.setTask (n := n) (.ended call) fun _ _ heq => nomatch heq
    unfold SessionState.conclude
    split <;> exact hended

variable {o : VscodeAdapterSessionOptions} {s : SessionState} {instanceId : String}

/-- A session is connected on a transport whose hello was acknowledged, and writes events only after that. -/
structure HelloFirst (s : SessionState) : Prop where
  connected : s.connected = true → ∃ transport, s.transport = some transport ∧ Acknowledged s.log transport
  written : ∀ before transport requestId emission after,
    s.log = before ++ .wrote transport (.event requestId emission) :: after → Acknowledged before transport

theorem hello_first (h : Reaches (step o) (.init instanceId) Attached s) : HelloFirst s := by
  have hshaken : s.HasShaken := by
    apply Moves.invariant (I := HasShaken) (Moves.reaches h)
    · exact ⟨fun hc => (nomatch hc), fun _ _ _ hat => (nomatch hat), fun _ heq => (nomatch heq),
        fun _ _ hat => (nomatch hat), fun _ _ => ⟨rfl, fun _ hmem => nomatch hmem⟩, .nil⟩
    · exact fun s s' hs hm => hm.hasShaken hs
  constructor
  · exact hshaken.linked
  · exact fun before transport requestId emission after hlog => hshaken.ordered before _ after hlog transport requestId emission rfl

end Fubun.Vscode

namespace Fubun.Sample
open Vscode Encoding

def coreOk (requestId kind : String) : Json :=
  .object [("protocol_version", .object [("major", .number 1), ("minor", .number 0)]), ("request_id", .string requestId),
    ("body", .object [("status", .string "ok"), ("payload", .object [("kind", .string kind), ("data", .object [])])])]

def bytesOf (value : Json) : List UInt8 := value.render.map fun c => UInt8.ofNat c.toNat

def framed (value : Json) : List UInt8 :=
  [UInt8.ofNat (value.size % 256), UInt8.ofNat (value.size / 256), 0, 0] ++ bytesOf value

def adapterId (c : Char) : String := String.ofList ("00000000-0000-4000-8000-00000000000".toList ++ [c])

def vscodeOptions : VscodeAdapterSessionOptions where
  timeoutMs := 5000
  parse := fun bytes => [coreOk (adapterId '1') "adapter.hello_ack", .null].find? fun value => bytesOf value == bytes

def greeted : List SessionEvent :=
  [.start ⟨adapterId '1', true⟩, .connect 0 ⟨"", true⟩,
    .data 0 ((framed (coreOk (adapterId '1') "adapter.hello_ack")).take 3),
    .data 0 ((framed (coreOk (adapterId '1') "adapter.hello_ack")).drop 3)]

/-- One chunk holds the acknowledgement and a frame that is none. The session connects again, and sends
an event at once. -/
def overtaken : List SessionEvent :=
  [.start ⟨adapterId '1', true⟩, .connect 0 ⟨"", true⟩,
    .data 0 (framed (coreOk (adapterId '1') "adapter.hello_ack") ++ framed .null), .proceed 0, .advance 0 ⟨"", true⟩,
    .advance 0 ⟨"", true⟩, .fire 1 ⟨adapterId '2', true⟩, .emitWorkspaceOpened "r" 0, .advance 2 ⟨"", true⟩,
    .advance 2 ⟨adapterId '3', true⟩]

def eventOn? : SessionEntry → Option Nat
  | .wrote transport (.event ..) => some transport
  | _ => none

def heardOn? : SessionEntry → Option Nat
  | .received transport _ => some transport
  | _ => none

end Fubun.Sample

namespace Fubun.Vscode
open Concurrency.Machine SessionState

theorem hello_first_greeted : ∃ s, Reaches (step Sample.vscodeOptions) (.init "i") Attached s ∧ s.connected = true ∧
    HelloFirst s := by
  have hrun : ((execIf (step Sample.vscodeOptions) Attached (.init "i") (Sample.greeted ++ [.proceed 0])).map
      (·.connected)) = some true := by
    decide +kernel
  obtain ⟨s, hs, hconnected⟩ := Option.map_eq_some_iff.mp hrun
  have hr := Reaches.init.execIf hs
  exact ⟨s, hr, hconnected, hello_first hr⟩

/-- The session is connected without a transport, and then writes an event before the hello of the next. -/
theorem connected_without_hello : (¬ ∀ s, Reaches (step Sample.vscodeOptions) (.init "i") Anyhow s →
      s.connected = true → ∃ transport, s.transport = some transport ∧ Acknowledged s.log transport) ∧
    ¬ ∀ s, Reaches (step Sample.vscodeOptions) (.init "i") Anyhow s → ∀ before transport requestId emission after,
      s.log = before ++ .wrote transport (.event requestId emission) :: after → Acknowledged before transport := by
  constructor
  · intro hall
    have hrun : ((exec (step Sample.vscodeOptions) (.init "i") (Sample.overtaken.take 4)).map fun s =>
        (s.connected, s.transport)) = some (true, none) := by
      decide +kernel
    obtain ⟨s, hs, heq⟩ := Option.map_eq_some_iff.mp hrun
    obtain ⟨hconnected, htransport⟩ := Prod.mk.inj heq
    obtain ⟨t, ht, -⟩ := hall s (Reaches.init.exec hs) hconnected
    exact nomatch htransport.symm.trans ht
  · intro hall
    have hrun : ((exec (step Sample.vscodeOptions) (.init "i") Sample.overtaken).map fun s =>
        (s.log.filterMap Sample.eventOn?, s.log.filterMap Sample.heardOn?)) = some ([1], [0, 0]) := by
      decide +kernel
    obtain ⟨s, hs, heq⟩ := Option.map_eq_some_iff.mp hrun
    obtain ⟨hevents, hheard⟩ := Prod.mk.inj heq
    -- the one event is on the second transport, which has received nothing
    obtain ⟨entry, hentry, hone⟩ := List.mem_filterMap.mp (hevents ▸ List.mem_singleton_self 1)
    obtain ⟨requestId, emission, rfl⟩ : ∃ requestId emission, entry = .wrote 1 (.event requestId emission) := by
      cases entry with
      | wrote transport frame =>
        cases frame with
        | event requestId emission =>
          obtain rfl := Option.some.inj hone
          exact ⟨requestId, emission, rfl⟩
        | hello _ _ => exact nomatch hone
      | _ => exact nomatch hone
    obtain ⟨before, after, hlog⟩ := List.append_of_mem hentry
    obtain ⟨-, frame, -, hreceived, -⟩ := hall s (Reaches.init.exec hs) before 1 requestId emission after hlog
    have hmem : 1 ∈ s.log.filterMap Sample.heardOn? :=
      List.mem_filterMap.mpr ⟨.received 1 frame, hlog ▸ List.mem_append_left _ hreceived, rfl⟩
    rw [hheard] at hmem
    exact absurd hmem (by decide)

end Fubun.Vscode

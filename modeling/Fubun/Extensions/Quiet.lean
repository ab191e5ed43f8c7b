import Fubun.Extensions.Revival

/-! Whether a page is quiet once it is stopped. A navigation looks its page up once, and posts its
event only after the permission, its turn and the connection have come. -/

namespace Fubun.Extensions
open Concurrency Program System Relational

/-- After a write that pauses a resource no event of it is posted until its page is observed again. -/
def Quiet (crates : Crates) (log : BrowserLog) : Prop :=
  ∀ earlier i written mid j at' resourceId payload after,
    log = earlier ++ .call i (.write written) () :: (mid ++ .call j (.emit at' resourceId) (some payload) :: after) →
      pausedIn written resourceId = true →
        ObservedIn crates (earlier ++ [.call i (.write written) ()]) mid resourceId

def looksUp (i : Nat) : Label Nat BrowserOp.Res BrowserRequest (Except String Unit) → Bool
  | .call j .read _ => j = i
  | _ => false

def sinceLookup (i : Nat) (log : BrowserLog) : BrowserLog := log.rtakeWhile fun l => ! looksUp i l

/-- Between the lookup of a call and the event that it posts no write pauses the resource. -/
def undisturbed (c : BrowserState) : BrowserStep → Bool
  | .call i ch => (c.threads i).all fun t =>
    match t.rest with
    | .call (.emit now resourceId) _ =>
      ! (ch.posted && (preparedEvent now c.world.nextSequence resourceId).isSome) ||
        ((sinceLookup i c.log).filterMap writtenOf).all fun written => ! pausedIn written resourceId
    | _ => true
  | _ => true

abbrev Punctual (c : BrowserState) (e : BrowserStep) : Prop := Fresh c e ∧ undisturbed c e = true

section Runs
variable {crates : Crates} {now : Int} {ok : BrowserState → BrowserStep → Prop} {c : BrowserState} {resourceId : String}
  {i : Nat} {t : Thread BrowserOp BrowserOp.Res BrowserRequest (Except String Unit)} {at' : Int}
  {k : Option Encoding.Json → Browser (Except String Unit)}

theorem undisturbed_call {ch : BrowserChoice} (ht : c.threads i = some t) (hrest : t.rest = .call (.emit at' resourceId) k) :
    undisturbed c (.call i ch) =
      (! (ch.posted && (preparedEvent at' c.world.nextSequence resourceId).isSome) ||
        ((sinceLookup i c.log).filterMap writtenOf).all fun written => ! pausedIn written resourceId) := by
  rw [undisturbed, ht, Option.all_some, hrest]

theorem act_emit {at' : Int} {ch : BrowserChoice} {w w' : BrowserWorld} {posted : Option Encoding.Json}
    (h : BrowserWorld.act i (.emit at' resourceId) ch w = some (posted, w')) :
    posted.isSome = (ch.posted && (preparedEvent at' w.nextSequence resourceId).isSome) := by
  obtain ⟨rfl, -⟩ := Prod.mk.inj (Option.some.inj h)
  cases ch.posted <;> rfl

theorem pausedIn_off {written : List BrowserResourceMapping} (hk : Keyed (·.resourceId) written)
    (h : pausedIn written resourceId = true) : activeIn written resourceId = false := by
  obtain ⟨paused, hpaused, hid, hstate⟩ := pausedIn_iff.mp h
  by_contra hon
  rw [Bool.not_eq_false] at hon
  obtain ⟨active, hmem, hactive, hid'⟩ := activeIn_iff.mp hon
  obtain rfl := hk.eq hpaused hmem (hid.trans hid'.symm)
  exact nomatch (not_isActive hstate).symm.trans hactive

theorem looksUp_eq_false {log : BrowserLog} (h : ∀ x ∈ callsOf i log, x.op ≠ .read) : ∀ l ∈ log, looksUp i l = false := by
  intro l hl
  unfold looksUp
  split
  · rename_i j list
    by_contra hj
    obtain rfl : j = i := by simpa using hj
    exact h ⟨.read, list⟩ ((mem_callsOf j log).mpr hl) rfl
  · rfl

/-- A call that comes to an event has looked its resource up once, as active in the storage of that moment. -/
theorem emit_lookup (h : (extension crates).Reaches (.start now) ok c) (ht : c.threads i = some t)
    (hrest : t.rest = .call (.emit at' resourceId) k) :
    ∃ d list, (extension crates).Reaches (.start now) ok d ∧
      c.log = d.log ++ .call i .read list :: sinceLookup i c.log ∧ activeIn d.world.store resourceId = true := by
  have hleads := (h.traced ht).leads
  rw [hrest] at hleads
  obtain ⟨tab, list, τ', -, htrace, hnone, hactive⟩ := handler_emit hleads
  obtain ⟨earlier, later, hlog, hcalls, -⟩ := h.serving ht
  rw [htrace] at hcalls
  obtain ⟨mid, since, rfl, -, hsince⟩ := callsOf_eq_cons i later hcalls
  have hlookup : c.log = (earlier ++ .arrive i t.request :: mid) ++ .call i .read list :: since := by
    rw [hlog]
    simp
  have hrest' : sinceLookup i c.log = since := by
    rw [hlookup]
    apply rtakeWhile_of_forall
    · simp [looksUp]
    · intro l hl
      rw [looksUp_eq_false (hsince ▸ hnone) l hl]
      rfl
  obtain ⟨d, d', u, l, ch, hd, hdlog, -, -, -, hact, -, -⟩ := h.split_call hlookup
  obtain ⟨hlist, -⟩ := Prod.mk.inj (Option.some.inj hact)
  refine ⟨d, list, hd, ?_, ?_⟩
  · rw [hrest', hdlog]
    exact hlookup
  · rw [hlist]
    exact hactive

/-- As long as writes are fresh and no pause comes between the lookup of a page and its event, no event of
a paused page is posted until the page is observed again. -/
theorem quiet_since_stop (h : (extension crates).Reaches (.start now) Punctual c) : Quiet crates c.log := by
  intro earlier i written mid j at' resourceId payload after hlog hpaused
  rw [← List.cons_append, ← List.append_assoc] at hlog
  obtain ⟨d, d', t, k, ch, hd, hdlog, he, ht, hrest, hact, -, -⟩ := h.split_call hlog
  obtain ⟨a, list, ha, hlookup, hon⟩ := emit_lookup hd ht hrest
  have hposted := act_emit (i := j) hact
  have hkept : ∀ w ∈ (sinceLookup j d.log).filterMap writtenOf, pausedIn w resourceId = false := by
    have hundisturbed := he.2
    rw [undisturbed_call ht hrest, ← hposted] at hundisturbed
    intro w hw
    simpa using List.all_eq_true.mp hundisturbed w hw
  -- so the pause was written before the lookup
  obtain ⟨mid', hbefore, hmid⟩ : ∃ mid', a.log = earlier ++ [.call i (.write written) ()] ++ mid' ∧
      mid = mid' ++ .call j .read list :: sinceLookup j d.log := by
    rcases List.append_eq_append_iff.mp (hdlog.symm.trans hlookup) with ⟨as, halog, has⟩ | ⟨bs, -, hbs⟩
    · cases as with
      | nil => exact nomatch (Label.call.inj (List.cons.inj has).1).2.1
      | cons l as =>
        obtain ⟨rfl, hmid⟩ := List.cons.inj has
        exact ⟨as, by simpa using halog, hmid⟩
    · cases bs with
      | nil => exact nomatch (Label.call.inj (List.cons.inj hbs).1).2.1
      | cons l bs =>
        have hmem : written ∈ (sinceLookup j d.log).filterMap writtenOf := by
          rw [(List.cons.inj hbs).2]
          simp [writtenOf]
        exact nomatch (hkept written hmem).symm.trans hpaused
  have hwrite : .call i (.write written) () ∈ a.log := by
    rw [hbefore]
    simp
  have hoff := pausedIn_off ((reaches_listed ha).writes i written hwrite) hpaused
  have hfirst : activeIn (stored (earlier ++ [.call i (.write written) ()])) resourceId = false := by
    rw [stored_snoc]
    exact hoff
  -- what the lookup has found active has been observed since the pause
  rcases inactive_since ha (fun _ _ he => he.1) hbefore hfirst with hnot | hobserved
  · exact nomatch hnot.symm.trans hon
  · rw [hmid]
    exact hobserved.mono _

end Runs
end Fubun.Extensions

/-! ## A navigation on its way -/

namespace Fubun.Sample
open Concurrency System Extensions

/-- Call `n` navigates to a page and has its place on the event chain, with nothing before it. -/
def navigating (n : Nat) (host : String) : List BrowserStep :=
  .arrive n (.navigation (tabOf host)) :: List.replicate 5 (.call n (granting host none))

def observedAgain : List BrowserStep :=
  observedOnce ++ stopping 2 "a.example" ++ .call 2 (granting "a.example" none) :: observing 3 20 21 "a.example" ++
    [.call 3 (granting "a.example" none), .call 3 (granting "a.example" none), .answer 3]

/-- The first page is observed, and stopped while a navigation to it is on its way. -/
def stopOnTheWay : List BrowserStep :=
  observedOnce ++ navigating 1 "a.example" ++ stopping 2 "a.example"

def nextEvent (c : BrowserState) (i : Nat) : Option (Int × String) :=
  (c.next? i).bind fun
    | .emit now resourceId => some (now, resourceId)
    | _ => none

theorem nextEvent_eq_some {c : BrowserState} {i : Nat} {event : Int × String} (h : nextEvent c i = some event) :
    ∃ t k, c.threads i = some t ∧ t.rest = .call (.emit event.1 event.2) k := by
  obtain ⟨o, ho, hevent⟩ := Option.bind_eq_some_iff.mp h
  cases o with
  | emit now resourceId =>
    obtain rfl := Option.some.inj hevent
    exact Config.next?_eq_some.mp ho
  | _ => exact nomatch hevent

theorem preparedEvent_zero (sequenceNo : Nat) (resourceId : String) :
    ∃ payload, preparedEvent 0 sequenceNo resourceId = some payload := by
  have hrange : ¬ maxTimeValue < (0 : Int).natAbs := by decide
  rw [preparedEvent, toISOString, if_neg hrange]
  exact ⟨_, rfl⟩

end Fubun.Sample

namespace Fubun.Extensions
open Concurrency System

/-- The first page is observed, stopped and observed again, and a navigation to it has its event posted. -/
theorem quiet_since_stop_navigating : ∃ c, (extension Sample.pages).Reaches (.start 0) Punctual c ∧ c.world.nextSequence = 2 ∧
    ((c.log.filterMap writtenOf).any fun written => pausedIn written (Uuid.text 20)) = true ∧ Quiet Sample.pages c.log := by
  have hrun : ((extension Sample.pages).execIf Punctual (.init (.start 0)) (Sample.observedAgain ++
      Sample.navigating 1 "a.example" ++ [.call 1 (Sample.granting "a.example" none)])).map (fun c =>
        (c.world.nextSequence, (c.log.filterMap writtenOf).any fun written => pausedIn written (Uuid.text 20))) =
          some (2, true) := by decide +kernel
  obtain ⟨c, hc, hproj⟩ := Option.map_eq_some_iff.mp hrun
  obtain ⟨hnext, hpaused⟩ := Prod.mk.inj hproj
  have hreach : (extension Sample.pages).Reaches (.start 0) Punctual c := Reaches.init.execIf hc
  exact ⟨c, hreach, hnext, hpaused, quiet_since_stop hreach⟩

/-- The navigation has looked the page up before the stop, and posts its event after it. -/
theorem posted_after_stop :
    ¬ ∀ c, (extension Sample.pages).Reaches (.start 0) Anywhere c → Quiet Sample.pages c.log := by
  intro hall
  have hrun : (Sample.browse Sample.stopOnTheWay).map (fun c =>
      (Sample.nextEvent c 1, (nextWrite c 2).map fun paused => pausedIn paused (Uuid.text 20))) =
      some (some (0, Uuid.text 20), some true) := by decide +kernel
  obtain ⟨c, hc, hproj⟩ := Option.map_eq_some_iff.mp hrun
  have hreach : (extension Sample.pages).Reaches (.start 0) Anywhere c := Reaches.init.exec hc
  obtain ⟨hevent, hwrite⟩ := Prod.mk.inj hproj
  obtain ⟨paused, hwrite, hpaused⟩ := Option.map_eq_some_iff.mp hwrite
  obtain ⟨t, k, ht, hrest⟩ := nextWrite_eq_some hwrite
  obtain ⟨t', k', ht', hrest'⟩ := Sample.nextEvent_eq_some hevent
  have hstop : (extension Sample.pages).Step c (.call 2 (Sample.granting "" none))
      (c.called 2 t (o := .write paused) k () { c.world with store := paused }) := .call ht hrest rfl
  have hnavigation : (c.called 2 t (o := .write paused) k () { c.world with store := paused }).threads 1 = some t' :=
    (Config.called_threads_ne (by decide)).trans ht'
  obtain ⟨payload, hpayload⟩ := Sample.preparedEvent_zero c.world.nextSequence (Uuid.text 20)
  have hact : BrowserWorld.act 1 (.emit 0 (Uuid.text 20)) (Sample.granting "" none)
      { c.world with store := paused } = some (some payload,
        { c.world with store := paused, nextSequence := c.world.nextSequence + 1 }) := by
    rw [← hpayload]
    rfl
  have hpost := (hreach.step trivial hstop).step (e := .call 1 (Sample.granting "" none)) trivial
    (.call hnavigation hrest' hact)
  have hobserved := hall _ hpost c.log 2 paused [] 1 0 (Uuid.text 20) payload [] (by simp) hpaused
  obtain ⟨before, n, written, after, _, _, hnil, -⟩ := hobserved
  exact List.cons_ne_nil _ _ (List.append_eq_nil_iff.mp hnil.symm).2

end Fubun.Extensions

import Fubun.Extensions.Observation

/-! Whether a stopped observation stays stopped and a new one is kept. Every call writes back the
whole list that it read, so both hold as long as nothing has changed in between. -/

namespace Fubun.Extensions
open Concurrency Program System Relational

/-- A resource that a write has left as not active is recorded as active again only after an observation
of its page, and an active one stops being so only by a stop that applies to it. -/
structure Kept (crates : Crates) (log : BrowserLog) : Prop where
  revived : ∀ earlier i written mid j written' after resourceId,
    log = earlier ++ .call i (.write written) () :: (mid ++ .call j (.write written') () :: after) →
      activeIn written resourceId = false → activeIn written' resourceId = true →
        ObservedIn crates (earlier ++ [.call i (.write written) ()]) (mid ++ [.call j (.write written') ()]) resourceId
  lost : ∀ before j written after resourceId, log = before ++ .call j (.write written) () :: after →
    activeIn (stored before) resourceId = true → activeIn written resourceId = false →
      ∃ request τ, Serving j request τ before ∧ Stops crates request τ written resourceId

section Runs
variable {crates : Crates} {now : Int} {ok : BrowserState → BrowserStep → Prop} {c c' : BrowserState}
  {e : BrowserStep} {log more earlier : BrowserLog} {resourceId : String} {i : Nat}

theorem ObservedIn.mono (h : ObservedIn crates log more resourceId) (later : BrowserLog) :
    ObservedIn crates log (more ++ later) resourceId := by
  obtain ⟨before, n, written, after, request, τ, rfl, hserving, hobserves⟩ := h
  exact ⟨before, n, written, after ++ later, request, τ, by simp, hserving, hobserves⟩

theorem observedIn_snoc {l : Label Nat BrowserOp.Res BrowserRequest (Except String Unit)}
    (h : ObservedIn crates log (more ++ [l]) resourceId) : ObservedIn crates log more resourceId ∨
      ∃ n written request τ, l = .call n (.write written) () ∧ Serving n request τ (log ++ more) ∧
        Observes crates request τ written resourceId := by
  obtain ⟨before, n, written, after, request, τ, hmore, hserving, hobserves⟩ := h
  rcases split_snoc hmore with ⟨rfl, hl, rfl⟩ | ⟨after', rfl, rfl⟩
  · exact .inr ⟨n, written, request, τ, hl.symm, hserving, hobserves⟩
  · exact .inl ⟨before, n, written, after', request, τ, rfl, hserving, hobserves⟩

theorem inactive_since (h : (extension crates).Reaches (.start now) ok c) (hok : ∀ c e, ok c e → Fresh c e)
    (hlog : c.log = earlier ++ more) (hoff : activeIn (stored earlier) resourceId = false) :
    activeIn c.world.store resourceId = false ∨ ObservedIn crates earlier more resourceId := by
  induction h generalizing more with
  | init => exact .inl rfl
  | @step c c' e hr he hs ih =>
    obtain ⟨l, hl⟩ := hs.log
    rcases append_snoc (hl.symm.trans hlog) with ⟨rfl, rfl⟩ | ⟨more', rfl, hbefore⟩
    · rw [reaches_stored (hr.step he hs), hl]
      exact .inl hoff
    · rcases ih hbefore with hoff | hobserved
      · cases hon : activeIn c'.world.store resourceId with
        | false => exact .inl rfl
        | true =>
          obtain ⟨n, request, τ, written, hwrite, hserving, hobserves⟩ := turned_on hr (hok c e he) hs hoff hon
          obtain rfl := (List.cons.inj (List.append_cancel_left (hl.symm.trans hwrite))).1
          rw [hbefore] at hserving
          exact .inr ⟨more', n, written, [], request, τ, rfl, hserving, hobserves⟩
      · exact .inr (hobserved.mono [l])

/-- An active resource stays so until a write that pauses it; after the last such write there is no
observation of its page. -/
theorem active_since (h : (extension crates).Reaches (.start now) ok c) (hok : ∀ c e, ok c e → Fresh c e)
    (hlog : c.log = earlier ++ more) (hon : activeIn (stored earlier) resourceId = true) :
    activeIn c.world.store resourceId = true ∨ ∃ before j written after,
      more = before ++ .call j (.write written) () :: after ∧ pausedIn written resourceId = true ∧
        activeIn written resourceId = false ∧
          ¬ ObservedIn crates (earlier ++ before ++ [.call j (.write written) ()]) after resourceId := by
  induction h generalizing more with
  | init =>
    obtain ⟨rfl, -⟩ := List.append_eq_nil_iff.mp hlog.symm
    exact nomatch hon
  | @step c c' e hr he hs ih =>
    obtain ⟨l, hl⟩ := hs.log
    rcases append_snoc (hl.symm.trans hlog) with ⟨rfl, rfl⟩ | ⟨more', rfl, hbefore⟩
    · rw [reaches_stored (hr.step he hs), hl]
      exact .inl hon
    · cases hnow : activeIn c'.world.store resourceId with
      | true => exact .inl rfl
      | false =>
        refine .inr ?_
        rcases ih hbefore with hon | ⟨before, j, written, after, rfl, hpaused, hoff, hnone⟩
        -- this step turns it off
        · obtain ⟨j, request, τ, written, hwrite, -, hstops⟩ := turned_off hr (hok c e he) hs hon hnow
          obtain rfl := (List.cons.inj (List.append_cancel_left (hl.symm.trans hwrite))).1
          obtain ⟨t, ch, -, -, -, -, hstore⟩ := step_write hr hs hl
          refine ⟨more', j, written, [], rfl, hstops.1, hstore ▸ hnow, ?_⟩
          rintro ⟨before, n, written', after, _, _, hnil, -⟩
          exact List.cons_ne_nil _ _ (List.append_eq_nil_iff.mp hnil.symm).2
        -- it was off before, and this step does not turn it on
        · refine ⟨before, j, written, after ++ [l], by simp, hpaused, hoff, fun hobserved => ?_⟩
          rcases observedIn_snoc hobserved with hobserved | ⟨n, written', request, τ, rfl, -, hobserves⟩
          · exact hnone hobserved
          · obtain ⟨t, ch, -, -, -, -, hstore⟩ := step_write hr hs hl
            rw [hstore] at hnow
            exact nomatch hnow.symm.trans hobserves.active

theorem reaches_kept (h : (extension crates).Reaches (.start now) ok c) (hok : ∀ c e, ok c e → Fresh c e) :
    Kept crates c.log := by
  constructor
  · intro earlier i written mid j written' after resourceId hlog hoff hon
    rw [← List.cons_append, ← List.append_assoc] at hlog
    obtain ⟨d, d', t, k, ch, -, -, -, -, -, hact, hd', hdlog'⟩ := h.split_call hlog
    obtain ⟨-, hworld⟩ := Prod.mk.inj (Option.some.inj hact)
    have hdlog : d'.log = earlier ++ [.call i (.write written) ()] ++ (mid ++ [.call j (.write written') ()]) := by
      rw [hdlog']
      simp
    have hfirst : activeIn (stored (earlier ++ [.call i (.write written) ()])) resourceId = false := by
      rw [stored_snoc]
      exact hoff
    rcases inactive_since hd' hok hdlog hfirst with hnot | hobserved
    · rw [← hworld] at hnot
      exact nomatch hnot.symm.trans hon
    · exact hobserved
  · intro before j written after resourceId hlog hon hoff
    obtain ⟨d, e, d', hd, he, hs, rfl, hdlog'⟩ := h.split hlog
    obtain ⟨-, -, -, -, -, -, hstore⟩ := step_write hd hs hdlog'
    rw [← reaches_stored hd] at hon
    rw [← hstore] at hoff
    obtain ⟨n, request, τ, written', hwrite, hserving, hstops⟩ := turned_off hd (hok d e he) hs hon hoff
    obtain ⟨rfl, hop, -⟩ := Label.call.inj (List.cons.inj (List.append_cancel_left (hdlog'.symm.trans hwrite))).1
    obtain rfl := BrowserOp.write.inj hop
    exact ⟨request, τ, hserving, hstops⟩

theorem read_active (h : (extension crates).Reaches (.start now) ok c)
    {t : Thread BrowserOp BrowserOp.Res BrowserRequest (Except String Unit)} (ht : c.threads i = some t)
    {list : List BrowserResourceMapping} (hread : ⟨.read, list⟩ ∈ t.trace) (hon : activeIn list resourceId = true) :
    ∃ earlier more, c.log = earlier ++ more ∧ activeIn (stored earlier) resourceId = true := by
  obtain ⟨before, after, hlog⟩ := List.append_of_mem (h.mem_log ht hread)
  obtain ⟨d, d', t', k, ch, hd, rfl, -, -, -, hact, -, -⟩ := h.split_call hlog
  obtain ⟨hlist, -⟩ := Prod.mk.inj (Option.some.inj hact)
  refine ⟨d.log, _, hlog, ?_⟩
  rw [← reaches_stored hd, hlist]
  exact hon

theorem copied_active {τ : BrowserTrace} (h : activeIn (copied τ) resourceId = true) :
    ∃ list, ⟨.read, list⟩ ∈ τ ∧ activeIn list resourceId = true := by
  have hne : copied τ ≠ [] := by
    intro hnil
    rw [hnil] at h
    exact nomatch h
  obtain ⟨list, hread, hcopied⟩ := copied_read_mem hne
  obtain ⟨mapping, hmem, hactive, hid⟩ := activeIn_iff.mp h
  rw [hcopied] at hmem
  exact ⟨list, hread, activeIn_iff.mpr ⟨mapping, (List.mem_filter.mp hmem).1, hactive, hid⟩⟩

/-- A write that carries over as active what is not so any more revives it. -/
theorem carries_kept (h : (extension crates).Reaches (.start now) ok c) (hok : ∀ c e, ok c e → Fresh c e)
    {t : Thread BrowserOp BrowserOp.Res BrowserRequest (Except String Unit)} (ht : c.threads i = some t)
    {written : List BrowserResourceMapping} (hlog : c'.log = c.log ++ [.call i (.write written) ()])
    (hkept : Kept crates c'.log) (hown : ownResource t.request written ≠ some resourceId)
    (hcopy : activeIn (copied t.trace) resourceId = true) (hon : activeIn written resourceId = true) :
    activeIn c.world.store resourceId = true := by
  obtain ⟨list, hread, hlist⟩ := copied_active hcopy
  obtain ⟨earlier, more, hbefore, hactive⟩ := read_active h ht hread hlist
  rcases active_since h hok hbefore hactive with hstill | ⟨before, j, written', after, rfl, -, hoff, hnone⟩
  · exact hstill
  -- since it was read, the resource has been paused, and its page has not been observed
  have hsplit : c'.log = (earlier ++ before) ++ .call j (.write written') () ::
      (after ++ .call i (.write written) () :: []) := by
    rw [hlog, hbefore]
    simp
  have hobserved := hkept.revived _ j written' after i written [] resourceId hsplit hoff hon
  rcases observedIn_snoc hobserved with hobserved | ⟨n, written'', request, τ, heq, hserving, hobserves⟩
  · exact absurd hobserved hnone
  · obtain ⟨rfl, hop, -⟩ := Label.call.inj heq
    obtain rfl := BrowserOp.write.inj hop
    have hwhole : earlier ++ before ++ [.call j (.write written') ()] ++ after = c.log := by
      rw [hbefore]
      simp
    rw [hwhole] at hserving
    obtain ⟨rfl, rfl⟩ := hserving.unique (h.serving ht)
    exact absurd hobserves.own hown

theorem leaves_kept (h : (extension crates).Reaches (.start now) ok c)
    {t : Thread BrowserOp BrowserOp.Res BrowserRequest (Except String Unit)} (ht : c.threads i = some t)
    {written : List BrowserResourceMapping} (hlog : c'.log = c.log ++ [.call i (.write written) ()])
    (hkept : Kept crates c'.log) (hedit : Edit crates t.request t.trace written)
    (hown : ownResource t.request written ≠ some resourceId) (hon : activeIn c.world.store resourceId = true) :
    activeIn (copied t.trace) resourceId = true ∧ resourceId ∉ completedBy t.request t.trace := by
  suffices activeIn (copied t.trace) resourceId = true ∧ recordedIn written resourceId = true by
    have hreads := (reaches_listed h).readsKeyed h ht
    exact ⟨this.1, (hedit.recorded hreads hown (activeIn_recorded this.1)).mp this.2⟩
  cases hoff : activeIn written resourceId with
  | true => exact ⟨hedit.active hown hoff, activeIn_recorded hoff⟩
  | false =>
    rw [reaches_stored h] at hon
    obtain ⟨request, τ, hserving, hpaused, mapping, hmem, hid, hactive, -⟩ :=
      hkept.lost c.log i written [] resourceId hlog hon hoff
    obtain ⟨rfl, rfl⟩ := hserving.unique (h.serving ht)
    obtain ⟨mapping', hmem', hid', -⟩ := pausedIn_iff.mp hpaused
    exact ⟨activeIn_iff.mpr ⟨mapping, hmem, hactive, hid⟩, recordedIn_iff.mpr ⟨mapping', hmem', hid'⟩⟩

/-- A write that is not fresh revives a resource, or loses one. -/
theorem fresh_of_kept (h : (extension crates).Reaches (.start now) ok c) (hok : ∀ c e, ok c e → Fresh c e)
    (hs : (extension crates).Step c e c') (hkept : Kept crates c'.log) : Fresh c e := by
  cases hs with
  | @call i t o k ch r w ht hrest hact =>
    by_cases hwrite : ∃ written, o = .write written
    · obtain ⟨written, rfl⟩ := hwrite
      have hleads := (h.traced ht).leads
      rw [hrest] at hleads
      rw [Fresh, fresh_call ht ⟨k, hrest⟩, upToDate_iff]
      intro resourceId hown
      exact ⟨carries_kept h hok ht rfl hkept hown, leaves_kept h ht rfl hkept (handler_write hleads) hown⟩
    · rw [Fresh, fresh, ht, Option.all_some, hrest]
      cases o with
      | write written => exact absurd ⟨written, rfl⟩ hwrite
      | _ => rfl
  | _ => rfl

/-- As long as every call writes a list in which nothing has changed since it read it, no stopped
observation is revived and no new one is lost; the first write that is otherwise does one of the two. -/
theorem observation_kept (h : (extension crates).Reaches (.start now) Fresh c) : Kept crates c.log ∧
    ∀ e c', (extension crates).Step c e c' → (Kept crates c'.log ↔ Fresh c e) := by
  have hok : ∀ (c : BrowserState) (e : BrowserStep), Fresh c e → Fresh c e := fun _ _ he => he
  refine ⟨reaches_kept h hok, fun e c' hs => ⟨fresh_of_kept h hok hs, fun he => ?_⟩⟩
  exact reaches_kept (h.step he hs) hok

end Runs

/-! ## A page that is stopped while another is being observed -/

def nextWrite (c : BrowserState) (i : Nat) : Option (List BrowserResourceMapping) :=
  (c.next? i).bind fun
    | .write written => some written
    | _ => none

theorem nextWrite_eq_some {c : BrowserState} {i : Nat} {written : List BrowserResourceMapping}
    (h : nextWrite c i = some written) : ∃ t k, c.threads i = some t ∧ t.rest = .call (.write written) k := by
  obtain ⟨o, ho, hwritten⟩ := Option.bind_eq_some_iff.mp h
  cases o with
  | write written' =>
    obtain rfl := Option.some.inj hwritten
    exact Config.next?_eq_some.mp ho
  | _ => exact nomatch hwritten

end Fubun.Extensions

namespace Fubun.Sample
open Concurrency System Extensions

/-- The second page is being observed, with the list read, when the first one is stopped. -/
def stopAmidst : List BrowserStep := observedOnce ++ observing 1 30 31 "b.example" ++ stopping 2 "a.example"

theorem exists_stopAmidst : ∃ (c : BrowserState) (paused both : List BrowserResourceMapping),
    (extension pages).Reaches (.start 0) Anywhere c ∧ nextWrite c 2 = some paused ∧ nextWrite c 1 = some both ∧
      (activeIn paused (Uuid.text 20) = false ∧ pausedIn paused (Uuid.text 20) = true) ∧
        (activeIn both (Uuid.text 20) = true ∧ both.getLast?.map (·.resourceId) = some (Uuid.text 30)) := by
  have hrun : (browse stopAmidst).map (fun c => ((nextWrite c 2).map fun paused =>
      (activeIn paused (Uuid.text 20), pausedIn paused (Uuid.text 20)), (nextWrite c 1).map fun both =>
        (activeIn both (Uuid.text 20), both.getLast?.map (·.resourceId)))) =
      some (some (false, true), some (true, some (Uuid.text 30))) := by decide +kernel
  obtain ⟨c, hc, hproj⟩ := Option.map_eq_some_iff.mp hrun
  obtain ⟨hpaused, hboth⟩ := Prod.mk.inj hproj
  obtain ⟨paused, hpaused, hoff⟩ := Option.map_eq_some_iff.mp hpaused
  obtain ⟨both, hboth, hon⟩ := Option.map_eq_some_iff.mp hboth
  exact ⟨c, paused, both, Reaches.init.exec hc, hpaused, hboth, Prod.mk.inj hoff, Prod.mk.inj hon⟩

end Fubun.Sample

namespace Fubun.Extensions
open Concurrency System

/-- The first page is observed, and stopped with the confirmation of the core. -/
theorem observation_kept_stopped : ∃ c, (extension Sample.pages).Reaches (.start 0) Fresh c ∧
    ((c.log.filterMap writtenOf).any fun written => pausedIn written (Uuid.text 20)) = true ∧
      recordedIn c.world.store (Uuid.text 20) = false ∧ Kept Sample.pages c.log ∧
        ∀ e c', (extension Sample.pages).Step c e c' → (Kept Sample.pages c'.log ↔ Fresh c e) := by
  have hrun : ((extension Sample.pages).execIf Fresh (.init (.start 0))
      (Sample.observedOnce ++ Sample.stoppedPage 2 20 21 "a.example")).map (fun c =>
        ((c.log.filterMap writtenOf).any fun written => pausedIn written (Uuid.text 20),
          recordedIn c.world.store (Uuid.text 20))) = some (true, false) := by decide +kernel
  obtain ⟨c, hc, hproj⟩ := Option.map_eq_some_iff.mp hrun
  obtain ⟨hpaused, hforgotten⟩ := Prod.mk.inj hproj
  have hreach : (extension Sample.pages).Reaches (.start 0) Fresh c := Reaches.init.execIf hc
  exact ⟨c, hreach, hpaused, hforgotten, observation_kept hreach⟩

/-- The stop of the first page is undone by the observation of the second, which had read it as active. -/
theorem stop_undone : ¬ ∀ c, (extension Sample.pages).Reaches (.start 0) Anywhere c → Kept Sample.pages c.log := by
  intro hall
  obtain ⟨c, paused, both, hreach, hpaused, hboth, ⟨hoff, -⟩, hon, hlast⟩ := Sample.exists_stopAmidst
  obtain ⟨t, k, ht, hrest⟩ := nextWrite_eq_some hpaused
  obtain ⟨t', k', ht', hrest'⟩ := nextWrite_eq_some hboth
  have hcall {d : BrowserState} {n : Nat} {u : Thread BrowserOp BrowserOp.Res BrowserRequest (Except String Unit)}
      {written : List BrowserResourceMapping} {l : Unit → Browser (Except String Unit)} (hu : d.threads n = some u)
      (hl : u.rest = .call (.write written) l) : (extension Sample.pages).Step d (.call n (Sample.granting "" none))
        (d.called n u (o := .write written) l () { d.world with store := written }) := .call hu hl rfl
  have hstop := hreach.step trivial (hcall ht hrest)
  have hkept' : (c.called 2 t (o := .write paused) k () { c.world with store := paused }).threads 1 = some t' :=
    (Config.called_threads_ne (by decide)).trans ht'
  have hobserve := hstop.step trivial (hcall hkept' hrest')
  have hlog : ((c.called 2 t (o := .write paused) k () { c.world with store := paused }).called 1 t'
      (o := .write both) k' () { c.world with store := both }).log =
        c.log ++ .call 2 (.write paused) () :: ([] ++ .call 1 (.write both) () :: []) := by
    simp [Config.called_log]
  have hobserved := (hall _ hobserve).revived c.log 2 paused [] 1 both [] (Uuid.text 20) hlog hoff hon
  rcases observedIn_snoc hobserved with ⟨before, n, written, after, _, _, hnil, -⟩ | ⟨n, written, request, τ, heq, -, hobserves⟩
  · exact List.cons_ne_nil _ _ (List.append_eq_nil_iff.mp hnil.symm).2
  · obtain ⟨-, hop, -⟩ := Label.call.inj heq
    obtain rfl := BrowserOp.write.inj hop
    have hown := hobserves.own
    cases request with
    | observe requestedCanonical =>
      have hsame : Uuid.text 30 = Uuid.text 20 := Option.some.inj (hlast.symm.trans hown)
      exact absurd hsame (by decide +kernel)
    | _ => exact nomatch hown

end Fubun.Extensions

import Mathlib.Data.List.Nodup
import Fubun.Core.Adapters

/-! The registry behind `validate_hello` as a table: the capabilities that are reserved for each of the
registered adapters. -/

namespace Fubun
open Relational

def reservedActions (adapterId : String) : List String :=
  if adapterId = linuxAdapterId then
    ["linux.app.ensure_running.v1", "linux.path.open.v1", "desktop.notification.show.v1"]
  else if adapterId = browserAdapterId then ["browser.tab.ensure_open.v1"]
  else []

def reservedEvents (adapterId : String) : List String :=
  if adapterId = browserAdapterId then ["dev.fubun.browser.resource.opened.v1"]
  else if adapterId = vscodeAdapterId then ["dev.fubun.vscode.workspace.opened.v1"]
  else []

namespace AdapterHello

def capabilities (hello : AdapterHello) : List String := hello.actionCapabilities ++ hello.eventCapabilities

structure IsFormed (hello : AdapterHello) : Prop where
  registered : hello.adapterId ∈ [linuxAdapterId, browserAdapterId, vscodeAdapterId]
  versioned : 1 ≤ hello.adapterVersion.utf8ByteSize ∧ hello.adapterVersion.utf8ByteSize ≤ 128
  plain : ∀ c ∈ hello.adapterVersion.toList, isControl c = false
  counted : 1 ≤ hello.capabilities.length ∧ hello.capabilities.length ≤ 16
  distinct : hello.capabilities.Nodup

/-- Each capability is reserved for the adapter, as what its list says it is. -/
def IsSorted (hello : AdapterHello) : Prop :=
  (∀ capability ∈ hello.actionCapabilities, capability ∈ reservedActions hello.adapterId) ∧
    ∀ capability ∈ hello.eventCapabilities, capability ∈ reservedEvents hello.adapterId

/-- Each capability is reserved for the adapter, in whichever list it stands. -/
def IsReserved (hello : AdapterHello) : Prop :=
  ∀ capability ∈ hello.capabilities, capability ∈ reservedActions hello.adapterId ++ reservedEvents hello.adapterId

end AdapterHello

/-! ## One capability -/

def knownCapabilities : List String :=
  ["linux.app.ensure_running.v1", "linux.path.open.v1", "desktop.notification.show.v1", "browser.tab.ensure_open.v1",
    "dev.fubun.browser.resource.opened.v1", "dev.fubun.vscode.workspace.opened.v1"]

theorem mem_knownCapabilities {capability : String} (h : (descriptorByType capability).isSome ∨ capability ∈ eventCapabilities) :
    capability ∈ knownCapabilities := by
  unfold descriptorByType at h
  split_ifs at h <;> simp_all [knownCapabilities, eventCapabilities]

theorem known_of_reserved {adapterId capability : String} (h : capability ∈ reservedActions adapterId ++ reservedEvents adapterId) :
    capability ∈ knownCapabilities := by
  rcases List.mem_append.mp h with h | h
  · unfold reservedActions at h
    split_ifs at h <;> simp only [knownCapabilities, List.mem_cons, List.not_mem_nil] at h ⊢ <;> tauto
  · unfold reservedEvents at h
    split_ifs at h <;> simp only [knownCapabilities, List.mem_cons, List.not_mem_nil] at h ⊢ <;> tauto

theorem known_of_validateCapability {adapterId capability : String} (h : validateCapability adapterId capability = .ok ()) :
    capability ∈ knownCapabilities := by
  apply mem_knownCapabilities
  by_contra hunknown
  rw [not_or] at hunknown
  have hnone : (descriptorByType capability).isNone = true := by simpa using hunknown.1
  unfold validateCapability at h
  split_ifs at h
  all_goals simp_all

theorem validateCapability_eq_ok {adapterId capability : String} (hadapter : adapterId ∈ [linuxAdapterId, browserAdapterId, vscodeAdapterId]) :
    validateCapability adapterId capability = .ok () ↔ capability ∈ reservedActions adapterId ++ reservedEvents adapterId := by
  have htable : ∀ adapterId ∈ [linuxAdapterId, browserAdapterId, vscodeAdapterId], ∀ capability ∈ knownCapabilities,
      (validateCapability adapterId capability).isOk = true ↔ capability ∈ reservedActions adapterId ++ reservedEvents adapterId := by
    decide +kernel
  constructor
  · intro h
    have hknown := known_of_validateCapability h
    exact (htable adapterId hadapter capability hknown).mp (by rw [h]; rfl)
  · intro h
    have hok := (htable adapterId hadapter capability (known_of_reserved h)).mpr h
    cases hresult : validateCapability adapterId capability with
    | ok u => rfl
    | error error =>
      rw [hresult] at hok
      exact nomatch hok

/-! ## The loop -/

theorem validateCapabilities_eq_ok {adapterId : String} {seen capabilities : List String} :
    validateCapabilities adapterId seen capabilities = .ok () ↔
      (∀ capability ∈ capabilities, validateCapability adapterId capability = .ok () ∧ capability ∉ seen) ∧ capabilities.Nodup := by
  induction capabilities generalizing seen with
  | nil => simp [validateCapabilities]
  | cons capability capabilities ih =>
    rw [validateCapabilities, bind_eq_ok, List.nodup_cons, List.forall_mem_cons]
    constructor
    · rintro ⟨u, hvalid, hrest⟩
      split_ifs at hrest with hseen
      obtain ⟨hall, hnodup⟩ := ih.mp hrest
      refine ⟨⟨⟨hvalid, hseen⟩, fun c hc => ⟨(hall c hc).1, fun hmem => ?_⟩⟩, ?_, hnodup⟩
      · exact (hall c hc).2 (List.mem_cons_of_mem _ hmem)
      · exact fun hmem => (hall capability hmem).2 List.mem_cons_self
    · rintro ⟨⟨⟨hvalid, hseen⟩, hall⟩, hnot, hnodup⟩
      refine ⟨(), hvalid, ?_⟩
      rw [if_neg hseen]
      apply ih.mpr ⟨fun c hc => ⟨(hall c hc).1, ?_⟩, hnodup⟩
      rintro (_ | ⟨_, hmem⟩)
      · exact hnot hc
      · exact (hall c hc).2 hmem

/-- A hello is accepted when it is formed and all its capabilities are its own. -/
theorem hello_accepted_iff (hello : AdapterHello) : validateHello hello = .ok () ↔ hello.IsFormed ∧ hello.IsReserved := by
  unfold validateHello
  split_ifs with hadapter hversion hcount
  · refine ⟨fun h => (nomatch h), fun h => ?_⟩
    obtain ⟨hlow, hhigh⟩ := h.1.versioned
    rcases hversion with hempty | hlong | hcontrol
    · rw [hempty] at hlow
      exact absurd hlow (by decide)
    · exact absurd hhigh (Nat.not_le_of_gt hlong)
    · obtain ⟨c, hc, hcontrol⟩ := List.any_eq_true.mp hcontrol
      exact nomatch hcontrol.symm.trans (h.1.plain c hc)
  · refine ⟨fun h => (nomatch h), fun h => ?_⟩
    have hcounted := h.1.counted
    rw [AdapterHello.capabilities, List.length_append] at hcounted
    rcases hcount with hmany | ⟨hactions, hevents⟩
    · exact absurd hcounted.2 (Nat.not_le_of_gt hmany)
    · rw [hactions, hevents] at hcounted
      exact absurd hcounted.1 (by decide)
  · simp only [not_or, not_and, Nat.not_lt] at hversion hcount
    rw [validateCapabilities_eq_ok]
    constructor
    · rintro ⟨hall, hnodup⟩
      have hreserved : hello.IsReserved := fun c hc => (validateCapability_eq_ok hadapter).mp (hall c hc).1
      refine ⟨⟨hadapter, ⟨?_, hversion.2.1⟩, ?_, ⟨?_, ?_⟩, hnodup⟩, hreserved⟩
      · exact Nat.pos_of_ne_zero fun hzero => hversion.1 (String.utf8ByteSize_eq_zero_iff.mp hzero)
      · simpa using hversion.2.2
      · apply List.length_pos_of_ne_nil
        intro hnil
        obtain ⟨hactions, hevents⟩ := List.append_eq_nil_iff.mp hnil
        exact hcount.2 hactions hevents
      · rw [AdapterHello.capabilities, List.length_append]
        exact hcount.1
    · rintro ⟨hformed, hreserved⟩
      refine ⟨fun c hc => ⟨(validateCapability_eq_ok hadapter).mpr (hreserved c hc), ?_⟩, hformed.distinct⟩
      exact List.not_mem_nil
  · exact ⟨fun h => (nomatch h), fun h => absurd h.1.registered hadapter⟩

/-- An event capability among the actions is accepted. -/
theorem hello_accepted_misplaced :
    ¬ ∀ hello : AdapterHello, validateHello hello = .ok () ↔ hello.IsFormed ∧ hello.IsSorted := by
  intro h
  have haccepted : validateHello ⟨vscodeAdapterId, "0.1.0", 1, ["dev.fubun.vscode.workspace.opened.v1"], [], ⟨[], [], []⟩⟩ =
      .ok () := rfl
  have hsorted := ((h _).mp haccepted).2.1
  exact absurd (hsorted _ List.mem_cons_self) (by decide)

end Fubun

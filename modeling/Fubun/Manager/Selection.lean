import Fubun.Ids
import Fubun.Manager.Responses
import Fubun.Relational.Order

/-! Which adapter serves an action: of the instances that meet all its requirements by themselves, the
one whose id is the least as it is written. -/

namespace Fubun
open Relational Concurrency

def ActionSpec.servingAdapter : ActionSpec → String
  | .browserTabEnsureOpen _ => browserAdapterId
  | _ => linuxAdapterId

def ActionSpec.fixedTool : ActionSpec → Option String
  | .linuxAppEnsureRunning _ => some "gtk-launch"
  | .linuxPathOpen _ => some "xdg-open"
  | .desktopNotificationShow .. => some "notify-send"
  | .browserTabEnsureOpen _ => none

/-- One connection has all that an action takes. -/
structure Qualifies (connection : AdapterConnection) (action : ActionSpec) : Prop where
  permitted : connection.hello.adapterId = action.servingAdapter
  capable : action.actionType ∈ connection.hello.actionCapabilities
  equipped : ∀ tool, action.fixedTool = some tool →
    ∃ candidate ∈ connection.hello.status.tools, candidate.name = tool ∧ candidate.available = true
  installed : ∀ appId, action = .linuxAppEnsureRunning appId → appId ∈ connection.hello.status.desktopEntryIds
  mapped : ∀ resourceId, action = .browserTabEnsureOpen resourceId →
    resourceId ∈ connection.hello.status.permittedResourceIds

section Selection
variable {connections connections' : Registry} {connection : AdapterConnection} {action : ActionSpec}
  {requirements : AdapterRequirements} {identity : EligibleAdapter} {token : Uuid}

theorem allowed_iff {adapterId : String} :
    adapterIdAllowedForCapability adapterId (AdapterRequirements.fromAction action).capability = true ↔
      adapterId = action.servingAdapter := by
  cases action <;> exact beq_iff_eq

theorem capability_fromAction : (AdapterRequirements.fromAction action).capability = action.actionType := by
  cases action <;> rfl

theorem requiredTool_fromAction : (AdapterRequirements.fromAction action).requiredTool = action.fixedTool := by
  cases action <;> rfl

theorem connectionSatisfies_iff :
    connectionSatisfies connection (.fromAction action) = true ↔ Qualifies connection action := by
  have htool : (AdapterRequirements.fromAction action).requiredTool.all (fun tool =>
      connection.hello.status.tools.any fun candidate => candidate.name == tool && candidate.available) = true ↔
      ∀ tool, action.fixedTool = some tool →
        ∃ candidate ∈ connection.hello.status.tools, candidate.name = tool ∧ candidate.available = true := by
    rw [requiredTool_fromAction, Option.all_eq_true]
    simp only [List.any_eq_true, Bool.and_eq_true, beq_iff_eq]
  have hentry : (AdapterRequirements.fromAction action).desktopEntryId.all
      (connection.hello.status.desktopEntryIds.contains ·) = true ↔
      ∀ appId, action = .linuxAppEnsureRunning appId → appId ∈ connection.hello.status.desktopEntryIds := by
    cases action <;> simp [AdapterRequirements.fromAction]
  have hresource : (AdapterRequirements.fromAction action).browserResourceId.all (fun resourceId =>
      connection.hello.adapterId == browserAdapterId && connection.hello.status.permittedResourceIds.contains resourceId) = true ↔
      ∀ resourceId, action = .browserTabEnsureOpen resourceId → connection.hello.adapterId = browserAdapterId ∧
        resourceId ∈ connection.hello.status.permittedResourceIds := by
    cases action <;> simp [AdapterRequirements.fromAction]
  rw [connectionSatisfies, Bool.and_eq_true, Bool.and_eq_true, Bool.and_eq_true, Bool.and_eq_true, allowed_iff,
    List.contains_iff_mem, capability_fromAction, htool, hentry, hresource]
  constructor
  · rintro ⟨⟨⟨⟨hpermitted, hcapable⟩, hequipped⟩, hinstalled⟩, hmapped⟩
    exact ⟨hpermitted, hcapable, hequipped, hinstalled, fun resourceId haction => (hmapped resourceId haction).2⟩
  · intro h
    refine ⟨⟨⟨⟨h.permitted, h.capable⟩, h.equipped⟩, h.installed⟩, fun resourceId haction => ?_⟩
    exact ⟨h.permitted.trans (haction ▸ rfl), h.mapped resourceId haction⟩

def AdapterConnection.selected (connection : AdapterConnection) : EligibleAdapter × Uuid :=
  (⟨connection.hello.adapterId, connection.instanceId⟩, connection.connectionToken)

def Registry.candidates (requirements : AdapterRequirements) (connections : Registry) : List (EligibleAdapter × Uuid) :=
  (connections.filter (connectionSatisfies · requirements)).map AdapterConnection.selected

theorem linearOn_candidates (hkeyed : Keyed AdapterConnection.instanceId connections) :
    LinearOn (fun a b : EligibleAdapter × Uuid => decide (a.1.instanceId ≤ b.1.instanceId)) (connections.candidates requirements) where
  total a b := by simpa using Nat.le_total a.1.instanceId b.1.instanceId
  trans a b c hab hbc := by
    simp only [decide_eq_true_eq] at hab hbc ⊢
    exact hab.trans hbc
  antisymm a ha b hb hab hba := by
    obtain ⟨c, hc, rfl⟩ := List.mem_map.mp ha
    obtain ⟨d, hd, rfl⟩ := List.mem_map.mp hb
    simp only [decide_eq_true_eq] at hab hba
    have hid : c.instanceId = d.instanceId := Nat.le_antisymm hab hba
    rw [hkeyed.eq (List.mem_filter.mp hc).1 (List.mem_filter.mp hd).1 hid]

theorem mem_candidates {candidate : EligibleAdapter × Uuid} : candidate ∈ connections.candidates requirements ↔
    ∃ connection ∈ connections, connectionSatisfies connection requirements = true ∧ connection.selected = candidate := by
  rw [Registry.candidates, List.mem_map]
  simp only [List.mem_filter, and_assoc]

theorem selectEligible_eq (h : connections ≠ []) : connections.selectEligible requirements =
    match (orderBy (fun a b => decide (a.1.instanceId ≤ b.1.instanceId)) (connections.candidates requirements)).head? with
    | some candidate => .ok candidate
    | none => .error .ineligible := by
  rw [Registry.selectEligible, if_neg h]
  unfold Registry.candidates AdapterConnection.selected
  dsimp only
  generalize orderBy _ _ = ordered
  cases ordered <;> rfl

theorem selectEligible_eq_ok (hkeyed : Keyed AdapterConnection.instanceId connections) :
    connections.selectEligible requirements = .ok (identity, token) ↔ ∃ connection ∈ connections,
      connectionSatisfies connection requirements = true ∧ connection.selected = (identity, token) ∧
        ∀ other ∈ connections, connectionSatisfies other requirements = true → connection.instanceId ≤ other.instanceId := by
  have hlinear : LinearOn (fun a b : EligibleAdapter × Uuid => decide (a.1.instanceId ≤ b.1.instanceId))
      (connections.candidates requirements) := linearOn_candidates hkeyed
  have hhead := head?_orderBy (d := (identity, token)) hlinear
  rw [mem_candidates] at hhead
  by_cases hnil : connections = []
  · subst hnil
    exact iff_of_false (by rw [Registry.selectEligible, if_pos rfl]; exact nofun) fun ⟨_, hmem, _⟩ => nomatch hmem
  rw [selectEligible_eq hnil]
  constructor
  · intro h
    split at h
    · rename_i candidate hcandidate
      obtain ⟨⟨connection, hmem, hsatisfies, hselected⟩, hleast⟩ := hhead.mp (hcandidate.trans (congrArg some (Except.ok.inj h)))
      refine ⟨connection, hmem, hsatisfies, hselected, fun other hother hok => ?_⟩
      have hle := hleast other.selected (mem_candidates.mpr ⟨other, hother, hok, rfl⟩)
      rw [← hselected] at hle
      exact of_decide_eq_true hle
    · exact nomatch h
  · rintro ⟨connection, hmem, hsatisfies, hselected, hleast⟩
    have hfirst := hhead.mpr ⟨⟨connection, hmem, hsatisfies, hselected⟩, ?_⟩
    · rw [hfirst]
    · intro candidate hcandidate
      obtain ⟨other, hother, hok, rfl⟩ := mem_candidates.mp hcandidate
      rw [← hselected]
      exact decide_eq_true (hleast other hother hok)

theorem selectEligible_unavailable :
    connections.selectEligible requirements = .error .unavailable ↔ connections = [] := by
  by_cases hnil : connections = []
  · refine iff_of_true ?_ hnil
    rw [Registry.selectEligible, if_pos hnil]
  · refine iff_of_false ?_ hnil
    rw [selectEligible_eq hnil]
    split <;> exact nofun

theorem selectEligible_ineligible : connections.selectEligible requirements = .error .ineligible ↔
    connections ≠ [] ∧ ∀ connection ∈ connections, ¬ connectionSatisfies connection requirements = true := by
  by_cases hnil : connections = []
  · refine iff_of_false ?_ fun h => h.1 hnil
    rw [Registry.selectEligible, if_pos hnil]
    exact nofun
  rw [selectEligible_eq hnil]
  constructor
  · intro h
    refine ⟨hnil, fun connection hmem hok => ?_⟩
    have hcandidate : connection.selected ∈
        orderBy (fun a b => decide (a.1.instanceId ≤ b.1.instanceId)) (connections.candidates requirements) :=
      mem_orderBy.mpr (mem_candidates.mpr ⟨connection, hmem, hok, rfl⟩)
    split at h
    · exact nomatch h
    · rename_i hnone
      rw [List.head?_eq_none_iff.mp hnone] at hcandidate
      exact nomatch hcandidate
  · rintro ⟨-, hall⟩
    split
    · rename_i candidate hcandidate
      obtain ⟨connection, hmem, hok, -⟩ := mem_candidates.mp (mem_orderBy.mp (List.mem_of_head? hcandidate))
      exact absurd hok (hall connection hmem)
    · rfl

theorem selectEligible_perm (hkeyed : Keyed AdapterConnection.instanceId connections) (h : connections'.Perm connections) :
    connections'.selectEligible requirements = connections.selectEligible requirements := by
  have hkeyed' : Keyed AdapterConnection.instanceId connections' := (h.map _).nodup_iff.mpr hkeyed
  cases hselected : connections.selectEligible requirements with
  | ok candidate =>
    obtain ⟨identity, token⟩ := candidate
    obtain ⟨connection, hmem, hok, heq, hleast⟩ := (selectEligible_eq_ok hkeyed).mp hselected
    apply (selectEligible_eq_ok hkeyed').mpr
    exact ⟨connection, h.mem_iff.mpr hmem, hok, heq, fun other hother => hleast other (h.mem_iff.mp hother)⟩
  | error error =>
    cases error with
    | unavailable =>
      obtain rfl := selectEligible_unavailable.mp hselected
      exact selectEligible_unavailable.mpr h.eq_nil
    | ineligible =>
      obtain ⟨hne, hall⟩ := selectEligible_ineligible.mp hselected
      apply selectEligible_ineligible.mpr
      exact ⟨fun hnil => hne (List.nil_perm.mp (hnil ▸ h)), fun connection hmem => hall connection (h.mem_iff.mp hmem)⟩

end Selection

/-- The selection for an action: the least of the ids that qualify, each by its own connection. -/
structure SelectsLeast (connections : Registry) (action : ActionSpec) : Prop where
  selected : ∀ identity token, connections.selectEligible (.fromAction action) = .ok (identity, token) ↔
    ∃ connection ∈ connections, Qualifies connection action ∧ connection.selected = (identity, token) ∧
      ∀ other ∈ connections, Qualifies other action → connection.instanceId.text ≤ other.instanceId.text
  unavailable : connections.selectEligible (.fromAction action) = .error .unavailable ↔ connections = []
  ineligible : connections.selectEligible (.fromAction action) = .error .ineligible ↔
    connections ≠ [] ∧ ∀ connection ∈ connections, ¬ Qualifies connection action

theorem selectsLeast {connections : Registry} (hkeyed : Keyed AdapterConnection.instanceId connections)
    (hids : ∀ connection ∈ connections, connection.instanceId < 16 ^ 32) (action : ActionSpec) :
    SelectsLeast connections action := by
  constructor
  · intro identity token
    rw [selectEligible_eq_ok hkeyed]
    constructor
    · rintro ⟨connection, hmem, hok, heq, hleast⟩
      refine ⟨connection, hmem, connectionSatisfies_iff.mp hok, heq, fun other hother hqualifies => ?_⟩
      exact (text_le_text (hids connection hmem) (hids other hother)).mpr
        (hleast other hother (connectionSatisfies_iff.mpr hqualifies))
    · rintro ⟨connection, hmem, hqualifies, heq, hleast⟩
      refine ⟨connection, hmem, connectionSatisfies_iff.mpr hqualifies, heq, fun other hother hok => ?_⟩
      exact (text_le_text (hids connection hmem) (hids other hother)).mp
        (hleast other hother (connectionSatisfies_iff.mp hok))
  · exact selectEligible_unavailable
  · rw [selectEligible_ineligible]
    simp only [connectionSatisfies_iff]

namespace ManagerState

/-- In every state the selection is that of the least id, whatever the map is iterated in, and a dispatch goes to the
instance that a preview or a preflight names. -/
theorem selection_determined {s : ManagerState} {now : OffsetDateTime} {socketRoom : Nat}
    (h : Machine.Reaches step (.start now socketRoom) Machine.Anyhow s)
    (hids : ∀ connection ∈ s.manager.connections, connection.instanceId < 16 ^ 32) (action : ActionSpec)
    (resolved : Option ResolvedResource) {connections : Registry} (hperm : connections.Perm s.manager.connections) :
    SelectsLeast s.manager.connections action ∧
      connections.selectEligible (.fromAction action) = s.manager.connections.selectEligible (.fromAction action) ∧
      (∀ identity, connections.findEligible (.fromAction action) = .ok identity ↔
        ∃ token, s.select action resolved = .inserting identity token action resolved) ∧
      ∀ error, connections.findEligible (.fromAction action) = .error error ↔
        s.select action resolved = .completed none (.error ⟨none, error.dispatchKind⟩) := by
  have hkeyed := (reaches_current h).2.1.keyed
  -- the order of the registry does not matter
  have hsame : connections.selectEligible (.fromAction action) = s.manager.connections.selectEligible (.fromAction action) :=
    selectEligible_perm hkeyed hperm
  refine ⟨selectsLeast hkeyed hids action, hsame, fun identity => ?_, fun error => ?_⟩
  · rw [Registry.findEligible, hsame, select]
    cases s.manager.connections.selectEligible (.fromAction action) with
    | ok candidate =>
      obtain ⟨selected, token⟩ := candidate
      constructor
      · intro hok
        obtain rfl := Except.ok.inj hok
        exact ⟨token, rfl⟩
      · rintro ⟨token', hinserting⟩
        obtain ⟨rfl, -⟩ := ManagerTask.inserting.inj hinserting
        rfl
    | error error =>
      constructor
      · intro hok
        cases hok
      · rintro ⟨_, hinserting⟩
        cases hinserting
  · rw [Registry.findEligible, hsame, select]
    cases s.manager.connections.selectEligible (.fromAction action) with
    | ok candidate =>
      constructor
      · intro herror
        cases herror
      · intro herror
        cases herror
    | error failed => cases failed <;> cases error <;> simp [Except.map, AdapterEligibilityError.dispatchKind]

end ManagerState

/-- Of two that qualify the later registration has the lesser id and is selected, also when the map is iterated in the
other order. -/
theorem selection_determined_two : ∃ s, Machine.Reaches ManagerState.step (.start ⟨0, 0⟩ 4) Machine.Anyhow s ∧
    s.manager.connections.map (·.instanceId) = [102, 100] ∧
      SelectsLeast s.manager.connections (Sample.notify Sample.now) ∧
        (Registry.findEligible (.fromAction (Sample.notify Sample.now)) s.manager.connections.reverse).isOk = true := by
  have hrun : (Machine.exec ManagerState.step (.start ⟨0, 0⟩ 4) [.start (.register Sample.otherHello), .advance 0 (10, 0),
      .start (.register Sample.hello), .advance 1 (11, 0)]).map (fun s => (s.manager.connections.map (·.instanceId),
        (s.manager.connections.selectEligible (.fromAction (Sample.notify Sample.now))).isOk)) = some ([102, 100], true) := by
    decide +kernel
  obtain ⟨s, hs, hproj⟩ := Option.map_eq_some_iff.mp hrun
  obtain ⟨hconnections, hok⟩ := Prod.mk.inj hproj
  have hreach : Machine.Reaches ManagerState.step (.start ⟨0, 0⟩ 4) Machine.Anyhow s := Machine.Reaches.init.exec hs
  have hids : ∀ connection ∈ s.manager.connections, connection.instanceId < 16 ^ 32 := by
    intro connection hmem
    have hid : connection.instanceId ∈ [102, 100] := hconnections ▸ List.mem_map_of_mem hmem
    simp only [List.mem_cons, List.not_mem_nil, or_false] at hid
    rcases hid with hid | hid <;> exact hid ▸ by decide
  obtain ⟨hleast, hsame, -⟩ := ManagerState.selection_determined hreach hids (Sample.notify Sample.now) none
    (List.reverse_perm s.manager.connections)
  refine ⟨s, hreach, hconnections, hleast, ?_⟩
  unfold Registry.findEligible
  rw [hsame]
  cases hselected : s.manager.connections.selectEligible (.fromAction (Sample.notify Sample.now)) with
  | ok => rfl
  | error => rw [hselected] at hok; exact nomatch hok

end Fubun

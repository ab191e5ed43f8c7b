import Fubun.Events.Emission
import Fubun.Rituals.Dispatch

/-! Whether the scope of a semantic event is active when the event is stored. An emission reads the
scopes and stores its event later; the status of a scope is what the last committed enable or pause
has made of it. -/

namespace Fubun
open Relational Concurrency Program System

abbrev ScopeKey := ObservationSource × Uuid

def ObservationScope.key (scope : ObservationScope) : ScopeKey := (scope.source, scope.resourceId)

def Event.scopeKey (event : Event) : Option ScopeKey :=
  match event.data with
  | .synthetic .. => none
  | .browserResourceOpened resourceId => some (.browserChromium, resourceId)
  | .vscodeWorkspaceOpened resourceId => some (.vscodeWorkspace, resourceId)

def Observes (db : Database) (key : ScopeKey) : Prop :=
  ∃ scope ∈ db.observationScopes, scope.key = key ∧ scope.status = .active

instance (db : Database) (key : ScopeKey) : Decidable (Observes db key) :=
  inferInstanceAs (Decidable (∃ scope ∈ db.observationScopes, _))

/-- The scope that an enable or a pause answers with, as it has left it. -/
def changedScope : (o : Operation) → Except StorageError o.Reply → Option ObservationScope
  | .ensureObservationScope _, .ok scope => some scope
  | .pauseObservationScope _, .ok scope => some scope
  | _, _ => none

/-- What the committed enables and pauses of a log have made of a scope, oldest first. -/
def statusWrites (key : ScopeKey) (log : Log) : List ObservationStatus :=
  ((log.filterMap (committed changedScope)).filter (·.key == key)).map (·.status)

def readsScopes (i : Nat) : Label Nat Op.Res Frame Reply → Bool
  | .call j (.storage (.listObservationScopes _)) _ => j = i
  | _ => false

def sinceScopesRead (i : Nat) (log : Log) : Log := log.rtakeWhile fun l => ! readsScopes i l

/-- Since the connection read the scopes, the last change of this one, if any, was no pause. -/
def StillObserved (i : Nat) (key : ScopeKey) (log : Log) : Prop :=
  (statusWrites key (sinceScopesRead i log)).getLast? ≠ some .paused

instance (i : Nat) (key : ScopeKey) (log : Log) : Decidable (StillObserved i key log) :=
  inferInstanceAs (Decidable (_ ≠ _))

section Scopes
variable {crates : Crates} {now : OffsetDateTime} {db db' : Database} {o : Operation} {r : Except StorageError o.Reply}
  {scopeId : Uuid}

/-! ## The status of a scope -/

def scopeStatus (scopeId : Uuid) (db : Database) : Option ObservationStatus :=
  (db.observationScopes.find? (·.id == scopeId)).map (·.status)

def scopeWrite (scopeId : Uuid) (o : Operation) (r : Except StorageError o.Reply) : Option ObservationStatus :=
  (changedScope o r).bind fun scope => if scope.id = scopeId then some scope.status else none

theorem findScopeById_ok {scope : ObservationScope} (h : findScopeById scopeId db = .ok scope) :
    db.observationScopes.find? (·.id == scopeId) = some scope := by
  unfold findScopeById at h
  split at h
  · rename_i row hrow
    rw [hrow, Except.ok.inj h]
  · exact nomatch h

theorem scopeStatus_update {p : ObservationScope → Bool} {f : ObservationScope → ObservationScope}
    (h : db'.observationScopes = updateRows p f db.observationScopes) (hf : ∀ row, (f row).id = row.id) :
    scopeStatus scopeId db' =
      (db.observationScopes.find? (·.id == scopeId)).map fun row => if p row then (f row).status else row.status := by
  rw [scopeStatus, h, find?_updateRows fun row => by rw [hf], Option.map_map]
  congr 1
  funext row
  simp only [Function.comp_apply]
  split_ifs <;> rfl

theorem scopeStatus_update_ne {p : ObservationScope → Bool} {f : ObservationScope → ObservationScope}
    (h : db'.observationScopes = updateRows p f db.observationScopes) (hf : ∀ row, (f row).id = row.id)
    (hp : ∀ row, p row = true → row.id ≠ scopeId) : scopeStatus scopeId db' = scopeStatus scopeId db := by
  rw [scopeStatus_update h hf, scopeStatus]
  cases hrow : db.observationScopes.find? (·.id == scopeId) with
  | none => rfl
  | some row =>
    have hid : row.id = scopeId := by simpa using List.find?_some hrow
    have hkept : p row ≠ true := fun hpr => hp row hpr hid
    simp [hkept]

/-- An operation changes the status of a scope by what it writes to it, and by nothing else. -/
theorem Effect.scopeStatus (h : Effect crates now db db' o r) :
    scopeStatus scopeId db' = ((scopeWrite scopeId o r).map fun status => some status).getD (scopeStatus scopeId db) := by
  have hsame : db'.observationScopes = db.observationScopes →
      Fubun.scopeStatus scopeId db' = Fubun.scopeStatus scopeId db := fun heq => by
    rw [Fubun.scopeStatus, Fubun.scopeStatus, heq]
  cases o with
  | ensureObservationScope scope =>
    cases r with
    | error e => exact hsame (h ▸ rfl)
    | ok reply =>
      rcases h with ⟨existing, hfind, hreply, hdb⟩ | ⟨-, hreply, hinsert⟩
      -- the scope is there and becomes active
      · have hrows : db'.observationScopes = updateRows (·.id == existing.id)
            (fun row => { row with status := .active, updatedAt := scope.updatedAt }) db.observationScopes :=
          congrArg Database.observationScopes hdb
        rw [scopeWrite, changedScope, hreply]
        by_cases hid : existing.id = scopeId
        · have hfound : (db.observationScopes.find? (·.id == scopeId)).isSome = true :=
            List.find?_isSome.mpr ⟨existing, List.mem_of_find?_eq_some hfind, by simpa using hid⟩
          obtain ⟨row, hrow⟩ := Option.isSome_iff_exists.mp hfound
          have hrowId : row.id = scopeId := by simpa using List.find?_some hrow
          rw [scopeStatus_update hrows fun _ => rfl]
          simp [hrow, hrowId, hid]
        · rw [scopeStatus_update_ne hrows (fun _ => rfl) fun row hrow heq => hid ?_]
          · simp [hid]
          · rw [← heq, eq_of_beq hrow]
      -- the scope is new
      · obtain ⟨-, hfresh, hdb⟩ := insertScope_ok hinsert
        rw [Fubun.scopeStatus, hdb, scopeWrite, changedScope, hreply, List.find?_append, List.find?_singleton]
        by_cases hid : scope.id = scopeId
        · have hnone : db.observationScopes.find? (·.id == scopeId) = none := by
            rw [List.find?_eq_none]
            intro row hrow
            have hne := hfresh row hrow
            simp only [ObservationScope.clashes, Bool.or_eq_false_iff, beq_eq_false_iff_ne, hid] at hne
            simpa using hne.1
          simp [hnone, hid]
        · simp [Fubun.scopeStatus, hid]
  | pauseObservationScope id =>
    cases r with
    | error e => exact hsame (h ▸ rfl)
    | ok reply =>
      obtain ⟨scope, hfind, hpause⟩ := h
      have hscope := findScopeById_ok hfind
      obtain rfl : scope.id = id := by simpa using List.find?_some hscope
      rcases hpause with ⟨hactive, hreply, hdb⟩ | ⟨hpaused, hreply, hdb⟩
      · have hrows : db'.observationScopes = updateRows (fun row => row.id == scope.id && row.status == .active)
            (fun row => { row with status := .paused, updatedAt := now }) db.observationScopes :=
          congrArg Database.observationScopes hdb
        rw [scopeWrite, changedScope, hreply]
        by_cases heq : scope.id = scopeId
        · rw [scopeStatus_update hrows fun _ => rfl]
          rw [heq] at hscope
          simp [hscope, heq, hactive]
        · rw [scopeStatus_update_ne hrows (fun _ => rfl) fun row hrow hid => heq ?_]
          · simp [heq]
          · have hrowId := (Bool.and_eq_true_iff.mp hrow).1
            rw [← hid, eq_of_beq hrowId]
      -- a scope that is not active stays as it is
      · rw [hsame (congrArg Database.observationScopes hdb), scopeWrite, changedScope, hreply]
        by_cases heq : scope.id = scopeId
        · rw [heq] at hscope
          simp [Fubun.scopeStatus, hscope, heq, hpaused]
        · simp [heq]
  | _ =>
    have hframe : TableName.observationScopes.Same db db' := h.frame (by simp [Operation.writes])
    exact hsame hframe

/-- The status of a scope is the replay of the committed writes to it. -/
def scopeReplay (crates : Crates) (scopeId : Uuid) :
    (daemon crates).Replayed (Option ObservationStatus) ObservationStatus :=
  databaseReplay crates (Fubun.scopeStatus scopeId) (scopeWrite scopeId) (fun _ status => some status)
    (fun he => he.scopeStatus) fun _ => rfl

theorem foldl_status (ws : List ObservationStatus) :
    ws.foldl (fun _ status => some status) (some .active) = some .active ↔ ws.getLast? ≠ some .paused := by
  induction ws using List.reverseRecOn with
  | nil => simp
  | append_singleton ws status =>
    rw [List.foldl_concat, List.getLast?_concat]
    cases status <;> simp

theorem Effect.changedScope_mem (h : Effect crates now db db' o r) {scope : ObservationScope}
    (hs : changedScope o r = some scope) : ∃ row ∈ db'.observationScopes, row.id = scope.id ∧ row.key = scope.key := by
  cases o with
  | ensureObservationScope wanted =>
    cases r with
    | error e => exact nomatch hs
    | ok reply =>
      rw [← Option.some.inj hs]
      rcases h with ⟨existing, hfind, hreply, hdb⟩ | ⟨-, hreply, hinsert⟩
      · obtain ⟨row, hrow, hkept⟩ := exists_mem_updateRows (p := (·.id == existing.id))
          (f := fun row => { row with status := .active, updatedAt := wanted.updatedAt })
          (g := fun row => (row.id, row.key)) (fun _ => rfl) (List.mem_of_find?_eq_some hfind)
        rw [hreply, hdb]
        exact ⟨row, hrow, (Prod.mk.inj hkept).1, (Prod.mk.inj hkept).2⟩
      · obtain ⟨-, -, hdb⟩ := insertScope_ok hinsert
        rw [hreply, hdb]
        exact ⟨_, List.mem_append_right _ (List.mem_singleton_self _), rfl, rfl⟩
  | pauseObservationScope id =>
    cases r with
    | error e => exact nomatch hs
    | ok reply =>
      rw [← Option.some.inj hs]
      obtain ⟨found, hfind, ⟨-, hreply, hdb⟩ | ⟨-, hreply, hdb⟩⟩ := h
      all_goals
        rw [hreply, hdb]
        have hfound := List.mem_of_find?_eq_some (findScopeById_ok hfind)
      · obtain ⟨row, hrow, hkept⟩ := exists_mem_updateRows (p := fun row => row.id == id && row.status == .active)
          (f := fun row => { row with status := .paused, updatedAt := now })
          (g := fun row => (row.id, row.key)) (fun _ => rfl) hfound
        exact ⟨row, hrow, (Prod.mk.inj hkept).1, (Prod.mk.inj hkept).2⟩
      · exact ⟨_, hfound, rfl, rfl⟩
  | _ => exact nomatch hs

end Scopes

/-! ## From the reading of the scopes to the event -/

section Runs
variable {crates : Crates} {now : Int} {instant : Nat} {files : Files} {path : String} {c d : State} {i : Nat}
  {sofar since before after : Log} {source : ObservationSource} {scopes : List ObservationScope}
  {scope : ObservationScope} {key : ScopeKey}

theorem sinceScopesRead_eq {r : Except StorageError (List ObservationScope)} (hsince : ∀ l ∈ since, readsScopes i l = false) :
    sinceScopesRead i (sofar ++ .call i (.storage (.listObservationScopes (some source))) r :: since) = since := by
  apply rtakeWhile_of_forall
  · simp [readsScopes]
  · intro l hl
    rw [hsince l hl]
    rfl

theorem readsScopes_eq_false (h : ∀ x ∈ callsOf i since, ∀ s, x.op ≠ .storage (.listObservationScopes s)) :
    ∀ l ∈ since, readsScopes i l = false := by
  intro l hl
  unfold readsScopes
  split
  · rename_i j s r
    by_contra hj
    obtain rfl : j = i := by simpa using hj
    exact h ⟨.storage (.listObservationScopes s), r⟩ ((mem_callsOf j since).mpr hl) s rfl
  · rfl

/-- A scope that has been read keeps its id and its key, and no other scope has either. -/
theorem scope_of_read (h : (daemon crates).Reaches (World.start now instant files path) Anywhere c)
    (hread : .call i (.storage (.listObservationScopes (some source))) (.ok scopes) ∈ c.log) (hscope : scope ∈ scopes)
    {row : ObservationScope} (hrow : row ∈ c.world.db.observationScopes) : row.id = scope.id ↔ row.key = scope.key := by
  have hkeys := reaches_keys h rfl
  have hlasting : Lasting crates (.storage (.listObservationScopes (some source))) (.ok scopes) c.world :=
    h.persistent (lasting crates) hread
  obtain ⟨-, kept, hkept, hid, hsource, hresource⟩ := hlasting scope hscope
  have hkey : kept.key = scope.key := Prod.ext hsource hresource
  constructor
  · intro heq
    rw [hkeys.scopeIds.eq hrow hkept (heq.trans hid.symm), hkey]
  · intro heq
    rw [hkeys.scopes.eq hrow hkept (heq.trans hkey.symm), hid]

theorem scopeWrites_since (h : (daemon crates).Reaches (World.start now instant files path) Anywhere c)
    (hlog : c.log = sofar ++ .call i (.storage (.listObservationScopes (some source))) (.ok scopes) :: since)
    (hscope : scope ∈ scopes) : (scopeReplay crates scope.id).writes since = statusWrites scope.key since := by
  have hlabel : ∀ l ∈ since, (scopeReplay crates scope.id).write l =
      ((committed changedScope l).bind fun changed => if changed.key = scope.key then some changed.status else none) := by
    intro l hl
    obtain ⟨mid, rest, rfl⟩ := List.append_of_mem hl
    cases l with
    | call j o r =>
      cases o with
      | storage operation =>
        have hsplit : c.log = (sofar ++ .call i (.storage (.listObservationScopes (some source))) (.ok scopes) :: mid) ++
            .call j (.storage operation) r :: rest := by
          rw [hlog]
          simp
        obtain ⟨e, e', _, _, _, -, -, -, -, -, hact, he', helog'⟩ := h.split_call hsplit
        show scopeWrite scope.id operation r = (changedScope operation r).bind _
        rw [scopeWrite]
        cases hchanged : changedScope operation r with
        | none => rfl
        | some changed =>
          obtain ⟨row, hrow, hid, hkey⟩ := (daemon_storage hact).changedScope_mem hchanged
          have hread : .call i (.storage (.listObservationScopes (some source))) (.ok scopes) ∈ e'.log := by
            rw [helog']
            simp
          -- a scope keeps its key, so that the writes to its row are those to the key
          have hsame := scope_of_read he' hread hscope hrow
          rw [hid, hkey] at hsame
          simp only [Option.bind_some, hsame]
      | _ => rfl
    | _ => rfl
  have hkeyed : ∀ changes : List ObservationScope,
      (changes.filterMap fun changed => if changed.key = scope.key then some changed.status else none) =
        (changes.filter (·.key == scope.key)).map (·.status) := by
    intro changes
    induction changes with
    | nil => rfl
    | cons changed changes ih => by_cases hkey : changed.key = scope.key <;> simp [hkey, ih]
  rw [Replayed.writes, List.filterMap_congr hlabel, ← List.filterMap_filterMap, hkeyed, statusWrites]

/-- What an emission has read as active is active exactly as long as it is still observed. -/
theorem observes_iff (h : (daemon crates).Reaches (World.start now instant files path) Anywhere c)
    (hlog : c.log = sofar ++ .call i (.storage (.listObservationScopes (some source))) (.ok scopes) :: since)
    (hscope : scope ∈ scopes) (hactive : scope.status = .active) :
    Observes c.world.db scope.key ↔ (statusWrites scope.key since).getLast? ≠ some .paused := by
  have hread : .call i (.storage (.listObservationScopes (some source))) (.ok scopes) ∈ c.log := by
    rw [hlog]
    simp
  obtain ⟨d, d', _, _, _, -, -, -, -, -, hact, hd', hdlog'⟩ := h.split_call hlog
  -- the scope as it was read
  obtain ⟨rfl, hdb⟩ := daemon_storage hact
  have hstored : scope ∈ d'.world.db.observationScopes := hdb ▸ (mem_listObservationScopes.mp hscope).1
  have hfound : d'.world.db.observationScopes.find? (·.id == scope.id) = some scope :=
    (reaches_keys hd' rfl).scopeIds.find?_eq_some.mpr ⟨hstored, rfl⟩
  have hstart : scopeStatus scope.id d'.world.db = some .active := by
    rw [scopeStatus, hfound, Option.map_some, hactive]
  -- and what has been made of it since
  have hafter : c.log = d'.log ++ since := by
    rw [hdlog', hlog]
    simp
  have hnow := h.replay_since (scopeReplay crates scope.id) hd' hafter
  rw [scopeWrites_since h hlog hscope] at hnow
  have hstatus : scopeStatus scope.id c.world.db = some .active ↔ (statusWrites scope.key since).getLast? ≠ some .paused := by
    rw [← foldl_status]
    have hfold : scopeStatus scope.id c.world.db =
        (statusWrites scope.key since).foldl (fun _ status => some status) (scopeStatus scope.id d'.world.db) := hnow
    rw [hfold, hstart]
  rw [← hstatus]
  constructor
  · rintro ⟨row, hrow, hkey, hrowActive⟩
    have hid := (scope_of_read h hread hscope hrow).mpr hkey
    have hrowFound : c.world.db.observationScopes.find? (·.id == scope.id) = some row :=
      (reaches_keys h rfl).scopeIds.find?_eq_some.mpr ⟨hrow, hid⟩
    rw [scopeStatus, hrowFound, Option.map_some, hrowActive]
  · intro hrowActive
    obtain ⟨row, hrow, hrowStatus⟩ := Option.map_eq_some_iff.mp hrowActive
    obtain ⟨hmem, hid⟩ := (reaches_keys h rfl).scopeIds.find?_eq_some.mp hrow
    exact ⟨row, hmem, (scope_of_read h hread hscope hmem).mp hid, hrowStatus⟩

/-! ## Every event -/

theorem observationSource_of_expected {adapterId : String} {expected : ExpectedEvent} {resourceId : Uuid} {data : EventData}
    (h : expectedEvent adapterId = some expected) (hdata : expected.eventType.resourceData resourceId = some data) :
    (data = .browserResourceOpened resourceId ∧ expected.observationSource = .browserChromium) ∨
      (data = .vscodeWorkspaceOpened resourceId ∧ expected.observationSource = .vscodeWorkspace) := by
  unfold expectedEvent at h
  split_ifs at h
  · obtain rfl := Option.some.inj h
    exact .inl ⟨(Option.some.inj hdata).symm, rfl⟩
  · obtain rfl := Option.some.inj h
    exact .inr ⟨(Option.some.inj hdata).symm, rfl⟩

theorem Emission.Passes.scopeKey {m : Emission} (h : m.Passes) :
    m.event.scopeKey = some (m.expected.observationSource, m.payload.resourceId) := by
  have hevent : m.event.data = m.data := rfl
  rw [Event.scopeKey, hevent]
  rcases observationSource_of_expected h.expected h.data with ⟨hdata, hsource⟩ | ⟨hdata, hsource⟩
  · rw [hdata, hsource]
  · rw [hdata, hsource]

/-- An event that is stored for a scope was built by an emission after it had read that scope as active. -/
theorem event_read (h : (daemon crates).Reaches (World.start now instant files path) Anywhere c) {event : Event}
    {r : Except StorageError Unit} (hlog : c.log = before ++ .call i (.storage (.insertEvent event)) r :: after)
    (hkey : event.scopeKey = some key) :
    ∃ sofar source scopes scope since,
      before = sofar ++ .call i (.storage (.listObservationScopes (some source))) (.ok scopes) :: since ∧
        (∀ l ∈ since, readsScopes i l = false) ∧ scope ∈ scopes ∧ scope.key = key ∧ scope.status = .active := by
  obtain ⟨earlier, q, later, k, hbefore, -, hleads⟩ := h.called hlog
  rcases insertEvent_path hleads with ⟨request, e, receivedAt, -, -, -, hdata, -, rfl⟩ | ⟨m, hpasses, -, hcalls, rfl⟩
  -- the event of a client is synthetic and of no scope
  · have hnone : Event.scopeKey { e with receivedAt := receivedAt } = none := by
      rw [Event.scopeKey]
      cases hd : e.data <;> simp_all [EventData.isSynthetic]
    cases hnone.symm.trans hkey
  · have hsteps : callsOf i later = [⟨.newUuid, m.eventId⟩, ⟨.storage (.getResource m.payload.resourceId), .ok m.resource⟩] ++
        [⟨.storage (.listObservationScopes (some m.expected.observationSource)), .ok m.scopes⟩, ⟨.nowUtc, m.receivedAt⟩] :=
      hcalls
    obtain ⟨early, late, rfl, -, hlate⟩ := callsOf_eq_append hsteps
    obtain ⟨mid, since, rfl, -, hsince⟩ := callsOf_eq_cons i late hlate
    have hread : ∀ l ∈ since, readsScopes i l = false := by
      apply readsScopes_eq_false
      rw [hsince]
      intro x hx s
      rw [List.mem_singleton.mp hx]
      exact fun hop => by cases hop
    have hobserved : ∃ scope ∈ m.scopes, scope.resourceId = m.payload.resourceId ∧ scope.status = .active := by
      simpa [observes] using hpasses.observed
    obtain ⟨scope, hscope, hresource, hactive⟩ := hobserved
    -- the rows that were read are of the source that was asked for
    have hsource : scope.source = m.expected.observationSource := by
      have hmem : .call i (.storage (.listObservationScopes (some m.expected.observationSource))) (.ok m.scopes) ∈ c.log := by
        rw [hlog, hbefore]
        simp
      have hlasting : Lasting crates (.storage (.listObservationScopes (some m.expected.observationSource)))
          (.ok m.scopes) c.world := h.persistent (lasting crates) hmem
      exact (hlasting scope hscope).1 _ rfl
    refine ⟨earlier ++ .arrive i q :: (early ++ mid), m.expected.observationSource, m.scopes, scope, since, ?_, hread, hscope, ?_, hactive⟩
    · rw [hbefore]
      simp
    · rw [hpasses.scopeKey] at hkey
      rw [← Option.some.inj hkey, ObservationScope.key, hsource, hresource]

/-- Every event of a run is stored while its scope is active if and only if every one is stored while
its emission's reading of the scopes still holds. -/
theorem stored_while_active (h : (daemon crates).Reaches (World.start now instant files path) Anywhere c) :
    (∀ before i event after, c.log = before ++ .call i (.storage (.insertEvent event)) (.ok ()) :: after →
      ∀ key, event.scopeKey = some key →
        ∀ d, (daemon crates).Reaches (World.start now instant files path) Anywhere d → d.log = before →
          Observes d.world.db key) ↔
    ∀ before i event after, c.log = before ++ .call i (.storage (.insertEvent event)) (.ok ()) :: after →
      ∀ key, event.scopeKey = some key → StillObserved i key before := by
  have hcommit : ∀ before i event after, c.log = before ++ .call i (.storage (.insertEvent event)) (.ok ()) :: after →
      ∀ key, event.scopeKey = some key →
        ∀ d, (daemon crates).Reaches (World.start now instant files path) Anywhere d → d.log = before →
          (Observes d.world.db key ↔ StillObserved i key before) := by
    intro before i event after hlog key hkey d hd hdlog
    obtain ⟨sofar, source, scopes, scope, since, hbefore, hsince, hscope, rfl, hactive⟩ := event_read h hlog hkey
    rw [StillObserved, hbefore, sinceScopesRead_eq hsince]
    exact observes_iff hd (hdlog.trans hbefore) hscope hactive
  constructor
  · intro hall before i event after hlog key hkey
    obtain ⟨d, -, -, -, -, hd, hdlog, -⟩ := h.split_call hlog
    exact (hcommit before i event after hlog key hkey d hd hdlog).mp (hall before i event after hlog key hkey d hd hdlog)
  · intro hall before i event after hlog key hkey d hd hdlog
    exact (hcommit before i event after hlog key hkey d hd hdlog).mpr (hall before i event after hlog key hkey)

end Runs

/-! ## A workspace -/

namespace Sample

def enabling : Schedule :=
  connected 0 ++ [.drift (.files ⟨fun _ => some .directory, some⟩)] ++
    request 0 (.vscodeObservationEnable "work" "/w") [0, 0, 0, 2, 0, 3, 0]

def workspaceHello : AdapterHello :=
  ⟨vscodeAdapterId, "0.1.0", 101, [], ["dev.fubun.vscode.workspace.opened.v1"], ⟨[], [], []⟩⟩

def workspaceOpened : AdapterEventEmitRequest := ⟨1, ⟨0, 0⟩, .vscodeWorkspaceOpenedV1, 2⟩

def workspaceEvent : Fubun.Event where
  specVersion := eventSpecVersion
  id := 5
  eventType := .vscodeWorkspaceOpenedV1
  source := "vscode.workspace"
  occurredAt := ⟨0, 0⟩
  receivedAt := ⟨0, 0⟩
  actor := .user
  adapter := ⟨vscodeAdapterId, "0.1.0", 101, 1⟩
  context := none
  privacy := .normal
  data := .vscodeWorkspaceOpened 2

/-- The adapter of the workspace connects and emits; its event is yet to be stored. -/
def emitting : Schedule :=
  enabling ++ [.answer 0, .arrive 1 (.first ⟨currentProtocolVersion, 0, .adapterHello workspaceHello⟩),
    .call 1 ⟨4, none, .timeout⟩, .answer 1,
    .arrive 1 (.adapter workspaceHello 4 ⟨currentProtocolVersion, 0, 0, .eventEmit workspaceOpened⟩)] ++
      calls 1 [5, 0, 0, 0]

/-- What comes between the reading of the scopes and the event stays undone, or is a pause. -/
theorem exists_stored (more : Schedule) (observed : Bool)
    (hrun : (exec (emitting ++ more)).map (fun d => (d.next? 1,
      (World.store crates (.insertEvent workspaceEvent) none d.world).1, decide (Observes d.world.db (.vscodeWorkspace, 2)))) =
      some (some (.storage (.insertEvent workspaceEvent)), .ok (), observed)) :
    ∃ d c, (daemon crates).Reaches world Anywhere d ∧ (daemon crates).Reaches world Anywhere c ∧
      c.log = d.log ++ .call 1 (.storage (.insertEvent workspaceEvent)) (.ok ()) :: [] ∧
        decide (Observes d.world.db (.vscodeWorkspace, 2)) = observed := by
  obtain ⟨d, hd, hproj⟩ := Option.map_eq_some_iff.mp hrun
  simp only [Prod.mk.injEq] at hproj
  obtain ⟨hnext, hstored, hobserved⟩ := hproj
  obtain ⟨t, k, ht, hrest⟩ := Config.next?_eq_some.mp hnext
  have hreach : (daemon crates).Reaches world Anywhere d := System.Reaches.init.exec hd
  have hact : (daemon crates).act 1 (.storage (.insertEvent workspaceEvent)) ⟨0, none, .timeout⟩ d.world =
      some (.ok (), (World.store crates (.insertEvent workspaceEvent) none d.world).2) := by
    rw [← hstored]
    rfl
  exact ⟨d, _, hreach, hreach.step trivial (.call ht hrest hact), rfl, hobserved⟩

/-- The client pauses the scope after the emission has read it. -/
def pausing : Schedule := served 0 (.observationPause 3) [0]

end Sample

theorem stored_while_active_workspace : ∃ c before, (daemon Sample.crates).Reaches Sample.world Anywhere c ∧
    c.log = before ++ .call 1 (.storage (.insertEvent Sample.workspaceEvent)) (.ok ()) :: [] ∧
    ((∀ before i event after, c.log = before ++ .call i (.storage (.insertEvent event)) (.ok ()) :: after →
      ∀ key, event.scopeKey = some key → ∀ d, (daemon Sample.crates).Reaches Sample.world Anywhere d →
        d.log = before → Observes d.world.db key) ↔
    ∀ before i event after, c.log = before ++ .call i (.storage (.insertEvent event)) (.ok ()) :: after →
      ∀ key, event.scopeKey = some key → StillObserved i key before) := by
  obtain ⟨d, c, -, hreach, hlog, -⟩ := Sample.exists_stored [] true (by decide +kernel)
  exact ⟨c, d.log, hreach, hlog, stored_while_active hreach⟩

/-- A pause between the reading of the scopes and the insertion leaves an event of a paused scope. -/
theorem stored_while_paused : ¬ ∀ c, (daemon Sample.crates).Reaches Sample.world Anywhere c →
    ∀ before i event after, c.log = before ++ .call i (.storage (.insertEvent event)) (.ok ()) :: after →
      ∀ key, event.scopeKey = some key → ∀ d, (daemon Sample.crates).Reaches Sample.world Anywhere d →
        d.log = before → Observes d.world.db key := by
  intro hall
  obtain ⟨d, c, hd, hreach, hlog, hpaused⟩ := Sample.exists_stored Sample.pausing false (by decide +kernel)
  have hobserves := hall c hreach d.log 1 _ [] hlog (.vscodeWorkspace, 2) rfl d hd rfl
  exact of_decide_eq_false hpaused hobserves

end Fubun

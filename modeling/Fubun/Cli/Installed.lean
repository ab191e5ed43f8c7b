import Fubun.Cli.BrowserHost
import Mathlib.Data.List.Dedup

/-! Whatever is installed and uninstalled in whatever order, the ids of the manifests are in the configuration; the native
host accepts it as long as no more than 32 ids have come into it. -/

namespace Fubun.Cli
open Concurrency Encoding Relational

variable {s t : Files} {ids : List String} {id : String} {browser : Browser} {f : HostFile} {P Q E : Files → Prop}

/-! ## What the files hold -/

theorem configuredIds_configJson (ids : List String) : configuredIds (configJson ids) = ids := by
  have hids : (ids.map Json.string).filterMap asStr = ids := by
    rw [List.filterMap_map]
    exact List.filterMap_some
  exact hids

theorem allowedOrigins_configJson (ids : List String) : allowedOrigins (configJson ids) = some ids := by
  show (ids.map Json.string).mapM asStr = some ids
  induction ids with
  | nil => rfl
  | cons id ids ih => rw [List.map_cons, List.mapM_cons, ih]; rfl

/-- The manifest lets this extension call. -/
def Allows (manifest : Json) (id : String) : Prop :=
  ∃ origin, manifest.field? "allowed_origins" = some (.array [.string origin]) ∧ validateOrigin origin = .ok id

theorem allows_manifestJson (hostPath : String) (h : isExtensionId id = true) : Allows (manifestJson hostPath id) id := by
  refine ⟨"chrome-extension://" ++ id ++ "/", rfl, ?_⟩
  rw [validateOrigin, String.toList_append, String.toList_append, List.append_assoc, stripPrefix_append]
  dsimp only
  rw [stripSuffix_append]
  dsimp only
  rw [String.ofList_toList, h]
  rfl

/-- What the native host asks of a list of ids. -/
structure IsAllowed (ids : List String) : Prop where
  ne_nil : ids ≠ []
  few : ids.length ≤ 32
  nodup : ids.Nodup
  valid : ∀ id ∈ ids, isExtensionId id = true

/-- The configuration lists these ids, and nobody else can read it. -/
def Files.Lists (s : Files) (ids : List String) : Prop :=
  s.file .config = some ⟨configJson ids, 0o600⟩ ∧ s.directory .config = some 0o700

theorem Files.Lists.loadAllowedIds (h : s.Lists ids) (hids : IsAllowed ids) : loadAllowedIds s = .ok ids := by
  have hbad : ¬ (ids = [] ∨ 32 < ids.length ∨ ids.dedup.length ≠ ids.length ∨ ids.any (! isExtensionId ·) = true) := by
    rintro (hnil | hmany | htwice | hinvalid)
    · exact hids.ne_nil hnil
    · exact Nat.not_lt_of_le hids.few hmany
    · rw [List.dedup_eq_self.mpr hids.nodup] at htwice
      exact htwice rfl
    · obtain ⟨id, hid, hbad⟩ := List.any_eq_true.mp hinvalid
      rw [hids.valid id hid] at hbad
      exact nomatch hbad
  unfold Cli.loadAllowedIds
  rw [h.2, h.1]
  dsimp only
  rw [if_neg (by decide), if_neg (by decide), allowedOrigins_configJson]
  exact if_neg hbad

theorem Files.Lists.unique {ids' : List String} (h : s.Lists ids) (h' : s.Lists ids') : ids = ids' := by
  have hfile := congrArg (fun file => file.map fun f => configuredIds f.contents) (h.1.symm.trans h'.1)
  rw [Option.map_some, Option.map_some, configuredIds_configJson, configuredIds_configJson] at hfile
  exact Option.some.inj hfile

def Files.listed (s : Files) : List String := (s.file .config).elim [] fun file => configuredIds file.contents

theorem listed_of_config {mode : Nat} (h : s.file .config = some ⟨configJson ids, mode⟩) : s.listed = ids := by
  rw [Files.listed, h]
  exact configuredIds_configJson ids

theorem Files.Lists.listed_eq (h : s.Lists ids) : s.listed = ids := listed_of_config h.1

/-- The configuration is one that the native host accepts, and it lists what the manifests allow. -/
structure Files.Sound (s : Files) : Prop where
  config : ∀ file, s.file .config = some file → ∃ ids, IsAllowed ids ∧ s.Lists ids
  manifest : ∀ browser file, s.file (.manifest browser) = some file →
    ∃ ids hostPath, ∃ id ∈ ids, s.Lists ids ∧ file.contents = manifestJson hostPath id

theorem Files.Sound.accepted {file : File} (h : s.Sound) (hfile : s.file (.manifest browser) = some file) :
    (s.file .config).isSome = true ∧ ∃ ids, Cli.loadAllowedIds s = .ok ids ∧ ∃ id ∈ ids, Allows file.contents id := by
  obtain ⟨ids, hostPath, id, hid, hlists, hcontents⟩ := h.manifest browser file hfile
  obtain ⟨ids', hallowed, hlists'⟩ := h.config _ hlists.1
  obtain rfl := hlists.unique hlists'
  refine ⟨by rw [hlists.1]; rfl, ids, hlists.loadAllowedIds hallowed, id, hid, ?_⟩
  rw [hcontents]
  exact allows_manifestJson hostPath (hallowed.valid id hid)

/-! ## What operations keep -/

/-- The files are the same, and the permissions of the directory of the configuration are. -/
structure Files.Aside (s t : Files) : Prop where
  file : t.file = s.file
  directory : ∀ mode, s.directory .config = some mode → t.directory .config = some mode

def Stable (P : Files → Prop) : Prop := ∀ s t, Files.Aside s t → P s → P t

def FsOp.isAside : FsOp → Bool
  | .setDirectoryPermissions .config _ | .rename _ | .setPermissions .. | .removeFile _ => false
  | _ => true

theorem Files.Aside.refl (s : Files) : Files.Aside s s := ⟨rfl, fun _ h => h⟩

theorem Files.Aside.setTemporary (s : Files) (f : HostFile) (file : Option File) : Files.Aside s (s.setTemporary f file) :=
  ⟨rfl, fun _ h => h⟩

theorem Attempted.aside {r : Except CliError Unit} {done : Prop} (h : Attempted s r t done) (hdone : done → Files.Aside s t) :
    Files.Aside s t := by
  rcases h with ⟨-, h⟩ | ⟨-, rfl⟩
  · exact hdone h
  · exact .refl _

theorem FsOp.aside {o : FsOp} {r : FsRes o} (ho : o.isAside = true) (h : Files.act o s r t) : Files.Aside s t := by
  cases o with
  | canonicalize path => obtain rfl := h; exact .refl _
  | metadata path => obtain rfl := h; exact .refl _
  | createDirAll f =>
    apply Attempted.aside h
    rintro (⟨rfl, -⟩ | ⟨hnone, mode, rfl⟩)
    · exact .refl _
    · refine ⟨rfl, fun mode' hmode => ?_⟩
      -- a directory that was there keeps its permissions
      have hne : HostFile.config ≠ f := by
        rintro rfl
        rw [hnone] at hmode
        exact nomatch hmode
      show Function.update s.directory f (some mode) .config = some mode'
      rw [Function.update_of_ne hne, hmode]
  | setDirectoryPermissions f mode =>
    cases f with
    | config => exact nomatch ho
    | manifest browser =>
      apply Attempted.aside h
      rintro rfl
      exact ⟨rfl, fun _ hmode => hmode⟩
  | fileExists f => obtain ⟨-, rfl⟩ := h; exact .refl _
  | read f => obtain ⟨-, rfl⟩ := h; exact .refl _
  | write f contents =>
    rcases h with ⟨-, mode, rfl⟩ | ⟨-, file, rfl⟩
    · exact .setTemporary _ _ _
    · exact .setTemporary _ _ _
  | setTemporaryPermissions f mode =>
    apply Attempted.aside h
    rintro ⟨file, -, rfl⟩
    exact .setTemporary _ _ _
  | rename f => exact nomatch ho
  | setPermissions f mode => exact nomatch ho
  | removeFile f => exact nomatch ho

section Rules
open Fallible

theorem ensures_aside {α : Type} {o : FsOp} {answer : FsRes o → Except CliError α} (ho : o.isAside = true) (hP : Stable P)
    (hE : ∀ s, P s → E s) : Ensures Files.act P (attempt o answer) (fun _ => P) E := by
  apply Ensures.attempt
  intro s r t hs hact
  have ht := hP s t (FsOp.aside ho hact) hs
  cases answer r with
  | ok a => exact ht
  | error e => exact hE t ht

theorem ensures_attempted {o : FsOp} {answer : FsRes o → Except CliError Unit} (hfail : ∀ s, P s → E s)
    (h : ∀ s r t, P s → Files.act o s r t → (∃ e, answer r = .error e) ∧ t = s ∨ answer r = .ok () ∧ Q t) :
    Ensures Files.act P (attempt o answer) (fun _ => Q) E := by
  apply Ensures.attempt
  intro s r t hs hact
  rcases h s r t hs hact with ⟨⟨e, he⟩, rfl⟩ | ⟨hok, ht⟩
  · rw [he]
    exact hfail _ hs
  · rw [hok]
    exact ht

theorem ensures_atomicPrivateWrite {contents : Json} (hP : Stable P) (hQ : Stable Q) (hPE : ∀ s, P s → E s) (hQE : ∀ s, Q s → E s)
    (hset : ∀ s t, P s → t.file = Function.update s.file f (some ⟨contents, 0o600⟩) → t.directory = s.directory → Q t) :
    Ensures Files.act P (atomicPrivateWrite f contents) (fun _ => Q) E := by
  have hwritten : Ensures Files.act P (Fs.write f contents)
      (fun _ s => P s ∧ ∃ mode, s.temporary f = some ⟨contents, mode⟩) E := by
    apply Ensures.attempt
    intro s r t hs hact
    -- a write that fails may have left a part of the temporary file
    rcases hact with ⟨rfl, mode, rfl⟩ | ⟨⟨e, rfl⟩, file, rfl⟩
    · exact ⟨hP _ _ (.setTemporary ..) hs, mode, Function.update_self ..⟩
    · exact hPE _ (hP _ _ (.setTemporary ..) hs)
  have hprivate : Ensures Files.act (fun s => P s ∧ ∃ mode, s.temporary f = some ⟨contents, mode⟩)
      (Fs.setTemporaryPermissions f 0o600) (fun _ s => P s ∧ s.temporary f = some ⟨contents, 0o600⟩) E := by
    apply ensures_attempted fun s hs => hPE s hs.1
    intro s r t hs hact
    rcases hact with ⟨rfl, file, hfile, rfl⟩ | ⟨hfailed, rfl⟩
    · obtain ⟨hs, mode, htemporary⟩ := hs
      obtain rfl := Option.some.inj (htemporary.symm.trans hfile)
      exact .inr ⟨rfl, hP _ _ (.setTemporary ..) hs, Function.update_self ..⟩
    · exact .inl ⟨hfailed, rfl⟩
  have hrenamed : Ensures Files.act (fun s => P s ∧ s.temporary f = some ⟨contents, 0o600⟩) (Fs.rename f)
      (fun _ s => Q s ∧ s.file f = some ⟨contents, 0o600⟩) E := by
    apply ensures_attempted fun s hs => hPE s hs.1
    -- the rename puts the contents and their mode in place at once
    intro s r t hs hact
    rcases hact with ⟨rfl, file, hfile, rfl⟩ | ⟨hfailed, rfl⟩
    · obtain rfl := Option.some.inj (hs.2.symm.trans hfile)
      exact .inr ⟨rfl, hset s _ hs.1 rfl rfl, Function.update_self ..⟩
    · exact .inl ⟨hfailed, rfl⟩
  have hlast : Ensures Files.act (fun s => Q s ∧ s.file f = some ⟨contents, 0o600⟩) (Fs.setPermissions f 0o600) (fun _ => Q) E := by
    apply ensures_attempted fun s hs => hQE s hs.1
    intro s r t hs hact
    rcases hact with ⟨rfl, file, hfile, rfl⟩ | ⟨hfailed, rfl⟩
    · obtain rfl := Option.some.inj (hs.2.symm.trans hfile)
      exact .inr ⟨rfl, hQ s _ ⟨Function.update_eq_self_iff.mpr hs.2.symm, fun _ h => h⟩ hs.1⟩
    · exact .inl ⟨hfailed, rfl⟩
  exact .bind (ensures_aside rfl hP hPE) fun _ => .bind hwritten fun _ => .bind hprivate fun _ => .bind hrenamed fun _ => hlast

end Rules

/-! ## Installing and uninstalling -/

theorem Files.Lists.aside (h : Files.Aside s t) (hs : s.Lists ids) : t.Lists ids :=
  ⟨by rw [h.file, hs.1], h.directory _ hs.2⟩

theorem stable_sound : Stable Files.Sound := by
  intro s t h hs
  constructor
  · intro file hfile
    rw [h.file] at hfile
    obtain ⟨ids, hallowed, hlists⟩ := hs.config file hfile
    exact ⟨ids, hallowed, hlists.aside h⟩
  · intro browser file hfile
    rw [h.file] at hfile
    obtain ⟨ids, hostPath, id, hid, hlists, hcontents⟩ := hs.manifest browser file hfile
    exact ⟨ids, hostPath, id, hid, hlists.aside h, hcontents⟩

/-- The configuration has the id already, or there is room for it. -/
def Files.HasRoom (s : Files) (id : String) : Prop := id ∈ s.listed ∨ s.listed.length < 32

theorem listed_aside (h : Files.Aside s t) : t.listed = s.listed := by
  rw [Files.listed, h.file]
  rfl

theorem mem_withId {x : String} : x ∈ withId ids id ↔ x = id ∨ x ∈ ids := by
  rw [withId, mem_orderBy]
  by_cases h : id ∈ ids
  · rw [if_pos (List.contains_iff_mem.mpr h)]
    refine ⟨.inr, ?_⟩
    rintro (rfl | hx)
    · exact h
    · exact hx
  · rw [if_neg (fun hcontains => h (List.contains_iff_mem.mp hcontains)), List.mem_append, List.mem_singleton, or_comm]

theorem length_withId : (withId ids id).length = if id ∈ ids then ids.length else ids.length + 1 := by
  rw [withId, orderBy, List.length_insertionSort]
  by_cases h : id ∈ ids
  · rw [if_pos (List.contains_iff_mem.mpr h), if_pos h]
  · rw [if_neg (fun hcontains => h (List.contains_iff_mem.mp hcontains)), if_neg h, List.length_append, List.length_singleton]

theorem nodup_withId (h : ids.Nodup) : (withId ids id).Nodup := by
  apply (List.perm_insertionSort _ _).nodup_iff.mpr
  by_cases hid : id ∈ ids
  · rwa [if_pos (List.contains_iff_mem.mpr hid)]
  · rw [if_neg (fun hcontains => hid (List.contains_iff_mem.mp hcontains))]
    exact List.nodup_append.mpr ⟨h, List.nodup_singleton id, fun x hx y hy hxy => hid (List.mem_singleton.mp hy ▸ hxy ▸ hx)⟩

/-- With room for it, one more id is accepted with the others. -/
theorem IsAllowed.withId (hids : ids = [] ∨ IsAllowed ids) (hid : isExtensionId id = true) (hroom : id ∈ ids ∨ ids.length < 32) :
    IsAllowed (withId ids id) := by
  have hsome : Cli.withId ids id ≠ [] := List.ne_nil_of_mem (mem_withId.mpr (.inl rfl))
  rcases hids with rfl | hids
  · refine ⟨hsome, by simp [length_withId], nodup_withId List.nodup_nil, fun x hx => ?_⟩
    obtain rfl := (mem_withId.mp hx).resolve_right List.not_mem_nil
    exact hid
  · refine ⟨hsome, ?_, nodup_withId hids.nodup, fun x hx => ?_⟩
    · rw [length_withId]
      have hfew := hids.few
      split_ifs with hmem
      · exact hfew
      · have hlt := hroom.resolve_left hmem
        omega
    · rcases mem_withId.mp hx with rfl | hx
      · exact hid
      · exact hids.valid x hx

section Calls
open Fallible

theorem Files.Sound.listed_allowed (h : s.Sound) : s.listed = [] ∨ IsAllowed s.listed := by
  unfold Files.listed
  cases hfile : s.file .config with
  | none => exact .inl rfl
  | some file =>
    obtain ⟨ids, hallowed, hlists⟩ := h.config file hfile
    have heq : s.listed = ids := hlists.listed_eq
    rw [Files.listed, hfile] at heq
    exact .inr (heq ▸ hallowed)

/-- Before the configuration is written. -/
def Ready (id : String) (s : Files) : Prop := s.Sound ∧ s.HasRoom id

theorem stable_ready : Stable (Ready id) := fun s t h hs =>
  ⟨stable_sound s t h hs.1, by rw [Files.HasRoom, listed_aside h]; exact hs.2⟩

def ReadyPrivate (id : String) (s : Files) : Prop := Ready id s ∧ s.directory .config = some 0o700

theorem stable_readyPrivate : Stable (ReadyPrivate id) := fun s t h hs => ⟨stable_ready s t h hs.1, h.directory _ hs.2⟩

/-- After it. -/
def Configured (id : String) (s : Files) : Prop := s.Sound ∧ ∃ ids, s.Lists ids ∧ id ∈ ids

theorem stable_configured : Stable (Configured id) := by
  rintro s t h ⟨hs, ids, hlists, hid⟩
  exact ⟨stable_sound s t h hs, ids, hlists.aside h, hid⟩

theorem ready_setDirectory (h : Ready id s) : ReadyPrivate id (s.setDirectory .config 0o700) := by
  have hlists : ∀ {ids}, s.Lists ids → (s.setDirectory .config 0o700).Lists ids := fun h => ⟨h.1, Files.setDirectory_self ..⟩
  refine ⟨⟨⟨?_, ?_⟩, h.2⟩, Files.setDirectory_self ..⟩
  · intro file hfile
    obtain ⟨ids, hallowed, h⟩ := h.1.config file hfile
    exact ⟨ids, hallowed, hlists h⟩
  · intro browser file hfile
    obtain ⟨ids, hostPath, id, hid, h, hcontents⟩ := h.1.manifest browser file hfile
    exact ⟨ids, hostPath, id, hid, hlists h, hcontents⟩

theorem manifest_ne_config (browser : Browser) : HostFile.manifest browser ≠ .config := nofun

/-- The configuration is replaced by one that lists all that it did, and the new id. -/
theorem configured_update (hid : isExtensionId id = true) (h : ReadyPrivate id s)
    (hfile : t.file = Function.update s.file .config (some ⟨configJson (withId s.listed id), 0o600⟩))
    (hdirectory : t.directory = s.directory) : Configured id t := by
  obtain ⟨⟨hsound, hroom⟩, hprivate⟩ := h
  have hlists : t.Lists (withId s.listed id) := ⟨by rw [hfile, Function.update_self], by rw [hdirectory, hprivate]⟩
  refine ⟨⟨?_, ?_⟩, _, hlists, mem_withId.mpr (.inl rfl)⟩
  · intro file _
    exact ⟨_, .withId hsound.listed_allowed hid hroom, hlists⟩
  · intro browser file hmanifest
    rw [hfile, Function.update_of_ne (manifest_ne_config browser)] at hmanifest
    obtain ⟨ids, hostPath, x, hx, hx', hcontents⟩ := hsound.manifest browser file hmanifest
    exact ⟨_, hostPath, x, mem_withId.mpr (.inr (hx'.listed_eq ▸ hx)), hlists, hcontents⟩

theorem sound_update (hostPath : String) (h : Configured id s)
    (hfile : t.file = Function.update s.file (.manifest browser) (some ⟨manifestJson hostPath id, 0o600⟩))
    (hdirectory : t.directory = s.directory) : t.Sound := by
  obtain ⟨hsound, ids, hlists, hid⟩ := h
  have hlists' : ∀ {ids}, s.Lists ids → t.Lists ids := fun h =>
    ⟨by rw [hfile, Function.update_of_ne (manifest_ne_config browser).symm, h.1], by rw [hdirectory, h.2]⟩
  constructor
  · intro file hconfig
    rw [hfile, Function.update_of_ne (manifest_ne_config browser).symm] at hconfig
    obtain ⟨ids, hallowed, h⟩ := hsound.config file hconfig
    exact ⟨ids, hallowed, hlists' h⟩
  · intro other file hmanifest
    rw [hfile] at hmanifest
    by_cases hother : other = browser
    · subst hother
      rw [Function.update_self] at hmanifest
      obtain rfl := Option.some.inj hmanifest
      exact ⟨ids, hostPath, id, hid, hlists' hlists, rfl⟩
    · rw [Function.update_of_ne (fun heq => hother (HostFile.manifest.inj heq))] at hmanifest
      obtain ⟨ids, hostPath, x, hx, h, hcontents⟩ := hsound.manifest other file hmanifest
      exact ⟨ids, hostPath, x, hx, hlists' h, hcontents⟩

theorem ensures_nativeHostPaths (name : String) (hPE : ∀ s, P s → E s) :
    Ensures Files.act P (Fallible.of (nativeHostPaths name))
      (fun paths s => (∃ browser, paths = (.config, .manifest browser)) ∧ P s) E := by
  apply Ensures.of
  intro s hs
  unfold nativeHostPaths
  split_ifs
  · exact ⟨⟨.chrome, rfl⟩, hs⟩
  · exact ⟨⟨.chromium, rfl⟩, hs⟩
  · exact hPE s hs

theorem ensures_installedIds (hPE : ∀ s, P s → E s) :
    Ensures Files.act P (installedIds .config) (fun ids s => P s ∧ s.listed = ids) E := by
  have hexists : Ensures Files.act P (Fs.fileExists .config) (fun present s => P s ∧ present = (s.file .config).isSome) E := by
    apply Ensures.ask
    rintro s r t hs ⟨rfl, rfl⟩
    exact ⟨hs, rfl⟩
  refine .bind hexists fun present => ?_
  cases present with
  | false =>
    apply Ensures.pure
    rintro s ⟨hs, hnone⟩
    have hfile : s.file .config = none := Option.isSome_eq_false_iff.mp hnone.symm |> Option.isNone_iff_eq_none.mp
    exact ⟨hs, by rw [Files.listed, hfile]; rfl⟩
  | true =>
    have hread : Ensures Files.act (fun s => P s ∧ true = (s.file .config).isSome) (Fs.read .config)
        (fun value s => P s ∧ s.listed = configuredIds value) E := by
      apply Ensures.attempt
      rintro s r t ⟨hs, -⟩ ⟨⟨e, rfl⟩ | ⟨file, hfile, rfl⟩, rfl⟩
      · exact hPE _ hs
      · exact ⟨hs, by rw [Files.listed, hfile]; rfl⟩
    exact .bind hread fun value => .pure fun s hs => hs

theorem ensures_install (args : BrowserHostInstall) :
    Ensures Files.act (Ready args.extensionId) (installNativeHost args) (fun _ => Files.Sound) Files.Sound := by
  have hvalid : Ensures Files.act (Ready args.extensionId) (Fallible.of (validateExtensionId args.extensionId))
      (fun _ s => isExtensionId args.extensionId = true ∧ Ready args.extensionId s) Files.Sound := by
    apply Ensures.of
    intro s hs
    unfold validateExtensionId
    split_ifs with hid
    · exact hs.1
    · exact ⟨by simpa using hid, hs⟩
  have hchecked : ∀ hostPath hostMetadata, Ensures Files.act (Ready args.extensionId)
      (Fallible.of (requireExecutable hostPath hostMetadata)) (fun _ => Ready args.extensionId) Files.Sound := by
    intro hostPath hostMetadata
    apply Ensures.of
    intro s hs
    unfold requireExecutable
    split_ifs
    · exact hs.1
    · exact hs
  have hdirectory : Ensures Files.act (Ready args.extensionId) (Fs.setDirectoryPermissions .config 0o700)
      (fun _ => ReadyPrivate args.extensionId) Files.Sound := by
    apply ensures_attempted fun s hs => hs.1
    intro s r t hs hact
    rcases hact with ⟨rfl, rfl⟩ | ⟨hfailed, rfl⟩
    · exact .inr ⟨rfl, ready_setDirectory hs⟩
    · exact .inl ⟨hfailed, rfl⟩
  have haside : ∀ {α o} {answer : FsRes o → Except CliError α}, o.isAside = true →
      Ensures Files.act (Ready args.extensionId) (attempt o answer) (fun _ => Ready args.extensionId) Files.Sound :=
    fun ho => ensures_aside ho stable_ready fun s hs => hs.1
  have haside' : ∀ {α o} {answer : FsRes o → Except CliError α}, o.isAside = true →
      Ensures Files.act (Configured args.extensionId) (attempt o answer) (fun _ => Configured args.extensionId) Files.Sound :=
    fun ho => ensures_aside ho stable_configured fun s hs => hs.1
  -- the checks and the reads leave what is sound
  refine .bind hvalid fun _ => .of_and fun hid => .bind (haside rfl) fun hostPath => .bind (haside rfl) fun hostMetadata =>
    .bind (hchecked hostPath hostMetadata) fun _ => .bind (ensures_nativeHostPaths args.browser fun s hs => hs.1) fun paths =>
    .of_and fun ⟨browser, hpaths⟩ => ?_
  subst hpaths
  refine .bind (haside rfl) fun _ => .bind hdirectory fun _ =>
    .bind (ensures_installedIds fun s hs => hs.1.1) fun ids => ?_
  -- the configuration goes first, so that a failure before the manifest only leaves an id that nobody uses
  have hconfig : Ensures Files.act (fun s => ReadyPrivate args.extensionId s ∧ s.listed = ids)
      (atomicPrivateWrite .config (configJson (withId ids args.extensionId))) (fun _ => Configured args.extensionId) Files.Sound := by
    apply ensures_atomicPrivateWrite _ stable_configured (fun s hs => hs.1.1.1) fun s hs => hs.1
    · rintro s t ⟨hs, rfl⟩ hfile hdirectory
      exact configured_update hid hs hfile hdirectory
    · rintro s t h ⟨hs, rfl⟩
      exact ⟨stable_readyPrivate s t h hs, listed_aside h⟩
  refine .bind hconfig fun _ => .bind (haside' rfl) fun _ => .bind (haside' rfl) fun _ => ?_
  apply ensures_atomicPrivateWrite stable_configured stable_sound (fun s hs => hs.1) fun s hs => hs
  intro s t hs hfile hdirectory
  exact sound_update hostPath hs hfile hdirectory

theorem sound_removeManifest (h : s.Sound) : (s.setFile (.manifest browser) none).Sound := by
  have hlists : ∀ {ids}, s.Lists ids → (s.setFile (.manifest browser) none).Lists ids := fun h =>
    ⟨(s.setFile_of_ne (manifest_ne_config browser).symm none).trans h.1, h.2⟩
  constructor
  · intro file hconfig
    rw [s.setFile_of_ne (manifest_ne_config browser).symm] at hconfig
    obtain ⟨ids, hallowed, h⟩ := h.config file hconfig
    exact ⟨ids, hallowed, hlists h⟩
  · intro other file hmanifest
    have hne : HostFile.manifest other ≠ .manifest browser := by
      intro heq
      rw [heq, Files.setFile_self] at hmanifest
      exact nomatch hmanifest
    rw [s.setFile_of_ne hne] at hmanifest
    obtain ⟨ids, hostPath, id, hid, h, hcontents⟩ := h.manifest other file hmanifest
    exact ⟨ids, hostPath, id, hid, hlists h, hcontents⟩

theorem sound_removeConfig (h : ∀ browser, s.file (.manifest browser) = none) : (s.setFile .config none).Sound := by
  constructor
  · intro file hconfig
    rw [Files.setFile_self] at hconfig
    exact nomatch hconfig
  · intro browser file hmanifest
    rw [s.setFile_of_ne (manifest_ne_config browser), h browser] at hmanifest
    exact nomatch hmanifest

theorem ensures_fileExists {P E : Files → Prop} (f : HostFile) :
    Ensures Files.act P (Fs.fileExists f) (fun present s => P s ∧ present = (s.file f).isSome) E := by
  apply Ensures.ask
  rintro s r t hs ⟨rfl, rfl⟩
  exact ⟨hs, rfl⟩

theorem file_eq_none (h : false = (s.file f).isSome) : s.file f = none :=
  Option.isNone_iff_eq_none.mp (Option.isSome_eq_false_iff.mp h.symm)

theorem ensures_uninstall (browser : String) :
    Ensures Files.act Files.Sound (uninstallNativeHost browser) (fun _ => Files.Sound) Files.Sound := by
  have hpaths : Ensures Files.act Files.Sound (Fallible.of (nativeHostPaths browser)) (fun paths s => (∃ mine other : Browser,
      other ≠ mine ∧ paths = (.config, .manifest mine) ∧
        nativeHostPaths (if browser = "chrome" then "chromium" else "chrome") = .ok (.config, .manifest other)) ∧ s.Sound) Files.Sound := by
    apply Ensures.of
    intro s hs
    by_cases hchrome : browser = "chrome"
    · subst hchrome
      exact ⟨⟨.chrome, .chromium, nofun, rfl, rfl⟩, hs⟩
    by_cases hchromium : browser = "chromium"
    · subst hchromium
      exact ⟨⟨.chromium, .chrome, nofun, rfl, rfl⟩, hs⟩
    · rw [nativeHostPaths, if_neg hchrome, if_neg hchromium]
      exact hs
  refine .bind hpaths fun paths => .of_and ?_
  rintro ⟨mine, other, hne, rfl, hother⟩
  have hremove : Ensures Files.act Files.Sound (Fs.removeFile (.manifest mine))
      (fun _ s => s.Sound ∧ s.file (.manifest mine) = none) Files.Sound := by
    apply ensures_attempted fun s hs => hs
    intro s r t hs hact
    rcases hact with ⟨rfl, rfl⟩ | ⟨hfailed, rfl⟩
    · exact .inr ⟨rfl, sound_removeManifest hs, Files.setFile_self ..⟩
    · exact .inl ⟨hfailed, rfl⟩
  -- the configuration goes only where neither manifest is left
  have hrest : Ensures Files.act (fun s => s.Sound ∧ s.file (.manifest mine) = none) (do
      let otherPaths ← Fallible.of (nativeHostPaths (if browser = "chrome" then "chromium" else "chrome"))
      let otherManifestExists ← Fs.fileExists otherPaths.2
      let configExists ← Fs.fileExists .config
      if configExists && ! otherManifestExists then Fs.removeFile .config) (fun _ => Files.Sound) Files.Sound := by
    rw [hother]
    refine .bind (Q := fun paths s => paths = (.config, .manifest other) ∧ s.Sound ∧ s.file (.manifest mine) = none)
      (.of fun s hs => ⟨rfl, hs⟩) fun paths => .of_and ?_
    rintro rfl
    refine .bind (ensures_fileExists _) fun otherManifestExists => .bind (ensures_fileExists _) fun configExists => ?_
    split_ifs with hlast
    · obtain ⟨-, hno⟩ := (Bool.and_eq_true _ _).mp hlast
      obtain rfl : otherManifestExists = false := by simpa using hno
      apply ensures_attempted fun s hs => hs.1.1.1
      intro s r t hs hact
      rcases hact with ⟨rfl, rfl⟩ | ⟨hfailed, rfl⟩
      · obtain ⟨⟨⟨-, hmine⟩, hothers⟩, -⟩ := hs
        refine .inr ⟨rfl, sound_removeConfig fun browser => ?_⟩
        have hnone := file_eq_none hothers
        cases browser <;> cases mine <;> cases other <;> first | exact hmine | exact hnone | exact absurd rfl hne
      · exact .inl ⟨hfailed, rfl⟩
    · exact .pure fun s hs => hs.1.1.1
  refine .bind (ensures_fileExists (.manifest mine)) fun present => ?_
  cases present with
  | true => exact .bind (hremove.mono (fun s hs => hs.1) fun _ _ hs => hs) fun _ => hrest
  | false => exact hrest.mono (fun s hs => ⟨hs.1, file_eq_none hs.2⟩) fun _ _ hs => hs

end Calls

/-! ## Calls that do not fail -/

section Calls
open Fallible

theorem createDirAll_act (s : Files) (f : HostFile) : ∃ t, Files.act (.createDirAll f) s (.ok ()) t ∧ t.file = s.file := by
  cases hmode : s.directory f with
  | none => exact ⟨s.setDirectory f 0o755, .inl ⟨rfl, .inr ⟨hmode, _, rfl⟩⟩, rfl⟩
  | some mode => exact ⟨s, .inl ⟨rfl, .inl ⟨rfl, by rw [hmode]; rfl⟩⟩, rfl⟩

theorem setDirectoryPermissions_act (s : Files) (f : HostFile) (mode : Nat) :
    Files.act (.setDirectoryPermissions f mode) s (.ok ()) (s.setDirectory f mode) := .inl ⟨rfl, rfl⟩

theorem atomicPrivateWrite_runs (s : Files) (f : HostFile) (contents : Json) :
    ∃ t, (atomicPrivateWrite f contents).run.Runs Files.act s (.ok ()) t ∧
      t.file = Function.update s.file f (some ⟨contents, 0o600⟩) := by
  obtain ⟨s₁, hdirectory, hfile⟩ := createDirAll_act s f
  let s₂ := s₁.setTemporary f (some ⟨contents, 0o644⟩)
  let s₃ := s₂.setTemporary f (some ⟨contents, 0o600⟩)
  let s₄ := (s₃.setTemporary f none).setFile f (some ⟨contents, 0o600⟩)
  have hwrite : Files.act (.write f contents) s₁ (.ok ()) s₂ := .inl ⟨rfl, _, rfl⟩
  have hmode : Files.act (.setTemporaryPermissions f 0o600) s₂ (.ok ()) s₃ :=
    .inl ⟨rfl, ⟨contents, 0o644⟩, Function.update_self .., rfl⟩
  have hrename : Files.act (.rename f) s₃ (.ok ()) s₄ := .inl ⟨rfl, ⟨contents, 0o600⟩, Function.update_self .., rfl⟩
  have hlast : Files.act (.setPermissions f 0o600) s₄ (.ok ()) (s₄.setFile f (some ⟨contents, 0o600⟩)) :=
    .inl ⟨rfl, ⟨contents, 0o600⟩, Function.update_self .., rfl⟩
  refine ⟨_, runs_bind (runs_attempt hdirectory rfl) (runs_bind (runs_attempt hwrite rfl) (runs_bind (runs_attempt hmode rfl)
    (runs_bind (runs_attempt hrename rfl) (runs_attempt hlast rfl)))), ?_⟩
  show Function.update (Function.update s₁.file f _) f _ = _
  rw [Function.update_idem, hfile]

theorem installedIds_runs (s : Files) : (installedIds .config).run.Runs Files.act s (.ok s.listed) s := by
  have hexists : (Fs.fileExists .config).run.Runs Files.act s (.ok (s.file .config).isSome) s := runs_ask ⟨rfl, rfl⟩
  refine runs_bind hexists ?_
  rw [Files.listed]
  cases hfile : s.file .config with
  | none => exact .ret
  | some file =>
    have hread : Files.act (.read .config) s (.ok file.contents) s := ⟨.inr ⟨file, hfile, rfl⟩, rfl⟩
    exact runs_bind (runs_attempt hread rfl) .ret

def Browser.name : Browser → String
  | .chrome => "chrome"
  | .chromium => "chromium"

theorem nativeHostPaths_name (browser : Browser) : nativeHostPaths browser.name = .ok (.config, .manifest browser) := by
  cases browser <;> rfl

theorem install_runs (s : Files) (browser : Browser) (hid : isExtensionId id = true) :
    ∃ t, (installNativeHost ⟨browser.name, id, "/usr/bin/fubun-native-host"⟩).run.Runs Files.act s (.ok ()) t ∧
      t.file .config = some ⟨configJson (withId s.listed id), 0o600⟩ ∧ (t.file (.manifest browser)).isSome = true ∧
      ∀ other, other ≠ browser → t.file (.manifest other) = s.file (.manifest other) := by
  have hvalid : validateExtensionId id = .ok () := by
    rw [validateExtensionId, hid]
    rfl
  obtain ⟨s₁, hcreated, hfile₁⟩ := createDirAll_act s .config
  have hlisted : (s₁.setDirectory .config 0o700).listed = s.listed := by
    show (s₁.file .config).elim [] _ = _
    rw [hfile₁]
    rfl
  have hids := installedIds_runs (s₁.setDirectory .config 0o700)
  rw [hlisted] at hids
  obtain ⟨s₂, hconfig, hfile₂⟩ :=
    atomicPrivateWrite_runs (s₁.setDirectory .config 0o700) .config (configJson (withId s.listed id))
  obtain ⟨s₃, hcreated', hfile₃⟩ := createDirAll_act s₂ (.manifest browser)
  obtain ⟨t, hmanifest, hfile⟩ := atomicPrivateWrite_runs (s₃.setDirectory (.manifest browser) 0o700) (.manifest browser)
    (manifestJson "/usr/bin/fubun-native-host" id)
  have hpath : Files.act (.canonicalize "/usr/bin/fubun-native-host") s (.ok "/usr/bin/fubun-native-host") s := rfl
  have hmetadata : Files.act (.metadata "/usr/bin/fubun-native-host") s (.ok ⟨true, 0o755⟩) s := rfl
  have hrun : (installNativeHost ⟨browser.name, id, "/usr/bin/fubun-native-host"⟩).run.Runs Files.act s (.ok ()) t := by
    unfold installNativeHost
    dsimp only
    rw [hvalid, nativeHostPaths_name]
    exact runs_bind runs_of (runs_bind (runs_attempt hpath rfl) (runs_bind (runs_attempt hmetadata rfl)
      (runs_bind runs_of (runs_bind runs_of (runs_bind (runs_attempt hcreated rfl)
      (runs_bind (runs_attempt (setDirectoryPermissions_act ..) rfl) (runs_bind hids (runs_bind hconfig
      (runs_bind (runs_attempt hcreated' rfl) (runs_bind (runs_attempt (setDirectoryPermissions_act ..) rfl)
      hmanifest))))))))))
  have hfile : t.file = Function.update s₂.file (.manifest browser)
      (some ⟨manifestJson "/usr/bin/fubun-native-host" id, 0o600⟩) := hfile.trans (by rw [← hfile₃]; rfl)
  refine ⟨t, hrun, ?_, ?_, fun other hother => ?_⟩
  · rw [hfile, Function.update_of_ne (manifest_ne_config _).symm, hfile₂, Function.update_self]
  · rw [hfile, Function.update_self]
    rfl
  · have hne : HostFile.manifest other ≠ .manifest browser := fun heq => hother (HostFile.manifest.inj heq)
    rw [hfile, Function.update_of_ne hne, hfile₂, Function.update_of_ne (manifest_ne_config other)]
    exact congrFun hfile₁ _

/-- Where the other browser has its manifest, only the one manifest goes. -/
theorem uninstall_runs (hmine : (s.file (.manifest .chromium)).isSome = true) (hother : (s.file (.manifest .chrome)).isSome = true) :
    (uninstallNativeHost "chromium").run.Runs Files.act s (.ok ()) (s.setFile (.manifest .chromium) none) := by
  let t := s.setFile (.manifest .chromium) none
  have hpresent : Files.act (.fileExists (.manifest .chromium)) s true s := ⟨hmine.symm, rfl⟩
  have hremove : Files.act (.removeFile (.manifest .chromium)) s (.ok ()) t := .inl ⟨rfl, rfl⟩
  have hstays : Files.act (.fileExists (.manifest .chrome)) t true t := by
    refine ⟨?_, rfl⟩
    rw [s.setFile_of_ne (by decide), hother]
  have hconfig : Files.act (.fileExists .config) t (t.file .config).isSome t := ⟨rfl, rfl⟩
  have hlast : (if (t.file .config).isSome && ! true then Fs.removeFile .config else pure () : Fs Unit).run.Runs
      Files.act t (.ok ()) t := by
    rw [Bool.not_true, Bool.and_false]
    exact .ret
  unfold uninstallNativeHost
  exact runs_bind runs_of (runs_bind (runs_ask hpresent) (runs_bind (runs_attempt hremove rfl) (runs_bind runs_of
    (runs_bind (runs_ask hstays) (runs_bind (runs_ask hconfig) hlast)))))

end Calls

/-! ## Runs -/

inductive Call where
  | install (args : BrowserHostInstall)
  | uninstall (browser : String)

def Call.program : Call → Fs Unit
  | .install args => installNativeHost args
  | .uninstall browser => uninstallNativeHost browser

/-- Calls one after another, each of which `ok` admits, from where nothing is installed. -/
inductive Reaches (ok : Files → Call → Prop) : Files → Prop
  | init {s : Files} : (∀ f, s.file f = none) → Reaches ok s
  | call {s t : Files} {c : Call} {r : Except CliError Unit} :
    Reaches ok s → ok s c → c.program.run.Runs Files.act s r t → Reaches ok t

/-- An installation is not called with a new id when 32 are listed. -/
def RoomLeft (s : Files) : Call → Prop
  | .install args => s.HasRoom args.extensionId
  | .uninstall _ => True

theorem reaches_sound (h : Reaches RoomLeft s) : s.Sound := by
  induction h with
  | init hnone =>
    constructor
    · intro file hfile
      rw [hnone] at hfile
      exact nomatch hfile
    · intro browser file hfile
      rw [hnone] at hfile
      exact nomatch hfile
  | @call s t c r _ hok hrun ih =>
    have hends : ∀ {p : Fs Unit} {P : Files → Prop}, P s → Fallible.Ensures Files.act P p (fun _ => Files.Sound) Files.Sound →
        p.run.Runs Files.act s r t → t.Sound := by
      intro p P hs hp hrun
      have h := hp s hs r t hrun
      cases r with
      | ok a => exact h
      | error e => exact h
    cases c with
    | install args => exact hends ⟨ih, hok⟩ (ensures_install args) hrun
    | uninstall browser => exact hends ih (ensures_uninstall browser) hrun

/-- Whenever there is a manifest there is a configuration, which the native host accepts and which lists the id of the
manifest. -/
theorem installed_accepted (h : Reaches RoomLeft s) {file : File} (hfile : s.file (.manifest browser) = some file) :
    (s.file .config).isSome = true ∧ ∃ ids, loadAllowedIds s = .ok ids ∧ ∃ id ∈ ids, Allows file.contents id :=
  (reaches_sound h).accepted hfile

theorem length_withId_le : (withId ids id).length ≤ ids.length + 1 := by
  rw [length_withId]
  split_ifs <;> omega

/-- Chrome's extension, then Chromium's, then another one for Chrome; and Chromium's manifest is gone again. -/
theorem installed_accepted_chrome : ∃ s file, s.file (.manifest .chromium) = none ∧
    s.listed = withId (withId (withId [] "abcdefghijklmnopabcdefghijklmnop") "ponmlkjihgfedcbaponmlkjihgfedcba")
      "aaaabbbbccccddddeeeeffffgggghhhh" ∧
    s.file (.manifest .chrome) = some file ∧ (s.file .config).isSome = true ∧
    ∃ ids, loadAllowedIds s = .ok ids ∧ ∃ id ∈ ids, Allows file.contents id := by
  let s₀ : Files := ⟨fun _ => none, fun _ => none, fun _ => none⟩
  obtain ⟨s₁, hrun₁, hconfig₁, hmanifest₁, -⟩ := install_runs s₀ .chrome
    (show isExtensionId "abcdefghijklmnopabcdefghijklmnop" = true by decide +kernel)
  have hlisted₁ := listed_of_config hconfig₁
  obtain ⟨s₂, hrun₂, hconfig₂, hmanifest₂, hothers₂⟩ := install_runs s₁ .chromium
    (show isExtensionId "ponmlkjihgfedcbaponmlkjihgfedcba" = true by decide +kernel)
  have hlisted₂ := listed_of_config hconfig₂
  obtain ⟨s₃, hrun₃, hconfig₃, hmanifest₃, hothers₃⟩ := install_runs s₂ .chrome
    (show isExtensionId "aaaabbbbccccddddeeeeffffgggghhhh" = true by decide +kernel)
  have hchromium : (s₃.file (.manifest .chromium)).isSome = true := by rw [hothers₃ .chromium (by decide), hmanifest₂]
  have hrun₄ := uninstall_runs hchromium hmanifest₃
  have hroom₁ : s₁.listed.length < 32 := by
    rw [hlisted₁]
    exact Nat.lt_of_le_of_lt length_withId_le (by decide)
  have hroom₂ : s₂.listed.length < 32 := by
    rw [hlisted₂, hlisted₁]
    exact Nat.lt_of_le_of_lt (length_withId_le.trans (Nat.succ_le_succ length_withId_le)) (by decide)
  have hreaches₁ : Reaches RoomLeft s₁ := .call (c := .install _) (.init fun _ => rfl) (.inr (by decide)) hrun₁
  have hreaches₂ : Reaches RoomLeft s₂ := .call (c := .install _) hreaches₁ (.inr hroom₁) hrun₂
  have hreaches₃ : Reaches RoomLeft s₃ := .call (c := .install _) hreaches₂ (.inr hroom₂) hrun₃
  have hreaches : Reaches RoomLeft (s₃.setFile (.manifest .chromium) none) :=
    .call (c := .uninstall _) hreaches₃ trivial hrun₄
  obtain ⟨file, hfile⟩ := Option.isSome_iff_exists.mp hmanifest₃
  have hkept : (s₃.setFile (.manifest .chromium) none).file (.manifest .chrome) = some file := by
    rw [s₃.setFile_of_ne (by decide), hfile]
  refine ⟨_, file, Files.setFile_self .., ?_, hkept, installed_accepted hreaches hkept⟩
  rw [Files.listed, s₃.setFile_of_ne (manifest_ne_config _).symm]
  exact (listed_of_config hconfig₃).trans (by rw [hlisted₂, hlisted₁]; rfl)

/-! ## Without room -/

theorem installs_reach {texts : List String} (hnodup : texts.Nodup) (hvalid : ∀ id ∈ texts, isExtensionId id = true)
    (hsome : texts ≠ []) : ∃ s ids, Reaches (fun _ _ => True) s ∧ s.file .config = some ⟨configJson ids, 0o600⟩ ∧
      (s.file (.manifest .chrome)).isSome = true ∧ ids.length = texts.length ∧ ∀ id, id ∈ ids ↔ id ∈ texts := by
  induction texts with
  | nil => exact absurd rfl hsome
  | cons id texts ih =>
    obtain ⟨hid, hvalid⟩ := List.forall_mem_cons.mp hvalid
    obtain ⟨hnew, hnodup⟩ := List.nodup_cons.mp hnodup
    obtain ⟨s, hs, hlength, hmem⟩ : ∃ s, Reaches (fun _ _ => True) s ∧ s.listed.length = texts.length ∧
        ∀ x, x ∈ s.listed ↔ x ∈ texts := by
      cases texts with
      | nil => exact ⟨⟨fun _ => none, fun _ => none, fun _ => none⟩, .init fun _ => rfl, rfl, fun _ => Iff.rfl⟩
      | cons first texts =>
        obtain ⟨s, ids, hs, hconfig, -, hlength, hmem⟩ := ih hnodup hvalid (List.cons_ne_nil _ _)
        have hlisted : s.listed = ids := listed_of_config hconfig
        exact ⟨s, hs, by rw [hlisted, hlength], fun x => by rw [hlisted, hmem]⟩
    obtain ⟨t, hrun, hconfig, hmanifest, -⟩ := install_runs s .chrome hid
    refine ⟨t, _, .call (c := .install _) hs trivial hrun, hconfig, hmanifest, ?_, fun x => ?_⟩
    · rw [length_withId, if_neg (fun h => hnew ((hmem id).mp h)), hlength]
      rfl
    · rw [mem_withId, hmem, List.mem_cons]

theorem loadAllowedIds_few {accepted : List String} (hfile : s.file .config = some ⟨configJson ids, 0o600⟩)
    (h : loadAllowedIds s = .ok accepted) : ids.length ≤ 32 := by
  unfold loadAllowedIds at h
  rw [hfile] at h
  cases hdirectory : s.directory .config with
  | none => rw [hdirectory] at h; exact nomatch h
  | some mode =>
    rw [hdirectory] at h
    dsimp only at h
    rw [allowedOrigins_configJson] at h
    dsimp only at h
    split_ifs at h with _ _ hbad
    exact Nat.not_lt.mp fun hmany => hbad (.inr (.inl hmany))

/-- 33 ids: the last letters of each say which it is. -/
def manyIds : List String :=
  (List.range 33).map fun n => .ofList (List.replicate 30 'a' ++ [Char.ofNat (97 + n / 16), Char.ofNat (97 + n % 16)])

theorem manyIds_nodup : manyIds.Nodup := by
  have hdistinct : ((List.range 33).map fun n =>
      List.replicate 30 'a' ++ [Char.ofNat (97 + n / 16), Char.ofNat (97 + n % 16)]).Nodup := by decide +kernel
  have hinjective : Function.Injective String.ofList := fun _ _ h => String.ofList_inj.mp h
  have h := hdistinct.map hinjective
  rwa [List.map_map] at h

theorem manyIds_valid : ∀ id ∈ manyIds, isExtensionId id = true := by
  have htexts : ∀ n ∈ List.range 33,
      byteSize (List.replicate 30 'a' ++ [Char.ofNat (97 + n / 16), Char.ofNat (97 + n % 16)]) = 32 ∧
        (List.replicate 30 'a' ++ [Char.ofNat (97 + n / 16), Char.ofNat (97 + n % 16)]).all
          (fun c => decide ('a' ≤ c) && decide (c ≤ 'p')) = true := by decide +kernel
  intro id hid
  obtain ⟨n, hn, rfl⟩ := List.mem_map.mp hid
  obtain ⟨hsize, hletters⟩ := htexts n hn
  rw [isExtensionId, utf8ByteSize_ofList, String.toList_ofList, hsize, hletters]
  rfl

/-- After 33 installations the native host refuses the configuration, and with it every extension. -/
theorem installed_refused : ¬ ∀ s, Reaches (fun _ _ => True) s → ∀ browser file, s.file (.manifest browser) = some file →
    (s.file .config).isSome = true ∧ ∃ ids, loadAllowedIds s = .ok ids ∧ ∃ id ∈ ids, Allows file.contents id := by
  intro h
  obtain ⟨s, ids, hs, hconfig, hmanifest, hlength, -⟩ := installs_reach manyIds_nodup manyIds_valid (by decide)
  obtain ⟨file, hfile⟩ := Option.isSome_iff_exists.mp hmanifest
  obtain ⟨-, accepted, haccepted, -⟩ := h s hs .chrome file hfile
  have hfew := loadAllowedIds_few hconfig haccepted
  rw [hlength] at hfew
  exact absurd hfew (by decide)

end Fubun.Cli

import OpenHost.Containers.Launch

/-!
# Which apps have the archive

`manifest_uses_archive` reads the stored text without checking it, `make_data_dirs_and_env_vars` and
`run_container` read the parsed manifest.  While the backend is switched, an app that does not use the
archive keeps running.
-/

namespace OpenHost.Containers

open Manifest (AppManifest Runtime Sections isStr Present parseManifestFromString parseSections
  buildManifest)
open Raises
open Rename (AppName)
open Toml (Value Table getsFrom iterate)

/-! ## The stored text -/

/-- `_data_section`: what cannot be read counts as empty. -/
def dataSection (rt : Runtime) (manifestRaw : String) : Result Value :=
  if manifestRaw = "" then .ok (.table [])
  else match rt.loads manifestRaw with
    | .ok data => .ok ((data.getD "data" (.table [])).orElse (.table []))
    | .error (.valueError _) => .ok (.table [])
    | .error e => .error e

/-- `manifest_uses_archive` -/
def manifestUsesArchive (rt : Runtime) (manifestRaw : String) : Result Bool := do
  let data ← getsFrom (← dataSection rt manifestRaw)
  return Present data "app_archive" || Present data "access_all_app_data" ||
    Present data "access_all_data" || Present data "access_all_archive"

/-! ## The parsed manifest -/

/-- The fields of a manifest that come from its `data` section. -/
structure FromSection (m : AppManifest) (data : Table) : Prop where
  sqliteDbs : m.sqliteDbs = data.getD "sqlite" (.array [])
  appArchive : m.appArchive = data.getD "app_archive" (.bool false)
  accessAllAppData : m.accessAllAppData = (data.getD "access_all_app_data" (.bool false)).orElse
    ((data.getD "access_all_data" (.bool false)).orElse (data.getD "access_all_archive" (.bool false)))

variable {rt : Runtime} {rawText : String} {m : AppManifest}

theorem fromSection_of_build {s : Sections} (h : buildManifest rt rawText s = .ok m) :
    ∃ data : Table, s.data.getD "data" (.table []) = .table data ∧ FromSection m data := by
  unfold buildManifest at h
  simp only [bind_eq_ok_iff, Toml.getsFrom_eq_ok_iff] at h
  obtain ⟨_, _, _, _, _, _, _, _, _, _, _, _, _, _, data, hdata, _, _, _, _, hm⟩ := h
  obtain rfl := Except.ok.inj hm
  exact ⟨data, hdata, rfl, rfl, rfl⟩

theorem truthy_orElse (a b : Value) : (a.orElse b).truthy = (a.truthy || b.truthy) := by
  unfold Value.orElse
  cases h : a.truthy with
  | true => simp [h]
  | false => simp

/-- A flag that is off by default. -/
theorem truthy_flag (data : Table) (key : String) :
    (data.getD key (.bool false)).truthy = Present data key := by
  unfold Table.getD Present
  cases data.get? key with
  | none => rfl
  | some v => rfl

theorem hasAppArchive_of_section {data : Table} (h : FromSection m data) :
    hasAppArchive m = (Present data "app_archive" || Present data "access_all_app_data" ||
      Present data "access_all_data" || Present data "access_all_archive") := by
  rw [hasAppArchive, h.appArchive, h.accessAllAppData]
  simp only [truthy_orElse, truthy_flag, Bool.or_assoc]

/-- For a text that is parsed, what is read from the text is what the manifest has. -/
theorem manifestUsesArchive_of_parse (hm : parseManifestFromString rt rawText = .ok m) :
    manifestUsesArchive rt rawText = .ok (hasAppArchive m) := by
  obtain ⟨s, hs, hbuild⟩ := bind_eq_ok_iff.mp hm
  obtain ⟨data, hdata, hsection⟩ := fromSection_of_build hbuild
  have hloads := Manifest.parseSections_data hs
  -- the empty text has no name for the app
  have hne : rawText ≠ "" := by
    rintro rfl
    have hempty : s.data = [] := Except.ok.inj (hloads.symm.trans rt.loads_empty)
    unfold parseSections at hs
    rw [rt.loads_empty] at hs
    cases hs
  have hdict : (Value.table data).orElse (.table []) = .table data := by
    unfold Value.orElse
    cases data with
    | nil => simp
    | cons entry data => simp [Value.truthy]
  have hread : dataSection rt rawText = .ok (.table data) := by
    rw [dataSection, if_neg hne, hloads]
    simp only [hdata, hdict]
  rw [manifestUsesArchive, hread, hasAppArchive_of_section hsection]
  rfl

/-! ## The variable and the mount -/

variable {l : Layout} {who : Identity} {name : AppName}

/-- The archive is mounted: the app's own directory, or the whole tree. -/
def MountsArchive (l : Layout) (name : AppName) (c : Container) : Prop :=
  ⟨appArchiveDir l name, inContainer appArchivePart name⟩ ∈ c.mounts ∨
    ⟨l.archiveDir, tierRoot appArchivePart⟩ ∈ c.mounts

/-- The databases have texts for their names, if the loop over them is reached. -/
def DatabasesNamed (m : AppManifest) : Prop :=
  needsAppData m = true → ∃ names, DatabaseNames m names

/-- The command is a text, or counts as none. -/
def CommandSplits (m : AppManifest) : Prop :=
  m.containerCommand.all (fun v => !v.truthy || isStr v) = true

/-- What a start does with the archive is what the stored text says. -/
structure ArchiveAgrees (rt : Runtime) (l : Layout) (who : Identity) (name : AppName)
    (localPort : Nat) (rawText : String) (m : AppManifest) : Prop where
  mounted : (∃ env, makeDataDirsAndEnvVars rt l who name m = .ok env ∧
    ∃ c, runContainer l name m localPort env = .ok c ∧ MountsArchive l name c) ↔
      manifestUsesArchive rt rawText = .ok true
  set : (∃ env, makeDataDirsAndEnvVars rt l who name m = .ok env ∧
    (env "OPENHOST_APP_ARCHIVE_DIR").isSome = true) ↔ manifestUsesArchive rt rawText = .ok true

/-- With the directory there, nothing is raised for the archive. -/
theorem withAppArchive_of_isDir (hdir : l.archiveIsDir = true) (env : Env) :
    withAppArchive rt l name m env = .ok (if hasAppArchive m = true then
      env.set "OPENHOST_APP_ARCHIVE_DIR" (appArchiveDir l name) else env) := by
  unfold withAppArchive hasAppArchive
  cases m.appArchive.truthy <;> cases m.accessAllAppData.truthy <;> simp [hdir]

/-- The loop over the databases ends exactly when they have texts for names. -/
theorem exists_withAppData_iff {env : Env} :
    (∃ env', withAppData rt l name m env = .ok env') ↔ DatabasesNamed m := by
  unfold DatabasesNamed
  by_cases hneeds : needsAppData m = true
  · simp only [withAppData_eq_ok_iff hneeds, hneeds, forall_const]
    constructor
    · rintro ⟨env', names, hnames, -⟩
      exact ⟨names, hnames⟩
    · rintro ⟨names, hnames⟩
      exact ⟨_, names, hnames, rfl⟩
  · simp [withAppData, hneeds]

theorem exists_makeDataDirs_iff (hdir : l.archiveIsDir = true) :
    (∃ env, makeDataDirsAndEnvVars rt l who name m = .ok env) ↔ DatabasesNamed m := by
  have hdata : (∃ env, withAppData rt l name m (fun _ => none) = .ok env) ↔ DatabasesNamed m :=
    exists_withAppData_iff
  rw [← hdata]
  simp only [makeDataDirs_eq_ok_iff, withAppArchive_of_isDir hdir]
  constructor
  · rintro ⟨_, env₁, henv₁, -⟩
    exact ⟨env₁, henv₁⟩
  · rintro ⟨env₁, henv₁⟩
    exact ⟨_, env₁, henv₁, _, rfl, rfl⟩

/-- The variable is set exactly when the manifest has the archive. -/
theorem archiveDir_isSome_iff (hdir : l.archiveIsDir = true) {env : Env}
    (henv : makeDataDirsAndEnvVars rt l who name m = .ok env) :
    (env "OPENHOST_APP_ARCHIVE_DIR").isSome = true ↔ hasAppArchive m = true := by
  obtain ⟨env₁, henv₁, env₂, henv₂, rfl⟩ := makeDataDirs_eq_ok_iff.mp henv
  rw [withAppArchive_of_isDir hdir] at henv₂
  have hkey : withAppTemp l name m env₁ "OPENHOST_APP_ARCHIVE_DIR" = none := by
    rw [withAppTemp_of_ne (by decide), withAppData_of_ne henv₁ (by decide) (by decide)]
  rw [withIdentity_of_not_mem (by simp [identityVars]), ← Except.ok.inj henv₂]
  by_cases harchive : hasAppArchive m = true
  · simp [harchive, Env.set]
  · simp [harchive, hkey]

/-- The archive is mounted exactly when the manifest has it. -/
theorem mountsArchive_iff (hdir : l.archiveIsDir = true) {c : Container}
    (hc : c.mounts = mounts l name m) : MountsArchive l name c ↔ hasAppArchive m = true := by
  rw [MountsArchive, hc]
  constructor
  · intro hmem
    obtain ⟨mount, hmount, harchive⟩ : ∃ mount ∈ mounts l name m, mount.OfTier name appArchivePart :=
      hmem.elim (fun h => ⟨_, h, .inr rfl⟩) fun h => ⟨_, h, .inl rfl⟩
    -- the other mounts are those of other tiers
    rcases List.mem_append.mp hmount with hothers | hmount
    · rcases List.mem_append.mp hothers with hdata | htemp
      · exact absurd ((dataMount_ofTier mount hdata).unique harchive (by decide) (by decide)) (by decide)
      · exact absurd ((tempMount_ofTier mount htemp).unique harchive (by decide) (by decide)) (by decide)
    · unfold archiveMount at hmount
      split at hmount
      · next hall => simp [hasAppArchive, hall]
      · split at hmount
        · next harchive => exact harchive
        · simp at hmount
  · intro harchive
    cases hall : m.accessAllAppData.truthy with
    | true => exact .inr (by simp [mounts, archiveMount, hall, hdir])
    | false => exact .inl (by simp [mounts, archiveMount, hall, harchive])

/-- For a manifest that is parsed, a start agrees with the stored text exactly when an app that uses
the archive can be started. -/
theorem archiveAgrees_iff (hm : parseManifestFromString rt rawText = .ok m)
    (hdir : l.archiveIsDir = true) (localPort : Nat) :
    ArchiveAgrees rt l who name localPort rawText m ↔
      (manifestUsesArchive rt rawText = .ok true → DatabasesNamed m ∧ CommandSplits m) := by
  have huses : manifestUsesArchive rt rawText = .ok true ↔ hasAppArchive m = true := by
    rw [manifestUsesArchive_of_parse hm, Except.ok.injEq]
  have hreturns : (∃ env, makeDataDirsAndEnvVars rt l who name m = .ok env) ↔ DatabasesNamed m :=
    exists_makeDataDirs_iff hdir
  constructor
  · intro h harchive
    obtain ⟨env, henv, c, hc, -⟩ := h.mounted.mpr harchive
    obtain ⟨words, hwords, -⟩ := (exists_runContainer_iff (P := fun _ => True)).mp ⟨c, hc, trivial⟩
    exact ⟨hreturns.mp ⟨env, henv⟩, exists_commandWords_iff.mp ⟨words, hwords⟩⟩
  · intro h
    constructor
    · constructor
      · rintro ⟨env, henv, hc⟩
        obtain ⟨words, hwords, hmounts⟩ := exists_runContainer_iff.mp hc
        exact huses.mpr ((mountsArchive_iff hdir rfl).mp hmounts)
      · intro harchive
        obtain ⟨hnamed, hsplits⟩ := h harchive
        obtain ⟨env, henv⟩ := hreturns.mpr hnamed
        obtain ⟨words, hwords⟩ := exists_commandWords_iff.mpr hsplits
        exact ⟨env, henv, exists_runContainer_iff.mpr
          ⟨words, hwords, (mountsArchive_iff hdir rfl).mpr (huses.mp harchive)⟩⟩
    · constructor
      · rintro ⟨env, henv, hset⟩
        exact huses.mpr ((archiveDir_isSome_iff hdir henv).mp hset)
      · intro harchive
        obtain ⟨env, henv⟩ := hreturns.mpr (h harchive).1
        exact ⟨env, henv, (archiveDir_isSome_iff hdir henv).mpr (huses.mp harchive)⟩

/-! ## Manifests with an archive -/

/-- What the reader makes of a manifest with this `data` section. -/
def dataTables (data : Table) : Table :=
  [("app", .table [("name", .str "notes"), ("version", .str "1")]),
    ("runtime", .table [("container", .table [("image", .str "Dockerfile"), ("port", .int 80)])]),
    ("data", .table data)]

/-- The text, with the section as it is written. -/
def dataText (data : String) : String :=
  "app = \x7b name = 'notes', version = '1' \x7d\n" ++
  "runtime.container = \x7b image = 'Dockerfile', port = 80 \x7d\n[data]\n" ++ data

/-- The manifest that is put together from it. -/
theorem exists_parse_data {text : String} (hne : text ≠ "") {data : Table}
    (hdistinct : (Value.table (dataTables data)).distinctKeys = true) :
    ∃ m, parseManifestFromString (.reading [(text, dataTables data)]) text = .ok m ∧
      FromSection m data ∧ m.appData = data.getD "app_data" (.bool true) ∧
      m.containerCommand = none := by
  apply Exists.intro
  constructor
  · rw [parseManifestFromString, parseSections, Manifest.loads_reading hne hdistinct]
    rfl
  · exact ⟨⟨rfl, rfl, rfl⟩, rfl, rfl⟩

/-- A server with its archive directory. -/
def serverLayout : Layout :=
  ⟨"/srv/persistent_data".toList, "/srv/temporary_data".toList, "/srv/app_archive".toList,
    "/srv".toList, true⟩

theorem isValidAppName_notes : Apps.isValidAppName "notes" = true := by decide

def notesName : AppName := ⟨"notes", isValidAppName_notes⟩

def notesIdentity : Identity :=
  ⟨"notes1", "token", "example.org", "https://example.org", "owner", 8080⟩

/-- An archive, and one database. -/
def archiveData : Table := [("app_archive", .bool true), ("sqlite", .array [.str "main"])]

def archiveText : String := dataText "app_archive = true\nsqlite = ['main']\n"

/-- Python, as far as that manifest goes. -/
def archiveRuntime : Runtime := .reading [(archiveText, dataTables archiveData)]

theorem archiveAgrees_archive : ∃ m, parseManifestFromString archiveRuntime archiveText = .ok m ∧
    ArchiveAgrees archiveRuntime serverLayout notesIdentity notesName 9000 archiveText m := by
  obtain ⟨m, hm, hsection, -, hcommand⟩ :=
    @exists_parse_data archiveText (by decide) archiveData (by decide)
  refine ⟨m, hm, (archiveAgrees_iff hm rfl 9000).mpr fun _ => ⟨fun _ => ⟨["main"], ?_⟩, ?_⟩⟩
  · rw [DatabaseNames, hsection.sqliteDbs]
    rfl
  · rw [CommandSplits, hcommand]
    rfl

/-- An archive, and a number for the list of databases. -/
def numberData : Table := [("app_archive", .bool true), ("sqlite", .int 5)]

def numberText : String := dataText "app_archive = true\nsqlite = 5\n"

/-- Python, as far as that manifest goes. -/
def numberRuntime : Runtime := .reading [(numberText, dataTables numberData)]

/-- The loop over the number raises, with the archive in use. -/
theorem not_archiveAgrees_number : ∃ m, parseManifestFromString numberRuntime numberText = .ok m ∧
    serverLayout.archiveIsDir = true ∧
    ¬ArchiveAgrees numberRuntime serverLayout notesIdentity notesName 9000 numberText m := by
  obtain ⟨m, hm, hsection, happ, -⟩ :=
    @exists_parse_data numberText (by decide) numberData (by decide)
  refine ⟨m, hm, rfl, fun h => ?_⟩
  have harchive : hasAppArchive m = true := by
    rw [hasAppArchive_of_section hsection]
    rfl
  have hneeds : needsAppData m = true := by
    rw [needsAppData, happ]
    rfl
  have huses : manifestUsesArchive numberRuntime numberText = .ok true :=
    (manifestUsesArchive_of_parse hm).trans (congrArg Except.ok harchive)
  obtain ⟨env, henv, -⟩ := h.set.mpr huses
  obtain ⟨names, hnames⟩ := (exists_makeDataDirs_iff rfl).mp ⟨env, henv⟩ hneeds
  rw [DatabaseNames, hsection.sqliteDbs] at hnames
  cases hnames

end OpenHost.Containers

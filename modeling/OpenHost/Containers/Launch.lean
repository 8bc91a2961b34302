import Mathlib.Logic.Function.Basic
import OpenHost.Apps.Renamed
import OpenHost.Library.PosixPath
import OpenHost.Manifest.Typed

/-!
# Directories, variables and mounts

`make_data_dirs_and_env_vars` makes the directories of an app and names them in environment variables;
`run_container` mounts them, under conditions of its own, and rewrites the variables for the container.
Both work on a manifest as it was parsed, whose fields can hold any value.
-/

namespace OpenHost.Containers

open Manifest (AppManifest Runtime isStr Present)
open PosixPath (Path join relpath Plain)
open Raises
open Rename (AppName)
open Toml (Value Table getsFrom iterate)

/-! ## What a start is given -/

/-- The directories of the server, and its working directory. -/
structure Layout where
  dataDir : Path
  tempDataDir : Path
  archiveDir : Path
  cwd : Path
  /-- `os.path.isdir(archive_dir)` -/
  archiveIsDir : Bool

/-- What the other variables are made from. -/
structure Identity where
  appId : String
  /-- `secrets.token_urlsafe(32)` -/
  token : String
  zoneDomain : String
  redirectDomain : String
  ownerUsername : String
  port : Nat

/-- Environment variables. -/
abbrev Env := String → Option Path

/-- `env[key] = value` -/
def Env.set (env : Env) (key : String) (value : Path) : Env := Function.update env key (some value)

/-! ## Directories -/

/-- `app_data` -/
def appDataPart : Path := "app_data".toList

/-- `app_temp_data` -/
def appTempPart : Path := "app_temp_data".toList

/-- `app_archive` -/
def appArchivePart : Path := "app_archive".toList

/-- `app_data_dir` -/
def appDataDir (l : Layout) (name : AppName) : Path :=
  join (join l.dataDir appDataPart) name.val.toList

/-- `app_temp_dir` -/
def appTempDir (l : Layout) (name : AppName) : Path :=
  join (join l.tempDataDir appTempPart) name.val.toList

/-- `app_archive_dir` -/
def appArchiveDir (l : Layout) (name : AppName) : Path := join l.archiveDir name.val.toList

/-- `sqlite_dir` -/
def sqliteDir (l : Layout) (name : AppName) : Path := join (appDataDir l name) "sqlite".toList

/-- `db_path` -/
def dbPath (l : Layout) (name : AppName) (dbName : String) : Path :=
  join (sqliteDir l name) (dbName ++ ".db").toList

/-! ## Conditions -/

/-- `needs_app_data`, and `has_app_data` -/
def needsAppData (m : AppManifest) : Bool :=
  m.appData.truthy || m.sqliteDbs.truthy || m.accessAllAppData.truthy

/-- `has_app_temp` -/
def hasAppTemp (m : AppManifest) : Bool := m.appTempData.truthy || m.accessAllAppData.truthy

/-- `has_app_archive` -/
def hasAppArchive (m : AppManifest) : Bool := m.appArchive.truthy || m.accessAllAppData.truthy

/-! ## `make_data_dirs_and_env_vars` -/

/-- The variable of a database. -/
def sqliteKey (dbName : String) : String := "OPENHOST_SQLITE_" ++ dbName

/-- One step of the loop over the databases: `db_name.upper()` is an attribute of texts only. -/
def addDatabase (rt : Runtime) (l : Layout) (name : AppName) (env : Env) (dbName : Value) : Result Env :=
  match dbName with
  | .str n =>
    let path := dbPath l name n
    let env := env.set (sqliteKey n) path
    if sqliteKey (rt.upper n) = sqliteKey n then .ok env
    else .ok (env.set (sqliteKey (rt.upper n)) path)
  | v => .error (.attributeError ("'" ++ v.typeName ++ "' object has no attribute 'upper'"))

/-- The permanent data directory and the databases in it. -/
def withAppData (rt : Runtime) (l : Layout) (name : AppName) (m : AppManifest) (env : Env) :
    Result Env :=
  if needsAppData m then do
    (← iterate m.sqliteDbs).foldlM (addDatabase rt l name)
      (env.set "OPENHOST_APP_DATA_DIR" (appDataDir l name))
  else .ok env

/-- The temporary directory. -/
def withAppTemp (l : Layout) (name : AppName) (m : AppManifest) (env : Env) : Env :=
  if hasAppTemp m then env.set "OPENHOST_APP_TEMP_DIR" (appTempDir l name) else env

/-- What is raised without an archive directory. -/
def archiveMissing (rt : Runtime) (l : Layout) : Exc :=
  .runtimeError ("archive_dir " ++ rt.repr (.str (String.ofList l.archiveDir)) ++
    " does not exist or is not a directory.  If the S3 backend is configured, check " ++
    "that ``juicefs-mount`` is healthy; otherwise check " ++
    "that ``Config.make_all_dirs()`` ran on startup.")

/-- The archive directory, which an app can require. -/
def withAppArchive (rt : Runtime) (l : Layout) (name : AppName) (m : AppManifest) (env : Env) :
    Result Env :=
  if m.appArchive.truthy then
    if l.archiveIsDir then .ok (env.set "OPENHOST_APP_ARCHIVE_DIR" (appArchiveDir l name))
    else .error (archiveMissing rt l)
  else if m.accessAllAppData.truthy && l.archiveIsDir then
    .ok (env.set "OPENHOST_APP_ARCHIVE_DIR" (appArchiveDir l name))
  else .ok env

/-- `ROUTER_LOOPBACK_HOST`, or `ROUTER_GATEWAY_HOST` -/
def routerHost (m : AppManifest) : String :=
  if m.networkHost.truthy then "127.0.0.1" else "host.containers.internal"

/-- The variables that name no path. -/
def identityVars (who : Identity) (name : AppName) (m : AppManifest) : List (String × String) :=
  [("OPENHOST_APP_NAME", name.val), ("OPENHOST_APP_ID", who.appId),
    ("OPENHOST_APP_TOKEN", who.token),
    ("OPENHOST_ROUTER_URL", "http://" ++ routerHost m ++ ":" ++ toString who.port),
    ("OPENHOST_ZONE_DOMAIN", who.zoneDomain),
    ("OPENHOST_MY_REDIRECT_DOMAIN", who.redirectDomain),
    ("OPENHOST_OWNER_USERNAME", who.ownerUsername)]

/-- They are set after the others. -/
def withIdentity (who : Identity) (name : AppName) (m : AppManifest) (env : Env) : Env := fun key =>
  match (identityVars who name m).lookup key with
  | some value => some value.toList
  | none => env key

/-- `make_data_dirs_and_env_vars`, where the directories can be made. -/
def makeDataDirsAndEnvVars (rt : Runtime) (l : Layout) (who : Identity) (name : AppName)
    (m : AppManifest) : Result Env := do
  let env ← withAppData rt l name m fun _ => none
  let env ← withAppArchive rt l name m (withAppTemp l name m env)
  return withIdentity who name m env

/-! ## `run_container` -/

/-- A directory of the host, and where the container has it: one `-v` argument. -/
structure Mount where
  host : Path
  container : Path
  deriving DecidableEq

/-- `CONTAINER_ROOT` -/
def containerRoot : Path := "/data".toList

/-- Where the container has the directory of a tier. -/
def tierRoot (tier : Path) : Path := containerRoot ++ '/' :: tier

/-- `c_app_data`, `c_app_temp` or `c_app_archive`, by the tier. -/
def inContainer (tier : Path) (name : AppName) : Path := tierRoot tier ++ '/' :: name.val.toList

/-- A value as the container gets it; the paths of databases are not empty. -/
def translateValue (l : Layout) (name : AppName) (key : String) (value : Path) : Path :=
  if Text.startsWith key "OPENHOST_SQLITE_" then
    join (inContainer appDataPart name) (relpath l.cwd value (appDataDir l name))
  else if key = "OPENHOST_APP_DATA_DIR" then inContainer appDataPart name
  else if key = "OPENHOST_APP_TEMP_DIR" then inContainer appTempPart name
  else if key = "OPENHOST_APP_ARCHIVE_DIR" then inContainer appArchivePart name
  else value

/-- `container_env`, before the aliases. -/
def containerEnv (l : Layout) (name : AppName) (m : AppManifest) (localPort : Nat) (env : Env) : Env :=
  let translated : Env := fun key => (env key).map (translateValue l name key)
  if m.networkHost.truthy then translated.set "OPENHOST_LOCAL_PORT" (toString localPort).toList
  else translated

/-- `add_bottle_env_aliases` -/
def addBottleEnvAliases (env : Env) : Env := fun key =>
  match env key with
  | some value => some value
  | none => (Text.stripPrefix? "BOTTLE_" key).bind fun rest => env ("OPENHOST_" ++ rest)

/-- The mount of the permanent data. -/
def dataMount (l : Layout) (name : AppName) (m : AppManifest) : List Mount :=
  if m.accessAllAppData.truthy then [⟨join l.dataDir appDataPart, tierRoot appDataPart⟩]
  else if needsAppData m then [⟨appDataDir l name, inContainer appDataPart name⟩]
  else []

/-- The mount of the temporary data. -/
def tempMount (l : Layout) (name : AppName) (m : AppManifest) : List Mount :=
  if m.accessAllAppData.truthy then [⟨join l.tempDataDir appTempPart, tierRoot appTempPart⟩]
  else if hasAppTemp m then [⟨appTempDir l name, inContainer appTempPart name⟩]
  else []

/-- The mount of the archive. -/
def archiveMount (l : Layout) (name : AppName) (m : AppManifest) : List Mount :=
  if m.accessAllAppData.truthy then
    if l.archiveIsDir then [⟨l.archiveDir, tierRoot appArchivePart⟩] else []
  else if hasAppArchive m then [⟨appArchiveDir l name, inContainer appArchivePart name⟩]
  else []

/-- The mounts, in their order. -/
def mounts (l : Layout) (name : AppName) (m : AppManifest) : List Mount :=
  dataMount l name m ++ tempMount l name m ++ archiveMount l name m

/-- `manifest.container_command.split()`, an attribute of texts only. -/
def commandWords (command : Option Value) : Result (List Path) :=
  match command.filter Value.truthy with
  | none => .ok []
  | some (.str s) => .ok ((s.toList.splitOnP Text.isBlank).filter (· ≠ []))
  | some v => .error (.attributeError ("'" ++ v.typeName ++ "' object has no attribute 'split'"))

/-- What of the command line is about the mounts, the variables and the command. -/
structure Container where
  mounts : List Mount
  env : Env
  words : List Path

/-- `run_container`, up to `podman run`. -/
def runContainer (l : Layout) (name : AppName) (m : AppManifest) (localPort : Nat) (env : Env) :
    Result Container := do
  let words ← commandWords m.containerCommand
  return ⟨mounts l name m, addBottleEnvAliases (containerEnv l name m localPort env), words⟩

/-! ## Mounts and tiers -/

/-- The mount is that of the tier: all of it, or the directory of the app. -/
def Mount.OfTier (mount : Mount) (name : AppName) (tier : Path) : Prop :=
  mount.container = tierRoot tier ∨ mount.container = inContainer tier name

theorem dataMount_ofTier {l : Layout} {name : AppName} {m : AppManifest} :
    ∀ mount ∈ dataMount l name m, mount.OfTier name appDataPart := by
  intro mount hmount
  unfold dataMount at hmount
  split at hmount
  · obtain rfl := List.mem_singleton.mp hmount
    exact .inl rfl
  · split at hmount
    · obtain rfl := List.mem_singleton.mp hmount
      exact .inr rfl
    · simp at hmount

theorem tempMount_ofTier {l : Layout} {name : AppName} {m : AppManifest} :
    ∀ mount ∈ tempMount l name m, mount.OfTier name appTempPart := by
  intro mount hmount
  unfold tempMount at hmount
  split at hmount
  · obtain rfl := List.mem_singleton.mp hmount
    exact .inl rfl
  · split at hmount
    · obtain rfl := List.mem_singleton.mp hmount
      exact .inr rfl
    · simp at hmount

/-- What is below the root of a tier is not below that of another. -/
theorem tier_eq_of_below {tier tier' x y : Path} (h : '/' ∉ tier) (h' : '/' ∉ tier')
    (heq : tierRoot tier ++ '/' :: x = tierRoot tier' ++ '/' :: y) : tier = tier' := by
  have hcut : ∀ {t : Path} (z : Path), '/' ∉ t → (t ++ '/' :: z).takeWhile (· ≠ '/') = t := by
    intro t z ht
    rw [List.takeWhile_append_of_pos fun c hc => by simpa using ne_of_mem_of_not_mem hc ht]
    simp
  simp only [tierRoot, List.append_assoc, List.append_cancel_left_eq, List.cons_append,
    List.cons_eq_cons, true_and] at heq
  rw [← hcut x h, heq, hcut y h']

/-- A path at a mount of a tier, with more after it, is below the root of the tier. -/
theorem Mount.OfTier.exists_below {mount : Mount} {name : AppName} {tier : Path}
    (h : mount.OfTier name tier) (rest : Path) :
    ∃ x, mount.container ++ '/' :: rest = tierRoot tier ++ '/' :: x := by
  rcases h with h | h
  · exact ⟨rest, by rw [h]⟩
  · exact ⟨name.val.toList ++ '/' :: rest, by simp [h, inContainer]⟩

theorem Mount.OfTier.unique {mount : Mount} {name : AppName} {tier tier' : Path}
    (h : mount.OfTier name tier) (h' : mount.OfTier name tier') (hslash : '/' ∉ tier)
    (hslash' : '/' ∉ tier') : tier = tier' := by
  obtain ⟨x, hx⟩ := h.exists_below []
  obtain ⟨y, hy⟩ := h'.exists_below []
  exact tier_eq_of_below hslash hslash' (hx.symm.trans hy)

/-! ## The loop over the databases -/

/-- The names of the databases, when they are texts. -/
def DatabaseNames (m : AppManifest) (names : List String) : Prop :=
  iterate m.sqliteDbs = .ok (names.map Value.str)

/-- One database, whose variables hold its path. -/
def setDatabase (rt : Runtime) (l : Layout) (name : AppName) (env : Env) (n : String) : Env :=
  (env.set (sqliteKey n) (dbPath l name n)).set (sqliteKey (rt.upper n)) (dbPath l name n)

theorem addDatabase_str (rt : Runtime) (l : Layout) (name : AppName) (env : Env) (n : String) :
    addDatabase rt l name env (.str n) = .ok (setDatabase rt l name env n) := by
  unfold addDatabase setDatabase
  by_cases hkey : sqliteKey (rt.upper n) = sqliteKey n
  · simp [hkey, Env.set]
  · simp [hkey]

/-- A step ends exactly when the database has a text for its name. -/
theorem addDatabase_eq_ok_iff {rt : Runtime} {l : Layout} {name : AppName} {env env' : Env} {v : Value} :
    addDatabase rt l name env v = .ok env' ↔
      ∃ n, v = .str n ∧ env' = setDatabase rt l name env n := by
  cases v with
  | str n => simp [addDatabase_str, eq_comm]
  | _ => simp [addDatabase]

theorem foldlM_addDatabase {rt : Runtime} {l : Layout} {name : AppName} {vs : List Value}
    {env env' : Env} : vs.foldlM (addDatabase rt l name) env = .ok env' ↔
      ∃ names : List String, vs = names.map Value.str ∧
        env' = names.foldl (setDatabase rt l name) env := by
  induction vs generalizing env with
  | nil =>
    simp only [List.foldlM_nil]
    constructor
    · intro h
      exact ⟨[], rfl, (Except.ok.inj h).symm⟩
    · rintro ⟨names, hnames, rfl⟩
      obtain rfl := List.map_eq_nil_iff.mp hnames.symm
      rfl
  | cons v vs ih =>
    rw [List.foldlM_cons]
    simp only [bind_eq_ok_iff, addDatabase_eq_ok_iff, ih]
    constructor
    · rintro ⟨_, ⟨n, rfl, rfl⟩, names, rfl, rfl⟩
      exact ⟨n :: names, rfl, rfl⟩
    · rintro ⟨names, hnames, rfl⟩
      cases names with
      | nil => simp at hnames
      | cons n names =>
        obtain ⟨rfl, rfl⟩ := List.cons_eq_cons.mp hnames
        exact ⟨_, ⟨n, rfl, rfl⟩, names, rfl, rfl⟩

/-- The variables of the databases are the only ones that the loop sets. -/
theorem foldl_setDatabase_of_not_sqlite {rt : Runtime} {l : Layout} {name : AppName}
    {names : List String} {env : Env} {key : String}
    (hkey : Text.startsWith key "OPENHOST_SQLITE_" = false) :
    names.foldl (setDatabase rt l name) env key = env key := by
  have hne : ∀ n, key ≠ sqliteKey n := by
    rintro n rfl
    have hstarts : Text.startsWith (sqliteKey n) "OPENHOST_SQLITE_" = true :=
      Text.startsWith_iff.mpr ⟨n, rfl⟩
    simp [hstarts] at hkey
  induction names generalizing env with
  | nil => rfl
  | cons n names ih =>
    rw [List.foldl_cons, ih]
    simp [setDatabase, Env.set, hne]

/-! ## What is set -/

/-- When the variables are returned, and what they are. -/
theorem makeDataDirs_eq_ok_iff {rt : Runtime} {l : Layout} {who : Identity} {name : AppName}
    {m : AppManifest} {env : Env} : makeDataDirsAndEnvVars rt l who name m = .ok env ↔
      ∃ env₁, withAppData rt l name m (fun _ => none) = .ok env₁ ∧
      ∃ env₂, withAppArchive rt l name m (withAppTemp l name m env₁) = .ok env₂ ∧
        env = withIdentity who name m env₂ := by
  unfold makeDataDirsAndEnvVars
  simp only [bind_eq_ok_iff]
  apply exists_congr
  intro env₁
  apply and_congr_right
  intro _
  apply exists_congr
  intro env₂
  apply and_congr_right
  intro _
  exact ⟨fun h => (Except.ok.inj h).symm, fun h => by rw [h]; rfl⟩

theorem withAppData_eq_ok_iff {rt : Runtime} {l : Layout} {name : AppName} {m : AppManifest}
    (hneeds : needsAppData m = true) {env env' : Env} :
    withAppData rt l name m env = .ok env' ↔ ∃ names, DatabaseNames m names ∧
      env' = names.foldl (setDatabase rt l name)
        (env.set "OPENHOST_APP_DATA_DIR" (appDataDir l name)) := by
  rw [withAppData, if_pos hneeds]
  simp only [bind_eq_ok_iff, foldlM_addDatabase, DatabaseNames]
  constructor
  · rintro ⟨vs, hvs, names, rfl, rfl⟩
    exact ⟨names, hvs, rfl⟩
  · rintro ⟨names, hnames, rfl⟩
    exact ⟨_, hnames, names, rfl, rfl⟩

theorem ne_of_startsWith {key key' : String} (h : Text.startsWith key "OPENHOST_SQLITE_" = true)
    (h' : Text.startsWith key' "OPENHOST_SQLITE_" = false) : key ≠ key' := by
  rintro rfl
  rw [h] at h'
  cases h'

/-- The permanent data sets the variable of its directory and those of the databases. -/
theorem withAppData_of_ne {rt : Runtime} {l : Layout} {name : AppName} {m : AppManifest}
    {env env' : Env} (h : withAppData rt l name m env = .ok env') {key : String}
    (hsqlite : Text.startsWith key "OPENHOST_SQLITE_" = false) (hkey : key ≠ "OPENHOST_APP_DATA_DIR") :
    env' key = env key := by
  by_cases hneeds : needsAppData m = true
  · obtain ⟨names, -, rfl⟩ := (withAppData_eq_ok_iff hneeds).mp h
    rw [foldl_setDatabase_of_not_sqlite hsqlite]
    exact Function.update_of_ne hkey _ _
  · rw [withAppData, if_neg hneeds] at h
    rw [← Except.ok.inj h]

theorem withAppArchive_of_ne {rt : Runtime} {l : Layout} {name : AppName} {m : AppManifest}
    {env env' : Env} (h : withAppArchive rt l name m env = .ok env')
    {key : String} (hkey : key ≠ "OPENHOST_APP_ARCHIVE_DIR") : env' key = env key := by
  unfold withAppArchive at h
  split at h
  · split at h
    · rw [← Except.ok.inj h, Env.set, Function.update_of_ne hkey]
    · cases h
  · split at h
    · rw [← Except.ok.inj h, Env.set, Function.update_of_ne hkey]
    · rw [← Except.ok.inj h]

theorem withAppTemp_of_ne {l : Layout} {name : AppName} {m : AppManifest} {env : Env}
    {key : String} (hkey : key ≠ "OPENHOST_APP_TEMP_DIR") :
    withAppTemp l name m env key = env key := by
  unfold withAppTemp
  split
  · exact Function.update_of_ne hkey _ _
  · rfl

/-- A variable that no other part sets is that of the directories and databases. -/
theorem withIdentity_of_not_mem {who : Identity} {name : AppName} {m : AppManifest} {env : Env}
    {key : String} (hkey : key ∉ (identityVars who name m).map Prod.fst) :
    withIdentity who name m env key = env key := by
  have hnone : (identityVars who name m).lookup key = none := by
    rw [List.lookup_eq_none_iff]
    intro p hp
    have hne : key ≠ p.1 := fun heq => hkey (heq ▸ List.mem_map_of_mem hp)
    simpa using hne
  rw [withIdentity, hnone]

/-- The command line is made exactly when the command is a text or counts as none. -/
theorem exists_commandWords_iff {command : Option Value} :
    (∃ words, commandWords command = .ok words) ↔
      command.all (fun v => !v.truthy || isStr v) = true := by
  unfold commandWords
  cases command with
  | none => simp
  | some v =>
    cases htruthy : v.truthy with
    | false =>
      have hnone : (some v).filter Value.truthy = none := by simp [htruthy]
      simp [hnone, htruthy]
    | true =>
      have hsome : (some v).filter Value.truthy = some v := by simp [htruthy]
      rw [hsome]
      cases v with
      | str s => simp [isStr]
      | _ => simp [htruthy, isStr, Value.str?]

theorem exists_runContainer_iff {l : Layout} {name : AppName} {m : AppManifest} {localPort : Nat}
    {env : Env} {P : Container → Prop} :
    (∃ c, runContainer l name m localPort env = .ok c ∧ P c) ↔
      ∃ words, commandWords m.containerCommand = .ok words ∧
        P ⟨mounts l name m, addBottleEnvAliases (containerEnv l name m localPort env), words⟩ := by
  unfold runContainer
  constructor
  · rintro ⟨c, hc, hP⟩
    obtain ⟨words, hwords, heq⟩ := bind_eq_ok_iff.mp hc
    obtain rfl := Except.ok.inj heq
    exact ⟨words, hwords, hP⟩
  · rintro ⟨words, hwords, hP⟩
    exact ⟨_, bind_eq_ok_iff.mpr ⟨words, hwords, rfl⟩, hP⟩

end OpenHost.Containers

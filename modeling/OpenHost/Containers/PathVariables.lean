import OpenHost.Containers.ArchiveTier

/-!
# The paths that a container is given

The directories of an app and the files of its databases are named by the host's paths, and rewritten
for the container.  `hostPath?` goes back through the mounts.  A database can have any text for its
name, and has two variables: one for the name as it is, one for the name in upper case.
-/

namespace OpenHost.Containers

open Manifest (AppManifest Runtime)
open PosixPath (Path join relpath Plain IsEntry)
open Raises
open Rename (AppName)
open Toml (Value Table iterate)

/-! ## Back through the mounts -/

/-- Where the host has a path of the container, if it is in the mounted directory. -/
def Mount.hostPath? (mount : Mount) (p : Path) : Option Path :=
  if p = mount.container then some mount.host
  else (p.dropPrefix? (mount.container ++ ['/'])).bind fun rest =>
    if Plain rest then some (join mount.host rest) else none

/-- Where the host has a path of the container. -/
def hostPath? (ms : List Mount) (p : Path) : Option Path := ms.findSome? fun mount => mount.hostPath? p

/-! ## What is to hold -/

/-- The variable holds a path. -/
def isPathVariable (key : String) : Bool :=
  key = "OPENHOST_APP_DATA_DIR" || key = "OPENHOST_APP_TEMP_DIR" ||
    key = "OPENHOST_APP_ARCHIVE_DIR" || Text.startsWith key "OPENHOST_SQLITE_"

/-- The names of the databases that a manifest declares. -/
def Declares (m : AppManifest) (names : List String) : Prop :=
  if m.sqliteDbs.truthy = true then DatabaseNames m names else names = []

/-- `insert_and_deploy`: the path in the row of a database in `app_databases`. -/
def rowPath (rt : Runtime) (env : Env) (dbName : String) : Path :=
  (env ("OPENHOST_SQLITE_" ++ rt.upper dbName)).getD []

/-- The path is that of a file in the app's own data directory. -/
def InAppData (l : Layout) (name : AppName) (p : Path) : Prop :=
  ∃ rest, Plain rest ∧ p = appDataDir l name ++ '/' :: rest

/-- A variable of the container names, through the mounts, what the variable on the host names. -/
def NamesSame (ms : List Mount) (host container : Option Path) : Prop :=
  ∀ value, container = some value → ∃ path, host = some path ∧ hostPath? ms value = some path

/-- What is to be true of the variables and of the databases. -/
structure PathsAgree (rt : Runtime) (l : Layout) (name : AppName) (m : AppManifest) (localPort : Nat)
    (names : List String) (env : Env) : Prop where
  handed : ∀ c, runContainer l name m localPort env = .ok c → ∀ key, isPathVariable key = true →
    NamesSame c.mounts (env key) (c.env key)
  /-- The same under the newer names. -/
  twins : ∀ c, runContainer l name m localPort env = .ok c → ∀ rest,
    isPathVariable ("OPENHOST_" ++ rest) = true →
    NamesSame c.mounts (env ("OPENHOST_" ++ rest)) (c.env ("BOTTLE_" ++ rest))
  keys : ∀ n ∈ names, ∃ p, env (sqliteKey n) = some p ∧ InAppData l name p
  rows : ∀ n ∈ names, InAppData l name (rowPath rt env n)
  distinct : ∀ n ∈ names, ∀ n' ∈ names, n ≠ n' →
    env (sqliteKey n) ≠ env (sqliteKey n') ∧ rowPath rt env n ≠ rowPath rt env n'

/-- The names give files in the app's directory, and no two are told apart by case or spelling
only. -/
structure NamesApart (rt : Runtime) (l : Layout) (name : AppName) (names : List String) : Prop where
  inside : ∀ n ∈ names, InAppData l name (dbPath l name n)
  paths : ∀ n ∈ names, ∀ n' ∈ names, dbPath l name n = dbPath l name n' → n = n'
  uppers : ∀ n ∈ names, ∀ n' ∈ names, rt.upper n = rt.upper n' → n = n'

variable {rt : Runtime} {l : Layout} {who : Identity} {name : AppName} {m : AppManifest}

/-! ## Directories -/

theorem name_ne_nil (name : AppName) : name.val.toList ≠ [] := by
  intro hnil
  have hempty : name.val = "" := String.toList_eq_nil_iff.mp hnil
  have hvalid := name.property
  rw [hempty] at hvalid
  exact absurd hvalid (by decide)

theorem isEntry_name (name : AppName) : IsEntry name.val.toList := by
  have hdot : '.' ∉ name.val.toList := Rename.not_mem_name name (by decide) (by decide)
  refine ⟨name_ne_nil name, fun h => hdot ?_, fun h => hdot ?_⟩
  · simp [h]
  · simp [h]

theorem plain_name (name : AppName) : Plain name.val.toList :=
  PosixPath.plain_of_isEntry (Rename.slash_not_mem name) (isEntry_name name)

/-- The app's directory goes on after its name. -/
theorem join_name (dir : Path) (name : AppName) (rest : Path) :
    join dir (name.val.toList ++ rest) = join dir name.val.toList ++ rest :=
  PosixPath.join_append dir (name_ne_nil name) rest

theorem getLast?_join_name (dir : Path) (name : AppName) :
    (join dir name.val.toList).getLast? ≠ some '/' := by
  have hlast : (join dir name.val.toList).getLast? = name.val.toList.getLast? := by
    unfold join
    split
    · rfl
    · split
      · exact List.getLast?_append_of_ne_nil _ (name_ne_nil name)
      · rw [List.getLast?_append_of_ne_nil _ (List.cons_ne_nil _ _),
          List.getLast?_cons_of_ne_nil (name_ne_nil name)]
  intro hslash
  exact Rename.slash_not_mem name (List.mem_of_getLast? (hlast.symm.trans hslash))

theorem join_name_ne_nil (dir : Path) (name : AppName) : join dir name.val.toList ≠ [] := by
  unfold join
  split
  · exact name_ne_nil name
  · split <;> simp [name_ne_nil name]

/-- What is below the app's directory. -/
theorem join_join_name (dir : Path) (name : AppName) {rest : Path} (hrest : Plain rest) :
    join (join dir name.val.toList) rest = join dir name.val.toList ++ '/' :: rest :=
  PosixPath.join_of_relative (join_name_ne_nil dir name) (getLast?_join_name dir name)
    hrest.isAbs_eq_false

/-! ## Through one mount -/

theorem Mount.hostPath?_container (mount : Mount) : mount.hostPath? mount.container = some mount.host :=
  if_pos rfl

theorem Mount.hostPath?_below (mount : Mount) {rest : Path} (hrest : Plain rest) :
    mount.hostPath? (mount.container ++ '/' :: rest) = some (join mount.host rest) := by
  have hdrop : (mount.container ++ '/' :: rest).dropPrefix? (mount.container ++ ['/']) =
      some rest := by
    rw [List.dropPrefix?_eq_some_iff]
    exact ⟨mount.container ++ ['/'], by simp, by simp⟩
  have hne : mount.container ++ '/' :: rest ≠ mount.container := by simp
  rw [Mount.hostPath?, if_neg hne, hdrop, Option.bind_some, if_pos hrest]

/-- What a mount has is at it or below it. -/
theorem Mount.hostPath?_eq_some {mount : Mount} {p path : Path} (h : mount.hostPath? p = some path) :
    p = mount.container ∨ ∃ rest, p = mount.container ++ '/' :: rest := by
  unfold Mount.hostPath? at h
  split at h
  · next heq => exact .inl heq
  · obtain ⟨rest, hrest, -⟩ := Option.bind_eq_some_iff.mp h
    obtain ⟨front, hp, hfront⟩ := List.dropPrefix?_eq_some_iff.mp hrest
    refine .inr ⟨rest, ?_⟩
    rw [hp, eq_of_beq hfront, List.append_assoc]
    rfl

/-- Nothing of another tier is there. -/
theorem Mount.OfTier.hostPath?_eq_none {mount : Mount} {tier tier' : Path}
    (h : mount.OfTier name tier) (hslash : '/' ∉ tier) (hslash' : '/' ∉ tier') (hne : tier ≠ tier')
    (x : Path) : mount.hostPath? (tierRoot tier' ++ '/' :: x) = none := by
  by_contra hsome
  obtain ⟨path, hpath⟩ := Option.ne_none_iff_exists'.mp hsome
  rcases Mount.hostPath?_eq_some hpath with hp | ⟨rest, hp⟩
  · obtain ⟨y, hy⟩ := h.exists_below []
    have heq : tierRoot tier ++ '/' :: y = tierRoot tier' ++ '/' :: (x ++ ['/']) := by
      rw [← hy, ← hp]
      simp
    exact hne (tier_eq_of_below hslash hslash' heq)
  · obtain ⟨y, hy⟩ := h.exists_below rest
    exact hne (tier_eq_of_below hslash hslash' (hy.symm.trans hp.symm))

/-! ## Through the mounts -/

/-- The mount of a tier, by what it mounts: the tier's directory, or the app's. -/
inductive MountsTier (dir : Path) (name : AppName) (tier : Path) : List Mount → Prop where
  | whole : MountsTier dir name tier [⟨dir, tierRoot tier⟩]
  | own : MountsTier dir name tier [⟨join dir name.val.toList, inContainer tier name⟩]

/-- Either way the app's directory is where the variable says. -/
theorem MountsTier.hostPath?_dir {dir tier : Path} {ms : List Mount}
    (h : MountsTier dir name tier ms) :
    hostPath? ms (inContainer tier name) = some (join dir name.val.toList) := by
  cases h with
  | whole =>
    rw [hostPath?, List.findSome?_singleton]
    exact Mount.hostPath?_below ⟨dir, tierRoot tier⟩ (plain_name name)
  | own =>
    rw [hostPath?, List.findSome?_singleton]
    exact Mount.hostPath?_container _

theorem MountsTier.hostPath?_below {dir tier : Path} {ms : List Mount}
    (h : MountsTier dir name tier ms) {rest : Path} (hrest : Plain rest) :
    hostPath? ms (inContainer tier name ++ '/' :: rest) =
      some (join dir name.val.toList ++ '/' :: rest) := by
  cases h with
  | whole =>
    have hplain : Plain (name.val.toList ++ '/' :: rest) :=
      PosixPath.plain_append_iff.mpr ⟨plain_name name, hrest⟩
    have hbelow := Mount.hostPath?_below ⟨dir, tierRoot tier⟩ hplain
    rw [join_name] at hbelow
    rw [hostPath?, List.findSome?_singleton, inContainer, List.append_assoc]
    exact hbelow
  | own =>
    rw [hostPath?, List.findSome?_singleton]
    have hbelow := Mount.hostPath?_below ⟨join dir name.val.toList, inContainer tier name⟩ hrest
    rwa [join_join_name dir name hrest] at hbelow

theorem mountsTier_data (hneeds : needsAppData m = true) :
    MountsTier (join l.dataDir appDataPart) name appDataPart (dataMount l name m) := by
  unfold dataMount
  split
  · exact .whole
  · exact .own

theorem mountsTier_temp (htemp : hasAppTemp m = true) :
    MountsTier (join l.tempDataDir appTempPart) name appTempPart (tempMount l name m) := by
  unfold tempMount
  split
  · exact .whole
  · exact .own

theorem mountsTier_archive (harchive : hasAppArchive m = true)
    (hdir : m.accessAllAppData.truthy = true → l.archiveIsDir = true) :
    MountsTier l.archiveDir name appArchivePart (archiveMount l name m) := by
  unfold archiveMount
  split
  · next hall =>
    rw [if_pos (hdir hall)]
    exact .whole
  · exact .own

/-- The first tier is looked up first. -/
theorem hostPath?_data {p path : Path} (h : hostPath? (dataMount l name m) p = some path) :
    hostPath? (mounts l name m) p = some path := by
  unfold hostPath? at h ⊢
  rw [mounts, List.findSome?_append, List.findSome?_append, h]
  rfl

theorem hostPath?_temp {x path : Path}
    (h : hostPath? (tempMount l name m) (tierRoot appTempPart ++ '/' :: x) = some path) :
    hostPath? (mounts l name m) (tierRoot appTempPart ++ '/' :: x) = some path := by
  have hdata : (dataMount l name m).findSome?
      (fun mount => mount.hostPath? (tierRoot appTempPart ++ '/' :: x)) = none :=
    List.findSome?_eq_none_iff.mpr fun mount hmount =>
      (dataMount_ofTier mount hmount).hostPath?_eq_none (by decide) (by decide) (by decide) x
  unfold hostPath? at h ⊢
  rw [mounts, List.findSome?_append, List.findSome?_append, hdata, h]
  rfl

theorem hostPath?_archive {x path : Path}
    (h : hostPath? (archiveMount l name m) (tierRoot appArchivePart ++ '/' :: x) = some path) :
    hostPath? (mounts l name m) (tierRoot appArchivePart ++ '/' :: x) = some path := by
  have hothers : (dataMount l name m ++ tempMount l name m).findSome?
      (fun mount => mount.hostPath? (tierRoot appArchivePart ++ '/' :: x)) = none := by
    rw [List.findSome?_eq_none_iff]
    intro mount hmount
    rcases List.mem_append.mp hmount with hmount | hmount
    · exact (dataMount_ofTier mount hmount).hostPath?_eq_none (by decide) (by decide) (by decide) x
    · exact (tempMount_ofTier mount hmount).hostPath?_eq_none (by decide) (by decide) (by decide) x
  unfold hostPath? at h ⊢
  rw [mounts, List.findSome?_append, hothers, h]
  rfl

/-! ## The files of the databases -/

theorem plain_sqlite : Plain "sqlite".toList := by decide

theorem dbPath_of_relative {n : String} (hrel : PosixPath.isAbs (n ++ ".db").toList = false) :
    dbPath l name n =
      appDataDir l name ++ '/' :: ("sqlite".toList ++ '/' :: (n ++ ".db").toList) := by
  have hdir : sqliteDir l name = appDataDir l name ++ '/' :: "sqlite".toList :=
    join_join_name _ name plain_sqlite
  have hlast : (sqliteDir l name).getLast? ≠ some '/' := by
    rw [hdir, List.getLast?_append_of_ne_nil _ (List.cons_ne_nil _ _)]
    decide
  have hne : sqliteDir l name ≠ [] := by
    rw [hdir]
    simp
  rw [dbPath, PosixPath.join_of_relative hne hlast hrel, hdir]
  simp

/-- A name that is no absolute path is in the app's directory exactly when none of its parts is empty
or a dot segment. -/
theorem inAppData_dbPath_iff {n : String} (hrel : PosixPath.isAbs (n ++ ".db").toList = false) :
    InAppData l name (dbPath l name n) ↔ Plain (n ++ ".db").toList := by
  rw [dbPath_of_relative hrel]
  constructor
  · rintro ⟨rest, hrest, heq⟩
    obtain ⟨-, rfl⟩ := List.cons_eq_cons.mp (List.append_cancel_left heq)
    exact (PosixPath.plain_append_iff.mp hrest).2
  · intro hplain
    exact ⟨_, PosixPath.plain_append_iff.mpr ⟨plain_sqlite, hplain⟩, rfl⟩

/-! ## The variables of the databases -/

/-- The variables that the loop over the databases sets. -/
def databaseEnv (rt : Runtime) (l : Layout) (name : AppName) (names : List String) : Env :=
  names.foldl (setDatabase rt l name) fun _ => none

theorem sqliteKey_injective : Function.Injective sqliteKey := by
  intro n n' h
  have hlist : "OPENHOST_SQLITE_".toList ++ n.toList = "OPENHOST_SQLITE_".toList ++ n'.toList := by
    rw [← String.toList_append, ← String.toList_append]
    exact congrArg String.toList h
  exact String.toList_inj.mp (List.append_cancel_left hlist)

theorem startsWith_sqliteKey (n : String) : Text.startsWith (sqliteKey n) "OPENHOST_SQLITE_" = true :=
  Text.startsWith_iff.mpr ⟨n, rfl⟩

/-- What one step leaves at a key. -/
theorem setDatabase_apply (env : Env) (n key : String) :
    setDatabase rt l name env n key =
      if key = sqliteKey n ∨ key = sqliteKey (rt.upper n) then some (dbPath l name n) else env key := by
  unfold setDatabase Env.set
  by_cases hupper : key = sqliteKey (rt.upper n)
  · simp [hupper]
  · by_cases hkey : key = sqliteKey n
    · rw [Function.update_of_ne hupper]
      simp [hkey]
    · rw [Function.update_of_ne hupper, Function.update_of_ne hkey]
      simp [hkey, hupper]

/-- What is at a key is the path of a database with that key, or was there before. -/
theorem foldl_setDatabase_eq_some {names : List String} {env : Env} {key : String} {p : Path}
    (h : names.foldl (setDatabase rt l name) env key = some p) :
    (∃ n ∈ names, (key = sqliteKey n ∨ key = sqliteKey (rt.upper n)) ∧ p = dbPath l name n) ∨
      env key = some p := by
  induction names generalizing env with
  | nil => exact .inr h
  | cons n names ih =>
    rcases ih h with ⟨n', hn', hfound⟩ | hbefore
    · exact .inl ⟨n', List.mem_cons_of_mem n hn', hfound⟩
    · rw [setDatabase_apply] at hbefore
      split at hbefore
      · next hkey => exact .inl ⟨n, List.mem_cons_self, hkey, (Option.some.inj hbefore).symm⟩
      · exact .inr hbefore

/-- A key that is set stays set. -/
theorem foldl_setDatabase_isSome {names : List String} {env : Env} {key : String}
    (h : (env key).isSome = true) : (names.foldl (setDatabase rt l name) env key).isSome = true := by
  induction names generalizing env with
  | nil => exact h
  | cons n names ih =>
    apply ih
    rw [setDatabase_apply]
    split
    · rfl
    · exact h

theorem databaseEnv_isSome {names : List String} {n : String} (hn : n ∈ names) {key : String}
    (hkey : key = sqliteKey n ∨ key = sqliteKey (rt.upper n)) :
    (databaseEnv rt l name names key).isSome = true := by
  obtain ⟨before, after, rfl⟩ := List.append_of_mem hn
  rw [databaseEnv, List.foldl_append, List.foldl_cons]
  apply foldl_setDatabase_isSome
  rw [setDatabase_apply, if_pos hkey]
  rfl

theorem databaseEnv_eq_some {names : List String} {key : String} {p : Path}
    (h : databaseEnv rt l name names key = some p) :
    ∃ n ∈ names, (key = sqliteKey n ∨ key = sqliteKey (rt.upper n)) ∧ p = dbPath l name n := by
  rcases foldl_setDatabase_eq_some h with hfound | hbefore
  · exact hfound
  · simp at hbefore

/-- Names that differ in upper case do not write each other's variables. -/
theorem databaseEnv_of_uppers (hupper : ∀ s, rt.upper (rt.upper s) = rt.upper s) {names : List String}
    (huppers : ∀ n ∈ names, ∀ n' ∈ names, rt.upper n = rt.upper n' → n = n') {n : String}
    (hn : n ∈ names) {key : String} (hkey : key = sqliteKey n ∨ key = sqliteKey (rt.upper n)) :
    databaseEnv rt l name names key = some (dbPath l name n) := by
  obtain ⟨p, hp⟩ := Option.isSome_iff_exists.mp (@databaseEnv_isSome rt l name _ _ hn _ hkey)
  obtain ⟨n', hn', hkey', rfl⟩ := databaseEnv_eq_some hp
  have hsame : rt.upper n = rt.upper n' := by
    rcases hkey with rfl | rfl <;> rcases hkey' with h | h <;> have h := sqliteKey_injective h
    · rw [h]
    · rw [h, hupper]
    · rw [← h, hupper]
    · exact h
  rw [hp, huppers n hn n' hn' hsame]

/-- Loops that start from the same at a key leave the same there. -/
theorem foldl_setDatabase_congr {names : List String} {env env' : Env} {key : String}
    (h : env key = env' key) :
    names.foldl (setDatabase rt l name) env key = names.foldl (setDatabase rt l name) env' key := by
  induction names generalizing env env' with
  | nil => exact h
  | cons n names ih =>
    apply ih
    rw [setDatabase_apply, setDatabase_apply, h]

/-! ## All the variables -/

theorem names_of_declares {names names' : List String} (h : Declares m names)
    (h' : DatabaseNames m names') : names = names' := by
  unfold Declares at h
  unfold DatabaseNames at h h'
  split at h
  · have heq := Except.ok.inj (h.symm.trans h')
    exact List.map_injective_iff.mpr (fun a b hab => Value.str.inj hab) heq
  · next hfalse =>
    -- what counts as false and can be gone through is empty
    have hempty : names'.map Value.str = [] := by
      cases hdbs : m.sqliteDbs with
      | str s =>
        rw [hdbs] at hfalse h'
        simp only [Value.truthy, ne_eq, decide_not, Bool.not_eq_true', decide_eq_false_iff_not,
          not_not] at hfalse
        rw [← Except.ok.inj h', hfalse]
        rfl
      | array items =>
        rw [hdbs] at hfalse h'
        rw [← Except.ok.inj h']
        simpa [Value.truthy] using hfalse
      | table entries =>
        rw [hdbs] at hfalse h'
        rw [← Except.ok.inj h']
        simpa [Value.truthy] using hfalse
      | _ =>
        rw [hdbs] at h'
        cases h'
    rw [h, List.map_eq_nil_iff.mp hempty]

theorem not_mem_identityVars {key : String} (h : isPathVariable key = true) :
    key ∉ (identityVars who name m).map Prod.fst := by
  intro hmem
  simp only [identityVars, List.map_cons, List.map_nil, List.mem_cons, List.not_mem_nil,
    or_false] at hmem
  rcases hmem with rfl | rfl | rfl | rfl | rfl | rfl | rfl <;> exact absurd h (by decide)

/-- The variables of the databases are those that the loop sets. -/
theorem env_of_startsWith {names : List String} (hnames : Declares m names) {env : Env}
    (henv : makeDataDirsAndEnvVars rt l who name m = .ok env) {key : String}
    (hkey : Text.startsWith key "OPENHOST_SQLITE_" = true) :
    env key = databaseEnv rt l name names key := by
  have hpath : isPathVariable key = true := by simp [isPathVariable, hkey]
  obtain ⟨env₁, henv₁, env₂, henv₂, rfl⟩ := makeDataDirs_eq_ok_iff.mp henv
  rw [withIdentity_of_not_mem (not_mem_identityVars hpath),
    withAppArchive_of_ne henv₂ (ne_of_startsWith hkey (by decide)),
    withAppTemp_of_ne (ne_of_startsWith hkey (by decide))]
  by_cases hneeds : needsAppData m = true
  · obtain ⟨names', hnames', rfl⟩ := (withAppData_eq_ok_iff hneeds).mp henv₁
    rw [names_of_declares hnames hnames']
    exact foldl_setDatabase_congr (Function.update_of_ne (ne_of_startsWith hkey (by decide)) _ _)
  · rw [withAppData, if_neg hneeds] at henv₁
    have hfalse : ¬m.sqliteDbs.truthy = true := by
      simp only [needsAppData, Bool.or_eq_true, not_or] at hneeds
      exact hneeds.1.2
    rw [Declares, if_neg hfalse] at hnames
    rw [← Except.ok.inj henv₁, hnames]
    rfl

/-- When a database has a variable, its directory is there. -/
theorem needsAppData_of_declares {names : List String} (hnames : Declares m names) {n : String}
    (hn : n ∈ names) : needsAppData m = true := by
  unfold Declares at hnames
  split at hnames
  · next htrue => simp [needsAppData, htrue]
  · rw [hnames] at hn
    simp at hn

theorem env_dataDir {env : Env} (henv : makeDataDirsAndEnvVars rt l who name m = .ok env) {p : Path}
    (h : env "OPENHOST_APP_DATA_DIR" = some p) : needsAppData m = true ∧ p = appDataDir l name := by
  obtain ⟨env₁, henv₁, env₂, henv₂, rfl⟩ := makeDataDirs_eq_ok_iff.mp henv
  rw [withIdentity_of_not_mem (not_mem_identityVars (by decide)),
    withAppArchive_of_ne henv₂ (by decide), withAppTemp_of_ne (by decide)] at h
  by_cases hneeds : needsAppData m = true
  · obtain ⟨names, -, rfl⟩ := (withAppData_eq_ok_iff hneeds).mp henv₁
    rw [foldl_setDatabase_of_not_sqlite (by decide), Env.set, Function.update_self] at h
    exact ⟨hneeds, (Option.some.inj h).symm⟩
  · rw [withAppData, if_neg hneeds] at henv₁
    rw [← Except.ok.inj henv₁] at h
    cases h

theorem env_tempDir {env : Env} (henv : makeDataDirsAndEnvVars rt l who name m = .ok env) {p : Path}
    (h : env "OPENHOST_APP_TEMP_DIR" = some p) : hasAppTemp m = true ∧ p = appTempDir l name := by
  obtain ⟨env₁, henv₁, env₂, henv₂, rfl⟩ := makeDataDirs_eq_ok_iff.mp henv
  rw [withIdentity_of_not_mem (not_mem_identityVars (by decide)),
    withAppArchive_of_ne henv₂ (by decide)] at h
  unfold withAppTemp at h
  split at h
  · next htemp =>
    rw [Env.set, Function.update_self] at h
    exact ⟨htemp, (Option.some.inj h).symm⟩
  · rw [withAppData_of_ne henv₁ (by decide) (by decide)] at h
    cases h

theorem env_archiveDir {env : Env} (henv : makeDataDirsAndEnvVars rt l who name m = .ok env)
    {p : Path} (h : env "OPENHOST_APP_ARCHIVE_DIR" = some p) :
    hasAppArchive m = true ∧ l.archiveIsDir = true ∧ p = appArchiveDir l name := by
  obtain ⟨env₁, henv₁, env₂, henv₂, rfl⟩ := makeDataDirs_eq_ok_iff.mp henv
  rw [withIdentity_of_not_mem (not_mem_identityVars (by decide))] at h
  have hset : ∀ {env : Env}, env.set "OPENHOST_APP_ARCHIVE_DIR" (appArchiveDir l name) = env₂ →
      p = appArchiveDir l name := by
    rintro env rfl
    rw [Env.set, Function.update_self] at h
    exact (Option.some.inj h).symm
  unfold withAppArchive at henv₂
  split at henv₂
  · next harchive =>
    split at henv₂
    · next hdir => exact ⟨by simp [hasAppArchive, harchive], hdir, hset (Except.ok.inj henv₂)⟩
    · cases henv₂
  · split at henv₂
    · next hall =>
      obtain ⟨hall, hdir⟩ := Bool.and_eq_true_iff.mp hall
      exact ⟨by simp [hasAppArchive, hall], hdir, hset (Except.ok.inj henv₂)⟩
    · rw [← Except.ok.inj henv₂, withAppTemp_of_ne (by decide),
        withAppData_of_ne henv₁ (by decide) (by decide)] at h
      cases h

/-- All the variables have the older names. -/
theorem env_of_not_openhost {env : Env} (henv : makeDataDirsAndEnvVars rt l who name m = .ok env)
    {key : String} (hkey : Text.startsWith key "OPENHOST_" = false) : env key = none := by
  obtain ⟨env₁, henv₁, env₂, henv₂, rfl⟩ := makeDataDirs_eq_ok_iff.mp henv
  have hne : ∀ {key'}, Text.startsWith key' "OPENHOST_" = true → key ≠ key' := by
    rintro key' h rfl
    rw [h] at hkey
    cases hkey
  have hsqlite : Text.startsWith key "OPENHOST_SQLITE_" = false := by
    rw [Bool.eq_false_iff]
    intro h
    obtain ⟨r, rfl⟩ := Text.startsWith_iff.mp h
    exact hne (Text.startsWith_iff.mpr ⟨"SQLITE_" ++ r, by rw [← String.append_assoc]; rfl⟩) rfl
  have hidentity : key ∉ (identityVars who name m).map Prod.fst := by
    simp only [identityVars, List.map_cons, List.map_nil, List.mem_cons, List.not_mem_nil,
      or_false, not_or]
    exact ⟨hne (by decide), hne (by decide), hne (by decide), hne (by decide), hne (by decide),
      hne (by decide), hne (by decide)⟩
  rw [withIdentity_of_not_mem hidentity, withAppArchive_of_ne henv₂ (hne (by decide)),
    withAppTemp_of_ne (hne (by decide)), withAppData_of_ne henv₁ hsqlite (hne (by decide))]

/-! ## In the container -/

/-- The files of databases that are in the app's directory have paths of their own in the container. -/
theorem translateValue_sqlite {key : String} (hkey : Text.startsWith key "OPENHOST_SQLITE_" = true)
    {rest : Path} (hrest : Plain rest) :
    translateValue l name key (appDataDir l name ++ '/' :: rest) =
      inContainer appDataPart name ++ '/' :: rest := by
  have hrel : relpath l.cwd (appDataDir l name ++ '/' :: rest) (appDataDir l name) = rest :=
    PosixPath.relpath_of_below l.cwd (join_name_ne_nil _ name) hrest
  have hjoin : join (tierRoot appDataPart) name.val.toList = inContainer appDataPart name :=
    PosixPath.join_of_relative (by decide) (by decide) (plain_name name).isAbs_eq_false
  rw [translateValue, if_pos hkey, hrel, ← hjoin]
  exact join_join_name (tierRoot appDataPart) name hrest

/-- What a variable names in the container is mounted from what it names on the host. -/
theorem hostPath?_translateValue {names : List String} (hnames : Declares m names)
    (hinside : ∀ n ∈ names, InAppData l name (dbPath l name n)) {env : Env}
    (henv : makeDataDirsAndEnvVars rt l who name m = .ok env) {key : String}
    (hkey : isPathVariable key = true) {p : Path} (hp : env key = some p) :
    hostPath? (mounts l name m) (translateValue l name key p) = some p := by
  simp only [isPathVariable, Bool.or_eq_true, decide_eq_true_eq] at hkey
  rcases hkey with ((rfl | rfl) | rfl) | hsqlite
  · obtain ⟨hneeds, rfl⟩ := env_dataDir henv hp
    exact hostPath?_data (mountsTier_data hneeds).hostPath?_dir
  · obtain ⟨htemp, rfl⟩ := env_tempDir henv hp
    exact hostPath?_temp (mountsTier_temp htemp).hostPath?_dir
  · obtain ⟨harchive, hdir, rfl⟩ := env_archiveDir henv hp
    exact hostPath?_archive (mountsTier_archive harchive fun _ => hdir).hostPath?_dir
  · rw [env_of_startsWith hnames henv hsqlite] at hp
    obtain ⟨n, hn, -, rfl⟩ := databaseEnv_eq_some hp
    obtain ⟨rest, hrest, hpath⟩ := hinside n hn
    rw [hpath, translateValue_sqlite hsqlite hrest]
    exact hostPath?_data
      ((mountsTier_data (needsAppData_of_declares hnames hn)).hostPath?_below hrest)

/-- The container's variable for a path is the host's, translated. -/
theorem containerEnv_of_pathVariable {localPort : Nat} {env : Env} {key : String}
    (hkey : isPathVariable key = true) :
    containerEnv l name m localPort env key = (env key).map (translateValue l name key) := by
  have hne : key ≠ "OPENHOST_LOCAL_PORT" := by
    rintro rfl
    exact absurd hkey (by decide)
  unfold containerEnv
  split
  · exact Function.update_of_ne hne _ _
  · rfl

theorem startsWith_of_pathVariable {key : String} (h : isPathVariable key = true) :
    Text.startsWith key "BOTTLE_" = false := by
  simp only [isPathVariable, Bool.or_eq_true, decide_eq_true_eq] at h
  rcases h with ((rfl | rfl) | rfl) | h
  · decide
  · decide
  · decide
  · obtain ⟨r, rfl⟩ := Text.startsWith_iff.mp h
    rw [Text.startsWith, String.toList_append]
    rfl

/-- An older name is not an alias. -/
theorem addBottleEnvAliases_of_pathVariable {env : Env} {key : String}
    (hkey : isPathVariable key = true) : addBottleEnvAliases env key = env key := by
  rw [addBottleEnvAliases, Text.stripPrefix?_of_not_startsWith (startsWith_of_pathVariable hkey)]
  cases env key with
  | none => rfl
  | some v => rfl

/-- A newer name has the value of the older one. -/
theorem addBottleEnvAliases_twin {env : Env} {rest : String} (h : env ("BOTTLE_" ++ rest) = none) :
    addBottleEnvAliases env ("BOTTLE_" ++ rest) = env ("OPENHOST_" ++ rest) := by
  have hrest : Text.stripPrefix? "BOTTLE_" ("BOTTLE_" ++ rest) = some rest :=
    Text.stripPrefix?_eq_some_iff.mpr rfl
  rw [addBottleEnvAliases, h, hrest]
  rfl

theorem not_openhost_twin (rest : String) :
    Text.startsWith ("BOTTLE_" ++ rest) "OPENHOST_" = false := by
  rw [Bool.eq_false_iff]
  intro h
  obtain ⟨r, hr⟩ := Text.startsWith_iff.mp h
  have hlist := congrArg String.toList hr
  rw [String.toList_append, String.toList_append] at hlist
  cases hlist

theorem containerEnv_twin {localPort : Nat} {env : Env}
    (henv : makeDataDirsAndEnvVars rt l who name m = .ok env) (rest : String) :
    containerEnv l name m localPort env ("BOTTLE_" ++ rest) = none := by
  have hnot := not_openhost_twin rest
  have hne : "BOTTLE_" ++ rest ≠ "OPENHOST_LOCAL_PORT" := by
    intro heq
    rw [heq] at hnot
    exact absurd hnot (by decide)
  unfold containerEnv
  split
  · rw [Env.set, Function.update_of_ne hne, env_of_not_openhost henv hnot]
    rfl
  · change Option.map _ (env ("BOTTLE_" ++ rest)) = none
    rw [env_of_not_openhost henv hnot]
    rfl

/-! ## The condition -/

/-- The variables and the databases are as they should be exactly when the names of the databases are
kept apart. -/
theorem pathsAgree_iff (hupper : ∀ s, rt.upper (rt.upper s) = rt.upper s) {names : List String}
    (hnames : Declares m names) {env : Env} (henv : makeDataDirsAndEnvVars rt l who name m = .ok env)
    (localPort : Nat) :
    PathsAgree rt l name m localPort names env ↔ NamesApart rt l name names := by
  have hkey : ∀ n, env (sqliteKey n) = databaseEnv rt l name names (sqliteKey n) := fun n =>
    env_of_startsWith hnames henv (startsWith_sqliteKey n)
  -- what the variables are once no name writes those of another
  have hset : (∀ n ∈ names, ∀ n' ∈ names, rt.upper n = rt.upper n' → n = n') → ∀ n ∈ names,
      env (sqliteKey n) = some (dbPath l name n) ∧ rowPath rt env n = dbPath l name n := by
    intro huppers n hn
    refine ⟨(hkey n).trans (databaseEnv_of_uppers hupper huppers hn (.inl rfl)), ?_⟩
    have hrow := (hkey (rt.upper n)).trans (databaseEnv_of_uppers hupper huppers hn (.inr rfl))
    exact congrArg (Option.getD · []) hrow
  constructor
  · intro h
    have huppers : ∀ n ∈ names, ∀ n' ∈ names, rt.upper n = rt.upper n' → n = n' := by
      intro n hn n' hn' heq
      by_contra hne
      exact (h.distinct n hn n' hn' hne).2 (by rw [rowPath, rowPath, heq])
    refine ⟨fun n hn => ?_, fun n hn n' hn' heq => ?_, huppers⟩
    · rw [← (hset huppers n hn).2]
      exact h.rows n hn
    · by_contra hne
      refine (h.distinct n hn n' hn' hne).1 ?_
      rw [(hset huppers n hn).1, (hset huppers n' hn').1, heq]
  · intro h
    have hsame : ∀ key, isPathVariable key = true →
        NamesSame (mounts l name m) (env key) (containerEnv l name m localPort env key) := by
      intro key hpath value hvalue
      rw [containerEnv_of_pathVariable hpath] at hvalue
      obtain ⟨p, hp, rfl⟩ := Option.map_eq_some_iff.mp hvalue
      exact ⟨p, hp, hostPath?_translateValue hnames h.inside henv hpath hp⟩
    constructor
    · intro c hc key hpath
      obtain ⟨words, -, heq⟩ := bind_eq_ok_iff.mp hc
      obtain rfl := Except.ok.inj heq
      simp only [addBottleEnvAliases_of_pathVariable hpath]
      exact hsame key hpath
    · intro c hc rest hpath
      obtain ⟨words, -, heq⟩ := bind_eq_ok_iff.mp hc
      obtain rfl := Except.ok.inj heq
      simp only [addBottleEnvAliases_twin (containerEnv_twin henv rest)]
      exact hsame _ hpath
    · intro n hn
      exact ⟨_, (hset h.uppers n hn).1, h.inside n hn⟩
    · intro n hn
      rw [(hset h.uppers n hn).2]
      exact h.inside n hn
    · intro n hn n' hn' hne
      rw [(hset h.uppers n hn).1, (hset h.uppers n' hn').1, (hset h.uppers n hn).2,
        (hset h.uppers n' hn').2]
      exact ⟨fun heq => hne (h.paths n hn n' hn' (Option.some.inj heq)),
        fun heq => hne (h.paths n hn n' hn' heq)⟩

/-! ## Names of databases -/

theorem toUpper_of_not_small {c : Char} (h : ¬('a'.val ≤ c.val ∧ c.val ≤ 'z'.val)) :
    c.toUpper = c := dif_neg h

/-- What is in upper case is not a small letter. -/
theorem toUpper_toUpper (c : Char) : c.toUpper.toUpper = c.toUpper := by
  by_cases h : 'a'.val ≤ c.val ∧ c.val ≤ 'z'.val
  · apply toUpper_of_not_small
    have hval : c.toUpper.val = c.val + ('A'.val - 'a'.val) := by
      have hupper := congrArg Char.val (dif_pos h : c.toUpper = _)
      exact hupper
    rw [hval]
    simp only [UInt32.le_iff_toNat_le, UInt32.toNat_add, UInt32.toNat_sub] at h ⊢
    simp at h ⊢
    omega
  · rw [toUpper_of_not_small h, toUpper_of_not_small h]

theorem upper_reading (texts : List (String × Table)) (s : String) :
    (Runtime.reading texts).upper ((Runtime.reading texts).upper s) =
      (Runtime.reading texts).upper s := by
  change (s.map Char.toUpper).map Char.toUpper = s.map Char.toUpper
  rw [String.map_map]
  congr 1
  funext c
  exact toUpper_toUpper c

theorem plain_mainDb : Plain "sqlite/main.db".toList := by decide

theorem pathsAgree_archive : ∃ m env,
    Manifest.parseManifestFromString archiveRuntime archiveText = .ok m ∧ Declares m ["main"] ∧
    makeDataDirsAndEnvVars archiveRuntime serverLayout notesIdentity notesName m = .ok env ∧
    PathsAgree archiveRuntime serverLayout notesName m 9000 ["main"] env := by
  obtain ⟨m, hm, hsection, -, -⟩ :=
    @exists_parse_data archiveText (by decide) archiveData (by decide)
  have hdbs : m.sqliteDbs = .array [.str "main"] := hsection.sqliteDbs
  have hdatabases : DatabaseNames m ["main"] := by
    rw [DatabaseNames, hdbs]
    rfl
  have hnames : Declares m ["main"] := by
    rw [Declares, hdbs, if_pos (by decide)]
    exact hdatabases
  obtain ⟨env, henv⟩ : ∃ env,
      makeDataDirsAndEnvVars archiveRuntime serverLayout notesIdentity notesName m = .ok env :=
    (exists_makeDataDirs_iff rfl).mpr fun _ => ⟨["main"], hdatabases⟩
  refine ⟨m, env, hm, hnames, henv, (pathsAgree_iff (upper_reading _) hnames henv 9000).mpr ?_⟩
  refine ⟨?_, ?_, ?_⟩
  · simp only [List.forall_mem_singleton]
    exact ⟨"sqlite/main.db".toList, plain_mainDb, by decide⟩
  · simp
  · simp

/-- Two databases whose names differ in case. -/
def casesData : Table := [("sqlite", .array [.str "a", .str "A"])]

def casesText : String := dataText "sqlite = ['a', 'A']\n"

/-- Python, as far as that manifest goes. -/
def casesRuntime : Runtime := .reading [(casesText, dataTables casesData)]

theorem upper_cases : casesRuntime.upper "a" = casesRuntime.upper "A" := by
  apply String.toList_inj.mp
  change ("a".map Char.toUpper).toList = ("A".map Char.toUpper).toList
  rw [String.toList_map, String.toList_map]
  rfl

/-- Both rows hold the path of the second file. -/
theorem not_pathsAgree_cases : ∃ m env,
    Manifest.parseManifestFromString casesRuntime casesText = .ok m ∧ Declares m ["a", "A"] ∧
    makeDataDirsAndEnvVars casesRuntime serverLayout notesIdentity notesName m = .ok env ∧
    ¬PathsAgree casesRuntime serverLayout notesName m 9000 ["a", "A"] env := by
  obtain ⟨m, hm, hsection, -, -⟩ :=
    @exists_parse_data casesText (by decide) casesData (by decide)
  have hdbs : m.sqliteDbs = .array [.str "a", .str "A"] := hsection.sqliteDbs
  have hdatabases : DatabaseNames m ["a", "A"] := by
    rw [DatabaseNames, hdbs]
    rfl
  have hnames : Declares m ["a", "A"] := by
    rw [Declares, hdbs, if_pos (by decide)]
    exact hdatabases
  obtain ⟨env, henv⟩ : ∃ env,
      makeDataDirsAndEnvVars casesRuntime serverLayout notesIdentity notesName m = .ok env :=
    (exists_makeDataDirs_iff rfl).mpr fun _ => ⟨["a", "A"], hdatabases⟩
  refine ⟨m, env, hm, hnames, henv, fun h => ?_⟩
  have hrows := (h.distinct "a" (by simp) "A" (by simp) (by decide)).2
  exact hrows (by rw [rowPath, rowPath, upper_cases])

end OpenHost.Containers

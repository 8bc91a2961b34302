import Mathlib.Data.List.TakeWhile
import OpenHost.Apps.State
import OpenHost.Install.DefaultApps
import OpenHost.Library.Replace

/-!
# Renaming an app

`rename_app`: the container is stopped, the app's directories are moved tier by tier, and the name and
the paths in the rows are rewritten.  Every call that can fail has its failure named in the request's
`Faults`; what does not fail there succeeds.
-/

namespace OpenHost.Rename

open Apps (Status isValidAppName)
open Install (reservedPaths)
open Text (truthy? stripBlank)

/-! ## Names and paths -/

/-- A name that an app can have. -/
abbrev AppName : Type := { name : String // isValidAppName name = true }

/-- `os.path.join(a, b)` for a relative `b`. -/
def join (a b : String) : String :=
  if a = "" ∨ Text.endsWith a "/" then a ++ b else a ++ "/" ++ b

/-- The storage tiers. -/
inductive Tier where
  | appData
  | appTempData
  | appArchive
  deriving DecidableEq, Repr

/-- The directory of a tier below the data root. -/
def Tier.parent (root : String) : Tier → String
  | .appData => join (join root "persistent_data") "app_data"
  | .appTempData => join (join root "temporary_data") "app_temp_data"
  | .appArchive => join root "app_archive"

/-- The directory of an app in a tier. -/
def Tier.appDir (root : String) (t : Tier) (name : AppName) : String := join (t.parent root) name.val

/-! ## What a rename works on -/

/-- The columns of `apps` that are read or written. -/
structure AppRow where
  appId : String
  name : AppName
  status : Status
  containerId : Option String
  errorMessage : Option String
  repoPath : String
  manifestRaw : Option String
  deriving DecidableEq

/-- A row of `app_databases`. -/
structure DatabaseRow where
  appId : String
  dbName : String
  dbPath : String
  deriving DecidableEq

variable {α : Type}

/-- The contents of the tiers by directory name; `none` for a tier whose parent is no directory. -/
abbrev Dirs (α : Type) : Type := Tier → Option (AppName → Option α)

namespace Dirs

/-- What the directory of this name holds, where it exists. -/
def entry (d : Dirs α) (t : Tier) (name : AppName) : Option α := (d t).bind (· name)

/-- `os.rename` within one tier, when it succeeds. -/
def rename (t : Tier) (src dst : AppName) (d : Dirs α) : Dirs α := fun t' =>
  if t' = t then
    (d t).map fun e name => if name = dst then e src else if name = src then none else e name
  else d t'

end Dirs

/-- The rows, the directories, and which apps have a container that is running. -/
structure Store (α : Type) where
  apps : List AppRow
  databases : List DatabaseRow
  dirs : Dirs α
  running : String → Bool

namespace Store

/-- `SELECT * FROM apps WHERE app_id = ?` -/
def findApp (s : Store α) (appId : String) : Option AppRow := s.apps.find? (·.appId = appId)

/-- `UPDATE apps SET … WHERE app_id = ?` -/
def updateApp (appId : String) (f : AppRow → AppRow) (s : Store α) : Store α :=
  { s with apps := s.apps.map fun a => if a.appId = appId then f a else a }

/-- `UPDATE app_databases SET … WHERE app_id = ?` -/
def updateDatabases (appId : String) (f : DatabaseRow → DatabaseRow) (s : Store α) : Store α :=
  { s with databases := s.databases.map fun r => if r.appId = appId then f r else r }

end Store

namespace Store

theorem findApp_appId {s : Store α} {appId : String} {row : AppRow}
    (h : s.findApp appId = some row) : row.appId = appId := by
  simpa using List.find?_some h

theorem findApp_updateApp {s : Store α} {appId : String} {f : AppRow → AppRow}
    (hf : ∀ a, (f a).appId = a.appId) :
    (s.updateApp appId f).findApp appId = (s.findApp appId).map f := by
  have hkey : ((fun a : AppRow => decide (a.appId = appId)) ∘
      fun a => if a.appId = appId then f a else a) = fun a => decide (a.appId = appId) := by
    funext a
    by_cases ha : a.appId = appId
    · simp [ha, hf]
    · simp [ha]
  unfold findApp updateApp
  rw [List.find?_map, hkey]
  cases hfind : s.apps.find? (·.appId = appId) with
  | none => rfl
  | some a =>
    have ha : a.appId = appId := by simpa using List.find?_some hfind
    simp [ha]

end Store

/-- The `[data]` keys of a manifest that decide whether it uses the archive. -/
structure DataSection where
  appArchive : Bool
  accessAllAppData : Bool
  accessAllData : Bool
  accessAllArchive : Bool

/-- What the rename finds in the configuration and on the host. -/
structure Host where
  dataRootDir : String
  /-- `_data_section` -/
  dataSection : String → DataSection
  /-- `is_archive_dir_healthy` -/
  archiveHealthy : Bool
  /-- `repr` of a text -/
  repr : String → String

/-- `manifest_uses_archive` -/
def manifestUsesArchive (h : Host) (manifestRaw : String) : Bool :=
  let data := h.dataSection manifestRaw
  data.appArchive || data.accessAllAppData || data.accessAllData || data.accessAllArchive

/-- What `start_app_process` raised. -/
inductive StartError where
  /-- `RuntimeError` or `ValueError` -/
  | known (message : String)
  | other

/-- What `start_app_process` and the app leave. -/
structure Restarted (α : Type) where
  status : Status
  containerId : Option String
  errorMessage : Option String
  running : Bool
  dirs : Dirs α
  raised : Option StartError

/-- What goes wrong in one request. -/
structure Faults (α : Type) where
  /-- The container runs on after `stop_container`, which reports nothing. -/
  stop : Bool
  /-- The statement that records the app as stopped raises. -/
  markStopped : Bool
  /-- The text of the `OSError` of a move. -/
  move : Tier → Option String
  /-- The move back raises. -/
  undo : Tier → Bool
  /-- The text of the `sqlite3.Error` of the statement that restores the row. -/
  restore : Option String
  /-- One of the statements that rewrite the rows raises. -/
  rewrite : Bool
  /-- What comes of the restart. -/
  restart : AppRow → Store α → Restarted α

/-! ## The directories -/

/-- The app has a directory in the tier, and the new name is free there. -/
def Dirs.due (d : Dirs α) (oldName newName : AppName) (t : Tier) : Bool :=
  (d.entry t oldName).isSome && (d.entry t newName).isNone

/-- The moves of `_rename_app_storage_dirs`, with the tiers that have been moved. -/
def moveAll (f : Faults α) (oldName newName : AppName) :
    List Tier → Dirs α → List Tier → Dirs α × List Tier × Option String
  | [], d, renamed => (d, renamed, none)
  | t :: ts, d, renamed =>
    if d.due oldName newName t then
      match f.move t with
      | some text => (d, renamed, some text)
      | none => moveAll f oldName newName ts (d.rename t oldName newName) (renamed ++ [t])
    else moveAll f oldName newName ts d renamed

/-- The rollback; a move back that raises is logged. -/
def undoAll (f : Faults α) (oldName newName : AppName) : List Tier → Dirs α → Dirs α
  | [], d => d
  | t :: ts, d =>
    undoAll f oldName newName ts (if f.undo t then d else d.rename t newName oldName)

/-- `rename_parents` -/
def renameParents (d : Dirs α) : List Tier :=
  [.appData, .appTempData] ++ if (d .appArchive).isSome then [.appArchive] else []

/-- `_rename_app_storage_dirs` -/
def renameAppStorageDirs (h : Host) (f : Faults α) (oldName newName : AppName) (d : Dirs α) :
    Dirs α × Option String :=
  match [Tier.appData, Tier.appTempData].find? fun t => (d t).isNone with
  | some t =>
    (d, some ("Storage parent " ++ h.repr (t.parent h.dataRootDir) ++
      " is not a directory; refusing to rename so per-app data isn't orphaned."))
  | none =>
    match moveAll f oldName newName (renameParents d) d [] with
    | (d', _, none) => (d', none)
    | (d', renamed, some text) => (undoAll f oldName newName renamed.reverse d', some text)

/-! ### What the moves leave -/

namespace Dirs

/-- The tiers that `p` picks are moved. -/
def moveWhere (p : Tier → Bool) (oldName newName : AppName) (d : Dirs α) : Dirs α := fun t =>
  if p t then d.rename t oldName newName t else d t

theorem rename_self_congr {d d' : Dirs α} {t : Tier} (h : d t = d' t) (src dst : AppName) :
    d.rename t src dst t = d'.rename t src dst t := by
  unfold rename
  rw [if_pos rfl, if_pos rfl, h]

theorem rename_of_ne {t t' : Tier} (h : t' ≠ t) (src dst : AppName) (d : Dirs α) :
    d.rename t src dst t' = d t' := by
  rw [rename, if_neg h]

theorem due_congr {d d' : Dirs α} {t : Tier} (h : d t = d' t) (oldName newName : AppName) :
    d.due oldName newName t = d'.due oldName newName t := by
  simp only [due, entry, h]

theorem entry_rename_dst (t : Tier) (src dst : AppName) (d : Dirs α) :
    (d.rename t src dst).entry t dst = d.entry t src := by
  unfold entry rename
  rw [if_pos rfl]
  cases d t with
  | none => rfl
  | some e => simp

/-- Moving back undoes a move that was due. -/
theorem rename_rename {t : Tier} {oldName newName : AppName} {d : Dirs α}
    (h : d.due oldName newName t = true) :
    (d.rename t oldName newName).rename t newName oldName t = d t := by
  unfold rename
  rw [if_pos rfl, if_pos rfl]
  unfold due entry at h
  cases hd : d t with
  | none => rfl
  | some e =>
    rw [hd] at h
    simp only [Option.bind_some, Bool.and_eq_true, Option.isNone_iff_eq_none] at h
    simp only [Option.map_some, Option.some.injEq]
    funext name
    by_cases hold : name = oldName
    · simp [hold]
    · by_cases hnew : name = newName
      · subst hnew
        simp [hold, h.2]
      · simp [hold, hnew]

theorem entry_moveWhere (p : Tier → Bool) (oldName newName : AppName) (d : Dirs α) (t : Tier) :
    (d.moveWhere p oldName newName).entry t newName =
      if p t then d.entry t oldName else d.entry t newName := by
  unfold entry moveWhere
  cases hp : p t with
  | false => rfl
  | true => exact entry_rename_dst t oldName newName d

/-- Where what is moved was due, nothing has changed exactly if nothing is moved. -/
theorem moveWhere_eq_self_iff {p : Tier → Bool} {oldName newName : AppName} {d : Dirs α}
    (hdue : ∀ t, p t = true → d.due oldName newName t = true) :
    d.moveWhere p oldName newName = d ↔ ∀ t, p t = false := by
  constructor
  · intro heq t
    cases hp : p t with
    | false => rfl
    | true =>
      have hentry := entry_moveWhere p oldName newName d t
      have hd := hdue t hp
      rw [heq, hp, if_pos rfl] at hentry
      rw [due, Bool.and_eq_true, hentry] at hd
      cases hold : d.entry t oldName <;> simp [hold] at hd
  · intro hnone
    funext t
    simp [moveWhere, hnone t]

@[simp] theorem moveWhere_false (oldName newName : AppName) (d : Dirs α) :
    d.moveWhere (fun _ => false) oldName newName = d := by
  funext t
  simp [moveWhere]

/-- One more tier is moved. -/
theorem moveWhere_rename {p : Tier → Bool} {t : Tier} {oldName newName : AppName} {d : Dirs α}
    (hp : p t = false) :
    (d.rename t oldName newName).moveWhere p oldName newName =
      d.moveWhere (fun t' => t' = t || p t') oldName newName := by
  funext t'
  unfold moveWhere
  by_cases ht : t' = t
  · subst ht
    simp [hp]
  · simp only [ht, decide_false, Bool.false_or]
    rw [rename_of_ne ht, rename_self_congr (rename_of_ne ht oldName newName d)]

/-- One tier is moved back. -/
theorem rename_moveWhere {p : Tier → Bool} {t : Tier} {oldName newName : AppName} {d : Dirs α}
    (hp : p t = true) (hdue : d.due oldName newName t = true) :
    (d.moveWhere p oldName newName).rename t newName oldName =
      d.moveWhere (fun t' => p t' && t' ≠ t) oldName newName := by
  funext t'
  by_cases ht : t' = t
  · subst ht
    have hmoved : d.moveWhere p oldName newName t' = d.rename t' oldName newName t' := by
      rw [moveWhere, if_pos hp]
    rw [rename_self_congr hmoved, rename_rename hdue]
    simp [moveWhere]
  · rw [rename_of_ne ht]
    simp [moveWhere, ht]

end Dirs

/-- The tiers in which a directory is to be moved. -/
def dueTiers (oldName newName : AppName) (d : Dirs α) (ts : List Tier) : List Tier :=
  ts.filter (d.due oldName newName)

/-- Those of them that are moved before one fails. -/
def movedTiers (f : Faults α) (ts : List Tier) : List Tier := ts.takeWhile fun t => (f.move t).isNone

theorem moveAll_eq {f : Faults α} {oldName newName : AppName} {ts : List Tier} (hnodup : ts.Nodup)
    (d : Dirs α) (renamed : List Tier) :
    moveAll f oldName newName ts d renamed =
      (d.moveWhere (· ∈ movedTiers f (dueTiers oldName newName d ts)) oldName newName,
        renamed ++ movedTiers f (dueTiers oldName newName d ts),
        (dueTiers oldName newName d ts).findSome? f.move) := by
  induction ts generalizing d renamed with
  | nil => simp [moveAll, dueTiers, movedTiers]
  | cons t ts ih =>
    obtain ⟨ht, hts⟩ := List.nodup_cons.mp hnodup
    unfold moveAll
    cases hdue : d.due oldName newName t with
    | false =>
      have hfilter : dueTiers oldName newName d (t :: ts) = dueTiers oldName newName d ts := by
        simp [dueTiers, hdue]
      rw [if_neg Bool.false_ne_true, ih hts, hfilter]
    | true =>
      have hfilter : dueTiers oldName newName d (t :: ts) = t :: dueTiers oldName newName d ts := by
        simp [dueTiers, hdue]
      rw [if_pos rfl, hfilter]
      cases hmove : f.move t with
      | some text => simp [movedTiers, hmove]
      | none =>
        -- the move leaves the other tiers as they are
        have hrest : dueTiers oldName newName (d.rename t oldName newName) ts =
            dueTiers oldName newName d ts := by
          apply List.filter_congr
          intro t' ht'
          have hne : t' ≠ t := fun heq => ht (heq ▸ ht')
          exact Dirs.due_congr (Dirs.rename_of_ne hne oldName newName d) oldName newName
        have hnot : t ∉ movedTiers f (dueTiers oldName newName d ts) := by
          intro hmem
          exact ht (List.mem_filter.mp ((List.takeWhile_subset _) hmem)).1
        have hmoved : movedTiers f (t :: dueTiers oldName newName d ts) =
            t :: movedTiers f (dueTiers oldName newName d ts) := by
          simp [movedTiers, hmove]
        rw [ih hts, hrest, Dirs.moveWhere_rename (by simpa using hnot), hmoved, List.append_assoc,
          List.findSome?_cons_of_isNone (by rw [hmove]; rfl)]
        have hwhere : (fun t' => decide (t' = t) ||
              decide (t' ∈ movedTiers f (dueTiers oldName newName d ts))) =
            fun t' => decide (t' ∈ t :: movedTiers f (dueTiers oldName newName d ts)) := by
          funext t'
          rw [← Bool.decide_or, decide_eq_decide, List.mem_cons]
        rw [hwhere]
        rfl

theorem undoAll_eq {f : Faults α} {oldName newName : AppName} {ts : List Tier} (hnodup : ts.Nodup)
    {p : Tier → Bool} {d : Dirs α} (hp : ∀ t ∈ ts, p t = true)
    (hdue : ∀ t ∈ ts, d.due oldName newName t = true) :
    undoAll f oldName newName ts (d.moveWhere p oldName newName) =
      d.moveWhere (fun t => p t && (decide (t ∉ ts) || f.undo t)) oldName newName := by
  induction ts generalizing p with
  | nil => simp [undoAll]
  | cons t ts ih =>
    obtain ⟨ht, hts⟩ := List.nodup_cons.mp hnodup
    have hdue' : ∀ t' ∈ ts, d.due oldName newName t' = true := fun t' ht' =>
      hdue t' (List.mem_cons_of_mem t ht')
    unfold undoAll
    cases hundo : f.undo t with
    | true =>
      rw [if_pos rfl, ih hts (fun t' ht' => hp t' (List.mem_cons_of_mem t ht')) hdue']
      congr 1
      funext t'
      by_cases heq : t' = t
      · simp [heq, hundo]
      · simp [heq]
    | false =>
      rw [if_neg Bool.false_ne_true,
        Dirs.rename_moveWhere (hp t List.mem_cons_self) (hdue t List.mem_cons_self), ih hts _ hdue']
      · congr 1
        funext t'
        by_cases heq : t' = t
        · simp [heq, hundo]
        · simp [heq]
      · intro t' ht'
        have hne : t' ≠ t := fun heq => ht (heq ▸ ht')
        simp [hp t' (List.mem_cons_of_mem t ht'), hne]

theorem nodup_renameParents (d : Dirs α) : (renameParents d).Nodup := by
  unfold renameParents
  split <;> decide

/-- A tier in which a directory is to be moved is one of those the loop goes through. -/
theorem mem_renameParents {d : Dirs α} {oldName newName : AppName} {t : Tier}
    (h : d.due oldName newName t = true) : t ∈ renameParents d := by
  cases t with
  | appData | appTempData => simp [renameParents]
  | appArchive =>
    have hsome : (d .appArchive).isSome = true := by
      cases hd : d .appArchive with
      | none => simp [Dirs.due, Dirs.entry, hd] at h
      | some e => rfl
    simp [renameParents, hsome]

theorem mem_dueTiers {d : Dirs α} {oldName newName : AppName} {t : Tier} :
    t ∈ dueTiers oldName newName d (renameParents d) ↔ d.due oldName newName t = true := by
  rw [dueTiers, List.mem_filter]
  exact ⟨fun h => h.2, fun h => ⟨mem_renameParents h, h⟩⟩

/-- Where the storage parents are there, by what the moves come to. -/
theorem renameAppStorageDirs_eq (h : Host) (f : Faults α) (oldName newName : AppName) {d : Dirs α}
    (hparents : ∀ t ∈ [Tier.appData, Tier.appTempData], (d t).isNone = false) :
    renameAppStorageDirs h f oldName newName d =
      match (dueTiers oldName newName d (renameParents d)).findSome? f.move with
      | none => (d.moveWhere (d.due oldName newName) oldName newName, none)
      | some text =>
        (d.moveWhere (fun t =>
            t ∈ movedTiers f (dueTiers oldName newName d (renameParents d)) && f.undo t)
          oldName newName, some text) := by
  have hfind : ([Tier.appData, Tier.appTempData].find? fun t => (d t).isNone) = none := by
    rw [List.find?_eq_none]
    intro t ht
    simp [hparents t ht]
  unfold renameAppStorageDirs
  rw [hfind, moveAll_eq (nodup_renameParents d), List.nil_append]
  cases hmove : (dueTiers oldName newName d (renameParents d)).findSome? f.move with
  | none =>
    have hall : movedTiers f (dueTiers oldName newName d (renameParents d)) =
        dueTiers oldName newName d (renameParents d) := by
      rw [movedTiers, List.takeWhile_eq_self_iff]
      intro t ht
      rw [Option.isNone_iff_eq_none]
      exact List.findSome?_eq_none_iff.mp hmove t ht
    have hdue : (fun t => decide (t ∈ dueTiers oldName newName d (renameParents d))) =
        d.due oldName newName := by
      funext t
      rw [Bool.eq_iff_iff, decide_eq_true_eq]
      exact mem_dueTiers
    simp only [hall]
    rw [← hdue]
  | some text =>
    have hsub : movedTiers f (dueTiers oldName newName d (renameParents d)) ⊆
        dueTiers oldName newName d (renameParents d) := List.takeWhile_subset _
    have hnodup : (movedTiers f (dueTiers oldName newName d (renameParents d))).Nodup :=
      (List.takeWhile_sublist _).nodup ((nodup_renameParents d).filter _)
    refine Prod.ext ?_ rfl
    show undoAll f oldName newName _ _ = _
    rw [undoAll_eq (List.nodup_reverse.mpr hnodup)]
    · congr 1
      funext t
      by_cases ht : t ∈ movedTiers f (dueTiers oldName newName d (renameParents d))
      · simp [ht]
      · simp [ht]
    · intro t ht
      simpa using ht
    · intro t ht
      exact mem_dueTiers.mp (hsub (List.mem_reverse.mp ht))

/-- Where a storage parent is missing, nothing is moved. -/
theorem renameAppStorageDirs_missing (h : Host) (f : Faults α) (oldName newName : AppName)
    {d : Dirs α} {t : Tier}
    (hmissing : ([Tier.appData, Tier.appTempData].find? fun t => (d t).isNone) = some t) :
    ∃ text, renameAppStorageDirs h f oldName newName d = (d, some text) := by
  unfold renameAppStorageDirs
  rw [hmissing]
  exact ⟨_, rfl⟩

/-! ## The request -/

/-- `REPLACE(path, '/old/', '/new/')` -/
def replaceName (oldName newName : AppName) (path : String) : String :=
  String.ofList (Replace.replaceAll (Replace.delimit '/' oldName.val.toList)
    (Replace.delimit '/' newName.val.toList) path.toList)

/-- The response to `rename_app`. -/
inductive Response where
  | validation (detail : String)
  | notFound (detail : String)
  | conflict (detail : String)
  | unavailable (detail : String)
  | ok (name : AppName) (appId : Option String)
  /-- An error on the server, with the text that `rename_app` gives the owner, if any. -/
  | serverError (output : Option String)
  deriving DecidableEq

/-- `APP_ID_LENGTH` -/
def appIdLength : Nat := 12

/-- `is_valid_app_id` -/
def isValidAppId (s : String) : Bool :=
  s.toList.length = appIdLength &&
    s.toList.all (· ∈ "123456789ABCDEFGHJKLMNPQRSTUVWXYZabcdefghijkmnopqrstuvwxyz".toList)

/-- `stop_app_process` -/
def stopAppProcess (f : Faults α) (row : AppRow) (s : Store α) : Store α :=
  if (truthy? row.containerId).isSome && !f.stop then
    { s with running := fun appId => if appId = row.appId then false else s.running appId }
  else s

/-- `SET status = 'stopped', container_id = NULL` -/
def AppRow.setStopped (a : AppRow) : AppRow := { a with status := .stopped, containerId := none }

/-- `SET status = ?, container_id = ?`, with the values of the row read before. -/
def AppRow.restore (prior : AppRow) (a : AppRow) : AppRow :=
  { a with status := prior.status, containerId := prior.containerId }

/-- `SET name = ?, repo_path = REPLACE(repo_path, ?, ?)` -/
def AppRow.setName (oldName newName : AppName) (a : AppRow) : AppRow :=
  { a with name := newName, repoPath := replaceName oldName newName a.repoPath }

/-- `SET db_path = REPLACE(db_path, ?, ?)` -/
def DatabaseRow.setName (oldName newName : AppName) (r : DatabaseRow) : DatabaseRow :=
  { r with dbPath := replaceName oldName newName r.dbPath }

/-- `was_running` -/
def wasRunning (row : AppRow) : Bool :=
  row.status = .running || row.status = .starting || row.status = .building

/-- The text for directories that could not be moved. -/
def dirsMessage (h : Host) (appId : String) (renameError : String) (rollbackDbError : Option String) :
    String :=
  "Failed to rename app data directories: " ++ renameError ++
    match rollbackDbError with
    | none => ""
    | some dbError =>
      "; additionally, the DB-status rollback failed: " ++ dbError ++
        ".  Check the apps table; the row for app_id=" ++ h.repr appId ++
        " may be stuck at status='stopped'."

/-- The rename itself, from the stop of the container to the rewritten rows; `none` where it is done,
or the error that is reported. -/
def renameRowsAndDirs (h : Host) (f : Faults α) (row : AppRow) (newName : AppName) (s : Store α) :
    Store α × Option Response :=
  let s := stopAppProcess f row s
  if f.markStopped then (s, some (.serverError none))
  else
    let s := s.updateApp row.appId AppRow.setStopped
    match renameAppStorageDirs h f row.name newName s.dirs with
    | (d, some renameError) =>
      let s := { s with dirs := d }
      let output := dirsMessage h row.appId renameError f.restore
      match f.restore with
      | none => (s.updateApp row.appId (AppRow.restore row), some (.serverError (some output)))
      | some _ => (s, some (.serverError (some output)))
    | (d, none) =>
      let s := { s with dirs := d }
      -- no handler: the transaction is lost with the connection
      if f.rewrite then (s, some (.serverError none))
      else
        ((s.updateApp row.appId (AppRow.setName row.name newName)).updateDatabases row.appId
          (DatabaseRow.setName row.name newName), none)

/-- The restart of an app that was running; its failure is recorded in the row. -/
def restartApp (f : Faults α) (row : AppRow) (newName : AppName) (s : Store α) : Store α × Response :=
  let done := Response.ok newName (some row.appId)
  if wasRunning row then
    let r := f.restart row s
    let s := { s.updateApp row.appId fun a =>
        { a with status := r.status, containerId := r.containerId, errorMessage := r.errorMessage }
      with
        dirs := r.dirs
        running := fun appId => if appId = row.appId then r.running else s.running appId }
    match r.raised with
    | none => (s, done)
    | some (.known message) =>
      (s.updateApp row.appId fun a => { a with status := .error, errorMessage := some message }, done)
    | some .other => (s, .serverError none)
  else (s, done)

/-- What the checks of `rename_app` let through. -/
inductive Checked where
  | refused (r : Response)
  | accepted (row : AppRow) (newName : AppName)

/-- The checks of `rename_app`. -/
def checkRename (h : Host) (appId name : String) (s : Store α) : Checked :=
  if stripBlank name = "" then .refused (.validation "Name is required")
  else if hvalid : isValidAppName (stripBlank name) = true then
    if "/" ++ stripBlank name ∈ reservedPaths then
      .refused (.validation ("Name '" ++ stripBlank name ++ "' conflicts with a reserved path"))
    else if !isValidAppId appId then .refused (.validation "Invalid app_id")
    else
      match s.findApp appId with
      | none => .refused (.notFound "App not found")
      | some row =>
        if row.status = .removing then .refused (.conflict "App is being removed")
        else if manifestUsesArchive h (row.manifestRaw.getD "") && !h.archiveHealthy then
          .refused (.unavailable ("Archive backend is not healthy; refusing to rename " ++
            "an archive-using app until the JuiceFS mount is live " ++
            "again (see the dashboard's Archive backend panel)."))
        else if stripBlank name = row.name.val then .refused (.ok row.name none)
        else if s.apps.any (·.name.val = stripBlank name) then
          .refused (.conflict ("Name already in use by '" ++ stripBlank name ++ "'"))
        else .accepted row ⟨stripBlank name, hvalid⟩
  else
    .refused (.validation "Name must be lowercase alphanumeric (hyphens allowed, not at start/end)")

/-- `rename_app`, up to the restart: what the restarted app finds. -/
def renamed (h : Host) (f : Faults α) (appId name : String) (s : Store α) : Store α :=
  match checkRename h appId name s with
  | .refused _ => s
  | .accepted row newName => (renameRowsAndDirs h f row newName s).1

/-- `rename_app` -/
def renameApp (h : Host) (f : Faults α) (appId name : String) (s : Store α) : Store α × Response :=
  match checkRename h appId name s with
  | .refused r => (s, r)
  | .accepted row newName =>
    match renameRowsAndDirs h f row newName s with
    | (s, some r) => (s, r)
    | (s, none) => restartApp f row newName s

/-! ### What the container's stop and the moves leave -/

theorem stopAppProcess_apps (f : Faults α) (row : AppRow) (s : Store α) :
    (stopAppProcess f row s).apps = s.apps := by
  unfold stopAppProcess
  split <;> rfl

theorem stopAppProcess_databases (f : Faults α) (row : AppRow) (s : Store α) :
    (stopAppProcess f row s).databases = s.databases := by
  unfold stopAppProcess
  split <;> rfl

theorem stopAppProcess_dirs (f : Faults α) (row : AppRow) (s : Store α) :
    (stopAppProcess f row s).dirs = s.dirs := by
  unfold stopAppProcess
  split <;> rfl

theorem findApp_stopAppProcess (f : Faults α) (row : AppRow) (s : Store α) (appId : String) :
    (stopAppProcess f row s).findApp appId = s.findApp appId := by
  rw [Store.findApp, stopAppProcess_apps]
  rfl

/-- Directories that have been moved without an error are all that were to be moved. -/
theorem renameAppStorageDirs_done {h : Host} {f : Faults α} {oldName newName : AppName}
    {d d' : Dirs α} (hdone : renameAppStorageDirs h f oldName newName d = (d', none)) :
    d' = d.moveWhere (d.due oldName newName) oldName newName := by
  cases hfind : [Tier.appData, Tier.appTempData].find? fun t => (d t).isNone with
  | some t =>
    obtain ⟨text, htext⟩ := renameAppStorageDirs_missing h f oldName newName hfind
    rw [htext] at hdone
    cases hdone
  | none =>
    have hparents : ∀ t ∈ [Tier.appData, Tier.appTempData], (d t).isNone = false := by
      intro t ht
      rw [Bool.eq_false_iff]
      exact List.find?_eq_none.mp hfind t ht
    rw [renameAppStorageDirs_eq h f oldName newName hparents] at hdone
    split at hdone
    · cases hdone
      rfl
    · cases hdone

/-! ### What the checks let through -/

/-- An accepted request is for an app that is not being removed, and has another name. -/
theorem checkRename_accepted {h : Host} {appId name : String} {s : Store α} {row : AppRow}
    {newName : AppName} (hchk : checkRename h appId name s = .accepted row newName) :
    s.findApp appId = some row ∧ row.name ≠ newName := by
  unfold checkRename at hchk
  split at hchk
  · cases hchk
  split at hchk
  · split at hchk
    · cases hchk
    split at hchk
    · cases hchk
    cases hfind : s.findApp appId with
    | none =>
      rw [hfind] at hchk
      cases hchk
    | some found =>
      rw [hfind] at hchk
      dsimp only at hchk
      split at hchk
      · cases hchk
      split at hchk
      · cases hchk
      split at hchk
      · cases hchk
      rename_i hname
      split at hchk
      · cases hchk
      · cases hchk
        exact ⟨rfl, fun heq => hname (by rw [heq])⟩
  · cases hchk

/-- A request that is answered without a rename is for the name the app has. -/
theorem checkRename_refused_ok {h : Host} {appId name : String} {s : Store α} {newName : AppName}
    {id : Option String} (hchk : checkRename h appId name s = .refused (.ok newName id)) :
    ∃ row, s.findApp appId = some row ∧ row.name = newName := by
  unfold checkRename at hchk
  split at hchk
  · cases hchk
  split at hchk
  · split at hchk
    · cases hchk
    split at hchk
    · cases hchk
    cases hfind : s.findApp appId with
    | none =>
      rw [hfind] at hchk
      cases hchk
    | some found =>
      rw [hfind] at hchk
      dsimp only at hchk
      split at hchk
      · cases hchk
      split at hchk
      · cases hchk
      split at hchk
      · cases hchk
        exact ⟨found, rfl, rfl⟩
      split at hchk
      · cases hchk
      · cases hchk
  · cases hchk

end OpenHost.Rename

import Mathlib.Data.List.Forall2
import OpenHost.Apps.Rename

/-!
# What a renamed app finds

A path that was recorded for the app goes with the directory it is in, and a tier shows under the new
name what it showed under the old one, exactly if the old name is no other part of the paths and the
new name is free in the tier.
-/

namespace OpenHost.Rename

open Apps (isValidAppName)

variable {α : Type}

/-! ## What is to hold -/

/-- The path is that of the app's directory in the tier, or of something in it. -/
structure Below (root : String) (name : AppName) (t : Tier) (suffix path : String) : Prop where
  path : path = t.appDir root name ++ suffix
  suffix : suffix = "" ∨ ∃ rest, suffix = "/" ++ rest

/-- A path in a directory of the app is now in the directory under the new name; another path stays. -/
structure PathMoved (root : String) (oldName newName : AppName) (path path' : String) : Prop where
  moved : ∀ t suffix, Below root oldName t suffix path → path' = t.appDir root newName ++ suffix
  kept : (∀ t suffix, ¬ Below root oldName t suffix path) → path' = path

/-- The rows name the directories the data was moved to, and the app sees in every tier the data it
had. -/
structure Kept (root : String) (row : AppRow) (newName : AppName) (s s' : Store α) : Prop where
  repo : ∃ row', s'.findApp row.appId = some row' ∧ row'.name = newName ∧
    PathMoved root row.name newName row.repoPath row'.repoPath
  databases : List.Forall₂ (fun r r' => r'.appId = r.appId ∧ r'.dbName = r.dbName ∧
    if r.appId = row.appId then PathMoved root row.name newName r.dbPath r'.dbPath
    else r'.dbPath = r.dbPath) s.databases s'.databases
  data : ∀ t, s'.dirs.entry t newName = s.dirs.entry t row.name

/-! ## When it does -/

/-- The name is one of the components of the path that have a slash on both sides. -/
def Occurs (name : AppName) (path : String) : Prop :=
  Replace.delimit '/' name.val.toList <:+: path.toList

instance (name : AppName) (path : String) : Decidable (Occurs name path) :=
  inferInstanceAs (Decidable (_ <:+: _))

/-- In a directory of the app the name is that of the directory only; elsewhere it is nowhere. -/
structure PathMovable (root : String) (name : AppName) (path : String) : Prop where
  below : ∀ t suffix, Below root name t suffix path → ∃ rest, suffix = "/" ++ rest ∧
    ¬ Occurs name (t.parent root ++ "/") ∧ ¬ Occurs name rest
  elsewhere : (∀ t suffix, ¬ Below root name t suffix path) → ¬ Occurs name path

/-- Every recorded path can be rewritten, and the new name is free or holds the same. -/
structure Movable (root : String) (row : AppRow) (newName : AppName) (s : Store α) : Prop where
  repo : PathMovable root row.name row.repoPath
  databases : ∀ r ∈ s.databases, r.appId = row.appId → PathMovable root row.name r.dbPath
  data : ∀ t, s.dirs.entry t newName = none ∨
    s.dirs.entry t newName = s.dirs.entry t row.name

/-! ## Paths -/

/-- What a name can hold besides letters, digits and hyphens is a final line break. -/
theorem not_mem_name (name : AppName) {c : Char} (hc : (Apps.isNameChar c || c = '-') = false)
    (hbreak : c ∉ "\n".toList) : c ∉ name.val.toList := by
  intro hmem
  have hvalid := name.property
  simp only [isValidAppName, Bool.and_eq_true, List.all_eq_true] at hvalid
  have hchars := hvalid.2
  have hnot : ∀ l : List Char, (∀ x ∈ l, (Apps.isNameChar x || x = '-') = true) → c ∉ l := by
    intro l hl hcl
    rw [hl c hcl] at hc
    cases hc
  cases hstrip : Text.stripSuffix? "\n" name.val with
  | none =>
    rw [hstrip, Option.getD_none] at hchars
    exact hnot _ hchars hmem
  | some s =>
    -- only the stripped line break is not checked
    rw [hstrip, Option.getD_some] at hchars
    rw [Text.stripSuffix?_eq_some_iff] at hstrip
    rw [hstrip, String.toList_append, List.mem_append] at hmem
    exact hmem.elim (hnot _ hchars) hbreak

theorem slash_not_mem (name : AppName) : '/' ∉ name.val.toList :=
  not_mem_name name (by decide) (by decide)

theorem toList_ne {oldName newName : AppName} (h : oldName ≠ newName) :
    oldName.val.toList ≠ newName.val.toList :=
  fun heq => h (Subtype.ext (String.toList_inj.mp heq))

theorem endsWith_slash_append (a : String) {b : String} (hb : b ≠ "") :
    Text.endsWith (a ++ b) "/" = Text.endsWith b "/" := by
  have hlen : "/".toList.length ≤ b.toList.length := by
    have hpos : b.toList ≠ [] := fun hnil => hb (String.toList_eq_nil_iff.mp hnil)
    exact List.length_pos_iff.mpr hpos
  rw [Bool.eq_iff_iff, Text.endsWith, Text.endsWith, List.isSuffixOf_iff_suffix,
    List.isSuffixOf_iff_suffix, String.toList_append]
  constructor
  · intro h
    exact List.suffix_of_suffix_length_le h (List.suffix_append _ _) hlen
  · intro h
    exact h.trans (List.suffix_append _ _)

/-- What is joined to a path that was joined to stands after a slash. -/
theorem join_join (a c : String) {b : String} (hb : b ≠ "") (hslash : Text.endsWith b "/" = false) :
    join (join a b) c = join a b ++ "/" ++ c := by
  have hjoin : ∃ x, join a b = x ++ b := by
    unfold join
    split
    · exact ⟨a, rfl⟩
    · exact ⟨a ++ "/", rfl⟩
  obtain ⟨x, hx⟩ := hjoin
  rw [join, if_neg]
  rintro (hempty | hends)
  · rw [hx, String.append_eq_empty_iff] at hempty
    exact hb hempty.2
  · rw [hx, endsWith_slash_append x hb, hslash] at hends
    exact Bool.noConfusion hends

theorem appDir_eq (root : String) (t : Tier) (name : AppName) :
    t.appDir root name = t.parent root ++ "/" ++ name.val := by
  cases t with
  | appData => exact join_join _ _ (by decide) (by decide)
  | appTempData => exact join_join _ _ (by decide) (by decide)
  | appArchive => exact join_join _ _ (by decide) (by decide)

section Replacing

variable {oldName newName : AppName} (hne : oldName ≠ newName)
include hne

/-- A path below the app's directory is rewritten as it should. -/
theorem replaceName_below_iff (root : String) (t : Tier) (rest : String) :
    replaceName oldName newName (t.appDir root oldName ++ ("/" ++ rest)) =
        t.appDir root newName ++ ("/" ++ rest) ↔
      ¬ Occurs oldName (t.parent root ++ "/") ∧ ¬ Occurs oldName rest := by
  have hlist : ∀ name : AppName, (t.appDir root name ++ ("/" ++ rest)).toList =
      (t.parent root).toList ++ (Replace.delimit '/' name.val.toList ++ rest.toList) := by
    intro name
    rw [appDir_eq, Replace.delimit_append]
    simp
  rw [← String.toList_inj, replaceName, String.toList_ofList, hlist, hlist,
    Replace.replaceAll_segment_iff (slash_not_mem oldName) (slash_not_mem newName) (toList_ne hne),
    Occurs, Occurs, String.toList_append]
  exact Iff.rfl

/-- The app's directory itself is not. -/
theorem replaceName_appDir_ne (root : String) (t : Tier) :
    replaceName oldName newName (t.appDir root oldName) ≠ t.appDir root newName := by
  have hlist : ∀ name : AppName, (t.appDir root name).toList =
      (t.parent root).toList ++ '/' :: name.val.toList := by
    intro name
    rw [appDir_eq]
    simp
  rw [ne_eq, ← String.toList_inj, replaceName, String.toList_ofList, hlist, hlist]
  exact Replace.replaceAll_last_ne (slash_not_mem oldName) (slash_not_mem newName) (toList_ne hne)

theorem replaceName_eq_self_iff (path : String) :
    replaceName oldName newName path = path ↔ ¬ Occurs oldName path := by
  rw [← String.toList_inj, replaceName, String.toList_ofList]
  exact Replace.replaceAll_eq_self_iff (slash_not_mem oldName) (slash_not_mem newName)
    (toList_ne hne)

theorem pathMoved_iff (root path : String) :
    PathMoved root oldName newName path (replaceName oldName newName path) ↔
      PathMovable root oldName path := by
  have hbelow : ∀ t suffix, Below root oldName t suffix path →
      (replaceName oldName newName path = t.appDir root newName ++ suffix ↔
        ∃ rest, suffix = "/" ++ rest ∧ ¬ Occurs oldName (t.parent root ++ "/") ∧
          ¬ Occurs oldName rest) := by
    intro t suffix h
    rcases h.suffix with rfl | ⟨rest, rfl⟩
    · refine iff_of_false ?_ ?_
      · rw [h.path, String.append_empty, String.append_empty]
        exact replaceName_appDir_ne hne root t
      · rintro ⟨rest, hrest, -⟩
        have := congrArg String.toList hrest
        simp at this
    · rw [h.path, replaceName_below_iff hne]
      constructor
      · exact fun hclear => ⟨rest, rfl, hclear⟩
      · rintro ⟨rest', hrest, hclear⟩
        rw [Text.append_toList_inj hrest]
        exact hclear
  constructor
  · intro h
    exact ⟨fun t suffix hb => (hbelow t suffix hb).mp (h.moved t suffix hb),
      fun hout => (replaceName_eq_self_iff hne path).mp (h.kept hout)⟩
  · intro h
    exact ⟨fun t suffix hb => (hbelow t suffix hb).mpr (h.below t suffix hb),
      fun hout => (replaceName_eq_self_iff hne path).mpr (h.elsewhere hout)⟩

end Replacing

/-! ## The rename -/

/-- What a rename that is done has made of the store. -/
theorem renameRowsAndDirs_done {h : Host} {f : Faults α} {row : AppRow} {newName : AppName}
    {s s' : Store α} (hdone : renameRowsAndDirs h f row newName s = (s', none))
    (hrow : s.findApp row.appId = some row) :
    s'.findApp row.appId = some (row.setStopped.setName row.name newName) ∧
      s'.databases = s.databases.map (fun r =>
        if r.appId = row.appId then r.setName row.name newName else r) ∧
      s'.dirs = s.dirs.moveWhere (s.dirs.due row.name newName) row.name newName := by
  unfold renameRowsAndDirs at hdone
  dsimp only at hdone
  split at hdone
  · cases hdone
  rcases hmove : renameAppStorageDirs h f row.name newName
    ((stopAppProcess f row s).updateApp row.appId AppRow.setStopped).dirs with ⟨d, error⟩
  rw [hmove] at hdone
  cases error with
  | some error =>
    dsimp only at hdone
    split at hdone <;> cases hdone
  | none =>
    dsimp only at hdone
    split at hdone
    · cases hdone
    cases hdone
    have hdirs := renameAppStorageDirs_done hmove
    have hstopped : ((stopAppProcess f row s).updateApp row.appId AppRow.setStopped).findApp
        row.appId = some row.setStopped := by
      rw [Store.findApp_updateApp (f := AppRow.setStopped) fun _ => rfl, findApp_stopAppProcess,
        hrow]
      rfl
    refine ⟨?_, ?_, ?_⟩
    · show ((Store.updateApp row.appId (AppRow.setName row.name newName) _).findApp row.appId) = _
      rw [Store.findApp_updateApp (f := AppRow.setName row.name newName) fun _ => rfl]
      show ((((stopAppProcess f row s).updateApp row.appId AppRow.setStopped).findApp
        row.appId).map _) = _
      rw [hstopped]
      rfl
    · show ((stopAppProcess f row s).databases.map _) = _
      rw [stopAppProcess_databases]
    · show d = _
      rw [hdirs]
      show (stopAppProcess f row s).dirs.moveWhere _ _ _ = _
      rw [stopAppProcess_dirs]
      show s.dirs.moveWhere ((stopAppProcess f row s).dirs.due _ _) _ _ = _
      rw [stopAppProcess_dirs]

/-- A rename that is done keeps the app's paths and data together exactly as `Movable` says. -/
theorem kept_iff {h : Host} {f : Faults α} {row : AppRow} {newName : AppName} {s s' : Store α}
    (hdone : renameRowsAndDirs h f row newName s = (s', none))
    (hrow : s.findApp row.appId = some row) (hne : row.name ≠ newName) :
    Kept h.dataRootDir row newName s s' ↔ Movable h.dataRootDir row newName s := by
  obtain ⟨hfound, hdbs, hdirs⟩ := renameRowsAndDirs_done hdone hrow
  have hrepo : (∃ row', s'.findApp row.appId = some row' ∧ row'.name = newName ∧
      PathMoved h.dataRootDir row.name newName row.repoPath row'.repoPath) ↔
      PathMovable h.dataRootDir row.name row.repoPath := by
    rw [hfound, ← pathMoved_iff hne]
    constructor
    · rintro ⟨row', hrow', -, hmoved⟩
      cases hrow'
      exact hmoved
    · intro hmoved
      exact ⟨_, rfl, rfl, hmoved⟩
  have hdatabases : List.Forall₂ (fun r r' : DatabaseRow =>
      r'.appId = r.appId ∧ r'.dbName = r.dbName ∧
        if r.appId = row.appId then PathMoved h.dataRootDir row.name newName r.dbPath r'.dbPath
        else r'.dbPath = r.dbPath) s.databases s'.databases ↔
      ∀ r ∈ s.databases, r.appId = row.appId → PathMovable h.dataRootDir row.name r.dbPath := by
    rw [hdbs, List.forall₂_map_right_iff, List.forall₂_same]
    refine forall_congr' fun r => imp_congr_right fun _ => ?_
    by_cases hr : r.appId = row.appId
    · simp only [hr, if_true, DatabaseRow.setName, true_and, forall_true_left]
      exact pathMoved_iff hne h.dataRootDir r.dbPath
    · simp [hr]
  have hdata : (∀ t, s'.dirs.entry t newName = s.dirs.entry t row.name) ↔
      ∀ t, s.dirs.entry t newName = none ∨
        s.dirs.entry t newName = s.dirs.entry t row.name := by
    refine forall_congr' fun t => ?_
    rw [hdirs, Dirs.entry_moveWhere]
    unfold Dirs.due
    cases hold : s.dirs.entry t row.name with
    | none => simp
    | some x => cases hnew : s.dirs.entry t newName <;> simp
  constructor
  · intro hkept
    exact ⟨hrepo.mp hkept.repo, hdatabases.mp hkept.databases, hdata.mp hkept.data⟩
  · intro hmovable
    exact ⟨hrepo.mpr hmovable.repo, hdatabases.mpr hmovable.databases, hdata.mpr hmovable.data⟩

/-- A rename that is not done ends with an error of the server. -/
theorem renameRowsAndDirs_error {h : Host} {f : Faults α} {row : AppRow} {newName : AppName}
    {s s' : Store α} {r : Response} (hr : renameRowsAndDirs h f row newName s = (s', some r)) :
    ∃ output, r = .serverError output := by
  unfold renameRowsAndDirs at hr
  dsimp only at hr
  split at hr
  · cases hr
    exact ⟨_, rfl⟩
  split at hr
  · split at hr <;> cases hr <;> exact ⟨_, rfl⟩
  · split at hr
    · cases hr
      exact ⟨_, rfl⟩
    · cases hr

theorem restartApp_ok {f : Faults α} {row : AppRow} {newName newName' : AppName} {s : Store α}
    {id : Option String} (hok : (restartApp f row newName s).2 = .ok newName' id) :
    newName = newName' := by
  unfold restartApp at hok
  dsimp only at hok
  split at hok
  · split at hok
    · cases hok
      rfl
    · cases hok
      rfl
    · cases hok
  · cases hok
    rfl

/-- Where the name stays, so does the rest. -/
theorem kept_self (root : String) {row : AppRow} {s : Store α}
    (hrow : s.findApp row.appId = some row) : Kept root row row.name s s where
  repo := ⟨row, hrow, rfl, fun _ _ hbelow => hbelow.path, fun _ => rfl⟩
  databases := by
    rw [List.forall₂_same]
    intro r _
    refine ⟨rfl, rfl, ?_⟩
    split
    · exact ⟨fun _ _ hbelow => hbelow.path, fun _ => rfl⟩
    · rfl
  data := fun _ => rfl

/-- After a successful rename the recorded paths name the directories to which the app's data was
moved, and the app sees in every tier what it had, exactly if the name stays or `Movable` holds: the
old name is no other component of a recorded path, and no tier has something else under the new
name. -/
theorem renameApp_keeps_iff (h : Host) (f : Faults α) (appId name : String) (s : Store α)
    {row : AppRow} {newName : AppName} {id : Option String} (hrow : s.findApp appId = some row)
    (hok : (renameApp h f appId name s).2 = .ok newName id) :
    Kept h.dataRootDir row newName s (renamed h f appId name s) ↔
      row.name = newName ∨ Movable h.dataRootDir row newName s := by
  have hid := Store.findApp_appId hrow
  subst hid
  unfold renameApp at hok
  unfold renamed
  cases hchk : checkRename h row.appId name s with
  | refused r =>
    rw [hchk] at hok
    have hr : r = .ok newName id := hok
    rw [hr] at hchk
    obtain ⟨row', hrow', hname⟩ := checkRename_refused_ok hchk
    rw [hrow] at hrow'
    cases hrow'
    subst hname
    exact iff_of_true (kept_self _ hrow) (Or.inl rfl)
  | accepted row' newName' =>
    obtain ⟨hrow', hne⟩ := checkRename_accepted hchk
    rw [hrow] at hrow'
    cases hrow'
    rw [hchk] at hok
    dsimp only at hok ⊢
    rcases hdone : renameRowsAndDirs h f row newName' s with ⟨s', response⟩
    rw [hdone] at hok
    cases response with
    | some r =>
      -- an error is no success
      obtain ⟨output, rfl⟩ := renameRowsAndDirs_error hdone
      cases hok
    | none =>
      have hname := restartApp_ok hok
      subst hname
      rw [kept_iff hdone hrow hne]
      exact ⟨Or.inr, fun hor => hor.resolve_left hne⟩

/-! ### Two renames -/

/-- A host on which nothing uses the archive. -/
def plainHost (root : String) : Host where
  dataRootDir := root
  dataSection := fun _ => ⟨false, false, false, false⟩
  archiveHealthy := true
  repr := fun s => "'" ++ s ++ "'"

/-- Nothing goes wrong. -/
def noFaults : Faults Unit where
  stop := false
  markStopped := false
  move := fun _ => none
  undo := fun _ => false
  restore := none
  rewrite := false
  restart := fun row s => ⟨.running, row.containerId, none, true, s.dirs, none⟩

/-- A stopped app, its clone and one database. -/
def oneApp (root : String) (name : AppName) : Store Unit where
  apps := [⟨"111111111111", name, .stopped, none, none,
    Tier.appDir root .appTempData name ++ "/repo", none⟩]
  databases := [⟨"111111111111", "main", Tier.appDir root .appData name ++ "/sqlite/main.db"⟩]
  dirs := fun t => if t = .appArchive then none else some fun n => if n = name then some () else none
  running := fun _ => false

def notes : AppName := ⟨"notes", by decide +kernel⟩

def openhost : AppName := ⟨"openhost", by decide +kernel⟩

def hub : AppName := ⟨"hub", by decide +kernel⟩

/-- A path in one directory is in no other. -/
theorem below_unique {root path suffix : String} {name : AppName} {t : Tier}
    (hpath : path = t.appDir root name ++ suffix)
    (hother : ∀ t', t' ≠ t → Text.startsWith path (t'.appDir root name) = false)
    {t' : Tier} {suffix' : String} (h : Below root name t' suffix' path) :
    t' = t ∧ suffix' = suffix := by
  have ht : t' = t := by
    by_contra hne
    have hstarts : Text.startsWith path (t'.appDir root name) = true :=
      Text.startsWith_iff.mpr ⟨suffix', h.path⟩
    rw [hother t' hne] at hstarts
    exact Bool.noConfusion hstarts
  subst ht
  exact ⟨rfl, Text.append_toList_inj (h.path.symm.trans hpath)⟩

/-- A path in a directory of the app can be rewritten where the name is nowhere else in it. -/
theorem pathMovable_of {root : String} {name : AppName} (t : Tier) (rest : String)
    (hother : ∀ t', t' ≠ t →
      Text.startsWith (t.appDir root name ++ ("/" ++ rest)) (t'.appDir root name) = false)
    (hparent : ¬ Occurs name (t.parent root ++ "/")) (hrest : ¬ Occurs name rest) :
    PathMovable root name (t.appDir root name ++ ("/" ++ rest)) where
  below := by
    intro t' suffix h
    obtain ⟨rfl, rfl⟩ := below_unique rfl hother h
    exact ⟨rest, rfl, hparent, hrest⟩
  elsewhere := fun h => absurd ⟨rfl, Or.inr ⟨rest, rfl⟩⟩ (h t ("/" ++ rest))

theorem renameApp_keeps_notes :
    Kept "/srv" ⟨"111111111111", notes, .stopped, none, none,
        "/srv/temporary_data/app_temp_data/notes/repo", none⟩ hub (oneApp "/srv" notes)
      (renamed (plainHost "/srv") noFaults "111111111111" " hub " (oneApp "/srv" notes)) := by
  have hok : (renameApp (plainHost "/srv") noFaults "111111111111" " hub " (oneApp "/srv" notes)).2 =
      .ok hub (some "111111111111") := by
    decide +kernel
  have hrepo : "/srv/temporary_data/app_temp_data/notes/repo" =
      Tier.appDir "/srv" .appTempData notes ++ ("/" ++ "repo") := by
    decide +kernel
  have hdb : Tier.appDir "/srv" .appData notes ++ "/sqlite/main.db" =
      Tier.appDir "/srv" .appData notes ++ ("/" ++ "sqlite/main.db") := by
    decide +kernel
  refine (renameApp_keeps_iff (plainHost "/srv") noFaults "111111111111" " hub "
    (oneApp "/srv" notes) (by decide +kernel) hok).mpr (Or.inr ⟨?_, ?_, ?_⟩)
  · show PathMovable "/srv" notes "/srv/temporary_data/app_temp_data/notes/repo"
    rw [hrepo]
    refine pathMovable_of .appTempData "repo" ?_ (by decide +kernel) (by decide +kernel)
    rintro (_ | _ | _) hne <;> first | exact absurd rfl hne | decide +kernel
  · intro r hr _
    rw [List.mem_singleton.mp hr]
    show PathMovable "/srv" notes (Tier.appDir "/srv" .appData notes ++ "/sqlite/main.db")
    rw [hdb]
    refine pathMovable_of .appData "sqlite/main.db" ?_ (by decide +kernel) (by decide +kernel)
    rintro (_ | _ | _) hne <;> first | exact absurd rfl hne | decide +kernel
  · rintro (_ | _ | _) <;> exact Or.inl (by decide +kernel)

/-- The name of the app is also a directory above the data root, and is replaced there too. -/
theorem renaming_breaks_path_above_root :
    ¬ ∀ (h : Host) (f : Faults Unit) (appId name : String) (s : Store Unit) (row : AppRow)
        (newName : AppName) (id : Option String), s.findApp appId = some row →
      (renameApp h f appId name s).2 = .ok newName id →
        Kept h.dataRootDir row newName s (renamed h f appId name s) := by
  intro hkept
  have hk := hkept (plainHost "/opt/openhost") noFaults "111111111111" "hub"
    (oneApp "/opt/openhost" openhost)
    ⟨"111111111111", openhost, .stopped, none, none,
      "/opt/openhost/temporary_data/app_temp_data/openhost/repo", none⟩
    hub (some "111111111111") (by decide +kernel) (by decide +kernel)
  obtain ⟨row', hrow', -, hmoved⟩ := hk.repo
  have hpath := hmoved.moved .appTempData "/repo" ⟨by decide +kernel, Or.inr ⟨"repo", by decide⟩⟩
  have hfound : (renamed (plainHost "/opt/openhost") noFaults "111111111111" "hub"
      (oneApp "/opt/openhost" openhost)).findApp "111111111111" = some
        ⟨"111111111111", hub, .stopped, none, none,
          "/opt/hub/temporary_data/app_temp_data/hub/repo", none⟩ := by
    decide +kernel
  have hrepo : row'.repoPath = "/opt/hub/temporary_data/app_temp_data/hub/repo" := by
    rw [hfound] at hrow'
    cases hrow'
    rfl
  rw [hrepo] at hpath
  exact absurd hpath (by decide +kernel)

end OpenHost.Rename

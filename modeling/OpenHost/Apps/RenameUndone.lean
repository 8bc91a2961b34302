import OpenHost.Apps.Renamed

/-!
# A rename that fails

The errors `rename_app` reports, and when the app is then as it was before the request.  The row gets
its old status back where the directories could not be moved, but the container stays stopped; a
failure after the moves is not undone.
-/

namespace OpenHost.Rename

open Text (truthy?)

variable {α : Type}

/-! ## What is to hold, and when it does -/

/-- The row, the recorded paths and the directories are those from before, and the row says that the
app is running exactly if a container of it is. -/
structure AsBefore (row : AppRow) (s s' : Store α) : Prop where
  found : s'.findApp row.appId = some row
  databases : s'.databases = s.databases
  dirs : s'.dirs = s.dirs
  agrees : row.status = .running ↔ s'.running row.appId = true

/-- The container runs after the stop: it is not stopped, or `stop_app_process` knows of none. -/
def stillRunning (f : Faults α) (row : AppRow) (s : Store α) : Bool :=
  s.running row.appId && (f.stop || (truthy? row.containerId).isNone)

/-- One of the two parents that have to be there is not. -/
def parentMissing (d : Dirs α) : Prop := ∃ t ∈ [Tier.appData, Tier.appTempData], (d t).isNone = true

/-- The row says already what is recorded after the stop. -/
structure AppRow.IsStopped (row : AppRow) : Prop where
  status : row.status = .stopped
  containerId : row.containerId = none

/-- The tiers in which the app's directory is to be moved. -/
def dueOf (row : AppRow) (newName : AppName) (s : Store α) : List Tier :=
  dueTiers row.name newName s.dirs (renameParents s.dirs)

/-- What was done before the failing step is undone, or was nothing. -/
inductive UndoneAt (f : Faults α) (row : AppRow) (newName : AppName) (s : Store α) : Prop where
  | markStopped (hmark : f.markStopped = true)
  | directories
    (hfails : parentMissing s.dirs ∨ (∃ t ∈ dueOf row newName s, (f.move t).isSome) ∧
      ∀ t ∈ movedTiers f (dueOf row newName s), f.undo t = false)
    (hrow : f.restore = none ∨ row.IsStopped)
  | rows (hparents : ¬ parentMissing s.dirs) (hmoves : ∀ t ∈ dueOf row newName s, f.move t = none)
    (hrewrite : f.rewrite = true) (hrow : row.IsStopped) (hdue : dueOf row newName s = [])

/-- The failing step leaves nothing behind, and the row is right about the container. -/
structure Undone (f : Faults α) (row : AppRow) (newName : AppName) (s : Store α) : Prop where
  agrees : row.status = .running ↔ stillRunning f row s = true
  at_step : UndoneAt f row newName s

/-! ## Lemmas -/

theorem running_stopAppProcess (f : Faults α) (row : AppRow) (s : Store α) :
    (stopAppProcess f row s).running row.appId = stillRunning f row s := by
  unfold stopAppProcess stillRunning
  cases (truthy? row.containerId) with
  | none => simp
  | some c => cases f.stop <;> simp

theorem setStopped_eq_iff {row : AppRow} : row.setStopped = row ↔ row.IsStopped := by
  constructor
  · intro h
    exact ⟨by rw [← h]; rfl, by rw [← h]; rfl⟩
  · rintro ⟨hstatus, hcontainer⟩
    cases row
    cases hstatus
    cases hcontainer
    rfl

/-- The row after the app was recorded as stopped. -/
theorem findApp_setStopped (f : Faults α) {row : AppRow} {s : Store α}
    (hrow : s.findApp row.appId = some row) :
    ((stopAppProcess f row s).updateApp row.appId AppRow.setStopped).findApp row.appId =
      some row.setStopped := by
  rw [Store.findApp_updateApp (f := AppRow.setStopped) fun _ => rfl, findApp_stopAppProcess, hrow]
  rfl

/-! ## The directories -/

theorem find_parent_eq_none {d : Dirs α} (h : ¬ parentMissing d) :
    ∀ t ∈ [Tier.appData, Tier.appTempData], (d t).isNone = false := by
  intro t ht
  rw [Bool.eq_false_iff]
  exact fun hnone => h ⟨t, ht, hnone⟩

/-- Directories that could not be moved are as before exactly if every move back went through. -/
theorem renameAppStorageDirs_error {h : Host} {f : Faults α} {oldName newName : AppName}
    {d d' : Dirs α} {text : String}
    (herr : renameAppStorageDirs h f oldName newName d = (d', some text)) :
    (d' = d ↔ parentMissing d ∨
      (∃ t ∈ dueTiers oldName newName d (renameParents d), (f.move t).isSome) ∧
        ∀ t ∈ movedTiers f (dueTiers oldName newName d (renameParents d)), f.undo t = false) ∧
      (parentMissing d ∨ ∃ t ∈ dueTiers oldName newName d (renameParents d), (f.move t).isSome) := by
  by_cases hmissing : parentMissing d
  · cases hfind : [Tier.appData, Tier.appTempData].find? fun t => (d t).isNone with
    | none =>
      obtain ⟨t, ht, hnone⟩ := hmissing
      exact absurd hnone (List.find?_eq_none.mp hfind t ht)
    | some t =>
      obtain ⟨text', htext⟩ := renameAppStorageDirs_missing h f oldName newName hfind
      rw [htext] at herr
      cases herr
      exact ⟨iff_of_true rfl (Or.inl hmissing), Or.inl hmissing⟩
  · rw [renameAppStorageDirs_eq h f oldName newName (find_parent_eq_none hmissing)] at herr
    cases hmove : (dueTiers oldName newName d (renameParents d)).findSome? f.move with
    | none =>
      rw [hmove] at herr
      cases herr
    | some text' =>
      rw [hmove] at herr
      cases herr
      have hfails : ∃ t ∈ dueTiers oldName newName d (renameParents d), (f.move t).isSome := by
        obtain ⟨t, ht, hsome⟩ := List.exists_of_findSome?_eq_some hmove
        exact ⟨t, ht, by rw [hsome]; rfl⟩
      refine ⟨?_, Or.inr hfails⟩
      rw [Dirs.moveWhere_eq_self_iff]
      · constructor
        · intro hall
          refine Or.inr ⟨hfails, fun t ht => ?_⟩
          have hundo := hall t
          rw [Bool.and_eq_false_imp, decide_eq_true_eq] at hundo
          exact hundo ht
        · intro hor t
          have hundo := (hor.resolve_left hmissing).2
          by_cases ht : t ∈ movedTiers f (dueTiers oldName newName d (renameParents d))
          · simp [hundo t ht]
          · simp [ht]
      · intro t ht
        rw [Bool.and_eq_true, decide_eq_true_eq] at ht
        exact mem_dueTiers.mp (List.takeWhile_subset _ ht.1)

theorem renameAppStorageDirs_none {h : Host} {f : Faults α} {oldName newName : AppName}
    {d d' : Dirs α} (hdone : renameAppStorageDirs h f oldName newName d = (d', none)) :
    ¬ parentMissing d ∧ ∀ t ∈ dueTiers oldName newName d (renameParents d), f.move t = none := by
  have hparents : ¬ parentMissing d := by
    rintro ⟨t, ht, hnone⟩
    cases hfind : [Tier.appData, Tier.appTempData].find? fun t => (d t).isNone with
    | none => exact List.find?_eq_none.mp hfind t ht hnone
    | some t' =>
      obtain ⟨text, htext⟩ := renameAppStorageDirs_missing h f oldName newName hfind
      rw [htext] at hdone
      cases hdone
  refine ⟨hparents, ?_⟩
  rw [renameAppStorageDirs_eq h f oldName newName (find_parent_eq_none hparents)] at hdone
  split at hdone
  · rename_i hmove
    exact List.findSome?_eq_none_iff.mp hmove
  · cases hdone

/-! ## The rows -/

/-- Where the app was recorded as stopped and the directories could not be moved, that is the step
that failed. -/
theorem UndoneAt.of_directories {f : Faults α} {row : AppRow} {newName : AppName} {s : Store α}
    (h : UndoneAt f row newName s) (hmark : ¬ f.markStopped = true)
    (hfails : parentMissing s.dirs ∨ ∃ t ∈ dueOf row newName s, (f.move t).isSome) :
    (parentMissing s.dirs ∨ (∃ t ∈ dueOf row newName s, (f.move t).isSome) ∧
      ∀ t ∈ movedTiers f (dueOf row newName s), f.undo t = false) ∧
      (f.restore = none ∨ row.IsStopped) := by
  cases h with
  | markStopped h => exact absurd h hmark
  | directories hundone hrow => exact ⟨hundone, hrow⟩
  | rows hparents hmoves =>
    rcases hfails with hmissing | ⟨t, ht, hsome⟩
    · exact absurd hmissing hparents
    · rw [hmoves t ht] at hsome
      cases hsome

/-- Where the directories were moved, the rows are what failed. -/
theorem UndoneAt.of_rows {f : Faults α} {row : AppRow} {newName : AppName} {s : Store α}
    (h : UndoneAt f row newName s) (hmark : ¬ f.markStopped = true)
    (hparents : ¬ parentMissing s.dirs) (hmoves : ∀ t ∈ dueOf row newName s, f.move t = none) :
    f.rewrite = true ∧ row.IsStopped ∧ dueOf row newName s = [] := by
  cases h with
  | markStopped h => exact absurd h hmark
  | directories hundone _ =>
    rcases hundone with hmissing | ⟨⟨t, ht, hsome⟩, -⟩
    · exact absurd hmissing hparents
    · rw [hmoves t ht] at hsome
      cases hsome
  | rows _ _ hrewrite hrow hdue => exact ⟨hrewrite, hrow, hdue⟩

/-- An error of the rename itself leaves everything as before exactly if `Undone` holds. -/
theorem asBefore_iff {h : Host} {f : Faults α} {row : AppRow} {newName : AppName} {s s' : Store α}
    {r : Response} (herr : renameRowsAndDirs h f row newName s = (s', some r))
    (hrow : s.findApp row.appId = some row) :
    AsBefore row s s' ↔ Undone f row newName s := by
  have hstopped := findApp_setStopped f hrow
  have hdirs : ((stopAppProcess f row s).updateApp row.appId AppRow.setStopped).dirs = s.dirs :=
    stopAppProcess_dirs f row s
  have hrunning := running_stopAppProcess f row s
  have hdatabases := stopAppProcess_databases f row s
  unfold renameRowsAndDirs at herr
  dsimp only at herr
  split at herr
  · -- the app could not be recorded as stopped
    rename_i hmark
    cases herr
    constructor
    · intro hbefore
      exact ⟨by rw [← hrunning]; exact hbefore.agrees, .markStopped hmark⟩
    · intro hundone
      refine ⟨?_, hdatabases, stopAppProcess_dirs f row s, ?_⟩
      · rw [findApp_stopAppProcess, hrow]
      · rw [hrunning]
        exact hundone.agrees
  rename_i hmark
  rw [hdirs] at herr
  rcases hmove : renameAppStorageDirs h f row.name newName s.dirs with ⟨d, error⟩
  rw [hmove] at herr
  cases error with
  | some text =>
    obtain ⟨hsame, hfails⟩ := renameAppStorageDirs_error hmove
    dsimp only at herr
    cases hrestore : f.restore with
    | none =>
      rw [hrestore] at herr
      cases herr
      -- the status and the container of the row are put back
      have hfound : (Store.updateApp row.appId (AppRow.restore row) { (stopAppProcess f row s).updateApp
          row.appId AppRow.setStopped with dirs := d }).findApp row.appId = some row := by
        rw [Store.findApp_updateApp (f := AppRow.restore row) fun _ => rfl]
        show Option.map _ (((stopAppProcess f row s).updateApp row.appId AppRow.setStopped).findApp
          row.appId) = _
        rw [hstopped]
        rfl
      constructor
      · intro hbefore
        exact ⟨by rw [← hrunning]; exact hbefore.agrees,
          .directories (hsame.mp hbefore.dirs) (Or.inl hrestore)⟩
      · intro hundone
        have hundo := (hundone.at_step.of_directories hmark hfails).1
        exact ⟨hfound, hdatabases, hsame.mpr hundo, by
          show _ ↔ (stopAppProcess f row s).running row.appId = true
          rw [hrunning]
          exact hundone.agrees⟩
    | some dbError =>
      rw [hrestore] at herr
      cases herr
      constructor
      · intro hbefore
        have hfound : some row.setStopped = some row := hstopped.symm.trans hbefore.found
        exact ⟨by rw [← hrunning]; exact hbefore.agrees,
          .directories (hsame.mp hbefore.dirs)
            (Or.inr (setStopped_eq_iff.mp (Option.some.inj hfound)))⟩
      · intro hundone
        obtain ⟨hundo, hrow'⟩ := hundone.at_step.of_directories hmark hfails
        have hkept : row.setStopped = row :=
          setStopped_eq_iff.mpr (hrow'.resolve_left (by rw [hrestore]; exact Option.some_ne_none _))
        exact ⟨hstopped.trans (by rw [hkept]), hdatabases, hsame.mpr hundo, by
          show _ ↔ (stopAppProcess f row s).running row.appId = true
          rw [hrunning]
          exact hundone.agrees⟩
  | none =>
    obtain ⟨hparents, hmoves⟩ := renameAppStorageDirs_none hmove
    have hsame : d = s.dirs ↔ dueOf row newName s = [] := by
      rw [renameAppStorageDirs_done hmove, Dirs.moveWhere_eq_self_iff fun _ ht => ht,
        List.eq_nil_iff_forall_not_mem]
      refine forall_congr' fun t => ?_
      rw [dueOf, mem_dueTiers, Bool.not_eq_true]
    dsimp only at herr
    split at herr
    · rename_i hrewrite
      cases herr
      constructor
      · intro hbefore
        have hfound : some row.setStopped = some row := hstopped.symm.trans hbefore.found
        exact ⟨by rw [← hrunning]; exact hbefore.agrees,
          .rows hparents hmoves hrewrite (setStopped_eq_iff.mp (Option.some.inj hfound))
            (hsame.mp hbefore.dirs)⟩
      · intro hundone
        obtain ⟨-, hrow', hdue⟩ := hundone.at_step.of_rows hmark hparents hmoves
        exact ⟨hstopped.trans (by rw [setStopped_eq_iff.mpr hrow']), hdatabases, hsame.mpr hdue, by
          show _ ↔ (stopAppProcess f row s).running row.appId = true
          rw [hrunning]
          exact hundone.agrees⟩
    · cases herr

/-- Where the rename is done, no step of it has failed. -/
theorem not_undoneAt_of_done {h : Host} {f : Faults α} {row : AppRow} {newName : AppName}
    {s s' : Store α} (hdone : renameRowsAndDirs h f row newName s = (s', none)) :
    ¬ UndoneAt f row newName s := by
  intro hundone
  unfold renameRowsAndDirs at hdone
  dsimp only at hdone
  split at hdone
  · cases hdone
  rename_i hmark
  have hdirs : ((stopAppProcess f row s).updateApp row.appId AppRow.setStopped).dirs = s.dirs :=
    stopAppProcess_dirs f row s
  rw [hdirs] at hdone
  rcases hmove : renameAppStorageDirs h f row.name newName s.dirs with ⟨d, error⟩
  rw [hmove] at hdone
  cases error with
  | some text =>
    dsimp only at hdone
    split at hdone <;> cases hdone
  | none =>
    obtain ⟨hparents, hmoves⟩ := renameAppStorageDirs_none hmove
    have hrewrite := (hundone.of_rows hmark hparents hmoves).1
    dsimp only at hdone
    rw [if_pos hrewrite] at hdone
    cases hdone

/-- A statement that keeps the name. -/
theorem exists_findApp_updateApp {f : AppRow → AppRow} (hid : ∀ a, (f a).appId = a.appId)
    (hname : ∀ a, (f a).name = a.name) {s : Store α} {appId : String} {row : AppRow}
    (hrow : s.findApp appId = some row) :
    ∃ row', (s.updateApp appId f).findApp appId = some row' ∧ row'.name = row.name :=
  ⟨f row, by rw [Store.findApp_updateApp hid, hrow]; rfl, hname row⟩

/-- The restart does not give the app its old name back. -/
theorem restartApp_name (f : Faults α) {row row' : AppRow} (newName : AppName) {s : Store α}
    (hrow : s.findApp row.appId = some row') :
    ∃ row'', (restartApp f row newName s).1.findApp row.appId = some row'' ∧
      row''.name = row'.name := by
  have hwritten := exists_findApp_updateApp (f := fun a : AppRow =>
    { a with
      status := (f.restart row s).status
      containerId := (f.restart row s).containerId
      errorMessage := (f.restart row s).errorMessage }) (fun _ => rfl) (fun _ => rfl) hrow
  unfold restartApp
  dsimp only
  split
  · split
    · exact hwritten
    · rename_i message _
      obtain ⟨row₁, hrow₁, hname₁⟩ := hwritten
      obtain ⟨row₂, hrow₂, hname₂⟩ := exists_findApp_updateApp (f := fun a : AppRow =>
        { a with status := .error, errorMessage := some message }) (fun _ => rfl) (fun _ => rfl) hrow₁
      exact ⟨row₂, hrow₂, hname₂.trans hname₁⟩
    · exact hwritten
  · exact ⟨row', hrow, rfl⟩

/-- When `rename_app` reports an error after the checks, the app's row, its paths and its directories
are as before the request, and the row is right about the container, exactly if `Undone` holds:
the row says that the app is running exactly if the stop left the container running, and the failing
step is the first statement, or the moves with every move back and the restoring statement going
through, or a later one with nothing changed before it. -/
theorem renameApp_undone_iff (h : Host) (f : Faults α) (appId name : String) (s : Store α)
    {row : AppRow} {newName : AppName} {output : Option String}
    (hchk : checkRename h appId name s = .accepted row newName)
    (herr : (renameApp h f appId name s).2 = .serverError output) :
    AsBefore row s (renameApp h f appId name s).1 ↔ Undone f row newName s := by
  obtain ⟨hrow, hne⟩ := checkRename_accepted hchk
  have hid := Store.findApp_appId hrow
  subst hid
  unfold renameApp at herr ⊢
  rw [hchk] at herr ⊢
  dsimp only at herr ⊢
  rcases hdone : renameRowsAndDirs h f row newName s with ⟨s', response⟩
  rw [hdone] at herr
  cases response with
  | some r => exact asBefore_iff hdone hrow
  | none =>
    -- the restart: the name is the new one
    obtain ⟨hfound, -, -⟩ := renameRowsAndDirs_done hdone hrow
    refine iff_of_false ?_ fun hundone => not_undoneAt_of_done hdone hundone.at_step
    intro hbefore
    obtain ⟨row'', hrow'', hname⟩ := restartApp_name f newName hfound
    have hsame : some row'' = some row := hrow''.symm.trans hbefore.found
    cases hsame
    exact hne hname

/-! ### A move that fails -/

/-- An app with a directory in every tier. -/
def threeTiers (status : Apps.Status) (containerId : Option String) (running : Bool) : Store Unit where
  apps := [⟨"111111111111", notes, status, containerId, none,
    "/srv/temporary_data/app_temp_data/notes/repo", none⟩]
  databases := []
  dirs := fun _ => some fun n => if n = notes then some () else none
  running := fun _ => running

/-- The archive cannot be written. -/
def archiveFails : Faults Unit :=
  { noFaults with move := fun t => if t = .appArchive then some "No space left on device" else none }

theorem renameApp_undone_notes :
    AsBefore ⟨"111111111111", notes, .stopped, none, none,
        "/srv/temporary_data/app_temp_data/notes/repo", none⟩ (threeTiers .stopped none false)
      (renameApp (plainHost "/srv") archiveFails "111111111111" "hub"
        (threeTiers .stopped none false)).1 := by
  have hchk : checkRename (plainHost "/srv") "111111111111" "hub" (threeTiers .stopped none false) =
      .accepted ⟨"111111111111", notes, .stopped, none, none,
        "/srv/temporary_data/app_temp_data/notes/repo", none⟩ hub := by
    rfl
  have herr : (renameApp (plainHost "/srv") archiveFails "111111111111" "hub"
      (threeTiers .stopped none false)).2 =
        .serverError (some "Failed to rename app data directories: No space left on device") := by
    decide +kernel
  refine (renameApp_undone_iff (plainHost "/srv") archiveFails "111111111111" "hub"
    (threeTiers .stopped none false) hchk herr).mpr ⟨by decide, ?_⟩
  refine .directories (Or.inr ⟨⟨.appArchive, by decide +kernel, by decide⟩, fun t _ => rfl⟩)
    (Or.inl rfl)

/-- The row of a running app says again that it is running, and its container is stopped. -/
theorem failed_move_leaves_running_row :
    ¬ ∀ (h : Host) (f : Faults Unit) (appId name : String) (s : Store Unit) (row : AppRow)
        (newName : AppName) (output : Option String),
      checkRename h appId name s = .accepted row newName →
        (renameApp h f appId name s).2 = .serverError output →
          AsBefore row s (renameApp h f appId name s).1 := by
  intro hbefore
  have hb := hbefore (plainHost "/srv") archiveFails "111111111111" "hub"
    (threeTiers .running (some "c1") true)
    ⟨"111111111111", notes, .running, some "c1", none,
      "/srv/temporary_data/app_temp_data/notes/repo", none⟩ hub
    (some "Failed to rename app data directories: No space left on device") rfl (by decide +kernel)
  have hstopped : (renameApp (plainHost "/srv") archiveFails "111111111111" "hub"
      (threeTiers .running (some "c1") true)).1.running "111111111111" = false := by
    decide +kernel
  have hrunning := hb.agrees.mp rfl
  rw [hstopped] at hrunning
  exact Bool.noConfusion hrunning

end OpenHost.Rename

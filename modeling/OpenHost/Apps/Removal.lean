import OpenHost.Apps.Steps

/-!
# Removal is final

`remove_app` claims the row by a compare and set, and stop, reload and rename turn away from a row
that is being removed.  But they read the row once and write it later, and the workers write it
without looking: a task that has an unconditional write of the status ahead of it when the removal is
claimed brings the app back.

`Task.mayWrite` names those tasks.  Where a removal is claimed only while none is in flight, nothing
but the removal changes the status afterwards (`removing_changed_by_removal_only`).
-/

namespace OpenHost.Apps

/-! ## Pending writes -/

/-- The task belongs to a removal. -/
def Task.isRemoval : Task → Bool
  | .removeApp | .removeClaim | .removeSpawn | .removeSpawnFailed _ => true
  | .removalConnect | .removalRead | .removalTearDown _ | .removalDelete | .removalFailed => true
  | _ => false

/-- The task can come to write the status without looking at it, even where the row is being
removed. -/
def Task.mayWrite : Task → Bool
  | .stopContainers _ | .stopRecord => true
  -- a pull may fail, and its failure is recorded
  | .reloadPull _ _ | .reloadFail _ => true
  -- the claim respects a removal, but the OAuth continuation ignores a claim that failed
  | .reloadClaim continueOauth _ => continueOauth
  | .reloadStop _ | .reloadSpawn => true
  | .renameStop _ _ | .renameStopped _ _ | .renameDirs _ _ | .renameRestore _ => true
  | .renameRecord _ row => wasRunning row
  | .guardStop _ | .guardRecord => true
  | .installSpawn => true
  | .worker .resume (.handler _) => false
  | .worker _ _ => true
  | _ => false

/-! ## What one step of a task does -/

/-- A bystander without a pending write leaves the status of a row that is being removed. -/
theorem status_of_not_mayWrite {t : Task} {c : TaskAnswer} {a : App} (hw : t.mayWrite = false)
    (hr : t.isRemoval = false) (ha : a.status = some .removing) :
    (t.step c a).1.status = some .removing := by
  cases t.statusStep c a with
  | keeps h => rw [h, ha]
  | deletes ht _ =>
    rw [ht] at hr
    cases hr
  | writes st _ hguard hst _ =>
    -- of the tasks with a statement on the status only a claim without OAuth is left, and it is barred
    cases t with
    | reloadClaim continueOauth row =>
      obtain ⟨st', hst', htransient⟩ := hguard
      rw [ha] at hst'
      cases hst'
      cases htransient
    | worker caller pc =>
      cases caller <;> cases pc <;> simp [Task.mayWrite, Task.sets] at hw hst
    | _ => simp [Task.mayWrite, Task.isRemoval, Task.sets] at hw hr hst

/-- And it goes on without one. -/
theorem continues_of_not_mayWrite {t u : Task} {a : App} (hw : t.mayWrite = false)
    (hr : t.isRemoval = false) (ha : a.status = some .removing) (h : Leads a t u) :
    u.mayWrite = false := by
  have hrow : ∀ {row : Row}, a.row = some row → row.status = .removing := by
    intro row hrow
    simpa [App.status, hrow] using ha
  cases h with
  -- a request that reads a row that is being removed ends
  | stopContainers hread hne | reloadPull hread hne | renameStop hread hne =>
    exact absurd (hrow hread) hne
  | reloadPlain _ _ => rfl
  | claimed hguard =>
    obtain ⟨st, hst, htransient⟩ := hguard
    rw [ha] at hst
    cases hst
    cases htransient
  | renameWorker hup =>
    rw [Task.mayWrite, hup] at hw
    cases hw
  | guardStop hread hs =>
    rw [hrow hread] at hs
    cases hs <;> contradiction
  | @worker caller pc pc' c hpc =>
    cases caller <;> cases pc <;> simp [Task.mayWrite] at hw
    simp [Worker.step] at hpc
  | _ => simp [Task.mayWrite, Task.isRemoval] at hw hr

/-- A step of the removal: it goes on, or the row is gone, or it records its failure. -/
theorem status_of_isRemoval {t : Task} {c : TaskAnswer} {a : App} (hr : t.isRemoval = true)
    (ha : a.status = some .removing) :
    (t.step c a).1.status = some .removing ∨ (t.step c a).1.status = none ∨
      (t.step c a).1.status = some .error := by
  cases t.statusStep c a with
  | keeps h => exact .inl (h.trans ha)
  | deletes _ h => exact .inr (.inl h)
  | writes st _ _ hst h =>
    cases t with
    | removeClaim =>
      obtain rfl := List.mem_singleton.mp hst
      exact .inl h
    | removeSpawnFailed _ | removalFailed =>
      obtain rfl := List.mem_singleton.mp hst
      exact .inr (.inr h)
    | _ => simp [Task.isRemoval, Task.sets] at hr hst

/-- The removal goes on in steps of its own. -/
theorem continues_of_isRemoval {t u : Task} {a : App} (hr : t.isRemoval = true) (h : Leads a t u) :
    u.isRemoval = true := by
  cases h <;> first | rfl | cases hr

theorem not_mayWrite_of_isRemoval {t : Task} (h : t.isRemoval = true) : t.mayWrite = false := by
  cases t <;> first | rfl | cases h

/-! ## Runs -/

/-- The step claims the removal. -/
def Server.claims (s : Server) : Action → Bool
  | .task i c =>
    s.tasks[i]? = some .removeClaim && s.status ≠ some .removing &&
      (Task.removeClaim.step c s.shared).1.status = some .removing
  | _ => false

/-- A removal is claimed only while no task is in flight that may still write the status; and no
archive switch, which restarts apps whatever their status, is at its end. -/
structure Server.ClaimsAlone (s : Server) (a : Action) : Prop where
  noResume : a ≠ .resume
  alone : s.claims a = true → ∀ u ∈ s.tasks, u.mayWrite = false

instance (s : Server) (a : Action) : Decidable (s.ClaimsAlone a) :=
  decidable_of_iff (a ≠ .resume ∧ (s.claims a = true → ∀ u ∈ s.tasks, u.mayWrite = false))
    ⟨fun h => ⟨h.1, h.2⟩, fun h => ⟨h.noResume, h.alone⟩⟩

/-- Only the removal changes the status of a row that is being removed: the row disappears, or the
removal worker, or `remove_app` in its stead, records an error. -/
def Server.RemovalOnly (s : Server) (a : Action) (t : Server) : Prop :=
  s.status = some .removing → t.status = some .removing ∨
    ∃ i c task, a = .task i c ∧ s.tasks[i]? = some task ∧ task.isRemoval = true ∧
      (t.status = none ∨ t.status = some .error)

/-- No bystander in flight can change a row that is being removed. -/
def Server.Quiet (s : Server) : Prop :=
  s.status = some .removing → ∀ u ∈ s.tasks, u.mayWrite = false

namespace Server

theorem quiet_of_ne_removing {s : Server} (h : s.status ≠ some .removing) : s.Quiet :=
  fun hr => absurd hr h

/-- A task step keeps the others quiet, and changes a row that is being removed only as a removal. -/
theorem quiet_of_task {s t : Server} {i : Nat} {c : TaskAnswer} (hsnap : s.SnapshotsOk)
    (hs : s.Quiet) (hok : s.ClaimsAlone (.task i c)) (h : s.next (.task i c) = some t) :
    t.Quiet ∧ s.RemovalOnly (.task i c) t := by
  obtain ⟨before, task, after, htasks, hi, hshared, htasks', -⟩ := next_task h
  have hmem : task ∈ s.tasks := by rw [htasks]; simp
  have hstatus : t.status = (task.step c s.shared).1.status := by rw [status, hshared]
  have hquiet : (∀ u ∈ s.tasks, u.mayWrite = false) →
      (∀ u ∈ (task.step c s.shared).2, u.mayWrite = false) → ∀ u ∈ t.tasks, u.mayWrite = false := by
    intro hall hnew
    rw [htasks']
    apply Pool.forall_tasks_of_step
    · intro u hu
      apply hall
      rw [htasks]
      exact Pool.mem_of_mem_others hu
    · exact hnew
  by_cases hr : s.status = some .removing
  · have hall := hs hr
    by_cases hremoval : task.isRemoval = true
    · refine ⟨fun _ => hquiet hall fun u hu => ?_, fun _ => ?_⟩
      · exact not_mayWrite_of_isRemoval (continues_of_isRemoval hremoval (leads_of_mem_step hu))
      · rw [hstatus]
        rcases status_of_isRemoval hremoval hr with hkeep | hend
        · exact .inl hkeep
        · exact .inr ⟨i, c, task, rfl, hi, hremoval, hend⟩
    · have hremoval := Bool.not_eq_true _ ▸ hremoval
      refine ⟨fun _ => hquiet hall fun u hu => ?_, fun _ => .inl ?_⟩
      · exact continues_of_not_mayWrite (hall task hmem) hremoval hr (leads_of_mem_step hu)
      · rw [hstatus]
        exact status_of_not_mayWrite (hall task hmem) hremoval hr
  · refine ⟨fun ht => ?_, fun hr' => absurd hr' hr⟩
    -- only a claim has made the row 'removing', and it was made with nothing in flight
    rw [hstatus] at ht
    by_cases hclaim : task = .removeClaim
    · subst hclaim
      have hall := hok.alone (by simp [claims, hi, hr, ht])
      exact hquiet hall fun u hu =>
        not_mayWrite_of_isRemoval (continues_of_isRemoval rfl (leads_of_mem_step hu))
    · exact absurd ht (step_ne_removing hclaim (hsnap task hmem) hr)

/-- A task that begins writes nothing while the row is being removed. -/
theorem quiet_of_spawn {s t : Server} {a : Action} {u : Task} (hs : s.Quiet)
    (hu : u.mayWrite = false) (hshared : t.shared = s.shared) (htasks : t.tasks = s.tasks ++ [u]) :
    t.Quiet ∧ s.RemovalOnly a t := by
  have hstatus := status_of_shared hshared
  refine ⟨fun ht => ?_, fun hr => .inl (hstatus.trans hr)⟩
  rw [htasks]
  exact forall_mem_append_singleton (hs (hstatus ▸ ht)) hu

/-- The invariant and the property across any step. -/
theorem quiet_of_next {s t : Server} {a : Action} (hsnap : s.SnapshotsOk) (hs : s.Quiet)
    (hok : s.ClaimsAlone a) (h : s.next a = some t) : t.Quiet ∧ s.RemovalOnly a t := by
  rcases plain_of_next h with hplain | ⟨i, c, rfl⟩
  · cases hplain with
    | install hrow hstatus _ =>
      refine ⟨quiet_of_ne_removing (by simp [hstatus]), fun hr => ?_⟩
      rw [status, App.status, hrow] at hr
      cases hr
    | request r _ hshared htasks => exact quiet_of_spawn hs (by cases r <;> rfl) hshared htasks
    | guard hshared htasks => exact quiet_of_spawn hs rfl hshared htasks
    | resume _ _ => exact absurd rfl hok.noResume
    | promote hbefore hafter _ =>
      refine ⟨quiet_of_ne_removing hafter, fun hr => ?_⟩
      have htransient := hbefore _ hr
      cases htransient
    | crash hshared htasks _ =>
      refine ⟨fun _ => ?_, fun hr => .inl ((status_of_shared hshared).trans hr)⟩
      simp [htasks]
    | boot c hbefore hserving hrow htasks =>
      have hboot : Plain s (.boot c) t := .boot c hbefore hserving hrow htasks
      by_cases hr : s.status = some .removing
      · obtain ⟨hkeep, hsame⟩ := boot_of_removing hboot hr
        exact ⟨fun _ => hsame ▸ hs hr, fun _ => .inl hkeep⟩
      · exact ⟨quiet_of_ne_removing (boot_ne_removing hboot hr), fun hr' => absurd hr' hr⟩
  · exact quiet_of_task hsnap hs hok h

/-- In every run in which removals are claimed alone, nothing but the removal changes the status of
a row that is being removed. -/
theorem removing_changed_by_removal_only {s₀ s t : Server} {a : Action} (hstart : s₀.tasks = [])
    (hrun : Reach Step ClaimsAlone s₀ s) (hok : s.ClaimsAlone a) (hstep : s.next a = some t) :
    s.RemovalOnly a t := by
  have hquiet : s.SnapshotsOk ∧ s.Quiet := by
    apply hrun.invariant fun s => s.SnapshotsOk ∧ s.Quiet
    · constructor <;> simp [SnapshotsOk, Quiet, hstart]
    · intro _ _ _ hs hok hnext
      exact ⟨snapshotsOk_of_next hs.1 hnext, (quiet_of_next hs.1 hs.2 hok hnext).1⟩
  exact (quiet_of_next hquiet.1 hquiet.2 hok hstep).2

end Server

/-! ## Two runs -/

/-- The row of an app that is being installed. -/
def notesRow : Row where
  name := "notes"
  status := .building
  containerId := none
  errorMessage := none
  repoPath := "/data/repos/notes"
  manifestRaw := some "[app]"
  createdAt := 0

/-- A server without the app. -/
def emptyServer : Server where
  shared := { row := none, containers := [] }
  tasks := []
  serving := true

/-- The app is installed, removed while its image is built, and the build ends. -/
def removeWhileBuilding : List Action :=
  [.install notesRow, .task 0 {}, .task 0 {}, .task 0 {}, .request .remove, .task 1 {}, .task 1 {},
    .task 0 {}, .task 0 {}, .task 0 {}]

/-- The deploy worker is about to launch the app, whose row is being removed. -/
def lateDeploy : Server where
  shared := { row := some notesRow.setRemoving, containers := [] }
  tasks := [.worker .deploy (.markLaunching notesRow.setRemoving), .removeSpawn]
  serving := true

/-- The deploy worker marks a row as starting that is being removed. -/
theorem lateDeploy_not_removalOnly :
    emptyServer.tasks = [] ∧ Reach Server.Step (fun _ a => a ≠ .resume) emptyServer lateDeploy ∧
      ∃ t, lateDeploy.next (.task 0 {}) = some t ∧ ¬ lateDeploy.RemovalOnly (.task 0 {}) t := by
  have hrun : runAll Server.next (fun _ a => a ≠ .resume) emptyServer removeWhileBuilding =
      some lateDeploy := by decide
  refine ⟨rfl, reach_of_run hrun, _, rfl, fun honly => ?_⟩
  rcases honly rfl with hkeep | ⟨i, c, task, ha, hi, hremoval, -⟩
  · cases hkeep
  · cases ha
    cases hi
    cases hremoval

/-- A stopped app. -/
def stoppedServer : Server where
  shared := { row := some notesRow.setStopped, containers := [] }
  tasks := []
  serving := true

/-- Its removal, claimed with nothing else in flight. -/
def claimedServer : Server where
  shared := { row := some notesRow.setStopped.setRemoving, containers := [] }
  tasks := [.removalDelete]
  serving := true

namespace Server

/-- The removal deletes the row. -/
theorem claimedServer_removalOnly :
    claimedServer.RemovalOnly (.task 0 {}) emptyServer := by
  have hrun : runAll next ClaimsAlone stoppedServer
      [.request .remove, .task 0 {}, .task 0 {}, .task 0 {}, .task 0 {}, .task 0 {}, .task 0 {}] =
      some claimedServer := by decide
  exact removing_changed_by_removal_only rfl (reach_of_run hrun) (by decide) (by decide)

end Server

end OpenHost.Apps

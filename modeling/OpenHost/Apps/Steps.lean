import OpenHost.Apps.Lifecycle

/-!
# What one step of a task can do

Two inversion lemmas from which the invariants of the lifecycle follow: `Task.statusStep` says how a
step changes the status of the row, `leads_of_mem_step` which tasks can go on from it.
-/

namespace OpenHost.Apps

/-! ## What a step does to the status -/

/-- The statuses that the next statement of the task may set. -/
def Task.sets : Task → List Status
  | .stopRecord | .renameStopped _ _ => [.stopped]
  | .reloadFail _ | .removeSpawnFailed _ | .removalFailed | .guardRecord => [.error]
  | .reloadClaim _ _ => [.building]
  | .renameRestore row => [row.status]
  | .removeClaim => [.removing]
  | .worker _ (.markStarting) | .worker _ (.markLaunching _) => [.starting]
  | .worker _ (.waitReady _) => [.running, .error]
  | .worker _ (.recordFailure _ _) => [.error]
  | .worker .resume (.handler _) => []
  | .worker _ (.handler _) => [.error]
  | _ => []

/-- The guard of a compare and set. -/
def Task.Guard : Task → Option Status → Prop
  | .reloadClaim _ _, status => ∃ st, status = some st ∧ st.transient = false
  | .removeClaim, status => status ≠ none ∧ status ≠ some .removing
  | _, _ => True

theorem guard_reloadClaim_iff {o : Bool} {row : Row} {status : Option Status} :
    (Task.reloadClaim o row).Guard status ↔ (status.map Status.transient).getD true = false := by
  cases status <;> simp [Task.Guard]

/-- What a step of a task does to the status. -/
inductive StatusStep (t : Task) (before after : Option Status) : Prop where
  | keeps (h : after = before)
  | deletes (ht : t = .removalDelete) (h : after = none)
  | writes (st : Status) (hrow : before ≠ none) (hguard : t.Guard before) (hst : st ∈ t.sets)
      (h : after = some st)

theorem statusStep_update {t : Task} {a : App} {f : Row → Row} {st : Status}
    (hf : ∀ r, (f r).status = st) (hguard : t.Guard a.status) (hst : st ∈ t.sets) :
    StatusStep t a.status (a.update f).status := by
  cases hrow : a.row with
  | none => exact .keeps (by simp [App.status, App.update, hrow])
  | some r =>
    refine .writes st ?_ hguard hst ?_
    · simp [App.status, hrow]
    · simp [hrow, hf]

theorem statusStep_statement {t : Task} {a : App} {c : TaskAnswer} {f : Row → Row} {st : Status}
    {next : List Task} (hf : ∀ r, (f r).status = st) (hguard : t.Guard a.status) (hst : st ∈ t.sets) :
    StatusStep t a.status (statement a c f next).1.status := by
  unfold statement
  split
  · exact .keeps rfl
  · exact statusStep_update hf hguard hst

theorem status_of_row {a b : App} (h : b.row = a.row) : b.status = a.status := by
  rw [App.status, App.status, h]

@[simp] theorem status_stopProcess (r : Row) (c : TaskAnswer) (a : App) :
    (stopProcess r c a).status = a.status := by
  unfold stopProcess
  split
  · exact status_of_row (App.row_stopAppProcess r a)
  · rfl

/-- The steps of a worker. -/
theorem Worker.statusStep (caller : Caller) (pc : Pc) (c : Answer) (a : App) :
    StatusStep (.worker caller pc) a.status (Worker.step caller pc c a).1.status := by
  cases pc with
  | connect | deployStart | startProcess | restartProcess | build | prepare _ => exact .keeps rfl
  | reloadStart =>
    simp only [Worker.step]
    split
    · exact .keeps rfl
    · exact .keeps (by simp [App.status, Function.comp_def])
  | readRow =>
    simp only [Worker.step]
    split <;> exact .keeps rfl
  | markStarting | markLaunching _ =>
    simp only [Worker.step]
    split
    · exact .keeps rfl
    · exact statusStep_update Row.status_setStarting trivial (by simp [Task.sets])
  | launch row =>
    simp only [Worker.step]
    split
    · split <;> exact .keeps rfl
    · exact .keeps rfl
  | recordContainer containerId =>
    simp only [Worker.step]
    split
    · exact .keeps rfl
    · exact .keeps (by simp [App.status, Function.comp_def])
  | waitReady containerId =>
    simp only [Worker.step]
    split
    · exact .keeps rfl
    · split
      · exact statusStep_update Row.status_setRunning trivial (by simp [Task.sets])
      · exact statusStep_update (Row.status_setError _) trivial (by simp [Task.sets])
  | cleanUp containerId message =>
    simp only [Worker.step]
    split <;> exact .keeps rfl
  | recordFailure message containerId =>
    simp only [Worker.step]
    split
    · exact .keeps rfl
    · exact statusStep_update (Row.status_setLaunchError _ _) trivial (by simp [Task.sets])
  | handler message =>
    have hrecord : StatusStep (.worker .deploy (.handler message)) a.status
        (if c.raises.isSome then a else a.update (Row.setError message)).status := by
      split
      · exact .keeps rfl
      · exact statusStep_update (Row.status_setError _) trivial (by simp [Task.sets])
    cases caller with
    | resume => exact .keeps rfl
    | deploy | reload | recovery _ | rename =>
      cases hrecord with
      | keeps h => exact .keeps h
      | deletes ht _ => cases ht
      | writes st hrow _ hst h => exact .writes st hrow trivial hst h

/-- The status changes only as the statement of the task says, under its guard. -/
theorem Task.statusStep (t : Task) (c : TaskAnswer) (a : App) :
    StatusStep t a.status (t.step c a).1.status := by
  cases t with
  | stopApp | reloadApp _ _ | reloadPull _ _ | reloadSpawn | renameApp _ | renameDirs _ _ | removeApp
  | removeSpawn | removalConnect | removalRead | guardRead | installSpawn => exact .keeps rfl
  | stopContainers row =>
    simp only [Task.step]
    split
    · exact .keeps (status_of_row (by simp))
    · exact .keeps rfl
  | reloadStop row | renameStop _ row | removalTearDown row | guardStop row =>
    exact .keeps (status_stopProcess row c a)
  | stopRecord => exact statusStep_statement Row.status_setStopped trivial (by simp [Task.sets])
  | renameStopped _ row =>
    exact statusStep_statement Row.status_setStopped trivial (by simp [Task.sets])
  | reloadFail message =>
    exact statusStep_statement (Row.status_setError _) trivial (by simp [Task.sets])
  | removeSpawnFailed message =>
    exact statusStep_statement (Row.status_setError _) trivial (by simp [Task.sets])
  | removalFailed => exact statusStep_statement (Row.status_setError _) trivial (by simp [Task.sets])
  | guardRecord =>
    exact statusStep_statement (fun _ => rfl) trivial (List.mem_singleton_self Status.error)
  | renameRestore row =>
    exact statusStep_statement (Row.status_restore row) trivial (by simp [Task.sets])
  | renameRecord newName row =>
    simp only [Task.step, statement]
    split
    · exact .keeps rfl
    · exact .keeps (by simp [App.status, Function.comp_def])
  | reloadClaim continueOauth row =>
    simp only [Task.step]
    split
    · exact .keeps rfl
    · split
      · exact .keeps rfl
      · rename_i hclaim
        refine statusStep_update Row.status_setBuilding ?_ (by simp [Task.sets])
        exact guard_reloadClaim_iff.mpr (by simpa using hclaim)
  | removeClaim =>
    simp only [Task.step]
    split
    · exact .keeps rfl
    · rename_i hclaim
      refine statusStep_update Row.status_setRemoving ?_ (by simp [Task.sets])
      simp only [Bool.or_eq_true, decide_eq_true_eq, not_or] at hclaim
      exact ⟨hclaim.1.2, hclaim.2⟩
  | removalDelete =>
    simp only [Task.step]
    split
    · exact .keeps rfl
    · exact .deletes rfl rfl
  | worker caller pc => exact Worker.statusStep caller pc c.toAnswer a

/-! ## Where a step leads -/

/-- The tasks that can go on from a task, with what the app was like. -/
inductive Leads (a : App) : Task → Task → Prop where
  | stopContainers {row : Row} (hrow : a.row = some row) (hr : row.status ≠ .removing) :
      Leads a .stopApp (.stopContainers row)
  | stopRecord {row : Row} : Leads a (.stopContainers row) .stopRecord
  | reloadPull {update o : Bool} {row : Row} (hrow : a.row = some row) (hr : row.status ≠ .removing) :
      Leads a (.reloadApp update o) (.reloadPull o row)
  | reloadPlain {row : Row} (hrow : a.row = some row) (hr : row.status ≠ .removing) :
      Leads a (.reloadApp false false) (.reloadClaim false row)
  | pulled {o : Bool} {row : Row} : Leads a (.reloadPull o row) (.reloadClaim o row)
  | pullFailed {o : Bool} {row : Row} {message : String} :
      Leads a (.reloadPull o row) (.reloadFail message)
  | claimed {o : Bool} {row : Row} (h : (Task.reloadClaim o row).Guard a.status) :
      Leads a (.reloadClaim o row) (.reloadStop row)
  /-- the claim failed and the OAuth continuation goes on all the same -/
  | unclaimed {row : Row} (h : ¬ (Task.reloadClaim true row).Guard a.status) :
      Leads a (.reloadClaim true row) (.reloadStop row)
  | reloadSpawn {row : Row} : Leads a (.reloadStop row) .reloadSpawn
  | reloadWorker : Leads a .reloadSpawn (.worker .reload .connect)
  | renameStop {n : String} {row : Row} (hrow : a.row = some row) (hr : row.status ≠ .removing) :
      Leads a (.renameApp n) (.renameStop n row)
  | renameStopped {n : String} {row : Row} : Leads a (.renameStop n row) (.renameStopped n row)
  | renameDirs {n : String} {row : Row} : Leads a (.renameStopped n row) (.renameDirs n row)
  | renameRestore {n : String} {row : Row} : Leads a (.renameDirs n row) (.renameRestore row)
  | renameRecord {n : String} {row : Row} : Leads a (.renameDirs n row) (.renameRecord n row)
  | renameWorker {n : String} {row : Row} (h : wasRunning row = true) :
      Leads a (.renameRecord n row) (.worker .rename .startProcess)
  | removeClaim : Leads a .removeApp .removeClaim
  | removeSpawn (h : Task.removeClaim.Guard a.status) : Leads a .removeClaim .removeSpawn
  | removeSpawnFailed {message : String} : Leads a .removeSpawn (.removeSpawnFailed message)
  | removalConnect : Leads a .removeSpawn .removalConnect
  | removalRead : Leads a .removalConnect .removalRead
  | removalReadFailed : Leads a .removalRead .removalFailed
  | removalTearDown {row : Row} (hrow : a.row = some row) :
      Leads a .removalRead (.removalTearDown row)
  | removalDelete {row : Row} : Leads a (.removalTearDown row) .removalDelete
  | removalDeleteFailed : Leads a .removalDelete .removalFailed
  | guardStop {row : Row} (hrow : a.row = some row)
      (hs : row.status = .running ∨ row.status = .starting) : Leads a .guardRead (.guardStop row)
  | guardRecord {row : Row} : Leads a (.guardStop row) .guardRecord
  | deployWorker : Leads a .installSpawn (.worker .deploy .connect)
  | worker {caller : Caller} {pc pc' : Pc} {c : Answer} (h : (Worker.step caller pc c a).2 = some pc') :
      Leads a (.worker caller pc) (.worker caller pc')

theorem mem_resolve {a : App} {c : TaskAnswer} {next : Row → List Task} {u : Task}
    (h : u ∈ resolve a c next) : ∃ row, a.row = some row ∧ row.status ≠ .removing ∧ u ∈ next row := by
  unfold resolve at h
  cases hrow : a.row with
  | none => simp [hrow] at h
  | some row =>
    simp only [hrow] at h
    split at h
    · cases h
    · rename_i hnot
      exact ⟨row, rfl, fun hs => hnot (.inl hs), h⟩

theorem mem_statement {a : App} {c : TaskAnswer} {f : Row → Row} {next : List Task} {u : Task}
    (h : u ∈ (statement a c f next).2) : u ∈ next := by
  unfold statement at h
  split at h
  · cases h
  · exact h

theorem mem_ite {p : Prop} [Decidable p] {l l' : List Task} {u : Task}
    (h : u ∈ if p then l else l') : u ∈ l ∨ u ∈ l' := by
  split at h
  · exact .inl h
  · exact .inr h

/-- Every task that goes on from a step is one `Leads` knows. -/
theorem leads_of_mem_step {t u : Task} {c : TaskAnswer} {a : App} (h : u ∈ (t.step c a).2) :
    Leads a t u := by
  cases t with
  | stopApp =>
    obtain ⟨row, hrow, hr, hu⟩ := mem_resolve h
    obtain rfl := List.mem_singleton.mp hu
    exact .stopContainers hrow hr
  | reloadApp update o =>
    obtain ⟨row, hrow, hr, hu⟩ := mem_resolve h
    split at hu
    · obtain rfl := List.mem_singleton.mp hu
      exact .reloadPull hrow hr
    · rename_i hplain
      obtain rfl := List.mem_singleton.mp hu
      simp only [Bool.or_eq_true, not_or, Bool.not_eq_true] at hplain
      obtain ⟨rfl, rfl⟩ := hplain
      exact .reloadPlain hrow hr
  | renameApp n =>
    obtain ⟨row, hrow, hr, hu⟩ := mem_resolve h
    obtain hu | hu := mem_ite hu
    · cases hu
    · obtain rfl := List.mem_singleton.mp hu
      exact .renameStop hrow hr
  | stopContainers row =>
    obtain hu | hu := mem_ite h
    · cases hu
    · obtain rfl := List.mem_singleton.mp hu
      exact .stopRecord
  | reloadPull o row =>
    simp only [Task.step] at h
    split at h
    · obtain rfl := List.mem_singleton.mp h
      exact .pulled
    · obtain rfl := List.mem_singleton.mp h
      exact .pullFailed
    · cases h
  | reloadClaim o row =>
    simp only [Task.step] at h
    split at h
    · cases h
    · split at h
      · rename_i hbarred
        have hnot : ¬ (Task.reloadClaim o row).Guard a.status := by
          rw [guard_reloadClaim_iff, hbarred]
          simp
        split at h
        · rename_i ho
          subst ho
          obtain rfl := List.mem_singleton.mp h
          exact .unclaimed hnot
        · cases h
      · rename_i hclaim
        obtain rfl := List.mem_singleton.mp h
        exact .claimed (guard_reloadClaim_iff.mpr (by simpa using hclaim))
  | reloadStop row =>
    obtain rfl := List.mem_singleton.mp h
    exact .reloadSpawn
  | reloadSpawn =>
    obtain hu | hu := mem_ite h
    · cases hu
    · obtain rfl := List.mem_singleton.mp hu
      exact .reloadWorker
  | installSpawn =>
    obtain hu | hu := mem_ite h
    · cases hu
    · obtain rfl := List.mem_singleton.mp hu
      exact .deployWorker
  | renameStop n row =>
    obtain rfl := List.mem_singleton.mp h
    exact .renameStopped
  | renameStopped n row =>
    obtain rfl := List.mem_singleton.mp (mem_statement h)
    exact .renameDirs
  | renameDirs n row =>
    obtain hu | hu := mem_ite h
    · obtain rfl := List.mem_singleton.mp hu
      exact .renameRestore
    · obtain rfl := List.mem_singleton.mp hu
      exact .renameRecord
  | renameRecord n row =>
    have hu := mem_statement h
    split at hu
    · rename_i hup
      obtain rfl := List.mem_singleton.mp hu
      exact .renameWorker hup
    · cases hu
  | removeApp =>
    obtain hu | hu := mem_ite h
    · cases hu
    · obtain rfl := List.mem_singleton.mp hu
      exact .removeClaim
  | removeClaim =>
    simp only [Task.step] at h
    split at h
    · cases h
    · rename_i hclaim
      obtain rfl := List.mem_singleton.mp h
      simp only [Bool.or_eq_true, decide_eq_true_eq, not_or] at hclaim
      exact .removeSpawn ⟨hclaim.1.2, hclaim.2⟩
  | removeSpawn =>
    simp only [Task.step] at h
    split at h
    · obtain rfl := List.mem_singleton.mp h
      exact .removeSpawnFailed
    · obtain rfl := List.mem_singleton.mp h
      exact .removalConnect
  | removalConnect =>
    obtain hu | hu := mem_ite h
    · cases hu
    · obtain rfl := List.mem_singleton.mp hu
      exact .removalRead
  | removalRead =>
    simp only [Task.step] at h
    split at h
    · obtain rfl := List.mem_singleton.mp h
      exact .removalReadFailed
    · cases hrow : a.row with
      | none => simp [hrow] at h
      | some row =>
        rw [hrow] at h
        obtain rfl := List.mem_singleton.mp h
        exact .removalTearDown hrow
  | removalTearDown row =>
    obtain rfl := List.mem_singleton.mp h
    exact .removalDelete
  | removalDelete =>
    simp only [Task.step] at h
    split at h
    · obtain rfl := List.mem_singleton.mp h
      exact .removalDeleteFailed
    · cases h
  | guardRead =>
    simp only [Task.step] at h
    cases hrow : a.row with
    | none => simp [hrow] at h
    | some row =>
      rw [hrow] at h
      simp only at h
      split at h
      · rename_i hs
        obtain rfl := List.mem_singleton.mp h
        exact .guardStop hrow hs
      · cases h
  | guardStop row =>
    obtain rfl := List.mem_singleton.mp h
    exact .guardRecord
  | worker caller pc =>
    simp only [Task.step, Option.mem_toList, Option.map_eq_some_iff] at h
    obtain ⟨pc', hpc, rfl⟩ := h
    exact .worker hpc
  | stopRecord | reloadFail _ | renameRestore _ | removeSpawnFailed _ | removalFailed | guardRecord =>
    exact absurd (mem_statement h) List.not_mem_nil

/-! ## The rows that renames hold -/

/-- The row that a rename restores was not being removed when it was read. -/
def Task.SnapshotOk : Task → Prop
  | .renameStop _ row | .renameStopped _ row | .renameDirs _ row | .renameRestore row =>
    row.status ≠ .removing
  | _ => True

/-- No step but the claim of a removal sets the status 'removing'. -/
theorem step_ne_removing {t : Task} {c : TaskAnswer} {a : App} (ht : t ≠ .removeClaim)
    (hok : t.SnapshotOk) (ha : a.status ≠ some .removing) :
    (t.step c a).1.status ≠ some .removing := by
  cases t.statusStep c a with
  | keeps h => rwa [h]
  | deletes _ h => simp [h]
  | writes st _ _ hst h =>
    rw [h]
    rintro hst'
    obtain rfl := Option.some.inj hst'
    cases t with
    | removeClaim => exact ht rfl
    | renameRestore row => exact hok (List.mem_singleton.mp hst).symm
    | worker caller pc => cases caller <;> cases pc <;> simp [Task.sets] at hst
    | _ => simp [Task.sets] at hst

/-- A rename takes its copy of the row where the row is not being removed. -/
theorem snapshotOk_of_leads {t u : Task} {a : App} (hok : t.SnapshotOk) (h : Leads a t u) :
    u.SnapshotOk := by
  cases h with
  | renameStop _ hr => exact hr
  | renameStopped | renameDirs | renameRestore => exact hok
  | _ => trivial

/-! ## Steps of the server -/

namespace Server

/-- A task step: the task that moved, and what became of it. -/
theorem next_task {s t : Server} {i : Nat} {c : TaskAnswer} (h : s.next (.task i c) = some t) :
    ∃ before task after, s.tasks = before ++ task :: after ∧ s.tasks[i]? = some task ∧
      t.shared = (task.step c s.shared).1 ∧
      t.tasks = before ++ (task.step c s.shared).2 ++ after ∧ t.serving = s.serving := by
  obtain ⟨p, hp, rfl⟩ := Option.map_eq_some_iff.mp h
  obtain ⟨before, task, after, htasks, hi, rfl⟩ := Pool.stepAt_cases hp
  exact ⟨before, task, after, htasks, hi, rfl, rfl, rfl⟩

/-- What the actions other than task steps do to the row and to the tasks. -/
inductive Plain (s : Server) : Action → Server → Prop where
  | install {row : Row} {t : Server} (hrow : s.shared.row = none)
      (hstatus : t.status = some .building) (htasks : t.tasks = s.tasks ++ [.installSpawn]) :
      Plain s (.install row) t
  | request (r : Request) {t : Server} (hserving : s.serving = true) (hshared : t.shared = s.shared)
      (htasks : t.tasks = s.tasks ++ [r.task]) : Plain s (.request r) t
  | guard {t : Server} (hshared : t.shared = s.shared) (htasks : t.tasks = s.tasks ++ [.guardRead]) :
      Plain s .guard t
  | resume {t : Server} (hshared : t.shared = s.shared)
      (htasks : t.tasks = s.tasks ++ [.worker .resume .restartProcess]) : Plain s .resume t
  | promote {t : Server} (hbefore : ∀ st, s.status = some st → st.transient = false)
      (hafter : t.status ≠ some .removing) (htasks : t.tasks = s.tasks) : Plain s .promote t
  | crash {t : Server} (hshared : t.shared = s.shared) (htasks : t.tasks = [])
      (hserving : t.serving = false) : Plain s .crash t
  | boot (c : BootAnswer) {t : Server} (hbefore : s.serving = false) (hserving : t.serving = true)
      (hrow : t.shared.row = s.shared.row.map fun row => (checkAppStatus c row).1)
      (htasks : t.tasks = s.tasks ++ recoveryTasks (s.shared.row.bind fun row => (checkAppStatus c row).2)) :
      Plain s (.boot c) t

theorem promoteRow_ne_removing {row : Row} (h : row.status ≠ .removing) :
    (promoteRow row).status ≠ .removing := by
  unfold promoteRow
  split
  · exact Status.noConfusion
  · exact h

theorem plain_of_next {s t : Server} {a : Action} (h : s.next a = some t) :
    Plain s a t ∨ ∃ i c, a = .task i c := by
  cases a with
  | task i c => exact .inr ⟨i, c, rfl⟩
  | install row =>
    simp only [next, Option.isNone_iff_eq_none] at h
    split at h
    · rename_i hrow
      obtain rfl := Option.some.inj h
      exact .inl (.install hrow rfl rfl)
    · cases h
  | request r =>
    simp only [next] at h
    split at h
    · rename_i hserving
      obtain rfl := Option.some.inj h
      exact .inl (.request r hserving rfl rfl)
    · cases h
  | guard =>
    simp only [next] at h
    split at h
    · obtain rfl := Option.some.inj h
      exact .inl (.guard rfl rfl)
    · cases h
  | resume =>
    simp only [next] at h
    split at h
    · obtain rfl := Option.some.inj h
      exact .inl (.resume rfl rfl)
    · cases h
  | promote =>
    simp only [next] at h
    split at h
    · rename_i hguard
      obtain rfl := Option.some.inj h
      simp only [Bool.and_eq_true, Bool.not_eq_true'] at hguard
      have hbefore : ∀ st, s.status = some st → st.transient = false := by
        intro st hst
        simpa [hst] using hguard.2
      refine .inl (.promote hbefore ?_ rfl)
      cases hrow : s.shared.row with
      | none => simp [status, App.status, App.update, hrow]
      | some row =>
        have hne : row.status ≠ .removing := by
          intro hr
          have hst := hbefore row.status (by simp [status, App.status, hrow])
          rw [hr] at hst
          cases hst
        simpa [status, App.status, App.update, hrow] using promoteRow_ne_removing hne
    · cases h
  | crash =>
    obtain rfl := Option.some.inj h
    exact .inl (.crash rfl rfl rfl)
  | boot c =>
    simp only [next] at h
    split at h
    · cases h
    · rename_i hserving
      obtain rfl := Option.some.inj h
      refine .inl ?_
      cases hrow : s.shared.row with
      | none =>
        refine .boot c (by simpa using hserving) ?_ ?_ ?_ <;> simp [recover, hrow, recoveryTasks]
      | some row =>
        refine .boot c (by simpa using hserving) ?_ ?_ ?_ <;> simp [recover, hrow]

theorem checkAppStatus_removing {c : BootAnswer} {row : Row} (h : row.status = .removing) :
    checkAppStatus c row = (row, none) := by
  simp [checkAppStatus, h]

theorem checkAppStatus_ne_removing {c : BootAnswer} {row : Row} (h : row.status ≠ .removing) :
    (checkAppStatus c row).1.status ≠ .removing := by
  unfold checkAppStatus
  cases hs : row.status with
  | removing => exact absurd hs h
  | stopped => simp [hs]
  | error =>
    simp only
    split <;> simp [hs]
  | running | starting | building =>
    simp only
    repeat' split
    all_goals simp [hs]

/-- The startup recovery does not look at a row that is being removed. -/
theorem boot_of_removing {s t : Server} {c : BootAnswer} (h : Plain s (.boot c) t)
    (hr : s.status = some .removing) : t.status = some .removing ∧ t.tasks = s.tasks := by
  obtain ⟨row, hrow, hstatus⟩ := Option.map_eq_some_iff.mp hr
  have hsame : checkAppStatus c row = (row, none) := checkAppStatus_removing hstatus
  cases h with
  | boot _ _ _ hrow' htasks =>
    constructor
    · rw [status, App.status, hrow', hrow]
      simp [hsame, hstatus]
    · rw [htasks, hrow]
      simp [hsame, recoveryTasks]

/-- And it puts no row into that state. -/
theorem boot_ne_removing {s t : Server} {c : BootAnswer} (h : Plain s (.boot c) t)
    (hr : s.status ≠ some .removing) : t.status ≠ some .removing := by
  cases h with
  | boot _ _ _ hrow' _ =>
    cases hrow : s.shared.row with
    | none => simp [status, App.status, hrow', hrow]
    | some row =>
      have hne : row.status ≠ .removing := by
        intro h
        exact hr (by simp [status, App.status, hrow, h])
      have hafter : (checkAppStatus c row).1.status ≠ .removing := checkAppStatus_ne_removing hne
      simpa [status, App.status, hrow', hrow] using hafter

/-- The tasks after a boot: those there were, and a recovery worker at most. -/
theorem mem_tasks_of_boot {s t : Server} {c : BootAnswer} {u : Task} (h : Plain s (.boot c) t)
    (hu : u ∈ t.tasks) : u ∈ s.tasks ∨ ∃ needsBuild, u = .worker (.recovery needsBuild) .connect := by
  cases h with
  | boot _ _ _ _ htasks =>
    rw [htasks] at hu
    rcases List.mem_append.mp hu with hu | hu
    · exact .inl hu
    · simp only [recoveryTasks, Option.mem_toList, Option.map_eq_some_iff] at hu
      obtain ⟨needsBuild, -, rfl⟩ := hu
      exact .inr ⟨needsBuild, rfl⟩

theorem status_of_shared {s t : Server} (h : t.shared = s.shared) : t.status = s.status := by
  rw [status, status, h]

/-- The renames in flight hold rows that were not being removed. -/
def SnapshotsOk (s : Server) : Prop := ∀ u ∈ s.tasks, u.SnapshotOk

theorem forall_mem_append_singleton {P : Task → Prop} {l : List Task} {u : Task}
    (h : ∀ v ∈ l, P v) (hu : P u) : ∀ v ∈ l ++ [u], P v := by
  intro v hv
  rcases List.mem_append.mp hv with hv | hv
  · exact h v hv
  · exact List.mem_singleton.mp hv ▸ hu

theorem snapshotsOk_of_next {s t : Server} {a : Action} (hs : s.SnapshotsOk) (h : s.next a = some t) :
    t.SnapshotsOk := by
  rcases plain_of_next h with hplain | ⟨i, c, rfl⟩
  · cases hplain with
    | install _ _ htasks | guard _ htasks | resume _ htasks =>
      unfold SnapshotsOk
      rw [htasks]
      exact forall_mem_append_singleton hs trivial
    | request r _ _ htasks =>
      unfold SnapshotsOk
      rw [htasks]
      exact forall_mem_append_singleton hs (by cases r <;> trivial)
    | promote _ _ htasks =>
      unfold SnapshotsOk
      rw [htasks]
      exact hs
    | crash _ htasks _ => simp [SnapshotsOk, htasks]
    | boot c hbefore hserving hrow htasks =>
      intro u hu
      rcases mem_tasks_of_boot (.boot c hbefore hserving hrow htasks) hu with hu | ⟨_, rfl⟩
      · exact hs u hu
      · trivial
  · obtain ⟨before, task, after, htasks, -, -, htasks', -⟩ := next_task h
    have hmem : task ∈ s.tasks := by rw [htasks]; simp
    unfold SnapshotsOk
    rw [htasks']
    apply Pool.forall_tasks_of_step
    · intro u hu
      apply hs
      rw [htasks]
      exact Pool.mem_of_mem_others hu
    · intro u hu
      exact snapshotOk_of_leads (hs task hmem) (leads_of_mem_step hu)

end Server

end OpenHost.Apps

import OpenHost.Apps.Steps

/-!
# One worker at a time

A reload claims the row by setting it to 'building', which bars the next reload until the worker has
set the row to 'running' or 'error'.  The status is all the exclusion there is, and other operations
set it to 'stopped' or 'error' while a worker is at work.

A task holds the app from the claim (or the insertion of the row) to the worker's last statement, and
a rename holds it from its 'stopped' to the restart.  `Server.Orderly` says when a step respects the
holder, and `exclusive_of_reach` that then one worker at most builds or launches the container.
-/

namespace OpenHost.Apps

/-! ## Who holds the app -/

/-- The worker is building the image or launching the container. -/
def Pc.launches : Pc → Bool
  | .build | .readRow | .prepare _ | .markLaunching _ | .launch _ => true
  | _ => false

/-- The task is building the image or launching the container. -/
def Task.launches : Task → Bool
  | .worker _ pc => pc.launches
  | _ => false

/-- The task will launch the app, and the row does not say so: a rename of an app that was up, from
its 'stopped' to the restart's 'starting'. -/
def Task.pending : Task → Bool
  | .renameDirs _ row | .renameRecord _ row => wasRunning row
  | .worker .rename .startProcess | .worker .rename .markStarting => true
  | _ => false

/-- The task has claimed the app: a reload or an installation, from the claim to the last statement
of the worker before it ends or fails. -/
def Task.claimed : Task → Bool
  | .installSpawn | .reloadStop _ | .reloadSpawn => true
  | .worker _ (.handler _) => false
  | .worker .rename .startProcess | .worker .rename .markStarting => false
  | .worker _ _ => true
  | _ => false

/-- The task will launch the app, or is doing so. -/
def Task.holds (t : Task) : Bool := t.claimed || t.pending

/-- The next statement of the task sets a status that bars nobody, without looking at the row. -/
def Task.resets : Task → Bool
  | .stopRecord | .reloadFail _ | .renameStopped _ _ | .renameRestore _ => true
  | .removeSpawnFailed _ | .removalFailed | .guardRecord => true
  | .worker _ (.handler _) => true
  | _ => false

/-- The status bars a reload, or there is no row. -/
def busy (status : Option Status) : Bool := (status.map Status.transient).getD true

theorem holds_of_launches {t : Task} (h : t.launches = true) : t.holds = true := by
  cases t with
  | worker caller pc => cases caller <;> cases pc <;> first | rfl | cases h
  | _ => cases h

/-- At most one task builds or launches. -/
def Server.Exclusive (s : Server) : Prop := s.tasks.countP Task.launches ≤ 1

instance (s : Server) : Decidable s.Exclusive := inferInstanceAs (Decidable (_ ≤ _))

/-! ## The condition -/

/-- The actions that the requests on the app consist of, the storage guard, and a crash. -/
def Action.ofRequests : Action → Bool
  | .install _ | .request _ | .guard | .task _ _ | .crash => true
  | .resume | .promote | .boot _ => false

/-- No task holds the app. -/
def Server.Free (s : Server) : Prop := ∀ u ∈ s.tasks, u.holds = false

instance (s : Server) : Decidable s.Free := inferInstanceAs (Decidable (∀ _ ∈ _, _))

/-- The action inserts the row. -/
def Action.installs : Action → Bool
  | .install _ => true
  | _ => false

/-- The task is about to claim a reload. -/
def Task.claimsReload : Task → Bool
  | .reloadClaim _ _ => true
  | _ => false

/-- The task is about to claim a reload, and goes on whether it gets it or not. -/
def Task.ignoresClaim : Task → Bool
  | .reloadClaim continueOauth _ => continueOauth
  | _ => false

/-- The step respects the task that holds the app. -/
structure Server.Orderly (s : Server) (a : Action) : Prop where
  ofRequests : a.ofRequests = true
  /-- A new app does not get the id of one that a worker is still launching. -/
  install : a.installs = true → s.Free
  /-- The status is reset only while nobody holds the app. -/
  resets : ∀ t ∈ s.moving a, t.resets = true → s.Free
  /-- A reload is claimed only while no rename is about to restart the app. -/
  claim : ∀ t ∈ s.moving a, t.claimsReload = true → busy s.status = false →
    ∀ u ∈ s.tasks, u.pending = false
  /-- The OAuth continuation goes on only with a claim that succeeded. -/
  oauth : ∀ t ∈ s.moving a, t.ignoresClaim = true → busy s.status = false

instance (s : Server) (a : Action) : Decidable (s.Orderly a) :=
  decidable_of_iff
    (a.ofRequests = true ∧ (a.installs = true → s.Free) ∧
      (∀ t ∈ s.moving a, t.resets = true → s.Free) ∧
      (∀ t ∈ s.moving a, t.claimsReload = true → busy s.status = false →
        ∀ u ∈ s.tasks, u.pending = false) ∧
      ∀ t ∈ s.moving a, t.ignoresClaim = true → busy s.status = false)
    ⟨fun h => ⟨h.1, h.2.1, h.2.2.1, h.2.2.2.1, h.2.2.2.2⟩,
      fun h => ⟨h.ofRequests, h.install, h.resets, h.claim, h.oauth⟩⟩

/-! ## Steps -/

theorem length_statement {a : App} {c : TaskAnswer} {f : Row → Row} {next : List Task}
    (h : next.length ≤ 1) : (statement a c f next).2.length ≤ 1 := by
  unfold statement
  split
  · exact Nat.zero_le _
  · exact h

/-- One task at most goes on from a step. -/
theorem length_step_le (t : Task) (c : TaskAnswer) (a : App) : (t.step c a).2.length ≤ 1 := by
  cases t with
  | stopRecord | reloadFail _ | renameRestore _ | removeSpawnFailed _ | removalFailed | guardRecord =>
    exact length_statement (Nat.zero_le _)
  | renameStopped _ _ => exact length_statement (Nat.le_refl _)
  | renameRecord _ _ =>
    apply length_statement
    split <;> simp
  | stopApp | reloadApp _ _ | renameApp _ =>
    simp only [Task.step, resolve]
    repeat' split
    all_goals simp
  | worker caller pc =>
    simp only [Task.step]
    cases (Worker.step caller pc c.toAnswer a).2 <;> simp
  | _ =>
    simp only [Task.step]
    repeat' split
    all_goals simp

/-- Only a claim and the 'stopped' of a rename make a task hold the app. -/
theorem holds_of_leads {t u : Task} {a : App} (h : Leads a t u) (hu : u.holds = true) :
    t.holds = true ∨ t.claimsReload = true ∨ t.resets = true := by
  cases h with
  | claimed _ | unclaimed _ => exact .inr (.inl rfl)
  | renameDirs => exact .inr (.inr rfl)
  | renameRecord => exact .inl hu
  | renameWorker hup => exact .inl hup
  | @worker caller pc pc' c hpc =>
    cases pc with
    | handler _ => exact .inr (.inr rfl)
    | startProcess | markStarting => cases caller <;> exact .inl rfl
    | _ => cases caller <;> exact .inl rfl
  | reloadSpawn | reloadWorker | deployWorker => exact .inl rfl
  | _ => cases hu

theorem busy_update {a : App} {f : Row → Row} {st : Status} (hf : ∀ r, (f r).status = st)
    (hst : st.transient = true) : busy (a.update f).status = true := by
  cases hrow : a.row with
  | none => simp [busy, App.status, App.update, hrow]
  | some r => simp [busy, hrow, hf, hst]

/-- A worker that holds the app leaves the row busy where it goes on to a claimed step. -/
theorem Worker.busy_step {caller : Caller} {pc pc' : Pc} {c : Answer} {a : App}
    (hbusy : Task.claimed (.worker caller pc) = true → busy a.status = true)
    (hpc : (Worker.step caller pc c a).2 = some pc')
    (hclaimed : Task.claimed (.worker caller pc') = true) :
    busy (Worker.step caller pc c a).1.status = true := by
  have hstep := Worker.statusStep caller pc c a
  cases pc with
  | markStarting =>
    simp only [Worker.step] at hpc ⊢
    split at hpc
    · obtain rfl := Option.some.inj hpc
      cases hclaimed
    · exact busy_update Row.status_setStarting rfl
  | markLaunching _ =>
    simp only [Worker.step]
    split
    · exact hbusy (by cases caller <;> rfl)
    · exact busy_update Row.status_setStarting rfl
  | startProcess =>
    -- a rename that restarts the app has not marked it yet, and goes on to that statement only
    cases caller with
    | rename =>
      simp only [Worker.step, Answer.branch, Option.some.injEq] at hpc
      subst hpc
      cases hraised : missingRow a c <;> simp [hraised, Task.claimed] at hclaimed
    | _ => exact hbusy rfl
  | waitReady containerId =>
    simp only [Worker.step] at hpc ⊢
    split at hpc
    · exact hbusy (by cases caller <;> rfl)
    · cases hpc
  | recordFailure message containerId =>
    simp only [Worker.step] at hpc
    split at hpc <;> (obtain rfl := Option.some.inj hpc; cases hclaimed)
  | handler message =>
    cases caller <;> cases hpc
  | _ =>
    have hkept := hbusy (by cases caller <;> rfl)
    cases hstep with
    | keeps h => exact h ▸ hkept
    | deletes ht _ => cases ht
    | writes st _ _ hst _ => cases caller <;> cases hst

/-- A holder's step to a claimed task leaves the row busy. -/
theorem busy_of_claimed {t u : Task} {c : TaskAnswer} {a : App} (ht : t.holds = true)
    (hbusy : t.claimed = true → busy a.status = true) (hu : u ∈ (t.step c a).2)
    (hclaimed : u.claimed = true) : busy (t.step c a).1.status = true := by
  cases t with
  | worker caller pc =>
    simp only [Task.step, Option.mem_toList, Option.map_eq_some_iff] at hu ⊢
    obtain ⟨pc', hpc, rfl⟩ := hu
    exact Worker.busy_step hbusy hpc hclaimed
  | installSpawn | reloadSpawn => exact hbusy rfl
  | reloadStop row =>
    simp only [Task.step, status_stopProcess]
    exact hbusy rfl
  | renameDirs _ _ =>
    cases leads_of_mem_step hu <;> cases hclaimed
  | renameRecord _ _ =>
    cases leads_of_mem_step hu
    cases hclaimed
  | _ => cases ht

/-! ## The invariant -/

namespace Server

/-- One task at most holds the app, and the row says so if the task has claimed it. -/
structure Held (s : Server) : Prop where
  one : s.tasks.countP Task.holds ≤ 1
  busy : ∀ u ∈ s.tasks, u.claimed = true → busy s.status = true

theorem exclusive_of_held {s : Server} (h : s.Held) : s.Exclusive :=
  (List.countP_mono_left fun _ _ hl => holds_of_launches hl).trans h.one

theorem countP_eq_zero_of_free {s : Server} (h : s.Free) : s.tasks.countP Task.holds = 0 := by
  apply List.countP_eq_zero.mpr
  intro u hu
  simp [h u hu]

theorem not_claimed_of_free {s : Server} (h : s.Free) {u : Task} (hu : u ∈ s.tasks) :
    u.claimed = false := by
  have hholds := h u hu
  rw [Task.holds, Bool.or_eq_false_iff] at hholds
  exact hholds.1

/-- Where nobody holds the app, any one task may come to. -/
theorem held_of_free {s t : Server} {before new after : List Task} {task : Task} (hfree : s.Free)
    (htasks : s.tasks = before ++ task :: after) (htasks' : t.tasks = before ++ new ++ after)
    (hnew : new.length ≤ 1) (hbusy : ∀ u ∈ new, u.claimed = true → Apps.busy t.status = true) :
    t.Held := by
  have hothers : ∀ u ∈ before ++ after, u ∈ s.tasks := by
    intro u hu
    rw [htasks]
    exact Pool.mem_of_mem_others hu
  constructor
  · have hzero := countP_eq_zero_of_free hfree
    rw [htasks, List.countP_append, List.countP_cons] at hzero
    have hle : new.countP Task.holds ≤ new.length := List.countP_le_length
    rw [htasks', List.countP_append, List.countP_append]
    omega
  · rw [htasks']
    apply Pool.forall_tasks_of_step
    · intro u hu hclaimed
      rw [not_claimed_of_free hfree (hothers u hu)] at hclaimed
      cases hclaimed
    · exact hbusy

/-- The holder goes on: it is still the only one. -/
theorem held_of_holder {s t : Server} {before new after : List Task} {task : Task} (hs : s.Held)
    (htasks : s.tasks = before ++ task :: after) (htasks' : t.tasks = before ++ new ++ after)
    (htask : task.holds = true) (hnew : new.length ≤ 1)
    (hbusy : ∀ u ∈ new, u.claimed = true → Apps.busy t.status = true) : t.Held := by
  have hone := hs.one
  rw [htasks, List.countP_append, List.countP_cons_of_pos htask] at hone
  have hfree : ∀ u ∈ before ++ after, u.holds = false := by
    intro u hu
    have hzero : (before ++ after).countP Task.holds = 0 := by
      rw [List.countP_append]
      omega
    simpa using List.countP_eq_zero.mp hzero u hu
  constructor
  · have hle : new.countP Task.holds ≤ new.length := List.countP_le_length
    rw [htasks', List.countP_append, List.countP_append]
    omega
  · rw [htasks']
    apply Pool.forall_tasks_of_step
    · intro u hu hclaimed
      have hholds := hfree u hu
      rw [Task.holds, hclaimed] at hholds
      cases hholds
    · exact hbusy

/-- A task that neither holds nor comes to hold the app leaves the holder to itself. -/
theorem held_of_bystander {s t : Server} {before new after : List Task} {task : Task} (hs : s.Held)
    (htasks : s.tasks = before ++ task :: after) (htasks' : t.tasks = before ++ new ++ after)
    (hnew : ∀ u ∈ new, u.holds = false)
    (hstatus : ∀ u ∈ s.tasks, u.claimed = true → Apps.busy s.status = true →
      Apps.busy t.status = true) : t.Held := by
  constructor
  · have hone := hs.one
    rw [htasks, List.countP_append, List.countP_cons] at hone
    have hzero : new.countP Task.holds = 0 := by
      apply List.countP_eq_zero.mpr
      intro u hu
      simp [hnew u hu]
    rw [htasks', List.countP_append, List.countP_append, hzero]
    omega
  · rw [htasks']
    apply Pool.forall_tasks_of_step
    · intro u hu hclaimed
      have hmem : u ∈ s.tasks := by
        rw [htasks]
        exact Pool.mem_of_mem_others hu
      exact hstatus u hmem hclaimed (hs.busy u hmem hclaimed)
    · intro u hu hclaimed
      have hholds := hnew u hu
      rw [Task.holds, hclaimed] at hholds
      cases hholds

/-- Statements of bystanders that set a status which bars nobody are resets. -/
theorem busy_of_bystander {t : Task} {c : TaskAnswer} {a : App} (hh : t.holds = false)
    (hr : t.resets = false) (hbusy : Apps.busy a.status = true) :
    Apps.busy (t.step c a).1.status = true := by
  cases t.statusStep c a with
  | keeps h => rw [h, hbusy]
  | deletes _ h =>
    rw [h]
    rfl
  | writes st _ _ hst h =>
    rw [h]
    cases t with
    | reloadClaim _ _ | removeClaim =>
      obtain rfl := List.mem_singleton.mp hst
      rfl
    | worker caller pc =>
      -- a worker either holds the app or is in its handler
      cases caller <;> cases pc <;>
        simp [Task.holds, Task.claimed, Task.pending, Task.resets] at hh hr
    | _ => simp [Task.sets, Task.resets] at hst hr

/-- What goes on from a reset has claimed nothing. -/
theorem not_claimed_of_resets {t u : Task} {a : App} (ht : t.resets = true) (h : Leads a t u) :
    u.claimed = false := by
  cases h with
  | renameDirs => rfl
  | @worker caller pc pc' c hpc =>
    cases pc with
    | handler _ => cases caller <;> cases hpc
    | _ => cases ht
  | _ => cases ht

/-- A claim that is barred ends the reload, except for the OAuth continuation. -/
theorem continues_of_barred {t : Task} {c : TaskAnswer} {a : App} (ht : t.claimsReload = true)
    (hignores : t.ignoresClaim = false) (hbusy : Apps.busy a.status = true) :
    (t.step c a).2 = [] := by
  cases t with
  | reloadClaim o row =>
    obtain rfl : o = false := hignores
    have hbarred : (a.status.map Status.transient).getD true = true := hbusy
    simp only [Task.step, hbarred]
    split <;> rfl
  | _ => cases ht

/-- A claim that goes through makes the row busy. -/
theorem busy_of_claim {t u : Task} {c : TaskAnswer} {a : App} (ht : t.claimsReload = true)
    (hbusy : Apps.busy a.status = false) (hu : u ∈ (t.step c a).2) :
    Apps.busy (t.step c a).1.status = true := by
  cases t with
  | reloadClaim o row =>
    have hclaim : (a.status.map Status.transient).getD true = false := hbusy
    by_cases hraises : c.raises.isSome = true
    · simp [Task.step, hraises] at hu
    · simp only [Task.step, hclaim, if_neg hraises]
      exact busy_update Row.status_setBuilding rfl
  | _ => cases ht

/-- A task step that is in order keeps the app held by one task at most. -/
theorem held_of_task {s t : Server} {i : Nat} {c : TaskAnswer} (hs : s.Held)
    (hok : s.Orderly (.task i c)) (h : s.next (.task i c) = some t) : t.Held := by
  obtain ⟨before, task, after, htasks, hi, hshared, htasks', -⟩ := next_task h
  have hmem : task ∈ s.tasks := by rw [htasks]; simp
  have hmoving : task ∈ s.moving (.task i c) := hi
  have hstatus : t.status = (task.step c s.shared).1.status := by rw [status, hshared]
  have hlength := length_step_le task c s.shared
  by_cases hholds : task.holds = true
  · apply held_of_holder hs htasks htasks' hholds hlength
    intro u hu hclaimed
    rw [hstatus]
    exact busy_of_claimed hholds (hs.busy task hmem) hu hclaimed
  · by_cases hresets : task.resets = true
    · -- the condition: nobody holds the app
      apply held_of_free (hok.resets task hmoving hresets) htasks htasks' hlength
      intro u hu hclaimed
      rw [not_claimed_of_resets hresets (leads_of_mem_step hu)] at hclaimed
      cases hclaimed
    · by_cases hclaim : task.claimsReload = true
      · by_cases hbusy : Apps.busy s.status = true
        · -- barred, so no OAuth continuation and nothing goes on
          have hignores : task.ignoresClaim = false := by
            by_contra hignores
            have hfalse := hok.oauth task hmoving (by simpa using hignores)
            rw [hbusy] at hfalse
            cases hfalse
          have hnew : ∀ u ∈ (task.step c s.shared).2, u.holds = false := by
            rw [continues_of_barred hclaim hignores hbusy]
            simp
          apply held_of_bystander hs htasks htasks' hnew
          intro u _ _ _
          rw [hstatus]
          exact busy_of_bystander (by simpa using hholds) (by simpa using hresets) hbusy
        · have hbusy : Apps.busy s.status = false := by simpa using hbusy
          have hfree : s.Free := by
            intro u hu
            have hpending := hok.claim task hmoving hclaim hbusy u hu
            have hclaimed : u.claimed = false := by
              by_contra hclaimed
              have htrue := hs.busy u hu (by simpa using hclaimed)
              rw [hbusy] at htrue
              cases htrue
            rw [Task.holds, hclaimed, hpending]
            rfl
          apply held_of_free hfree htasks htasks' hlength
          intro u hu _
          rw [hstatus]
          exact busy_of_claim hclaim hbusy hu
      · apply held_of_bystander hs htasks htasks'
        · intro u hu
          by_contra hu'
          rcases holds_of_leads (leads_of_mem_step hu) (by simpa using hu') with h | h | h
          · exact hholds h
          · exact hclaim h
          · exact hresets h
        · intro u _ _ hbusy
          rw [hstatus]
          exact busy_of_bystander (by simpa using hholds) (by simpa using hresets) hbusy

/-- A task that begins holds nothing yet, but for an installation. -/
theorem held_of_spawn {s t : Server} {u : Task} (hs : s.Held) (hu : u.holds = false)
    (htasks : t.tasks = s.tasks ++ [u]) (hshared : t.shared = s.shared) : t.Held := by
  have hstatus : t.status = s.status := status_of_shared hshared
  constructor
  · rw [htasks, List.countP_append, List.countP_singleton, hu]
    exact hs.one
  · intro v hv hclaimed
    rw [hstatus]
    rw [htasks] at hv
    rcases List.mem_append.mp hv with hv | hv
    · exact hs.busy v hv hclaimed
    · obtain rfl := List.mem_singleton.mp hv
      rw [Task.holds, hclaimed] at hu
      cases hu

theorem held_of_next {s t : Server} {a : Action} (hs : s.Held) (hok : s.Orderly a)
    (h : s.next a = some t) : t.Held := by
  rcases plain_of_next h with hplain | ⟨i, c, rfl⟩
  · cases hplain with
    | install hrow hstatus htasks =>
      have hfree := hok.install rfl
      constructor
      · rw [htasks, List.countP_append, countP_eq_zero_of_free hfree]
        exact Nat.le_refl _
      · intro _ _ _
        rw [hstatus]
        rfl
    | request r _ hshared htasks => exact held_of_spawn hs (by cases r <;> rfl) htasks hshared
    | guard hshared htasks => exact held_of_spawn hs rfl htasks hshared
    | crash _ htasks _ => constructor <;> simp [htasks]
    | resume _ _ | promote _ _ _ | boot _ _ _ _ => cases hok.ofRequests
  · exact held_of_task hs hok h

/-- In every run of orderly steps one task at most builds or launches the app's container. -/
theorem exclusive_of_reach {s₀ s : Server} (hstart : s₀.tasks = []) (hrun : Reach Step Orderly s₀ s) :
    s.Exclusive := by
  have hheld : s.Held := by
    apply hrun.invariant Held
    · constructor <;> simp [hstart]
    · intro _ _ _ hs hok hnext
      exact held_of_next hs hok hnext
  exact exclusive_of_held hheld

end Server

/-! ## Two runs -/

/-- An app that is up. -/
def wikiRow : Row where
  name := "wiki"
  status := .running
  containerId := some "c0"
  errorMessage := none
  repoPath := "/data/repos/wiki"
  manifestRaw := some "[app]"
  createdAt := 0

/-- A server on which the app is up, with nothing in flight. -/
def wikiUp : Server where
  shared := { row := some wikiRow, containers := [{ id := "c0", name := "openhost-wiki", running := true }] }
  tasks := []
  serving := true

/-- A reload is claimed and its worker builds; the app is stopped; a second reload is claimed. -/
def stopWhileBuilding : List Action :=
  [.request (.reload false)] ++ List.replicate 8 (.task 0 {}) ++
    [.request .stop] ++ List.replicate 3 (.task 1 {}) ++
    [.request (.reload false)] ++ List.replicate 8 (.task 1 {})

/-- Both workers are at work. -/
def twoBuilds : Server where
  shared :=
    { row := some { wikiRow with status := .starting, containerId := none, errorMessage := none }
      containers := [] }
  tasks := [.worker .reload .build, .worker .reload .build]
  serving := true

/-- Two workers build the container of one app. -/
theorem twoBuilds_not_exclusive :
    wikiUp.tasks = [] ∧ Reach Server.Step (fun _ a => a.ofRequests = true) wikiUp twoBuilds ∧
      ¬ twoBuilds.Exclusive := by
  have hrun : runAll Server.next (fun _ a => a.ofRequests = true) wikiUp stopWhileBuilding =
      some twoBuilds := by decide
  exact ⟨rfl, reach_of_run hrun, by decide⟩

/-- A reload that nobody disturbs, up to the build. -/
def oneBuild : Server where
  shared :=
    { row := some { wikiRow with status := .starting, containerId := none, errorMessage := none }
      containers := [] }
  tasks := [.worker .reload .build]
  serving := true

/-- Its worker is the only one. -/
theorem oneBuild_exclusive : oneBuild.Exclusive := by
  have hrun : runAll Server.next Server.Orderly wikiUp
      ([.request (.reload false)] ++ List.replicate 8 (.task 0 {})) = some oneBuild := by decide
  exact Server.exclusive_of_reach rfl (reach_of_run hrun)

end OpenHost.Apps

import OpenHost.Apps.Steps
import OpenHost.Apps.StartupSweep

/-!
# Relaunches after a change of the primary domain

`set_primary_domain` marks the apps that are up and hands them to the startup recovery.  The lifecycle
of one app is taken up again, with the primary domain, the zone domain in the environment that a worker
has prepared, and the zone domain under which each container was started.
-/

namespace OpenHost.Apps

/-! ## Zone domains -/

/-- The app, the primary domain in the `domains` table, and the zone domain of each container, the
latest first. -/
structure ZonedApp where
  app : App
  primary : String
  startedUnder : List (String × Option String)
  deriving DecidableEq

/-- A task, with the zone domain in the environment it holds. -/
structure ZonedTask where
  task : Task
  zone : Option String
  deriving DecidableEq

/-- `make_data_dirs_and_env_vars` takes the primary domain of the moment; for a deploy that was done
before the row was inserted. -/
def ZonedTask.zoneAfter (t : ZonedTask) (primary : String) : Option String :=
  match t.task with
  | .worker .deploy (.prepare _) => t.zone
  | .worker _ (.prepare _) => some primary
  | _ => t.zone

/-- The container that the step starts. -/
def Task.starts (t : Task) (c : TaskAnswer) : Option String :=
  match t with
  | .worker _ (.launch _) => if c.raises.isNone || c.effective then some c.containerId else none
  | _ => none

/-- One step of a task. -/
def ZonedTask.step (t : ZonedTask) (c : TaskAnswer) (z : ZonedApp) : ZonedApp × List ZonedTask :=
  ({ z with
      app := (t.task.step c z.app).1
      startedUnder := ((t.task.starts c).map fun k => (k, t.zone)).toList ++ z.startedUnder },
    (t.task.step c z.app).2.map fun u => ⟨u, t.zoneAfter z.primary⟩)

/-- The server, with the zone domains. -/
structure ZonedServer extends Pool ZonedApp ZonedTask where
  serving : Bool
  deriving DecidableEq

namespace ZonedServer

/-- The server without the zone domains. -/
def forget (z : ZonedServer) : Server where
  shared := z.shared.app
  tasks := z.tasks.map ZonedTask.task
  serving := z.serving

def withApp (z : ZonedServer) (a : App) : ZonedServer :=
  { z with shared := { z.shared with app := a } }

/-- A task begins, with an environment for a deploy. -/
def spawn (z : ZonedServer) (t : Task) (zone : Option String) : ZonedServer :=
  { z with tasks := z.tasks ++ [⟨t, zone⟩] }

/-- `check_app_status` -/
def recover (z : ZonedServer) (c : BootAnswer) : ZonedServer :=
  match z.shared.app.row with
  | some row =>
    { shared := { z.shared with app := { z.shared.app with row := some (checkAppStatus c row).1 } }
      tasks := z.tasks ++ (Server.recoveryTasks (checkAppStatus c row).2).map fun t => ⟨t, none⟩
      serving := true }
  | none => { z with serving := true }

/-- One step of the server; for `set_primary_domain` see `setPrimaryDomain`. -/
def next (z : ZonedServer) (a : Action) : Option ZonedServer :=
  match a with
  | .install row =>
    if z.shared.app.row.isNone then
      some ((z.withApp { z.shared.app with row := some row.setBuilding }).spawn .installSpawn
        (some z.shared.primary))
    else none
  | .request r => if z.serving then some (z.spawn r.task none) else none
  | .guard => if z.serving then some (z.spawn .guardRead none) else none
  | .resume => if z.serving then some (z.spawn (.worker .resume Caller.resume.start) none) else none
  | .promote => none
  | .task i c => (z.toPool.stepAt ZonedTask.step i c).map fun p => { z with toPool := p }
  | .crash => some { shared := z.shared, tasks := [], serving := false }
  | .boot c => if z.serving then none else some (z.recover c)

def Step (z : ZonedServer) (a : Action) (z' : ZonedServer) : Prop := z.next a = some z'

/-- `set_primary_domain`, when it commits a change. -/
def setPrimaryDomain (name : String) (z : ZonedServer) : Option ZonedServer :=
  if z.serving && name ≠ z.shared.primary &&
      !((z.shared.app.status.map Status.transient).getD false) then
    some { z with shared := { z.shared with app := z.shared.app.update promoteRow, primary := name } }
  else none

/-- The task that moves. -/
def moving (z : ZonedServer) : Action → Option ZonedTask
  | .task i _ => z.tasks[i]?
  | _ => none

/-- The status in the row. -/
def status (z : ZonedServer) : Option Status := z.shared.app.status

/-- The app waits for its relaunch. -/
def marked (z : ZonedServer) : Bool := z.shared.app.row.any Row.promotionRestart

/-- The zone domain under which the container was started. -/
def zoneOf (z : ZonedServer) (containerId : String) : Option (Option String) :=
  z.shared.startedUnder.lookup containerId

end ZonedServer

/-! ## The plain lifecycle -/

namespace ZonedServer

variable {z z' : ZonedServer}

theorem forget_stepAt {i : Nat} {c : TaskAnswer} {p : Pool ZonedApp ZonedTask}
    (h : z.toPool.stepAt ZonedTask.step i c = some p) :
    z.forget.toPool.stepAt Task.step i c = some ⟨p.shared.app, p.tasks.map ZonedTask.task⟩ := by
  unfold Pool.stepAt at h ⊢
  have hget : z.forget.toPool.tasks[i]? = z.tasks[i]?.map ZonedTask.task := List.getElem?_map
  rw [hget]
  cases hi : z.tasks[i]? with
  | none =>
    rw [hi] at h
    cases h
  | some t =>
    rw [hi] at h
    cases h
    simp only [Option.map_some, forget, ZonedTask.step, List.map_append, List.map_take, List.map_drop,
      List.map_map]
    congr 4
    simp [Function.comp_def]

theorem forget_spawn (z : ZonedServer) (t : Task) (zone : Option String) :
    (z.spawn t zone).forget = z.forget.spawn t := by
  simp [forget, spawn, Server.spawn]

theorem forget_recover (z : ZonedServer) (c : BootAnswer) : (z.recover c).forget = z.forget.recover c := by
  unfold recover Server.recover forget
  dsimp only
  cases z.shared.app.row with
  | none => rfl
  | some row => simp [Function.comp_def]

/-- A step with zone domains is a step of the lifecycle. -/
theorem next_forget {a : Action} (h : z.next a = some z') : z.forget.next a = some z'.forget := by
  cases a with
  | install row =>
    simp only [next] at h
    split at h <;> cases h
    rename_i hrow
    have hnew : z.forget.shared.row.isNone = true := hrow
    simp only [Server.next, if_pos hnew, forget_spawn]
    rfl
  | request r =>
    simp only [next] at h
    split at h <;> cases h
    rename_i hserving
    have hserves : z.forget.serving = true := hserving
    simp only [Server.next, if_pos hserves, forget_spawn]
  | guard =>
    simp only [next] at h
    split at h <;> cases h
    rename_i hserving
    have hserves : z.forget.serving = true := hserving
    simp only [Server.next, if_pos hserves, forget_spawn]
  | resume =>
    simp only [next] at h
    split at h <;> cases h
    rename_i hserving
    have hserves : z.forget.serving = true := hserving
    simp only [Server.next, if_pos hserves, forget_spawn]
  | promote => cases h
  | task i c =>
    obtain ⟨p, hp, rfl⟩ := Option.map_eq_some_iff.mp h
    rw [Server.next, forget_stepAt hp]
    rfl
  | crash =>
    cases h
    rfl
  | boot c =>
    simp only [next] at h
    split at h <;> cases h
    rename_i hserving
    have hserves : ¬ z.forget.serving = true := hserving
    simp only [Server.next, if_neg hserves, forget_recover]

theorem setPrimaryDomain_forget {name : String} (h : z.setPrimaryDomain name = some z') :
    z.forget.next .promote = some z'.forget := by
  unfold setPrimaryDomain at h
  split at h <;> cases h
  rename_i hcommits
  simp only [Bool.and_eq_true] at hcommits
  simp only [Server.next, forget, Server.status, hcommits.1.1, hcommits.2, Bool.and_self, if_true]

/-- The task between the others has moved. -/
structure Moved (z : ZonedServer) (c : TaskAnswer) (before : List ZonedTask) (t : ZonedTask)
    (after : List ZonedTask) (z' : ZonedServer) : Prop where
  tasks : z.tasks = before ++ t :: after
  shared : z'.shared = (t.step c z.shared).1
  tasks' : z'.tasks = before ++ (t.step c z.shared).2 ++ after
  serving : z'.serving = z.serving

theorem next_task {i : Nat} {c : TaskAnswer} (h : z.next (.task i c) = some z') :
    ∃ before t after, z.moving (.task i c) = some t ∧ z.Moved c before t after z' := by
  obtain ⟨p, hp, rfl⟩ := Option.map_eq_some_iff.mp h
  obtain ⟨before, t, after, htasks, hi, rfl⟩ := Pool.stepAt_cases hp
  exact ⟨before, t, after, hi, htasks, rfl, rfl, rfl⟩

namespace Moved

variable {c : TaskAnswer} {before after : List ZonedTask} {t u : ZonedTask}

theorem mem (h : z.Moved c before t after z') : t ∈ z.tasks := by
  rw [h.tasks]
  exact List.mem_append_right _ List.mem_cons_self

theorem mem_others (h : z.Moved c before t after z') (hu : u ∈ before ++ after) : u ∈ z.tasks := by
  rw [h.tasks]
  exact Pool.mem_of_mem_others hu

/-- A task is one of the others, or goes on from the one that moved. -/
theorem mem_cases (h : z.Moved c before t after z') (hu : u ∈ z'.tasks) :
    u ∈ before ++ after ∨ u ∈ (t.step c z.shared).2 := by
  rw [h.tasks'] at hu
  rcases List.mem_append.mp hu with hu | hu
  · rcases List.mem_append.mp hu with hu | hu
    · exact .inl (List.mem_append_left _ hu)
    · exact .inr hu
  · exact .inl (List.mem_append_right _ hu)

theorem app (h : z.Moved c before t after z') :
    z'.shared.app = (t.task.step c z.shared.app).1 := by
  rw [h.shared]
  rfl

end Moved

end ZonedServer

/-! ## Runs without the owner -/

/-- Not an operation of the owner on the app. -/
def Action.automatic : Action → Bool
  | .task _ _ | .guard | .crash | .boot _ => true
  | .install _ | .request _ | .resume | .promote => false

/-- A step of the storage guard. -/
def Task.ofGuard : Task → Bool
  | .guardRead | .guardStop _ | .guardRecord => true
  | _ => false

/-- A step of `_restart_apps_sequential`. -/
def Task.ofRecovery : Task → Bool
  | .worker (.recovery _) _ => true
  | _ => false

namespace ZonedServer

/-- No operation of the owner, and no step of the storage guard while the app waits for its relaunch. -/
structure Undisturbed (z : ZonedServer) (a : Action) : Prop where
  automatic : a.automatic = true
  noGuard : z.marked = true → a ≠ .guard ∧ ∀ t ∈ z.moving a, t.task.ofGuard = false

instance (z : ZonedServer) (a : Action) : Decidable (z.Undisturbed a) :=
  decidable_of_iff (a.automatic = true ∧
      (z.marked = true → a ≠ .guard ∧ ∀ t ∈ z.moving a, t.task.ofGuard = false))
    ⟨fun h => ⟨h.1, h.2⟩, fun h => ⟨h.automatic, h.noGuard⟩⟩

/-- What a change of the primary domain to `name` asks of a state, and of the steps from it. -/
structure Relaunches (ok : ZonedServer → Action → Prop) (name : String) (z : ZonedServer) : Prop where
  /-- The app stays marked until a relaunch has taken it to 'running' or 'error'. -/
  untilRelaunched : z.marked = true → ∀ a z', ok z a → z.Step a z' → z'.marked = true ∨
    (z'.status = some .running ∨ z'.status = some .error) ∧
      ((∃ c, a = .boot c) ∨ ∃ t ∈ z.moving a, t.task.ofRecovery = true)
  /-- A boot queues it once, or puts it in 'error'. -/
  queuedOnce : z.marked = true → ∀ c z', z.Step (.boot c) z' →
    (z'.marked = true ∧ ∃ needsBuild,
        z'.tasks = [⟨.worker (.recovery needsBuild) .connect, none⟩]) ∨
      z'.status = some .error ∧ z'.tasks = []
  /-- It is not 'running' with a container of another domain. -/
  zone : z.status = some .running → ∀ row k, z.shared.app.row = some row →
    row.containerId = some k → z.zoneOf k = some (some name)

end ZonedServer

/-! ## Steps of the recovery worker -/

/-- The worker waits for the container that it has recorded. -/
def Task.waits : Task → Bool
  | .worker _ (.waitReady _) => true
  | _ => false

/-- What a recovery worker does to the row. -/
inductive RecoveryStep (needsBuild : Bool) (pc : Pc) (row : Row) : Row → Option Pc → Prop where
  | keeps {pc' : Option Pc} (h : ∀ k, pc' ≠ some (.waitReady k)) : RecoveryStep needsBuild pc row row pc'
  | marks {pc' : Option Pc} (h : ∀ k, pc' ≠ some (.waitReady k)) :
      RecoveryStep needsBuild pc row row.setStarting pc'
  | records (k : String) (h : pc = .recordContainer k) :
      RecoveryStep needsBuild pc row (row.setContainer k) (some (.waitReady k))
  | runs {k : String} (h : pc = .waitReady k) : RecoveryStep needsBuild pc row row.setRunning none
  | fails {row' : Row} {pc' : Option Pc} (hstatus : row'.status = .error)
      (h : ∀ k, pc' ≠ some (.waitReady k)) : RecoveryStep needsBuild pc row row' pc'

theorem branch_cases {raised : Option String} {failed : String → Pc} {next pc : Pc}
    (h : Answer.branch raised failed next = some pc) : (∃ m, pc = failed m) ∨ pc = next := by
  unfold Answer.branch at h
  cases raised with
  | none => exact .inr (Option.some.inj h).symm
  | some m => exact .inl ⟨m, (Option.some.inj h).symm⟩

theorem branch_ne_waitReady {raised : Option String} {failed : String → Pc} {next : Pc} {k : String}
    (hfailed : ∀ m, failed m ≠ .waitReady k) (hnext : next ≠ .waitReady k) :
    Answer.branch raised failed next ≠ some (.waitReady k) := by
  intro h
  rcases branch_cases h with ⟨m, hm⟩ | hm
  · exact hfailed m hm.symm
  · exact hnext hm.symm

theorem recovery_step (needsBuild : Bool) {pc : Pc} {c : Answer} {a : App} {row : Row}
    (hrow : a.row = some row) (hpc : pc ≠ .reloadStart) :
    ∃ row', (Worker.step (.recovery needsBuild) pc c a).1.row = some row' ∧
      RecoveryStep needsBuild pc row row' (Worker.step (.recovery needsBuild) pc c a).2 := by
  cases pc with
  | connect =>
    refine ⟨row, hrow, .keeps fun k => ?_⟩
    simp only [Worker.step]
    split
    · simp
    · cases needsBuild <;> simp [Caller.start]
  | deployStart | startProcess | restartProcess | build | prepare _ =>
    exact ⟨row, hrow, .keeps fun k => branch_ne_waitReady (by simp) (by simp)⟩
  | reloadStart => exact absurd rfl hpc
  | markStarting =>
    simp only [Worker.step]
    split
    · exact ⟨row, hrow, .keeps (by simp)⟩
    · exact ⟨row.setStarting, by simp [hrow], .marks (by simp)⟩
  | readRow =>
    simp only [Worker.step]
    split
    · exact ⟨row, hrow, .keeps (by simp)⟩
    · exact ⟨row, hrow, .keeps (by simp)⟩
  | markLaunching snapshot =>
    simp only [Worker.step]
    split
    · exact ⟨row, hrow, .keeps (by simp)⟩
    · exact ⟨row.setStarting, by simp [hrow], .marks (by simp)⟩
  | launch snapshot =>
    simp only [Worker.step]
    split
    · split
      · exact ⟨row, hrow, .keeps (by simp)⟩
      · exact ⟨row, hrow, .keeps (by simp)⟩
    · exact ⟨row, hrow, .keeps (by simp)⟩
  | recordContainer k =>
    simp only [Worker.step]
    split
    · exact ⟨row, hrow, .keeps (by simp)⟩
    · exact ⟨row.setContainer k, by simp [hrow], .records k rfl⟩
  | waitReady k =>
    simp only [Worker.step]
    split
    · exact ⟨row, hrow, .keeps (by simp)⟩
    · split
      · exact ⟨row.setRunning, by simp [hrow], .runs rfl⟩
      · exact ⟨row.setError "App started but not responding to HTTP", by simp [hrow],
          .fails rfl (by simp)⟩
  | cleanUp k message =>
    simp only [Worker.step]
    split
    · exact ⟨row, hrow, .keeps (by simp)⟩
    · exact ⟨row, hrow, .keeps (by simp)⟩
  | recordFailure message containerId =>
    simp only [Worker.step]
    split
    · exact ⟨row, hrow, .keeps (by simp)⟩
    · exact ⟨row.setLaunchError message containerId, by simp [hrow], .fails rfl (by simp)⟩
  | handler message =>
    simp only [Worker.step]
    split
    · exact ⟨row, hrow, .keeps (by simp)⟩
    · exact ⟨row.setError message, by simp [hrow], .fails rfl (by simp)⟩

/-- A place between the preparation of the environment and the record of the container, or one that a
recovery worker does not come to. -/
def Pc.launching : Pc → Bool
  | .markLaunching _ | .launch _ | .recordContainer _ => true
  | .deployStart | .reloadStart => true
  | _ => false

/-- How a recovery worker comes to launch a container and to record it. -/
inductive LaunchStep (c : Answer) (pc : Pc) : Pc → Prop where
  | prepared {row : Row} (h : pc = .prepare row) : LaunchStep c pc (.markLaunching row)
  | marked {row : Row} (h : pc = .markLaunching row) : LaunchStep c pc (.launch row)
  | launched {row : Row} (h : pc = .launch row) (hraises : c.raises = none) :
      LaunchStep c pc (.recordContainer c.containerId)
  | other {pc' : Pc} (h : pc'.launching = false) : LaunchStep c pc pc'

theorem launchStep_of_branch {c : Answer} {pc pc' : Pc} {raised : Option String} {failed : String → Pc}
    {next : Pc} (hfailed : ∀ m, (failed m).launching = false) (hnext : LaunchStep c pc next)
    (h : Answer.branch raised failed next = some pc') : LaunchStep c pc pc' := by
  rcases branch_cases h with ⟨m, rfl⟩ | rfl
  · exact .other (hfailed m)
  · exact hnext

theorem recovery_leads {needsBuild : Bool} {pc pc' : Pc} {c : Answer} {a : App}
    (h : (Worker.step (.recovery needsBuild) pc c a).2 = some pc') : LaunchStep c pc pc' := by
  cases pc with
  | connect =>
    simp only [Worker.step] at h
    split at h
    · cases h
    · obtain rfl := Option.some.inj h
      cases needsBuild <;> exact .other rfl
  | deployStart | startProcess | restartProcess | build =>
    exact launchStep_of_branch (fun _ => rfl) (.other rfl) h
  | prepare row => exact launchStep_of_branch (fun _ => rfl) (.prepared rfl) h
  | reloadStart =>
    simp only [Worker.step] at h
    split at h
    · cases h
    · exact launchStep_of_branch (fun _ => rfl) (.other rfl) h
  | markStarting =>
    simp only [Worker.step] at h
    split at h <;> obtain rfl := Option.some.inj h <;> exact .other rfl
  | readRow =>
    simp only [Worker.step] at h
    split at h <;> obtain rfl := Option.some.inj h <;> exact .other rfl
  | markLaunching row =>
    simp only [Worker.step] at h
    split at h <;> obtain rfl := Option.some.inj h
    · exact .other rfl
    · exact .marked rfl
  | launch row =>
    simp only [Worker.step] at h
    split at h <;> obtain rfl := Option.some.inj h
    · exact .other rfl
    · rename_i hraises
      exact .launched rfl hraises
  | recordContainer k =>
    simp only [Worker.step] at h
    split at h <;> obtain rfl := Option.some.inj h <;> exact .other rfl
  | waitReady k =>
    simp only [Worker.step] at h
    cases hraises : c.raises with
    | none =>
      rw [hraises] at h
      simp at h
    | some message =>
      rw [hraises] at h
      obtain rfl := Option.some.inj h
      exact .other rfl
  | cleanUp k message =>
    obtain rfl := Option.some.inj h
    exact .other rfl
  | recordFailure message containerId =>
    simp only [Worker.step] at h
    split at h <;> obtain rfl := Option.some.inj h <;> exact .other rfl
  | handler message => cases h

/-! ## The invariant -/

/-- What the recovery of an app prepares and launches, it does under `name`; the storage guard is the
only other task. -/
def ZonedTask.Fits (name : String) (startedUnder : List (String × Option String)) (t : ZonedTask) : Prop :=
  match t.task with
  | .worker (.recovery _) pc =>
    match pc with
    | .deployStart | .reloadStart => False
    | .markLaunching _ | .launch _ => t.zone = some name
    | .recordContainer k => startedUnder.lookup k = some (some name)
    | _ => True
  | .guardRead | .guardStop _ | .guardRecord => True
  | _ => False

section

variable {name : String} {l : List (String × Option String)} {t : ZonedTask} {c : TaskAnswer}

theorem ZonedTask.Fits.cases (h : t.Fits name l) :
    (∃ needsBuild pc, t.task = .worker (.recovery needsBuild) pc ∧ pc ≠ .reloadStart) ∨
      t.task.ofGuard = true := by
  obtain ⟨task, zone⟩ := t
  cases task with
  | worker caller pc =>
    cases caller with
    | recovery needsBuild =>
      refine .inl ⟨needsBuild, pc, rfl, ?_⟩
      rintro rfl
      exact h
    | deploy | reload | rename | resume => exact h.elim
  | guardRead | guardStop _ | guardRecord => exact .inr rfl
  | _ => exact h.elim

/-- A container is started under the zone domain of the launch. -/
theorem ZonedTask.Fits.zone_of_starts {k : String} (h : t.Fits name l)
    (hstarts : t.task.starts c = some k) : t.zone = some name := by
  obtain ⟨task, zone⟩ := t
  cases task with
  | worker caller pc =>
    cases caller with
    | recovery needsBuild =>
      cases pc with
      | launch row => exact h
      | _ => cases hstarts
    | deploy | reload | rename | resume => exact h.elim
  | _ => cases hstarts

/-- A start under `name` hides no container that was started under it. -/
theorem ZonedTask.Fits.lookup_starts {k : String} (h : t.Fits name l)
    (hk : l.lookup k = some (some name)) :
    (((t.task.starts c).map fun k => (k, t.zone)).toList ++ l).lookup k = some (some name) := by
  cases hstarts : t.task.starts c with
  | none => exact hk
  | some started =>
    rw [h.zone_of_starts hstarts]
    show List.lookup k ((started, some name) :: l) = _
    rw [List.lookup_cons]
    split
    · rfl
    · exact hk

theorem ZonedTask.Fits.mono {l' : List (String × Option String)} (h : t.Fits name l)
    (hl : ∀ k, l.lookup k = some (some name) → l'.lookup k = some (some name)) : t.Fits name l' := by
  obtain ⟨task, zone⟩ := t
  cases task with
  | worker caller pc =>
    cases caller with
    | recovery needsBuild =>
      cases pc with
      | recordContainer k => exact hl k h
      | _ => exact h
    | deploy | reload | rename | resume => exact h
  | _ => exact h

/-- A step of the recovery worker goes on under the primary domain. -/
theorem fits_of_recovery {needsBuild : Bool} {pc : Pc} {z : ZonedApp} {u : ZonedTask}
    (ht : t.task = .worker (.recovery needsBuild) pc) (h : t.Fits z.primary z.startedUnder)
    (hu : u ∈ (t.step c z).2) : u.Fits z.primary (t.step c z).1.startedUnder := by
  obtain ⟨task, zone⟩ := t
  obtain rfl : task = .worker (.recovery needsBuild) pc := ht
  obtain ⟨v, hv, rfl⟩ := List.mem_map.mp hu
  obtain ⟨pc', hpc', rfl⟩ := Option.mem_toList.mp hv |> Option.map_eq_some_iff.mp
  cases recovery_leads hpc' with
  | prepared hpc =>
    subst hpc
    rfl
  | marked hpc =>
    subst hpc
    exact h
  | launched hpc hraises =>
    subst hpc
    have hzone : zone = some z.primary := h
    simp [ZonedTask.Fits, ZonedTask.step, Task.starts, hraises, hzone]
  | other hother =>
    cases pc' with
    | deployStart | reloadStart | markLaunching _ | launch _ | recordContainer _ => cases hother
    | _ => trivial

end

/-! ## What a step keeps -/

/-- `checkAppStatus` of an app that is marked. -/
theorem checkAppStatus_of_marked {c : BootAnswer} {row : Row} (h : row.promotionRestart = true) :
    checkAppStatus c row = (row.setError (cannotRecover row.repoPath), none) ∨
      ∃ needsBuild, checkAppStatus c row = (row, some needsBuild) := by
  obtain ⟨name, status, containerId, errorMessage, repoPath, manifestRaw, createdAt⟩ := row
  obtain ⟨hstatus, hmessage⟩ := Bool.and_eq_true_iff.mp h
  obtain rfl : status = .starting := of_decide_eq_true hstatus
  obtain rfl : errorMessage = some primaryDomainRestartMarker := of_decide_eq_true hmessage
  simp only [checkAppStatus, decide_true, Bool.and_self, Bool.not_true, Bool.false_and, Bool.and_false,
    ne_eq, not_true_eq_false, decide_false, Bool.false_eq_true, if_false]
  split
  · exact .inl rfl
  · exact .inr ⟨_, rfl⟩

/-- `checkAppStatus` of an app that is not being built. -/
theorem checkAppStatus_shape {c : BootAnswer} {row : Row} (h : row.status ≠ .building) :
    (checkAppStatus c row).1 = row ∨ (checkAppStatus c row).1.status = .starting ∨
      (checkAppStatus c row).1.status = .error := by
  unfold checkAppStatus
  cases hs : row.status with
  | building => exact absurd hs h
  | running | starting =>
    dsimp only
    split
    · exact .inl rfl
    split
    · exact .inl rfl
    split
    · exact .inr (.inr rfl)
    split
    · exact .inr (.inl rfl)
    · exact .inr (.inl rfl)
  | error =>
    dsimp only
    split
    · exact .inr (.inl rfl)
    · exact .inl rfl
  | stopped | removing => exact .inl rfl

/-- The storage guard keeps the row, or puts the app in error without a container. -/
theorem guard_step {t : Task} {c : TaskAnswer} {a : App} {row : Row} (ht : t.ofGuard = true)
    (hrow : a.row = some row) :
    (∃ row', (t.step c a).1.row = some row' ∧
        (row' = row ∨ row'.status = .error ∧ row'.containerId = none)) ∧
      ∀ u ∈ (t.step c a).2, u.ofGuard = true := by
  cases t with
  | guardRead =>
    refine ⟨⟨row, hrow, .inl rfl⟩, fun u hu => ?_⟩
    simp only [Task.step, hrow] at hu
    split at hu
    · rw [List.mem_singleton.mp hu]
      rfl
    · cases hu
  | guardStop snapshot =>
    refine ⟨⟨row, ?_, .inl rfl⟩, fun u hu => ?_⟩
    · simp only [Task.step, stopProcess]
      split
      · rw [App.row_stopAppProcess, hrow]
      · exact hrow
    · rw [List.mem_singleton.mp hu]
      rfl
  | guardRecord =>
    refine ⟨?_, fun u hu => ?_⟩
    · simp only [Task.step, statement]
      split
      · exact ⟨row, hrow, .inl rfl⟩
      · exact ⟨{ row.setError storageTooLow with containerId := none }, by simp [hrow], .inr ⟨rfl, rfl⟩⟩
    · exact absurd (mem_statement hu) (List.not_mem_nil)
  | _ => cases ht

namespace ZonedServer

/-- What holds after the primary domain was changed to `name`. -/
structure Promoted (name : String) (z : ZonedServer) : Prop where
  primary : z.shared.primary = name
  row : ∃ row, z.shared.app.row = some row ∧
    (row.status = .starting ∨ row.status = .running ∨ row.status = .error)
  idle : z.serving = false → z.tasks = []
  fits : ∀ t ∈ z.tasks, t.Fits name z.shared.startedUnder
  /-- One worker recovers the app. -/
  single : z.tasks.countP (fun t => t.task.ofRecovery) ≤ 1
  zone : (z.status = some .running ∨ ∃ t ∈ z.tasks, t.task.waits = true) →
    ∀ row k, z.shared.app.row = some row → row.containerId = some k → z.zoneOf k = some (some name)

variable {z z' : ZonedServer} {name : String}

theorem status_eq {row : Row} (h : z.shared.app.row = some row) : z.status = some row.status := by
  rw [status, App.status, h]
  rfl

theorem marked_eq {row : Row} (h : z.shared.app.row = some row) : z.marked = row.promotionRestart := by
  rw [marked, h]
  rfl

/-- A task that waits for a container is a recovery worker. -/
theorem ofRecovery_of_waits {t : ZonedTask} {l : List (String × Option String)} (h : t.Fits name l)
    (hwaits : t.task.waits = true) : t.task.ofRecovery = true := by
  rcases h.cases with ⟨needsBuild, pc, heq, -⟩ | hguard
  · rw [heq]
    rfl
  · obtain ⟨task, zone⟩ := t
    cases task with
    | worker _ _ => cases hguard
    | _ => cases hwaits

theorem promoted_of_boot {c : BootAnswer} (hs : z.Promoted name) (h : z.Step (.boot c) z') :
    z'.Promoted name := by
  simp only [Step, next] at h
  split at h <;> cases h
  rename_i hserving
  have htasks : z.tasks = [] := hs.idle (by simpa using hserving)
  obtain ⟨row, hrow, hstatus⟩ := hs.row
  have hnot : row.status ≠ .building := by
    rintro hbuilding
    simp [hbuilding] at hstatus
  have hshape := checkAppStatus_shape (c := c) hnot
  have hrecover : z.recover c =
      { shared := { z.shared with app := { z.shared.app with row := some (checkAppStatus c row).1 } }
        tasks := (Server.recoveryTasks (checkAppStatus c row).2).map fun t => ⟨t, none⟩
        serving := true } := by
    simp only [recover, hrow, htasks, List.nil_append]
  rw [hrecover]
  generalize checkAppStatus c row = swept at hshape ⊢
  obtain ⟨row', queued⟩ := swept
  have hnew : ∀ t ∈ (Server.recoveryTasks queued).map fun t => (⟨t, none⟩ : ZonedTask),
      ∃ needsBuild, t = ⟨.worker (.recovery needsBuild) .connect, none⟩ := by
    intro t ht
    obtain ⟨u, hu, rfl⟩ := List.mem_map.mp ht
    obtain ⟨needsBuild, -, rfl⟩ := Option.map_eq_some_iff.mp (Option.mem_toList.mp hu)
    exact ⟨needsBuild, rfl⟩
  refine ⟨hs.primary, ⟨row', rfl, ?_⟩, nofun, fun t ht => ?_, ?_, ?_⟩
  · rcases hshape with rfl | hstarting | herror
    · exact hstatus
    · exact .inl hstarting
    · exact .inr (.inr herror)
  · obtain ⟨needsBuild, rfl⟩ := hnew t ht
    trivial
  · refine (List.countP_le_length).trans ?_
    cases queued <;> simp [Server.recoveryTasks]
  · intro hpremise r k hr hk
    obtain rfl : row' = r := Option.some.inj hr
    have hrunning : row'.status = .running := by
      rcases hpremise with hrunning | ⟨t, ht, hwaits⟩
      · exact Option.some.inj hrunning
      · obtain ⟨needsBuild, rfl⟩ := hnew t ht
        cases hwaits
    rcases hshape with hsame | hstarting | herror
    · subst hsame
      exact hs.zone (.inl ((status_eq hrow).trans (congrArg some hrunning))) row' k hrow hk
    · cases hrunning.symm.trans hstarting
    · cases hrunning.symm.trans herror

theorem promoted_of_guard (hs : z.Promoted name) (h : z.Step .guard z') : z'.Promoted name := by
  simp only [Step, next] at h
  split at h <;> cases h
  rename_i hserving
  refine ⟨hs.primary, hs.row, fun hdown => ?_, fun t ht => ?_, ?_, fun hpremise => hs.zone ?_⟩
  · exact absurd hserving (by rw [show z.serving = false from hdown]; exact Bool.false_ne_true)
  · rcases List.mem_append.mp ht with ht | ht
    · exact hs.fits t ht
    · rw [List.mem_singleton.mp ht]
      trivial
  · simpa [spawn, List.countP_append, Task.ofRecovery] using hs.single
  · refine hpremise.imp_right ?_
    rintro ⟨t, ht, hwaits⟩
    rcases List.mem_append.mp ht with ht | ht
    · exact ⟨t, ht, hwaits⟩
    · rw [List.mem_singleton.mp ht] at hwaits
      cases hwaits

section

variable {c : TaskAnswer} {before after : List ZonedTask} {t : ZonedTask}

/-- No container that was started under `name` is forgotten. -/
theorem zoneOf_of_moved (hs : z.Promoted name) (h : z.Moved c before t after z') {k : String}
    (hk : z.zoneOf k = some (some name)) : z'.zoneOf k = some (some name) := by
  rw [zoneOf, h.shared]
  exact (hs.fits t h.mem).lookup_starts hk

theorem fits_of_others (hs : z.Promoted name) (h : z.Moved c before t after z') {u : ZonedTask}
    (hu : u ∈ before ++ after) : u.Fits name z'.shared.startedUnder :=
  (hs.fits u (h.mem_others hu)).mono fun _ hk => zoneOf_of_moved hs h hk

theorem idle_of_moved (hs : z.Promoted name) (h : z.Moved c before t after z')
    (hdown : z'.serving = false) : z'.tasks = [] := by
  have hmem := h.mem
  rw [hs.idle (h.serving ▸ hdown)] at hmem
  exact absurd hmem List.not_mem_nil

/-- The recovery worker moves. -/
theorem promoted_of_recovery {needsBuild : Bool} {pc : Pc} (hs : z.Promoted name)
    (h : z.Moved c before t after z') (htask : t.task = .worker (.recovery needsBuild) pc)
    (hpc : pc ≠ .reloadStart) : z'.Promoted name := by
  have hfits := hs.fits t h.mem
  obtain ⟨row, hrow, hstatus⟩ := hs.row
  obtain ⟨row', hrow', heffect⟩ := recovery_step needsBuild (c := c.toAnswer) hrow hpc
  have hstep : t.task.step c z.shared.app =
      ((Worker.step (.recovery needsBuild) pc c.toAnswer z.shared.app).1,
        ((Worker.step (.recovery needsBuild) pc c.toAnswer z.shared.app).2.map
          (Task.worker (.recovery needsBuild))).toList) := by
    rw [htask]
    rfl
  have hafter : z'.shared.app.row = some row' := by rw [h.app, hstep, hrow']
  -- there is no other recovery worker
  have hcount := hs.single
  rw [h.tasks, List.countP_append, List.countP_cons, if_pos (by rw [htask]; rfl)] at hcount
  have hbefore : before.countP (fun u => u.task.ofRecovery) = 0 := by omega
  have hbehind : after.countP (fun u => u.task.ofRecovery) = 0 := by omega
  have hwaiting : (∃ u ∈ z'.tasks, u.task.waits = true) →
      ∃ k, (Worker.step (.recovery needsBuild) pc c.toAnswer z.shared.app).2 = some (.waitReady k) := by
    rintro ⟨u, hu, hwaits⟩
    rcases h.mem_cases hu with hother | hnew
    · have hrecovery := ofRecovery_of_waits (hs.fits u (h.mem_others hother)) hwaits
      rcases List.mem_append.mp hother with hu | hu
      · exact absurd hrecovery (List.countP_eq_zero.mp hbefore u hu)
      · exact absurd hrecovery (List.countP_eq_zero.mp hbehind u hu)
    · obtain ⟨v, hv, rfl⟩ := List.mem_map.mp hnew
      rw [hstep] at hv
      obtain ⟨pc', hpc', rfl⟩ := Option.map_eq_some_iff.mp (Option.mem_toList.mp hv)
      cases pc' with
      | waitReady k => exact ⟨k, hpc'⟩
      | _ => cases hwaits
  generalize hnext : (Worker.step (.recovery needsBuild) pc c.toAnswer z.shared.app).2 = pc'
    at heffect hwaiting
  refine ⟨?_, ⟨row', hafter, ?_⟩, idle_of_moved hs h, ?_, ?_, ?_⟩
  · rw [h.shared]
    exact hs.primary
  · cases heffect with
    | keeps _ => exact hstatus
    | marks _ => exact .inl rfl
    | records k _ => exact hstatus
    | runs _ => exact .inr (.inl rfl)
    | fails herror _ => exact .inr (.inr herror)
  · intro u hu
    rcases h.mem_cases hu with hother | hnew
    · exact fits_of_others hs h hother
    · have hhere : t.Fits z.shared.primary z.shared.startedUnder := by rwa [hs.primary]
      have hthere := fits_of_recovery htask hhere hnew
      rwa [hs.primary, ← h.shared] at hthere
  · have hlength : (t.step c z.shared).2.length ≤ 1 := by
      rw [ZonedTask.step, List.length_map, hstep]
      exact Option.length_toList_le
    have hnew := List.countP_le_length (p := fun u : ZonedTask => u.task.ofRecovery)
      (l := (t.step c z.shared).2)
    rw [h.tasks', List.countP_append, List.countP_append, hbefore, hbehind]
    omega
  · intro hpremise r k hr hk
    obtain rfl : row' = r := Option.some.inj (hafter.symm.trans hr)
    rw [status_eq hafter] at hpremise
    cases heffect with
    | keeps hno =>
      rcases hpremise with hrunning | hwaits
      · exact zoneOf_of_moved hs h (hs.zone (.inl ((status_eq hrow).trans hrunning)) row k hrow hk)
      · obtain ⟨k', hk'⟩ := hwaiting hwaits
        exact absurd hk' (hno k')
    | marks hno =>
      rcases hpremise with hrunning | hwaits
      · cases hrunning
      · obtain ⟨k', hk'⟩ := hwaiting hwaits
        exact absurd hk' (hno k')
    | records k' hpc' =>
      -- the container that the worker has launched itself
      cases hk
      subst hpc'
      refine zoneOf_of_moved hs h ?_
      obtain ⟨task, zone⟩ := t
      obtain rfl : task = .worker (.recovery needsBuild) (.recordContainer k) := htask
      exact hfits
    | runs hpc' =>
      refine zoneOf_of_moved hs h (hs.zone (.inr ⟨t, h.mem, ?_⟩) row k hrow hk)
      rw [htask, hpc']
      rfl
    | fails herror hno =>
      rcases hpremise with hrunning | hwaits
      · cases herror.symm.trans (Option.some.inj hrunning)
      · obtain ⟨k', hk'⟩ := hwaiting hwaits
        exact absurd hk' (hno k')

theorem not_worker_of_ofGuard {u : Task} (hu : u.ofGuard = true) :
    u.ofRecovery = false ∧ u.waits = false := by
  cases u with
  | worker _ _ => cases hu
  | _ => exact ⟨rfl, rfl⟩

theorem fits_of_ofGuard {u : ZonedTask} {l : List (String × Option String)}
    (hu : u.task.ofGuard = true) : u.Fits name l := by
  obtain ⟨task, zone⟩ := u
  cases task with
  | guardRead | guardStop _ | guardRecord => trivial
  | _ => cases hu

/-- The storage guard moves. -/
theorem promoted_of_guardTask (hs : z.Promoted name) (h : z.Moved c before t after z')
    (hguard : t.task.ofGuard = true) : z'.Promoted name := by
  obtain ⟨row, hrow, hstatus⟩ := hs.row
  obtain ⟨⟨row', hrow', heffect⟩, hnew⟩ := guard_step (c := c) hguard hrow
  have hafter : z'.shared.app.row = some row' := by rw [h.app, hrow']
  have hguards : ∀ u ∈ (t.step c z.shared).2, u.task.ofGuard = true := by
    intro u hu
    obtain ⟨v, hv, rfl⟩ := List.mem_map.mp hu
    exact hnew v hv
  refine ⟨?_, ⟨row', hafter, ?_⟩, idle_of_moved hs h, ?_, ?_, ?_⟩
  · rw [h.shared]
    exact hs.primary
  · rcases heffect with rfl | ⟨herror, -⟩
    · exact hstatus
    · exact .inr (.inr herror)
  · intro u hu
    rcases h.mem_cases hu with hother | hnew
    · exact fits_of_others hs h hother
    · exact fits_of_ofGuard (hguards u hnew)
  · have hnone : (t.step c z.shared).2.countP (fun u => u.task.ofRecovery) = 0 := by
      refine List.countP_eq_zero.mpr fun u hu hrecovery => ?_
      rw [(not_worker_of_ofGuard (hguards u hu)).1] at hrecovery
      cases hrecovery
    have hcount := hs.single
    rw [h.tasks, List.countP_append, List.countP_cons] at hcount
    rw [h.tasks', List.countP_append, List.countP_append, hnone]
    omega
  · intro hpremise r k hr hk
    obtain rfl : row' = r := Option.some.inj (hafter.symm.trans hr)
    rcases heffect with rfl | ⟨-, hnone⟩
    · refine zoneOf_of_moved hs h (hs.zone ?_ row' k hrow hk)
      rw [status_eq hrow, ← status_eq hafter]
      refine hpremise.imp_right ?_
      rintro ⟨u, hu, hwaits⟩
      rcases h.mem_cases hu with hother | hnew
      · exact ⟨u, h.mem_others hother, hwaits⟩
      · rw [(not_worker_of_ofGuard (hguards u hnew)).2] at hwaits
        cases hwaits
    · rw [hnone] at hk
      cases hk

theorem promoted_of_task {i : Nat} (hs : z.Promoted name) (h : z.Step (.task i c) z') :
    z'.Promoted name := by
  obtain ⟨before, t, after, -, hmoved⟩ := next_task h
  rcases (hs.fits t hmoved.mem).cases with ⟨needsBuild, pc, htask, hpc⟩ | hguard
  · exact promoted_of_recovery hs hmoved htask hpc
  · exact promoted_of_guardTask hs hmoved hguard

end

theorem promoted_of_step {a : Action} (hs : z.Promoted name) (ha : a.automatic = true)
    (h : z.Step a z') : z'.Promoted name := by
  cases a with
  | task i c => exact promoted_of_task hs h
  | guard => exact promoted_of_guard hs h
  | boot c => exact promoted_of_boot hs h
  | crash =>
    obtain rfl := Option.some.inj h
    refine ⟨hs.primary, hs.row, fun _ => rfl, fun t ht => absurd ht List.not_mem_nil, Nat.zero_le 1,
      fun hpremise => hs.zone ?_⟩
    refine hpremise.imp_right ?_
    rintro ⟨t, ht, -⟩
    cases ht
  | install _ | request _ | resume | promote => cases ha

/-- The change of the primary domain, of an app with no task in flight. -/
theorem promoted_of_set {z₀ : ZonedServer} (hset : z₀.setPrimaryDomain name = some z)
    (hidle : z₀.tasks = []) (hmarked : z.marked = true) : z.Promoted name := by
  unfold setPrimaryDomain at hset
  split at hset <;> cases hset
  rename_i hcommits
  cases hrow : z₀.shared.app.row with
  | none => simp [marked, hrow] at hmarked
  | some row =>
    have hafter : (z₀.shared.app.update promoteRow).row = some (promoteRow row) := by
      rw [App.row_update, hrow]
      rfl
    have hrestart : (promoteRow row).promotionRestart = true := by
      simpa [marked, hrow] using hmarked
    have hstarting : (promoteRow row).status = .starting :=
      of_decide_eq_true (Bool.and_eq_true_iff.mp hrestart).1
    refine ⟨rfl, ⟨_, hafter, .inl hstarting⟩, fun _ => hidle, ?_, ?_, ?_⟩
    · intro t ht
      rw [hidle] at ht
      exact absurd ht List.not_mem_nil
    · rw [hidle]
      exact Nat.zero_le 1
    · rintro (hrunning | ⟨t, ht, -⟩)
      · rw [status_eq hafter, hstarting] at hrunning
        cases hrunning
      · rw [hidle] at ht
        exact absurd ht List.not_mem_nil

/-- A boot of an app that is marked. -/
theorem boot_of_marked {c : BootAnswer} (hs : z.Promoted name) (hmarked : z.marked = true)
    (h : z.Step (.boot c) z') :
    (z'.marked = true ∧ ∃ needsBuild, z'.tasks = [⟨.worker (.recovery needsBuild) .connect, none⟩]) ∨
      z'.status = some .error ∧ z'.tasks = [] := by
  simp only [Step, next] at h
  split at h <;> cases h
  rename_i hserving
  have htasks : z.tasks = [] := hs.idle (by simpa using hserving)
  obtain ⟨row, hrow, -⟩ := hs.row
  rw [marked_eq hrow] at hmarked
  rcases checkAppStatus_of_marked (c := c) hmarked with heq | ⟨needsBuild, heq⟩
  · right
    simp [recover, hrow, htasks, heq, Server.recoveryTasks, status, App.status]
  · left
    simp [recover, hrow, htasks, heq, Server.recoveryTasks, marked, hmarked]

/-- What becomes of the mark in a step of the recovery worker. -/
theorem marked_or_settled {needsBuild : Bool} {pc : Pc} {row row' : Row} {pc' : Option Pc}
    (hmarked : row.promotionRestart = true) (h : RecoveryStep needsBuild pc row row' pc') :
    row'.promotionRestart = true ∨ row'.status = .running ∨ row'.status = .error := by
  obtain ⟨hstatus, hmessage⟩ := Bool.and_eq_true_iff.mp hmarked
  cases h with
  | keeps _ => exact .inl hmarked
  | marks _ =>
    left
    have hkept : row.setStarting.errorMessage = some primaryDomainRestartMarker := by
      rw [Row.setStarting, if_pos (of_decide_eq_true hmessage)]
      exact of_decide_eq_true hmessage
    simp [Row.promotionRestart, hkept]
  | records k _ => exact .inl hmarked
  | runs _ => exact .inr (.inl rfl)
  | fails herror _ => exact .inr (.inr herror)

theorem step_of_marked {a : Action} (hs : z.Promoted name) (hmarked : z.marked = true)
    (hok : z.Undisturbed a) (h : z.Step a z') : z'.marked = true ∨
      (z'.status = some .running ∨ z'.status = some .error) ∧
        ((∃ c, a = .boot c) ∨ ∃ t ∈ z.moving a, t.task.ofRecovery = true) := by
  obtain ⟨row, hrow, -⟩ := hs.row
  cases a with
  | task i c =>
    obtain ⟨before, t, after, hmoving, hmoved⟩ := next_task h
    have hno := (hok.noGuard hmarked).2 t hmoving
    rcases (hs.fits t hmoved.mem).cases with ⟨needsBuild, pc, htask, hpc⟩ | hguard
    · obtain ⟨row', hrow', heffect⟩ :=
        recovery_step needsBuild (c := c.toAnswer) hrow hpc
      have hafter : z'.shared.app.row = some row' := by
        rw [hmoved.app, htask, ← hrow']
        rfl
      rw [marked_eq hrow] at hmarked
      rw [marked_eq hafter, status_eq hafter]
      refine (marked_or_settled hmarked heffect).imp_right fun hsettled => ?_
      exact ⟨hsettled.imp (congrArg some) (congrArg some), .inr ⟨t, hmoving, by rw [htask]; rfl⟩⟩
    · rw [hno] at hguard
      cases hguard
  | guard => exact absurd rfl (hok.noGuard hmarked).1
  | crash =>
    obtain rfl := Option.some.inj h
    exact .inl hmarked
  | boot c =>
    rcases boot_of_marked hs hmarked h with ⟨hkept, -⟩ | ⟨herror, -⟩
    · exact .inl hkept
    · exact .inr ⟨.inr herror, .inl ⟨c, rfl⟩⟩
  | install _ | request _ | resume | promote => cases hok.automatic

/-- Where no task of the app is in flight when the primary domain changes, and the storage guard leaves
the app alone until it is relaunched, the app is relaunched under the new domain. -/
theorem relaunches_of_reaches {z₀ z₁ : ZonedServer} (hset : z₀.setPrimaryDomain name = some z₁)
    (hmarked : z₁.marked = true) (hidle : z₀.tasks = []) (h : Reach Step Undisturbed z₁ z) :
    z.Relaunches Undisturbed name := by
  have hs : z.Promoted name := by
    refine h.invariant (fun z => z.Promoted name) (promoted_of_set hset hidle hmarked) ?_
    exact fun _ _ _ hs hok hstep => promoted_of_step hs hok.automatic hstep
  exact ⟨fun hm a z' hok hstep => step_of_marked hs hm hok hstep,
    fun hm c z' hstep => boot_of_marked hs hm hstep, fun hrunning => hs.zone (.inl hrunning)⟩

end ZonedServer

/-! ## Two runs -/

/-- An app that is up. -/
def chatRow : Row where
  name := "chat"
  status := .running
  containerId := some "c1"
  errorMessage := none
  repoPath := "/repo"
  manifestRaw := some "name = \"chat\""
  createdAt := 0

/-- What a boot finds. -/
def hostAt (containerRunning : Bool) : BootAnswer where
  processStart := 10
  containerRunning := containerRunning
  repoIsDir := true
  imageExists := true

/-- The server of the app under its first domain. -/
def chatServer (serving : Bool) : ZonedServer where
  shared :=
    { app := { row := some chatRow, containers := [] }
      primary := "old.example"
      startedUnder := [("c1", some "old.example")] }
  tasks := []
  serving := serving

/-- The primary domain has changed. -/
def promotedServer : ZonedServer where
  shared :=
    { app := { row := some (promoteRow chatRow), containers := [] }
      primary := "new.example"
      startedUnder := [("c1", some "old.example")] }
  tasks := []
  serving := true

def secondContainer : Container := ⟨"c2", containerName "chat", true⟩

/-- The app is up again. -/
def relaunchedServer : ZonedServer where
  shared :=
    { app := { row := some { chatRow with containerId := some "c2" }, containers := [secondContainer] }
      primary := "new.example"
      startedUnder := [("c2", some "new.example"), ("c1", some "old.example")] }
  tasks := []
  serving := true

/-- The process restarts, and the recovery launches the second container. -/
def restart : List Action :=
  [.crash, .boot (hostAt true)] ++ List.replicate 5 (.task 0 {}) ++
    [.task 0 { containerId := "c2" }, .task 0 {}, .task 0 {}]

theorem relaunchedServer_relaunches :
    relaunchedServer.Relaunches ZonedServer.Undisturbed "new.example" := by
  have hset : (chatServer true).setPrimaryDomain "new.example" = some promotedServer := rfl
  have hrun : runAll ZonedServer.next ZonedServer.Undisturbed promotedServer restart =
      some relaunchedServer := by decide
  exact ZonedServer.relaunches_of_reaches hset rfl rfl (reach_of_run hrun)

/-- A recovery worker launches the second container, and the storage guard puts the app in error before
the worker has recorded it. -/
def guardUnderLaunch : List Action :=
  [.boot (hostAt false)] ++ List.replicate 5 (.task 0 {}) ++ [.task 0 { containerId := "c2" }, .guard] ++
    List.replicate 3 (.task 1 {}) ++ [.task 0 {}]

/-- The app in error, with a worker that waits for its container. -/
def unsettledServer (row : Row) (primary : String) : ZonedServer where
  shared :=
    { app := { row := some row, containers := [secondContainer] }
      primary := primary
      startedUnder := [("c2", some "old.example"), ("c1", some "old.example")] }
  tasks := [⟨.worker (.recovery false) (.waitReady "c2"), some "old.example"⟩]
  serving := true

def unsettledRow : Row := (chatRow.setError storageTooLow).setContainer "c2"

/-- The worker was in flight when the primary domain changed, and takes the mark away. -/
def overtakenServer : ZonedServer where
  shared :=
    { app := { row := some { chatRow with containerId := some "c2" }, containers := [secondContainer] }
      primary := "new.example"
      startedUnder := [("c2", some "old.example"), ("c1", some "old.example")] }
  tasks := []
  serving := true

/-- The app is reported running with a container of the old domain. -/
theorem overtakenServer_not_relaunched :
    Reach ZonedServer.Step (fun _ a => a.automatic = true) (chatServer false)
        (unsettledServer unsettledRow "old.example") ∧
      (unsettledServer unsettledRow "old.example").setPrimaryDomain "new.example" =
        some (unsettledServer (promoteRow unsettledRow) "new.example") ∧
      (unsettledServer (promoteRow unsettledRow) "new.example").marked = true ∧
      Reach ZonedServer.Step (fun _ a => a.automatic = true)
        (unsettledServer (promoteRow unsettledRow) "new.example") overtakenServer ∧
      overtakenServer.status = some .running ∧
      overtakenServer.zoneOf "c2" = some (some "old.example") ∧
      ¬ overtakenServer.Relaunches (fun _ a => a.automatic = true) "new.example" := by
  have hbefore : runAll ZonedServer.next (fun _ a => a.automatic = true) (chatServer false)
      guardUnderLaunch = some (unsettledServer unsettledRow "old.example") := by decide
  have hafter : runAll ZonedServer.next (fun _ a => a.automatic = true)
      (unsettledServer (promoteRow unsettledRow) "new.example") [.task 0 {}] =
        some overtakenServer := by decide
  refine ⟨reach_of_run hbefore, rfl, rfl, reach_of_run hafter, rfl, rfl, fun h => ?_⟩
  have hzone := h.zone rfl { chatRow with containerId := some "c2" } "c2" rfl rfl
  exact absurd hzone (by decide)

end OpenHost.Apps

import OpenHost.Apps.Worker
import OpenHost.Library.Pool
import OpenHost.Library.Runs

/-!
# The lifecycle of an app

The requests on one app (stop, reload, rename, remove), the storage guard, the workers they start and
the startup recovery, as tasks over the app's row.  Every statement on the row is a step of its own,
and the steps of the tasks in flight interleave in any order.  The process may die between any two
steps; what is left then is the row and the containers.
-/

namespace OpenHost.Apps

/-! ## Tasks -/

/-- What `_reload_app_impl` finds out between reading the row and claiming the reload. -/
inductive Pull where
  /-- The tree is at the manifest to deploy: pulled and accepted, or nothing to pull. -/
  | accepted
  /-- No git repository, secrets service unavailable, or `git pull` failed. -/
  | failed (message : String)
  /-- The review gate refused the update, or the owner was sent to the OAuth flow. -/
  | refused
  deriving DecidableEq, Repr

/-- A request or a thread, stopped before its next step. -/
inductive Task where
  /-- `stop_app`: read the row -/
  | stopApp
  /-- `stop_app`: stop the containers -/
  | stopContainers (row : Row)
  /-- `stop_app`: `UPDATE apps SET status = 'stopped'` -/
  | stopRecord
  /-- `_reload_app_impl`: read the row -/
  | reloadApp (update continueOauth : Bool)
  /-- `_reload_app_impl`: pull and review -/
  | reloadPull (continueOauth : Bool) (row : Row)
  /-- `_reload_app_impl`: `UPDATE apps SET status = 'error'` -/
  | reloadFail (message : String)
  /-- `_reload_app_impl`: claim the reload -/
  | reloadClaim (continueOauth : Bool) (row : Row)
  /-- `_reload_app_impl`: `stop_app_process` -/
  | reloadStop (row : Row)
  /-- `_reload_app_impl`: start the worker -/
  | reloadSpawn
  /-- `rename_app`: read the row, check the request -/
  | renameApp (newName : String)
  /-- `rename_app`: `stop_app_process` -/
  | renameStop (newName : String) (row : Row)
  /-- `rename_app`: `UPDATE apps SET status = 'stopped'` -/
  | renameStopped (newName : String) (row : Row)
  /-- `rename_app`: rename the directories, off the event loop -/
  | renameDirs (newName : String) (row : Row)
  /-- `rename_app`: put status and container back -/
  | renameRestore (row : Row)
  /-- `rename_app`: `UPDATE apps SET name` -/
  | renameRecord (newName : String) (row : Row)
  /-- `remove_app`: read the row, check the archive -/
  | removeApp
  /-- `remove_app`: claim the removal -/
  | removeClaim
  /-- `remove_app`: start the worker -/
  | removeSpawn
  /-- `remove_app`: the worker could not be started -/
  | removeSpawnFailed (message : String)
  /-- `remove_app_background`: open the connection -/
  | removalConnect
  /-- `remove_app_background`: read the row -/
  | removalRead
  /-- `remove_app_background`: container, image and data -/
  | removalTearDown (row : Row)
  /-- `remove_app_background`: `DELETE FROM apps` -/
  | removalDelete
  /-- `remove_app_background`: the except clause -/
  | removalFailed
  /-- `enforce_storage_guard`: read the row -/
  | guardRead
  /-- `enforce_storage_guard`: `stop_app_process` -/
  | guardStop (row : Row)
  /-- `enforce_storage_guard`: `UPDATE apps SET status = 'error'` -/
  | guardRecord
  /-- `insert_and_deploy`: start the worker -/
  | installSpawn
  /-- a thread that builds or launches -/
  | worker (caller : Caller) (pc : Pc)
  deriving DecidableEq, Repr

/-- What the world outside answers to a step of a task. -/
structure TaskAnswer extends Answer where
  /-- The request is turned down before it touches the app (archive unhealthy, invalid name, …). -/
  turnedDown : Bool := false
  pull : Pull := .accepted
  deriving DecidableEq, Repr

/-- A status that a reload may not claim. -/
def Status.transient : Status → Bool
  | .building | .starting | .removing => true
  | .running | .stopped | .error => false

/-- The detail of the storage guard's error. -/
def storageTooLow : String := "Storage too low. Free space by removing app data or resizing disks."

/-- The error of a removal worker that failed. -/
def removalFailedMessage : String :=
  "Removal failed; retry from the dashboard. See server logs for details."

/-- `_resolve_app` and `_is_removing`: go on with the row unless it is gone or being removed. -/
def resolve (a : App) (c : TaskAnswer) (next : Row → List Task) : List Task :=
  match a.row with
  | some row => if row.status = .removing ∨ c.turnedDown = true then [] else next row
  | none => []

/-- A statement: it changes the row and goes on, or raises and the task ends. -/
def statement (a : App) (c : TaskAnswer) (f : Row → Row) (next : List Task) : App × List Task :=
  if c.raises.isSome then (a, []) else (a.update f, next)

/-- `prior_status in ("running", "starting", "building")` -/
def wasRunning (row : Row) : Bool :=
  row.status = .running || row.status = .starting || row.status = .building

/-- `stop_app_process`, which never raises and may fail to stop anything. -/
def stopProcess (row : Row) (c : TaskAnswer) (a : App) : App :=
  if c.effective then a.stopAppProcess row else a

/-- One step of a task: the app afterwards and the tasks that go on. -/
def Task.step (t : Task) (c : TaskAnswer) (a : App) : App × List Task :=
  match t with
  | .stopApp => (a, resolve a c fun row => [.stopContainers row])
  | .stopContainers row =>
    (if c.effective then (a.stopAppProcess row).stopContainer (containerName row.name) else a,
      if c.raises.isSome then [] else [.stopRecord])
  | .stopRecord => statement a c Row.setStopped []
  | .reloadApp update continueOauth =>
    (a, resolve a c fun row =>
      if update || continueOauth then [.reloadPull continueOauth row]
      else [.reloadClaim continueOauth row])
  | .reloadPull continueOauth row =>
    (a, match c.pull with
      | .accepted => [.reloadClaim continueOauth row]
      | .failed message => [.reloadFail message]
      | .refused => [])
  | .reloadFail message => statement a c (Row.setError message) []
  -- compare and set; `continue_oauth` goes on whatever the row count
  | .reloadClaim continueOauth row =>
    if c.raises.isSome then (a, [])
    else if (a.status.map Status.transient).getD true then
      (a, if continueOauth then [.reloadStop row] else [])
    else (a.update Row.setBuilding, [.reloadStop row])
  | .reloadStop row => (stopProcess row c a, [.reloadSpawn])
  | .reloadSpawn => (a, if c.raises.isSome then [] else [.worker .reload .connect])
  | .renameApp newName =>
    (a, resolve a c fun row => if newName = row.name then [] else [.renameStop newName row])
  | .renameStop newName row => (stopProcess row c a, [.renameStopped newName row])
  | .renameStopped newName row => statement a c Row.setStopped [.renameDirs newName row]
  | .renameDirs newName row =>
    (a, if c.raises.isSome then [.renameRestore row] else [.renameRecord newName row])
  | .renameRestore row => statement a c (Row.restore row) []
  | .renameRecord newName row =>
    statement a c (Row.setName row.name newName)
      (if wasRunning row then [.worker .rename Caller.rename.start] else [])
  | .removeApp =>
    (a, if a.row.isNone || c.turnedDown then [] else [.removeClaim])
  -- compare and set: no second worker for a row that is being removed already
  | .removeClaim =>
    if c.raises.isSome || a.status = none || a.status = some .removing then (a, [])
    else (a.update Row.setRemoving, [.removeSpawn])
  | .removeSpawn =>
    (a, match c.raises with
      | some message => [.removeSpawnFailed ("Could not start removal worker: " ++ message)]
      | none => [.removalConnect])
  | .removeSpawnFailed message => statement a c (Row.setError message) []
  -- outside the `try`
  | .removalConnect => (a, if c.raises.isSome then [] else [.removalRead])
  | .removalRead =>
    (a, if c.raises.isSome then [.removalFailed]
      else match a.row with
        | some row => [.removalTearDown row]
        | none => [])
  -- every failure in here is logged and swallowed
  | .removalTearDown row => (stopProcess row c a, [.removalDelete])
  | .removalDelete => if c.raises.isSome then (a, [.removalFailed]) else ({ a with row := none }, [])
  | .removalFailed => statement a c (Row.setError removalFailedMessage) []
  | .guardRead =>
    (a, match a.row with
      | some row =>
        if row.status = .running ∨ row.status = .starting then [.guardStop row] else []
      | none => [])
  | .guardStop row => (stopProcess row c a, [.guardRecord])
  | .guardRecord =>
    statement a c (fun r => { r.setError storageTooLow with containerId := none }) []
  | .installSpawn => (a, if c.raises.isSome then [] else [.worker .deploy .connect])
  | .worker caller pc =>
    ((Worker.step caller pc c.toAnswer a).1,
      ((Worker.step caller pc c.toAnswer a).2.map (Task.worker caller)).toList)

/-! ## Startup recovery -/

/-- What `check_app_status` finds on the host for the app. -/
structure BootAnswer where
  /-- `_PROCESS_START_UTC` -/
  processStart : Nat
  /-- `is_container_running` -/
  containerRunning : Bool
  /-- `os.path.isdir(repo_path)` -/
  repoIsDir : Bool
  imageExists : Bool
  deriving DecidableEq, Repr

/-- One character of a LIKE pattern: `_` stands for any, letters match without regard to case. -/
def likeChar (p c : Char) : Bool := p = '_' || p.toLower = c.toLower

/-- The pattern, as SQLite matches it, at the beginning of the text. -/
def likePrefix : List Char → List Char → Bool
  | [], _ => true
  | _ :: _, [] => false
  | p :: ps, c :: cs => likeChar p c && likePrefix ps cs

/-- `text LIKE '%pattern%'` -/
def likeInfix (pattern text : String) : Bool :=
  text.toList.tails.any (likePrefix pattern.toList)

/-- `f"Cannot recover: repo path missing ({repo_path})"` -/
def cannotRecover (repoPath : String) : String :=
  "Cannot recover: repo path missing (" ++ repoPath ++ ")"

/-- `check_app_status` and `_recover_cache_corrupt_apps` for one row: the row afterwards, and the
recovery that is queued for it (with or without a build).  No request is served yet, and the reads
and updates end in one commit. -/
def checkAppStatus (c : BootAnswer) (row : Row) : Row × Option Bool :=
  let alive := c.containerRunning && (row.containerId.isSome && row.containerId ≠ some "")
  let promotionRestart :=
    row.status = .starting && row.errorMessage = some primaryDomainRestartMarker
  -- a row of this process belongs to its deploy thread
  let ours := !promotionRestart && c.processStart ≤ row.createdAt
  let hasRepo := row.repoPath ≠ "" && c.repoIsDir
  let hasManifest := (row.manifestRaw.isSome && row.manifestRaw ≠ some "") || hasRepo
  let needsBuild := row.status = .building || !c.imageExists
  match row.status with
  | .running | .starting | .building =>
    if row.status = .starting && ours then (row, none)
    else if alive && row.status ≠ .starting then
      (if row.status = .building then { row with status := .running } else row, none)
    else if !hasManifest || (needsBuild && !hasRepo) then
      (row.setError (cannotRecover row.repoPath), none)
    else if (row.containerId.isNone || row.containerId = some "") && ours then
      ({ row with status := .starting }, none)
    else ({ row with status := .starting }, some needsBuild)
  -- `_recover_cache_corrupt_apps`
  | .error =>
    if likeInfix buildCacheCorruptMarker (row.errorMessage.getD "") && hasRepo then
      ({ row with status := .starting, errorMessage := none }, some true)
    else (row, none)
  | .stopped | .removing => (row, none)

/-! ## The server -/

/-- The app, the tasks in flight, and whether the full application serves requests. -/
structure Server extends Pool App Task where
  serving : Bool
  deriving DecidableEq

/-- The status in the row. -/
def Server.status (s : Server) : Option Status := s.shared.status

/-- A request on the app. -/
inductive Request where
  | stop
  | reload (update : Bool)
  | reloadAfterOauth
  | rename (newName : String)
  | remove
  deriving DecidableEq, Repr

/-- The task of a request. -/
def Request.task : Request → Task
  | .stop => .stopApp
  | .reload update => .reloadApp update false
  | .reloadAfterOauth => .reloadApp true true
  | .rename newName => .renameApp newName
  | .remove => .removeApp

/-- What may happen next. -/
inductive Action where
  /-- `insert_and_deploy` inserts the row -/
  | install (row : Row)
  | request (r : Request)
  /-- a pass of the storage guard -/
  | guard
  /-- an archive switch restarts the app -/
  | resume
  /-- `set_primary_domain` hands the app to the startup recovery -/
  | promote
  /-- the task at a position takes its next step -/
  | task (i : Nat) (c : TaskAnswer)
  /-- the process dies -/
  | crash
  /-- the process is up and `check_app_status` has run -/
  | boot (c : BootAnswer)
  deriving DecidableEq, Repr

/-- The task that moves. -/
def Server.moving (s : Server) : Action → Option Task
  | .task i _ => s.tasks[i]?
  | _ => none

/-- What the world answers to the task that moves. -/
def Action.answer : Action → TaskAnswer
  | .task _ c => c
  | _ => {}

/-- The statement of `set_primary_domain`. -/
def promoteRow (row : Row) : Row :=
  if row.status = .running ∨ (row.status = .error ∧ row.containerId.isSome) then
    { row with status := .starting, errorMessage := some primaryDomainRestartMarker }
  else row

namespace Server

/-- A task begins. -/
def spawn (s : Server) (t : Task) : Server := { s with tasks := s.tasks ++ [t] }

/-- The recovery thread that `check_app_status` starts. -/
def recoveryTasks (queued : Option Bool) : List Task :=
  (queued.map fun needsBuild => Task.worker (.recovery needsBuild) .connect).toList

/-- `check_app_status`, and from then on requests are served. -/
def recover (s : Server) (c : BootAnswer) : Server :=
  match s.shared.row with
  | some row =>
    { shared := { s.shared with row := some (checkAppStatus c row).1 }
      tasks := s.tasks ++ recoveryTasks (checkAppStatus c row).2
      serving := true }
  | none => { s with serving := true }

/-- One step of the server. -/
def next (s : Server) (a : Action) : Option Server :=
  match a with
  | .install row =>
    if s.shared.row.isNone then
      some
        { s with
          shared := { s.shared with row := some row.setBuilding }
          tasks := s.tasks ++ [.installSpawn] }
    else none
  | .request r => if s.serving then some (s.spawn r.task) else none
  | .guard => if s.serving then some (s.spawn .guardRead) else none
  | .resume =>
    if s.serving then some (s.spawn (.worker .resume Caller.resume.start)) else none
  -- refused while any app is busy
  | .promote =>
    if s.serving && !((s.status.map Status.transient).getD false) then
      some { s with shared := s.shared.update promoteRow }
    else none
  | .task i c => (s.toPool.stepAt Task.step i c).map fun p => { s with toPool := p }
  | .crash => some { shared := s.shared, tasks := [], serving := false }
  | .boot c => if s.serving then none else some (s.recover c)

/-- The step relation. -/
def Step (s : Server) (a : Action) (t : Server) : Prop := s.next a = some t

end Server

end OpenHost.Apps

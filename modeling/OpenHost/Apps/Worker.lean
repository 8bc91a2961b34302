import OpenHost.Apps.State

/-!
# The threads that build and launch an app

`deploy_app_background`, `reload_app_background`, `_restart_apps_sequential`, the restart inside
`rename_app` and `restart_apps_by_id` share one tail: build the image or take the existing one, then
`run_app_image`.  A worker is such a thread stopped between two atomic steps; `Pc` says where, and
`Worker.step` is the step from there, given what the world outside answers.
-/

namespace OpenHost.Apps

/-- What the world outside answers to one step. -/
structure Answer where
  /-- The exception that the step's call raises, if it raises one. -/
  raises : Option String := none
  /-- A podman command took effect. -/
  effective : Bool := true
  /-- The id that `podman run` prints. -/
  containerId : String := ""
  /-- The manifest text read from the checkout, if it could be read. -/
  manifest : Option String := none
  /-- `wait_for_ready` -/
  ready : Bool := true
  deriving DecidableEq, Repr

/-- Who runs the launch. -/
inductive Caller where
  /-- `deploy_app_background` -/
  | deploy
  /-- `reload_app_background` -/
  | reload
  /-- `_restart_apps_sequential`, of the startup recovery -/
  | recovery (needsBuild : Bool)
  /-- `rename_app`, for an app that was up -/
  | rename
  /-- `restart_apps_by_id`, after an archive switch -/
  | resume
  deriving DecidableEq, Repr

/-- Where a worker has stopped: the step it takes next, with the values it holds. -/
inductive Pc where
  /-- open the thread's own connection -/
  | connect
  /-- `deploy_app_background`: the storage check -/
  | deployStart
  /-- `reload_app_background`: read the row, re-read the manifest, write the columns derived from it -/
  | reloadStart
  /-- `start_app_process`: read the row, check the storage, parse the manifest -/
  | startProcess
  /-- `restart_app_process`: the same for an existing image -/
  | restartProcess
  /-- `start_app_process`: `_mark_app_starting` -/
  | markStarting
  /-- `build_image`, retries included -/
  | build
  /-- `run_app_image`: read the row -/
  | readRow
  /-- environment, token, services, ports -/
  | prepare (row : Row)
  /-- `run_app_image`: `_mark_app_starting` -/
  | markLaunching (row : Row)
  /-- `run_container` -/
  | launch (row : Row)
  /-- `UPDATE apps SET container_id` -/
  | recordContainer (containerId : String)
  /-- `wait_for_ready`, and the status that follows from it -/
  | waitReady (containerId : String)
  /-- the except clause of `run_app_image`, for a container that has started -/
  | cleanUp (containerId message : String)
  /-- the except clause of `run_app_image`: `UPDATE apps SET status = 'error'` -/
  | recordFailure (message : String) (containerId : Option String)
  /-- the except clause of the caller -/
  | handler (message : String)
  deriving DecidableEq, Repr

/-- The first step of the caller, once it has a connection. -/
def Caller.start : Caller → Pc
  | .deploy => .deployStart
  | .reload => .reloadStart
  | .recovery true => .startProcess
  | .recovery false => .restartProcess
  | .rename => .startProcess
  | .resume => .restartProcess

/-- The message of `run_app_image` and `restart_app_process` for a row that is gone. -/
def noAppFound : String := "No app found with id"

/-- The `RuntimeError` or `TypeError` of a statement on a missing row, or what else was raised. -/
def missingRow (a : App) (c : Answer) : Option String :=
  if a.row.isNone then some (c.raises.getD noAppFound) else c.raises

/-- Go on to `next`, or to `failed` with the exception that was raised. -/
def Answer.branch (raised : Option String) (failed : String → Pc) (next : Pc) : Option Pc :=
  some (match raised with
    | some message => failed message
    | none => next)

/-- One step of a worker.  No next `Pc`: the thread has ended. -/
def Worker.step (caller : Caller) (pc : Pc) (c : Answer) (a : App) : App × Option Pc :=
  match pc with
  -- outside every `try`: a failure here ends the thread without a trace in the row
  | .connect => (a, if c.raises.isSome then none else some caller.start)
  | .deployStart => (a, Answer.branch c.raises .handler .build)
  | .reloadStart =>
    if a.row.isNone then (a, none)
    -- the columns written before a failure are committed by the handler's `db.commit()`
    else (a.update (Row.setManifest c.manifest), Answer.branch c.raises .handler .startProcess)
  | .startProcess => (a, Answer.branch (missingRow a c) .handler .markStarting)
  | .restartProcess => (a, Answer.branch (missingRow a c) .handler .readRow)
  | .markStarting =>
    match c.raises with
    | some message => (a, some (.handler message))
    | none => (a.update Row.setStarting, some .build)
  | .build => (a, Answer.branch c.raises .handler .readRow)
  | .readRow =>
    match a.row, c.raises with
    | some row, none => (a, some (.prepare row))
    | _, raised => (a, some (.handler (raised.getD noAppFound)))
  -- nothing launched yet: the row keeps the container it had
  | .prepare row => (a, Answer.branch c.raises (.recordFailure · row.containerId) (.markLaunching row))
  | .markLaunching row =>
    match c.raises with
    | some message => (a, some (.recordFailure message row.containerId))
    | none => (a.update Row.setStarting, some (.launch row))
  | .launch row =>
    match c.raises with
    -- `podman run` may time out with the container up
    | some message =>
      (if c.effective then a.runContainer row c.containerId else a, some (.recordFailure message none))
    | none => (a.runContainer row c.containerId, some (.recordContainer c.containerId))
  | .recordContainer containerId =>
    match c.raises with
    | some message => (a, some (.cleanUp containerId message))
    | none => (a.update (Row.setContainer containerId), some (.waitReady containerId))
  | .waitReady containerId =>
    match c.raises with
    | some message => (a, some (.cleanUp containerId message))
    | none =>
      (a.update (if c.ready then Row.setRunning
        else Row.setError "App started but not responding to HTTP"), none)
  | .cleanUp containerId message =>
    (if c.effective then a.stopContainer containerId else a,
      some (.recordFailure message (if c.raises.isSome then some containerId else none)))
  | .recordFailure message containerId =>
    match c.raises with
    | some _ => (a, some (.handler message))
    | none => (a.update (Row.setLaunchError message containerId), some (.handler message))
  | .handler message =>
    match caller with
    -- `restart_apps_by_id` only logs
    | .resume => (a, none)
    | _ => (if c.raises.isSome then a else a.update (Row.setError message), none)

end OpenHost.Apps

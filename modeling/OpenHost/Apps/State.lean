import OpenHost.Library.Text

/-!
# One app: its row and its containers

The row of one app in the `apps` table, the containers podman holds for it, and the statements with
which the modelled functions change them.  Each statement is one atomic step of the database.
-/

namespace OpenHost.Apps

/-! ## The row -/

/-- `apps.status` -/
inductive Status where
  | building
  | starting
  | running
  | stopped
  | error
  | removing
  deriving DecidableEq, Repr

/-- The columns of `apps` that the modelled functions read or write. -/
structure Row where
  name : String
  status : Status
  containerId : Option String
  errorMessage : Option String
  repoPath : String
  manifestRaw : Option String
  createdAt : Nat
  deriving DecidableEq, Repr

/-- A container as podman knows it. -/
structure Container where
  id : String
  name : String
  running : Bool
  deriving DecidableEq, Repr

/-- What outlives the server process: the row, if there is one, and the containers. -/
structure App where
  row : Option Row
  containers : List Container
  deriving DecidableEq, Repr

namespace App

/-- The status in the row. -/
def status (a : App) : Option Status := a.row.map Row.status

/-- `UPDATE apps SET … WHERE app_id = ?` -/
def update (a : App) (f : Row → Row) : App := { a with row := a.row.map f }

@[simp] theorem status_update (a : App) (f : Row → Row) :
    (a.update f).status = a.row.map fun r => (f r).status := by
  simp [status, update, Function.comp_def]

@[simp] theorem row_update (a : App) (f : Row → Row) : (a.update f).row = a.row.map f := rfl

@[simp] theorem containers_update (a : App) (f : Row → Row) :
    (a.update f).containers = a.containers := rfl

end App

/-! ## Statements -/

/-- `PRIMARY_DOMAIN_RESTART_MARKER` -/
def primaryDomainRestartMarker : String := "Restarting after primary domain change"

/-- `BUILD_CACHE_CORRUPT_MARKER` -/
def buildCacheCorruptMarker : String := "[BUILD_CACHE_CORRUPT]"

namespace Row

/-- `SET status = 'error', error_message = ?` -/
def setError (message : String) (r : Row) : Row :=
  { r with status := .error, errorMessage := some message }

/-- `SET status = 'error', error_message = ?, container_id = ?` -/
def setLaunchError (message : String) (containerId : Option String) (r : Row) : Row :=
  { r with status := .error, errorMessage := some message, containerId := containerId }

/-- `SET status = 'stopped', container_id = NULL` -/
def setStopped (r : Row) : Row := { r with status := .stopped, containerId := none }

/-- `SET status = 'running', error_message = NULL` -/
def setRunning (r : Row) : Row := { r with status := .running, errorMessage := none }

/-- The statement of `_mark_app_starting`. -/
def setStarting (r : Row) : Row :=
  { r with
    status := .starting
    errorMessage := if r.errorMessage = some primaryDomainRestartMarker then r.errorMessage else none }

/-- `SET container_id = ?` -/
def setContainer (containerId : String) (r : Row) : Row := { r with containerId := some containerId }

/-- `SET status = 'building', container_id = NULL, error_message = NULL` -/
def setBuilding (r : Row) : Row :=
  { r with status := .building, containerId := none, errorMessage := none }

/-- `SET status = 'removing', error_message = NULL` -/
def setRemoving (r : Row) : Row := { r with status := .removing, errorMessage := none }

/-- `SET status = ?, container_id = ?`, with the values of a row read before. -/
def restore (prior : Row) (r : Row) : Row :=
  { r with status := prior.status, containerId := prior.containerId }

/-- `SET name = ?, repo_path = REPLACE(repo_path, ?, ?)` -/
def setName (oldName newName : String) (r : Row) : Row :=
  { r with
    name := newName
    repoPath := r.repoPath.replace ("/" ++ oldName ++ "/") ("/" ++ newName ++ "/") }

/-- The manifest-derived columns. -/
def setManifest (manifest : Option String) (r : Row) : Row :=
  match manifest with
  | some raw => { r with manifestRaw := some raw }
  | none => r

@[simp] theorem status_setError (m : String) (r : Row) : (r.setError m).status = .error := rfl

@[simp] theorem status_setLaunchError (m : String) (c : Option String) (r : Row) :
    (r.setLaunchError m c).status = .error := rfl

@[simp] theorem status_setStopped (r : Row) : r.setStopped.status = .stopped := rfl

@[simp] theorem status_setRunning (r : Row) : r.setRunning.status = .running := rfl

@[simp] theorem status_setStarting (r : Row) : r.setStarting.status = .starting := rfl

@[simp] theorem status_setContainer (c : String) (r : Row) : (r.setContainer c).status = r.status := rfl

@[simp] theorem status_setBuilding (r : Row) : r.setBuilding.status = .building := rfl

@[simp] theorem status_setRemoving (r : Row) : r.setRemoving.status = .removing := rfl

@[simp] theorem status_restore (prior r : Row) : (restore prior r).status = prior.status := rfl

@[simp] theorem status_setName (old new : String) (r : Row) :
    (r.setName old new).status = r.status := rfl

@[simp] theorem status_setManifest (m : Option String) (r : Row) :
    (r.setManifest m).status = r.status := by
  cases m <;> rfl

end Row

/-! ## Containers -/

/-- The name podman gives the container of an app. -/
def containerName (appName : String) : String := "openhost-" ++ appName

namespace App

/-- `stop_container(target)`, when podman does it: the container of that id or name is gone. -/
def stopContainer (target : String) (a : App) : App :=
  { a with containers := a.containers.filter fun k => k.id ≠ target ∧ k.name ≠ target }

/-- `stop_app_process(row)`, when podman does it. -/
def stopAppProcess (row : Row) (a : App) : App :=
  match row.containerId with
  | some containerId => if containerId = "" then a else a.stopContainer containerId
  | none => a

/-- `run_container`: a container left under the name makes way for the new one. -/
def runContainer (row : Row) (containerId : String) (a : App) : App :=
  { a with
    containers := { id := containerId, name := containerName row.name, running := true } ::
      a.containers.filter fun k => k.name ≠ containerName row.name }

@[simp] theorem row_stopContainer (t : String) (a : App) : (a.stopContainer t).row = a.row := rfl

@[simp] theorem row_stopAppProcess (r : Row) (a : App) : (a.stopAppProcess r).row = a.row := by
  unfold stopAppProcess
  split
  · split <;> rfl
  · rfl

@[simp] theorem row_runContainer (r : Row) (c : String) (a : App) :
    (a.runContainer r c).row = a.row := rfl

end App

end OpenHost.Apps

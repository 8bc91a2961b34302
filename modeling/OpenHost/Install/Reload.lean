import OpenHost.Install.Deploy

/-!
# Reloading and removing an app

`reload_app_background` brings the rows of an app in line with the manifest of its new checkout,
builds the image and runs it; `remove_app_background` deletes the rows.
-/

namespace OpenHost.Install

/-! ## The environment of a reload -/

/-- The answers of the outside world to a reload. -/
structure ReloadEnv extends Env where
  /-- `os.path.isdir(repo_path)` -/
  repoIsDir : Bool := true
  /-- `parse_manifest` of a checkout. -/
  manifest : String → Except PyError AppManifest
  /-- The order in which Python goes through a set of labels. -/
  order : List String → List String := id
  order_perm : ∀ labels, (order labels).Perm labels := by intro labels; exact List.Perm.refl labels
  /-- The id that `podman run` prints. -/
  containerId : String := ""
  /-- `wait_for_ready` -/
  ready : Bool := true

/-! ## The synchronisation -/

/-- The mappings of the app. -/
def Rows.mappingsOf (r : Rows) (appId : String) : List PortMappingRow :=
  r.portMappings.filter (·.appId = appId)

/-- `old_labels - new_labels` -/
def removedLabels (existing : List PortMappingRow) (newMappings : List PortMapping) : List String :=
  (existing.map PortMappingRow.label).filter (· ∉ newMappings.map PortMapping.label)

/-- The mapping keeps the host port that its label has. -/
def preserve (existing : List PortMappingRow) (pm : PortMapping) : PortMapping :=
  match existing.find? (·.label = pm.label) with
  | some r => { pm with hostPort := r.hostPort }
  | none => pm

/-- A resolved mapping takes the place of the row with its label, or is a new row. -/
def writeMapping (appId : String) (existing : List PortMappingRow) (pm : PortMapping) :
    Tables → Except PyError Tables :=
  if existing.any (·.label = pm.label) then Tables.updatePortMapping (mappingRow appId pm)
  else Tables.insertPortMapping (mappingRow appId pm)

/-- `_sync_port_mappings` -/
def syncPortMappings (range : PortRange) (env : ReloadEnv) (appId : String)
    (newMappings : List PortMapping) : Session Raised Tables Unit := do
  let t ← env.look .readMappings
  let existing := t.mappingsOf appId
  Proc.forEach (env.order (removedLabels existing newMappings)) fun label =>
    env.execute (.deletePortMapping label) (Tables.deletePortMapping appId label)
  let t ← env.look .readPorts
  let resolved ← Proc.ofExcept
    ((resolvePortMappings (newMappings.map (preserve existing)) t.toRows range (some appId)
      fun _ => env.host).mapError fun e => ⟨.call .resolvePorts, e⟩)
  Proc.forEach resolved fun pm =>
    env.execute (.writePortMapping pm.label) (writeMapping appId existing pm)

/-- The columns of the app are those of the manifest. -/
def AppRow.setColumns (columns : ManifestColumns) (a : AppRow) : AppRow :=
  { a with columns := columns }

/-- The rows are brought in line with the manifest. -/
def syncWithManifest (range : PortRange) (env : ReloadEnv) (appId repoPath : String) :
    Session Raised Tables Unit := do
  let manifest ← env.compute .parseManifest (env.manifest repoPath)
  env.call .columnValues
  env.execute .updateColumns
    (Tables.updateApp appId (AppRow.setColumns (manifestColumnValues manifest)))
  syncPortMappings range env appId manifest.portMappings
  env.execute .syncServices (Tables.registerServices appId manifest.providesServicesV2)
  env.commit .commitSync

/-! ## The launch -/

/-- `SET status = 'error', error_message = ?` -/
def AppRow.setError (message : String) (a : AppRow) : AppRow :=
  { a with status := .error, errorMessage := some message }

/-- The statement of `_mark_app_starting`. -/
def AppRow.setStarting (a : AppRow) : AppRow :=
  { a with
    status := .starting
    errorMessage :=
      if a.errorMessage = some Apps.primaryDomainRestartMarker then a.errorMessage else none }

/-- The status after `wait_for_ready`. -/
def AppRow.setReady (ready : Bool) (a : AppRow) : AppRow :=
  if ready then { a with status := .running, errorMessage := none }
  else a.setError "App started but not responding to HTTP"

/-- `_mark_app_starting` -/
def markAppStarting (env : ReloadEnv) (appId : String) (mark done : Stmt) :
    Session Raised Tables Unit := do
  env.execute mark (Tables.updateApp appId AppRow.setStarting)
  env.commit done

/-- `persisted_container_id`, by the place where the launch failed. -/
def persistedContainerId (env : ReloadEnv) (row : AppRow) : Site → Option String
  | .call .runContainer => none
  | .stmt .recordContainer | .stmt .commitContainer | .stmt .recordReady | .stmt .commitReady =>
      -- the container is up, and is kept in the row where it cannot be stopped
      if (env.raises .stopContainer).isSome then some env.containerId else none
  | _ => row.containerId

/-- The `try` block of `run_app_image`, up to its first commit. -/
def registerLaunch (env : ReloadEnv) (appId : String) (manifest : AppManifest) :
    Session Raised Tables Unit := do
  env.call .prepareLaunch
  env.execute .replaceToken (Tables.replaceToken ⟨appId, env.tokenHash⟩)
  env.execute .registerServices (Tables.registerServices appId manifest.providesServicesV2)
  markAppStarting env appId .markLaunching .commitLaunching

/-- The container is started, and its outcome recorded. -/
def startContainer (env : ReloadEnv) (appId : String) : Session Raised Tables Unit := do
  env.call .runContainer
  env.execute .recordContainer
    (Tables.updateApp appId fun a => { a with containerId := some env.containerId })
  env.commit .commitContainer
  env.execute .recordReady (Tables.updateApp appId (AppRow.setReady env.ready))
  env.commit .commitReady

/-- The `try` block of `run_app_image`. -/
def launch (env : ReloadEnv) (appId : String) (manifest : AppManifest) :
    Session Raised Tables Unit := do
  registerLaunch env appId manifest
  startContainer env appId

/-- The handler of `run_app_image`. -/
def recordLaunchFailure (env : ReloadEnv) (appId : String) (row : AppRow) (e : Raised) :
    Session Raised Tables Unit := do
  Session.rollback
  Proc.tryExcept
    (do env.execute .recordLaunchFailure (Tables.updateApp appId fun a =>
          { a.setError e.error.text with containerId := persistedContainerId env row e.site })
        env.commit .commitLaunchFailure)
    (fun e => e.error.isSqliteError) fun _ => Session.rollback
  Proc.raise e

/-- `run_app_image` -/
def runAppImage (env : ReloadEnv) (appId : String) (manifest : AppManifest) :
    Session Raised Tables Unit := do
  let t ← Session.select
  match t.findApp appId with
  | none => Proc.raise ⟨.call .prepareLaunch, .runtimeError ("No app found with id " ++ appId)⟩
  | some row =>
      Proc.tryExcept (launch env appId manifest) (fun _ => true)
        (recordLaunchFailure env appId row)

/-- `start_app_process` -/
def startAppProcess (env : ReloadEnv) (appId : String) : Session Raised Tables Unit := do
  let t ← Session.select
  env.call .checkStorage
  match t.findApp appId with
  | none => Proc.raise ⟨.call .parseAtStart, .other "'NoneType' object is not subscriptable"⟩
  | some row =>
      let manifest ← env.compute .parseAtStart (env.manifest row.repoPath)
      markAppStarting env appId .markStarting .commitStarting
      env.call .buildImage
      runAppImage env appId manifest

/-! ## Reload and removal -/

/-- The handler of `reload_app_background`, which writes on in the transaction it finds. -/
def recordError (env : ReloadEnv) (appId : String) (e : Raised) : Session Raised Tables Unit := do
  env.execute .recordError (Tables.updateApp appId (AppRow.setError e.error.text))
  env.commit .commitError

/-- `reload_app_background`, for an app whose row is there. -/
def reloadApp (range : PortRange) (env : ReloadEnv) (appId repoPath : String) :
    Session Raised Tables Unit := do
  env.call .recopy
  if env.repoIsDir then
    Proc.tryExcept (syncWithManifest range env appId repoPath) (fun e => e.error.isValueError)
      fun _ => pure ()
  startAppProcess env appId

/-- `reload_app_background` -/
def reloadAppBackground (range : PortRange) (env : ReloadEnv) (appId repoPath : String) :
    Session Raised Tables Unit :=
  Proc.tryExcept
    (do let t ← Session.select
        match t.findApp appId with
        | none => return ()
        | some _ => reloadApp range env appId repoPath)
    (fun _ => true) (recordError env appId)

/-- The text of the error for a removal that failed. -/
def removalFailed : String :=
  "Removal failed; retry from the dashboard. See server logs for details."

/-- `remove_app_background`, without the container, the image and the data, whose errors it only
logs. -/
def removeAppBackground (env : Env) (appId : String) : Session Raised Tables Unit :=
  Proc.tryExcept
    (do let t ← Session.select
        match t.findApp appId with
        | none => return ()
        | some _ => do
            env.execute .deleteApp (Tables.deleteApp appId)
            env.commit .commitRemoval)
    (fun _ => true) fun _ =>
      Proc.tryExcept
        (do env.execute .recordError (Tables.updateApp appId (AppRow.setError removalFailed))
            env.commit .commitError)
        (fun e => e.error.isSqliteError) fun _ => return ()

/-! ## Changes of a row that are never refused -/

/-- Columns that neither are unique nor come from the manifest. -/
structure Harmless (f : AppRow → AppRow) : Prop extends Rows.KeepsKeys f where
  columns : ∀ a, (f a).columns = a.columns

theorem harmless_setError (message : String) : Harmless (AppRow.setError message) :=
  ⟨⟨fun _ => rfl, fun _ => rfl, fun _ => rfl⟩, fun _ => rfl⟩

theorem harmless_setStarting : Harmless AppRow.setStarting :=
  ⟨⟨fun _ => rfl, fun _ => rfl, fun _ => rfl⟩, fun _ => rfl⟩

theorem harmless_setReady (ready : Bool) : Harmless (AppRow.setReady ready) := by
  cases ready <;> exact ⟨⟨fun _ => rfl, fun _ => rfl, fun _ => rfl⟩, fun _ => rfl⟩

theorem harmless_setContainer (containerId : Option String) :
    Harmless fun a => { a with containerId := containerId } :=
  ⟨⟨fun _ => rfl, fun _ => rfl, fun _ => rfl⟩, fun _ => rfl⟩

theorem harmless_setLaunchError (message : String) (containerId : Option String) :
    Harmless fun a => { a.setError message with containerId := containerId } :=
  ⟨⟨fun _ => rfl, fun _ => rfl, fun _ => rfl⟩, fun _ => rfl⟩

end OpenHost.Install

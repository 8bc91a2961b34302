import OpenHost.Archive.JuiceFS

/-!
# `configure_backend`

Switching the archive to an S3 store.  The procedure of the source is kept in its order and cut at
the places its comments mark: picking the volume name, the body of the `try` block (bringing the
objects and the mount over, then recording the switch in the row), the `except` block, and the
reclaim of the source objects after the commit.
-/

namespace OpenHost.Archive

open OpenHost.Proc
open OpenHost.Text

/-! ## The volume name -/

/-- `re.sub("[...]+", rep, text)` for a class of characters: every run becomes one `rep`. -/
def subRuns (p : Char → Bool) (rep : Char) : Bool → List Char → List Char
  | _, [] => []
  | inRun, c :: cs =>
    if p c then
      if inRun then subRuns p rep true cs else rep :: subRuns p rep true cs
    else c :: subRuns p rep false cs

/-- The characters a zone's slug keeps: `[a-z0-9-]`. -/
def slugChar (c : Char) : Bool := c.isLower || c.isDigit || c = '-'

/-- `default_volume_name_for_zone`. -/
def defaultVolumeNameForZone (sha256Hex : String → String) (primaryZone : Option String) :
    String :=
  let zone := primaryZone.getD ""
  let slug := strip '-' (String.ofList (subRuns (fun c => !slugChar c) '-' false zone.toList))
  let slug := subRuns (· = '-') '-' false slug.toList
  let digest :=
    if zone = "" then "00000000" else String.ofList ((sha256Hex zone).toList.take 8)
  let head := strip '-' (String.ofList (slug.take (63 - digest.toList.length - 4)))
  let name := if head = "" then "oh-" ++ digest else "oh-" ++ head ++ "-" ++ digest
  let name := strip '-' (String.ofList (name.toList.take 63))
  orElse (some name) defaultVolumeName

/-- The name this zone gives a volume of its own. -/
def zoneVolumeName (env : Env) : String :=
  defaultVolumeNameForZone env.sha256Hex env.primaryZone

/-! ## Request and source -/

/-- The arguments of `configure_backend`. -/
structure ConfigureRequest where
  /-- Bucket, region, endpoint and key pair. -/
  dest : S3Store
  s3Prefix : Option String
  juicefsVolumeName : Option String
  /-- Whether `quiesce_archive_apps` is given. -/
  quiesce : Bool
  deriving DecidableEq, Repr

/-- The store the archive lives in when the call starts. -/
inductive Source where
  | localDisk
  | disabled
  | s3 (store : S3Store)
  deriving DecidableEq, Repr

/-- The error for an `s3` row without its bucket or credentials. -/
def missingSourceError : PyError :=
  runtimeError ("current S3 archive backend is missing its bucket/credentials in the database; " ++
    "cannot migrate to a new bucket.  Re-provision or contact support.")

/-- The checks at the start of `configure_backend`.  The CHECK constraint of the column makes the
first one, on the values of `backend`, always pass. -/
def sourceOf (state : BackendRow) : Except PyError Source :=
  match state.backend with
  | .localDisk => .ok .localDisk
  | .disabled => .ok .disabled
  | .s3 =>
    match truthy? state.s3Bucket, state.s3AccessKeyId, state.s3SecretAccessKey with
    | some bucket, some keyId, some secret =>
      .ok (.s3
        { bucket, region := state.s3Region, endpoint := state.s3Endpoint,
          creds := (keyId, secret) })
    | _, _, _ => .error missingSourceError

/-- A new name: the requested one, else the requested prefix, else the zone's. -/
def freshVolumeName (req : ConfigureRequest) (zoneName : String) : String :=
  orElse req.juicefsVolumeName (orElse req.s3Prefix zoneName)

/-- The volume name `configure_backend` picks. -/
def pickVolumeName (state : BackendRow) (req : ConfigureRequest) (zoneName : String) : String :=
  let existing := orElse (some state.juicefsVolumeName) defaultVolumeName
  match state.backend with
  | .s3 => existing
  | .localDisk => if existing = defaultVolumeName then freshVolumeName req zoneName else existing
  | .disabled => freshVolumeName req zoneName

/-! ## The body of the `try` block -/

/-- `_migrate_local_to_s3`. -/
def migrateLocalToS3 (env : Env) (cfg : Config) (naming : S3Naming) (dest : S3Store)
    (volume : String) : ArchiveProc Unit := do
  syncObjects env naming (localSyncSource cfg volume) (dest.syncUrl volume)
  reconfigureVolumeStorage env .switchOver .s3 dest.bucketUrl (some dest.creds)

/-- `_migrate_s3_to_s3`. -/
def migrateS3ToS3 (env : Env) (naming : S3Naming) (src dest : S3Store) (volume : String) :
    ArchiveProc Unit := do
  syncObjectsS3ToS3 env naming (src.syncUrl volume) (dest.syncUrl volume)
  reconfigureVolumeStorage env .switchOver .s3 dest.bucketUrl (some dest.creds)

/-- `quiesce_archive_apps()`, when it is given.  It stops containers and leaves the archive's own
state alone. -/
def quiesceArchiveApps (env : Env) (req : ConfigureRequest) : ArchiveProc Unit := do
  if req.quiesce then
    external env .quiesce id

/-- Bring the objects and the mount over to the requested store. -/
def bringOver (env : Env) (cfg : Config) (naming : S3Naming) (req : ConfigureRequest)
    (volume : String) (source : Source) : ArchiveProc Unit := do
  ensureJuicefsInstalled env
  match source with
  | .localDisk =>
    ensureLocalVolumeFormatted env cfg volume
    mount env cfg .bringUp none
    quiesceArchiveApps env req
    migrateLocalToS3 env cfg naming req.dest volume
    remount env cfg .switchOver (some req.dest.creds)
  | .s3 src =>
    mount env cfg .bringUp (some src.creds)
    quiesceArchiveApps env req
    migrateS3ToS3 env naming src req.dest volume
    remount env cfg .switchOver (some req.dest.creds)
  | .disabled =>
    formatS3Volume env req.dest volume
    mount env cfg .fresh (some req.dest.creds)

/-- The row after the switch. -/
def switchedRow (env : Env) (req : ConfigureRequest) (volume : String) (row : BackendRow) :
    BackendRow :=
  { row with
    backend := .s3
    s3Bucket := some req.dest.bucket
    s3Region := req.dest.region
    s3Endpoint := req.dest.endpoint
    s3Prefix := some volume
    s3AccessKeyId := some req.dest.creds.1
    s3SecretAccessKey := some req.dest.creds.2
    juicefsVolumeName := volume
    configuredAt := some env.now
    stateMessage := none }

/-- The `UPDATE` and `COMMIT` that end the `try` block. -/
def recordSwitch (env : Env) (req : ConfigureRequest) (volume : String) : ArchiveProc Unit := do
  execute env .updateRow (switchedRow env req volume)
  commit env .commitRow

/-! ## The `except` block -/

/-- Going back to the source store. -/
def restoreSource (env : Env) (cfg : Config) (source : Source) : ArchiveProc Unit := do
  match source with
  | .localDisk =>
    reconfigureVolumeStorage env .restore .file (fileBucket cfg.localArchiveObjectStoreDir) none
    remount env cfg .restore none
  | .s3 src =>
    reconfigureVolumeStorage env .restore .s3 src.bucketUrl (some src.creds)
    remount env cfg .restore (some src.creds)
  | .disabled => umount env .cleanup

/-- What the log says when going back failed. -/
def restoreFailedLog : Source → String
  | .localDisk => "failed to restore local archive mount after aborted migration"
  | .s3 _ => "failed to restore original S3 archive mount after aborted migration"
  | .disabled => "failed to unmount juicefs after aborted S3 format"

/-- What the log says when the message for the operator could not be written either. -/
def messageFailedLog : Source → String
  | .s3 _ => "failed to record archive state_message after aborted s3->s3 migration"
  | _ => "failed to record archive state_message after aborted migration"

/-- The `state_message` for an operator whose mount could not be restored. -/
def restoreFailedMessage : Source → Option String
  | .localDisk => some
      ("Migration to S3 failed and the local archive mount could not be restarted " ++
        "automatically; your archive data is intact on local disk. Restart the instance (or the " ++
        "Cloud in a Bottle service) to bring the archive back online, then retry.")
  | .s3 _ => some
      ("Migration to a new S3 bucket failed and the original archive mount could not be " ++
        "restarted automatically; your archive data is intact in the original bucket. Restart " ++
        "the instance (or the Cloud in a Bottle service) to bring the archive back online, then " ++
        "retry.")
  | .disabled => none

/-- Record that going back failed: in the log, and for a migration in `state_message`. -/
def reportRestoreFailure (env : Env) (source : Source) : ArchiveProc Unit := do
  logMessage (restoreFailedLog source)
  match restoreFailedMessage source with
  | none => pure ()
  | some message =>
    tryExcept (setStateMessage env 0 (some message)) PyError.isException
      fun _ => logMessage (messageFailedLog source)

/-- The `except Exception as exc` block, up to its final `raise`. -/
def failOpen (env : Env) (cfg : Config) (source : Source) : ArchiveProc Unit :=
  tryExcept (restoreSource env cfg source) PyError.isException
    fun _ => reportRestoreFailure env source

/-! ## Reclaiming the source objects -/

/-- Remove the files below the path prefix `dir` that `sel` selects. -/
def World.removeFiles (dir : String) (sel : String → Bool) (w : World) : World :=
  { w with
    files := fun path => if startsWith path dir = true ∧ sel path = true then none
      else w.files path }

/-- Remove the objects with these keys from a bucket. -/
def World.removeKeys (bucket : Bucket) (keys : List String) (w : World) : World :=
  { w with
    buckets := fun b k => if b = bucket ∧ k ∈ keys then none else w.buckets b k }

/-- `shutil.rmtree`: all files below `dir` when it succeeds, some of them when it does not. -/
def rmtree (env : Env) (dir : String) : ArchiveProc Unit := fun w =>
  match env.reply .rmtree with
  | .ok => (.ok (), w.removeFiles dir fun _ => true)
  | .raises e _ => (.raised e, w.removeFiles dir env.removedBeforeFailure)
  | .dies _ => (.killed, w.removeFiles dir env.removedBeforeFailure)

/-- `_remove_local_object_store`. -/
def removeLocalObjectStore (env : Env) (cfg : Config) : ArchiveProc Unit := do
  if env.storeIsDir = false then
    return
  tryExcept
    (do
      rmtree env (fileBucket cfg.localArchiveObjectStoreDir)
      external env .remakeStore id)
    PyError.isException
    fun _ => logMessage ("migrated local archive to S3 but failed to remove the local object " ++
      "store at " ++ cfg.localArchiveObjectStoreDir ++ "; safe to delete manually")

/-- `client.delete_objects` for one batch. -/
def deleteObjects (env : Env) (bucket : Bucket) (n : Nat) (keys : List String) :
    ArchiveProc Unit :=
  external env (.deleteBatch n) (World.removeKeys bucket keys)

/-- The inner loop of `_remove_s3_object_prefix`: one page of keys.  `toDelete` is the batch under
construction and `n` the number of batches sent. -/
def deletePage (env : Env) (bucket : Bucket) (listPrefix : String) :
    List String → List String → Nat → ArchiveProc (List String × Nat)
  | [], toDelete, n => pure (toDelete, n)
  | key :: keys, toDelete, n =>
    if key ≠ "" ∧ startsWith key listPrefix = true then
      if toDelete.length + 1 = 1000 then do
        deleteObjects env bucket n (toDelete ++ [key])
        deletePage env bucket listPrefix keys [] (n + 1)
      else deletePage env bucket listPrefix keys (toDelete ++ [key]) n
    else deletePage env bucket listPrefix keys toDelete n

/-- The outer loop of `_remove_s3_object_prefix`, and the last, incomplete batch. -/
def deletePages (env : Env) (bucket : Bucket) (listPrefix : String) :
    List (List String) → Nat → List String → Nat → ArchiveProc Unit
  | [], _, toDelete, n =>
    if toDelete = [] then pure () else deleteObjects env bucket n toDelete
  | page :: pages, p, toDelete, n => do
    external env (.listPage p) id
    let (toDelete, n) ← deletePage env bucket listPrefix page toDelete n
    deletePages env bucket listPrefix pages (p + 1) toDelete n

/-- The prefix `_remove_s3_object_prefix` works on; empty when it refuses to work at all. -/
def reclaimPrefix (volume : String) : String := stripBlank (strip '/' (stripBlank volume))

/-- `_remove_s3_object_prefix`. -/
def removeS3ObjectPrefix (env : Env) (naming : S3Naming) (src : S3Store) (volume : String) :
    ArchiveProc Unit :=
  if reclaimPrefix volume = "" then
    logMessage ("refusing to reclaim S3 objects: empty volume prefix would target the whole bucket")
  else
    tryExcept
      (do
        external env .s3Client id
        deletePages env (naming.clientBucket src.region src.endpoint src.bucket)
          (reclaimPrefix volume ++ "/") env.pages 0 [] 0)
      PyError.isException
      fun _ => logMessage ("migrated archive to new S3 bucket but failed to reclaim old objects " ++
        "under " ++ src.bucket ++ "/" ++ reclaimPrefix volume ++ "/; safe to delete manually")

/-- The end of `configure_backend`, after the commit.  The volume of an `s3` source is the one the
row records, so that "the same location" comes down to the bucket's name. -/
def reclaimSource (env : Env) (cfg : Config) (naming : S3Naming) (state : BackendRow)
    (req : ConfigureRequest) (volume : String) (source : Source) : ArchiveProc Unit := do
  match source with
  | .localDisk => removeLocalObjectStore env cfg
  | .s3 src =>
    let sourceVolume := orElse (some state.juicefsVolumeName) defaultVolumeName
    if ¬(src.bucket = req.dest.bucket ∧ sourceVolume = volume) then
      removeS3ObjectPrefix env naming src volume
  | .disabled => pure ()

/-! ## The whole call -/

/-- `raise RuntimeError(f"Failed to configure S3 archive backend: {exc}")`. -/
def configureError (exc : PyError) : PyError :=
  runtimeError ("Failed to configure S3 archive backend: " ++ exc.text)

/-- The body of the `try` statement of `configure_backend`. -/
def trySwitch (env : Env) (cfg : Config) (naming : S3Naming) (req : ConfigureRequest)
    (volume : String) (source : Source) : ArchiveProc Unit := do
  bringOver env cfg naming req volume source
  recordSwitch env req volume

/-- The `try` statement of `configure_backend`. -/
def switchBackend (env : Env) (cfg : Config) (naming : S3Naming) (req : ConfigureRequest)
    (volume : String) (source : Source) : ArchiveProc Unit :=
  tryExcept (trySwitch env cfg naming req volume source) PyError.isException fun exc => do
    failOpen env cfg source
    raise (configureError exc)

/-- `configure_backend`. -/
def configureBackend (env : Env) (cfg : Config) (naming : S3Naming) (req : ConfigureRequest) :
    ArchiveProc Unit := do
  let state ← reads fun w => readState w.db.view
  match sourceOf state with
  | .error e => raise e
  | .ok source =>
    let volume := pickVolumeName state req (zoneVolumeName env)
    switchBackend env cfg naming req volume source
    reclaimSource env cfg naming state req volume source

end OpenHost.Archive

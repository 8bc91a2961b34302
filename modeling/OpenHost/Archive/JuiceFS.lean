import OpenHost.Archive.State

/-!
# JuiceFS and its service

The operations `configure_backend` and `attach_on_startup` are made of: SQL on the archive row, the
`juicefs` subcommands (`format`, `sync`, `config`), and starting and stopping the mount through
systemd.  Each definition follows the function of the same name in `core/archive_backend.py`.

What is assumed of the programs outside the repository:

- an SQL statement that raises has changed nothing; a `COMMIT` that raises has either rolled the
  transaction back or left it open to be committed again;
- `juicefs format` refuses a name outside its grammar, and never renames a formatted volume;
- `juicefs sync src dst` copies the objects under `src` to the same relative keys under `dst`, and
  a failing one has copied some of them;
- `juicefs config` changes the storage, the bucket and the keys, never the name;
- a mount process works with the format it read when it started.
-/

namespace OpenHost.Archive

open OpenHost.Proc
open OpenHost.Text

/-! ## Calls and SQL -/

/-- An external call of these procedures. -/
def external (env : Env) (site : Site) (eff : World → World) : ArchiveProc Unit :=
  call (env.reply site) eff

/-- `db.execute("UPDATE archive_backend ...")`. -/
def execute (env : Env) (site : Site) (f : BackendRow → BackendRow) : ArchiveProc Unit := fun w =>
  match env.reply site with
  | .ok => (.ok (), { w with db := w.db.update f })
  | .raises e _ => (.raised e, w)
  | .dies _ => (.killed, w)

/-- `db.commit()`.  In a reply that raises, the flag says that the transaction is still open. -/
def commit (env : Env) (site : Site) : ArchiveProc Unit := fun w =>
  match env.reply site with
  | .ok => (.ok (), { w with db := w.db.commit })
  | .raises e stillOpen => (.raised e, if stillOpen then w else { w with db := w.db.rollback })
  | .dies applied => (.killed, if applied then { w with db := w.db.commit } else w)

/-- `_set_state_message`, the `n`-th in its procedure. -/
def setStateMessage (env : Env) (n : Nat) (message : Option String) : ArchiveProc Unit := do
  execute env (.setMessage n) fun r => { r with stateMessage := message }
  commit env (.commitMessage n)

/-- `_set_juicefs_volume_name`. -/
def setJuicefsVolumeName (env : Env) (volumeName : String) : ArchiveProc Unit := do
  execute env .setVolumeName fun r => { r with juicefsVolumeName := volumeName }
  commit env .commitVolumeName

/-- `logger.exception(...)` and `logger.error(...)`. -/
def logMessage (text : String) : ArchiveProc Unit :=
  modify fun w => { w with log := w.log ++ [text] }

/-- `is_juicefs_installed` and `install_juicefs`. -/
def ensureJuicefsInstalled (env : Env) : ArchiveProc Unit := do
  if ← reads World.juicefsInstalled then
    return
  external env .install fun w => { w with juicefsInstalled := true }

/-! ## Paths and URLs -/

/-- `_file_bucket`. -/
def fileBucket (storeDir : String) : String := rstrip '/' storeDir ++ "/"

/-- `os.path.join(a, b)` for a directory `a` that ends in a slash. -/
def joinDir (a b : String) : String := if startsWith b "/" then b else a ++ b

/-- `_local_sync_source`. -/
def localSyncSource (cfg : Config) (volume : String) : String :=
  joinDir (fileBucket cfg.localArchiveObjectStoreDir) volume ++ "/"

/-- `_bucket_url`. -/
def bucketUrl (s3Bucket s3Region : String) (s3Endpoint : Option String) : String :=
  match truthy? s3Endpoint with
  | some endpoint => rstrip '/' endpoint ++ "/" ++ s3Bucket
  | none =>
    "https://" ++ s3Bucket ++ ".s3." ++ orElse (some s3Region) "us-east-1" ++ ".amazonaws.com"

/-- `_s3_sync_dest`, and its alias `_s3_sync_source`. -/
def s3SyncDest (s3Bucket : String) (s3Region s3Endpoint : Option String) (volume : String) :
    String :=
  match truthy? s3Endpoint with
  | some endpoint =>
    "s3://" ++ s3Bucket ++ "." ++ rstrip '/' (afterScheme endpoint) ++ "/" ++ volume ++ "/"
  | none =>
    "s3://" ++ s3Bucket ++ ".s3." ++ orElse s3Region "us-east-1" ++ ".amazonaws.com/" ++
      volume ++ "/"

/-- An S3 store with the credentials for it. -/
structure S3Store where
  bucket : String
  region : Option String
  endpoint : Option String
  creds : Creds
  deriving DecidableEq, Repr

/-- The `--bucket` URL of an S3 store, with `region or "us-east-1"` as the callers pass it. -/
def S3Store.bucketUrl (s : S3Store) : String :=
  Archive.bucketUrl s.bucket (orElse s.region "us-east-1") s.endpoint

/-- The `juicefs sync` URL of a volume in an S3 store. -/
def S3Store.syncUrl (s : S3Store) (volume : String) : String :=
  s3SyncDest s.bucket s.region s.endpoint volume

/-! ## Formatting -/

/-- `juicefs format`.  On a formatted volume of the same name it only updates where the volume
points; it never renames one. -/
def juicefsFormat (env : Env) (site : Site) (name : String) (target : VolumeName → Format) :
    ArchiveProc Unit := fun w =>
  match w.volume with
  | some f =>
    call (env.reply site)
      (fun w => { w with volume := some (if f.name.val = name then target f.name else f) }) w
  | none =>
    if h : validVolumeName name = true then
      call (env.reply site) (fun w => { w with volume := some (target ⟨name, h⟩) }) w
    else
      raise (runtimeError "juicefs format failed (exit 1): invalid volume name") w

/-- The format of a volume in the local file store. -/
def localFormat (cfg : Config) (name : VolumeName) : Format :=
  { name, storage := .file, bucket := fileBucket cfg.localArchiveObjectStoreDir,
    accessKey := none, secretKey := none }

/-- The format of a volume in an S3 store. -/
def s3Format (store : S3Store) (name : VolumeName) : Format :=
  { name, storage := .s3, bucket := store.bucketUrl,
    accessKey := some store.creds.1, secretKey := some store.creds.2 }

/-- `_local_volume_formatted`: a locked database reads as not formatted. -/
def localVolumeFormatted (env : Env) (site : Site) : ArchiveProc Bool :=
  reads fun w => w.volume.isSome && !env.locked site

/-- `format_local_volume`. -/
def formatLocalVolume (env : Env) (cfg : Config) (juicefsVolumeName : String) :
    ArchiveProc Unit := do
  ensureJuicefsInstalled env
  external env .makeStateDir id
  external env .makeStoreDir id
  juicefsFormat env .formatLocal juicefsVolumeName (localFormat cfg)

/-- `_ensure_local_volume_formatted`. -/
def ensureLocalVolumeFormatted (env : Env) (cfg : Config) (juicefsVolumeName : String) :
    ArchiveProc Unit := do
  if ← localVolumeFormatted env .ensureFormatted then
    return
  formatLocalVolume env cfg (orElse (some juicefsVolumeName) defaultVolumeName)

/-- `format_s3_volume`. -/
def formatS3Volume (env : Env) (store : S3Store) (juicefsVolumeName : String) :
    ArchiveProc Unit := do
  external env .makeStateDir id
  juicefsFormat env .formatS3 juicefsVolumeName (s3Format store)

/-! ## The mount -/

/-- `is_mounted`: a mount that was starting may have come up by now. -/
def isMounted (env : Env) (site : Site) : ArchiveProc Bool := fun w =>
  match w.service with
  | .up _ => (.ok true, w)
  | .starting f =>
    if env.cameUp site then (.ok true, { w with service := .up f }) else (.ok false, w)
  | .stopped => (.ok false, w)

/-- `systemctl enable --now`: a stopped service starts on the format of that moment; an unformatted
metadata database gives a mount process nothing to start with. -/
def World.startService (w : World) : World :=
  match w.service, w.volume with
  | .stopped, some f => { w with service := .starting f }
  | _, _ => w

/-- `systemctl stop`. -/
def World.stopService (w : World) : World := { w with service := .stopped }

/-- The error of a mount that did not come up. -/
def notReadyError (env : Env) (cfg : Config) : PyError :=
  runtimeError ("juicefs mount did not become ready within 30s at " ++ cfg.appArchiveDir ++
    " (service state: " ++ env.serviceState ++ "); check journalctl -u openhost-juicefs")

/-- The loop at the end of `mount` that waits for the mount to appear. -/
def waitReady (env : Env) (cfg : Config) (st : Stage) : ArchiveProc Unit := fun w =>
  match env.reply (.ready st), w.service with
  | .dies _, _ => (.killed, w)
  | .ok, .starting f => (.ok (), { w with service := .up f })
  | .ok, .up _ => (.ok (), w)
  | _, _ => (.raised (notReadyError env cfg), w)

/-- `mount`. -/
def mount (env : Env) (cfg : Config) (st : Stage) (creds : Option Creds) : ArchiveProc Unit := do
  external env (.makeMountDir st) id
  if ← isMounted env (.mountCheck st) then
    return
  external env (.writeEnvFile st) fun w => { w with envFile := some creds }
  external env (.daemonReload st) id
  external env (.enableNow st) World.startService
  waitReady env cfg st

/-- The error `umount` raises when systemd cannot stop the service. -/
def stopError (exc : PyError) : PyError :=
  runtimeError ("Failed to stop openhost-juicefs; ensure all containers using the archive tier " ++
    "are stopped before switching backends.  Original: " ++ exc.text)

/-- `umount`. -/
def umount (env : Env) (st : Stage) : ArchiveProc Unit := do
  if ← isMounted env (.umountCheck st) then
    tryExcept (external env (.stop st) World.stopService) PyError.isRuntimeError
      fun exc => raise (stopError exc)
    external env (.disable st) id
  else
    -- Not mounted: a failing `disable --now` is taken for "already stopped".
    tryExcept (external env (.disableNow st) World.stopService) PyError.isRuntimeError
      fun _ => pure ()

/-- `_remount`. -/
def remount (env : Env) (cfg : Config) (st : Stage) (creds : Option Creds) :
    ArchiveProc Unit := do
  umount env st
  mount env cfg st creds

/-! ## Moving the objects -/

/-- Copy the files under the path prefix `src` that `sel` selects to `dst`, a bucket and a key
prefix, keeping what follows the prefix. -/
def World.copyFiles (src : String) (dst : Bucket × String) (sel : String → Bool) (w : World) :
    World :=
  { w with
    buckets := fun b k =>
      match stripPrefix? dst.2 k with
      | some rel =>
        if b = dst.1 ∧ sel (src ++ rel) = true then (w.files (src ++ rel)).or (w.buckets b k)
        else w.buckets b k
      | none => w.buckets b k }

/-- Copy the objects under `src`, a bucket and a key prefix, that `sel` selects to `dst`. -/
def World.copyObjects (src dst : Bucket × String) (sel : String → Bool) (w : World) : World :=
  { w with
    buckets := fun b k =>
      match stripPrefix? dst.2 k with
      | some rel =>
        if b = dst.1 ∧ sel (src.2 ++ rel) = true then
          (w.buckets src.1 (src.2 ++ rel)).or (w.buckets b k)
        else w.buckets b k
      | none => w.buckets b k }

/-- A `juicefs sync` run: all of the copy when it succeeds, some of it when it does not. -/
def runSync (env : Env) (copy : (String → Bool) → World → World) : ArchiveProc Unit := fun w =>
  match env.reply .sync with
  | .ok => (.ok (), copy (fun _ => true) w)
  | .raises e _ => (.raised e, copy env.syncedBeforeFailure w)
  | .dies _ => (.killed, copy env.syncedBeforeFailure w)

/-- `_sync_objects`, from the local file store to S3. -/
def syncObjects (env : Env) (naming : S3Naming) (src dst : String) : ArchiveProc Unit :=
  runSync env (World.copyFiles src (naming.syncLocation dst))

/-- `_sync_objects_s3_to_s3`. -/
def syncObjectsS3ToS3 (env : Env) (naming : S3Naming) (src dst : String) : ArchiveProc Unit :=
  runSync env (World.copyObjects (naming.syncLocation src) (naming.syncLocation dst))

/-- What `juicefs config` makes of a format: keys that are not given stay as they are. -/
def Format.repoint (f : Format) (storage : Storage) (bucket : String) (creds : Option Creds) :
    Format :=
  { f with
    storage, bucket
    accessKey := (creds.map Prod.fst).or f.accessKey
    secretKey := (creds.map Prod.snd).or f.secretKey }

/-- `_reconfigure_volume_storage`. -/
def reconfigureVolumeStorage (env : Env) (st : Stage) (storage : Storage) (bucket : String)
    (creds : Option Creds) : ArchiveProc Unit := fun w =>
  match w.volume with
  | some f =>
    call (env.reply (.repoint st))
      (fun w => { w with volume := some (f.repoint storage bucket creds) }) w
  | none =>
    raise (runtimeError "juicefs config (re-point storage) failed: database is not formatted") w

end OpenHost.Archive

import OpenHost.Library.Proc
import OpenHost.Library.Text

/-!
# Archive backend: state and environment

The archive tier is a JuiceFS volume.  What `core/archive_backend.py` reads and writes is

- the `archive_backend` row (id 1), through one SQLite connection with its open transaction;
- the volume's format record in the local metadata database, which holds the volume's name and the
  object storage it points at;
- the object stores: files on the local disk, and S3 buckets;
- the `openhost-juicefs` systemd service, whose mount process keeps the format it read when it
  started, and its environment file.

The outside world answers every external call through an `Env`, indexed by the call site.  A call
that raises may have taken effect, and the process may die in any call.
-/

namespace OpenHost.Archive

open OpenHost.Proc (Reply)

/-! ## Exceptions -/

/-- The exception classes that some `except` clause tells apart. -/
inductive ExcKind where
  | runtimeError
  | other
  deriving DecidableEq, Repr

/-- A Python exception: its class and `str(exc)`. -/
structure PyError where
  kind : ExcKind
  text : String
  deriving DecidableEq, Repr

/-- `RuntimeError(text)`. -/
def runtimeError (text : String) : PyError := ⟨.runtimeError, text⟩

/-- `except RuntimeError`. -/
def PyError.isRuntimeError (e : PyError) : Bool := e.kind == .runtimeError

/-- `except Exception`. -/
def PyError.isException (_ : PyError) : Bool := true

/-! ## The archive row -/

/-- Column `backend`, with the values its CHECK constraint allows. -/
inductive Backend where
  | disabled
  | localDisk
  | s3
  deriving DecidableEq, Repr

/-- The single row of table `archive_backend`. -/
structure BackendRow where
  backend : Backend
  s3Bucket : Option String
  s3Region : Option String
  s3Endpoint : Option String
  s3Prefix : Option String
  s3AccessKeyId : Option String
  s3SecretAccessKey : Option String
  juicefsVolumeName : String
  configuredAt : Option String
  stateMessage : Option String
  deriving DecidableEq, Repr

/-- `DEFAULT_VOLUME_NAME`, the name every zone used historically. -/
def defaultVolumeName : String := "openhost"

/-- The connection the procedures work on: the committed row, and what its open transaction, if
any, has made of it. -/
structure Db where
  committed : Option BackendRow
  pending : Option (Option BackendRow)
  deriving DecidableEq, Repr

/-- What the connection itself sees. -/
def Db.view (db : Db) : Option BackendRow := db.pending.getD db.committed

/-- `db.execute("UPDATE archive_backend SET ... WHERE id = 1")`. -/
def Db.update (f : BackendRow → BackendRow) (db : Db) : Db :=
  { db with pending := some (db.view.map f) }

/-- `COMMIT`. -/
def Db.commit (db : Db) : Db := { committed := db.view, pending := none }

/-- The transaction is lost. -/
def Db.rollback (db : Db) : Db := { db with pending := none }

/-- `read_state`: the row, with its defaults for a missing row and an empty volume name. -/
def readState (row : Option BackendRow) : BackendRow :=
  match row with
  | none =>
    { backend := .localDisk, s3Bucket := none, s3Region := none, s3Endpoint := none,
      s3Prefix := none, s3AccessKeyId := none, s3SecretAccessKey := none,
      juicefsVolumeName := defaultVolumeName, configuredAt := none, stateMessage := none }
  | some r =>
    { r with
      juicefsVolumeName := Text.orElse (some r.juicefsVolumeName) defaultVolumeName }

/-! ## Volume, stores and service -/

/-- The names `juicefs format` accepts (`cmd/format.go`, `validName`): 3 to 63 characters out of
`[a-z0-9-]`, with no dash at either end. -/
def validVolumeName (name : String) : Bool :=
  let cs := name.toList
  decide (3 ≤ cs.length) && decide (cs.length ≤ 63) &&
    cs.all (fun c => c.isLower || c.isDigit || c = '-') &&
    cs.head? != some '-' && cs.getLast? != some '-'

/-- A name a volume can be formatted with. -/
structure VolumeName where
  val : String
  valid : validVolumeName val = true
  deriving DecidableEq, Repr

/-- `--storage` of a volume. -/
inductive Storage where
  | file
  | s3
  deriving DecidableEq, Repr

/-- The format record `juicefs format` writes and `juicefs config` changes. -/
structure Format where
  name : VolumeName
  storage : Storage
  bucket : String
  accessKey : Option String
  secretKey : Option String
  deriving DecidableEq, Repr

/-- The contents of one object. -/
abbrev Blob := List UInt8

/-- A bucket, by an identity that does not depend on the URL it is addressed by. -/
abbrev Bucket := String

/-- The `openhost-juicefs` service.  A mount process works with the format it read when it
started. -/
inductive Service where
  | stopped
  /-- Started, the mount is not up yet. -/
  | starting (f : Format)
  /-- The mount is live. -/
  | up (f : Format)
  deriving DecidableEq, Repr

/-- An S3 key pair. -/
abbrev Creds := String × String

/-- Everything the archive procedures act on. -/
structure World where
  db : Db
  volume : Option Format
  juicefsInstalled : Bool
  /-- Files by absolute path. -/
  files : String → Option Blob
  /-- Objects by bucket and key. -/
  buckets : Bucket → String → Option Blob
  service : Service
  /-- The credentials in the service's environment file, once it is written. -/
  envFile : Option (Option Creds)
  /-- `logger.exception` and `logger.error` messages, oldest first. -/
  log : List String

/-- The configured paths the procedures use. -/
structure Config where
  appArchiveDir : String
  localArchiveObjectStoreDir : String
  deriving DecidableEq, Repr

/-! ## The environment -/

/-- Which call of `mount`, `umount` or `_reconfigure_volume_storage` is meant. -/
inductive Stage where
  /-- Bringing up the mount at boot. -/
  | attach
  /-- Bringing up the source mount before a migration. -/
  | bringUp
  /-- Re-pointing the volume at the new store and restarting the mount on it. -/
  | switchOver
  /-- The first mount of a formerly disabled zone. -/
  | fresh
  /-- Going back to the source store after a failed migration. -/
  | restore
  /-- Unmounting after a failed first format. -/
  | cleanup
  deriving DecidableEq, Repr

/-- The external calls of the archive procedures. -/
inductive Site where
  | install
  /-- The two reads of the metadata database by `_local_volume_formatted`. -/
  | lookFormatted
  | ensureFormatted
  | makeStateDir
  | makeStoreDir
  | formatLocal
  | formatS3
  | quiesce
  | sync
  | repoint (st : Stage)
  | makeMountDir (st : Stage)
  | mountCheck (st : Stage)
  | writeEnvFile (st : Stage)
  | daemonReload (st : Stage)
  | enableNow (st : Stage)
  | ready (st : Stage)
  | umountCheck (st : Stage)
  | disableNow (st : Stage)
  | stop (st : Stage)
  | disable (st : Stage)
  | updateRow
  | commitRow
  | setVolumeName
  | commitVolumeName
  /-- The UPDATE and the COMMIT of the `n`-th `_set_state_message`. -/
  | setMessage (n : Nat)
  | commitMessage (n : Nat)
  | rmtree
  | remakeStore
  | s3Client
  | listPage (n : Nat)
  | deleteBatch (n : Nat)
  deriving DecidableEq, Repr

/-- The answers of the outside world to one execution. -/
structure Env where
  reply : Site → Reply PyError
  /-- The metadata database is locked at this read. -/
  locked : Site → Bool
  /-- A mount that was starting has come up by this look at `/proc/self/mountinfo`. -/
  cameUp : Site → Bool
  /-- The source objects a failing `juicefs sync` had copied. -/
  syncedBeforeFailure : String → Bool
  /-- `os.path.isdir` of the local object store. -/
  storeIsDir : Bool
  /-- The paths a failing `rmtree` had removed. -/
  removedBeforeFailure : String → Bool
  /-- What `list_objects_v2` answers, page by page. -/
  pages : List (List String)
  /-- `is_linux_host()`. -/
  linuxHost : Bool
  /-- `os.uname().sysname`. -/
  sysname : String
  /-- The primary domain's name without port, if one is configured. -/
  primaryZone : Option String
  /-- `hashlib.sha256(text.encode()).hexdigest()`. -/
  sha256Hex : String → String
  /-- `systemctl is-active openhost-juicefs`, asked when a mount did not come up. -/
  serviceState : String
  /-- `time.strftime(...)`. -/
  now : String

/-- How third-party programs read the names and URLs they are given for an S3 bucket. -/
structure S3Naming where
  /-- The bucket and key prefix a `juicefs sync` URL denotes. -/
  syncLocation : String → Bucket × String
  /-- The bucket a volume's `--bucket` URL denotes. -/
  volumeBucket : String → Bucket
  /-- The bucket a boto3 client for this region and endpoint reaches under this name. -/
  clientBucket : Option String → Option String → String → Bucket

/-- Procedures of this component. -/
abbrev ArchiveProc := Proc PyError World

/-! ## An environment in which nothing goes wrong -/

/-- Every call succeeds and no listing shows anything. -/
def Env.calm : Env where
  reply _ := .ok
  locked _ := false
  cameUp _ := false
  syncedBeforeFailure _ := false
  storeIsDir := true
  removedBeforeFailure _ := false
  pages := []
  linuxHost := true
  sysname := "Linux"
  primaryZone := none
  sha256Hex _ := ""
  serviceState := "active"
  now := "2026-01-01T00:00:00Z"

/-- The bucket of a host name `<bucket>.<rest>`. -/
def hostBucket (host : List Char) : Bucket := String.ofList (host.takeWhile (· ≠ '.'))

/-- Names as AWS gives them: the bucket is the first label of the host. -/
def S3Naming.virtualHosted : S3Naming where
  syncLocation url :=
    let path := (Text.afterScheme url).toList
    (hostBucket path, String.ofList ((path.dropWhile (· ≠ '/')).drop 1))
  volumeBucket url := hostBucket (Text.afterScheme url).toList
  clientBucket _ _ name := name

end OpenHost.Archive

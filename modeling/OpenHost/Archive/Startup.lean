import OpenHost.Archive.Configure

/-!
# `attach_on_startup`

Bringing the archive online at boot.  On the local backend the first boot picks a volume name of the
zone's own, records it in the row, and formats the volume under it.  Failures do not stop the boot;
they end up in `state_message`.
-/

namespace OpenHost.Archive

open OpenHost.Proc
open OpenHost.Text

/-- The name a local volume is brought up under: on the first boot the zone's own, recorded in the
row before anything is formatted. -/
def firstBootVolumeName (env : Env) (volumeName : String) : ArchiveProc String := do
  let formatted ← localVolumeFormatted env .lookFormatted
  if formatted = false ∧ volumeName = defaultVolumeName then
    setJuicefsVolumeName env (zoneVolumeName env)
    return zoneVolumeName env
  return volumeName

/-- The `try` block for the local backend. -/
def bringUpLocal (env : Env) (cfg : Config) (state : BackendRow) : ArchiveProc Unit := do
  ensureJuicefsInstalled env
  let volumeName ← firstBootVolumeName env state.juicefsVolumeName
  ensureLocalVolumeFormatted env cfg volumeName
  mount env cfg .attach none
  setStateMessage env 0 none

/-- The error for an `s3` row without credentials. -/
def missingCredentialsError : PyError :=
  runtimeError ("S3 credentials are missing from the archive_backend row.  Re-configure " ++
    "the archive backend from the dashboard.")

/-- The `try` block for the S3 backend. -/
def bringUpS3 (env : Env) (cfg : Config) (state : BackendRow) : ArchiveProc Unit := do
  ensureJuicefsInstalled env
  match state.s3AccessKeyId, state.s3SecretAccessKey with
  | some keyId, some secret =>
    mount env cfg .attach (some (keyId, secret))
    setStateMessage env 0 none
  | _, _ => raise missingCredentialsError

/-- The two `except` blocks: log the failure, and tell the operator. -/
def reportBootFailure (env : Env) (logText message : String) (exc : PyError) :
    ArchiveProc Unit := do
  logMessage logText
  setStateMessage env 1 (some (message ++ exc.text))

/-- `attach_on_startup`. -/
def attachOnStartup (env : Env) (cfg : Config) : ArchiveProc Unit := do
  let state ← reads fun w => readState w.db.view
  if state.backend ≠ .disabled ∧ env.linuxHost = false then
    setStateMessage env 0
      (some ("Archive tier unavailable: no JuiceFS build for " ++ env.sysname ++ "."))
  else
    match state.backend with
    | .localDisk =>
      tryExcept (bringUpLocal env cfg state) PyError.isException
        (reportBootFailure env "Failed to bring up local archive backend on startup"
          "Failed to bring up local archive backend: ")
    | .s3 =>
      tryExcept (bringUpS3 env cfg state) PyError.isException
        (reportBootFailure env "Failed to attach archive backend on startup"
          "Failed to attach archive backend: ")
    | .disabled => pure ()

end OpenHost.Archive

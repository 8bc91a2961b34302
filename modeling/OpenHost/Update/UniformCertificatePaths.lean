import OpenHost.Library.Crash
import OpenHost.Library.Utf8
import OpenHost.Web.AppHosts

/-!
# The migration to uniform certificate paths

Migration 12 of the host moves the certificate and the key from the time of provisioning to the paths
named after their domain: both are copied, a marker is written, and only then are the old files
deleted.  The model has the directory entries it reads and writes, as every process sees them and as
they are on the medium: what has not been synced may be lost with the power, entry by entry.

The owner and the mode of the directory `certs`, which nothing reads, are left out, and so are
temporary files of earlier runs, whose names do not come up again.
-/

namespace OpenHost.Update.CertPaths

open Crash (Prog)
open Text (before lower stripBlank)
open Utf8 (Bytes encode)

/-! ## The directory entries -/

/-- A regular file. -/
structure File where
  content : Bytes
  mode : Nat
  uid : Nat
  gid : Nat
  deriving DecidableEq

/-- What a directory entry stands for. -/
inductive Node where
  | file (f : File)
  | symlink
  | directory
  deriving DecidableEq

/-- The two files of a pair. -/
inductive Part where
  | cert
  | key
  deriving DecidableEq

/-- `_LEGACY_CERT_NAME`, `_LEGACY_KEY_NAME` -/
def Part.sourceName : Part → String
  | .cert => "openhost-tls-cert.pem"
  | .key => "openhost-tls-key.pem"

def Part.suffix : Part → String
  | .cert => ".pem"
  | .key => ".key"

def Part.mode : Part → Nat
  | .cert => 0o644
  | .key => 0o600

/-- What the name `certs` stands for. -/
inductive Kind where
  | missing
  | directory
  | other
  deriving DecidableEq

/-- The entries of the data directory and of `certs` in it.  Those of `certs` count where it is a
directory. -/
structure Disk where
  legacy : Part → Option Node
  certs : Kind
  named : Part → Option Node
  marker : Option Node

/-- The entries of the directory `certs`, none where there is no such directory. -/
def Disk.at (d : Disk) (p : Part) : Option Node := if d.certs = .directory then d.named p else none

/-- The entries as they are on the medium and as processes see them, and the temporary file. -/
structure Store where
  durable : Disk
  volatile : Disk
  tmp : Option File

/-! ## The owner -/

/-- What the two queries on `router.db` give. -/
structure RouterDb where
  /-- The row `legacy_cert_domain` of `settings`, if there is one. -/
  legacyCertDomain : Option (Option String)
  /-- The names of the primary domains. -/
  primaryNames : List String

/-- `_DOMAIN_RE.fullmatch(name)` -/
def isDomain (name : String) : Bool :=
  2 ≤ (name.toList.splitOn '.').length && (name.toList.splitOn '.').all Web.isLabel

/-- `_certificate_owner`; without a database, or where a query fails, there is none. -/
def certificateOwner (db : Option RouterDb) : Option String :=
  match db with
  | none => none
  | some db =>
    let rawName :=
      match db.legacyCertDomain, db.primaryNames with
      | some value, _ => some (value.getD "None")
      | none, [name] => some name
      | none, _ => none
    match rawName with
    | none => none
    | some rawName =>
      let name := lower (before ':' (stripBlank rawName))
      if isDomain name then some name else none

/-! ## Steps -/

/-- A change to the entries. -/
def change (f : Disk → Disk) (s : Store) : Store := { s with volatile := f s.volatile }

/-- `os.mkdir("certs")`; a new directory is empty. -/
def mkdir (s : Store) : Store :=
  if s.volatile.certs = .missing then
    { s with
      durable := if s.durable.certs = .directory then s.durable
        else { s.durable with named := fun _ => none, marker := none }
      volatile := { s.volatile with certs := .directory, named := fun _ => none, marker := none } }
  else s

/-- `os.unlink` in the data directory -/
def unlinkLegacy (p : Part) : Store → Store :=
  change fun d => { d with legacy := fun q => if q = p then none else d.legacy q }

/-- `os.unlink(_PAIR_READY_MARKER)` -/
def unlinkMarker : Store → Store := change fun d => { d with marker := none }

/-- `os.fsync` of the data directory -/
def fsyncRoot (s : Store) : Store :=
  { s with durable := { s.durable with legacy := s.volatile.legacy, certs := s.volatile.certs } }

/-- `os.fsync` of `certs` -/
def fsyncCerts (s : Store) : Store :=
  { s with durable := { s.durable with named := s.volatile.named, marker := s.volatile.marker } }

/-- `os.open(temporary_name, O_CREAT | O_EXCL, mode)` as root -/
def createTmp (mode : Nat) (s : Store) : Store := { s with tmp := some ⟨[], mode, 0, 0⟩ }

/-- One more byte in the temporary file. -/
def writeTmp (b : UInt8) (s : Store) : Store :=
  { s with tmp := s.tmp.map fun f => { f with content := f.content ++ [b] } }

/-- `os.fchown` -/
def chownTmp (uid gid : Nat) (s : Store) : Store :=
  { s with tmp := s.tmp.map fun f => { f with uid := uid, gid := gid } }

/-- `os.fchmod` -/
def chmodTmp (mode : Nat) (s : Store) : Store :=
  { s with tmp := s.tmp.map fun f => { f with mode := mode } }

/-- `os.replace(temporary_name, destination_name)`; what is in the file has been synced. -/
def replaceNamed (p : Part) (s : Store) : Store :=
  { s with
    volatile := { s.volatile with
      named := fun q => if q = p then s.tmp.map Node.file else s.volatile.named q }
    tmp := none }

/-- `os.replace(temporary_name, _PAIR_READY_MARKER)` -/
def replaceMarker (s : Store) : Store :=
  { s with volatile := { s.volatile with marker := s.tmp.map Node.file }, tmp := none }

/-! ## The migration -/

/-- The length of a name that the file system takes. -/
def nameMax : Nat := 255

/-- A name of so many bytes, which is too long or not. -/
def tooLong (name : String) (more : Nat) : Bool := nameMax < (encode name).length + more

/-- `_regular_file` -/
def regularFile (root : String) (d : Disk) (p : Part) : Except String Bool :=
  match d.legacy p with
  | none => .ok false
  | some (.file _) => .ok true
  | some _ => .error ("refusing to migrate non-regular TLS file: " ++ root ++ "/" ++ p.sourceName)

/-- `pending` -/
def pending (root : String) (d : Disk) : Except String (List Part) :=
  match regularFile root d .cert, regularFile root d .key with
  | .error message, _ => .error message
  | .ok _, .error message => .error message
  | .ok cert, .ok key =>
    .ok ((if cert then [.cert] else []) ++ if key then [.key] else [])

/-- `stat.S_ISREG` on an entry -/
def isRegular : Option Node → Bool
  | some (.file _) => true
  | _ => false

/-- The error of `os.replace` onto a directory. -/
def isADirectory : String := "Is a directory"

/-- `_copy_into_directory`; the name of the temporary file has 26 bytes more. -/
def copyIntoDirectory (owner : String) (p : Part) : Prog Store :=
  .look fun s =>
    match s.volatile.legacy p with
    | some (.file source) =>
      if tooLong owner (p.suffix.length + 26) then .fail "File name too long"
      else
        .act (createTmp p.mode) <|
          (Prog.actAll writeTmp source.content).andThen <|
            .act (chownTmp source.uid source.gid) <| .act (chmodTmp p.mode) <|
              .look fun s =>
                if s.volatile.named p = some .directory then .fail isADirectory
                else .act (replaceNamed p) .done
    | _ => .fail ("refusing to migrate non-regular TLS file: " ++ p.sourceName)

/-- `_write_pair_ready_marker` -/
def writePairReadyMarker (owner : String) : Prog Store :=
  .act (createTmp 0o600) <|
    (Prog.actAll writeTmp (encode owner)).andThen <|
      .look fun s =>
        if s.volatile.marker = some .directory then .fail isADirectory
        else .act replaceMarker .done

/-- `_pair_ready_marker_matches`, or the error of opening a symbolic link. -/
def pairReadyMarkerMatches (owner : String) (marker : Option Node) : Except String Bool :=
  match marker with
  | none => .ok false
  | some (.file f) => .ok (f.content.take 1024 = encode owner)
  | some .symlink => .error "Too many levels of symbolic links"
  | some .directory => .ok false

/-- The deletion of the old files, once the new ones are there. -/
def unlinkPending (ps : List Part) : Prog Store :=
  (Prog.actAll unlinkLegacy ps).andThen <|
    .act fsyncRoot <| .act unlinkMarker <| .act fsyncCerts .done

def incompletePair : String := "cannot migrate an incomplete legacy TLS pair"

/-- The branch for one old file: an earlier run has copied both. -/
def finishCleanup (owner : String) (ps : List Part) : Prog Store :=
  .look fun s =>
    match s.volatile.certs with
    | .missing => .fail incompletePair
    | .other => .fail "Not a directory"
    | .directory =>
      if tooLong owner 4 then .fail "File name too long"
      else if !(isRegular (s.volatile.named .cert) && isRegular (s.volatile.named .key)) then
        .fail incompletePair
      else
        match pairReadyMarkerMatches owner s.volatile.marker with
        | .error message => .fail message
        | .ok false => .fail incompletePair
        | .ok true => unlinkPending ps

/-- The copies of both files and the marker. -/
def installPair (owner : String) : Prog Store :=
  .act mkdir <|
    (Prog.check (·.volatile.certs = .directory) "Not a directory").andThen <|
      (copyIntoDirectory owner .cert).andThen <|
        (copyIntoDirectory owner .key).andThen <|
          (Prog.check (fun s => isRegular (s.volatile.named .cert) && isRegular (s.volatile.named .key))
            "cannot remove legacy TLS files until the named certificate pair is complete").andThen <|
            writePairReadyMarker owner

/-- The branch for two old files. -/
def movePair (owner : String) : Prog Store :=
  (installPair owner).andThen <|
    .act fsyncCerts <| .act fsyncRoot <| unlinkPending [.cert, .key]

/-- `migrate` -/
def migrate (root : String) (db : Option RouterDb) : Prog Store :=
  .look fun s =>
    match pending root s.volatile with
    | .error message => .fail message
    | .ok [] => .done
    | .ok (p :: ps) =>
      match certificateOwner db with
      | none =>
        .fail "cannot migrate legacy TLS files without a valid certificate owner in router.db"
      | some owner =>
        if (p :: ps).length ≠ 2 then finishCleanup owner (p :: ps) else movePair owner

/-! ## The specification of the steps -/

section Specs

variable {I : Store → Prop} {Q : Option String → Store → Prop} {s : Store}

/-- The copy of an old file. -/
def copyOf (p : Part) (source : File) : File :=
  { content := source.content, mode := p.mode, uid := source.uid, gid := source.gid }

/-- The marker for an owner. -/
def markerOf (owner : String) : File := ⟨encode owner, 0o600, 0, 0⟩

variable {root owner : String} {db : Option RouterDb} {p : Part}

end Specs

end OpenHost.Update.CertPaths

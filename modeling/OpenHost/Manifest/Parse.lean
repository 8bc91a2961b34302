import OpenHost.Install.Tables
import OpenHost.Library.Fields
import OpenHost.Library.Toml

/-!
# App manifests

`core/manifest.py`: the manifest of an app is a TOML text.  Some of its sections are checked by hand,
the rest is copied into the manifest as it is.  A field that is copied holds whatever the text had
there, so it is a `Toml.Value` here; a field that has been checked holds what the check leaves.
-/

namespace OpenHost.Manifest

open Install (AppLink ServiceProvides unprivilegedPortFloor)
open Raises (Exc Result require)
open Text (stripPrefix? rstrip before stripBlank)
open Toml (Value Table PyFloat FloatRepr getsFrom iterate contains)

/-! ## What is left to Python and its packages -/

/-- The reader, conversions and messages of Python, and the checks of `packaging`. -/
structure Runtime where
  /-- `tomllib.loads`, which raises `TOMLDecodeError`, a `ValueError`, or `RecursionError`. -/
  loads : String → Result Table
  loads_empty : loads "" = .ok []
  /-- It gives dictionaries, which have no key twice. -/
  distinctKeys : ∀ text entries, loads text = .ok entries → (Value.table entries).distinctKeys = true
  /-- `str(v)` -/
  str : Value → Result String
  /-- `repr(v)` -/
  repr : Value → String
  /-- `s.upper()` -/
  upper : String → String
  /-- `float(n)`, which overflows for large integers. -/
  floatOfInt : Int → Option PyFloat
  /-- `float(s)`, which needs a number. -/
  floatOfStr : String → Option PyFloat
  /-- `x / 1000.0` -/
  thousandth : PyFloat → PyFloat
  /-- `n == x` -/
  intEqFloat : Int → FloatRepr → Bool
  /-- `Version(version)`: what `InvalidVersion` says. -/
  invalidVersion : String → Option String
  /-- `SpecifierSet(v)`, which raises `InvalidSpecifier`, a `ValueError`, for a text. -/
  specifierSet : Value → Result Unit

/-! ## The manifest -/

/-- An `int`, which can be a `bool`. -/
inductive PyInt where
  | int (n : Int)
  | bool (b : Bool)
  deriving DecidableEq, Repr

namespace PyInt

/-- The number that it is. -/
def toInt : PyInt → Int
  | int n => n
  | bool b => b.toInt

/-- `str(n)` -/
def text : PyInt → String
  | int n => toString n
  | bool true => "True"
  | bool false => "False"

end PyInt

/-- `isinstance(v, int)` -/
def pyInt? : Value → Option PyInt
  | .int n => some (.int n)
  | .bool b => some (.bool b)
  | _ => none

/-- `PortMapping`, as a manifest declares it. -/
structure DeclaredPort where
  label : String
  containerPort : PyInt
  hostPort : PyInt
  deriving DecidableEq, Repr

/-- `ServiceConsumes` -/
structure ServiceConsumes where
  service : String
  shortname : String
  version : Value
  grants : List Value

/-- `AppManifest` -/
structure AppManifest where
  name : Value
  version : Value
  description : Value
  authors : Value
  runtimeType : Value
  containerImage : Value
  containerPort : Value
  containerCommand : Option Value
  portMappings : List DeclaredPort
  capabilities : List String
  devices : List String
  shmMb : PyInt
  networkHost : Value
  healthCheck : Option Value
  publicPaths : Value
  links : List AppLink
  memoryMb : Value
  buildMemoryMb : Option Value
  cpuCores : PyFloat
  gpu : Value
  sqliteDbs : Value
  appData : Value
  appTempData : Value
  appArchive : Value
  accessAllAppData : Value
  providesServicesV2 : List ServiceProvides
  consumesServicesV2 : List ServiceConsumes
  hidden : Value
  rawToml : String

/-! ## Sections that are checked -/

/-- `SAFE_CAPABILITIES` -/
def safeCapabilities : List String :=
  ["NET_ADMIN", "NET_RAW", "NET_BIND_SERVICE", "NET_BROADCAST", "CHOWN", "DAC_OVERRIDE",
    "DAC_READ_SEARCH", "FOWNER", "FSETID", "SETFCAP", "KILL", "SETUID", "SETGID", "SETPCAP",
    "MKNOD", "AUDIT_WRITE", "IPC_LOCK", "IPC_OWNER", "SYS_CHROOT"]

/-- `SAFE_DEVICE_PATHS` -/
@[irreducible]
def safeDevicePaths : List String :=
  ["/dev/net/tun", "/dev/fuse"] ++ ["/dev/ttyS", "/dev/ttyUSB", "/dev/ttyACM"].flatMap fun family =>
    (List.range 8).map fun i => family ++ toString i

/-- `", ".join(sorted(names))` -/
def listing (names : List String) : String :=
  ", ".intercalate (names.mergeSort fun a b => decide (a ≤ b))

/-- `_validate_devices`, one entry. -/
def validateDevice (rt : Runtime) (entry : Value) : Result String :=
  match entry with
  | .str s => do
      require (stripBlank (before ':' s) ∈ safeDevicePaths)
        ("[runtime.container].devices entry " ++ rt.repr entry ++
          " is not in the allowlist.  Allowed host paths: " ++ listing safeDevicePaths ++ ".")
      return s
  | v => throw (.valueError ("[runtime.container].devices must contain strings, got " ++ v.typeName))

/-- `_validate_devices` -/
def validateDevices (rt : Runtime) (devices : Value) : Result (List String) :=
  match devices with
  | .array entries => entries.mapM (validateDevice rt)
  | _ => throw (.valueError "[runtime.container].devices must be a list of strings")

/-- A capability without the `CAP_` that may stand before it. -/
def capabilityName (rt : Runtime) (s : String) : String :=
  let name := rt.upper (stripBlank s)
  (stripPrefix? "CAP_" name).getD name

/-- `_validate_capabilities`, one entry. -/
def validateCapability (rt : Runtime) (entry : Value) : Result String :=
  match entry with
  | .str s => do
      require (capabilityName rt s ∈ safeCapabilities)
        ("[runtime.container].capabilities entry " ++ rt.repr entry ++
          " is not safe to grant under rootless podman.  Allowed: " ++
          listing safeCapabilities ++ ".")
      return capabilityName rt s
  | v =>
    throw (.valueError ("[runtime.container].capabilities must contain strings, got " ++ v.typeName))

/-- `_validate_capabilities` -/
def validateCapabilities (rt : Runtime) (caps : Value) : Result (List String) :=
  match caps with
  | .array entries => entries.mapM (validateCapability rt)
  | _ => throw (.valueError "[runtime.container].capabilities must be a list of strings")

/-- A text that is not empty. -/
def nonEmptyStr? (v : Option Value) : Option String := (v.bind Value.str?).filter (· ≠ "")

/-- An integer that is not negative. -/
def nonNegative? (v : Option Value) : Option PyInt := (v.bind pyInt?).filter (0 ≤ ·.toInt)

/-- What is there, or a `ValueError`. -/
def orRaise {α : Type} (a : Option α) (message : String) : Result α :=
  match a with
  | some a => .ok a
  | none => .error (.valueError message)

/-- The text of the error for a host port that cannot be bound. -/
def belowFloor (label : String) (hport : PyInt) : String :=
  "[[ports]] '" ++ label ++ "' host_port " ++ hport.text ++
    " is below the unprivileged port floor (" ++ toString unprivilegedPortFloor ++
    "); rootless podman cannot bind to it. Use a port >= " ++ toString unprivilegedPortFloor ++
    " or route through the Cloud in a Bottle proxy."

/-- `_parse_ports`, one entry after those that have been parsed. -/
def parsePort (parsed : List DeclaredPort) (entry : Value) : Result (List DeclaredPort) := do
  let entry ← orRaise entry.table? "Each [[ports]] entry must be a table"
  let label ← orRaise (nonEmptyStr? (Table.get? entry "label"))
    "Each [[ports]] entry requires a string 'label'"
  require (label ∉ parsed.map DeclaredPort.label) ("Duplicate port label: '" ++ label ++ "'")
  let cport ← orRaise (nonNegative? (Table.get? entry "container_port"))
    ("[[ports]] '" ++ label ++ "' requires a non-negative integer 'container_port'")
  require (cport.toInt ∉ parsed.map fun pm => pm.containerPort.toInt)
    ("Duplicate container_port " ++ cport.text ++ " in [[ports]]")
  let hport ← orRaise (nonNegative? (Table.getD entry "host_port" (.int 0)))
    ("[[ports]] '" ++ label ++ "' host_port must be a non-negative integer")
  require (hport.toInt = 0 ∨ unprivilegedPortFloor ≤ hport.toInt) (belowFloor label hport)
  require (hport.toInt = 0 ∨ hport.toInt ∉ parsed.map fun pm => pm.hostPort.toInt)
    ("Duplicate host_port " ++ hport.text ++ " in [[ports]]")
  return parsed ++ [⟨label, cport, hport⟩]

/-- `_parse_ports` -/
def parsePorts (portsList : Value) : Result (List DeclaredPort) := do
  (← iterate portsList).foldlM parsePort []

/-- `_parse_links`, one entry. -/
def parseLink (entry : Value) : Result AppLink := do
  let entry ← orRaise entry.table? "Each [[links]] entry must be a table"
  let name ← orRaise (nonEmptyStr? (Table.get? entry "name"))
    "Each [[links]] entry requires a non-empty string 'name'"
  let path ← orRaise (nonEmptyStr? (Table.get? entry "path"))
    ("[[links]] '" ++ name ++ "' requires a non-empty string 'path'")
  return ⟨name, path⟩

/-- `_parse_links` -/
def parseLinks (linksList : Value) : Result (List AppLink) := do
  (← orRaise linksList.array? "[[links]] must be a list of tables").mapM parseLink

/-- `float(v)` -/
def toFloat (rt : Runtime) (v : Value) : Result PyFloat :=
  match v with
  | .float x => .ok x
  | .int n => ofInt n
  | .bool b => ofInt b.toInt
  | .str s =>
    orRaise (rt.floatOfStr s) ("could not convert string to float: " ++ rt.repr v)
  | v => .error (.typeError
      ("float() argument must be a string or a real number, not '" ++ v.typeName ++ "'"))
where
  ofInt (n : Int) : Result PyFloat :=
    match rt.floatOfInt n with
    | some x => .ok x
    | none => .error (.overflowError "int too large to convert to float")

theorem isFraction_tenth : Json.isFraction "0.1".toList = true := by decide

/-- The default of `cpu_cores`. -/
def defaultCpuCores : PyFloat := .finite ⟨"0.1".toList, isFraction_tenth⟩

/-- `_parse_cpu_cores` -/
def parseCpuCores (rt : Runtime) (resources : Table) : Result PyFloat :=
  match Table.get? resources "cpu_cores", Table.get? resources "cpu_millicores" with
  | some v, _ => toFloat rt v
  | none, some v => rt.thousandth <$> toFloat rt v
  | none, none => .ok defaultCpuCores

/-! ## Services -/

/-- `_normalize_service_url` -/
def normalizeServiceUrl (url : String) : String :=
  let url := (stripPrefix? "https://" url).getD url
  let url := (stripPrefix? "http://" url).getD url
  rstrip '/' url

/-- What `cattrs` makes of a value for a field of type `str`, unless `str(v)` raises. -/
def structureStr (rt : Runtime) (v : Value) : Option String := (rt.str v).toOption

/-- A field of a provided service. -/
def structureField (rt : Runtime) (entry : Value) (key : String) : Option String :=
  (entry.table?.bind fun entry => Table.get? entry key).bind (structureStr rt)

/-- `cattrs.structure(entry, ServiceProvides)`: what is raised for the fields is gathered. -/
def structureProvides (rt : Runtime) (entry : Value) : Result ServiceProvides :=
  match structureField rt entry "service", structureField rt entry "version",
    structureField rt entry "endpoint" with
  | some service, some version, some endpoint =>
    .ok ⟨normalizeServiceUrl service, version, endpoint⟩
  | service, version, endpoint =>
    let failures := [service, version, endpoint].countP Option.isNone
    throw (.valueError ("Invalid [[services.v2.provides]]: While structuring ServiceProvides (" ++
      toString failures ++ (if failures = 1 then " sub-exception)" else " sub-exceptions)")))

/-- `_structure_list`: what is not a list of entries is a `ValueError` too. -/
def structureList (rt : Runtime) (entries : Value) : Result (List ServiceProvides) :=
  match iterate entries with
  | .ok entries => entries.mapM (structureProvides rt)
  | .error _ => throw (.valueError ("Invalid [[services.v2.provides]]: '" ++ entries.typeName ++
      "' object is not iterable"))

/-- The version of a provided service can be compared. -/
def checkProvided (rt : Runtime) (p : ServiceProvides) : Result Unit :=
  match rt.invalidVersion p.version with
  | none => .ok ()
  | some e => throw (.valueError ("Invalid [[services.v2.provides]] version " ++
      rt.repr (.str p.version) ++ " for service " ++ rt.repr (.str p.service) ++ ": " ++ e))

/-- `data.get("services", {}).get("v2", {}).get(key, [])` -/
def servicesV2 (data : Table) (key : String) : Result Value := do
  let services ← getsFrom (data.getD "services" (.table []))
  let v2 ← getsFrom (services.getD "v2" (.table []))
  return v2.getD key (.array [])

/-- `_parse_services_v2` -/
def parseServicesV2 (rt : Runtime) (data : Table) : Result (List ServiceProvides) := do
  let provides ← structureList rt (← servicesV2 data "provides")
  provides.forM (checkProvided rt)
  return provides

/-- `_SHORTNAME_RE.match(s)`; the dollar sign also stands before a final newline. -/
def matchesShortname (s : String) : Bool :=
  let cs := s.toList
  let cs := if cs.getLast? = some '\n' then cs.dropLast else cs
  match cs with
  | [] => false
  | c :: rest => c.isLower && decide (rest.length ≤ 31) &&
      rest.all fun c => c.isLower || c.isDigit || c = '_' || c = '-'

/-- A field of a consumed service. -/
def requiredField (rt : Runtime) (entry : Table) (key : String) : Result Value :=
  orRaise (Table.get? entry key)
    ("Invalid [[services.v2.consumes]] entry: missing required field " ++ rt.repr (.str key))

/-- A grant is a text or a container. -/
def checkGrant (g : Value) : Result Unit :=
  match g with
  | .str _ | .table _ | .array _ => .ok ()
  | g => throw (.valueError
      ("[[services.v2.consumes]] grant entry must be a string, table, or array, got " ++ g.typeName))

/-- `url.removeprefix(...)`, an attribute of texts only. -/
def serviceOf (v : Value) : Result String :=
  match v with
  | .str s => .ok (normalizeServiceUrl s)
  | v => .error (.attributeError ("'" ++ v.typeName ++ "' object has no attribute 'removeprefix'"))

/-- The text that a pattern is matched against. -/
def matched (v : Value) : Result String :=
  match v with
  | .str s => .ok s
  | v => .error (.typeError ("expected string or bytes-like object, got '" ++ v.typeName ++ "'"))

/-- `SpecifierSet(p.version)`, whose `InvalidSpecifier` is raised again with more words. -/
def checkSpecifier (rt : Runtime) (version : Value) (shortname : String) : Result Unit :=
  match rt.specifierSet version with
  | .error (.valueError e) => throw (.valueError
      ("Invalid [[services.v2.consumes]] version specifier " ++ rt.repr version ++
        " for shortname " ++ rt.repr (.str shortname) ++ ": " ++ e))
  | r => r

/-- `_parse_services_v2_consumes`, one entry after those that have been parsed. -/
def parseConsumed (rt : Runtime) (perms : List ServiceConsumes) (entry : Value) :
    Result (List ServiceConsumes) := do
  let entry ← orRaise entry.table?
    ("Invalid [[services.v2.consumes]] entry: must be a table, got " ++ entry.typeName)
  let service ← requiredField rt entry "service"
  let shortname ← requiredField rt entry "shortname"
  let version ← requiredField rt entry "version"
  let grants ← orRaise (Table.getD entry "grants" (.array [])).array?
    "[[services.v2.consumes]] grants must be a list"
  grants.forM checkGrant
  let service ← serviceOf service
  let shortname ← matched shortname
  require (matchesShortname shortname)
    ("Invalid [[services.v2.consumes]] shortname " ++ rt.repr (.str shortname) ++
      ": must match ^[a-z][a-z0-9_-]\x7b0,31\x7d$")
  require (shortname ∉ perms.map ServiceConsumes.shortname)
    ("Duplicate [[services.v2.consumes]] shortname " ++ rt.repr (.str shortname))
  checkSpecifier rt version shortname
  return perms ++ [⟨service, shortname, version, grants⟩]

/-- `_parse_services_v2_consumes` -/
def parseServicesV2Consumes (rt : Runtime) (data : Table) : Result (List ServiceConsumes) := do
  (← iterate (← servicesV2 data "consumes")).foldlM (parseConsumed rt) []

/-! ## The whole text -/

/-- `section.get(key)` is there and true. -/
def Present (entries : Table) (key : String) : Bool := (Table.get? entries key).any Value.truthy

/-- The sections that are looked up before the manifest is put together. -/
structure Sections where
  data : Table
  app : Table
  runtimeType : Value
  container : Table
  shmMb : PyInt

/-- The value names one of the two runtimes. -/
def isRuntimeType (v : Value) : Bool :=
  v.str? = some "serverless" || v.str? = some "serverfull"

/-- The check of the runtime type. -/
def checkRuntimeType (rt : Runtime) (v : Value) : Result Unit :=
  if isRuntimeType v then .ok ()
  else do throw (.valueError ("Invalid runtime type: " ++ (← rt.str v)))

/-- `parse_manifest_from_string`, up to the checks of the required fields. -/
def parseSections (rt : Runtime) (rawText : String) : Result Sections := do
  let data ← rt.loads rawText
  let app ← getsFrom (data.getD "app" (.table []))
  require (Present app "name") "Manifest missing required [app].name"
  require (Present app "version") "Manifest missing required [app].version"
  let runtime ← getsFrom (data.getD "runtime" (.table []))
  let runtimeType := runtime.getD "type" (.str "serverfull")
  checkRuntimeType rt runtimeType
  let container ← getsFrom (runtime.getD "container" (.table []))
  require (Present container "image") "[runtime.container].image is required"
  require (Present container "port") "[runtime.container].port is required"
  let shmMb ← orRaise (nonNegative? (container.getD "shm_mb" (.int 0)))
    "[runtime.container].shm_mb must be a non-negative integer"
  -- the deprecated flags are only warned about
  let _ ← contains (data.getD "data" (.table [])) "access_all_data"
  let _ ← contains (data.getD "data" (.table [])) "access_all_archive"
  return ⟨data, app, runtimeType, container, shmMb⟩

/-- `parse_manifest_from_string`, from there on: the arguments in the order they are evaluated. -/
def buildManifest (rt : Runtime) (rawText : String) (s : Sections) : Result AppManifest := do
  let portMappings ← parsePorts (s.data.getD "ports" (.array []))
  let capabilities ← validateCapabilities rt (s.container.getD "capabilities" (.array []))
  let devices ← validateDevices rt (s.container.getD "devices" (.array []))
  let routing ← getsFrom (s.data.getD "routing" (.table []))
  let links ← parseLinks (s.data.getD "links" (.array []))
  let resources ← getsFrom (s.data.getD "resources" (.table []))
  let cpuCores ← parseCpuCores rt resources
  let data ← getsFrom (s.data.getD "data" (.table []))
  let providesServicesV2 ← parseServicesV2 rt s.data
  let consumesServicesV2 ← parseServicesV2Consumes rt s.data
  return {
    name := s.app.getD "name" (.str "")
    version := s.app.getD "version" (.str "")
    description := s.app.getD "description" (.str "")
    authors := s.app.getD "authors" (.array [])
    hidden := s.app.getD "hidden" (.bool false)
    runtimeType := s.runtimeType
    containerImage := s.container.getD "image" (.str "")
    containerPort := s.container.getD "port" (.int 0)
    containerCommand := s.container.get? "command"
    portMappings, capabilities, devices
    networkHost := s.container.getD "network_host" (.bool false)
    shmMb := s.shmMb
    healthCheck := routing.get? "health_check"
    publicPaths := routing.getD "public_paths" (.array [])
    links
    memoryMb := resources.getD "memory_mb" (.int 128)
    buildMemoryMb := resources.get? "build_memory_mb"
    cpuCores
    gpu := resources.getD "gpu" (.bool false)
    sqliteDbs := data.getD "sqlite" (.array [])
    appData := data.getD "app_data" (.bool true)
    appTempData := data.getD "app_temp_data" (.bool false)
    appArchive := data.getD "app_archive" (.bool false)
    accessAllAppData := (data.getD "access_all_app_data" (.bool false)).orElse
      ((data.getD "access_all_data" (.bool false)).orElse
        (data.getD "access_all_archive" (.bool false)))
    providesServicesV2, consumesServicesV2
    rawToml := rawText }

/-- `parse_manifest_from_string` -/
def parseManifestFromString (rt : Runtime) (rawText : String) : Result AppManifest := do
  buildManifest rt rawText (← parseSections rt rawText)

end OpenHost.Manifest

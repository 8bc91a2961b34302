import OpenHost.Manifest.Parse
import Mathlib.Tactic.MkIffOfInductiveProp

/-!
# Which texts give a manifest of its declared types

Callers of `parse_manifest_from_string` handle `ValueError` and rely on the types that `AppManifest`
declares.  The parser checks some sections and copies the others, so both can fail; `Tolerated` says
exactly when neither does, by the sections the parser gets to.
-/

namespace OpenHost.Manifest

open Raises
open Toml (Value Table PyFloat getsFrom iterate contains)

/-! ## Declared types -/

mutual

/-- The value is a `GrantAtom`. -/
def isGrantAtom : Value → Bool
  | .temporal _ => false
  | .array items => areGrantAtoms items
  | .table entries => haveGrantAtoms entries
  | _ => true

def areGrantAtoms : List Value → Bool
  | [] => true
  | v :: vs => isGrantAtom v && areGrantAtoms vs

def haveGrantAtoms : Table → Bool
  | [] => true
  | (_, v) :: ms => isGrantAtom v && haveGrantAtoms ms

end

/-- The value is a `Grant`. -/
def isGrant (g : Value) : Bool :=
  match g with
  | .str _ | .array _ | .table _ => isGrantAtom g
  | _ => false

/-- The value is a `str`. -/
def isStr (v : Value) : Bool := v.str?.isSome

/-- The value is an `int`. -/
def isInt (v : Value) : Bool := (pyInt? v).isSome

/-- The types of `ServiceConsumes`. -/
def ServiceConsumes.wellTyped (c : ServiceConsumes) : Bool := isStr c.version && c.grants.all isGrant

/-- Every field of the manifest, and every element of its lists, has the type that `AppManifest`
declares.  The fields that are checked have theirs already. -/
@[mk_iff]
structure AppManifest.WellTyped (m : AppManifest) : Prop where
  consumesServicesV2 : ∀ c ∈ m.consumesServicesV2, c.wellTyped = true
  runtimeType : isStr m.runtimeType = true
  name : isStr m.name = true
  version : isStr m.version = true
  description : isStr m.description = true
  authors : m.authors.isTexts = true
  hidden : m.hidden.isBool = true
  containerImage : isStr m.containerImage = true
  containerPort : isInt m.containerPort = true
  containerCommand : m.containerCommand.all isStr = true
  networkHost : m.networkHost.isBool = true
  healthCheck : m.healthCheck.all isStr = true
  publicPaths : m.publicPaths.isTexts = true
  memoryMb : isInt m.memoryMb = true
  buildMemoryMb : m.buildMemoryMb.all isInt = true
  gpu : m.gpu.isBool = true
  sqliteDbs : m.sqliteDbs.isTexts = true
  appData : m.appData.isBool = true
  appTempData : m.appTempData.isBool = true
  appArchive : m.appArchive.isBool = true
  accessAllAppData : m.accessAllAppData.isBool = true

/-- What the parser does with a text: it raises `ValueError`, or returns a manifest of its declared
types. -/
def AnswersTyped (rt : Runtime) (rawText : String) : Prop :=
  Meets (parseManifestFromString rt rawText) AppManifest.WellTyped

/-! ## What a section has to be -/

/-- `key in v` raises nothing. -/
def Searchable (v : Value) : Prop := (∃ t, v = .table t) ∨ (∃ l, v = .array l) ∨ ∃ s, v = .str s

/-- `float(v)` raises nothing but `ValueError`. -/
def Floatable (rt : Runtime) (v : Value) : Prop :=
  match v with
  | .float _ | .str _ => True
  | .int n => (rt.floatOfInt n).isSome = true
  | .bool b => (rt.floatOfInt b.toInt).isSome = true
  | _ => False

/-- The number of cores can be read. -/
def CoresFloatable (rt : Runtime) (resources : Table) : Prop :=
  ∀ v, (resources.get? "cpu_cores" <|> resources.get? "cpu_millicores") = some v → Floatable rt v

/-- The fields of a consumed service are texts where they are used as texts. -/
def ConsumedShaped (rt : Runtime) (perms : List ServiceConsumes) (entry : Value) : Prop :=
  ∀ t : Table, entry = .table t →
  ∀ service, t.get? "service" = some service →
  ∀ shortname, t.get? "shortname" = some shortname →
  ∀ version, t.get? "version" = some version →
  ∀ grants, t.getD "grants" (.array []) = .array grants → grants.forM checkGrant = .ok () →
    (∃ url, service = .str url) ∧ ∃ name, shortname = .str name ∧
      (matchesShortname name = true → name ∉ perms.map ServiceConsumes.shortname →
        Checks (rt.specifierSet version))

/-- The consumed services are shaped, each after those that were accepted, and those of an accepted
list are of their declared types. -/
def ConsumesTolerated (rt : Runtime) : List ServiceConsumes → List Value → Prop
  | perms, [] => ∀ c ∈ perms, c.wellTyped = true
  | perms, entry :: entries => ConsumedShaped rt perms entry ∧
      ∀ perms', parseConsumed rt perms entry = .ok perms' → ConsumesTolerated rt perms' entries

/-- The fields that are copied have their declared types. -/
@[mk_iff]
structure CopiedTyped (s : Sections) (routing resources data : Table) : Prop where
  name : isStr (s.app.getD "name" (.str "")) = true
  version : isStr (s.app.getD "version" (.str "")) = true
  description : isStr (s.app.getD "description" (.str "")) = true
  authors : (s.app.getD "authors" (.array [])).isTexts = true
  hidden : (s.app.getD "hidden" (.bool false)).isBool = true
  image : isStr (s.container.getD "image" (.str "")) = true
  port : isInt (s.container.getD "port" (.int 0)) = true
  command : (s.container.get? "command").all isStr = true
  networkHost : (s.container.getD "network_host" (.bool false)).isBool = true
  healthCheck : (routing.get? "health_check").all isStr = true
  publicPaths : (routing.getD "public_paths" (.array [])).isTexts = true
  memoryMb : isInt (resources.getD "memory_mb" (.int 128)) = true
  buildMemoryMb : (resources.get? "build_memory_mb").all isInt = true
  gpu : (resources.getD "gpu" (.bool false)).isBool = true
  sqlite : (data.getD "sqlite" (.array [])).isTexts = true
  appData : (data.getD "app_data" (.bool true)).isBool = true
  appTempData : (data.getD "app_temp_data" (.bool false)).isBool = true
  appArchive : (data.getD "app_archive" (.bool false)).isBool = true
  accessAll : ((data.getD "access_all_app_data" (.bool false)).orElse
    ((data.getD "access_all_data" (.bool false)).orElse
      (data.getD "access_all_archive" (.bool false)))).isBool = true

/-- The sections that the parser goes through once the required fields are there. -/
def BodyTolerated (rt : Runtime) (s : Sections) : Prop :=
  ∃ ports, iterate (s.data.getD "ports" (.array [])) = .ok ports ∧
  ∀ portMappings, ports.foldlM parsePort [] = .ok portMappings →
  ∀ capabilities,
    validateCapabilities rt (s.container.getD "capabilities" (.array [])) = .ok capabilities →
  ∀ devices, validateDevices rt (s.container.getD "devices" (.array [])) = .ok devices →
  ∃ routing : Table, s.data.getD "routing" (.table []) = .table routing ∧
  ∀ links, parseLinks (s.data.getD "links" (.array [])) = .ok links →
  ∃ resources : Table, s.data.getD "resources" (.table []) = .table resources ∧
  CoresFloatable rt resources ∧
  ∀ cpuCores, parseCpuCores rt resources = .ok cpuCores →
  ∃ data : Table, s.data.getD "data" (.table []) = .table data ∧
  ∃ services : Table, s.data.getD "services" (.table []) = .table services ∧
  ∃ v2 : Table, services.getD "v2" (.table []) = .table v2 ∧
  ∀ provides, structureList rt (v2.getD "provides" (.array [])) = .ok provides →
  provides.forM (checkProvided rt) = .ok () →
  ∃ consumes, iterate (v2.getD "consumes" (.array [])) = .ok consumes ∧
  ConsumesTolerated rt [] consumes ∧
  ∀ perms, consumes.foldlM (parseConsumed rt) [] = .ok perms →
  CopiedTyped s routing resources data

/-- The sections that come first, and then `BodyTolerated`. -/
def HeadTolerated (rt : Runtime) (data : Table) : Prop :=
  ∃ app : Table, data.getD "app" (.table []) = .table app ∧
  (Present app "name" = true → Present app "version" = true →
  ∃ runtime : Table, data.getD "runtime" (.table []) = .table runtime ∧
  (isRuntimeType (runtime.getD "type" (.str "serverfull")) = false →
    Checks (rt.str (runtime.getD "type" (.str "serverfull")))) ∧
  (isRuntimeType (runtime.getD "type" (.str "serverfull")) = true →
  ∃ container : Table, runtime.getD "container" (.table []) = .table container ∧
  (Present container "image" = true → Present container "port" = true →
  ∀ shmMb, nonNegative? (container.getD "shm_mb" (.int 0)) = some shmMb →
  Searchable (data.getD "data" (.table [])) ∧
  BodyTolerated rt ⟨data, app, runtime.getD "type" (.str "serverfull"), container, shmMb⟩)))

/-- Whatever section the parser gets to is what it takes it for, and what it copies has the declared
type. -/
def Tolerated (rt : Runtime) (rawText : String) : Prop :=
  Meets (rt.loads rawText) (HeadTolerated rt)

/-! ## The parsers that only check -/

theorem meets_orRaise {α : Type} {a : Option α} {message : String} {Q : α → Prop} :
    Meets (orRaise a message) Q ↔ ∀ x, a = some x → Q x := by
  cases a with
  | none => simp [orRaise]
  | some a => simp [orRaise]

theorem checks_orRaise {α : Type} {a : Option α} {message : String} : Checks (orRaise a message) :=
  meets_orRaise.mpr fun _ _ => trivial

theorem orRaise_eq_ok_iff {α : Type} {a : Option α} {message : String} {x : α} :
    orRaise a message = .ok x ↔ a = some x := by
  cases a with
  | none => simp [orRaise]
  | some a => simp [orRaise]

theorem checks_parsePort (parsed : List DeclaredPort) (entry : Value) :
    Checks (parsePort parsed entry) := by
  unfold parsePort
  refine checks_orRaise.bind fun entry => checks_orRaise.bind fun label => ?_
  refine checks_require.bind fun _ => checks_orRaise.bind fun cport => ?_
  refine checks_require.bind fun _ => checks_orRaise.bind fun hport => ?_
  exact checks_require.bind fun _ => checks_require.bind fun _ => checks_pure

theorem checks_validateCapability (rt : Runtime) (entry : Value) :
    Checks (validateCapability rt entry) := by
  unfold validateCapability
  split
  · exact checks_require.bind fun _ => checks_pure
  · exact checks_throw_valueError

theorem checks_validateCapabilities (rt : Runtime) (caps : Value) :
    Checks (validateCapabilities rt caps) := by
  unfold validateCapabilities
  split
  · exact checks_mapM (checks_validateCapability rt) _
  · exact checks_throw_valueError

theorem checks_validateDevice (rt : Runtime) (entry : Value) : Checks (validateDevice rt entry) := by
  unfold validateDevice
  split
  · exact checks_require.bind fun _ => checks_pure
  · exact checks_throw_valueError

theorem checks_validateDevices (rt : Runtime) (devices : Value) :
    Checks (validateDevices rt devices) := by
  unfold validateDevices
  split
  · exact checks_mapM (checks_validateDevice rt) _
  · exact checks_throw_valueError

theorem checks_parseLinks (linksList : Value) : Checks (parseLinks linksList) := by
  refine checks_orRaise.bind fun entries => checks_mapM (fun entry => ?_) entries
  refine checks_orRaise.bind fun entry => checks_orRaise.bind fun name => ?_
  exact checks_orRaise.bind fun path => checks_pure

theorem checks_structureList (rt : Runtime) (entries : Value) :
    Checks (structureList rt entries) := by
  unfold structureList
  split
  · refine checks_mapM (fun entry => ?_) _
    unfold structureProvides
    split
    · exact checks_ok
    · exact checks_throw_valueError
  · exact checks_throw_valueError

theorem checks_checkProvided (rt : Runtime) (p : Install.ServiceProvides) :
    Checks (checkProvided rt p) := by
  unfold checkProvided
  split
  · exact checks_ok
  · exact checks_throw_valueError

theorem checks_checkGrant (g : Value) : Checks (checkGrant g) := by
  cases g with
  | str _ | table _ | array _ => exact checks_ok
  | _ => exact checks_throw_valueError

/-! ## The sections that have to be tables -/

theorem meets_getsFrom {v : Value} {Q : Table → Prop} :
    Meets (getsFrom v) Q ↔ ∃ t : Table, v = .table t ∧ Q t := by
  cases v with
  | table t => simp [getsFrom]
  | _ => simp [getsFrom, Exc.isValueError]

theorem meets_iterate {v : Value} {Q : List Value → Prop} :
    Meets (iterate v) Q ↔ ∃ items, iterate v = .ok items ∧ Q items := by
  cases v with
  | array _ | table _ | str _ => simp [iterate]
  | _ => simp [iterate, Exc.isValueError]

theorem meets_contains {v : Value} {key : String} {P : Prop} :
    (Meets (contains v key) fun _ => P) ↔ Searchable v ∧ P := by
  cases v with
  | array _ | table _ | str _ => simp [contains, Searchable]
  | _ => simp [contains, Searchable, Exc.isValueError]

theorem meets_toFloat {rt : Runtime} {v : Value} {Q : PyFloat → Prop} :
    Meets (toFloat rt v) Q ↔ Floatable rt v ∧ ∀ x, toFloat rt v = .ok x → Q x := by
  have hint : ∀ n, Meets (toFloat.ofInt rt n) Q ↔
      (rt.floatOfInt n).isSome = true ∧ ∀ x, toFloat.ofInt rt n = .ok x → Q x := by
    intro n
    unfold toFloat.ofInt
    cases rt.floatOfInt n with
    | none => simp [Exc.isValueError]
    | some x => simp
  cases v with
  | int n => exact hint n
  | bool b => exact hint b.toInt
  | float x => simp [toFloat, Floatable]
  | str s => simpa [toFloat, Floatable] using meets_iff_of_checks checks_orRaise
  | _ => simp [toFloat, Floatable, Exc.isValueError]

/-! ## Consumed services -/

theorem table?_eq_some_iff {v : Value} {t : Table} : v.table? = some t ↔ v = .table t := by
  cases v with
  | table _ => simp [Value.table?]
  | _ => simp [Value.table?]

theorem array?_eq_some_iff {v : Value} {items : List Value} :
    v.array? = some items ↔ v = .array items := by
  cases v with
  | array _ => simp [Value.array?]
  | _ => simp [Value.array?]

theorem meets_serviceOf {v : Value} {P : Prop} :
    (Meets (serviceOf v) fun _ => P) ↔ (∃ url, v = .str url) ∧ P := by
  cases v with
  | str _ => simp [serviceOf]
  | _ => simp [serviceOf, Exc.isValueError]

theorem meets_matched {v : Value} {Q : String → Prop} :
    Meets (matched v) Q ↔ ∃ s, v = .str s ∧ Q s := by
  cases v with
  | str _ => simp [matched]
  | _ => simp [matched, Exc.isValueError]

theorem checks_checkSpecifier {rt : Runtime} {version : Value} {shortname : String} :
    (Meets (checkSpecifier rt version shortname) fun _ => True) ↔
      Checks (rt.specifierSet version) := by
  unfold checkSpecifier
  split
  · next e he => simp [he]
  · exact Iff.rfl

/-- An entry is refused with `ValueError` or accepted, exactly when it is shaped. -/
theorem checks_parseConsumed {rt : Runtime} {perms : List ServiceConsumes} {entry : Value} :
    Checks (parseConsumed rt perms entry) ↔ ConsumedShaped rt perms entry := by
  unfold parseConsumed ConsumedShaped requiredField
  rw [Checks]
  simp only [meets_bind, meets_orRaise, table?_eq_some_iff, array?_eq_some_iff,
    meets_unit_iff_of_checks (checks_forM checks_checkGrant _), meets_serviceOf, meets_matched,
    meets_require, meets_pure, decide_eq_true_eq, checks_checkSpecifier]

/-- The entries are gone through one after the other. -/
theorem meets_consumes {rt : Runtime} {perms : List ServiceConsumes} {entries : List Value} :
    (Meets (entries.foldlM (parseConsumed rt) perms) fun perms => ∀ c ∈ perms, c.wellTyped = true) ↔
      ConsumesTolerated rt perms entries := by
  induction entries generalizing perms with
  | nil => exact meets_pure
  | cons entry entries ih =>
    rw [List.foldlM_cons, meets_bind, meets_iff, checks_parseConsumed, ConsumesTolerated]
    simp only [ih]

/-! ## The sections in their order -/

theorem meets_parseCpuCores {rt : Runtime} {resources : Table} {Q : PyFloat → Prop} :
    Meets (parseCpuCores rt resources) Q ↔
      CoresFloatable rt resources ∧ ∀ x, parseCpuCores rt resources = .ok x → Q x := by
  rw [meets_iff]
  refine and_congr_left fun _ => ?_
  have hfloat : ∀ v, Checks (toFloat rt v) ↔ Floatable rt v := fun v =>
    meets_toFloat.trans (by simp)
  unfold parseCpuCores CoresFloatable
  cases resources.get? "cpu_cores" with
  | some v => simpa using hfloat v
  | none =>
    cases resources.get? "cpu_millicores" with
    | some v => simpa [Checks, meets_map] using hfloat v
    | none => simp

theorem meets_servicesV2 {data : Table} {key : String} {Q : Value → Prop} :
    Meets (servicesV2 data key) Q ↔
      ∃ services : Table, data.getD "services" (.table []) = .table services ∧
      ∃ v2 : Table, services.getD "v2" (.table []) = .table v2 ∧ Q (v2.getD key (.array [])) := by
  unfold servicesV2
  simp only [meets_bind, meets_getsFrom, meets_pure]

theorem meets_parseServicesV2 {rt : Runtime} {data : Table} {P : Prop} :
    (Meets (parseServicesV2 rt data) fun _ => P) ↔
      ∃ services : Table, data.getD "services" (.table []) = .table services ∧
      ∃ v2 : Table, services.getD "v2" (.table []) = .table v2 ∧
      ∀ provides, structureList rt (v2.getD "provides" (.array [])) = .ok provides →
      provides.forM (checkProvided rt) = .ok () → P := by
  unfold parseServicesV2
  simp only [meets_bind, meets_servicesV2, meets_iff_of_checks (checks_structureList rt _),
    meets_unit_iff_of_checks (checks_forM (checks_checkProvided rt) _), meets_pure]

theorem meets_consumesSection {rt : Runtime} {data : Table} {P : Prop} :
    (Meets (parseServicesV2Consumes rt data) fun perms => (∀ c ∈ perms, c.wellTyped = true) ∧ P) ↔
      ∃ services : Table, data.getD "services" (.table []) = .table services ∧
      ∃ v2 : Table, services.getD "v2" (.table []) = .table v2 ∧
      ∃ consumes, iterate (v2.getD "consumes" (.array [])) = .ok consumes ∧
        ConsumesTolerated rt [] consumes ∧
        ∀ perms, consumes.foldlM (parseConsumed rt) [] = .ok perms → P := by
  unfold parseServicesV2Consumes
  simp only [meets_bind, meets_servicesV2, meets_iterate]
  simp only [meets_and_iff, meets_consumes]

/-- Both sections of the services are looked up in the same tables. -/
theorem meets_services {rt : Runtime} {data : Table} {P : Prop} :
    (Meets (parseServicesV2 rt data) fun _ =>
      Meets (parseServicesV2Consumes rt data) fun perms =>
        (∀ c ∈ perms, c.wellTyped = true) ∧ P) ↔
      ∃ services : Table, data.getD "services" (.table []) = .table services ∧
      ∃ v2 : Table, services.getD "v2" (.table []) = .table v2 ∧
      ∀ provides, structureList rt (v2.getD "provides" (.array [])) = .ok provides →
      provides.forM (checkProvided rt) = .ok () →
      ∃ consumes, iterate (v2.getD "consumes" (.array [])) = .ok consumes ∧
        ConsumesTolerated rt [] consumes ∧
        ∀ perms, consumes.foldlM (parseConsumed rt) [] = .ok perms → P := by
  simp only [meets_parseServicesV2, meets_consumesSection]
  apply exists_congr
  intro services
  apply and_congr_right
  intro hservices
  apply exists_congr
  intro v2
  apply and_congr_right
  intro hv2
  -- the second look finds what the first one found
  simp only [hservices, hv2, Value.table.injEq, exists_eq_left']

theorem meets_checkRuntimeType {rt : Runtime} {v : Value} {P : Prop} :
    (Meets (checkRuntimeType rt v) fun _ => P) ↔
      (isRuntimeType v = false → Checks (rt.str v)) ∧ (isRuntimeType v = true → P) := by
  unfold checkRuntimeType
  cases isRuntimeType v with
  | true => simp
  | false => simp [meets_bind, Checks]

theorem isStr_of_isRuntimeType {v : Value} (h : isRuntimeType v = true) : isStr v = true := by
  unfold isStr
  rcases Bool.or_eq_true_iff.mp h with h | h
  · rw [of_decide_eq_true h, Option.isSome_some]
  · rw [of_decide_eq_true h, Option.isSome_some]

/-- From the ports on. -/
theorem meets_buildManifest {rt : Runtime} {rawText : String} {s : Sections}
    (hruntime : isRuntimeType s.runtimeType = true) :
    Meets (buildManifest rt rawText s) AppManifest.WellTyped ↔ BodyTolerated rt s := by
  have hports : ∀ items : List Value, Checks (items.foldlM parsePort []) := fun items =>
    checks_foldlM checks_parsePort items []
  unfold buildManifest parsePorts BodyTolerated
  simp only [meets_bind, meets_getsFrom, meets_iterate, meets_iff_of_checks (hports _),
    meets_iff_of_checks (checks_validateCapabilities rt _),
    meets_iff_of_checks (checks_validateDevices rt _), meets_iff_of_checks (checks_parseLinks _),
    meets_parseCpuCores, meets_pure]
  -- what is copied does not depend on what the services are
  simp only [AppManifest.wellTyped_iff, isStr_of_isRuntimeType hruntime, true_and,
    meets_services, copiedTyped_iff]

/-- A text is answered as it should be exactly when its sections are what the parser takes them
for. -/
theorem answersTyped_iff (rt : Runtime) (rawText : String) :
    AnswersTyped rt rawText ↔ Tolerated rt rawText := by
  unfold AnswersTyped parseManifestFromString parseSections Tolerated HeadTolerated
  simp +contextual only [meets_bind, meets_getsFrom, meets_pure, meets_orRaise, meets_require,
    meets_contains, meets_checkRuntimeType, meets_buildManifest, and_self_left]

/-- The sections of a text are those that the reader gives. -/
theorem parseSections_data {rt : Runtime} {rawText : String} {s : Sections}
    (h : parseSections rt rawText = .ok s) : rt.loads rawText = .ok s.data := by
  unfold parseSections at h
  simp only [bind_eq_ok_iff] at h
  obtain ⟨data, hdata, _, _, _, _, _, _, _, _, _, _, _, _, _, _, _, _, _, _, _, _, _, _, hs⟩ := h
  rw [← Except.ok.inj hs, hdata]

/-! ## Runs on given texts -/

/-- The tables of the texts, where they are given. -/
def readFrom (texts : List (String × Table)) (text : String) : Result Table :=
  if text = "" then .ok []
  else match texts.lookup text with
    | some entries =>
      if (Value.table entries).distinctKeys then .ok entries
      else .error (.valueError "Cannot overwrite a value")
    | none => .error (.valueError "Invalid statement")

theorem distinctKeys_of_readFrom {texts : List (String × Table)} {text : String} {entries : Table}
    (h : readFrom texts text = .ok entries) : (Value.table entries).distinctKeys = true := by
  unfold readFrom at h
  split at h
  · obtain rfl := Except.ok.inj h
    rfl
  · split at h
    · split at h
      · next hkeys =>
        obtain rfl := Except.ok.inj h
        exact hkeys
      · simp at h
    · simp at h

/-- `str(v)` for what a manifest prints in its errors. -/
def strOf : Value → String
  | .str s => s
  | .int n => toString n
  | .bool true => "True"
  | .bool false => "False"
  | v => v.typeName

/-- Python with the tables that the reader gives for some texts. -/
def Runtime.reading (texts : List (String × Table)) : Runtime where
  loads := readFrom texts
  loads_empty := rfl
  distinctKeys _ _ := distinctKeys_of_readFrom
  str v := .ok (strOf v)
  repr := strOf
  upper s := s.map Char.toUpper
  floatOfInt _ := none
  floatOfStr _ := none
  thousandth x := x
  intEqFloat _ _ := false
  invalidVersion _ := none
  specifierSet _ := .ok ()

theorem loads_reading {text : String} {entries : Table}
    (hne : text ≠ "") (h : (Value.table entries).distinctKeys = true) :
    (Runtime.reading [(text, entries)]).loads text = .ok entries := by
  simp [Runtime.reading, readFrom, hne, h]

/-- A manifest whose name is a number. -/
def numberedText : String :=
  "app = \x7b name = 5, version = '1' \x7d\nruntime.container = \x7b image = 'Dockerfile', port = 80 \x7d"

def numberedTables : Table :=
  [("app", .table [("name", .int 5), ("version", .str "1")]),
    ("runtime", .table [("container", .table [("image", .str "Dockerfile"), ("port", .int 80)])])]

/-- A text with a value where a table is expected, and one with a number for a name. -/
theorem not_answersTyped :
    ¬AnswersTyped (.reading [("app = 'x'", [("app", .str "x")])]) "app = 'x'" ∧
    ¬AnswersTyped (.reading [(numberedText, numberedTables)]) numberedText := by
  constructor
  · intro h
    -- `"x".get` is an `AttributeError`
    have h : (Exc.attributeError "").isValueError = true := h
    cases h
  · intro h
    have hname : isStr (.int 5) = true := AppManifest.WellTyped.name h
    cases hname

end OpenHost.Manifest

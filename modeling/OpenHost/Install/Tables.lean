import Mathlib.Data.List.Nodup
import Mathlib.Data.Rat.Defs
import OpenHost.Apps.State
import OpenHost.Library.Sessions

/-!
# The rows of an installed app

The tables that an install, a reload and a removal write: `apps`, `app_port_mappings`,
`app_databases`, `app_tokens` and `service_providers_v2`, with the constraints of the schema.  A
statement that would break one is refused.
-/

namespace OpenHost.Install

open Apps (Status)

/-! ## Manifests -/

/-- `PortMapping`: the host port 0 stands for any free one. -/
structure PortMapping where
  label : String
  containerPort : Int
  hostPort : Int := 0
  deriving DecidableEq, Repr

/-- `AppLink` -/
structure AppLink where
  name : String
  path : String
  deriving DecidableEq, Repr

/-- `ServiceProvides` -/
structure ServiceProvides where
  service : String
  version : String
  endpoint : String
  deriving DecidableEq, Repr

/-- `UNPRIVILEGED_PORT_FLOOR` -/
def unprivilegedPortFloor : Int := 25

/-- What `_parse_ports` has checked. -/
structure PortsParsed (ports : List PortMapping) : Prop where
  named : ∀ pm ∈ ports, pm.label ≠ ""
  labels : (ports.map PortMapping.label).Nodup
  containerPorts : (ports.map PortMapping.containerPort).Nodup
  hostPorts : ((ports.map PortMapping.hostPort).filter (· ≠ 0)).Nodup
  floor : ∀ pm ∈ ports, pm.hostPort = 0 ∨ unprivilegedPortFloor ≤ pm.hostPort

/-- `AppManifest`, as far as the rows are made from it. -/
structure AppManifest where
  name : String
  version : String := "1"
  description : String := ""
  runtimeType : String := "serverfull"
  containerPort : Nat := 0
  portMappings : List PortMapping := []
  healthCheck : Option String := none
  publicPaths : List String := []
  links : List AppLink := []
  memoryMb : Int := 128
  cpuCores : ℚ := 1 / 10
  gpu : Bool := false
  sqliteDbs : List String := []
  providesServicesV2 : List ServiceProvides := []
  rawToml : String := ""
  parsed : PortsParsed portMappings

/-! ## Rows -/

/-- The columns of `apps` that come from the manifest.  `public_paths` and `links` are the lists
whose JSON the columns hold. -/
structure ManifestColumns where
  manifestName : String
  version : String
  description : String
  runtimeType : String
  healthCheck : Option String
  containerPort : Nat
  memoryMb : Int
  cpuCores : ℚ
  gpu : Nat
  publicPaths : List String
  links : List AppLink
  manifestRaw : String
  deriving DecidableEq, Repr

/-- `_manifest_column_values` -/
def manifestColumnValues (manifest : AppManifest) : ManifestColumns where
  manifestName := manifest.name
  version := manifest.version
  description := manifest.description
  runtimeType := manifest.runtimeType
  healthCheck := manifest.healthCheck
  containerPort := manifest.containerPort
  memoryMb := manifest.memoryMb
  cpuCores := manifest.cpuCores
  gpu := manifest.gpu.toNat
  publicPaths := manifest.publicPaths
  links := manifest.links
  manifestRaw := manifest.rawToml

/-- A row of `apps`. -/
structure AppRow where
  appId : String
  name : String
  repoPath : String
  repoUrl : Option String
  localPort : Int
  containerId : Option String
  status : Status
  errorMessage : Option String
  columns : ManifestColumns
  deriving DecidableEq, Repr

/-- A row of `app_port_mappings`. -/
structure PortMappingRow where
  appId : String
  label : String
  containerPort : Int
  hostPort : Int
  deriving DecidableEq, Repr

/-- A row of `app_databases`. -/
structure DatabaseRow where
  appId : String
  dbName : String
  dbPath : String
  deriving DecidableEq, Repr

/-- A row of `app_tokens`. -/
structure TokenRow where
  appId : String
  tokenHash : String
  deriving DecidableEq, Repr

/-- A row of `service_providers_v2`. -/
structure ProviderRow where
  serviceUrl : String
  appId : String
  serviceVersion : String
  endpoint : String
  deriving DecidableEq, Repr

/-- The rows of the tables. -/
structure Rows where
  apps : List AppRow := []
  portMappings : List PortMappingRow := []
  databases : List DatabaseRow := []
  tokens : List TokenRow := []
  providers : List ProviderRow := []
  deriving DecidableEq

namespace Rows

/-- The apps that have a row in `apps`. -/
def appIds (r : Rows) : List String := r.apps.map AppRow.appId

/-- The apps that the other rows belong to. -/
def owners (r : Rows) : List String :=
  r.portMappings.map PortMappingRow.appId ++ r.databases.map DatabaseRow.appId ++
    r.tokens.map TokenRow.appId ++ r.providers.map ProviderRow.appId

/-- The ports of the apps themselves. -/
def localPorts (r : Rows) : List Int := r.apps.map AppRow.localPort

/-- The mapped ports. -/
def hostPorts (r : Rows) : List Int := r.portMappings.map PortMappingRow.hostPort

/-- `SELECT … FROM apps WHERE app_id = ?` -/
def findApp (r : Rows) (appId : String) : Option AppRow := r.apps.find? (·.appId = appId)

/-- The row of the app is changed. -/
def setApp (r : Rows) (appId : String) (f : AppRow → AppRow) : Rows :=
  { r with apps := r.apps.map fun a => if a.appId = appId then f a else a }

end Rows

/-- The constraints of the schema.  The connection of a reload does not enforce the references, but
it writes only rows of an app that it has found. -/
structure Constraints (r : Rows) : Prop where
  appIds : r.appIds.Nodup
  names : (r.apps.map AppRow.name).Nodup
  localPorts : r.localPorts.Nodup
  labels : (r.portMappings.map fun m => (m.appId, m.label)).Nodup
  hostPorts : r.hostPorts.Nodup
  dbNames : (r.databases.map fun d => (d.appId, d.dbName)).Nodup
  tokenOwners : (r.tokens.map TokenRow.appId).Nodup
  tokenHashes : (r.tokens.map TokenRow.tokenHash).Nodup
  providers : (r.providers.map fun p => (p.serviceUrl, p.appId, p.serviceVersion)).Nodup
  references : ∀ appId ∈ r.owners, appId ∈ r.appIds

instance (r : Rows) : Decidable (Constraints r) :=
  decidable_of_iff (r.appIds.Nodup ∧ (r.apps.map AppRow.name).Nodup ∧ r.localPorts.Nodup ∧
      (r.portMappings.map fun m => (m.appId, m.label)).Nodup ∧ r.hostPorts.Nodup ∧
      (r.databases.map fun d => (d.appId, d.dbName)).Nodup ∧
      (r.tokens.map TokenRow.appId).Nodup ∧ (r.tokens.map TokenRow.tokenHash).Nodup ∧
      (r.providers.map fun p => (p.serviceUrl, p.appId, p.serviceVersion)).Nodup ∧
      ∀ appId ∈ r.owners, appId ∈ r.appIds)
    ⟨fun ⟨h1, h2, h3, h4, h5, h6, h7, h8, h9, h10⟩ => ⟨h1, h2, h3, h4, h5, h6, h7, h8, h9, h10⟩,
      fun h => ⟨h.appIds, h.names, h.localPorts, h.labels, h.hostPorts, h.dbNames, h.tokenOwners,
        h.tokenHashes, h.providers, h.references⟩⟩

/-- The tables, which meet the constraints. -/
structure Tables extends Rows where
  constraints : Constraints toRows

/-! ## Exceptions -/

/-- What can be raised, as far as some handler or caller tells it apart. -/
inductive PyError where
  | valueError (message : String)
  | runtimeError (message : String)
  | overflowError (message : String)
  /-- `sqlite3.IntegrityError` -/
  | integrityError
  /-- Any other `sqlite3.Error`. -/
  | databaseError (message : String)
  | other (message : String)
  deriving DecidableEq, Repr

namespace PyError

/-- `except ValueError` -/
def isValueError : PyError → Bool
  | valueError _ => true
  | _ => false

/-- `except sqlite3.Error` -/
def isSqliteError : PyError → Bool
  | integrityError | databaseError _ => true
  | _ => false

/-- `str(e)` -/
def text : PyError → String
  | valueError m | runtimeError m | overflowError m | databaseError m | other m => m
  | integrityError => "constraint failed"

end PyError

/-! ## Statements -/

namespace Tables

/-- The outcome of a statement that leaves these rows. -/
def write (r : Rows) : Except PyError Tables :=
  if h : Constraints r then .ok ⟨r, h⟩ else .error .integrityError

/-- No rows. -/
def empty : Tables := ⟨{}, by decide⟩

/-- `INSERT INTO apps` -/
def insertApp (row : AppRow) (t : Tables) : Except PyError Tables :=
  write { t.toRows with apps := t.apps ++ [row] }

/-- `UPDATE apps SET … WHERE app_id = ?` -/
def updateApp (appId : String) (f : AppRow → AppRow) (t : Tables) : Except PyError Tables :=
  write (t.toRows.setApp appId f)

/-- `DELETE FROM apps WHERE app_id = ?`, with foreign keys on: what belongs to the app goes too. -/
def deleteApp (appId : String) (t : Tables) : Except PyError Tables :=
  write { apps := t.apps.filter (·.appId ≠ appId)
          portMappings := t.portMappings.filter (·.appId ≠ appId)
          databases := t.databases.filter (·.appId ≠ appId)
          tokens := t.tokens.filter (·.appId ≠ appId)
          providers := t.providers.filter (·.appId ≠ appId) }

/-- `INSERT INTO app_port_mappings` -/
def insertPortMapping (row : PortMappingRow) (t : Tables) : Except PyError Tables :=
  write { t.toRows with portMappings := t.portMappings ++ [row] }

/-- `UPDATE app_port_mappings SET container_port = ?, host_port = ? WHERE app_id = ? AND label = ?` -/
def updatePortMapping (row : PortMappingRow) (t : Tables) : Except PyError Tables :=
  write { t.toRows with
    portMappings := t.portMappings.map fun m =>
      if m.appId = row.appId ∧ m.label = row.label then row else m }

/-- `DELETE FROM app_port_mappings WHERE app_id = ? AND label = ?` -/
def deletePortMapping (appId label : String) (t : Tables) : Except PyError Tables :=
  write { t.toRows with
    portMappings := t.portMappings.filter fun m => ¬ (m.appId = appId ∧ m.label = label) }

/-- `INSERT INTO app_databases` -/
def insertDatabase (row : DatabaseRow) (t : Tables) : Except PyError Tables :=
  write { t.toRows with databases := t.databases ++ [row] }

/-- `INSERT OR REPLACE INTO app_tokens`: both columns are unique. -/
def replaceToken (row : TokenRow) (t : Tables) : Except PyError Tables :=
  write { t.toRows with
    tokens := (t.tokens.filter fun k => ¬ (k.appId = row.appId ∨ k.tokenHash = row.tokenHash)) ++
      [row] }

end Tables

/-- `INSERT OR REPLACE INTO service_providers_v2` -/
def replaceProvider (rows : List ProviderRow) (row : ProviderRow) : List ProviderRow :=
  (rows.filter fun p => ¬ (p.serviceUrl = row.serviceUrl ∧ p.appId = row.appId ∧
    p.serviceVersion = row.serviceVersion)) ++ [row]

/-- The row of a declared service. -/
def providerRow (appId : String) (svc : ServiceProvides) : ProviderRow :=
  ⟨svc.service, appId, svc.version, svc.endpoint⟩

/-- What `register_services_provided_by_app` does inside its savepoint. -/
def Tables.registerServices (appId : String) (services : List ServiceProvides) (t : Tables) :
    Except PyError Tables :=
  write { t.toRows with
    providers := (services.map (providerRow appId)).foldl replaceProvider
      (t.providers.filter (·.appId ≠ appId)) }

/-! ## What the statements leave -/

namespace Tables

theorem write_ok {r : Rows} {t : Tables} (h : write r = .ok t) : t.toRows = r := by
  unfold write at h
  split at h
  · cases h
    rfl
  · cases h

theorem write_eq_ok {r : Rows} (h : Constraints r) : write r = .ok ⟨r, h⟩ := dif_pos h

theorem write_error {r : Rows} {e : PyError} (h : write r = .error e) : e = .integrityError := by
  unfold write at h
  split at h
  · cases h
  · exact (Except.error.inj h).symm

theorem eq_of_rows {t t' : Tables} (h : t.toRows = t'.toRows) : t = t' := by
  cases t
  cases t'
  cases h
  rfl

/-- The row of an app is the only one with its id. -/
theorem eq_of_findApp {t : Tables} {appId : String} {row a : AppRow}
    (h : t.findApp appId = some row) (ha : a ∈ t.apps) (hid : a.appId = appId) : a = row := by
  have hrow : row.appId = appId := by simpa using List.find?_some h
  exact List.inj_on_of_nodup_map t.constraints.appIds ha (List.mem_of_find?_eq_some h)
    (hid.trans hrow.symm)

/-- A mapping is the only one of its app with its label. -/
theorem eq_of_label {t : Tables} {m m' : PortMappingRow} (hm : m ∈ t.portMappings)
    (hm' : m' ∈ t.portMappings) (happ : m.appId = m'.appId) (hlabel : m.label = m'.label) :
    m = m' :=
  List.inj_on_of_nodup_map t.constraints.labels hm hm' (by rw [happ, hlabel])

end Tables

namespace Rows

variable {r : Rows} {appId : String} {f : AppRow → AppRow}

/-- A change that leaves the unique columns alone. -/
structure KeepsKeys (f : AppRow → AppRow) : Prop where
  appId : ∀ a, (f a).appId = a.appId
  name : ∀ a, (f a).name = a.name
  localPort : ∀ a, (f a).localPort = a.localPort

/-- A column that the change leaves alone. -/
theorem map_setApp {γ : Type} {g : AppRow → γ} (hg : ∀ a, g (f a) = g a) :
    (r.setApp appId f).apps.map g = r.apps.map g := by
  rw [setApp, List.map_map]
  apply List.map_congr_left
  intro a _
  simp only [Function.comp_apply]
  split
  · exact hg a
  · rfl

theorem findApp_setApp (hf : ∀ a, (f a).appId = a.appId) :
    (r.setApp appId f).findApp appId = (r.findApp appId).map f := by
  rw [findApp, findApp, setApp, List.find?_map]
  have hpred : ((fun a : AppRow => decide (a.appId = appId)) ∘
      fun a => if a.appId = appId then f a else a) = fun a => decide (a.appId = appId) := by
    funext a
    by_cases ha : a.appId = appId <;> simp [ha, hf]
  rw [hpred]
  cases hfind : r.apps.find? fun a => decide (a.appId = appId) with
  | none => rfl
  | some a =>
    have ha : a.appId = appId := by simpa using List.find?_some hfind
    simp [ha]

theorem findApp_isSome_iff : (r.findApp appId).isSome = true ↔ appId ∈ r.appIds := by
  simp [findApp, appIds]

theorem constraints_setApp (h : Constraints r) (hf : KeepsKeys f) :
    Constraints (r.setApp appId f) where
  appIds := by
    rw [Rows.appIds, map_setApp hf.appId]
    exact h.appIds
  names := by
    rw [map_setApp hf.name]
    exact h.names
  localPorts := by
    rw [Rows.localPorts, map_setApp hf.localPort]
    exact h.localPorts
  labels := h.labels
  hostPorts := h.hostPorts
  dbNames := h.dbNames
  tokenOwners := h.tokenOwners
  tokenHashes := h.tokenHashes
  providers := h.providers
  references := by
    rw [Rows.appIds, map_setApp hf.appId]
    exact h.references

end Rows

namespace Tables

/-- A change of columns that are not unique is never refused. -/
theorem updateApp_eq_ok {f : AppRow → AppRow} (hf : Rows.KeepsKeys f) (appId : String)
    (t : Tables) : ∃ t', t.updateApp appId f = .ok t' :=
  ⟨_, write_eq_ok (Rows.constraints_setApp t.constraints hf)⟩

/-- A new token takes the place of whatever it would clash with. -/
theorem replaceToken_eq_ok (row : TokenRow) {t : Tables} (h : row.appId ∈ t.appIds) :
    ∃ t', t.replaceToken row = .ok t' := by
  have hc := t.constraints
  have hsub := List.filter_sublist (p := fun k : TokenRow =>
    decide (¬ (k.appId = row.appId ∨ k.tokenHash = row.tokenHash))) (l := t.tokens)
  have hfresh : ∀ k ∈ t.tokens.filter fun k =>
      decide (¬ (k.appId = row.appId ∨ k.tokenHash = row.tokenHash)),
      k.appId ≠ row.appId ∧ k.tokenHash ≠ row.tokenHash := by
    intro k hk
    simpa using (List.mem_filter.mp hk).2
  unfold replaceToken
  refine ⟨_, write_eq_ok ?_⟩
  refine ⟨hc.appIds, hc.names, hc.localPorts, hc.labels, hc.hostPorts, hc.dbNames, ?_, ?_,
    hc.providers, ?_⟩
  · rw [List.map_append, List.nodup_append]
    refine ⟨hc.tokenOwners.sublist (hsub.map _), by simp, ?_⟩
    intro a ha b hb heq
    obtain ⟨k, hk, rfl⟩ := List.mem_map.mp ha
    exact (hfresh k hk).1 (heq.trans (by simpa using hb))
  · rw [List.map_append, List.nodup_append]
    refine ⟨hc.tokenHashes.sublist (hsub.map _), by simp, ?_⟩
    intro a ha b hb heq
    obtain ⟨k, hk, rfl⟩ := List.mem_map.mp ha
    exact (hfresh k hk).2 (heq.trans (by simpa using hb))
  · intro appId howner
    have hold := hc.references appId
    simp only [Rows.owners, List.mem_append, List.map_append, List.map_cons, List.map_nil,
      List.mem_singleton] at howner hold
    rcases howner with ((hm | hd) | (hk | rfl)) | hp
    · exact hold (Or.inl (Or.inl (Or.inl hm)))
    · exact hold (Or.inl (Or.inl (Or.inr hd)))
    · exact hold (Or.inl (Or.inr ((hsub.map _).subset hk)))
    · exact h
    · exact hold (Or.inr hp)

end Tables

/-! ### Providers -/

/-- What identifies a row of `service_providers_v2`. -/
def ProviderRow.key (p : ProviderRow) : String × String × String :=
  (p.serviceUrl, p.appId, p.serviceVersion)

theorem mem_replaceProvider {rows : List ProviderRow} {row p : ProviderRow} :
    p ∈ replaceProvider rows row ↔ (p ∈ rows ∧ p.key ≠ row.key) ∨ p = row := by
  simp only [replaceProvider, ProviderRow.key, List.mem_append, List.mem_filter,
    List.mem_singleton, decide_eq_true_eq, ne_eq, Prod.mk.injEq]

theorem nodup_replaceProvider {rows : List ProviderRow} {row : ProviderRow}
    (h : (rows.map ProviderRow.key).Nodup) : ((replaceProvider rows row).map ProviderRow.key).Nodup := by
  rw [replaceProvider, List.map_append, List.nodup_append]
  refine ⟨h.sublist (List.filter_sublist.map _), by simp, ?_⟩
  intro a ha b hb heq
  obtain ⟨p, hp, rfl⟩ := List.mem_map.mp ha
  have hne := (List.mem_filter.mp hp).2
  have hkey : p.key = row.key := heq.trans (by simpa using hb)
  simp only [ProviderRow.key, Prod.mk.injEq] at hkey
  simp [hkey] at hne

theorem nodup_foldl_replaceProvider {new rows : List ProviderRow}
    (h : (rows.map ProviderRow.key).Nodup) :
    ((new.foldl replaceProvider rows).map ProviderRow.key).Nodup := by
  induction new generalizing rows with
  | nil => exact h
  | cons row new ih => exact ih (nodup_replaceProvider h)

/-- Every row comes from one of the two lists. -/
theorem mem_of_mem_foldl_replaceProvider {new rows : List ProviderRow} {p : ProviderRow}
    (h : p ∈ new.foldl replaceProvider rows) : p ∈ rows ∨ p ∈ new := by
  induction new generalizing rows with
  | nil => exact Or.inl h
  | cons row new ih =>
    rcases ih h with hp | hp
    · rcases mem_replaceProvider.mp hp with ⟨hp, -⟩ | rfl
      · exact Or.inl hp
      · exact Or.inr List.mem_cons_self
    · exact Or.inr (List.mem_cons_of_mem row hp)

/-- Whether a row of an app is among the providers depends on the rows of that app alone. -/
theorem mem_foldl_replaceProvider_congr {new rows rows' : List ProviderRow} {appId : String}
    (h : ∀ p : ProviderRow, p.appId = appId → (p ∈ rows ↔ p ∈ rows')) :
    ∀ p : ProviderRow, p.appId = appId →
      (p ∈ new.foldl replaceProvider rows ↔ p ∈ new.foldl replaceProvider rows') := by
  induction new generalizing rows rows' with
  | nil => exact h
  | cons row new ih =>
    apply ih
    intro p hp
    rw [mem_replaceProvider, mem_replaceProvider, h p hp]

/-- The rows that the declared services give the app: of two with the same key the later one. -/
def declaredProviders (appId : String) (services : List ServiceProvides) : List ProviderRow :=
  (services.map (providerRow appId)).foldl replaceProvider []

namespace Tables

theorem registerServices_eq_ok {appId : String} (services : List ServiceProvides) {t : Tables}
    (h : appId ∈ t.appIds) : ∃ t', t.registerServices appId services = .ok t' := by
  have hc := t.constraints
  unfold registerServices
  refine ⟨_, write_eq_ok ?_⟩
  refine ⟨hc.appIds, hc.names, hc.localPorts, hc.labels, hc.hostPorts, hc.dbNames, hc.tokenOwners,
    hc.tokenHashes, ?_, ?_⟩
  · exact nodup_foldl_replaceProvider (hc.providers.sublist (List.filter_sublist.map _))
  · intro owner howner
    have hold := hc.references owner
    simp only [Rows.owners, List.mem_append] at howner hold
    rcases howner with hother | hmem
    · exact hold (Or.inl hother)
    · obtain ⟨p, hnew, rfl⟩ := List.mem_map.mp hmem
      rcases mem_of_mem_foldl_replaceProvider hnew with hp | hp
      · exact hold (Or.inr (List.mem_map_of_mem (List.mem_of_mem_filter hp)))
      · obtain ⟨svc, -, rfl⟩ := List.mem_map.mp hp
        exact h

/-- Registering leaves the app with the rows of its declared services. -/
theorem providers_of_registerServices {appId : String} {services : List ServiceProvides}
    {t t' : Tables} (h : t.registerServices appId services = .ok t') (p : ProviderRow)
    (hp : p.appId = appId) : p ∈ t'.providers ↔ p ∈ declaredProviders appId services := by
  rw [write_ok h]
  apply mem_foldl_replaceProvider_congr _ p hp
  intro q hq
  simp [hq]

end Tables

end OpenHost.Install

import Mathlib.Data.List.Pairwise
import OpenHost.Library.Relational
import OpenHost.Versioned.Runner

/-!
# The migration to app ids

`v0007_app_ids.py`.  Every app gets an id, and each of the eight tables that named apps is copied row
by row into one that refers to them by id.  A row with an app that is not there is dropped.
-/

namespace OpenHost.Versioned

open Relational

/-! ## Tables -/

/-- The tables that the migration rewrites. -/
inductive Table where
  | apps
  | appDatabases
  | appPortMappings
  | appTokens
  | serviceProviders
  | serviceProvidersV2
  | serviceDefaults
  | permissions
  | permissionsV2
  deriving DecidableEq

/-- The rows of these tables. -/
abbrev Tables : Type := Table → List Row

/-- Put the table with this schema in place of the old one; a row that it does not allow is refused. -/
def Tables.replace (db : Tables) (t : Table) (schema : Schema) (rows : List Row) : Option Tables :=
  if schema.Holds rows then some fun t' => if t' = t then rows else db t' else none

def appStatuses : List String := ["building", "starting", "running", "stopped", "error", "removing"]

/-- The tables before the migration. -/
def schemaV6 : Table → Schema
  | .apps =>
      { notNull := ["id", "name", "manifest_name", "version", "runtime_type", "repo_path", "local_port",
          "status", "memory_mb", "cpu_millicores", "gpu", "public_paths", "created_at", "updated_at"]
        checks := [.integer "id", .oneOf "status" appStatuses]
        unique := [["id"], ["name"], ["local_port"]] }
  | .appDatabases =>
      { notNull := ["id", "app_name", "db_name", "db_path"]
        checks := [.integer "id"]
        unique := [["id"], ["app_name", "db_name"]] }
  | .appPortMappings =>
      { notNull := ["id", "app_name", "label", "container_port", "host_port"]
        checks := [.integer "id"]
        unique := [["id"], ["app_name", "label"], ["host_port"]] }
  | .appTokens => { notNull := ["token_hash"], checks := [], unique := [["app_name"], ["token_hash"]] }
  | .serviceProviders =>
      { notNull := ["service_name", "app_name"], checks := [], unique := [["service_name", "app_name"]] }
  | .serviceProvidersV2 =>
      { notNull := ["service_url", "app_name", "service_version", "endpoint"]
        checks := []
        unique := [["service_url", "app_name", "service_version"]] }
  | .serviceDefaults => { notNull := ["app_name"], checks := [], unique := [["service_url"]] }
  | .permissions =>
      { notNull := ["consumer_app", "permission_key"]
        checks := []
        unique := [["consumer_app", "permission_key"]] }
  | .permissionsV2 =>
      { notNull := ["consumer_app", "service_url", "grant_payload", "scope", "provider_app"]
        checks := [.oneOf "scope" ["global", "app"]]
        unique := [["consumer_app", "service_url", "grant_payload", "scope", "provider_app"]] }

/-- The tables that the migration creates. -/
def schemaV7 : Table → Schema
  | .apps =>
      { notNull := ["id", "app_id", "name", "manifest_name", "version", "runtime_type", "repo_path",
          "local_port", "status", "memory_mb", "cpu_millicores", "gpu", "public_paths", "created_at",
          "updated_at"]
        checks := [.integer "id", .oneOf "status" appStatuses]
        unique := [["id"], ["app_id"], ["name"], ["local_port"]] }
  | .appDatabases =>
      { notNull := ["id", "app_id", "db_name", "db_path"]
        checks := [.integer "id"]
        unique := [["id"], ["app_id", "db_name"]] }
  | .appPortMappings =>
      { notNull := ["id", "app_id", "label", "container_port", "host_port"]
        checks := [.integer "id"]
        unique := [["id"], ["app_id", "label"], ["host_port"]] }
  | .appTokens => { notNull := ["token_hash"], checks := [], unique := [["app_id"], ["token_hash"]] }
  | .serviceProviders =>
      { notNull := ["service_name", "app_id"], checks := [], unique := [["service_name", "app_id"]] }
  | .serviceProvidersV2 =>
      { notNull := ["service_url", "app_id", "service_version", "endpoint"]
        checks := []
        unique := [["service_url", "app_id", "service_version"]] }
  | .serviceDefaults => { notNull := ["app_id"], checks := [], unique := [["service_url"]] }
  | .permissions =>
      { notNull := ["consumer_app_id", "permission_key"]
        checks := []
        unique := [["consumer_app_id", "permission_key"]] }
  | .permissionsV2 =>
      { notNull := ["consumer_app_id", "service_url", "grant_payload", "scope", "provider_app_id"]
        checks := [.oneOf "scope" ["global", "app"]]
        unique := [["consumer_app_id", "service_url", "grant_payload", "scope", "provider_app_id"]] }

/-! ## Ids -/

/-- `_BASE58_ALPHABET` -/
def base58Alphabet : List Char :=
  "123456789ABCDEFGHJKLMNPQRSTUVWXYZabcdefghijkmnopqrstuvwxyz".toList

/-- The characters of `_encode_base58_padded`, the last one first. -/
def encodeBase58 : Nat → Nat → List Char
  | 0, _ => []
  | length + 1, n => base58Alphabet.getD (n % 58) '1' :: encodeBase58 length (n / 58)

/-- `new_app_id`, which draws 9 bytes. -/
def newAppId (n : Nat) : String := String.ofList (encodeBase58 12 n).reverse

/-! ## The copies -/

/-- `_add_app_id_to_apps`: the columns that are selected. -/
def appColumns : List String :=
  ["id", "name", "manifest_name", "version", "description", "runtime_type", "repo_path", "repo_url",
    "health_check", "local_port", "container_port", "container_id", "status", "error_message",
    "memory_mb", "cpu_millicores", "gpu", "public_paths", "manifest_raw", "installed_by", "created_at",
    "updated_at"]

/-- The columns that are inserted. -/
def appsNewColumns : List String :=
  ["id", "app_id", "name", "manifest_name", "version", "description", "runtime_type", "repo_path",
    "repo_url", "health_check", "local_port", "container_port", "container_id", "status",
    "error_message", "memory_mb", "cpu_millicores", "gpu", "public_paths", "manifest_raw",
    "installed_by", "created_at", "updated_at"]

/-- `(r[0], new_app_id(), *r[1:])` -/
def withAppId (draw : Nat) (r : List Value) : List Value :=
  r.take 1 ++ .text (newAppId draw) :: r.drop 1

/-- `_add_app_id_to_apps`, where the rows draw in turn. -/
def addAppIdToApps (draws : Nat → Nat) (apps : List Row) : List Row :=
  apps.zipIdx.map fun p =>
    insertRow appsNewColumns (withAppId (draws p.2) (appColumns.map p.1))

/-- What a copy selects: a column of the old row, or the id of the app that it joins. -/
inductive Source where
  | column (c : String)
  | appId
  deriving DecidableEq

def Source.eval (d a : Row) : Source → Value
  | .column c => d c
  | .appId => a "app_id"

/-- `INSERT INTO t_new (columns) SELECT sources FROM t d JOIN apps a ON a.name = d.key` -/
structure Copy where
  columns : List String
  sources : List Source
  key : String

/-- The rows that a copy inserts. -/
def Copy.rows (copy : Copy) (apps rows : List Row) : List Row :=
  rows.flatMap fun d => (apps.filter fun a => (a "name").eq (d copy.key)).map fun a =>
    insertRow copy.columns (copy.sources.map (Source.eval d a))

/-- `_recreate_app_databases` -/
def recreateAppDatabases : Copy where
  columns := ["id", "app_id", "db_name", "db_path"]
  sources := [.column "id", .appId, .column "db_name", .column "db_path"]
  key := "app_name"

/-- `_recreate_app_port_mappings` -/
def recreateAppPortMappings : Copy where
  columns := ["id", "app_id", "label", "container_port", "host_port"]
  sources := [.column "id", .appId, .column "label", .column "container_port", .column "host_port"]
  key := "app_name"

/-- `_recreate_app_tokens` -/
def recreateAppTokens : Copy where
  columns := ["app_id", "token_hash"]
  sources := [.appId, .column "token_hash"]
  key := "app_name"

/-- `_recreate_service_providers` -/
def recreateServiceProviders : Copy where
  columns := ["service_name", "app_id"]
  sources := [.column "service_name", .appId]
  key := "app_name"

/-- `_recreate_service_providers_v2` -/
def recreateServiceProvidersV2 : Copy where
  columns := ["service_url", "app_id", "service_version", "endpoint"]
  sources := [.column "service_url", .appId, .column "service_version", .column "endpoint"]
  key := "app_name"

/-- `_recreate_service_defaults` -/
def recreateServiceDefaults : Copy where
  columns := ["service_url", "app_id"]
  sources := [.column "service_url", .appId]
  key := "app_name"

/-- `_recreate_permissions` -/
def recreatePermissions : Copy where
  columns := ["consumer_app_id", "permission_key"]
  sources := [.appId, .column "permission_key"]
  key := "consumer_app"

/-- `LEFT JOIN apps provider ON provider.name = p.provider_app AND p.provider_app != ''` -/
def joinProvider (apps : List Row) (p : Row) : List (Option Row) :=
  let providers := apps.filter fun a =>
    (a "name").eq (p "provider_app") && (p "provider_app").ne (.text "")
  if providers.isEmpty then [none] else providers.map some

/-- `provider.app_id` -/
def providerId (provider : Option Row) : Value := (provider.map fun a => a "app_id").getD .null

/-- The rows of `_recreate_permissions_v2`. -/
def recreatePermissionsV2 (apps rows : List Row) : List Row :=
  rows.flatMap fun p =>
    (apps.filter fun consumer => (consumer "name").eq (p "consumer_app")).flatMap fun consumer =>
      ((joinProvider apps p).filter fun provider =>
        (p "provider_app").eq (.text "") || providerId provider ≠ .null).map fun provider =>
          insertRow ["consumer_app_id", "service_url", "grant_payload", "scope", "provider_app_id"]
            [consumer "app_id", p "service_url", p "grant_payload", p "scope",
              if (p "provider_app").eq (.text "") then .text "" else providerId provider]

/-- A statement that copies a table. -/
def recreate (t : Table) (rows : List Row → List Row → List Row) : Sql.Statement Tables := fun _ db =>
  db.replace t (schemaV7 t) (rows (db .apps) (db t))

/-- `Migration0007AppIds` -/
def migration0007AppIds : Migration (Nat → Nat) Tables where
  version := 7
  kind := .togglesForeignKeys
  up draws _ :=
    [fun _ db => db.replace .apps (schemaV7 .apps) (addAppIdToApps draws (db .apps)),
      recreate .appDatabases recreateAppDatabases.rows,
      recreate .appPortMappings recreateAppPortMappings.rows,
      recreate .appTokens recreateAppTokens.rows,
      recreate .serviceProviders recreateServiceProviders.rows,
      recreate .serviceProvidersV2 recreateServiceProvidersV2.rows,
      recreate .serviceDefaults recreateServiceDefaults.rows,
      recreate .permissions recreatePermissions.rows,
      recreate .permissionsV2 recreatePermissionsV2]

/-! ## What it is to keep the references -/

/-- A column that named an app, and the one that holds its id instead. -/
structure Reference where
  old : String
  new : String
  /-- The empty text stands for no app. -/
  blank : Bool
  deriving DecidableEq

/-- A table with references to apps, and its other columns. -/
structure Child where
  table : Table
  references : List Reference
  columns : List String

/-- The tables that named apps. -/
def children : List Child :=
  [⟨.appDatabases, [⟨"app_name", "app_id", false⟩], ["id", "db_name", "db_path"]⟩,
    ⟨.appPortMappings, [⟨"app_name", "app_id", false⟩],
      ["id", "label", "container_port", "host_port"]⟩,
    ⟨.appTokens, [⟨"app_name", "app_id", false⟩], ["token_hash"]⟩,
    ⟨.serviceProviders, [⟨"app_name", "app_id", false⟩], ["service_name"]⟩,
    ⟨.serviceProvidersV2, [⟨"app_name", "app_id", false⟩],
      ["service_url", "service_version", "endpoint"]⟩,
    ⟨.serviceDefaults, [⟨"app_name", "app_id", false⟩], ["service_url"]⟩,
    ⟨.permissions, [⟨"consumer_app", "consumer_app_id", false⟩], ["permission_key"]⟩,
    ⟨.permissionsV2, [⟨"consumer_app", "consumer_app_id", false⟩,
      ⟨"provider_app", "provider_app_id", true⟩], ["service_url", "grant_payload", "scope"]⟩]

/-- The value stands for no app. -/
def Reference.isBlank (ref : Reference) (v : Value) : Bool := ref.blank && v = .text ""

/-- The app that is named is there, where one is. -/
def Reference.resolves (ref : Reference) (apps : List Row) (v : Value) : Bool :=
  ref.isBlank v || apps.any fun a => (a "name").eq v

/-- All apps that a row names are there. -/
def Child.hasParents (child : Child) (apps : List Row) (d : Row) : Bool :=
  child.references.all fun ref => ref.resolves apps (d ref.old)

/-- The new value is the id of the app that was named, and empty where none was. -/
def Reference.Moved (ref : Reference) (apps : List Row) (v v' : Value) : Prop :=
  if ref.isBlank v = true then v' = .text ""
  else ∃ a ∈ apps, a "name" = v ∧ v' = a "app_id"

/-- A row refers to the same apps as before, and its other columns are the same. -/
def Child.Moved (child : Child) (apps : List Row) (d d' : Row) : Prop :=
  (∀ ref ∈ child.references, ref.Moved apps (d ref.old) (d' ref.new)) ∧
    ∀ c ∈ child.columns, d' c = d c

/-- The apps are the same, with ids, and the rows whose apps were there are the rows of each table
now, one for one. -/
structure KeepsReferences (db db' : Tables) : Prop where
  apps : List.Forall₂ (fun a a' => ∀ c ∈ appColumns, a' c = a c) (db .apps) (db' .apps)
  ids : (db' .apps).Pairwise fun a b => a "app_id" ≠ b "app_id"
  rows : ∀ child ∈ children, List.Forall₂ (child.Moved (db' .apps))
    ((db child.table).filter (child.hasParents (db .apps))) (db' child.table)

/-! ## The new table of apps -/

/-- Names of apps are unique, their ids too, and no id is empty. -/
structure Identified (apps : List Row) : Prop where
  nameNotNull : ∀ a ∈ apps, a "name" ≠ .null
  names : apps.Pairwise fun a b => a "name" ≠ b "name"
  idText : ∀ a ∈ apps, ∃ s : String, s ≠ "" ∧ a "app_id" = .text s
  ids : apps.Pairwise fun a b => a "app_id" ≠ b "app_id"

theorem newAppId_ne_empty (n : Nat) : newAppId n ≠ "" := by
  intro h
  have hlist : (encodeBase58 12 n).reverse = [] := by
    have := congrArg String.toList h
    rwa [newAppId, String.toList_ofList] at this
  rw [List.reverse_eq_nil_iff, encodeBase58] at hlist
  cases hlist

/-- The sources of a row of the new table of apps. -/
def appSources : List Source :=
  [.column "id", .appId, .column "name", .column "manifest_name", .column "version",
    .column "description", .column "runtime_type", .column "repo_path", .column "repo_url",
    .column "health_check", .column "local_port", .column "container_port", .column "container_id",
    .column "status", .column "error_message", .column "memory_mb", .column "cpu_millicores",
    .column "gpu", .column "public_paths", .column "manifest_raw", .column "installed_by",
    .column "created_at", .column "updated_at"]

/-- The row that an app has afterwards. -/
def appRow (draw : Nat) (r : Row) : Row :=
  insertRow appsNewColumns (withAppId draw (appColumns.map r))

theorem appRow_eq (draw : Nat) (r : Row) (c : String) :
    appRow draw r c = ((sourceOf appsNewColumns appSources c).map
      (Source.eval r fun _ => .text (newAppId draw))).getD .null := by
  rw [← insertRow_map]
  rfl

theorem appRow_column (draw : Nat) (r : Row) {c : String} (hc : c ∈ appColumns) :
    appRow draw r c = r c := by
  have hsource : ∀ c ∈ appColumns, sourceOf appsNewColumns appSources c = some (.column c) := by
    decide
  rw [appRow_eq, hsource c hc]
  rfl

theorem appRow_appId (draw : Nat) (r : Row) :
    appRow draw r "app_id" = .text (newAppId draw) := by
  have hsource : sourceOf appsNewColumns appSources "app_id" = some .appId := by decide
  rw [appRow_eq, hsource]
  rfl

/-- The draws for the apps give different ids. -/
def Distinct (draws : Nat → Nat) (n : Nat) : Prop :=
  ∀ i < n, ∀ j < n, newAppId (draws i) = newAppId (draws j) → i = j

instance (draws : Nat → Nat) (n : Nat) : Decidable (Distinct draws n) :=
  inferInstanceAs (Decidable (∀ i < n, ∀ j < n, newAppId (draws i) = newAppId (draws j) → i = j))

section Apps

variable {draws : Nat → Nat} {apps : List Row}

theorem getElem_addAppIdToApps {i : Nat} (hi : i < (addAppIdToApps draws apps).length) :
    (addAppIdToApps draws apps)[i] =
      appRow (draws i) (apps.get ⟨i, by simpa [addAppIdToApps] using hi⟩) := by
  simp [addAppIdToApps, appRow]

theorem forall₂_addAppIdToApps (draws : Nat → Nat) (apps : List Row) :
    List.Forall₂ (fun a a' => (∀ c ∈ appColumns, a' c = a c) ∧
      ∃ draw, a' "app_id" = .text (newAppId draw)) apps (addAppIdToApps draws apps) := by
  refine List.forall₂_iff_get.mpr ⟨by simp [addAppIdToApps], fun i hi hi' => ?_⟩
  rw [List.get_eq_getElem, List.get_eq_getElem, getElem_addAppIdToApps]
  exact ⟨fun c hc => appRow_column _ _ hc, draws i, appRow_appId _ _⟩

theorem ids_addAppIdToApps (h : Distinct draws apps.length) :
    (addAppIdToApps draws apps).Pairwise fun a b => a "app_id" ≠ b "app_id" := by
  refine List.pairwise_iff_getElem.mpr fun i j hi hj hlt heq => ?_
  rw [getElem_addAppIdToApps, getElem_addAppIdToApps, appRow_appId, appRow_appId] at heq
  have hlength : (addAppIdToApps draws apps).length = apps.length := by simp [addAppIdToApps]
  have := h i (hlength ▸ hi) j (hlength ▸ hj) (Value.text.inj heq)
  omega

theorem holds_addAppIdToApps (hschema : (schemaV6 .apps).Holds apps)
    (hdistinct : Distinct draws apps.length) :
    (schemaV7 .apps).Holds (addAppIdToApps draws apps) := by
  obtain ⟨hallows, hunique⟩ := hschema
  have hforall₂ := forall₂_addAppIdToApps draws apps
  refine ⟨fun a' ha' => ?_, fun u hu => ?_⟩
  · obtain ⟨a, ha, hsame, draw, hid⟩ := exists_of_forall₂ hforall₂ ha'
    obtain ⟨hnotNull, hchecks⟩ := hallows a ha
    refine ⟨fun c hc => ?_, fun check hcheck => ?_⟩
    · have hold : ∀ c ∈ (schemaV7 .apps).notNull, c = "app_id" ∨
          c ∈ (schemaV6 .apps).notNull ∧ c ∈ appColumns := by decide
      rcases hold c hc with rfl | ⟨hc, hcolumn⟩
      · rw [hid]
        exact nofun
      · rw [hsame c hcolumn]
        exact hnotNull c hc
    · have hold : ∀ check ∈ (schemaV7 .apps).checks, check ∈ (schemaV6 .apps).checks ∧
          check.column ∈ appColumns := by decide
      rw [hsame _ (hold check hcheck).2]
      exact hchecks check (hold check hcheck).1
  · have hold : ∀ u ∈ (schemaV7 .apps).unique, u = ["app_id"] ∨
        u ∈ (schemaV6 .apps).unique ∧ ∀ c ∈ u, c ∈ appColumns := by decide
    rcases hold u hu with rfl | ⟨hu, hcolumns⟩
    · exact (ids_addAppIdToApps hdistinct).imp fun hne =>
        ⟨"app_id", List.mem_singleton.mpr rfl, Or.inr (Or.inr hne)⟩
    · exact pairwise_of_forall₂ hforall₂ (hunique u hu) fun a b a' b' ha hb hapart =>
        hapart.mono fun c hc => ⟨hc, ha.1 c (hcolumns c hc), hb.1 c (hcolumns c hc)⟩

theorem identified_addAppIdToApps (hschema : (schemaV6 .apps).Holds apps)
    (hdistinct : Distinct draws apps.length) : Identified (addAppIdToApps draws apps) := by
  have hforall₂ := forall₂_addAppIdToApps draws apps
  have hnew := holds_addAppIdToApps hschema hdistinct
  have hnotNull : ∀ a ∈ addAppIdToApps draws apps, a "name" ≠ .null :=
    fun a ha => (hnew.1 a ha).1 "name" (by decide)
  refine ⟨hnotNull, ?_, fun a ha => ?_, ids_addAppIdToApps hdistinct⟩
  · refine (hnew.2 ["name"] (by decide)).imp_of_mem fun {a b} ha hb hapart => ?_
    obtain ⟨c, hc, hcases⟩ := hapart
    obtain rfl := List.mem_singleton.mp hc
    rcases hcases with hnull | hnull | hne
    · exact absurd hnull (hnotNull a ha)
    · exact absurd hnull (hnotNull b hb)
    · exact hne
  · obtain ⟨_, _, _, draw, hid⟩ := exists_of_forall₂ hforall₂ ha
    exact ⟨_, newAppId_ne_empty draw, hid⟩

end Apps

/-! ## The other tables -/

section Children

variable {apps apps' : List Row} {child : Child}

theorem Reference.Moved.not_null {ref : Reference} {v v' : Value} (h : ref.Moved apps' v v')
    (happs : Identified apps') : v ≠ .null ∧ v' ≠ .null := by
  unfold Reference.Moved at h
  split at h
  · rename_i hblank
    have hv : v = .text "" := by
      simp only [Reference.isBlank, Bool.and_eq_true, decide_eq_true_eq] at hblank
      exact hblank.2
    rw [hv, h]
    exact ⟨nofun, nofun⟩
  · obtain ⟨a, ha, rfl, rfl⟩ := h
    obtain ⟨s, -, hid⟩ := happs.idText a ha
    exact ⟨happs.nameNotNull a ha, by rw [hid]; exact nofun⟩

/-- Different names become different ids. -/
theorem Reference.Moved.ne {ref : Reference} {v v' w w' : Value} (h : ref.Moved apps' v v')
    (h' : ref.Moved apps' w w') (happs : Identified apps') (hne : v ≠ w) : v' ≠ w' := by
  have hblank : ∀ {v : Value}, ref.isBlank v = true → v = .text "" := by
    intro v hv
    simp only [Reference.isBlank, Bool.and_eq_true, decide_eq_true_eq] at hv
    exact hv.2
  have hempty : ∀ a ∈ apps', a "app_id" ≠ .text "" := by
    intro a ha heq
    obtain ⟨s, hs, hid⟩ := happs.idText a ha
    exact hs (Value.text.inj (hid.symm.trans heq))
  unfold Reference.Moved at h h'
  split at h <;> split at h'
  · rename_i hv hw
    exact absurd ((hblank hv).trans (hblank hw).symm) hne
  · obtain ⟨a, ha, -, rfl⟩ := h'
    rw [h]
    exact fun heq => hempty a ha heq.symm
  · obtain ⟨a, ha, -, rfl⟩ := h
    rw [h']
    exact hempty a ha
  · obtain ⟨a, ha, rfl, rfl⟩ := h
    obtain ⟨b, hb, rfl, rfl⟩ := h'
    intro heq
    have hsymm : Std.Symm fun a b : Row => a "app_id" ≠ b "app_id" := ⟨fun _ _ hne => hne.symm⟩
    have hsame : a = b := by
      by_contra hab
      exact happs.ids.forall ha hb hab heq
    exact hne (by rw [hsame])

/-- The schema of the new table asks nothing of the rows that the old one did not. -/
structure Child.Fits (child : Child) (old new : Schema) : Prop where
  notNull : ∀ c ∈ new.notNull, c ∈ old.notNull ∧ c ∈ child.columns ∨
    ∃ ref ∈ child.references, ref.new = c
  checks : ∀ check ∈ new.checks, check ∈ old.checks ∧ check.column ∈ child.columns
  unique : ∀ u' ∈ new.unique, ∃ u ∈ old.unique, ∀ c ∈ u, c ∈ child.columns ∧ c ∈ u' ∨
    ∃ ref ∈ child.references, ref.old = c ∧ ref.new ∈ u'

theorem fits_of_mem (h : child ∈ children) :
    child.Fits (schemaV6 child.table) (schemaV7 child.table) := by
  have hnotNull : ∀ child ∈ children, ∀ c ∈ (schemaV7 child.table).notNull,
      c ∈ (schemaV6 child.table).notNull ∧ c ∈ child.columns ∨
        ∃ ref ∈ child.references, ref.new = c := by decide
  have hchecks : ∀ child ∈ children, ∀ check ∈ (schemaV7 child.table).checks,
      check ∈ (schemaV6 child.table).checks ∧ check.column ∈ child.columns := by decide
  have hunique : ∀ child ∈ children, ∀ u' ∈ (schemaV7 child.table).unique,
      ∃ u ∈ (schemaV6 child.table).unique, ∀ c ∈ u, c ∈ child.columns ∧ c ∈ u' ∨
        ∃ ref ∈ child.references, ref.old = c ∧ ref.new ∈ u' := by decide
  exact ⟨hnotNull child h, hchecks child h, hunique child h⟩

/-- The rows that refer to the same apps as allowed ones are allowed. -/
theorem holds_of_moved {old new : Schema} {rows rows' : List Row} (hfits : child.Fits old new)
    (happs : Identified apps') (hold : old.Holds rows)
    (h : List.Forall₂ (child.Moved apps') (rows.filter (child.hasParents apps)) rows') :
    new.Holds rows' := by
  obtain ⟨hallows, hunique⟩ := hold
  refine ⟨fun d' hd' => ?_, fun u' hu' => ?_⟩
  · obtain ⟨d, hd, hrefs, hcolumns⟩ := exists_of_forall₂ h hd'
    obtain ⟨hnotNull, hchecks⟩ := hallows d (List.mem_filter.mp hd).1
    refine ⟨fun c hc => ?_, fun check hcheck => ?_⟩
    · rcases hfits.notNull c hc with ⟨hc, hcolumn⟩ | ⟨ref, href, rfl⟩
      · rw [hcolumns c hcolumn]
        exact hnotNull c hc
      · exact ((hrefs ref href).not_null happs).2
    · obtain ⟨hcheck, hcolumn⟩ := hfits.checks check hcheck
      rw [hcolumns _ hcolumn]
      exact hchecks check hcheck
  · obtain ⟨u, hu, hkey⟩ := hfits.unique u' hu'
    refine pairwise_of_forall₂ h ((hunique u hu).sublist List.filter_sublist) ?_
    rintro d e d' e' ⟨hdrefs, hdcolumns⟩ ⟨herefs, hecolumns⟩ ⟨c, hc, hapart⟩
    rcases hkey c hc with ⟨hcolumn, hc'⟩ | ⟨ref, href, rfl, hc'⟩
    · exact ⟨c, hc', by rwa [hdcolumns c hcolumn, hecolumns c hcolumn]⟩
    · rcases hapart with hnull | hnull | hne
      · exact absurd hnull ((hdrefs ref href).not_null happs).1
      · exact absurd hnull ((herefs ref href).not_null happs).1
      · exact ⟨ref.new, hc', Or.inr (Or.inr ((hdrefs ref href).ne (herefs ref href) happs hne))⟩

/-- The apps that are there have the same names. -/
def SameNames (apps apps' : List Row) : Prop :=
  ∀ v, (apps.any fun a => (a "name").eq v) = apps'.any fun a => (a "name").eq v

/-- An app with this name is the only one, and there is one where the name resolves. -/
theorem filter_name (happs : Identified apps') {v : Value}
    (h : (apps'.any fun a => (a "name").eq v) = true) :
    ∃ a ∈ apps', a "name" = v ∧ (apps'.filter fun a => (a "name").eq v) = [a] := by
  obtain ⟨a, ha, heq⟩ := List.any_eq_true.mp h
  obtain ⟨hnull, rfl⟩ := Value.eq_iff.mp heq
  exact ⟨a, ha, rfl, filter_eq_of_unique happs.names ha hnull⟩

theorem filter_name_of_not {v : Value} (h : (apps'.any fun a => (a "name").eq v) = false) :
    (apps'.filter fun a => (a "name").eq v) = [] :=
  List.filter_eq_nil_iff.mpr (List.any_eq_false.mp h)

/-- A copy that joins the apps by name. -/
theorem forall₂_copy (copy : Copy) {t : Table} {key : String} {columns : List String}
    (happs : Identified apps') (hnames : SameNames apps apps')
    (hcolumns : ∀ c ∈ columns, sourceOf copy.columns copy.sources c = some (.column c))
    (hkey : sourceOf copy.columns copy.sources key = some .appId) (rows : List Row) :
    List.Forall₂ (Child.Moved ⟨t, [⟨copy.key, key, false⟩], columns⟩ apps')
      (rows.filter (Child.hasParents ⟨t, [⟨copy.key, key, false⟩], columns⟩ apps))
      (copy.rows apps' rows) := by
  have hparents : ∀ d, Child.hasParents ⟨t, [⟨copy.key, key, false⟩], columns⟩ apps d =
      apps'.any fun a => (a "name").eq (d copy.key) := by
    intro d
    simp only [Child.hasParents, List.all_cons, List.all_nil, Reference.resolves, Reference.isBlank,
      Bool.false_and, Bool.false_or, Bool.and_true]
    exact hnames _
  refine forall₂_flatMap (fun d _ hnone => ?_) fun d _ hone => ?_
  · rw [hparents] at hnone
    rw [filter_name_of_not hnone]
    rfl
  · rw [hparents] at hone
    obtain ⟨a, ha, hname, hfilter⟩ := filter_name happs hone
    rw [hfilter]
    refine ⟨_, rfl, fun ref href => ?_, fun c hc => ?_⟩
    · obtain rfl := List.mem_singleton.mp href
      refine (if_neg (by simp [Reference.isBlank])).mpr ⟨a, ha, hname, ?_⟩
      dsimp only
      rw [insertRow_map, hkey]
      rfl
    · dsimp only
      rw [insertRow_map, hcolumns c hc]
      rfl

/-- The providers that a grant joins. -/
theorem joinProvider_cases (happs : Identified apps') (p : Row) (hnull : p "provider_app" ≠ .null) :
    (p "provider_app" = .text "" ∧ joinProvider apps' p = [none]) ∨
      (p "provider_app" ≠ .text "" ∧
        (apps'.any fun a => (a "name").eq (p "provider_app")) = false ∧
          joinProvider apps' p = [none]) ∨
      (p "provider_app" ≠ .text "" ∧ ∃ a ∈ apps', a "name" = p "provider_app" ∧
        joinProvider apps' p = [some a]) := by
  unfold joinProvider
  by_cases hblank : p "provider_app" = .text ""
  · left
    refine ⟨hblank, ?_⟩
    have hnone : (apps'.filter fun a => (a "name").eq (p "provider_app") &&
        (p "provider_app").ne (.text "")) = [] := by
      rw [List.filter_eq_nil_iff]
      simp [hblank, Value.ne]
    rw [hnone]
    rfl
  · right
    have hne : (p "provider_app").ne (.text "") = true := by simp [Value.ne, hnull, hblank]
    simp only [hne, Bool.and_true]
    cases hany : apps'.any fun a => (a "name").eq (p "provider_app") with
    | false =>
      left
      rw [filter_name_of_not hany]
      exact ⟨hblank, rfl, rfl⟩
    | true =>
      right
      obtain ⟨a, ha, hname, hfilter⟩ := filter_name happs hany
      rw [hfilter]
      exact ⟨hblank, a, ha, hname, rfl⟩

/-- `permissions_v2`, as it is to be copied. -/
def permissionsV2Child : Child :=
  ⟨.permissionsV2, [⟨"consumer_app", "consumer_app_id", false⟩,
    ⟨"provider_app", "provider_app_id", true⟩], ["service_url", "grant_payload", "scope"]⟩

/-- The row that is inserted for a grant. -/
theorem moved_permissionsV2 {p : Row} {consumerId providerId : Value}
    (hconsumer : Reference.Moved ⟨"consumer_app", "consumer_app_id", false⟩ apps'
      (p "consumer_app") consumerId)
    (hprovider : Reference.Moved ⟨"provider_app", "provider_app_id", true⟩ apps'
      (p "provider_app") providerId) :
    permissionsV2Child.Moved apps' p
      (insertRow ["consumer_app_id", "service_url", "grant_payload", "scope", "provider_app_id"]
        [consumerId, p "service_url", p "grant_payload", p "scope", providerId]) := by
  refine ⟨fun ref href => ?_, fun c hc => ?_⟩
  · rcases List.mem_pair.mp href with rfl | rfl
    · exact hconsumer
    · exact hprovider
  · simp only [permissionsV2Child, List.mem_cons, List.not_mem_nil, or_false] at hc
    rcases hc with rfl | rfl | rfl <;> rfl

/-- The copy of the grants, which have a provider or are for every one. -/
theorem forall₂_permissionsV2 (happs : Identified apps') (hnames : SameNames apps apps')
    {rows : List Row} (hnull : ∀ p ∈ rows, p "provider_app" ≠ .null) :
    List.Forall₂ (permissionsV2Child.Moved apps')
      (rows.filter (permissionsV2Child.hasParents apps)) (recreatePermissionsV2 apps' rows) := by
  have hparents : ∀ p, permissionsV2Child.hasParents apps p =
      ((apps'.any fun a => (a "name").eq (p "consumer_app")) &&
        (decide (p "provider_app" = .text "") ||
          apps'.any fun a => (a "name").eq (p "provider_app"))) := by
    intro p
    simp only [permissionsV2Child, Child.hasParents, List.all_cons, List.all_nil, Reference.resolves,
      Reference.isBlank, Bool.false_and, Bool.false_or, Bool.true_and, Bool.and_true]
    rw [hnames, hnames]
  have hblank : ∀ p : Row, (p "provider_app").eq (.text "") = decide (p "provider_app" = .text "") := by
    intro p
    by_cases h : p "provider_app" = .text ""
    · rw [h]
      rfl
    · simp [Value.eq, h]
  refine forall₂_flatMap (fun p hp hnone => ?_) fun p hp hone => ?_
  · rw [hparents] at hnone
    rcases Bool.and_eq_false_iff.mp hnone with hconsumer | hprovider
    · rw [filter_name_of_not hconsumer]
      rfl
    · obtain ⟨hne, hgone⟩ := Bool.or_eq_false_iff.mp hprovider
      refine List.flatMap_eq_nil_iff.mpr fun consumer _ => ?_
      -- the provider is gone, so the joined row has no id and is left out
      rcases joinProvider_cases happs p (hnull p hp) with ⟨heq, -⟩ | ⟨-, -, hjoin⟩ | ⟨-, a, ha, hname, -⟩
      · exact absurd heq (of_decide_eq_false hne)
      · rw [hjoin, hblank, hne]
        rfl
      · have hfound := List.any_eq_false.mp hgone a ha
        exact absurd (Value.eq_iff.mpr ⟨happs.nameNotNull a ha, hname⟩) hfound
  · rw [hparents] at hone
    obtain ⟨hconsumer, hprovider⟩ := Bool.and_eq_true_iff.mp hone
    obtain ⟨c, hc, hcname, hcfilter⟩ := filter_name happs hconsumer
    have hcmoved : Reference.Moved ⟨"consumer_app", "consumer_app_id", false⟩ apps'
        (p "consumer_app") (c "app_id") :=
      (if_neg (by simp [Reference.isBlank])).mpr ⟨c, hc, hcname, rfl⟩
    rw [hcfilter, List.flatMap_singleton]
    rcases joinProvider_cases happs p (hnull p hp) with
      ⟨heq, hjoin⟩ | ⟨hne, hgone, -⟩ | ⟨hne, a, ha, hname, hjoin⟩
    · have hempty : decide (p "provider_app" = .text "") = true := decide_eq_true heq
      rw [hjoin, hblank, hempty]
      refine ⟨_, rfl, moved_permissionsV2 hcmoved ?_⟩
      rw [heq]
      rfl
    · rw [decide_eq_false hne, hgone] at hprovider
      cases hprovider
    · obtain ⟨s, -, hid⟩ := happs.idText a ha
      have hkept : (decide (p "provider_app" = .text "") || decide (providerId (some a) ≠ .null)) =
          true := by
        rw [providerId, Option.map_some, Option.getD_some, hid]
        simp
      rw [hjoin, hblank, List.filter_cons, if_pos hkept]
      refine ⟨_, rfl, moved_permissionsV2 hcmoved ?_⟩
      rw [if_neg (by simpa using hne)]
      exact (if_neg (by simp [Reference.isBlank, hne])).mpr ⟨a, ha, hname, rfl⟩

end Children

/-! ## The whole migration -/

/-- The copies after the new table of apps. -/
def recreates : List (Table × (List Row → List Row → List Row)) :=
  [(.appDatabases, recreateAppDatabases.rows), (.appPortMappings, recreateAppPortMappings.rows),
    (.appTokens, recreateAppTokens.rows), (.serviceProviders, recreateServiceProviders.rows),
    (.serviceProvidersV2, recreateServiceProvidersV2.rows),
    (.serviceDefaults, recreateServiceDefaults.rows), (.permissions, recreatePermissions.rows),
    (.permissionsV2, recreatePermissionsV2)]

section Migrate

open Sql

variable {fk : Bool} {db : Tables}

/-- The copies one after the other, each of its own table, of rows that are allowed. -/
theorem runStatements_recreate {copies : List (Table × (List Row → List Row → List Row))}
    (hnodup : (copies.map Prod.fst).Nodup) (happs : .apps ∉ copies.map Prod.fst)
    (hholds : ∀ p ∈ copies, (schemaV7 p.1).Holds (p.2 (db .apps) (db p.1))) :
    ∃ db', runStatements fk (copies.map fun p => recreate p.1 p.2) db = some db' ∧
      (∀ t ∉ copies.map Prod.fst, db' t = db t) ∧
      ∀ p ∈ copies, db' p.1 = p.2 (db .apps) (db p.1) := by
  induction copies generalizing db with
  | nil => exact ⟨db, rfl, fun _ _ => rfl, fun _ hp => (List.not_mem_nil hp).elim⟩
  | cons p copies ih =>
    obtain ⟨hfresh, hnodup⟩ := List.nodup_cons.mp hnodup
    obtain ⟨hfirst, happs⟩ := not_or.mp (List.mem_cons.not.mp happs)
    let next : Tables := fun t => if t = p.1 then p.2 (db .apps) (db p.1) else db t
    have hnext : recreate p.1 p.2 fk db = some next :=
      if_pos (hholds p List.mem_cons_self)
    have hkeep : ∀ t, t ≠ p.1 → next t = db t := fun t ht => if_neg ht
    have hother : ∀ q ∈ copies, q.1 ≠ p.1 :=
      fun q hq heq => hfresh (heq ▸ List.mem_map_of_mem hq)
    have hrest : ∀ q ∈ copies, (schemaV7 q.1).Holds (q.2 (next .apps) (next q.1)) := by
      intro q hq
      rw [hkeep _ hfirst, hkeep _ (hother q hq)]
      exact hholds q (List.mem_cons_of_mem _ hq)
    obtain ⟨db', hrun, hsame, hcopied⟩ := ih hnodup happs hrest
    refine ⟨db', ?_, fun t ht => ?_, fun q hq => ?_⟩
    · rw [List.map_cons, runStatements, hnext]
      exact hrun
    · obtain ⟨hne, hout⟩ := not_or.mp (List.mem_cons.not.mp ht)
      rw [hsame t hout, hkeep t hne]
    · rcases List.mem_cons.mp hq with rfl | hq
      · rw [hsame _ hfresh]
        exact if_pos rfl
      · rw [hcopied q hq, hkeep _ hfirst, hkeep _ (hother q hq)]

/-- The children, each with its copy. -/
def copied : List (Child × (List Row → List Row → List Row)) :=
  children.zip (recreates.map Prod.snd)

theorem children_eq : children = copied.map Prod.fst := rfl

theorem recreates_eq : recreates = copied.map fun p => (p.1.table, p.2) := rfl

/-- The new rows of every table, of which there is one for each row whose apps are there. -/
theorem forall₂_copied {apps' : List Row} (hschema : ∀ t, (schemaV6 t).Holds (db t))
    (happs : Identified apps') (hnames : SameNames (db .apps) apps') :
    ∀ p ∈ copied, List.Forall₂ (p.1.Moved apps')
      ((db p.1.table).filter (p.1.hasParents (db .apps))) (p.2 apps' (db p.1.table)) := by
  have hnull : ∀ p ∈ db .permissionsV2, p "provider_app" ≠ .null :=
    fun p hp => ((hschema .permissionsV2).1 p hp).1 "provider_app" (by decide)
  intro p hp
  simp only [copied, children, recreates, List.map_cons, List.map_nil, List.zip_cons_cons,
    List.zip_nil_left, List.mem_cons, List.not_mem_nil, or_false] at hp
  rcases hp with rfl | rfl | rfl | rfl | rfl | rfl | rfl | rfl
  · exact forall₂_copy recreateAppDatabases happs hnames (by decide) (by decide) _
  · exact forall₂_copy recreateAppPortMappings happs hnames (by decide) (by decide) _
  · exact forall₂_copy recreateAppTokens happs hnames (by decide) (by decide) _
  · exact forall₂_copy recreateServiceProviders happs hnames (by decide) (by decide) _
  · exact forall₂_copy recreateServiceProvidersV2 happs hnames (by decide) (by decide) _
  · exact forall₂_copy recreateServiceDefaults happs hnames (by decide) (by decide) _
  · exact forall₂_copy recreatePermissions happs hnames (by decide) (by decide) _
  · exact forall₂_permissionsV2 happs hnames hnull

theorem sameNames_of_forall₂ {R : Row → Row → Prop} {apps apps' : List Row}
    (h : List.Forall₂ R apps apps') (hname : ∀ a a', R a a' → a' "name" = a "name") :
    SameNames apps apps' := by
  intro v
  induction h with
  | nil => rfl
  | cons h _ ih => rw [List.any_cons, List.any_cons, ih, hname _ _ h]

/-- On every database with the old schema the migration goes through, and keeps the references. -/
theorem keepsReferences_of_up {draws : Nat → Nat} (hschema : ∀ t, (schemaV6 t).Holds (db t))
    (hdistinct : Distinct draws (db .apps).length) :
    ∃ db', runStatements fk (migration0007AppIds.up draws db) db = some db' ∧
      KeepsReferences db db' := by
  have hforall₂ := forall₂_addAppIdToApps draws (db .apps)
  have happs := identified_addAppIdToApps (hschema .apps) hdistinct
  have hnames : SameNames (db .apps) (addAppIdToApps draws (db .apps)) :=
    sameNames_of_forall₂ hforall₂ fun a a' h => h.1 "name" (by decide)
  let first : Tables := fun t => if t = .apps then addAppIdToApps draws (db .apps) else db t
  have hfirst : db.replace .apps (schemaV7 .apps) (addAppIdToApps draws (db .apps)) = some first :=
    if_pos (holds_addAppIdToApps (hschema .apps) hdistinct)
  have hother : ∀ p ∈ copied, first p.1.table = db p.1.table := by
    have hne : ∀ child ∈ children, child.table ≠ .apps := by decide
    exact fun p hp => if_neg (hne p.1 (children_eq ▸ List.mem_map_of_mem hp))
  have hnew := forall₂_copied hschema happs hnames
  have hholds : ∀ q ∈ recreates, (schemaV7 q.1).Holds (q.2 (first .apps) (first q.1)) := by
    intro q hq
    rw [recreates_eq] at hq
    obtain ⟨p, hp, rfl⟩ := List.mem_map.mp hq
    have hchild : p.1 ∈ children := children_eq ▸ List.mem_map_of_mem hp
    dsimp only
    rw [hother p hp]
    exact holds_of_moved (fits_of_mem hchild) happs (hschema _) (hnew p hp)
  obtain ⟨db', hrun, hsame, hcopied⟩ :=
    runStatements_recreate (by decide) (by decide) hholds
  have happs' : db' .apps = addAppIdToApps draws (db .apps) := hsame .apps (by decide)
  refine ⟨db', ?_, ?_, ?_, ?_⟩
  · rw [← hrun]
    exact congrArg (Option.bind · _) hfirst
  · rw [happs']
    exact hforall₂.imp fun _ _ h => h.1
  · rw [happs']
    exact happs.ids
  · intro child hchild
    rw [children_eq] at hchild
    obtain ⟨p, hp, rfl⟩ := List.mem_map.mp hchild
    have hrows := hcopied (p.1.table, p.2) (recreates_eq ▸ List.mem_map_of_mem hp)
    rw [happs', hrows]
    dsimp only
    rw [hother p hp]
    exact hnew p hp

end Migrate

/-! ## A grant for a provider that is gone -/

/-- An app, as it was installed. -/
def mailApp : Row :=
  insertRow appColumns [.integer 1, .text "mail", .text "mail", .text "1.0", .null, .text "serverfull",
    .text "/repo/mail", .null, .null, .integer 19100, .null, .null, .text "running", .null,
    .integer 128, .integer 100, .integer 0, .text "[]", .null, .null, .text "2026-01-01 00:00:00",
    .text "2026-01-01 00:00:00"]

/-- It may use a service of an app that was removed. -/
def orphanGrant : Row :=
  insertRow ["consumer_app", "service_url", "grant_payload", "scope", "provider_app"]
    [.text "mail", .text "calendar", .text "{}", .text "app", .text "planner"]

def orphanTables : Tables
  | .apps => [mailApp]
  | .permissionsV2 => [orphanGrant]
  | .appTokens => [insertRow ["app_name", "token_hash"] [.text "mail", .text "h"]]
  | _ => []

theorem holds_orphanTables : ∀ t, (schemaV6 t).Holds (orphanTables t) := by
  intro t
  cases t <;> decide

theorem keepsReferences_of_up_mail :
    ∃ db', Sql.runStatements false (migration0007AppIds.up (fun i => i) orphanTables) orphanTables =
      some db' ∧ KeepsReferences orphanTables db' :=
  keepsReferences_of_up holds_orphanTables (by decide)

/-- The app that has the grant is there, and the grant is lost. -/
theorem orphan_provider_lost :
    (∀ t, (schemaV6 t).Holds (orphanTables t)) ∧
      (orphanGrant ∈ orphanTables .permissionsV2 ∧
        ∃ a ∈ orphanTables .apps, a "name" = orphanGrant "consumer_app") ∧
      ((Sql.runStatements false (migration0007AppIds.up (fun i => i) orphanTables) orphanTables).map
        fun db' => (db' .permissionsV2).length) = some 0 := by
  refine ⟨holds_orphanTables, ⟨List.mem_singleton.mpr rfl, mailApp, List.mem_singleton.mpr rfl, ?_⟩,
    ?_⟩
  · decide
  · decide

end OpenHost.Versioned

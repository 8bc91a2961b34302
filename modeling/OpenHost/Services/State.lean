import Mathlib.Data.List.MinMax
import Mathlib.Data.Prod.Lex
import Mathlib.Data.String.Basic
import OpenHost.Install.Tables

/-!
# Services and who provides them

The tables behind `service_interface`: the apps, the services that they can provide, the providers that
the owner picked, and the grants.  Which app serves a service that nobody has picked a provider for is
read off the first two.
-/

namespace OpenHost.Services

open Install (ProviderRow ServiceProvides)

/-! ## Rows -/

/-- A row of `apps`, as far as providers are picked and called by it.  `created_at` is the text that
`datetime('now')` gave. -/
structure AppRow where
  appId : String
  name : String
  createdAt : String
  localPort : Nat
  status : Apps.Status := .building
  deriving DecidableEq, Repr

/-- A row of `service_defaults`. -/
structure DefaultRow where
  serviceUrl : String
  appId : String
  deriving DecidableEq, Repr

/-- `scope` -/
inductive Scope where
  | global
  | app
  deriving DecidableEq, Repr

/-- A row of `permissions_v2`.  The payload is the text that `json.dumps(…, sort_keys=True)` gave;
the empty provider stands for none. -/
structure PermissionRow where
  consumerAppId : String
  serviceUrl : String
  grantPayload : String
  scope : Scope := .global
  providerAppId : String := ""
  deriving DecidableEq, Repr

/-- The rows of the tables. -/
structure Rows where
  apps : List AppRow := []
  providers : List ProviderRow := []
  defaults : List DefaultRow := []
  permissions : List PermissionRow := []
  deriving DecidableEq

/-- The constraints of the schema.  A provider row need not belong to an app: deploys and reloads write
it on connections that do not enforce references. -/
structure Constraints (r : Rows) : Prop where
  appIds : (r.apps.map AppRow.appId).Nodup
  names : (r.apps.map AppRow.name).Nodup
  localPorts : (r.apps.map AppRow.localPort).Nodup
  providers : (r.providers.map fun p => (p.serviceUrl, p.appId, p.serviceVersion)).Nodup
  defaults : (r.defaults.map DefaultRow.serviceUrl).Nodup
  permissions : r.permissions.Nodup
  defaultApps : ∀ d ∈ r.defaults, d.appId ∈ r.apps.map AppRow.appId
  consumers : ∀ p ∈ r.permissions, p.consumerAppId ∈ r.apps.map AppRow.appId

instance (r : Rows) : Decidable (Constraints r) :=
  decidable_of_iff ((r.apps.map AppRow.appId).Nodup ∧ (r.apps.map AppRow.name).Nodup ∧
      (r.apps.map AppRow.localPort).Nodup ∧
      (r.providers.map fun p => (p.serviceUrl, p.appId, p.serviceVersion)).Nodup ∧
      (r.defaults.map DefaultRow.serviceUrl).Nodup ∧ r.permissions.Nodup ∧
      (∀ d ∈ r.defaults, d.appId ∈ r.apps.map AppRow.appId) ∧
      ∀ p ∈ r.permissions, p.consumerAppId ∈ r.apps.map AppRow.appId)
    ⟨fun ⟨h1, h2, h3, h4, h5, h6, h7, h8⟩ => ⟨h1, h2, h3, h4, h5, h6, h7, h8⟩,
      fun h => ⟨h.appIds, h.names, h.localPorts, h.providers, h.defaults, h.permissions,
        h.defaultApps, h.consumers⟩⟩

/-- The tables, which meet the constraints. -/
structure Tables extends Rows where
  constraints : Constraints toRows

/-- What can be raised. -/
inductive ServiceError where
  /-- `sqlite3.IntegrityError` -/
  | integrity
  | lookupError (message : String)
  | notFound (detail : String)
  | validation (detail : String)
  | permissionDenied (detail : String)
  deriving DecidableEq, Repr

namespace Tables

/-- The outcome of a statement that leaves these rows. -/
def write (r : Rows) : Except ServiceError Tables :=
  if h : Constraints r then .ok ⟨r, h⟩ else .error .integrity

theorem constraints_empty : Constraints {} where
  appIds := List.nodup_nil
  names := List.nodup_nil
  localPorts := List.nodup_nil
  providers := List.nodup_nil
  defaults := List.nodup_nil
  permissions := List.nodup_nil
  defaultApps _ hd := absurd hd List.not_mem_nil
  consumers _ hp := absurd hp List.not_mem_nil

/-- No rows. -/
def empty : Tables := ⟨{}, constraints_empty⟩

theorem write_ok {r : Rows} {t : Tables} (h : write r = .ok t) : t.toRows = r := by
  unfold write at h
  split at h
  · obtain rfl := Except.ok.inj h
    rfl
  · cases h

/-- `SELECT … FROM apps WHERE app_id = ?` -/
def findApp (t : Tables) (appId : String) : Option AppRow := t.apps.find? (·.appId = appId)

theorem findApp_eq_some_iff {t : Tables} {appId : String} {a : AppRow} :
    t.findApp appId = some a ↔ a ∈ t.apps ∧ a.appId = appId := by
  constructor
  · intro h
    have hid := List.find?_some h
    exact ⟨List.mem_of_find?_eq_some h, of_decide_eq_true hid⟩
  · rintro ⟨ha, hid⟩
    cases hfind : t.findApp appId with
    | none => exact absurd (decide_eq_true hid) (List.find?_eq_none.mp hfind a ha)
    | some b =>
      have hb := List.find?_some hfind
      rw [List.inj_on_of_nodup_map t.constraints.appIds (List.mem_of_find?_eq_some hfind) ha
        ((of_decide_eq_true hb).trans hid.symm)]

/-- `service_providers_v2 sp JOIN apps a ON a.app_id = sp.app_id`, for one service. -/
def providersOf (t : Tables) (serviceUrl : String) : List (ProviderRow × AppRow) :=
  (t.providers.filter (·.serviceUrl = serviceUrl)).filterMap fun sp =>
    (t.findApp sp.appId).map fun a => (sp, a)

theorem mem_providersOf {t : Tables} {serviceUrl : String} {sp : ProviderRow} {a : AppRow} :
    (sp, a) ∈ t.providersOf serviceUrl ↔
      sp ∈ t.providers ∧ sp.serviceUrl = serviceUrl ∧ a ∈ t.apps ∧ a.appId = sp.appId := by
  simp only [providersOf, List.mem_filterMap, List.mem_filter, decide_eq_true_eq,
    Option.map_eq_some_iff, Prod.mk.injEq, findApp_eq_some_iff]
  constructor
  · rintro ⟨sp', ⟨hsp, hurl⟩, a', ha, rfl, rfl⟩
    exact ⟨hsp, hurl, ha⟩
  · rintro ⟨hsp, hurl, ha⟩
    exact ⟨sp, ⟨hsp, hurl⟩, a, ha, rfl, rfl⟩

/-- The provider that the owner picked. -/
def storedDefault (t : Tables) (serviceUrl : String) : Option String :=
  (t.defaults.find? (·.serviceUrl = serviceUrl)).map DefaultRow.appId

theorem storedDefault_eq_some_iff {t : Tables} {serviceUrl appId : String} :
    t.storedDefault serviceUrl = some appId ↔ ⟨serviceUrl, appId⟩ ∈ t.defaults := by
  rw [storedDefault, Option.map_eq_some_iff]
  constructor
  · rintro ⟨d, hfind, rfl⟩
    have hurl := List.find?_some hfind
    rw [← of_decide_eq_true hurl]
    exact List.mem_of_find?_eq_some hfind
  · intro hmem
    cases hfind : t.defaults.find? (·.serviceUrl = serviceUrl) with
    | none =>
      have hnone := List.find?_eq_none.mp hfind _ hmem
      exact absurd (decide_eq_true rfl) hnone
    | some d =>
      have hurl := List.find?_some hfind
      have hd : d = ⟨serviceUrl, appId⟩ := List.inj_on_of_nodup_map t.constraints.defaults
        (List.mem_of_find?_eq_some hfind) hmem (of_decide_eq_true hurl)
      exact ⟨d, rfl, by rw [hd]⟩

end Tables

/-! ## Builtins -/

/-- `ROUTER_APP_ID` -/
def routerAppId : String := "_openhost_router"

/-- `ROUTER_APP_NAME` -/
def routerAppName : String := "OpenHost Router"

/-- `BuiltinService`, without its app. -/
structure BuiltinService where
  serviceUrl : String
  version : String
  deriving DecidableEq, Repr

/-- `BUILTIN_SERVICES` -/
def builtinServices : List BuiltinService := []

/-- `builtin_by_url` -/
def builtinByUrl (builtins : List BuiltinService) (serviceUrl : String) : Option BuiltinService :=
  builtins.find? (·.serviceUrl = serviceUrl)

/-! ## The default provider -/

section

-- `Version(text)`, and none where it raises `InvalidVersion`
variable {V : Type} [LinearOrder V] (version : String → Option V)

/-- `(Version(r["service_version"]), r["app_id"])`.  The versions of a manifest are validated when it is
parsed, so that every row has one. -/
def precedence (sp : ProviderRow) : WithBot V ×ₗ String := toLex (version sp.serviceVersion, sp.appId)

/-- `_incumbent_provider_id` -/
def incumbentProviderId (serviceUrl : String) (t : Tables) : Option String :=
  let rows := t.providersOf serviceUrl
  let oldest := rows.argmin fun r => r.2.createdAt
  let tied := rows.filter fun r => oldest.any fun o => r.2.createdAt = o.2.createdAt
  (tied.argmax fun r => precedence version r.1).map fun r => r.1.appId

/-- `default_provider_id_for_service` -/
def defaultProviderIdForService (builtins : List BuiltinService) (serviceUrl : String) (t : Tables) :
    Option String :=
  match t.storedDefault serviceUrl with
  | some appId => some appId
  | none =>
      if (builtinByUrl builtins serviceUrl).isSome then some routerAppId
      else incumbentProviderId version serviceUrl t

end

end OpenHost.Services

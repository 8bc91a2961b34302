import OpenHost.Library.Runs
import OpenHost.Services.State

/-!
# What changes the tables of the services

Installs, starts, reloads and removals as far as they touch the providers, the owner's choice of a
default, and the flows that grant and revoke permissions.  Each is one transaction, which leaves the
tables as they are when it fails.
-/

namespace OpenHost.Services

open Install (ProviderRow ServiceProvides)

/-! ## Statements -/

namespace Tables

/-- `INSERT INTO apps` -/
def insertApp (a : AppRow) (t : Tables) : Except ServiceError Tables :=
  write { t.toRows with apps := t.apps ++ [a] }

/-- `UPDATE apps SET status = ? WHERE app_id = ?` -/
def updateStatus (appId : String) (status : Apps.Status) (t : Tables) : Except ServiceError Tables :=
  write { t.toRows with apps := t.apps.map fun a => if a.appId = appId then { a with status } else a }

/-- `DELETE FROM apps WHERE app_id = ?`, which cascades. -/
def deleteApp (appId : String) (t : Tables) : Except ServiceError Tables :=
  write {
    apps := t.apps.filter (·.appId ≠ appId)
    providers := t.providers.filter (·.appId ≠ appId)
    defaults := t.defaults.filter (·.appId ≠ appId)
    permissions := t.permissions.filter (·.consumerAppId ≠ appId) }

/-- `DELETE FROM service_providers_v2 WHERE app_id = ?` -/
def deleteProviders (appId : String) (t : Tables) : Except ServiceError Tables :=
  write { t.toRows with providers := t.providers.filter (·.appId ≠ appId) }

/-- `INSERT OR REPLACE INTO service_providers_v2`, on a connection that enforces references or does
not. -/
def putProvider (foreignKeys : Bool) (sp : ProviderRow) (t : Tables) : Except ServiceError Tables :=
  if foreignKeys && (t.findApp sp.appId).isNone then .error .integrity
  else
    let others := t.providers.filter fun r => decide
      ((r.serviceUrl, r.appId, r.serviceVersion) ≠ (sp.serviceUrl, sp.appId, sp.serviceVersion))
    write { t.toRows with providers := others ++ [sp] }

/-- `INSERT OR REPLACE INTO service_defaults` -/
def putDefault (d : DefaultRow) (t : Tables) : Except ServiceError Tables :=
  write { t.toRows with defaults := t.defaults.filter (·.serviceUrl ≠ d.serviceUrl) ++ [d] }

/-- `DELETE FROM service_defaults WHERE service_url = ?` -/
def deleteDefault (serviceUrl : String) (t : Tables) : Except ServiceError Tables :=
  write { t.toRows with defaults := t.defaults.filter (·.serviceUrl ≠ serviceUrl) }

end Tables

/-! ## Providers and defaults -/

/-- `register_services_provided_by_app` -/
def registerServicesProvidedByApp (foreignKeys : Bool) (appId : String)
    (provides : List ServiceProvides) (t : Tables) : Except ServiceError Tables := do
  let t ← t.deleteProviders appId
  provides.foldlM (fun t svc => t.putProvider foreignKeys
    ⟨svc.service, appId, svc.version, svc.endpoint⟩) t

/-- `insert_and_deploy`, on a connection that enforces references. -/
def insertAndDeploy (a : AppRow) (provides : List ServiceProvides) (t : Tables) :
    Except ServiceError Tables := do
  let t ← t.insertApp { a with status := .building }
  registerServicesProvidedByApp true a.appId provides t

/-- `clear_default` -/
def clearDefault (serviceUrl : String) (t : Tables) : Except ServiceError Tables :=
  t.deleteDefault serviceUrl

/-- `set_default` -/
def setDefault (builtins : List BuiltinService) (serviceUrl appId : String) (t : Tables) :
    Except ServiceError Tables :=
  if appId = routerAppId then
    match builtinByUrl builtins serviceUrl with
    | none => .error (.lookupError s!"The router does not provide '{serviceUrl}'")
    -- the router is stored as the absence of a row
    | some _ => clearDefault serviceUrl t
  else if t.providers.any fun r => r.serviceUrl = serviceUrl && r.appId = appId then
    t.putDefault ⟨serviceUrl, appId⟩
  else .error (.lookupError s!"App '{appId}' does not provide '{serviceUrl}'")

/-! ## Permissions -/

/-- `grant_permission_v2`: `INSERT OR IGNORE`. -/
def grantPermissionV2 (row : PermissionRow) (t : Tables) : Except ServiceError Tables :=
  if row ∈ t.permissions then .ok t
  else Tables.write { t.toRows with permissions := t.permissions ++ [row] }

/-- `revoke_permission_v2` -/
def revokePermissionV2 (row : PermissionRow) (t : Tables) : Except ServiceError (Tables × Bool) := do
  let t' ← Tables.write { t.toRows with permissions := t.permissions.filter (· ≠ row) }
  pure (t', row ∈ t.permissions)

/-- What is true of a text that may be absent. -/
def truthy (s : Option String) : Option String := s.filter (· ≠ "")

/-- The body of a request of the owner to grant or revoke. -/
structure OwnerRequest where
  appId : Option String
  serviceUrl : Option String
  grant : Option String
  deriving DecidableEq, Repr

/-- `grant_global_scoped` -/
def grantGlobalScoped (data : OwnerRequest) (t : Tables) : Except ServiceError Tables :=
  match truthy data.appId, truthy data.serviceUrl, data.grant with
  | some appId, some serviceUrl, some grant => grantPermissionV2 ⟨appId, serviceUrl, grant, .global, ""⟩ t
  | _, _, _ => .error (.validation "app_id, service_url, and grant are required")

/-- `revoke_v2` -/
def revokeV2 (data : OwnerRequest) (scope : Scope) (providerAppId : Option String) (t : Tables) :
    Except ServiceError Tables :=
  match truthy data.appId, truthy data.serviceUrl, data.grant with
  | some appId, some serviceUrl, some grant => do
      let (t', revoked) ← revokePermissionV2 ⟨appId, serviceUrl, grant, scope, providerAppId.getD ""⟩ t
      if revoked then pure t' else .error (.notFound "Permission not found")
  | _, _, _ => .error (.validation "app_id, service_url, and grant are required")

/-- The body of a request of a provider to grant. -/
structure ProviderRequest where
  consumerAppName : Option String
  consumerAppId : Option String
  serviceUrl : Option String
  grant : Option String
  deriving DecidableEq, Repr

/-- The consumer that a provider's request is about. -/
def requestedConsumer (data : ProviderRequest) (t : Tables) : Except ServiceError (Option String) :=
  match truthy data.consumerAppName with
  | none => .ok data.consumerAppId
  | some name =>
      match t.apps.find? (·.name = name) with
      | none => .error (.notFound s!"No app named '{name}'")
      | some a => .ok (some a.appId)

/-- `grant_app_scoped`, for the app that the request is authenticated as. -/
def grantAppScoped (providerAppId : String) (data : ProviderRequest) (t : Tables) :
    Except ServiceError Tables := do
  let consumerAppId ← requestedConsumer data t
  match truthy consumerAppId, truthy data.serviceUrl, data.grant with
  | some consumerAppId, some serviceUrl, some grant =>
      if t.providers.any fun r => r.serviceUrl = serviceUrl && r.appId = providerAppId then
        grantPermissionV2 ⟨consumerAppId, serviceUrl, grant, .app, providerAppId⟩ t
      else .error (.permissionDenied
        s!"App {providerAppId} is not a registered provider for {serviceUrl}")
  | _, _, _ => .error (.validation
      "consumer_app_name (or consumer_app_id), service_url, and grant are required")

/-! ## Manifests and their grants -/

/-- `ServiceConsumes`, with its grants as the texts under which they are stored. -/
structure ServiceConsumes where
  service : String
  shortname : String
  version : String
  grants : List String
  deriving DecidableEq, Repr

/-- `PermissionGrant` -/
structure PermissionGrant where
  serviceUrl : String
  grant : String
  deriving DecidableEq, Repr

/-- `all_manifest_permissions_v2` -/
def allManifestPermissionsV2 (consumes : List ServiceConsumes) : List PermissionGrant :=
  consumes.flatMap fun perm => perm.grants.map fun grant => ⟨perm.service, grant⟩

/-- One turn of the loop of `manifest_ungranted_permissions_v2`: the keys seen, and the list. -/
def addUngranted (acc : List PermissionGrant × List PermissionGrant) (pg : PermissionGrant) :
    List PermissionGrant × List PermissionGrant :=
  if pg ∈ acc.1 then acc else (pg :: acc.1, acc.2 ++ [pg])

/-- `manifest_ungranted_permissions_v2`; `granted` are the rows of the consumer, whatever their
scope. -/
def manifestUngrantedPermissionsV2 (consumes : List ServiceConsumes) (granted : List PermissionRow) :
    List PermissionGrant :=
  let grantedKeys := granted.map fun rec => ⟨rec.serviceUrl, rec.grantPayload⟩
  ((allManifestPermissionsV2 consumes).foldl addUngranted (grantedKeys, [])).2

/-- `manifest_newly_declared_permissions_v2`; there may be no previous manifest that can be read. -/
def manifestNewlyDeclaredPermissionsV2 (consumes : List ServiceConsumes) (granted : List PermissionRow)
    (previous : Option (List ServiceConsumes)) : List PermissionGrant :=
  let ungranted := manifestUngrantedPermissionsV2 consumes granted
  match previous with
  | none => ungranted
  | some previous => ungranted.filter (· ∉ allManifestPermissionsV2 previous)

/-- `get_all_permissions_v2(consumer_app_id)` -/
def getAllPermissionsV2 (consumerAppId : String) (t : Tables) : List PermissionRow :=
  t.permissions.filter (·.consumerAppId = consumerAppId)

/-- Grants to a consumer, in any provider's stead. -/
def grantAll (consumerAppId : String) (grants : List PermissionGrant) (t : Tables) :
    Except ServiceError Tables :=
  grants.foldlM (fun t pg => grantPermissionV2 ⟨consumerAppId, pg.serviceUrl, pg.grant, .global, ""⟩ t) t

/-- What `_gate_update_review` grants to an update that the owner has approved. -/
def approveUpdate (appId : String) (consumes : List ServiceConsumes)
    (previous : Option (List ServiceConsumes)) (t : Tables) : Except ServiceError Tables :=
  grantAll appId (manifestNewlyDeclaredPermissionsV2 consumes (getAllPermissionsV2 appId t) previous) t

/-! ## Operations -/

/-- The operations, with their arguments. -/
inductive ServiceOp where
  | insertAndDeploy (a : AppRow) (provides : List ServiceProvides)
  | updateStatus (appId : String) (status : Apps.Status)
  /-- A start or a reload. -/
  | register (foreignKeys : Bool) (appId : String) (provides : List ServiceProvides)
  | removeApp (appId : String)
  | setDefault (serviceUrl appId : String)
  | clearDefault (serviceUrl : String)
  /-- The grants that the owner approved for an app that is being installed. -/
  | installGrants (appId : String) (grants : List PermissionGrant)
  | approveUpdate (appId : String) (consumes : List ServiceConsumes)
      (previous : Option (List ServiceConsumes))
  | grantGlobalScoped (data : OwnerRequest)
  | revokeV2 (data : OwnerRequest) (scope : Scope) (providerAppId : Option String)
  | grantAppScoped (providerAppId : String) (data : ProviderRequest)
  deriving DecidableEq, Repr

/-- What an operation makes of the tables. -/
def perform (builtins : List BuiltinService) : ServiceOp → Tables → Except ServiceError Tables
  | .insertAndDeploy a provides => insertAndDeploy a provides
  | .updateStatus appId status => Tables.updateStatus appId status
  | .register foreignKeys appId provides => registerServicesProvidedByApp foreignKeys appId provides
  | .removeApp appId => Tables.deleteApp appId
  | .setDefault serviceUrl appId => setDefault builtins serviceUrl appId
  | .clearDefault serviceUrl => clearDefault serviceUrl
  | .installGrants appId grants => grantAll appId grants
  | .approveUpdate appId consumes previous => approveUpdate appId consumes previous
  | .grantGlobalScoped data => grantGlobalScoped data
  | .revokeV2 data scope providerAppId => revokeV2 data scope providerAppId
  | .grantAppScoped providerAppId data => grantAppScoped providerAppId data

/-- The runs from `t` all of whose steps meet the condition; an operation that fails leaves no step. -/
abbrev Runs (builtins : List BuiltinService) (ok : Tables → ServiceOp → Prop) (t t' : Tables) : Prop :=
  Reach (fun t op t' => perform builtins op t = .ok t') ok t t'

/-! ## What an operation leaves -/

/-- The app has registered this version of the service. -/
def Offers (t : Tables) (serviceUrl appId version : String) : Prop :=
  ∃ sp ∈ t.providers, sp.serviceUrl = serviceUrl ∧ sp.appId = appId ∧ sp.serviceVersion = version

/-- The manifest declares this version of the service. -/
def Declares (provides : List ServiceProvides) (serviceUrl version : String) : Prop :=
  ∃ svc ∈ provides, svc.service = serviceUrl ∧ svc.version = version

theorem exists_of_bind_ok {ε α β : Type} {x : Except ε α} {f : α → Except ε β} {b : β}
    (h : (x >>= f) = .ok b) : ∃ a, x = .ok a ∧ f a = .ok b := by
  cases x with
  | error e => cases h
  | ok a => exact ⟨a, rfl, h⟩

section

variable {t t' : Tables}

theorem putProvider_ok {foreignKeys : Bool} {sp : ProviderRow}
    (h : t.putProvider foreignKeys sp = .ok t') :
    t'.apps = t.apps ∧ t'.defaults = t.defaults ∧ t'.permissions = t.permissions ∧
      ∀ s a v, Offers t' s a v ↔
        Offers t s a v ∨ (s = sp.serviceUrl ∧ a = sp.appId ∧ v = sp.serviceVersion) := by
  unfold Tables.putProvider at h
  split at h
  · cases h
  · have hrows := Tables.write_ok h
    refine ⟨by rw [hrows], by rw [hrows], by rw [hrows], ?_⟩
    intro s a v
    simp only [Offers, hrows, List.mem_append, List.mem_filter, List.mem_singleton, decide_eq_true_eq]
    constructor
    · rintro ⟨r, hr | rfl, rfl, rfl, rfl⟩
      · exact Or.inl ⟨r, hr.1, rfl, rfl, rfl⟩
      · exact Or.inr ⟨rfl, rfl, rfl⟩
    · rintro (⟨r, hr, rfl, rfl, rfl⟩ | ⟨rfl, rfl, rfl⟩)
      · by_cases hkey : (r.serviceUrl, r.appId, r.serviceVersion) =
            (sp.serviceUrl, sp.appId, sp.serviceVersion)
        · -- the row is replaced by one of the same version
          obtain ⟨h1, h2, h3⟩ : r.serviceUrl = sp.serviceUrl ∧ r.appId = sp.appId ∧
              r.serviceVersion = sp.serviceVersion := by simpa using hkey
          exact ⟨sp, Or.inr rfl, h1.symm, h2.symm, h3.symm⟩
        · exact ⟨r, Or.inl ⟨hr, hkey⟩, rfl, rfl, rfl⟩
      · exact ⟨sp, Or.inr rfl, rfl, rfl, rfl⟩

theorem foldlM_putProvider_ok {foreignKeys : Bool} {appId : String} {provides : List ServiceProvides}
    (h : provides.foldlM (fun t svc => t.putProvider foreignKeys
      ⟨svc.service, appId, svc.version, svc.endpoint⟩) t = .ok t') :
    t'.apps = t.apps ∧ t'.defaults = t.defaults ∧ t'.permissions = t.permissions ∧
      ∀ s a v, Offers t' s a v ↔ Offers t s a v ∨ (a = appId ∧ Declares provides s v) := by
  induction provides generalizing t with
  | nil =>
    obtain rfl := Except.ok.inj h
    exact ⟨rfl, rfl, rfl, fun s a v => by simp [Declares]⟩
  | cons svc provides ih =>
    rw [List.foldlM_cons] at h
    obtain ⟨u, hu, hrest⟩ := exists_of_bind_ok h
    obtain ⟨happs, hdefaults, hpermissions, hoffers⟩ := putProvider_ok hu
    obtain ⟨happs', hdefaults', hpermissions', hoffers'⟩ := ih hrest
    refine ⟨happs'.trans happs, hdefaults'.trans hdefaults, hpermissions'.trans hpermissions, ?_⟩
    intro s a v
    rw [hoffers', hoffers]
    simp only [Declares, List.mem_cons, exists_eq_or_imp]
    constructor
    · rintro ((hold | ⟨rfl, rfl, rfl⟩) | ⟨rfl, hlater⟩)
      · exact Or.inl hold
      · exact Or.inr ⟨rfl, Or.inl ⟨rfl, rfl⟩⟩
      · exact Or.inr ⟨rfl, Or.inr hlater⟩
    · rintro (hold | ⟨rfl, ⟨rfl, rfl⟩ | hlater⟩)
      · exact Or.inl (Or.inl hold)
      · exact Or.inl (Or.inr ⟨rfl, rfl, rfl⟩)
      · exact Or.inr ⟨rfl, hlater⟩

/-- Registering an app replaces what it offers by what its manifest declares, and writes nothing but
provider rows. -/
theorem register_ok {foreignKeys : Bool} {appId : String} {provides : List ServiceProvides}
    (h : registerServicesProvidedByApp foreignKeys appId provides t = .ok t') :
    t'.apps = t.apps ∧ t'.defaults = t.defaults ∧ t'.permissions = t.permissions ∧
      ∀ s a v, Offers t' s a v ↔
        (a ≠ appId ∧ Offers t s a v) ∨ (a = appId ∧ Declares provides s v) := by
  obtain ⟨u, hu, hrest⟩ := exists_of_bind_ok h
  have hrows := Tables.write_ok hu
  obtain ⟨happs, hdefaults, hpermissions, hoffers⟩ := foldlM_putProvider_ok hrest
  refine ⟨by rw [happs, hrows], by rw [hdefaults, hrows], by rw [hpermissions, hrows], ?_⟩
  intro s a v
  rw [hoffers]
  apply or_congr_left
  simp only [Offers, hrows, List.mem_filter, decide_eq_true_eq]
  constructor
  · rintro ⟨r, ⟨hr, hne⟩, rfl, rfl, rfl⟩
    exact ⟨hne, r, hr, rfl, rfl, rfl⟩
  · rintro ⟨hne, r, hr, rfl, rfl, rfl⟩
    exact ⟨r, ⟨hr, hne⟩, rfl, rfl, rfl⟩

/-- An installed app stands behind the others, and offers what its manifest declares. -/
theorem insertAndDeploy_ok {a : AppRow} {provides : List ServiceProvides}
    (h : insertAndDeploy a provides t = .ok t') :
    t'.apps = t.apps ++ [{ a with status := .building }] ∧ t'.defaults = t.defaults ∧ t'.permissions = t.permissions ∧
      ∀ s p v, Offers t' s p v ↔
        (p ≠ a.appId ∧ Offers t s p v) ∨ (p = a.appId ∧ Declares provides s v) := by
  obtain ⟨u, hu, hrest⟩ := exists_of_bind_ok h
  have hrows := Tables.write_ok hu
  obtain ⟨happs, hdefaults, hpermissions, hoffers⟩ := register_ok hrest
  refine ⟨by rw [happs, hrows], by rw [hdefaults, hrows], by rw [hpermissions, hrows], ?_⟩
  intro s p v
  rw [hoffers]
  simp only [Offers, hrows]

/-- A new status changes nothing that a default is read off. -/
theorem updateStatus_ok {appId : String} {status : Apps.Status}
    (h : t.updateStatus appId status = .ok t') :
    t'.apps.map (fun a => (a.appId, a.createdAt)) = t.apps.map (fun a => (a.appId, a.createdAt)) ∧
      t'.providers = t.providers ∧ t'.defaults = t.defaults ∧ t'.permissions = t.permissions := by
  have hrows := Tables.write_ok h
  refine ⟨?_, by rw [hrows], by rw [hrows], by rw [hrows]⟩
  rw [hrows, List.map_map]
  apply List.map_congr_left
  intro a _
  rw [Function.comp_apply]
  split <;> rfl

/-- A removed app takes with it what it offers, and every choice of it. -/
theorem deleteApp_ok {appId : String} (h : t.deleteApp appId = .ok t') :
    t'.apps = t.apps.filter (·.appId ≠ appId) ∧
      t'.defaults = t.defaults.filter (·.appId ≠ appId) ∧
      ∀ s a v, Offers t' s a v ↔ a ≠ appId ∧ Offers t s a v := by
  have hrows := Tables.write_ok h
  refine ⟨by rw [hrows], by rw [hrows], ?_⟩
  intro s a v
  simp only [Offers, hrows, List.mem_filter, decide_eq_true_eq]
  constructor
  · rintro ⟨r, ⟨hr, hne⟩, rfl, rfl, rfl⟩
    exact ⟨hne, r, hr, rfl, rfl, rfl⟩
  · rintro ⟨hne, r, hr, rfl, rfl, rfl⟩
    exact ⟨r, ⟨hr, hne⟩, rfl, rfl, rfl⟩

/-- Granting writes permissions only. -/
theorem grantPermissionV2_ok {row : PermissionRow} (h : grantPermissionV2 row t = .ok t') :
    t'.apps = t.apps ∧ t'.providers = t.providers ∧ t'.defaults = t.defaults ∧
      t'.permissions = if row ∈ t.permissions then t.permissions else t.permissions ++ [row] := by
  unfold grantPermissionV2 at h
  split at h
  · rename_i hmem
    obtain rfl := Except.ok.inj h
    exact ⟨rfl, rfl, rfl, (if_pos hmem).symm⟩
  · rename_i hmem
    have hrows := Tables.write_ok h
    exact ⟨by rw [hrows], by rw [hrows], by rw [hrows], by rw [hrows, if_neg hmem]⟩

theorem revokePermissionV2_ok {row : PermissionRow} {revoked : Bool}
    (h : revokePermissionV2 row t = .ok (t', revoked)) :
    t'.apps = t.apps ∧ t'.providers = t.providers ∧ t'.defaults = t.defaults ∧
      t'.permissions = t.permissions.filter (· ≠ row) ∧ revoked = decide (row ∈ t.permissions) := by
  obtain ⟨u, hu, hrest⟩ := exists_of_bind_ok h
  obtain ⟨rfl, rfl⟩ := Prod.mk.inj (Except.ok.inj hrest)
  have hrows := Tables.write_ok hu
  exact ⟨by rw [hrows], by rw [hrows], by rw [hrows], by rw [hrows], rfl⟩

theorem setDefault_ok {builtins : List BuiltinService} {serviceUrl appId : String}
    (h : setDefault builtins serviceUrl appId t = .ok t') :
    t'.apps = t.apps ∧ t'.providers = t.providers ∧ t'.permissions = t.permissions ∧
      ∃ chosen, t'.defaults = t.defaults.filter (·.serviceUrl ≠ serviceUrl) ++ chosen ∧
        (chosen = [] ∨ chosen = [⟨serviceUrl, appId⟩] ∧ ∃ v, Offers t serviceUrl appId v) := by
  unfold setDefault at h
  split at h
  · split at h
    · cases h
    · have hrows := Tables.write_ok h
      exact ⟨by rw [hrows], by rw [hrows], by rw [hrows], [], by rw [hrows]; simp, Or.inl rfl⟩
  · split at h
    · rename_i hany
      have hrows := Tables.write_ok h
      refine ⟨by rw [hrows], by rw [hrows], by rw [hrows], [⟨serviceUrl, appId⟩], by rw [hrows],
        Or.inr ⟨rfl, ?_⟩⟩
      obtain ⟨r, hr, hmatch⟩ := List.any_eq_true.mp hany
      obtain ⟨hurl, hid⟩ : r.serviceUrl = serviceUrl ∧ r.appId = appId := by simpa using hmatch
      exact ⟨r.serviceVersion, r, hr, hurl, hid, rfl⟩
    · cases h

theorem clearDefault_ok {serviceUrl : String} (h : clearDefault serviceUrl t = .ok t') :
    t'.apps = t.apps ∧ t'.providers = t.providers ∧ t'.permissions = t.permissions ∧
      t'.defaults = t.defaults.filter (·.serviceUrl ≠ serviceUrl) := by
  have hrows := Tables.write_ok h
  exact ⟨by rw [hrows], by rw [hrows], by rw [hrows], by rw [hrows]⟩

/-! ## Operations on permissions -/

/-- The tables behind the default providers are the same. -/
structure SameServices (t t' : Tables) : Prop where
  apps : t'.apps = t.apps
  providers : t'.providers = t.providers
  defaults : t'.defaults = t.defaults

theorem SameServices.refl (t : Tables) : SameServices t t := ⟨rfl, rfl, rfl⟩

theorem SameServices.trans {t u v : Tables} (h : SameServices t u) (h' : SameServices u v) :
    SameServices t v :=
  ⟨h'.apps.trans h.apps, h'.providers.trans h.providers, h'.defaults.trans h.defaults⟩

theorem sameServices_of_grant {row : PermissionRow} (h : grantPermissionV2 row t = .ok t') :
    SameServices t t' := by
  obtain ⟨happs, hproviders, hdefaults, -⟩ := grantPermissionV2_ok h
  exact ⟨happs, hproviders, hdefaults⟩

theorem sameServices_of_grantAll {appId : String} {grants : List PermissionGrant}
    (h : grantAll appId grants t = .ok t') : SameServices t t' := by
  unfold grantAll at h
  induction grants generalizing t with
  | nil =>
    obtain rfl := Except.ok.inj h
    exact .refl t
  | cons pg grants ih =>
    rw [List.foldlM_cons] at h
    obtain ⟨u, hu, hrest⟩ := exists_of_bind_ok h
    exact (sameServices_of_grant hu).trans (ih hrest)

theorem grantGlobalScoped_ok {data : OwnerRequest} (h : grantGlobalScoped data t = .ok t') :
    ∃ appId serviceUrl grant, grantPermissionV2 ⟨appId, serviceUrl, grant, .global, ""⟩ t = .ok t' := by
  unfold grantGlobalScoped at h
  split at h
  · exact ⟨_, _, _, h⟩
  · cases h

theorem revokeV2_ok {data : OwnerRequest} {scope : Scope} {providerAppId : Option String}
    (h : revokeV2 data scope providerAppId t = .ok t') :
    ∃ appId serviceUrl grant,
      revokePermissionV2 ⟨appId, serviceUrl, grant, scope, providerAppId.getD ""⟩ t = .ok (t', true) := by
  unfold revokeV2 at h
  split at h
  · obtain ⟨⟨u, revoked⟩, hu, hrest⟩ := exists_of_bind_ok h
    dsimp only at hrest
    split at hrest
    · rename_i hrevoked
      obtain rfl := Except.ok.inj hrest
      exact ⟨_, _, _, hrevoked ▸ hu⟩
    · cases hrest
  · cases h

/-- A provider's grant is scoped to the provider, which has registered the service. -/
theorem grantAppScoped_ok {providerAppId : String} {data : ProviderRequest}
    (h : grantAppScoped providerAppId data t = .ok t') :
    ∃ consumerAppId serviceUrl grant, (∃ v, Offers t serviceUrl providerAppId v) ∧
      grantPermissionV2 ⟨consumerAppId, serviceUrl, grant, .app, providerAppId⟩ t = .ok t' := by
  obtain ⟨consumer, -, hrest⟩ := exists_of_bind_ok h
  split at hrest
  · split at hrest
    · rename_i hany
      obtain ⟨r, hr, hmatch⟩ := List.any_eq_true.mp hany
      obtain ⟨hurl, hid⟩ := (Bool.and_eq_true _ _).mp hmatch
      exact ⟨_, _, _, ⟨r.serviceVersion, r, hr, of_decide_eq_true hurl, of_decide_eq_true hid, rfl⟩,
        hrest⟩
    · cases hrest
  · cases hrest

/-- The operation grants or revokes. -/
def ServiceOp.isPermission : ServiceOp → Bool
  | installGrants .. | approveUpdate .. | grantGlobalScoped .. | revokeV2 .. | grantAppScoped .. => true
  | _ => false

theorem sameServices_of_perform {builtins : List BuiltinService} {op : ServiceOp}
    (hop : op.isPermission = true) (h : perform builtins op t = .ok t') : SameServices t t' := by
  cases op with
  | installGrants appId grants => exact sameServices_of_grantAll h
  | approveUpdate appId consumes previous => exact sameServices_of_grantAll h
  | grantGlobalScoped data =>
    obtain ⟨appId, serviceUrl, grant, hgrant⟩ := grantGlobalScoped_ok h
    exact sameServices_of_grant hgrant
  | revokeV2 data scope providerAppId =>
    obtain ⟨appId, serviceUrl, grant, hrevoke⟩ := revokeV2_ok h
    obtain ⟨happs, hproviders, hdefaults, -⟩ := revokePermissionV2_ok hrevoke
    exact ⟨happs, hproviders, hdefaults⟩
  | grantAppScoped providerAppId data =>
    obtain ⟨consumerAppId, serviceUrl, grant, -, hgrant⟩ := grantAppScoped_ok h
    exact sameServices_of_grant hgrant
  | _ => cases hop

end

/-! ## Executable runs -/

theorem perform_of_toOption {builtins : List BuiltinService} {op : ServiceOp} {t t' : Tables}
    (h : (perform builtins op t).toOption = some t') : perform builtins op t = .ok t' := by
  cases hop : perform builtins op t with
  | error e => simp [hop, Except.toOption] at h
  | ok u =>
    rw [hop] at h
    rw [Option.some.inj h]

theorem runs_of_runAll {ok : Tables → ServiceOp → Prop} [∀ t op, Decidable (ok t op)] {t t' : Tables}
    {ops : List ServiceOp} {builtins : List BuiltinService}
    (h : runAll (fun t op => (perform builtins op t).toOption) ok t ops = some t') :
    Runs builtins ok t t' := by
  have hstep : (fun t op t' => (perform builtins op t).toOption = some t') =
      fun t op t' => perform builtins op t = .ok t' := by
    funext t op t'
    cases perform builtins op t with
    | error e => simp [Except.toOption]
    | ok u => simp [Except.toOption]
  have hrun := reach_of_run h
  rwa [hstep] at hrun

end OpenHost.Services

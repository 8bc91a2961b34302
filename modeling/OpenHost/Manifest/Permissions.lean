import OpenHost.Manifest.Typed
import OpenHost.Services.Operations

/-!
# The permissions that a manifest declares

`core/auth/permissions_v2.py` and the parts of `core/manifest.py` that compare declared permissions with
granted ones.  A permission is a service and a grant; two of them are compared by the JSON text of the
grant, with sorted keys.
-/

namespace OpenHost.Manifest

open Raises
open Services (PermissionRow Scope Tables)
open Toml (Value Table)

variable (lim : Json.Limits)

/-! ## Texts of grants -/

/-- `json.dumps(grant_payload, sort_keys=True)` for what `json.loads` gave. -/
def dumpJson (j : Json.Value) : Result String :=
  match Json.dumpsSorted lim j with
  | some text => .ok (String.ofList text)
  | none => .error .encodingError

/-- `json.dumps(grant_payload, sort_keys=True)` for what a manifest holds. -/
def dumpGrant (g : Value) : Result String :=
  match g.json? with
  | some j => dumpJson lim j
  | none => .error .encodingError

/-- `json.loads(row["grant_payload"])` -/
def loadPayload (payload : String) : Result Json.Value :=
  match Json.loads lim payload.toList with
  | .ok j => .ok j
  | .error .recursion => .error .recursionError
  | .error _ => .error (.valueError "Expecting value")

/-! ## The table -/

/-- `PermissionRecord` -/
structure PermissionRecord where
  consumerAppId : String
  serviceUrl : String
  grant : Json.Value
  scope : Scope
  providerAppId : Option String

/-- A record from its row. -/
def recordOf (row : PermissionRow) : Result PermissionRecord := do
  let grant ← loadPayload lim row.grantPayload
  return ⟨row.consumerAppId, row.serviceUrl, grant, row.scope,
    Services.truthy (some row.providerAppId)⟩

/-- The rows that are listed, in their order. -/
def listedRows (consumerAppId : Option String) (t : Tables) : List PermissionRow :=
  match Services.truthy consumerAppId with
  | some appId => (t.permissions.filter (·.consumerAppId = appId)).mergeSort
      fun a b => decide (a.serviceUrl ≤ b.serviceUrl)
  | none => t.permissions.mergeSort fun a b =>
      decide (toLex (a.consumerAppId, a.serviceUrl) ≤ toLex (b.consumerAppId, b.serviceUrl))

/-- `get_all_permissions_v2` -/
def getAllPermissionsV2 (consumerAppId : Option String) (t : Tables) :
    Result (List PermissionRecord) :=
  (listedRows consumerAppId t).mapM (recordOf lim)

/-- A statement that fails raises `sqlite3.IntegrityError`. -/
def onTables {α : Type} (x : Except Services.ServiceError α) : Result α :=
  x.mapError fun _ => .integrityError

/-- `grant_permission_v2` of a manifest's grant. -/
def grantPermissionV2 (consumerAppId serviceUrl : String) (grant : Value) (t : Tables) :
    Result Tables := do
  let payload ← dumpGrant lim grant
  onTables (Services.grantPermissionV2 ⟨consumerAppId, serviceUrl, payload, .global, ""⟩ t)

/-- `revoke_permission_v2` of a listed grant. -/
def revokePermissionV2 (r : PermissionRecord) (t : Tables) : Result (Tables × Bool) := do
  let payload ← dumpJson lim r.grant
  onTables (Services.revokePermissionV2
    ⟨r.consumerAppId, r.serviceUrl, payload, r.scope, r.providerAppId.getD ""⟩ t)

/-! ## What is declared -/

/-- `PermissionGrant` -/
structure PermissionGrant where
  serviceUrl : String
  grant : Value

/-- `all_manifest_permissions_v2` -/
def allManifestPermissionsV2 (m : AppManifest) : List PermissionGrant :=
  m.consumesServicesV2.flatMap fun perm => perm.grants.map fun g => ⟨perm.service, g⟩

/-- `_permission_key` of a declared permission. -/
def permissionKey (pg : PermissionGrant) : Result (String × String) := do
  return (pg.serviceUrl, ← dumpGrant lim pg.grant)

/-- `_permission_key` of a granted one. -/
def recordKey (r : PermissionRecord) : Result (String × String) := do
  return (r.serviceUrl, ← dumpJson lim r.grant)

/-- The loop of `manifest_ungranted_permissions_v2`. -/
def collectNew (seen : List (String × String)) : List PermissionGrant → Result (List PermissionGrant)
  | [] => .ok []
  | pg :: rest => do
      let key ← permissionKey lim pg
      if key ∈ seen then collectNew seen rest
      else return pg :: (← collectNew (key :: seen) rest)

/-- `manifest_ungranted_permissions_v2` -/
def manifestUngrantedPermissionsV2 (m : AppManifest) (granted : List PermissionRecord) :
    Result (List PermissionGrant) := do
  let grantedKeys ← granted.mapM (recordKey lim)
  collectNew lim grantedKeys (allManifestPermissionsV2 m)

/-! ## What the functions are about -/

/-- The grant can be written as JSON: it holds no date and no time, and is within the limits. -/
def Dumpable (g : Value) : Prop := ∃ j, g.json? = some j ∧ j.fits lim lim.depth = true

/-- The grants are the same up to the order of keys. -/
def SameGrant (g g' : Value) : Prop :=
  g = g' ∨ ∃ j j', g.json? = some j ∧ g'.json? = some j' ∧ j.sorted = j'.sorted

/-- The permissions are the same. -/
def SamePermission (p q : PermissionGrant) : Prop :=
  p.serviceUrl = q.serviceUrl ∧ SameGrant p.grant q.grant

/-- The payload is the text of this value: it was written by `json.dumps`. -/
def PayloadOf (payload : String) (v : Json.Value) : Prop :=
  v.wellFormed = true ∧ Json.dumpsSorted lim v = some payload.toList

/-- Every payload of the table was written by `json.dumps`. -/
def Stored (t : Tables) : Prop := ∀ row ∈ t.permissions, ∃ v, PayloadOf lim row.grantPayload v

/-- The permission is granted to the app: there is a row for the same grant. -/
def Granted (t : Tables) (appId : String) (p : PermissionGrant) : Prop :=
  ∃ row ∈ t.permissions, row.consumerAppId = appId ∧ row.serviceUrl = p.serviceUrl ∧
    ∃ v j, PayloadOf lim row.grantPayload v ∧ p.grant.json? = some j ∧ v.sorted = j.sorted

variable {lim}

/-! ## Texts identify grants -/

theorem dumpJson_eq_ok_iff {j : Json.Value} {text : String} :
    dumpJson lim j = .ok text ↔ Json.dumpsSorted lim j = some text.toList := by
  unfold dumpJson
  cases h : Json.dumpsSorted lim j with
  | none => simp
  | some text' =>
    simp only [Except.ok.injEq, Option.some.injEq]
    constructor
    · intro htext
      rw [← htext, String.toList_ofList]
    · intro htext
      rw [htext, String.ofList_toList]

theorem dumpGrant_eq_ok_iff {g : Value} {text : String} :
    dumpGrant lim g = .ok text ↔
      ∃ j, g.json? = some j ∧ Json.dumpsSorted lim j = some text.toList := by
  unfold dumpGrant
  cases g.json? with
  | none => simp
  | some j => simp [dumpJson_eq_ok_iff]

/-- What can be written has a text. -/
theorem dumpable_iff {g : Value} : Dumpable lim g ↔ ∃ text, dumpGrant lim g = .ok text := by
  simp only [dumpGrant_eq_ok_iff, Json.dumpsSorted]
  constructor
  · rintro ⟨j, hj, hfits⟩
    exact ⟨String.ofList j.sorted.text, j, hj, by simp [hfits]⟩
  · rintro ⟨text, j, hj, htext⟩
    refine ⟨j, hj, ?_⟩
    by_contra hfits
    simp [hfits] at htext

/-- Two grants have one text exactly when they are the same. -/
theorem sameGrant_iff {g g' : Value} (hg : g.distinctKeys = true) (hg' : g'.distinctKeys = true)
    {text text' : String} (h : dumpGrant lim g = .ok text) (h' : dumpGrant lim g' = .ok text') :
    SameGrant g g' ↔ text = text' := by
  obtain ⟨j, hj, htext⟩ := dumpGrant_eq_ok_iff.mp h
  obtain ⟨j', hj', htext'⟩ := dumpGrant_eq_ok_iff.mp h'
  constructor
  · rintro (rfl | ⟨i, i', hi, hi', hsorted⟩)
    · exact Except.ok.inj (h.symm.trans h')
    · obtain rfl := Option.some.inj (hj.symm.trans hi)
      obtain rfl := Option.some.inj (hj'.symm.trans hi')
      rw [← Json.dumpsSorted_sorted, hsorted, Json.dumpsSorted_sorted, htext'] at htext
      exact (String.toList_inj.mp (Option.some.inj htext)).symm
  · rintro rfl
    exact .inr ⟨j, j', hj, hj', Json.dumpsSorted_inj (Toml.wellFormed_of_json? hg hj)
      (Toml.wellFormed_of_json? hg' hj') htext htext'⟩

/-- A payload is that of a grant exactly when it is its text. -/
theorem payloadOf_iff {g : Value} (hg : g.distinctKeys = true) {text payload : String}
    (h : dumpGrant lim g = .ok text) :
    (∃ v j, PayloadOf lim payload v ∧ g.json? = some j ∧ v.sorted = j.sorted) ↔ payload = text := by
  obtain ⟨j, hj, htext⟩ := dumpGrant_eq_ok_iff.mp h
  constructor
  · rintro ⟨v, j', ⟨hwell, hpayload⟩, hj', hsorted⟩
    obtain rfl := Option.some.inj (hj.symm.trans hj')
    rw [← Json.dumpsSorted_sorted, hsorted, Json.dumpsSorted_sorted, htext] at hpayload
    exact (String.toList_inj.mp (Option.some.inj hpayload)).symm
  · rintro rfl
    exact ⟨j, j, ⟨Toml.wellFormed_of_json? hg hj, htext⟩, hj, rfl⟩

/-! ## What is listed -/

/-- A stored payload is read, and written again as it was. -/
theorem loadPayload_of_payloadOf {payload : String} {v : Json.Value} (h : PayloadOf lim payload v) :
    loadPayload lim payload = .ok v.sorted := by
  rw [loadPayload, Json.loads_dumpsSorted h.1 h.2]

theorem dumpJson_of_payloadOf {payload : String} {v : Json.Value} (h : PayloadOf lim payload v) :
    dumpJson lim v.sorted = .ok payload := by
  rw [dumpJson_eq_ok_iff, Json.dumpsSorted_sorted]
  exact h.2

theorem mem_of_mem_listedRows {consumerAppId : Option String} {t : Tables} {row : PermissionRow}
    (h : row ∈ listedRows consumerAppId t) : row ∈ t.permissions := by
  unfold listedRows at h
  split at h
  · exact (List.mem_filter.mp (List.mem_mergeSort.mp h)).1
  · exact List.mem_mergeSort.mp h

theorem mem_listedRows {appId : String} (hid : appId ≠ "") {t : Tables} {row : PermissionRow} :
    row ∈ listedRows (some appId) t ↔ row ∈ t.permissions ∧ row.consumerAppId = appId := by
  have htruthy : Services.truthy (some appId) = some appId := by simp [Services.truthy, hid]
  simp [listedRows, htruthy]

/-- The rows of an app are listed for it. -/
theorem mem_listedRows_of_consumer {t : Tables} {row : PermissionRow} (h : row ∈ t.permissions) :
    row ∈ listedRows (some row.consumerAppId) t := by
  by_cases hid : row.consumerAppId = ""
  · simp [listedRows, Services.truthy, Option.filter, hid, h]
  · exact (mem_listedRows hid).mpr ⟨h, rfl⟩

theorem payloads_of_stored {t : Tables} (ht : Stored lim t) (consumerAppId : Option String) :
    ∀ row ∈ listedRows consumerAppId t, ∃ v, PayloadOf lim row.grantPayload v := fun row hrow =>
  ht row (mem_of_mem_listedRows hrow)

/-- A row whose payload was stored gives a record, and the record gives its payload again. -/
theorem exists_recordOf {row : PermissionRow} (h : ∃ v, PayloadOf lim row.grantPayload v) :
    ∃ r, recordOf lim row = .ok r ∧ r.consumerAppId = row.consumerAppId ∧
      r.serviceUrl = row.serviceUrl ∧ r.scope = row.scope ∧
      r.providerAppId.getD "" = row.providerAppId ∧ dumpJson lim r.grant = .ok row.grantPayload := by
  obtain ⟨v, hv⟩ := h
  refine ⟨⟨row.consumerAppId, row.serviceUrl, v.sorted, row.scope,
    Services.truthy (some row.providerAppId)⟩, ?_, rfl, rfl, rfl, ?_, dumpJson_of_payloadOf hv⟩
  · rw [recordOf, loadPayload_of_payloadOf hv]
    rfl
  · -- no provider is stored as the empty text
    by_cases hp : row.providerAppId = ""
    · simp [Services.truthy, Option.filter, hp]
    · simp [Services.truthy, Option.filter, hp]

/-- The keys of the records are the services and payloads of the rows. -/
theorem exists_grantedKeys {rows : List PermissionRow}
    (h : ∀ row ∈ rows, ∃ v, PayloadOf lim row.grantPayload v) :
    ∃ granted, rows.mapM (recordOf lim) = .ok granted ∧ granted.mapM (recordKey lim) =
      .ok (rows.map fun row => (row.serviceUrl, row.grantPayload)) := by
  induction rows with
  | nil => exact ⟨[], rfl, rfl⟩
  | cons row rows ih =>
    obtain ⟨granted, hgranted, hkeys⟩ := ih fun row' hrow' => h row' (List.mem_cons_of_mem row hrow')
    obtain ⟨r, hr, -, hservice, -, -, hpayload⟩ := exists_recordOf (h row List.mem_cons_self)
    have hkey : recordKey lim r = .ok (row.serviceUrl, row.grantPayload) := by
      rw [recordKey, hpayload, hservice]
      rfl
    refine ⟨r :: granted, ?_, ?_⟩
    · rw [List.mapM_cons, hr, hgranted]
      rfl
    · rw [List.mapM_cons, hkey, hkeys]
      rfl

/-! ## What is not granted -/

theorem permissionKey_eq_ok_iff {p : PermissionGrant} {k : String × String} :
    permissionKey lim p = .ok k ↔ ∃ text, dumpGrant lim p.grant = .ok text ∧ k = (p.serviceUrl, text) := by
  unfold permissionKey
  rw [bind_eq_ok_iff]
  apply exists_congr
  intro text
  apply and_congr_right
  intro _
  exact ⟨fun h => (Except.ok.inj h).symm, fun h => by rw [h]; rfl⟩

/-- Two permissions have one key exactly when they are the same. -/
theorem samePermission_iff {p q : PermissionGrant} (hp : p.grant.distinctKeys = true)
    (hq : q.grant.distinctKeys = true) {k k' : String × String} (h : permissionKey lim p = .ok k)
    (h' : permissionKey lim q = .ok k') : SamePermission p q ↔ k = k' := by
  obtain ⟨text, htext, rfl⟩ := permissionKey_eq_ok_iff.mp h
  obtain ⟨text', htext', rfl⟩ := permissionKey_eq_ok_iff.mp h'
  rw [SamePermission, sameGrant_iff hp hq htext htext', Prod.mk.injEq]

/-- The loop ends exactly when every grant can be written. -/
theorem exists_collectNew_iff {seen : List (String × String)} {declared : List PermissionGrant} :
    (∃ new, collectNew lim seen declared = .ok new) ↔ ∀ p ∈ declared, Dumpable lim p.grant := by
  induction declared generalizing seen with
  | nil => simp [collectNew]
  | cons p rest ih =>
    rw [List.forall_mem_cons, dumpable_iff]
    constructor
    · rintro ⟨new, hnew⟩
      obtain ⟨k, hk, hnew⟩ := bind_eq_ok_iff.mp hnew
      obtain ⟨text, htext, -⟩ := permissionKey_eq_ok_iff.mp hk
      refine ⟨⟨text, htext⟩, ?_⟩
      split at hnew
      · exact ih.mp ⟨new, hnew⟩
      · obtain ⟨new', hnew', -⟩ := bind_eq_ok_iff.mp hnew
        exact ih.mp ⟨new', hnew'⟩
    · rintro ⟨⟨text, htext⟩, hrest⟩
      have hk : permissionKey lim p = .ok (p.serviceUrl, text) :=
        permissionKey_eq_ok_iff.mpr ⟨text, htext, rfl⟩
      rw [collectNew, hk]
      by_cases hseen : (p.serviceUrl, text) ∈ seen
      · obtain ⟨new, hnew⟩ := ih.mpr hrest
        exact ⟨new, (if_pos hseen).trans hnew⟩
      · obtain ⟨new, hnew⟩ := ih.mpr hrest
        refine ⟨p :: new, (if_neg hseen).trans ?_⟩
        rw [hnew]
        rfl

/-- What the loop collects: of the permissions whose key was not seen, one for each key. -/
theorem collectNew_spec {seen : List (String × String)} {declared new : List PermissionGrant}
    (h : collectNew lim seen declared = .ok new) :
    (∀ p ∈ new, p ∈ declared ∧ ∃ k, permissionKey lim p = .ok k ∧ k ∉ seen) ∧
    (∀ p ∈ declared, ∃ k, permissionKey lim p = .ok k ∧
      (k ∈ seen ∨ ∃ q ∈ new, permissionKey lim q = .ok k)) ∧
    new.Pairwise fun p q => permissionKey lim p ≠ permissionKey lim q := by
  induction declared generalizing seen new with
  | nil =>
    obtain rfl := Except.ok.inj h
    simp
  | cons p rest ih =>
    obtain ⟨k, hk, h⟩ := bind_eq_ok_iff.mp h
    split at h
    · next hseen =>
      obtain ⟨hsound, hcomplete, honce⟩ := ih h
      refine ⟨fun q hq => ⟨List.mem_cons_of_mem p (hsound q hq).1, (hsound q hq).2⟩, ?_, honce⟩
      rw [List.forall_mem_cons]
      exact ⟨⟨k, hk, .inl hseen⟩, hcomplete⟩
    · next hseen =>
      obtain ⟨new', hnew', hnew⟩ := bind_eq_ok_iff.mp h
      obtain rfl := Except.ok.inj hnew
      obtain ⟨hsound, hcomplete, honce⟩ := ih hnew'
      refine ⟨?_, ?_, ?_⟩
      · rw [List.forall_mem_cons]
        refine ⟨⟨List.mem_cons_self, k, hk, hseen⟩, fun q hq => ?_⟩
        obtain ⟨hmem, k', hk', hnot⟩ := hsound q hq
        exact ⟨List.mem_cons_of_mem p hmem, k', hk', fun hin => hnot (List.mem_cons_of_mem k hin)⟩
      · rw [List.forall_mem_cons]
        refine ⟨⟨k, hk, .inr ⟨p, List.mem_cons_self, hk⟩⟩, fun q hq => ?_⟩
        obtain ⟨k', hk', hin | ⟨r, hr, hkr⟩⟩ := hcomplete q hq
        · rcases List.mem_cons.mp hin with rfl | hin
          · exact ⟨k', hk', .inr ⟨p, List.mem_cons_self, hk⟩⟩
          · exact ⟨k', hk', .inl hin⟩
        · exact ⟨k', hk', .inr ⟨r, List.mem_cons_of_mem p hr, hkr⟩⟩
      · refine List.pairwise_cons.mpr ⟨fun q hq heq => ?_, honce⟩
        -- the key of the first one is among those that were seen later on
        obtain ⟨-, k', hk', hnot⟩ := hsound q hq
        rw [hk, hk'] at heq
        exact hnot (by rw [← Except.ok.inj heq]; exact List.mem_cons_self)

/-! ## The grants of a manifest have no key twice -/

variable {rt : Runtime}

theorem buildManifest_consumes {rawText : String} {s : Sections} {m : AppManifest}
    (h : buildManifest rt rawText s = .ok m) :
    parseServicesV2Consumes rt s.data = .ok m.consumesServicesV2 := by
  unfold buildManifest at h
  simp only [bind_eq_ok_iff] at h
  obtain ⟨_, _, _, _, _, _, _, _, _, _, _, _, _, _, _, _, _, _, consumes, hconsumes, hm⟩ := h
  rw [← Except.ok.inj hm, hconsumes]

theorem servicesV2_distinctKeys {data : Table} (hdata : (Value.table data).distinctKeys = true)
    {key : String} {v : Value} (h : servicesV2 data key = .ok v) : v.distinctKeys = true := by
  unfold servicesV2 at h
  simp only [bind_eq_ok_iff, Toml.getsFrom_eq_ok_iff] at h
  obtain ⟨services, hservices, v2, hv2, hv⟩ := h
  have hs : (Value.table services).distinctKeys = true := by
    rw [← hservices]
    exact Toml.Table.getD_distinctKeys hdata "services" rfl
  have h2 : (Value.table v2).distinctKeys = true := by
    rw [← hv2]
    exact Toml.Table.getD_distinctKeys hs "v2" rfl
  rw [← Except.ok.inj hv]
  exact Toml.Table.getD_distinctKeys h2 key rfl

/-- The grants of the consumed services have no key twice. -/
def GrantsDistinct (perms : List ServiceConsumes) : Prop :=
  ∀ c ∈ perms, ∀ g ∈ c.grants, g.distinctKeys = true

theorem parseConsumed_distinct {perms perms' : List ServiceConsumes} {entry : Value}
    (hentry : entry.distinctKeys = true) (hperms : GrantsDistinct perms)
    (h : parseConsumed rt perms entry = .ok perms') : GrantsDistinct perms' := by
  unfold parseConsumed at h
  simp only [bind_eq_ok_iff] at h
  obtain ⟨t, ht, _, _, _, _, _, _, grants, hgrants, _, _, _, _, _, _, _, _, _, _, _, _, hperms'⟩ := h
  obtain rfl := Except.ok.inj hperms'
  have htable : entry = .table t := table?_eq_some_iff.mp (orRaise_eq_ok_iff.mp ht)
  have hlist := array?_eq_some_iff.mp (orRaise_eq_ok_iff.mp hgrants)
  have hdistinct : (Value.array grants).distinctKeys = true := by
    rw [← hlist]
    rw [htable] at hentry
    exact Toml.Table.getD_distinctKeys hentry "grants" rfl
  intro c hc
  rcases List.mem_append.mp hc with hc | hc
  · exact hperms c hc
  · obtain rfl := List.mem_singleton.mp hc
    exact Toml.itemsDistinctKeys_iff.mp hdistinct

/-- The declared grants of a manifest that was parsed have no key twice. -/
theorem declared_distinctKeys {rawText : String} {m : AppManifest}
    (h : parseManifestFromString rt rawText = .ok m) :
    ∀ p ∈ allManifestPermissionsV2 m, p.grant.distinctKeys = true := by
  obtain ⟨s, hs, hm⟩ := bind_eq_ok_iff.mp h
  have hdata := rt.distinctKeys rawText s.data (parseSections_data hs)
  obtain ⟨consumes, hconsumes, hperms⟩ := bind_eq_ok_iff.mp (buildManifest_consumes hm)
  obtain ⟨items, hitems, hloop⟩ := bind_eq_ok_iff.mp hperms
  have hentries := Toml.distinctKeys_of_iterate (servicesV2_distinctKeys hdata hconsumes) hitems
  have hall : GrantsDistinct m.consumesServicesV2 := foldlM_ok_invariant
    (fun perms entry perms' hmem hperms h => parseConsumed_distinct (hentries entry hmem) hperms h)
    (by simp [GrantsDistinct]) hloop
  intro p hp
  obtain ⟨c, hc, hp⟩ := List.mem_flatMap.mp hp
  obtain ⟨g, hg, rfl⟩ := List.mem_map.mp hp
  exact hall c hc g hg

end OpenHost.Manifest

import OpenHost.Manifest.Grants

/-!
# The review of an update

`_gate_update_review`: before an update is applied its manifest is compared with the one that is
deployed.  New permissions and changed settings have to be approved.
-/

namespace OpenHost.Manifest

open Raises
open Services (PermissionRow Tables)
open Toml (Value Table)

/-! ## Settings -/

/-- `SettingLabel` -/
structure SettingLabel where
  group : String
  text : String
  deriving DecidableEq, Repr

/-- The value of a setting: a TOML value, `None`, or a list of objects, each as `attr.asdict` has
it. -/
inductive Setting where
  | value (v : Value)
  | absent
  | objects (l : List Table)

/-- A field of `AppManifest` that is annotated with a label. -/
structure SettingField where
  label : SettingLabel
  get : AppManifest → Setting

/-- The number as a TOML value. -/
def PyInt.value : PyInt → Value
  | .int n => .int n
  | .bool b => .bool b

/-- `attr.asdict(port_mapping)` -/
def DeclaredPort.asdict (pm : DeclaredPort) : Table :=
  [("label", .str pm.label), ("container_port", pm.containerPort.value),
    ("host_port", pm.hostPort.value)]

/-- `attr.asdict(link)` -/
def linkAsdict (link : Install.AppLink) : Table := [("name", .str link.name), ("path", .str link.path)]

/-- `attr.asdict(provides)` -/
def providesAsdict (p : Install.ServiceProvides) : Table :=
  [("service", .str p.service), ("version", .str p.version), ("endpoint", .str p.endpoint)]

/-- A list of texts. -/
def texts (l : List String) : Setting := .value (.array (l.map Value.str))

/-- A field that can be `None`. -/
def optional (v : Option Value) : Setting := v.elim .absent .value

/-- `manifest_setting_labels`, in the order of the fields. -/
def manifestSettingLabels : List SettingField :=
  [⟨⟨"App", "Version"⟩, fun m => .value m.version⟩,
    ⟨⟨"App", "Description"⟩, fun m => .value m.description⟩,
    ⟨⟨"App", "Authors"⟩, fun m => .value m.authors⟩,
    ⟨⟨"App", "Runtime type"⟩, fun m => .value m.runtimeType⟩,
    ⟨⟨"Container", "Image"⟩, fun m => .value m.containerImage⟩,
    ⟨⟨"Container", "Container port"⟩, fun m => .value m.containerPort⟩,
    ⟨⟨"Container", "Command"⟩, fun m => optional m.containerCommand⟩,
    ⟨⟨"Ports", "Port mappings"⟩, fun m => .objects (m.portMappings.map DeclaredPort.asdict)⟩,
    ⟨⟨"Container", "Linux capabilities"⟩, fun m => texts m.capabilities⟩,
    ⟨⟨"Container", "Devices"⟩, fun m => texts m.devices⟩,
    ⟨⟨"Container", "Shared memory (MB)"⟩, fun m => .value m.shmMb.value⟩,
    ⟨⟨"Container", "Host networking"⟩, fun m => .value m.networkHost⟩,
    ⟨⟨"Routing", "Health check"⟩, fun m => optional m.healthCheck⟩,
    ⟨⟨"Routing", "Public paths"⟩, fun m => .value m.publicPaths⟩,
    ⟨⟨"Routing", "Links"⟩, fun m => .objects (m.links.map linkAsdict)⟩,
    ⟨⟨"Resources", "Memory (MB)"⟩, fun m => .value m.memoryMb⟩,
    ⟨⟨"Resources", "Build memory (MB)"⟩, fun m => optional m.buildMemoryMb⟩,
    ⟨⟨"Resources", "CPU cores"⟩, fun m => .value (.float m.cpuCores)⟩,
    ⟨⟨"Resources", "GPU"⟩, fun m => .value m.gpu⟩,
    ⟨⟨"Data", "SQLite databases"⟩, fun m => .value m.sqliteDbs⟩,
    ⟨⟨"Data", "Permanent data"⟩, fun m => .value m.appData⟩,
    ⟨⟨"Data", "Temporary data"⟩, fun m => .value m.appTempData⟩,
    ⟨⟨"Data", "Archive data"⟩, fun m => .value m.appArchive⟩,
    ⟨⟨"Data", "Access all app data"⟩, fun m => .value m.accessAllAppData⟩,
    ⟨⟨"Services", "Services provided"⟩, fun m => .objects (m.providesServicesV2.map providesAsdict)⟩,
    ⟨⟨"App", "Hidden"⟩, fun m => .value m.hidden⟩]

section

variable (lim : Json.Limits) (rt : Runtime)

/-- `old == new` -/
def Setting.eq : Setting → Setting → Bool
  | value v, value w => v.eq rt.intEqFloat w
  | absent, absent => true
  | objects l, objects l' =>
    Toml.itemsEq rt.intEqFloat (l.map Value.table) (l'.map Value.table)
  | _, _ => false

mutual

/-- `_render_setting_value` of a TOML value. -/
def renderValue : Value → Result String
  | .bool b => .ok (if b then "yes" else "no")
  | .array [] => .ok "(none)"
  | .array (v :: vs) => do return ", ".intercalate (← renderItems (v :: vs))
  | v => rt.str v

def renderItems : List Value → Result (List String)
  | [] => .ok []
  | v :: vs => do
    let text ← renderValue v
    let rest ← renderItems vs
    return text :: rest

end

/-- `_render_setting_value` -/
def renderSettingValue (s : Setting) : Result String :=
  match s with
  | .value v => renderValue rt v
  | .absent => .ok "None"
  | .objects l =>
    if l.isEmpty then .ok "(none)"
    else do return ", ".intercalate (← l.mapM fun t => dumpGrant lim (.table t))

/-- `SettingChange` -/
structure SettingChange where
  group : String
  label : String
  old : String
  new : String
  deriving DecidableEq, Repr

/-- The loop of `manifest_settings_changes`. -/
def settingsChanges (old new : AppManifest) : List SettingField → Result (List SettingChange)
  | [] => .ok []
  | field :: rest =>
    if (field.get old).eq rt (field.get new) then settingsChanges old new rest
    else do
      let oldText ← renderSettingValue lim rt (field.get old)
      let newText ← renderSettingValue lim rt (field.get new)
      let changes ← settingsChanges old new rest
      return ⟨field.label.group, field.label.text, oldText, newText⟩ :: changes

/-! ## The gate -/

/-- The manifest that is deployed, if there is one that can be read. -/
def previousManifest (raw : Option String) : Result (Option AppManifest) :=
  match Services.truthy raw with
  | none => .ok none
  | some text =>
    match parseManifestFromString rt text with
    | .ok m => .ok (some m)
    | .error e => if e.isValueError then .ok none else .error e

/-- `manifest_settings_changes` -/
def manifestSettingsChanges (m : AppManifest) (previousManifestRaw : Option String) :
    Result (List SettingChange) := do
  match ← previousManifest rt previousManifestRaw with
  | none => return []
  | some previous => settingsChanges lim rt previous m manifestSettingLabels

/-- One more permission, unless its key is among these. -/
def addUnless (keys : List (String × String)) (key : String × String) (pg : PermissionGrant)
    (rest : List PermissionGrant) : List PermissionGrant :=
  if keys.contains key then rest else pg :: rest

/-- The permissions whose keys are not among these. -/
def withoutKeys (keys : List (String × String)) : List PermissionGrant → Result (List PermissionGrant)
  | [] => .ok []
  | pg :: rest => do
    let key ← permissionKey lim pg
    let rest ← withoutKeys keys rest
    return addUnless keys key pg rest

/-- `manifest_newly_declared_permissions_v2` -/
def manifestNewlyDeclaredPermissionsV2 (m : AppManifest) (granted : List PermissionRecord)
    (previousManifestRaw : Option String) : Result (List PermissionGrant) := do
  let ungranted ← manifestUngrantedPermissionsV2 lim m granted
  match ← previousManifest rt previousManifestRaw with
  | none => return ungranted
  | some previous => do
    let previouslyDeclared ← (allManifestPermissionsV2 previous).mapM (permissionKey lim)
    withoutKeys lim previouslyDeclared ungranted

/-- `UpdateReviewRequiredResponse` -/
structure UpdateReviewRequired where
  settingsChanged : List SettingChange
  /-- With the short name of the service. -/
  permissionsRequired : List (PermissionGrant × String)

/-- `shortname_by_service.get(service_url, "")`: the last one stands. -/
def shortnameByService (m : AppManifest) (serviceUrl : String) : String :=
  ((m.consumesServicesV2.reverse.find? (·.service = serviceUrl)).map (·.shortname)).getD ""

/-- `_gate_update_review`: what `parse_manifest` does with the repository, if there is one. -/
def gateUpdateReview (appId : String) (repo : Option (Result AppManifest))
    (approveNewPermissions : Bool) (previousManifestRaw : Option String) (t : Tables) :
    Result (Tables × Option UpdateReviewRequired) :=
  match repo with
  | none => .ok (t, none)
  | some (.error e) => if e.isValueError then .ok (t, none) else .error e
  | some (.ok m) => do
    let granted ← getAllPermissionsV2 lim (some appId) t
    let newPerms ← manifestNewlyDeclaredPermissionsV2 lim rt m granted previousManifestRaw
    let changes ← manifestSettingsChanges lim rt m previousManifestRaw
    if newPerms.isEmpty && changes.isEmpty then return (t, none)
    else if approveNewPermissions then return (← grantAll lim appId newPerms t, none)
    else return (t, some ⟨changes, newPerms.map fun pg =>
      (pg, shortnameByService m pg.serviceUrl)⟩)

/-! ## What the gate is for -/

/-- Every reviewed setting is equal in both manifests: all fields but the name, the consumed services
and the text. -/
@[mk_iff]
structure SameSettings (old new : AppManifest) : Prop where
  version : old.version.eq rt.intEqFloat new.version = true
  description : old.description.eq rt.intEqFloat new.description = true
  authors : old.authors.eq rt.intEqFloat new.authors = true
  runtimeType : old.runtimeType.eq rt.intEqFloat new.runtimeType = true
  containerImage : old.containerImage.eq rt.intEqFloat new.containerImage = true
  containerPort : old.containerPort.eq rt.intEqFloat new.containerPort = true
  containerCommand : (optional old.containerCommand).eq rt (optional new.containerCommand) = true
  portMappings : (old.portMappings.map fun pm =>
      (pm.label, pm.containerPort.toInt, pm.hostPort.toInt)) =
    new.portMappings.map fun pm => (pm.label, pm.containerPort.toInt, pm.hostPort.toInt)
  capabilities : old.capabilities = new.capabilities
  devices : old.devices = new.devices
  shmMb : old.shmMb.toInt = new.shmMb.toInt
  networkHost : old.networkHost.eq rt.intEqFloat new.networkHost = true
  healthCheck : (optional old.healthCheck).eq rt (optional new.healthCheck) = true
  publicPaths : old.publicPaths.eq rt.intEqFloat new.publicPaths = true
  links : old.links = new.links
  memoryMb : old.memoryMb.eq rt.intEqFloat new.memoryMb = true
  buildMemoryMb : (optional old.buildMemoryMb).eq rt (optional new.buildMemoryMb) = true
  cpuCores : old.cpuCores.eq new.cpuCores = true
  gpu : old.gpu.eq rt.intEqFloat new.gpu = true
  sqliteDbs : old.sqliteDbs.eq rt.intEqFloat new.sqliteDbs = true
  appData : old.appData.eq rt.intEqFloat new.appData = true
  appTempData : old.appTempData.eq rt.intEqFloat new.appTempData = true
  appArchive : old.appArchive.eq rt.intEqFloat new.appArchive = true
  accessAllAppData : old.accessAllAppData.eq rt.intEqFloat new.accessAllAppData = true
  providesServicesV2 : old.providesServicesV2 = new.providesServicesV2
  hidden : old.hidden.eq rt.intEqFloat new.hidden = true

/-- The text of the deployed manifest, and what it is: absent, valid, or rejected. -/
inductive Previous : Option String → Option AppManifest → Prop
  | absent : Previous none none
  | empty : Previous (some "") none
  | valid {text : String} {m : AppManifest} (hne : text ≠ "")
    (h : parseManifestFromString rt text = .ok m) : Previous (some text) (some m)
  | rejected {text : String} {e : Exc} (hne : text ≠ "")
    (h : parseManifestFromString rt text = .error e) (he : e.isValueError = true) :
    Previous (some text) none

/-- The owner is asked for exactly these permissions, each once. -/
structure AsksExactly (asked : List PermissionGrant) (Wanted : PermissionGrant → Prop) : Prop where
  sound : ∀ p ∈ asked, Wanted p
  complete : ∀ p, Wanted p → ∃ q ∈ asked, SamePermission q p
  once : asked.Pairwise fun p q => ¬SamePermission p q

/-- What the owner is asked for. -/
def askedBy (review : Option UpdateReviewRequired) : List PermissionGrant :=
  review.elim [] fun r => r.permissionsRequired.map Prod.fst

/-- The answer of the gate is the one that the two manifests and the table call for. -/
structure Reviews (m : AppManifest) (previous : Option AppManifest) (t : Tables) (appId : String)
    (review : Option UpdateReviewRequired) : Prop where
  passes : review = none ↔
    (∀ p ∈ allManifestPermissionsV2 m, Granted lim t appId p ∨
      ∃ old ∈ previous, ∃ q ∈ allManifestPermissionsV2 old, SamePermission q p) ∧
    ∀ old ∈ previous, SameSettings rt old m
  asks : previous = none → AsksExactly (askedBy review) fun p =>
    p ∈ allManifestPermissionsV2 m ∧ ¬Granted lim t appId p

/-- The setting can be shown. -/
def Renderable (s : Setting) : Prop := ∃ text, renderSettingValue lim rt s = .ok text

/-- The grants of both manifests can be written as JSON, and the settings that differ can be shown. -/
structure Reviewable (m : AppManifest) (previous : Option AppManifest) : Prop where
  declared : ∀ p ∈ allManifestPermissionsV2 m, Dumpable lim p.grant
  previouslyDeclared : ∀ old ∈ previous, ∀ p ∈ allManifestPermissionsV2 old, Dumpable lim p.grant
  settings : ∀ old ∈ previous, ∀ field ∈ manifestSettingLabels,
    (field.get old).eq rt (field.get m) = false →
      Renderable lim rt (field.get old) ∧ Renderable lim rt (field.get m)

end

variable {lim : Json.Limits} {rt : Runtime}

/-! ## The labels cover the settings -/

theorem pyInt_eq_iff {f : Int → Toml.FloatRepr → Bool} {n k : PyInt} :
    n.value.eq f k.value = true ↔ n.toInt = k.toInt := by
  cases n <;> cases k <;> simp [PyInt.value, Toml.Value.eq, Value.int?, PyInt.toInt, eq_comm]

theorem texts_eq_iff {l l' : List String} : (texts l).eq rt (texts l') = true ↔ l = l' := by
  have hmap : Toml.itemsEq rt.intEqFloat (l.map Value.str) (l'.map Value.str) = true ↔
      l.map id = l'.map id := Toml.itemsEq_map_iff Value.str id (fun s s' => Toml.str_eq_iff) l l'
  simpa [texts, Setting.eq, Toml.Value.eq] using hmap

/-- Lists of objects are equal when what tells the objects apart is. -/
theorem objects_eq_iff {α β : Type} (asdict : α → Table) (k : α → β)
    (h : ∀ a b, (Value.table (asdict a)).eq rt.intEqFloat (.table (asdict b)) = true ↔ k a = k b)
    (l l' : List α) :
    (Setting.objects (l.map asdict)).eq rt (.objects (l'.map asdict)) = true ↔ l.map k = l'.map k := by
  rw [Setting.eq, List.map_map, List.map_map]
  exact Toml.itemsEq_map_iff (Value.table ∘ asdict) k h l l'

theorem portMappings_eq_iff {l l' : List DeclaredPort} :
    (Setting.objects (l.map DeclaredPort.asdict)).eq rt (.objects (l'.map DeclaredPort.asdict)) = true ↔
      (l.map fun pm => (pm.label, pm.containerPort.toInt, pm.hostPort.toInt)) =
        l'.map fun pm => (pm.label, pm.containerPort.toInt, pm.hostPort.toInt) := by
  refine objects_eq_iff DeclaredPort.asdict _ (fun pm pm' => ?_) l l'
  simp [DeclaredPort.asdict, Toml.table_eq, Toml.entriesEq, Toml.Table.get?, List.lookup_cons,
    Toml.str_eq_iff, pyInt_eq_iff]

theorem links_eq_iff {l l' : List Install.AppLink} :
    (Setting.objects (l.map linkAsdict)).eq rt (.objects (l'.map linkAsdict)) = true ↔ l = l' := by
  refine (objects_eq_iff linkAsdict id (fun a b => ?_) l l').trans (by simp)
  cases a
  cases b
  simp [linkAsdict, Toml.table_eq, Toml.entriesEq, Toml.Table.get?, List.lookup_cons, Toml.str_eq_iff]

theorem provides_eq_iff {l l' : List Install.ServiceProvides} :
    (Setting.objects (l.map providesAsdict)).eq rt (.objects (l'.map providesAsdict)) = true ↔
      l = l' := by
  refine (objects_eq_iff providesAsdict id (fun a b => ?_) l l').trans (by simp)
  cases a
  cases b
  simp [providesAsdict, Toml.table_eq, Toml.entriesEq, Toml.Table.get?, List.lookup_cons, Toml.str_eq_iff]

/-- The labelled fields are all that is reviewed. -/
theorem sameSettings_iff_labels {old new : AppManifest} :
    SameSettings rt old new ↔
      ∀ field ∈ manifestSettingLabels, (field.get old).eq rt (field.get new) = true := by
  rw [sameSettings_iff]
  simp only [manifestSettingLabels, List.forall_mem_cons, texts_eq_iff, portMappings_eq_iff,
    links_eq_iff, provides_eq_iff]
  simp only [Setting.eq, pyInt_eq_iff, Toml.Value.eq, List.not_mem_nil, false_imp_iff,
    implies_true, and_true]

/-! ## The loops of the gate -/

/-- The changes can be listed exactly when the settings that differ can be shown. -/
theorem exists_settingsChanges_iff {old new : AppManifest} {fields : List SettingField} :
    (∃ changes, settingsChanges lim rt old new fields = .ok changes) ↔
      ∀ field ∈ fields, (field.get old).eq rt (field.get new) = false →
        Renderable lim rt (field.get old) ∧ Renderable lim rt (field.get new) := by
  induction fields with
  | nil => simp [settingsChanges]
  | cons field rest ih =>
    rw [List.forall_mem_cons, settingsChanges, ← ih]
    cases heq : (field.get old).eq rt (field.get new) with
    | true => simp
    | false =>
      simp only [Bool.false_eq_true, if_false, bind_eq_ok_iff, Renderable, true_imp_iff]
      constructor
      · rintro ⟨changes, oldText, hold, newText, hnew, rest', hrest, -⟩
        exact ⟨⟨⟨oldText, hold⟩, newText, hnew⟩, rest', hrest⟩
      · rintro ⟨⟨⟨oldText, hold⟩, newText, hnew⟩, rest', hrest⟩
        exact ⟨_, oldText, hold, newText, hnew, rest', hrest, rfl⟩

theorem settingsChanges_eq_nil_iff {old new : AppManifest} {fields : List SettingField}
    {changes : List SettingChange} (h : settingsChanges lim rt old new fields = .ok changes) :
    changes = [] ↔ ∀ field ∈ fields, (field.get old).eq rt (field.get new) = true := by
  induction fields generalizing changes with
  | nil =>
    obtain rfl := Except.ok.inj h
    simp
  | cons field rest ih =>
    rw [settingsChanges] at h
    rw [List.forall_mem_cons]
    cases heq : (field.get old).eq rt (field.get new) with
    | true =>
      rw [heq, if_pos rfl] at h
      rw [ih h, and_iff_right rfl]
    | false =>
      rw [heq, if_neg Bool.false_ne_true] at h
      simp only [bind_eq_ok_iff] at h
      obtain ⟨_, _, _, _, _, _, hchanges⟩ := h
      simp [← Except.ok.inj hchanges]

theorem exists_withoutKeys {keys : List (String × String)} {l : List PermissionGrant}
    (h : ∀ p ∈ l, ∃ k, permissionKey lim p = .ok k) : ∃ l', withoutKeys lim keys l = .ok l' := by
  induction l with
  | nil => exact ⟨[], rfl⟩
  | cons p rest ih =>
    rw [List.forall_mem_cons] at h
    obtain ⟨⟨k, hk⟩, hrest⟩ := h
    obtain ⟨rest', hrest'⟩ := ih hrest
    exact ⟨_, bind_eq_ok_iff.mpr ⟨k, hk, bind_eq_ok_iff.mpr ⟨rest', hrest', rfl⟩⟩⟩

theorem mem_withoutKeys {keys : List (String × String)} {l l' : List PermissionGrant}
    (h : withoutKeys lim keys l = .ok l') {p : PermissionGrant} {k : String × String}
    (hk : permissionKey lim p = .ok k) : p ∈ l' ↔ p ∈ l ∧ k ∉ keys := by
  induction l generalizing l' with
  | nil =>
    obtain rfl := Except.ok.inj h
    simp
  | cons q rest ih =>
    simp only [withoutKeys, bind_eq_ok_iff] at h
    obtain ⟨k', hk', rest', hrest, heq⟩ := h
    rw [← Except.ok.inj heq, addUnless]
    simp only [List.contains_iff_mem]
    split
    · next hin =>
      rw [ih hrest, List.mem_cons]
      constructor
      · exact fun h => ⟨.inr h.1, h.2⟩
      · rintro ⟨rfl | hp, hnot⟩
        · exact absurd (Except.ok.inj (hk.symm.trans hk') ▸ hin) hnot
        · exact ⟨hp, hnot⟩
    · next hout =>
      rw [List.mem_cons, List.mem_cons, ih hrest]
      constructor
      · rintro (rfl | ⟨hp, hnot⟩)
        · exact ⟨.inl rfl, Except.ok.inj (hk'.symm.trans hk) ▸ hout⟩
        · exact ⟨.inr hp, hnot⟩
      · rintro ⟨rfl | hp, hnot⟩
        · exact .inl rfl
        · exact .inr ⟨hp, hnot⟩

/-! ## The deployed manifest -/

theorem previousManifest_of_previous {raw : Option String} {previous : Option AppManifest}
    (h : Previous rt raw previous) : previousManifest rt raw = .ok previous := by
  cases h with
  | absent => rfl
  | empty => rfl
  | valid hne hparse => simp [previousManifest, Services.truthy, Option.filter, hne, hparse]
  | rejected hne hparse he =>
    simp [previousManifest, Services.truthy, Option.filter, hne, hparse, he]

theorem previous_distinctKeys {raw : Option String} {old : AppManifest}
    (h : Previous rt raw (some old)) :
    ∀ p ∈ allManifestPermissionsV2 old, p.grant.distinctKeys = true := by
  cases h with
  | valid hne hparse => exact declared_distinctKeys hparse

/-! ## What is granted, and what was declared -/

theorem key_mem_listed_iff {t : Tables} {appId : String} (hid : appId ≠ "") {p : PermissionGrant}
    (hp : p.grant.distinctKeys = true) {k : String × String} (hk : permissionKey lim p = .ok k) :
    k ∈ (listedRows (some appId) t).map (fun row => (row.serviceUrl, row.grantPayload)) ↔
      Granted lim t appId p := by
  obtain ⟨text, htext, rfl⟩ := permissionKey_eq_ok_iff.mp hk
  simp only [List.mem_map, mem_listedRows hid, Granted, Prod.mk.injEq, payloadOf_iff hp htext,
    and_assoc]

theorem key_mem_declared_iff {old : AppManifest}
    (hold : ∀ q ∈ allManifestPermissionsV2 old, q.grant.distinctKeys = true)
    {keys : List (String × String)}
    (hkeys : (allManifestPermissionsV2 old).mapM (permissionKey lim) = .ok keys)
    {p : PermissionGrant} (hp : p.grant.distinctKeys = true) {k : String × String}
    (hk : permissionKey lim p = .ok k) :
    k ∈ keys ↔ ∃ q ∈ allManifestPermissionsV2 old, SamePermission q p := by
  constructor
  · intro hin
    obtain ⟨q, hq, hkq⟩ := exists_of_mem_mapM hkeys hin
    exact ⟨q, hq, (samePermission_iff (hold q hq) hp hkq hk).mpr rfl⟩
  · rintro ⟨q, hq, hsame⟩
    obtain ⟨k', hk', hkq⟩ := exists_mem_of_mapM hkeys hq
    rwa [← (samePermission_iff (hold q hq) hp hkq hk).mp hsame]

theorem dumpable_iff_key {p : PermissionGrant} :
    Dumpable lim p.grant ↔ ∃ k, permissionKey lim p = .ok k := by
  simp only [dumpable_iff, permissionKey_eq_ok_iff]
  exact ⟨fun ⟨text, htext⟩ => ⟨_, text, htext, rfl⟩, fun ⟨_, text, htext, _⟩ => ⟨text, htext⟩⟩

/-- What is newly declared: of the permissions that are neither granted nor declared before, one for
each. -/
structure NewlyDeclared (lim : Json.Limits) (m : AppManifest) (previous : Option AppManifest) (t : Tables)
    (appId : String) (new : List PermissionGrant) : Prop where
  sound : ∀ p ∈ new, p ∈ allManifestPermissionsV2 m ∧ ¬Granted lim t appId p
  eq_nil_iff : new = [] ↔ ∀ p ∈ allManifestPermissionsV2 m, Granted lim t appId p ∨
    ∃ old ∈ previous, ∃ q ∈ allManifestPermissionsV2 old, SamePermission q p
  complete : previous = none → ∀ p ∈ allManifestPermissionsV2 m, ¬Granted lim t appId p →
    ∃ q ∈ new, SamePermission q p
  once : new.Pairwise fun p q => ¬SamePermission p q

theorem withoutKeys_sublist {keys : List (String × String)} {l l' : List PermissionGrant}
    (h : withoutKeys lim keys l = .ok l') : l'.Sublist l := by
  induction l generalizing l' with
  | nil =>
    obtain rfl := Except.ok.inj h
    exact .slnil
  | cons p rest ih =>
    simp only [withoutKeys, bind_eq_ok_iff] at h
    obtain ⟨_, _, rest', hrest, heq⟩ := h
    rw [← Except.ok.inj heq, addUnless]
    split
    · exact (ih hrest).cons p
    · exact (ih hrest).cons_cons p

theorem withoutKeys_nil {l : List PermissionGrant} (h : ∀ p ∈ l, ∃ k, permissionKey lim p = .ok k) :
    withoutKeys lim [] l = .ok l := by
  induction l with
  | nil => rfl
  | cons p rest ih =>
    rw [List.forall_mem_cons] at h
    obtain ⟨⟨k, hk⟩, hrest⟩ := h
    rw [withoutKeys, hk, ih hrest]
    rfl

section

variable {m : AppManifest} {previous : Option AppManifest} {t : Tables} {appId : String}

/-- What the loops leave is what is newly declared. -/
theorem newlyDeclared_of_loops
    (hm : ∀ p ∈ allManifestPermissionsV2 m, p.grant.distinctKeys = true)
    {grantedKeys oldKeys : List (String × String)}
    (hgranted : ∀ p k, p.grant.distinctKeys = true → permissionKey lim p = .ok k →
      (k ∈ grantedKeys ↔ Granted lim t appId p))
    (hold : ∀ p k, p.grant.distinctKeys = true → permissionKey lim p = .ok k →
      (k ∈ oldKeys ↔ ∃ old ∈ previous, ∃ q ∈ allManifestPermissionsV2 old, SamePermission q p))
    (hnone : previous = none → oldKeys = [])
    {ungranted new : List PermissionGrant}
    (hungranted : collectNew lim grantedKeys (allManifestPermissionsV2 m) = .ok ungranted)
    (hnew : withoutKeys lim oldKeys ungranted = .ok new) :
    NewlyDeclared lim m previous t appId new := by
  obtain ⟨hsound, hcomplete, honce⟩ := collectNew_spec hungranted
  have hsub := withoutKeys_sublist hnew
  have hungrantedSound : ∀ p ∈ ungranted, p ∈ allManifestPermissionsV2 m ∧ ¬Granted lim t appId p := by
    intro p hp
    obtain ⟨hin, k, hk, hnot⟩ := hsound p hp
    exact ⟨hin, fun h => hnot ((hgranted p k (hm p hin) hk).mpr h)⟩
  refine ⟨fun p hp => hungrantedSound p (hsub.subset hp), ⟨fun hnil p hp => ?_, fun hall => ?_⟩,
    fun hprevious p hp hnot => ?_, ?_⟩
  · -- a permission that is left out has its key among the old ones
    obtain ⟨k, hk, hin | ⟨q, hq, hkq⟩⟩ := hcomplete p hp
    · exact .inl ((hgranted p k (hm p hp) hk).mp hin)
    · refine .inr ((hold p k (hm p hp) hk).mp ?_)
      by_contra hout
      have hmem := (mem_withoutKeys hnew hkq).mpr ⟨hq, hout⟩
      rw [hnil] at hmem
      exact List.not_mem_nil hmem
  · cases new with
    | nil => rfl
    | cons q new =>
      have hq : q ∈ ungranted := hsub.subset List.mem_cons_self
      obtain ⟨hin, k, hk, -⟩ := hsound q hq
      have hout := ((mem_withoutKeys hnew hk).mp List.mem_cons_self).2
      rcases hall q hin with hgr | hdecl
      · exact absurd hgr (hungrantedSound q hq).2
      · exact absurd ((hold q k (hm q hin) hk).mpr hdecl) hout
  · obtain ⟨k, hk, hin | ⟨q, hq, hkq⟩⟩ := hcomplete p hp
    · exact absurd ((hgranted p k (hm p hp) hk).mp hin) hnot
    · refine ⟨q, (mem_withoutKeys hnew hkq).mpr ⟨hq, ?_⟩, ?_⟩
      · rw [hnone hprevious]
        exact List.not_mem_nil
      · exact (samePermission_iff (hm q (hsound q hq).1) (hm p hp) hkq hk).mpr rfl
  · refine (honce.sublist hsub).imp_of_mem fun hp hq hne hsame => hne ?_
    obtain ⟨hin, k, hk, -⟩ := hsound _ (hsub.subset hp)
    obtain ⟨hin', k', hk', -⟩ := hsound _ (hsub.subset hq)
    rw [hk, hk', (samePermission_iff (hm _ hin) (hm _ hin') hk hk').mp hsame]

/-- The new permissions can be listed exactly when the grants of both manifests can be written. -/
theorem exists_newlyDeclared_iff {raw : Option String} (hprevious : Previous rt raw previous)
    {granted : List PermissionRecord} {grantedKeys : List (String × String)}
    (hkeys : granted.mapM (recordKey lim) = .ok grantedKeys) :
    (∃ new, manifestNewlyDeclaredPermissionsV2 lim rt m granted raw = .ok new) ↔
      (∀ p ∈ allManifestPermissionsV2 m, Dumpable lim p.grant) ∧
        ∀ old ∈ previous, ∀ p ∈ allManifestPermissionsV2 old, Dumpable lim p.grant := by
  have hfirst : (∃ ungranted, manifestUngrantedPermissionsV2 lim m granted = .ok ungranted) ↔
      ∀ p ∈ allManifestPermissionsV2 m, Dumpable lim p.grant := by
    rw [manifestUngrantedPermissionsV2, hkeys]
    exact exists_collectNew_iff
  unfold manifestNewlyDeclaredPermissionsV2
  rw [previousManifest_of_previous hprevious, ← hfirst]
  simp only [ok_bind]
  cases previous with
  | none =>
    constructor
    · rintro ⟨new, hnew⟩
      obtain ⟨ungranted, hungranted, -⟩ := bind_eq_ok_iff.mp hnew
      exact ⟨⟨ungranted, hungranted⟩, by simp⟩
    · rintro ⟨⟨ungranted, hungranted⟩, -⟩
      exact ⟨ungranted, bind_eq_ok_iff.mpr ⟨ungranted, hungranted, rfl⟩⟩
  | some old =>
    have hsecond : (∃ keys, (allManifestPermissionsV2 old).mapM (permissionKey lim) = .ok keys) ↔
        ∀ p ∈ allManifestPermissionsV2 old, Dumpable lim p.grant := by
      simp only [exists_mapM_iff, dumpable_iff_key]
    simp only [Option.mem_def, Option.some.injEq, forall_eq', ← hsecond]
    constructor
    · rintro ⟨new, hnew⟩
      obtain ⟨ungranted, hungranted, hnew⟩ := bind_eq_ok_iff.mp hnew
      obtain ⟨keys, hold, -⟩ := bind_eq_ok_iff.mp hnew
      exact ⟨⟨ungranted, hungranted⟩, keys, hold⟩
    · rintro ⟨⟨ungranted, hungranted⟩, keys, hold⟩
      -- what is ungranted has been written once already
      have hdump : ∀ p ∈ ungranted, ∃ k, permissionKey lim p = .ok k := by
        obtain ⟨keys', hkeys', hcollect⟩ := bind_eq_ok_iff.mp hungranted
        intro p hp
        obtain ⟨-, k, hk, -⟩ := (collectNew_spec hcollect).1 p hp
        exact ⟨k, hk⟩
      obtain ⟨new, hnew⟩ : ∃ new, withoutKeys lim keys ungranted = .ok new :=
        exists_withoutKeys hdump
      exact ⟨new, bind_eq_ok_iff.mpr ⟨ungranted, hungranted, bind_eq_ok_iff.mpr ⟨keys, hold, hnew⟩⟩⟩

theorem newlyDeclared_spec (hm : ∀ p ∈ allManifestPermissionsV2 m, p.grant.distinctKeys = true)
    {raw : Option String} (hprevious : Previous rt raw previous)
    (hid : appId ≠ "") {granted : List PermissionRecord}
    (hkeys : granted.mapM (recordKey lim) =
      .ok ((listedRows (some appId) t).map fun row => (row.serviceUrl, row.grantPayload)))
    {new : List PermissionGrant}
    (h : manifestNewlyDeclaredPermissionsV2 lim rt m granted raw = .ok new) :
    NewlyDeclared lim m previous t appId new := by
  unfold manifestNewlyDeclaredPermissionsV2 at h
  rw [previousManifest_of_previous hprevious] at h
  simp only [ok_bind] at h
  obtain ⟨ungranted, hungranted, h⟩ := bind_eq_ok_iff.mp h
  rw [manifestUngrantedPermissionsV2, hkeys] at hungranted
  have hgranted : ∀ p k, p.grant.distinctKeys = true → permissionKey lim p = .ok k →
      (k ∈ (listedRows (some appId) t).map (fun row => (row.serviceUrl, row.grantPayload)) ↔
        Granted lim t appId p) := fun p k hp hk => key_mem_listed_iff hid hp hk
  cases previous with
  | none =>
    obtain rfl := Except.ok.inj h
    have hkept : withoutKeys lim [] ungranted = .ok ungranted := withoutKeys_nil fun p hp => by
      obtain ⟨-, k, hk, -⟩ := (collectNew_spec hungranted).1 p hp
      exact ⟨k, hk⟩
    exact newlyDeclared_of_loops hm hgranted (by simp) (fun _ => rfl) hungranted hkept
  | some old =>
    obtain ⟨keys, hold, hnew⟩ := bind_eq_ok_iff.mp h
    have hdistinct := previous_distinctKeys hprevious
    refine newlyDeclared_of_loops hm hgranted (fun p k hp hk => ?_) (by simp) hungranted hnew
    simpa using key_mem_declared_iff hdistinct hold hp hk

theorem exists_manifestSettingsChanges_iff {raw : Option String} (hprevious : Previous rt raw previous) :
    (∃ changes, manifestSettingsChanges lim rt m raw = .ok changes) ↔
      ∀ old ∈ previous, ∀ field ∈ manifestSettingLabels,
        (field.get old).eq rt (field.get m) = false →
          Renderable lim rt (field.get old) ∧ Renderable lim rt (field.get m) := by
  unfold manifestSettingsChanges
  rw [previousManifest_of_previous hprevious]
  simp only [ok_bind]
  cases previous with
  | none => exact iff_of_true ⟨[], rfl⟩ (by simp)
  | some old => simpa using exists_settingsChanges_iff

theorem manifestSettingsChanges_eq_nil_iff {raw : Option String} (hprevious : Previous rt raw previous)
    {changes : List SettingChange} (h : manifestSettingsChanges lim rt m raw = .ok changes) :
    changes = [] ↔ ∀ old ∈ previous, SameSettings rt old m := by
  unfold manifestSettingsChanges at h
  rw [previousManifest_of_previous hprevious] at h
  simp only [ok_bind] at h
  cases previous with
  | none =>
    obtain rfl := Except.ok.inj h
    simp
  | some old =>
    rw [settingsChanges_eq_nil_iff h, ← sameSettings_iff_labels]
    simp

/-- The gate answers exactly when both of its lists can be made. -/
theorem gateUpdateReview_eq_ok_iff {raw : Option String} {granted : List PermissionRecord}
    (hgranted : getAllPermissionsV2 lim (some appId) t = .ok granted)
    {review : Option UpdateReviewRequired} :
    gateUpdateReview lim rt appId (some (.ok m)) false raw t = .ok (t, review) ↔
      ∃ new, manifestNewlyDeclaredPermissionsV2 lim rt m granted raw = .ok new ∧
      ∃ changes, manifestSettingsChanges lim rt m raw = .ok changes ∧
        review = if new.isEmpty && changes.isEmpty then none
          else some ⟨changes, new.map fun pg => (pg, shortnameByService m pg.serviceUrl)⟩ := by
  simp only [gateUpdateReview, hgranted, ok_bind, bind_eq_ok_iff, Bool.false_eq_true, if_false]
  apply exists_congr
  intro new
  apply and_congr_right
  intro _
  apply exists_congr
  intro changes
  apply and_congr_right
  intro _
  cases new.isEmpty && changes.isEmpty with
  | true => simp [pure, Except.pure, eq_comm]
  | false => simp [pure, Except.pure, eq_comm]

end

/-- The gate answers as it should exactly when the grants of the new and the previous manifest can be
written as JSON, and the settings that differ can be shown. -/
theorem reviews_iff {rawText : String} {m : AppManifest}
    (hm : parseManifestFromString rt rawText = .ok m) {raw : Option String}
    {previous : Option AppManifest} (hprevious : Previous rt raw previous) {t : Tables}
    (ht : Stored lim t) {appId : String} (hid : appId ≠ "") :
    (∃ review, gateUpdateReview lim rt appId (some (parseManifestFromString rt rawText)) false raw t =
      .ok (t, review) ∧ Reviews lim rt m previous t appId review) ↔ Reviewable lim rt m previous := by
  have hdistinct := declared_distinctKeys hm
  obtain ⟨granted, hgranted, hkeys⟩ := exists_grantedKeys (payloads_of_stored ht (some appId))
  simp only [hm, gateUpdateReview_eq_ok_iff hgranted]
  constructor
  · rintro ⟨review, ⟨new, hnew, changes, hchanges, -⟩, -⟩
    obtain ⟨hdeclared, hpreviously⟩ := (exists_newlyDeclared_iff hprevious hkeys).mp ⟨new, hnew⟩
    exact ⟨hdeclared, hpreviously,
      (exists_manifestSettingsChanges_iff hprevious).mp ⟨changes, hchanges⟩⟩
  · intro h
    obtain ⟨new, hnew⟩ := (exists_newlyDeclared_iff hprevious hkeys).mpr
      ⟨h.declared, h.previouslyDeclared⟩
    obtain ⟨changes, hchanges⟩ := (exists_manifestSettingsChanges_iff hprevious).mpr h.settings
    have hspec := newlyDeclared_spec hdistinct hprevious hid hkeys hnew
    have hsettings := manifestSettingsChanges_eq_nil_iff hprevious hchanges
    refine ⟨_, ⟨new, hnew, changes, hchanges, rfl⟩, ?_, fun hnone => ?_⟩
    · rw [← hspec.eq_nil_iff, ← hsettings]
      simp
    · -- without a previous manifest nothing has changed
      have hnil : changes = [] := hsettings.mpr (by simp [hnone])
      have hasked : askedBy (if new.isEmpty && changes.isEmpty then none
          else some ⟨changes, new.map fun pg => (pg, shortnameByService m pg.serviceUrl)⟩) = new := by
        cases new with
        | nil => simp [askedBy, hnil]
        | cons p new => simp [askedBy, Function.comp_def]
      rw [hasked]
      exact ⟨hspec.sound, fun p hp => hspec.complete hnone p hp.1 hp.2, hspec.once⟩

theorem reviews_key : ∃ m, parseManifestFromString keyRuntime keyText = .ok m ∧
    ∃ review, gateUpdateReview Json.defaultLimits keyRuntime "notes1"
        (some (parseManifestFromString keyRuntime keyText)) false none notesTables =
          .ok (notesTables, review) ∧
      Reviews Json.defaultLimits keyRuntime m none notesTables "notes1" review := by
  obtain ⟨m, hm, hdeclared⟩ := exists_parse_key
  refine ⟨m, hm, (reviews_iff hm .absent stored_notesTables (by decide)).mpr ⟨?_, by simp, by simp⟩⟩
  rw [hdeclared]
  exact List.forall_mem_singleton.mpr dumpable_keyGrant

/-- An update that changes nothing, to an app that declares a grant with a date. -/
theorem not_reviews_date : ∃ m, parseManifestFromString dateRuntime dateText = .ok m ∧
    Previous dateRuntime (some dateText) (some m) ∧ Stored Json.defaultLimits notesTables ∧
    ¬∃ review, gateUpdateReview Json.defaultLimits dateRuntime "notes1"
        (some (parseManifestFromString dateRuntime dateText)) false (some dateText) notesTables =
          .ok (notesTables, review) ∧
      Reviews Json.defaultLimits dateRuntime m (some m) notesTables "notes1" review := by
  obtain ⟨m, hm, hdeclared⟩ := exists_parse_date
  have hprevious := Previous.valid (by decide) hm
  refine ⟨m, hm, hprevious, stored_notesTables, ?_⟩
  rintro ⟨review, hreview, -⟩
  obtain ⟨granted, hgranted, hkeys⟩ :=
    exists_grantedKeys (payloads_of_stored stored_notesTables (some "notes1"))
  rw [hm] at hreview
  obtain ⟨new, hnew, -⟩ := (gateUpdateReview_eq_ok_iff hgranted).mp hreview
  have hdump := ((exists_newlyDeclared_iff hprevious hkeys).mp ⟨new, hnew⟩).1
  rw [hdeclared] at hdump
  exact not_dumpable_dateGrant (hdump _ List.mem_cons_self)

end OpenHost.Manifest

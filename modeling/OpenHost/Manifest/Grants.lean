import OpenHost.Manifest.Permissions
import OpenHost.Services.Permissions

/-!
# Granting what a manifest requests

All the permissions that a manifest declares are granted one by one.  When each grant has a JSON text
the table ends up with a row for each of them; a grant without one makes the whole operation fail.
-/

namespace OpenHost.Manifest

open Raises
open Services (PermissionRow Tables)
open Toml (Value)

variable (lim : Json.Limits)

/-- The loop that grants the permissions of an installation, or of an approved update. -/
def grantAll (appId : String) (grants : List PermissionGrant) (t : Tables) : Result Tables :=
  grants.foldlM (fun t pg => grantPermissionV2 lim appId pg.serviceUrl pg.grant t) t

/-- `all_manifest_permissions_v2`, each of them granted. -/
def grantManifest (appId : String) (m : AppManifest) (t : Tables) : Result Tables :=
  grantAll lim appId (allManifestPermissionsV2 m) t

/-- The ungranted permissions that the page of the app shows. -/
def ungrantedOf (appId : String) (m : AppManifest) (t : Tables) : Result (List PermissionGrant) := do
  manifestUngrantedPermissionsV2 lim m (← getAllPermissionsV2 lim (some appId) t)

/-- What is to be true of granting the permissions of a manifest. -/
structure GrantedFrom (appId : String) (m : AppManifest) (t t' : Tables) : Prop where
  succeeds : grantManifest lim appId m t = .ok t'
  nothingLeft : ungrantedOf lim appId m t' = .ok []
  again : grantManifest lim appId m t' = .ok t'
  /-- What is listed can be revoked, which removes its row and nothing else. -/
  revokes : ∃ granted, getAllPermissionsV2 lim (some appId) t' = .ok granted ∧
    ∀ r ∈ granted, ∃ row ∈ t'.permissions, recordOf lim row = .ok r ∧
      ∃ t'', revokePermissionV2 lim r t' = .ok (t'', true) ∧
        t''.toRows = { t'.toRows with permissions := t'.permissions.filter (· ≠ row) }

variable {lim}

/-! ## The loop -/

/-- The row of a permission whose grant has this text. -/
def rowFor (appId : String) (p : PermissionGrant) (text : String) : PermissionRow :=
  ⟨appId, p.serviceUrl, text, .global, ""⟩

theorem exists_grantPermissionV2 {row : PermissionRow} {t : Tables}
    (happ : row.consumerAppId ∈ t.apps.map Services.AppRow.appId) :
    ∃ t', Services.grantPermissionV2 row t = .ok t' := by
  unfold Services.grantPermissionV2
  split
  · exact ⟨t, rfl⟩
  · next hnew =>
    have hconstraints : Services.Constraints
        { t.toRows with permissions := t.permissions ++ [row] } := by
      refine { t.constraints with permissions := ?_, consumers := ?_ }
      · exact List.nodup_append'.mpr ⟨t.constraints.permissions, List.nodup_singleton row,
          fun r hr hrow => hnew (by rwa [← List.mem_singleton.mp hrow])⟩
      · intro p hp
        rcases List.mem_append.mp hp with hp | hp
        · exact t.constraints.consumers p hp
        · rw [List.mem_singleton.mp hp]
          exact happ
    exact ⟨_, dif_pos hconstraints⟩

/-- Each step writes the row of its permission. -/
theorem grantAll_spec {appId : String} {grants : List PermissionGrant} {t : Tables}
    (hdump : ∀ p ∈ grants, Dumpable lim p.grant)
    (happ : appId ∈ t.apps.map Services.AppRow.appId) :
    ∃ t', grantAll lim appId grants t = .ok t' ∧ ∀ row, row ∈ t'.permissions ↔
      row ∈ t.permissions ∨ ∃ p ∈ grants, ∃ text, dumpGrant lim p.grant = .ok text ∧
        row = rowFor appId p text := by
  induction grants generalizing t with
  | nil => exact ⟨t, rfl, fun row => by simp⟩
  | cons p grants ih =>
    rw [List.forall_mem_cons] at hdump
    obtain ⟨text, htext⟩ := dumpable_iff.mp hdump.1
    have hgrant : ∃ u, Services.grantPermissionV2 (rowFor appId p text) t = .ok u :=
      exists_grantPermissionV2 happ
    obtain ⟨u, hu⟩ := hgrant
    obtain ⟨happs, -, -, hpermissions⟩ := Services.grantPermissionV2_ok hu
    obtain ⟨t', ht', hmem⟩ := ih hdump.2 (happs ▸ happ)
    have hstep : grantPermissionV2 lim appId p.serviceUrl p.grant t = .ok u := by
      rw [grantPermissionV2, htext]
      exact congrArg onTables hu
    refine ⟨t', ?_, fun row => ?_⟩
    · rw [grantAll, List.foldlM_cons, hstep]
      exact ht'
    · have hrow : row ∈ u.permissions ↔ row ∈ t.permissions ∨ row = rowFor appId p text := by
        rw [hpermissions]
        split
        · next hin =>
          exact ⟨.inl, fun h => h.elim id fun heq => heq ▸ hin⟩
        · rw [List.mem_append, List.mem_singleton]
      rw [hmem, hrow]
      simp [htext, or_assoc, eq_comm]

/-- Granting what has its rows already changes nothing. -/
theorem grantAll_of_rows {appId : String} {grants : List PermissionGrant} {t : Tables}
    (h : ∀ p ∈ grants, ∃ text, dumpGrant lim p.grant = .ok text ∧ rowFor appId p text ∈ t.permissions) :
    grantAll lim appId grants t = .ok t := by
  induction grants with
  | nil => rfl
  | cons p grants ih =>
    rw [List.forall_mem_cons] at h
    obtain ⟨⟨text, htext, hrow⟩, hrest⟩ := h
    have hstep : grantPermissionV2 lim appId p.serviceUrl p.grant t = .ok t := by
      rw [grantPermissionV2, htext]
      exact congrArg onTables (if_pos hrow)
    rw [grantAll, List.foldlM_cons, hstep]
    exact ih hrest

/-- The loop ends only when every grant has a text. -/
theorem dumpable_of_grantAll {appId : String} {grants : List PermissionGrant} {t t' : Tables}
    (h : grantAll lim appId grants t = .ok t') : ∀ p ∈ grants, Dumpable lim p.grant := by
  induction grants generalizing t with
  | nil => simp
  | cons p grants ih =>
    rw [grantAll, List.foldlM_cons] at h
    obtain ⟨u, hu, hrest⟩ := bind_eq_ok_iff.mp h
    obtain ⟨text, htext, -⟩ := bind_eq_ok_iff.mp hu
    rw [List.forall_mem_cons]
    exact ⟨dumpable_iff.mpr ⟨text, htext⟩, ih hrest⟩

/-! ## The table afterwards -/

theorem stored_of_grantAll {appId : String} {grants : List PermissionGrant} {t t' : Tables}
    (hdistinct : ∀ p ∈ grants, p.grant.distinctKeys = true) (ht : Stored lim t)
    (hmem : ∀ row, row ∈ t'.permissions ↔ row ∈ t.permissions ∨ ∃ p ∈ grants, ∃ text,
      dumpGrant lim p.grant = .ok text ∧ row = rowFor appId p text) : Stored lim t' := by
  intro row hrow
  rcases (hmem row).mp hrow with hold | ⟨p, hp, text, htext, rfl⟩
  · exact ht row hold
  · obtain ⟨j, hj, hdump⟩ := dumpGrant_eq_ok_iff.mp htext
    exact ⟨j, Toml.wellFormed_of_json? (hdistinct p hp) hj, hdump⟩

/-- Nothing is left of what has a row. -/
theorem ungrantedOf_eq_nil {appId : String} {m : AppManifest} {t : Tables} (ht : Stored lim t)
    (h : ∀ p ∈ allManifestPermissionsV2 m, ∃ text, dumpGrant lim p.grant = .ok text ∧
      rowFor appId p text ∈ t.permissions) : ungrantedOf lim appId m t = .ok [] := by
  obtain ⟨granted, hgranted, hkeys⟩ := exists_grantedKeys (payloads_of_stored ht (some appId))
  have hends : ∃ new, collectNew lim ((listedRows (some appId) t).map fun row =>
      (row.serviceUrl, row.grantPayload)) (allManifestPermissionsV2 m) = .ok new :=
    exists_collectNew_iff.mpr fun p hp => dumpable_iff.mpr ((h p hp).imp fun text htext => htext.1)
  obtain ⟨new, hnew⟩ := hends
  have hungranted : ungrantedOf lim appId m t = .ok new :=
    bind_eq_ok_iff.mpr ⟨granted, hgranted, bind_eq_ok_iff.mpr ⟨_, hkeys, hnew⟩⟩
  rw [hungranted]
  cases new with
  | nil => rfl
  | cons p new =>
    -- the key of the first one is that of its row
    obtain ⟨hp, k, hk, hnot⟩ := (collectNew_spec hnew).1 p List.mem_cons_self
    obtain ⟨text, htext, hrow⟩ := h p hp
    obtain ⟨text', htext', rfl⟩ := permissionKey_eq_ok_iff.mp hk
    obtain rfl := Except.ok.inj (htext.symm.trans htext')
    have hlisted := mem_listedRows_of_consumer hrow
    exact absurd (List.mem_map.mpr ⟨rowFor appId p text, hlisted, rfl⟩) hnot

/-- A record takes back its row. -/
theorem exists_revokePermissionV2 {t : Tables} {row : PermissionRow} (hrow : row ∈ t.permissions)
    (hstored : ∃ v, PayloadOf lim row.grantPayload v) {r : PermissionRecord}
    (hr : recordOf lim row = .ok r) :
    ∃ t', revokePermissionV2 lim r t = .ok (t', true) ∧
      t'.toRows = { t.toRows with permissions := t.permissions.filter (· ≠ row) } := by
  obtain ⟨r', hr', hconsumer, hservice, hscope, hprovider, hpayload⟩ := exists_recordOf hstored
  obtain rfl := Except.ok.inj (hr.symm.trans hr')
  have hconstraints : Services.Constraints
      { t.toRows with permissions := t.permissions.filter (· ≠ row) } :=
    { t.constraints with
      permissions := t.constraints.permissions.filter _
      consumers := fun p hp => t.constraints.consumers p (List.mem_of_mem_filter hp) }
  refine ⟨⟨_, hconstraints⟩, ?_, rfl⟩
  rw [revokePermissionV2, hpayload, hconsumer, hservice, hscope, hprovider]
  have hrevoke : Services.revokePermissionV2 row t = .ok (⟨_, hconstraints⟩, true) := by
    rw [Services.revokePermissionV2, Services.Tables.write, dif_pos hconstraints,
      decide_eq_true hrow]
    rfl
  exact congrArg onTables hrevoke

/-- Granting everything that a manifest requests does what it should exactly when every grant can be
written as JSON. -/
theorem grantedFrom_iff {rt : Runtime} {rawText : String} {m : AppManifest}
    (hm : parseManifestFromString rt rawText = .ok m) {appId : String} {t : Tables}
    (ht : Stored lim t) (happ : appId ∈ t.apps.map Services.AppRow.appId) :
    (∃ t', GrantedFrom lim appId m t t') ↔ ∀ p ∈ allManifestPermissionsV2 m, Dumpable lim p.grant := by
  constructor
  · rintro ⟨t', h⟩
    exact dumpable_of_grantAll h.succeeds
  · intro hdump
    obtain ⟨t', ht', hmem⟩ := grantAll_spec hdump happ
    have hrows : ∀ p ∈ allManifestPermissionsV2 m, ∃ text, dumpGrant lim p.grant = .ok text ∧
        rowFor appId p text ∈ t'.permissions := by
      intro p hp
      obtain ⟨text, htext⟩ := dumpable_iff.mp (hdump p hp)
      exact ⟨text, htext, (hmem _).mpr (.inr ⟨p, hp, text, htext, rfl⟩)⟩
    have hstored := stored_of_grantAll (declared_distinctKeys hm) ht hmem
    refine ⟨t', ht', ungrantedOf_eq_nil hstored hrows, grantAll_of_rows hrows, ?_⟩
    obtain ⟨granted, hgranted, -⟩ := exists_grantedKeys (payloads_of_stored hstored (some appId))
    refine ⟨granted, hgranted, fun r hr => ?_⟩
    obtain ⟨row, hrow, hrecord⟩ := exists_of_mem_mapM hgranted hr
    have hin := mem_of_mem_listedRows hrow
    exact ⟨row, hin, hrecord, exists_revokePermissionV2 hin (hstored row hin) hrecord⟩

/-! ## A manifest with one grant -/

/-- What the reader makes of a manifest that asks a service for one grant. -/
def askingTables (grant : Value) : Toml.Table :=
  [("app", .table [("name", .str "notes"), ("version", .str "1")]),
    ("runtime", .table [("container", .table [("image", .str "Dockerfile"), ("port", .int 80)])]),
    ("services", .table [("v2", .table [("consumes", .array [.table
      [("service", .str "https://example.org/secrets"), ("shortname", .str "secrets"),
        ("version", .str ">=1"), ("grants", .array [grant])]])])])]

/-- The text, with the grant as it is written. -/
def askingText (grant : String) : String :=
  "app = \x7b name = 'notes', version = '1' \x7d\n" ++
  "runtime.container = \x7b image = 'Dockerfile', port = 80 \x7d\n" ++
  "[[services.v2.consumes]]\nservice = 'https://example.org/secrets'\nshortname = 'secrets'\n" ++
  "version = '>=1'\ngrants = [" ++ grant ++ "]\n"

def notesRows : Services.Rows := { apps := [⟨"notes1", "notes", "2024-01-01 00:00:00", 9000, .running⟩] }

theorem constraints_notesRows : Services.Constraints notesRows := by decide

/-- The tables of a server with one app, which has been granted nothing. -/
def notesTables : Tables := ⟨notesRows, constraints_notesRows⟩

theorem stored_notesTables : Stored lim notesTables := by
  intro row hrow
  simp [notesTables, notesRows] at hrow

/-- The manifest that is put together from it. -/
theorem exists_parse_asking {texts : List (String × Toml.Table)} {text : String} (hne : text ≠ "")
    {grant : Toml.Table} (hread : texts.lookup text = some (askingTables (.table grant)))
    (hdistinct : (Value.table (askingTables (.table grant))).distinctKeys = true) :
    ∃ m, parseManifestFromString (.reading texts) text = .ok m ∧
      allManifestPermissionsV2 m = [⟨"example.org/secrets", .table grant⟩] := by
  have hloads : (Runtime.reading texts).loads text = .ok (askingTables (.table grant)) := by
    simp [Runtime.reading, readFrom, hne, hread, hdistinct]
  apply Exists.intro
  constructor
  · rw [parseManifestFromString, parseSections, hloads]
    rfl
  · rfl

def keyGrant : Toml.Table := [("key", .str "DB")]

def keyText : String := askingText "\x7b key = 'DB' \x7d"

/-- Python, as far as the manifest with a key goes. -/
def keyRuntime : Runtime := .reading [(keyText, askingTables (.table keyGrant))]

theorem exists_parse_key : ∃ m, parseManifestFromString keyRuntime keyText = .ok m ∧
    allManifestPermissionsV2 m = [⟨"example.org/secrets", .table keyGrant⟩] :=
  exists_parse_asking (by decide) List.lookup_cons_self (by decide)

theorem dumpable_keyGrant : Dumpable Json.defaultLimits (.table keyGrant) := ⟨_, rfl, by decide⟩

theorem grantedFrom_key : ∃ m, parseManifestFromString keyRuntime keyText = .ok m ∧
    ∃ t', GrantedFrom Json.defaultLimits "notes1" m notesTables t' := by
  obtain ⟨m, hm, hdeclared⟩ := exists_parse_key
  refine ⟨m, hm, (grantedFrom_iff hm stored_notesTables (List.mem_singleton.mpr rfl)).mpr ?_⟩
  rw [hdeclared]
  exact List.forall_mem_singleton.mpr dumpable_keyGrant

def dateGrant : Toml.Table := [("since", .temporal (.date 738886))]

def dateText : String := askingText "\x7b since = 2024-01-01 \x7d"

/-- Python, as far as the manifest with a date goes. -/
def dateRuntime : Runtime := .reading [(dateText, askingTables (.table dateGrant))]

theorem exists_parse_date : ∃ m, parseManifestFromString dateRuntime dateText = .ok m ∧
    allManifestPermissionsV2 m = [⟨"example.org/secrets", .table dateGrant⟩] :=
  exists_parse_asking (by decide) List.lookup_cons_self (by decide)

/-- JSON has no dates. -/
theorem not_dumpable_dateGrant : ¬Dumpable lim (.table dateGrant) := by
  rintro ⟨j, hj, -⟩
  cases hj

/-- A date in a grant. -/
theorem not_grantedFrom_date : ∃ m, parseManifestFromString dateRuntime dateText = .ok m ∧
    Stored Json.defaultLimits notesTables ∧
    "notes1" ∈ notesTables.apps.map Services.AppRow.appId ∧
    ¬∃ t', GrantedFrom Json.defaultLimits "notes1" m notesTables t' := by
  obtain ⟨m, hm, hdeclared⟩ := exists_parse_date
  refine ⟨m, hm, stored_notesTables, List.mem_singleton.mpr rfl, ?_⟩
  rintro ⟨t', h⟩
  have hdump := dumpable_of_grantAll h.succeeds
  rw [hdeclared] at hdump
  exact not_dumpable_dateGrant (hdump _ List.mem_cons_self)

end OpenHost.Manifest

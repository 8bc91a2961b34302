import OpenHost.Library.JsonReads
import OpenHost.Services.Permissions
import OpenHost.Web.Headers

/-!
# What a provider is told about its caller

`consumer_headers` and `app_consumer_headers`: who is calling, and the grants that apply to the
provider, as a JSON text.  A provider that reads the text finds one entry for each row that applies
to it, in the order of the rows.
-/

namespace OpenHost.Web

open Json (Value PyStr Limits FloatRepr Good ofString get? loads dumpsValue)
open Services (AppliesTo GrantedPermission PermissionRow Scope Tables getGrantedPermissionsV2)

variable (F : FloatRepr) (lim : Limits)

/-! ## The headers -/

/-- What `app_consumer_headers` raises. -/
inductive HeaderError where
  /-- `AssertionError`: there is no app with the id. -/
  | noApp
  | json (e : Json.Error)
  deriving DecidableEq, Repr

/-- `json.loads(row["grant_payload"])` -/
def loadPayload (payload : String) : Except Json.Error Value :=
  (loads lim payload.toList).map (Value.withFloats F)

/-- `get_granted_permissions_v2`, with its payloads read. -/
def loadGrants (grants : List GrantedPermission) :
    Except Json.Error (List (GrantedPermission × Value)) :=
  grants.mapM fun g => (loadPayload F lim g.grant).map fun v => (g, v)

/-- The text of a scope. -/
def scopeText : Scope → String
  | .global => "global"
  | .app => "app"

/-- `{"grant": g.grant, "scope": g.scope}` -/
def entryValue (scope : Scope) (grant : Value) : Value :=
  .dict [(ofString "grant", grant), (ofString "scope", .str (ofString (scopeText scope)))]

/-- `grants_for_provider` -/
def grantsForProvider (consumerAppId serviceUrl providerAppId : String) (t : Tables) :
    Except Json.Error (List Value) := do
  let grants ← loadGrants F lim (getGrantedPermissionsV2 consumerAppId serviceUrl t)
  pure ((grants.filter fun g => g.1.scope = .global || g.1.providerAppId = some providerAppId).map
    fun g => entryValue g.1.scope g.2)

/-- `consumer_headers` -/
def consumerHeaders (consumerId consumerName : String) (permissions : List Value) :
    Except HeaderError (List RouterHeader) :=
  match dumpsValue lim (.list permissions) with
  | none => .error (.json .recursion)
  | some text =>
      .ok [.xOpenHostConsumerId consumerId, .xOpenHostConsumerName consumerName,
        .xOpenHostPermissions (String.ofList text)]

/-- `app_consumer_headers` -/
def appConsumerHeaders (consumerAppId serviceUrl providerAppId : String) (t : Tables) :
    Except HeaderError (List RouterHeader) :=
  match t.findApp consumerAppId with
  | none => .error .noApp
  | some row =>
      match grantsForProvider F lim consumerAppId serviceUrl providerAppId t with
      | .error e => .error (.json e)
      | .ok permissions => consumerHeaders lim consumerAppId row.name permissions

/-! ## What is read back -/

section

variable {F : FloatRepr} {lim : Limits} {c s p : String} {t : Tables}

/-- The payload of a row, where it can be read. -/
def payload? (F : FloatRepr) (lim : Limits) (r : PermissionRow) : Option Value :=
  (loadPayload F lim r.grantPayload).toOption

/-- The entry of a row, where its payload can be read. -/
def entryOf? (F : FloatRepr) (lim : Limits) (r : PermissionRow) : Option Value :=
  (payload? F lim r).map (entryValue r.scope)

/-- Reading the payloads before the rows are picked gives the same as after. -/
theorem filter_loadGrants {grants : List GrantedPermission} {read : List (GrantedPermission × Value)}
    (h : loadGrants F lim grants = .ok read) (q : GrantedPermission → Bool) :
    ((read.filter fun g => q g.1).map fun g => entryValue g.1.scope g.2) =
      (grants.filter q).filterMap fun g =>
        (loadPayload F lim g.grant).toOption.map (entryValue g.scope) := by
  induction grants generalizing read with
  | nil =>
    obtain rfl := Except.ok.inj h
    rfl
  | cons g grants ih =>
    rw [loadGrants, List.mapM_cons] at h
    cases hload : loadPayload F lim g.grant with
    | error e =>
      rw [hload] at h
      cases h
    | ok v =>
      rw [hload] at h
      obtain ⟨first, hfirst, hmore⟩ := Json.exists_ok_of_bind h
      obtain rfl := Except.ok.inj hfirst
      obtain ⟨rest, hrest, hread⟩ := Json.exists_ok_of_bind hmore
      obtain rfl := Except.ok.inj hread
      cases hq : q g with
      | true => simp [hq, hload, Except.toOption, ih hrest]
      | false => simp [hq, ih hrest]

/-- The entries are those of the rows that apply to the provider. -/
theorem grantsForProvider_ok {entries : List Value}
    (h : grantsForProvider F lim c s p t = .ok entries) :
    entries = (t.permissions.filter (AppliesTo c s p ·)).filterMap (entryOf? F lim) := by
  obtain ⟨read, hread, hentries⟩ := Json.exists_ok_of_bind h
  rw [← Except.ok.inj hentries,
    filter_loadGrants hread fun g => g.scope = .global || g.providerAppId = some p]
  -- the same rows as those that `grantsForProvider_eq` picks
  have hpick := Services.grantsForProvider_eq c s p t
  rw [Services.grantsForProvider] at hpick
  have hmap := congrArg (List.filterMap fun e : Services.PermissionEntry =>
    (loadPayload F lim e.grant).toOption.map (entryValue e.scope)) hpick
  rw [List.filterMap_map, List.filterMap_map] at hmap
  exact hmap

theorem wellFormed_entryValue {scope : Scope} {v : Value} (h : v.wellFormed = true) :
    (entryValue scope v).wellFormed = true := by
  have hkeys : (ofString "grant") ≠ ofString "scope" := by decide
  have hjoined : ∀ s : String, Json.join (ofString s) = ofString s := Json.joined_ofString
  rw [entryValue, Json.dict_wellFormed_iff]
  refine ⟨by simpa using hkeys, ?_⟩
  intro m hm
  rcases List.mem_cons.mp hm with rfl | hm
  · exact ⟨hjoined _, h⟩
  · obtain rfl := List.mem_singleton.mp hm
    exact ⟨hjoined _, decide_eq_true (hjoined _)⟩

theorem wellFormed_payload? {r : PermissionRow} {v : Value} (h : payload? F lim r = some v) :
    v.wellFormed = true := by
  unfold payload? loadPayload at h
  cases hload : loads lim r.grantPayload.toList with
  | error e =>
    rw [hload] at h
    cases h
  | ok w =>
    rw [hload] at h
    obtain rfl := Option.some.inj h
    rw [← Json.loadsPoints_ord] at hload
    exact Json.wellFormed_withFloats F (Json.good_of_loadsPoints hload).wellFormed

/-- The provider reads the header as the entries of the rows that apply to it. -/
theorem loads_appConsumerHeaders {headers : List RouterHeader} {text : String}
    (h : appConsumerHeaders F lim c s p t = .ok headers)
    (hmem : RouterHeader.xOpenHostPermissions text ∈ headers) :
    loads lim text.toList =
      .ok (.list ((t.permissions.filter (AppliesTo c s p ·)).filterMap (entryOf? F lim))) := by
  unfold appConsumerHeaders at h
  split at h
  · cases h
  · split at h
    · cases h
    · rename_i row hrow entries hentries
      unfold consumerHeaders at h
      split at h
      · cases h
      · rename_i written hdumps
        obtain rfl := Except.ok.inj h
        have htext : text = String.ofList written := by simpa using hmem
        -- what `dumps` got through is read back
        unfold dumpsValue at hdumps
        split at hdumps
        · rename_i hfits
          have hwell : (Value.list entries).wellFormed = true := by
            rw [Json.list_wellFormed_iff, grantsForProvider_ok hentries]
            intro v hv
            obtain ⟨r, -, hentry⟩ := List.mem_filterMap.mp hv
            obtain ⟨w, hw, rfl⟩ := Option.map_eq_some_iff.mp hentry
            exact wellFormed_entryValue (wellFormed_payload? hw)
          rw [htext, String.toList_ofList, ← Option.some.inj hdumps, ← grantsForProvider_ok hentries]
          exact Json.loads_text hwell hfits
        · cases hdumps

end

end OpenHost.Web

import OpenHost.Library.Toml
import OpenHost.Web.ConsumerHeaders

/-!
# What a caller may have

The checks of the OAuth app: `parse_oauth_v2_grants` reads the header that the router put on a call,
and `check_oauth_v2_permission` says which scopes the grants in it do not cover.  What the app reads is
what the router's table says: the app-scoped rows that name it, and no others.
-/

namespace OpenHost.OAuth

open Json (Value PyStr Limits FloatRepr ofString get? loads)
open Services (AppliesTo PermissionRow Scope Tables)
open Web (RouterHeader appConsumerHeaders entryValue entryOf? payload? scopeText)

/-! ## Values -/

/-- What a handler raises. -/
inductive Raised where
  /-- A `ValueError` or a `RecursionError` of `json.loads`. -/
  | json (e : Json.Error)
  | attributeError
  | typeError
  | keyError
  | assertion
  /-- An error of `httpx`, or of `Response.json`. -/
  | transport
  | credentialsNotAvailable (provider message : String)
  deriving DecidableEq, Repr

/-- `v == s`, for a text. -/
def isText (s : String) : Value → Bool
  | .str t => t = ofString s
  | _ => false

def isNone : Value → Bool
  | .null => true
  | _ => false

/-- `for x in v` -/
def iterate : Value → Except Raised (List Value)
  | .list items => .ok items
  | .dict members => .ok (members.map fun m => .str m.1)
  | .str s => .ok (s.map fun c => .str [c])
  | _ => .error .typeError

def isHashable : Value → Bool
  | .list _ | .dict _ => false
  | _ => true

/-! ## The grants -/

/-- `OAuthGrant`; its fields are what the payload has, unchecked, and the account of a payload that
names none is `None`. -/
structure OAuthGrant where
  provider : Value
  scopes : Value
  account : Value

/-- The grant that a payload stands for. -/
def payloadGrant? : Value → Option OAuthGrant
  | .dict payload =>
      (get? payload "provider").map fun provider =>
        ⟨provider, (get? payload "scopes").getD (.list []), (get? payload "account").getD .null⟩
  | _ => none

/-- A turn of the loop of `parse_oauth_v2_grants`. -/
def readGrant : Value → Except Raised (Option OAuthGrant)
  | .dict g =>
      if (get? g "scope").any (isText "app") then
        .ok (payloadGrant? ((get? g "grant").getD (.dict [])))
      else .ok none
  | _ => .error .attributeError

def readGrants : List Value → Except Raised (List OAuthGrant)
  | [] => .ok []
  | g :: gs => do
      let grant ← readGrant g
      let grants ← readGrants gs
      pure (grant.toList ++ grants)

/-- `parse_oauth_v2_grants` of the header `x-openhost-permissions`. -/
def parseOauthV2Grants (lim : Limits) (header : Option String) : Except Raised (List OAuthGrant) :=
  match loads lim (header.getD "[]").toList with
  | .error .decode => .ok []
  | .error e => .error (.json e)
  | .ok grants => iterate grants >>= readGrants

/-! ## The check -/

/-- The grant is one for the provider, and for the account where both name one. -/
def OAuthGrant.isFor (g : OAuthGrant) (provider : String) (account : Option String) : Bool :=
  isText provider g.provider && (isNone g.account || account.all fun a => isText a g.account)

/-- `granted_scopes`, for the grants that are left. -/
def grantedScopes (provider : String) (account : Option String) :
    List OAuthGrant → Except Raised (List Value)
  | [] => .ok []
  | g :: gs =>
      if g.isFor provider account then do
        let scopes ← iterate g.scopes
        if scopes.all isHashable then do
          let rest ← grantedScopes provider account gs
          pure (scopes ++ rest)
        else .error .typeError
      else grantedScopes provider account gs

/-- `check_oauth_v2_permission` -/
def checkOauthV2Permission (lim : Limits) (header : Option String) (provider : String)
    (scopes : List String) (account : Option String) : Except Raised (List String) := do
  let grants ← parseOauthV2Grants lim header
  let granted ← grantedScopes provider account grants
  pure (scopes.filter fun s => !granted.any (isText s))

/-- The grant covers a scope of the provider for the account. -/
def OAuthGrant.Covers (g : OAuthGrant) (provider : String) (account : Option String) (scope : String) :
    Prop :=
  g.isFor provider account = true ∧
    ∃ scopes, iterate g.scopes = .ok scopes ∧ ∃ v ∈ scopes, isText scope v = true

section

variable {lim : Limits} {header : Option String} {provider : String} {account : Option String}

theorem any_grantedScopes {grants : List OAuthGrant} {granted : List Value} {s : String}
    (h : grantedScopes provider account grants = .ok granted) :
    granted.any (isText s) = true ↔ ∃ g ∈ grants, g.Covers provider account s := by
  induction grants generalizing granted with
  | nil =>
    obtain rfl := Except.ok.inj h
    simp
  | cons g grants ih =>
    rw [grantedScopes] at h
    split at h
    · rename_i hfor
      obtain ⟨scopes, hscopes, hrest⟩ := Services.exists_of_bind_ok h
      split at hrest
      · obtain ⟨rest, hmore, hgranted⟩ := Services.exists_of_bind_ok hrest
        obtain rfl := Except.ok.inj hgranted
        have hcovers : g.Covers provider account s ↔ scopes.any (isText s) = true := by
          constructor
          · intro hg
            obtain ⟨-, scopes', hscopes', v, hv, htext⟩ := hg
            rw [hscopes] at hscopes'
            obtain rfl := Except.ok.inj hscopes'
            exact List.any_eq_true.mpr ⟨v, hv, htext⟩
          · intro hany
            obtain ⟨v, hv, htext⟩ := List.any_eq_true.mp hany
            exact ⟨hfor, scopes, hscopes, v, hv, htext⟩
        rw [List.any_append, Bool.or_eq_true, ih hmore, ← hcovers]
        simp
      · cases hrest
    · rename_i hfor
      have hnot : ¬ g.Covers provider account s := fun hg => hfor hg.1
      rw [ih h]
      simp [hnot]

/-- A scope is missing exactly when no grant of the caller covers it. -/
theorem checkOauthV2Permission_ok {scopes missing : List String}
    (h : checkOauthV2Permission lim header provider scopes account = .ok missing) :
    ∃ grants, parseOauthV2Grants lim header = .ok grants ∧
      ∀ s, s ∈ missing ↔ s ∈ scopes ∧ ¬ ∃ g ∈ grants, g.Covers provider account s := by
  obtain ⟨grants, hgrants, hrest⟩ := Services.exists_of_bind_ok h
  obtain ⟨granted, hgranted, hmissing⟩ := Services.exists_of_bind_ok hrest
  obtain rfl := Except.ok.inj hmissing
  refine ⟨grants, hgrants, ?_⟩
  intro s
  rw [List.mem_filter, ← any_grantedScopes hgranted, Bool.not_eq_true', Bool.not_eq_true]

end

/-! ## The header of the router -/

section

variable {F : FloatRepr} {lim : Limits} {c s p : String} {t : Tables}

theorem isText_scopeText (scope : Scope) :
    isText "app" (.str (ofString (scopeText scope))) = decide (scope = .app) := by
  cases scope <;> decide

theorem readGrant_entryValue (scope : Scope) (v : Value) :
    readGrant (entryValue scope v) = .ok (if scope = .app then payloadGrant? v else none) := by
  have hscope : get? [(ofString "grant", v), (ofString "scope", .str (ofString (scopeText scope)))]
      "scope" = some (.str (ofString (scopeText scope))) := by
    have hne : ofString "grant" ≠ ofString "scope" := by decide
    simp [get?, hne]
  have hgrant : get? [(ofString "grant", v), (ofString "scope", .str (ofString (scopeText scope)))]
      "grant" = some v := by simp [get?]
  rw [entryValue, readGrant, hscope, hgrant, Option.any_some, isText_scopeText]
  cases scope <;> rfl

/-- The grant that a row stands for. -/
def rowGrant? (F : FloatRepr) (lim : Limits) (r : PermissionRow) : Option OAuthGrant :=
  (payload? F lim r).bind payloadGrant?

/-- A row that applies is read as the grant it stands for, where it is scoped to the app. -/
theorem readGrants_entries (rows : List PermissionRow) :
    readGrants (rows.filterMap (entryOf? F lim)) =
      .ok ((rows.filter (·.scope = .app)).filterMap (rowGrant? F lim)) := by
  induction rows with
  | nil => rfl
  | cons r rows ih =>
    cases hpayload : payload? F lim r with
    | none =>
      have hentry : entryOf? F lim r = none := by rw [entryOf?, hpayload]; rfl
      have hgrant : rowGrant? F lim r = none := by rw [rowGrant?, hpayload]; rfl
      rw [List.filterMap_cons_none hentry, ih, List.filter_cons]
      split
      · rw [List.filterMap_cons_none hgrant]
      · rfl
    | some v =>
      have hentry : entryOf? F lim r = some (entryValue r.scope v) := by rw [entryOf?, hpayload]; rfl
      have hgrant : rowGrant? F lim r = payloadGrant? v := by rw [rowGrant?, hpayload]; rfl
      rw [List.filterMap_cons_some hentry, readGrants, readGrant_entryValue, ih, List.filter_cons]
      by_cases hscope : r.scope = .app
      · cases hv : payloadGrant? v <;> simp [hscope, hgrant, hv, bind, Except.bind, pure, Except.pure]
      · simp [hscope, bind, Except.bind, pure, Except.pure]

/-- The app reads the router's header as the app-scoped rows of the consumer that name the app, in the
order of the table: no global grant, and none for another service or another provider. -/
theorem parseOauthV2Grants_appConsumerHeaders {headers : List RouterHeader} {text : String}
    (h : appConsumerHeaders F lim c s p t = .ok headers)
    (hmem : RouterHeader.xOpenHostPermissions text ∈ headers) :
    parseOauthV2Grants lim (some text) = .ok ((t.permissions.filter fun r =>
      AppliesTo c s p r && r.scope = .app).filterMap (rowGrant? F lim)) := by
  have hloads := Web.loads_appConsumerHeaders h hmem
  rw [parseOauthV2Grants, Option.getD_some, hloads]
  show readGrants _ = _
  rw [readGrants_entries, List.filter_filter]
  congr 3
  funext r
  exact Bool.and_comm _ _

end

/-! ## A grant that the app has asked for -/

/-- What `grant_app_scoped_permission` asks the router to grant, as the routes fill it. -/
structure GrantRequest where
  provider : String
  scopes : List String
  account : String
  deriving DecidableEq, Repr

def GrantRequest.members (g : GrantRequest) : List (PyStr × Value) :=
  [(ofString "provider", .str (ofString g.provider)),
    (ofString "scopes", .list (g.scopes.map fun s => .str (ofString s))),
    (ofString "account", .str (ofString g.account))]

/-- The payload. -/
def GrantRequest.value (g : GrantRequest) : Value := .dict g.members

/-- The grant as it is read back. -/
def GrantRequest.grant (g : GrantRequest) : OAuthGrant where
  provider := .str (ofString g.provider)
  scopes := .list (g.scopes.map fun s => .str (ofString s))
  account := .str (ofString g.account)

/-- The text under which the router stores the payload. -/
def GrantRequest.StoredAs (lim : Limits) (g : GrantRequest) (payload : String) : Prop :=
  ∃ text, Json.dumpsSorted lim g.value = some text ∧ payload = String.ofList text

section

variable {F : FloatRepr} {lim : Limits} {g : GrantRequest} {r : PermissionRow}

theorem wellFormed_texts (l : List String) :
    (Value.list (l.map fun s => .str (ofString s))).wellFormed = true := by
  rw [Json.list_wellFormed_iff]
  intro v hv
  obtain ⟨s, -, rfl⟩ := List.mem_map.mp hv
  exact decide_eq_true (Json.joined_ofString s)

theorem nodup_grantKeys (g : GrantRequest) : (g.members.map Prod.fst).Nodup := by
  have hkeys : [ofString "provider", ofString "scopes", ofString "account"].Nodup := by decide
  exact hkeys

theorem wellFormed_grantRequest (g : GrantRequest) : g.value.wellFormed = true := by
  have hjoined : ∀ s : String, Json.join (ofString s) = ofString s := Json.joined_ofString
  have htext : ∀ s : String, (Value.str (ofString s)).wellFormed = true := fun s =>
    decide_eq_true (hjoined s)
  rw [GrantRequest.value, Json.dict_wellFormed_iff]
  refine ⟨nodup_grantKeys g, ?_⟩
  intro m hm
  simp only [GrantRequest.members, List.mem_cons, List.not_mem_nil, or_false] at hm
  rcases hm with rfl | rfl | rfl
  · exact ⟨hjoined _, htext _⟩
  · exact ⟨hjoined _, wellFormed_texts _⟩
  · exact ⟨hjoined _, htext _⟩

/-- Neither the order of the keys nor the writing of floats touches a list of texts. -/
theorem texts_rewritten (l : List String) :
    Json.itemsWithFloats F (Json.sortedItems (l.map fun s => .str (ofString s))) =
      l.map fun s => .str (ofString s) := by
  rw [Json.itemsWithFloats_eq, Json.sortedItems_eq, List.map_map, List.map_map]
  rfl

theorem payloadGrant?_grantRequest : payloadGrant? (g.value.sorted.withFloats F) = some g.grant := by
  have hget : ∀ key, get? (Json.membersWithFloats F
      ((Json.sortedMembers g.members).insertionSort Json.keyLe)) key =
      ((get? g.members key).map Value.sorted).map (Value.withFloats F) := by
    intro key
    rw [Json.get?_withFloats, Json.get?_sorted (nodup_grantKeys g)]
  have hscopes : ofString "provider" ≠ ofString "scopes" := by decide
  have haccount : ofString "provider" ≠ ofString "account" := by decide
  have haccount' : ofString "scopes" ≠ ofString "account" := by decide
  rw [GrantRequest.value, Value.sorted, Value.withFloats, payloadGrant?, hget, hget, hget]
  simp [get?, GrantRequest.members, GrantRequest.grant, hscopes, haccount, haccount', Value.sorted,
    Value.withFloats, texts_rewritten]

/-- What was asked for is what the app will read. -/
theorem rowGrant?_of_storedAs (h : g.StoredAs lim r.grantPayload) : rowGrant? F lim r = some g.grant := by
  obtain ⟨text, hdumps, hpayload⟩ := h
  have hloads := Json.loads_dumpsSorted (wellFormed_grantRequest g) hdumps
  rw [rowGrant?, payload?, Web.loadPayload, hpayload, String.toList_ofList, hloads]
  exact payloadGrant?_grantRequest

theorem isText_str {s s' : String} : isText s (.str (ofString s')) = true ↔ s' = s := by
  rw [isText, decide_eq_true_eq, Toml.ofString_injective.eq_iff]

theorem isFor_grant {provider : String} {account : Option String} :
    g.grant.isFor provider account = true ↔
      g.provider = provider ∧ ∀ a, account = some a → g.account = a := by
  rw [OAuthGrant.isFor, GrantRequest.grant, Bool.and_eq_true, isText_str]
  cases account with
  | none => simp
  | some a => simp [isNone, isText_str]

/-- A grant that was asked for covers its own scopes, for its own account. -/
theorem covers_grant {provider s : String} {account : Option String} :
    g.grant.Covers provider account s ↔
      (g.provider = provider ∧ ∀ a, account = some a → g.account = a) ∧ s ∈ g.scopes := by
  rw [OAuthGrant.Covers, isFor_grant]
  refine and_congr_right fun _ => ?_
  constructor
  · intro h
    obtain ⟨scopes, hscopes, v, hv, htext⟩ := h
    obtain rfl := Except.ok.inj hscopes
    obtain ⟨s', hs', rfl⟩ := List.mem_map.mp hv
    exact isText_str.mp htext ▸ hs'
  · intro h
    exact ⟨_, rfl, _, List.mem_map_of_mem h, isText_str.mpr rfl⟩

/-- Grants that were asked for can be gone through. -/
theorem exists_grantedScopes (provider : String) (account : Option String) {grants : List OAuthGrant}
    (h : ∀ g ∈ grants, ∃ asked : GrantRequest, g = asked.grant) :
    ∃ granted, grantedScopes provider account grants = .ok granted := by
  induction grants with
  | nil => exact ⟨[], rfl⟩
  | cons g grants ih =>
    obtain ⟨rest, hrest⟩ := ih fun g' hg' => h g' (List.mem_cons_of_mem _ hg')
    obtain ⟨asked, rfl⟩ := h g List.mem_cons_self
    rw [grantedScopes]
    split
    · have hhashable : (asked.scopes.map fun s => Value.str (ofString s)).all isHashable = true := by
        rw [List.all_eq_true]
        intro v hv
        obtain ⟨s, -, rfl⟩ := List.mem_map.mp hv
        rfl
      refine ⟨(asked.scopes.map fun s => .str (ofString s)) ++ rest, ?_⟩
      rw [GrantRequest.grant, iterate]
      show (if _ then _ else _) = _
      rw [if_pos hhashable, hrest]
      rfl
    · exact ⟨rest, hrest⟩

end

/-! ## What the table says -/

/-- The row gives the consumer this scope of the OAuth provider, for the account where one is asked
for. -/
def Gives (lim : Limits) (c s p provider : String) (account : Option String) (scope : String)
    (r : PermissionRow) : Prop :=
  AppliesTo c s p r ∧ r.scope = .app ∧ ∃ g : GrantRequest, g.StoredAs lim r.grantPayload ∧
    (g.provider = provider ∧ ∀ a, account = some a → g.account = a) ∧ scope ∈ g.scopes

/-- Where the rows scoped to the app are ones that it has asked for, its check of a call does not
raise, and misses exactly the scopes that no row gives. -/
theorem checkOauthV2Permission_of_asked {F : FloatRepr} {lim : Limits} {c s p : String} {t : Tables}
    {headers : List RouterHeader} {text : String} (h : appConsumerHeaders F lim c s p t = .ok headers)
    (hmem : RouterHeader.xOpenHostPermissions text ∈ headers)
    (hasked : ∀ r ∈ t.permissions, AppliesTo c s p r → r.scope = .app →
      ∃ g : GrantRequest, g.StoredAs lim r.grantPayload)
    (provider : String) (scopes : List String) (account : Option String) :
    ∃ missing, checkOauthV2Permission lim (some text) provider scopes account = .ok missing ∧
      ∀ x, x ∈ missing ↔ x ∈ scopes ∧ ¬ ∃ r ∈ t.permissions, Gives lim c s p provider account x r := by
  have hparse := parseOauthV2Grants_appConsumerHeaders h hmem
  have hgrants : ∀ g, g ∈ (t.permissions.filter fun r => AppliesTo c s p r && r.scope = .app).filterMap
      (rowGrant? F lim) ↔ ∃ r ∈ t.permissions, (AppliesTo c s p r ∧ r.scope = .app) ∧
        ∃ asked : GrantRequest, asked.StoredAs lim r.grantPayload ∧ g = asked.grant := by
    intro g
    rw [List.mem_filterMap]
    constructor
    · intro hg
      obtain ⟨r, hr, hgrant⟩ := hg
      obtain ⟨hr, hpick⟩ := List.mem_filter.mp hr
      simp only [Bool.and_eq_true, decide_eq_true_eq] at hpick
      obtain ⟨asked, hstored⟩ := hasked r hr hpick.1 hpick.2
      rw [rowGrant?_of_storedAs hstored] at hgrant
      exact ⟨r, hr, hpick, asked, hstored, (Option.some.inj hgrant).symm⟩
    · intro hg
      obtain ⟨r, hr, hpick, asked, hstored, rfl⟩ := hg
      refine ⟨r, List.mem_filter.mpr ⟨hr, ?_⟩, rowGrant?_of_storedAs hstored⟩
      simpa using hpick
  obtain ⟨granted, hgranted⟩ := exists_grantedScopes provider account
    fun g hg =>
      let ⟨_, _, _, asked, _, hasked⟩ := (hgrants g).mp hg
      ⟨asked, hasked⟩
  have hcheck : checkOauthV2Permission lim (some text) provider scopes account =
      .ok (scopes.filter fun x => !granted.any (isText x)) := by
    rw [checkOauthV2Permission, hparse]
    show (grantedScopes _ _ _ >>= _) = _
    rw [hgranted]
    rfl
  refine ⟨_, hcheck, ?_⟩
  intro x
  have hcovered : granted.any (isText x) = true ↔
      ∃ r ∈ t.permissions, Gives lim c s p provider account x r := by
    rw [any_grantedScopes hgranted]
    constructor
    · intro hx
      obtain ⟨g, hg, hcovers⟩ := hx
      obtain ⟨r, hr, hpick, asked, hstored, rfl⟩ := (hgrants g).mp hg
      exact ⟨r, hr, hpick.1, hpick.2, asked, hstored, covers_grant.mp hcovers⟩
    · intro hx
      obtain ⟨r, hr, happlies, hscope, asked, hstored, hcovers⟩ := hx
      exact ⟨asked.grant, (hgrants _).mpr ⟨r, hr, ⟨happlies, hscope⟩, asked, hstored, rfl⟩,
        covers_grant.mpr hcovers⟩
  rw [List.mem_filter, ← hcovered, Bool.not_eq_true', Bool.not_eq_true]

end OpenHost.OAuth

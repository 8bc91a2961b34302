import OpenHost.Services.Operations

/-!
# The grants that a provider is sent

`grants_for_provider` picks the rows of a consumer that apply to one provider.  What apps other than the
provider do changes none of it; what an approved update grants reaches a provider unless a row for
another one stands in the way.
-/

namespace OpenHost.Services

/-! ## What is sent -/

/-- `GrantedPermission` -/
structure GrantedPermission where
  grant : String
  scope : Scope
  providerAppId : Option String
  deriving DecidableEq, Repr

/-- An entry of the permissions header. -/
structure PermissionEntry where
  grant : String
  scope : Scope
  deriving DecidableEq, Repr

/-- `get_granted_permissions_v2` -/
def getGrantedPermissionsV2 (consumerAppId serviceUrl : String) (t : Tables) : List GrantedPermission :=
  (t.permissions.filter fun r => r.consumerAppId = consumerAppId && r.serviceUrl = serviceUrl).map
    fun r => ⟨r.grantPayload, r.scope, truthy (some r.providerAppId)⟩

/-- `grants_for_provider` -/
def grantsForProvider (consumerAppId serviceUrl providerAppId : String) (t : Tables) :
    List PermissionEntry :=
  ((getGrantedPermissionsV2 consumerAppId serviceUrl t).filter fun g =>
    g.scope = .global || g.providerAppId = some providerAppId).map fun g => ⟨g.grant, g.scope⟩

/-- The row names the provider; the empty text names none. -/
def PermissionRow.Names (r : PermissionRow) (p : String) : Prop :=
  r.providerAppId = p ∧ r.providerAppId ≠ ""

/-- A global grant of the consumer for the service, or an app-scoped one that names the provider. -/
def AppliesTo (c s p : String) (r : PermissionRow) : Prop :=
  r.consumerAppId = c ∧ r.serviceUrl = s ∧ (r.scope = .global ∨ r.scope = .app ∧ r.Names p)

instance (c s p : String) : DecidablePred (AppliesTo c s p) := fun r =>
  inferInstanceAs (Decidable (r.consumerAppId = c ∧ r.serviceUrl = s ∧
    (r.scope = .global ∨ r.scope = .app ∧ r.providerAppId = p ∧ r.providerAppId ≠ "")))

/-- The entry that a row is sent as. -/
def PermissionRow.entry (r : PermissionRow) : PermissionEntry := ⟨r.grantPayload, r.scope⟩

theorem truthy_eq_some_iff {x p : String} : truthy (some x) = some p ↔ x = p ∧ x ≠ "" := by
  rw [truthy, Option.filter_eq_some_iff, Option.some.injEq, decide_eq_true_eq]
  constructor
  · rintro ⟨rfl, hne⟩
    exact ⟨rfl, hne⟩
  · rintro ⟨rfl, hne⟩
    exact ⟨rfl, hne⟩

/-- The provider is sent one entry for each row that applies to it. -/
theorem grantsForProvider_eq (c s p : String) (t : Tables) :
    grantsForProvider c s p t = (t.permissions.filter (AppliesTo c s p ·)).map PermissionRow.entry := by
  unfold grantsForProvider getGrantedPermissionsV2
  rw [List.filter_map, List.map_map, List.filter_filter]
  have hfilter : ∀ r : PermissionRow, (((fun g : GrantedPermission =>
      decide (g.scope = .global) || decide (g.providerAppId = some p)) ∘
        fun r : PermissionRow => ⟨r.grantPayload, r.scope, truthy (some r.providerAppId)⟩) r &&
      (decide (r.consumerAppId = c) && decide (r.serviceUrl = s))) = decide (AppliesTo c s p r) := by
    intro r
    -- a row that is not global is scoped to an app
    have hnames : r.scope = .global ∨ r.scope = .app ∧ r.Names p ↔ r.scope = .global ∨ r.Names p := by
      cases r.scope <;> simp
    rw [Bool.eq_iff_iff, decide_eq_true_iff, AppliesTo, hnames]
    simp only [Function.comp_apply, Bool.and_eq_true, Bool.or_eq_true, decide_eq_true_eq,
      truthy_eq_some_iff, PermissionRow.Names]
    constructor
    · rintro ⟨happlies, hc, hs⟩
      exact ⟨hc, hs, happlies⟩
    · rintro ⟨hc, hs, happlies⟩
      exact ⟨happlies, hc, hs⟩
  simp only [hfilter]
  rfl

/-! ## Who changes it -/

/-- The app that an operation is a request of; the others are the owner's, or no one's. -/
def ServiceOp.actor : ServiceOp → Option String
  | grantAppScoped providerAppId _ => some providerAppId
  | _ => none

/-- An action of an app other than `p`; or one of the owner that takes back what names another provider,
or grants and revokes nothing at all. -/
def Elsewhere (p : String) : ServiceOp → Prop
  | .grantAppScoped providerAppId _ => providerAppId ≠ p
  | .revokeV2 _ .app providerAppId => providerAppId ≠ some p
  | .updateStatus .. | .register .. | .setDefault .. | .clearDefault .. => True
  | _ => False

section

variable {builtins : List BuiltinService} {t t' : Tables} {op : ServiceOp}

/-- What an app can do: add one row that is scoped to itself, for a service that it provides. -/
theorem permissions_of_actor (h : perform builtins op t = .ok t') {q : String}
    (hactor : op.actor = some q) : SameServices t t' ∧ (t'.permissions = t.permissions ∨
      ∃ row : PermissionRow, t'.permissions = t.permissions ++ [row] ∧ row.scope = .app ∧
        row.providerAppId = q ∧ ∃ v, Offers t row.serviceUrl q v) := by
  cases op with
  | grantAppScoped providerAppId data =>
    obtain rfl := Option.some.inj hactor
    refine ⟨sameServices_of_perform rfl h, ?_⟩
    obtain ⟨consumerAppId, serviceUrl, grant, hoffers, hgrant⟩ := grantAppScoped_ok h
    obtain ⟨-, -, -, hpermissions⟩ := grantPermissionV2_ok hgrant
    split at hpermissions
    · exact Or.inl hpermissions
    · exact Or.inr ⟨_, hpermissions, rfl, rfl, hoffers⟩
  | _ => cases hactor

/-- A row that names another provider changes nothing that `p` is sent. -/
theorem not_appliesTo_of_names {c s p : String} {r : PermissionRow} (hscope : r.scope = .app)
    (hnames : ¬ r.Names p) : ¬ AppliesTo c s p r := by
  rintro ⟨-, -, hglobal | ⟨-, hp⟩⟩
  · rw [hscope] at hglobal
    cases hglobal
  · exact hnames hp

theorem grants_of_elsewhere {p : String} (h : perform builtins op t = .ok t') (helse : Elsewhere p op)
    (c s : String) : grantsForProvider c s p t' = grantsForProvider c s p t := by
  have hsame : t'.permissions = t.permissions →
      grantsForProvider c s p t' = grantsForProvider c s p t := by
    intro hpermissions
    rw [grantsForProvider_eq, hpermissions, ← grantsForProvider_eq]
  cases op with
  | updateStatus appId status => exact hsame (updateStatus_ok h).2.2.2
  | register foreignKeys appId provides => exact hsame (register_ok h).2.2.1
  | setDefault serviceUrl appId => exact hsame (setDefault_ok h).2.2.1
  | clearDefault serviceUrl => exact hsame (clearDefault_ok h).2.2.1
  | grantAppScoped providerAppId data =>
    obtain ⟨-, hpermissions⟩ := permissions_of_actor h rfl
    rcases hpermissions with hpermissions | ⟨row, hpermissions, hscope, rfl, -⟩
    · exact hsame hpermissions
    · have hnot : ¬ AppliesTo c s p row := not_appliesTo_of_names hscope fun hnames => helse hnames.1
      rw [grantsForProvider_eq, hpermissions, List.filter_append, List.filter_singleton]
      simp [hnot, grantsForProvider_eq]
  | revokeV2 data scope providerAppId =>
    obtain ⟨appId, serviceUrl, grant, hrevoke⟩ := revokeV2_ok h
    obtain ⟨-, -, -, hpermissions, -⟩ := revokePermissionV2_ok hrevoke
    cases scope with
    | global => exact absurd helse id
    | app =>
      have hnot : ¬ AppliesTo c s p ⟨appId, serviceUrl, grant, .app, providerAppId.getD ""⟩ := by
        apply not_appliesTo_of_names rfl
        rintro ⟨hp, hne⟩
        cases providerAppId with
        | none => exact hne rfl
        | some q => exact helse (congrArg some hp)
      rw [grantsForProvider_eq, hpermissions, List.filter_filter, grantsForProvider_eq]
      congr 1
      apply List.filter_congr
      intro r _
      by_cases hr : AppliesTo c s p r
      · have hne : r ≠ ⟨appId, serviceUrl, grant, .app, providerAppId.getD ""⟩ := by
          rintro rfl
          exact hnot hr
        simp [hr, hne]
      · simp [hr]
  | _ => exact absurd helse id

end

/-- Whatever has led to the tables: a provider is sent exactly the consumer's global grants for the
service and the app-scoped ones that name it, each row once; an app adds only rows that are scoped to
itself, for services that it provides; and no sequence of actions of other apps, or of the owner for other
providers, changes what the provider is sent. -/
theorem grants_of_runs (builtins : List BuiltinService) (t : Tables) :
    t.permissions.Nodup ∧
    (∀ c s p, grantsForProvider c s p t =
      (t.permissions.filter (AppliesTo c s p ·)).map PermissionRow.entry) ∧
    (∀ op q t', op.actor = some q → perform builtins op t = .ok t' →
      SameServices t t' ∧ (t'.permissions = t.permissions ∨
        ∃ row : PermissionRow, t'.permissions = t.permissions ++ [row] ∧ row.scope = .app ∧
          row.providerAppId = q ∧ ∃ v, Offers t row.serviceUrl q v)) ∧
    ∀ p t', Runs builtins (fun _ op => Elsewhere p op) t t' →
      ∀ c s, grantsForProvider c s p t' = grantsForProvider c s p t := by
  refine ⟨t.constraints.permissions, fun c s p => grantsForProvider_eq c s p t,
    fun op q t' hactor h => permissions_of_actor h hactor, fun p t' h c s => ?_⟩
  apply h.invariant fun u => grantsForProvider c s p u = grantsForProvider c s p t
  · rfl
  · intro u op u' hu helse hstep
    rw [grants_of_elsewhere hstep helse, hu]

/-! ## What an approved update reaches -/

section

variable {consumes : List ServiceConsumes} {previous : Option (List ServiceConsumes)} {c : String}
  {t t' : Tables}

/-- The new manifest declares the grant, and the previous one, if it can be read, did not. -/
def NewlyDeclared (consumes : List ServiceConsumes) (previous : Option (List ServiceConsumes))
    (pg : PermissionGrant) : Prop :=
  pg ∈ allManifestPermissionsV2 consumes ∧ ∀ old ∈ previous, pg ∉ allManifestPermissionsV2 old

/-- Some row of the consumer holds the grant, of whatever scope. -/
def Held (c : String) (pg : PermissionGrant) (t : Tables) : Prop :=
  ∃ r ∈ t.permissions, r.consumerAppId = c ∧ r.serviceUrl = pg.serviceUrl ∧ r.grantPayload = pg.grant

theorem mem_foldl_addUngranted (grants : List PermissionGrant)
    (acc : List PermissionGrant × List PermissionGrant) (hacc : ∀ pg ∈ acc.2, pg ∈ acc.1)
    (pg : PermissionGrant) :
    pg ∈ (grants.foldl addUngranted acc).2 ↔ pg ∈ acc.2 ∨ (pg ∈ grants ∧ pg ∉ acc.1) := by
  induction grants generalizing acc with
  | nil => simp
  | cons g grants ih =>
    rw [List.foldl_cons]
    by_cases hseen : g ∈ acc.1
    · rw [addUngranted, if_pos hseen, ih acc hacc, List.mem_cons]
      constructor
      · rintro (hin | ⟨hin, hnot⟩)
        · exact Or.inl hin
        · exact Or.inr ⟨Or.inr hin, hnot⟩
      · rintro (hin | ⟨rfl | hin, hnot⟩)
        · exact Or.inl hin
        · exact absurd hseen hnot
        · exact Or.inr ⟨hin, hnot⟩
    · rw [addUngranted, if_neg hseen, ih]
      · simp only [List.mem_append, List.mem_cons, List.not_mem_nil, or_false, not_or]
        constructor
        · rintro ((hin | rfl) | ⟨hin, -, hnot⟩)
          · exact Or.inl hin
          · exact Or.inr ⟨Or.inl rfl, hseen⟩
          · exact Or.inr ⟨Or.inr hin, hnot⟩
        · rintro (hin | ⟨rfl | hin, hnot⟩)
          · exact Or.inl (Or.inl hin)
          · exact Or.inl (Or.inr rfl)
          · by_cases heq : pg = g
            · exact Or.inl (Or.inr heq)
            · exact Or.inr ⟨hin, heq, hnot⟩
      · intro pg' hpg'
        rcases List.mem_append.mp hpg' with hin | hin
        · exact List.mem_cons_of_mem _ (hacc pg' hin)
        · rw [List.mem_singleton.mp hin]
          exact List.mem_cons_self

theorem mem_manifestUngranted {granted : List PermissionRow} {pg : PermissionGrant} :
    pg ∈ manifestUngrantedPermissionsV2 consumes granted ↔
      pg ∈ allManifestPermissionsV2 consumes ∧
        pg ∉ granted.map fun rec => (⟨rec.serviceUrl, rec.grantPayload⟩ : PermissionGrant) := by
  unfold manifestUngrantedPermissionsV2
  rw [mem_foldl_addUngranted _ _ (fun _ h => absurd h List.not_mem_nil)]
  simp

/-- The update grants what it newly declares, unless a row of the consumer holds it. -/
theorem mem_manifestNewlyDeclared {pg : PermissionGrant} :
    pg ∈ manifestNewlyDeclaredPermissionsV2 consumes (getAllPermissionsV2 c t) previous ↔
      NewlyDeclared consumes previous pg ∧ ¬ Held c pg t := by
  have hheld : pg ∈ ((getAllPermissionsV2 c t).map fun rec =>
      (⟨rec.serviceUrl, rec.grantPayload⟩ : PermissionGrant)) ↔ Held c pg t := by
    simp only [getAllPermissionsV2, List.mem_map, List.mem_filter, decide_eq_true_eq, Held]
    constructor
    · rintro ⟨r, ⟨hr, hc⟩, rfl⟩
      exact ⟨r, hr, hc, rfl, rfl⟩
    · rintro ⟨r, hr, hc, hs, hg⟩
      exact ⟨r, ⟨hr, hc⟩, by rw [hs, hg]⟩
  unfold manifestNewlyDeclaredPermissionsV2 NewlyDeclared
  cases previous with
  | none =>
    dsimp only
    rw [mem_manifestUngranted, hheld]
    simp
  | some old =>
    dsimp only
    rw [List.mem_filter, mem_manifestUngranted, hheld]
    simp only [Option.mem_def, Option.some.injEq, forall_eq', decide_eq_true_eq]
    constructor
    · rintro ⟨⟨hall, hnot⟩, hold⟩
      exact ⟨⟨hall, hold⟩, hnot⟩
    · rintro ⟨⟨hall, hold⟩, hnot⟩
      exact ⟨⟨hall, hnot⟩, hold⟩

theorem mem_permissions_of_grantAll {grants : List PermissionGrant} (h : grantAll c grants t = .ok t')
    (r : PermissionRow) : r ∈ t'.permissions ↔
      r ∈ t.permissions ∨ ∃ pg ∈ grants, r = ⟨c, pg.serviceUrl, pg.grant, .global, ""⟩ := by
  unfold grantAll at h
  induction grants generalizing t with
  | nil =>
    obtain rfl := Except.ok.inj h
    simp
  | cons g grants ih =>
    rw [List.foldlM_cons] at h
    obtain ⟨u, hu, hrest⟩ := exists_of_bind_ok h
    obtain ⟨-, -, -, hpermissions⟩ := grantPermissionV2_ok hu
    have hmem : r ∈ u.permissions ↔ r ∈ t.permissions ∨ r = ⟨c, g.serviceUrl, g.grant, .global, ""⟩ := by
      rw [hpermissions]
      split
      · rename_i hin
        refine ⟨Or.inl, ?_⟩
        rintro (hr | rfl)
        · exact hr
        · exact hin
      · rw [List.mem_append, List.mem_singleton]
    rw [ih hrest, hmem]
    simp only [List.mem_cons, exists_eq_or_imp, or_assoc]

/-- A grant is among what a provider is sent. -/
theorem mem_grantsForProvider {s p grant : String} :
    grant ∈ (grantsForProvider c s p t).map PermissionEntry.grant ↔
      ∃ r ∈ t.permissions, AppliesTo c s p r ∧ r.grantPayload = grant := by
  rw [grantsForProvider_eq, List.map_map]
  simp only [List.mem_map, List.mem_filter, decide_eq_true_eq, Function.comp_apply, and_assoc]
  rfl

/-- After an approved update a provider is sent all that the update newly declares, exactly if every such
grant that some row of the consumer held before was held by a row that applies to the provider. -/
theorem approved_reaches_iff (h : approveUpdate c consumes previous t = .ok t') (p : String) :
    (∀ pg, NewlyDeclared consumes previous pg →
      pg.grant ∈ (grantsForProvider c pg.serviceUrl p t').map PermissionEntry.grant) ↔
    ∀ pg, NewlyDeclared consumes previous pg → Held c pg t →
      ∃ r ∈ t.permissions, AppliesTo c pg.serviceUrl p r ∧ r.grantPayload = pg.grant := by
  have hmem := mem_permissions_of_grantAll h
  constructor
  · intro hsent pg hnew hheld
    obtain ⟨r, hr, happlies, hgrant⟩ := mem_grantsForProvider.mp (hsent pg hnew)
    rcases (hmem r).mp hr with hold | ⟨pg', hpg', rfl⟩
    · exact ⟨r, hold, happlies, hgrant⟩
    · -- what was granted anew was not held
      obtain ⟨-, hnot⟩ := mem_manifestNewlyDeclared.mp hpg'
      have hsame : pg' = pg := by
        obtain ⟨-, hurl, -⟩ := happlies
        cases pg
        cases pg'
        cases hurl
        cases hgrant
        rfl
      exact absurd hheld (hsame ▸ hnot)
  · intro hcond pg hnew
    rw [mem_grantsForProvider]
    by_cases hheld : Held c pg t
    · obtain ⟨r, hr, happlies, hgrant⟩ := hcond pg hnew hheld
      exact ⟨r, (hmem r).mpr (Or.inl hr), happlies, hgrant⟩
    · have hgranted := mem_manifestNewlyDeclared.mpr ⟨hnew, hheld⟩
      exact ⟨_, (hmem _).mpr (Or.inr ⟨pg, hgranted, rfl⟩), ⟨rfl, rfl, Or.inl rfl⟩, rfl⟩

end

/-- An app that begins to consume a service. -/
def readGrant : List ServiceConsumes := [⟨"github.com/example/kv", "kv", ">=1", ["READ"]⟩]

theorem constraints_granted (p : String) : Constraints {
    apps := [⟨"notesnotes11", "notes", "2024-01-01 00:00:00", 9001, .running⟩]
    permissions := [⟨"notesnotes11", "github.com/example/kv", "READ", .app, p⟩] } where
  appIds := List.nodup_singleton _
  names := List.nodup_singleton _
  localPorts := List.nodup_singleton _
  providers := List.nodup_nil
  defaults := List.nodup_nil
  permissions := List.nodup_singleton _
  defaultApps _ hd := absurd hd List.not_mem_nil
  consumers q hq := by
    rw [List.mem_singleton.mp hq]
    exact List.mem_singleton.mpr rfl

/-- One provider has granted it access to itself. -/
def grantedBy (p : String) : Tables := ⟨_, constraints_granted p⟩

theorem newlyDeclared_readGrant {pg : PermissionGrant} (h : NewlyDeclared readGrant none pg) :
    pg = ⟨"github.com/example/kv", "READ"⟩ := List.mem_singleton.mp h.1

/-- The provider that has granted the access is sent the grant. -/
theorem approved_reaches_granter : ∃ t',
    approveUpdate "notesnotes11" readGrant none (grantedBy "kvkvkvkvkvk1") = .ok t' ∧
    ∀ pg, NewlyDeclared readGrant none pg →
      pg.grant ∈ (grantsForProvider "notesnotes11" pg.serviceUrl "kvkvkvkvkvk1" t').map
        PermissionEntry.grant := by
  refine ⟨grantedBy "kvkvkvkvkvk1", rfl, ?_⟩
  apply (approved_reaches_iff (t := grantedBy "kvkvkvkvkvk1") rfl "kvkvkvkvkvk1").mpr
  intro pg hnew _
  rw [newlyDeclared_readGrant hnew]
  exact ⟨_, List.mem_singleton.mpr rfl, ⟨rfl, rfl, Or.inr ⟨rfl, rfl, by decide⟩⟩, rfl⟩

/-- Another provider is not, although the owner has approved the update. -/
theorem approved_misses_other :
    ¬ ∀ c consumes previous t t' p, approveUpdate c consumes previous t = .ok t' →
      ∀ pg, NewlyDeclared consumes previous pg →
        pg.grant ∈ (grantsForProvider c pg.serviceUrl p t').map PermissionEntry.grant := by
  intro h
  have hsent := h "notesnotes11" readGrant none (grantedBy "kvkvkvkvkvk1") (grantedBy "kvkvkvkvkvk1")
    "redisredisr1" rfl ⟨"github.com/example/kv", "READ"⟩
    ⟨List.mem_singleton.mpr rfl, fun _ hold => by cases hold⟩
  obtain ⟨r, hr, happlies, -⟩ := mem_grantsForProvider.mp hsent
  rw [List.mem_singleton.mp hr] at happlies
  exact absurd happlies (by decide)

end OpenHost.Services

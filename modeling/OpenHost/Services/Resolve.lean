import OpenHost.Services.Operations
import OpenHost.Web.Proxy

/-!
# Which provider a call goes to

`resolve_provider` looks at one of the rows that the provider has for the service.  The key of the table
allows several, one for each version, and the statement asks for no order: which row comes first is the
database's choice.
-/

namespace OpenHost.Services

open Install (ProviderRow ServiceProvides)
open Web (ProxyTarget)

/-! ## The lookup -/

/-- `ResolvedProvider` -/
structure ResolvedProvider where
  serviceUrl : String
  appId : String
  appName : String
  serviceVersion : String
  endpoint : String
  target : ProxyTarget
  deriving DecidableEq, Repr

/-- `ProviderUnavailable` and its subclasses. -/
inductive ProviderUnavailable where
  | invalidSpecifier (message : String)
  | noProvider (message : String)
  | notRunning (message : String)
  | version (message : String)
  deriving DecidableEq, Repr

/-- The row that `fetchone` returns of those that the statement selects. -/
abbrev FetchOne : Type := List (ProviderRow × AppRow) → Option (ProviderRow × AppRow)

/-- It returns some row where there is one. -/
def FetchOne.Lawful (fetchone : FetchOne) : Prop :=
  ∀ rows, (∀ r, fetchone rows = some r → r ∈ rows) ∧ (fetchone rows = none → rows = [])

section

-- `Version(text)` and `SpecifierSet(text)`, none where they raise; the latter as the versions in it
variable {V : Type} [LinearOrder V] (version : String → Option V)
  (specifierSet : String → Option (V → Bool)) (builtins : List BuiltinService)

/-- `_check_version` -/
def checkVersion (providerVersion : String) (spec : V → Bool) (specifierText providerName : String) :
    Except ProviderUnavailable Unit :=
  match version providerVersion with
  | none =>
      .error (.version s!"Provider '{providerName}' has invalid version '{providerVersion}'")
  | some v =>
      if spec v then .ok ()
      else .error (.version
        s!"Provider '{providerName}' version {providerVersion} does not match '{specifierText}'")

/-- The rows of the provider for the service. -/
def rowsOf (serviceUrl appId : String) (t : Tables) : List (ProviderRow × AppRow) :=
  (t.providersOf serviceUrl).filter (·.1.appId = appId)

/-- The provider that the caller asks for, or the default one. -/
def targetAppId (serviceUrl : String) (providerAppId : Option String) (t : Tables) : Option String :=
  truthy providerAppId <|> defaultProviderIdForService version builtins serviceUrl t

/-- The provider is an app. -/
def resolveApp (fetchone : FetchOne) (serviceUrl versionSpecifier : String) (spec : V → Bool)
    (appId : String) (t : Tables) : Except ProviderUnavailable ResolvedProvider :=
  match fetchone (rowsOf serviceUrl appId t) with
  | none => .error (.noProvider s!"Provider '{appId}' not found for service '{serviceUrl}'")
  | some (sp, a) =>
      if a.status ≠ .running then
        .error (.notRunning s!"Provider '{a.name}' for '{serviceUrl}' is not running")
      else do
        checkVersion version sp.serviceVersion spec versionSpecifier a.name
        pure ⟨serviceUrl, appId, a.name, sp.serviceVersion, sp.endpoint, .localPort a.localPort⟩

/-- The provider is the router. -/
def resolveRouter (serviceUrl versionSpecifier : String) (spec : V → Bool) :
    Except ProviderUnavailable ResolvedProvider :=
  match builtinByUrl builtins serviceUrl with
  | none => .error (.noProvider s!"The router does not provide '{serviceUrl}'")
  | some builtin => do
      checkVersion version builtin.version spec versionSpecifier routerAppName
      pure ⟨serviceUrl, routerAppId, routerAppName, builtin.version, "/", .inProcess⟩

/-- `resolve_provider` -/
def resolveProvider (fetchone : FetchOne) (serviceUrl versionSpecifier : String)
    (providerAppId : Option String) (t : Tables) : Except ProviderUnavailable ResolvedProvider :=
  match specifierSet versionSpecifier with
  | none => .error (.invalidSpecifier s!"Invalid version specifier: {versionSpecifier}")
  | some spec =>
      match targetAppId version builtins serviceUrl providerAppId t with
      | none => .error (.noProvider s!"No provider for service '{serviceUrl}'")
      | some appId =>
          if appId = routerAppId then resolveRouter version builtins serviceUrl versionSpecifier spec
          else resolveApp version fetchone serviceUrl versionSpecifier spec appId t

/-! ## What it should answer -/

/-- The version is one that the specifier admits. -/
def Admits (versionSpecifier providerVersion : String) : Prop :=
  ∃ spec v, specifierSet versionSpecifier = some spec ∧ version providerVersion = some v ∧ spec v = true

/-- The versions that the provider has registered for the service, with their endpoints, and whether it is
running. -/
def Registered (serviceUrl appId : String) (t : Tables) : List (String × String × Bool) :=
  if appId = routerAppId then
    (builtinByUrl builtins serviceUrl).toList.map fun builtin => (builtin.version, "/", true)
  else (rowsOf serviceUrl appId t).map fun r =>
    (r.1.serviceVersion, r.1.endpoint, decide (r.2.status = .running))

/-- Whatever rows the database returns: the call succeeds exactly if the chosen provider is running and
has registered a version that is admitted, it gets the version and endpoint of such a registration, and
another call gets the same. -/
def ResolvesRight (serviceUrl versionSpecifier : String) (providerAppId : Option String) (t : Tables) :
    Prop :=
  ∀ fetchone fetchone' : FetchOne, fetchone.Lawful → fetchone'.Lawful →
    let resolve := fun f =>
      resolveProvider version specifierSet builtins f serviceUrl versionSpecifier providerAppId t
    let right := fun v endpoint => ∃ appId,
      targetAppId version builtins serviceUrl providerAppId t = some appId ∧
        (v, endpoint, true) ∈ Registered builtins serviceUrl appId t ∧
          Admits version specifierSet versionSpecifier v
    ((∃ res, resolve fetchone = .ok res) ↔ ∃ v endpoint, right v endpoint) ∧
    (∀ res, resolve fetchone = .ok res → right res.serviceVersion res.endpoint) ∧
    ∀ res res', resolve fetchone = .ok res → resolve fetchone' = .ok res' → res' = res

/-- The chosen provider is the router; or it is not running, has registered no version that is admitted,
or only one version. -/
def OneVersion (serviceUrl versionSpecifier : String) (providerAppId : Option String) (t : Tables) :
    Prop :=
  ∀ appId, targetAppId version builtins serviceUrl providerAppId t = some appId →
    appId = routerAppId ∨
    (∀ v endpoint, (v, endpoint, true) ∈ Registered builtins serviceUrl appId t →
      ¬ Admits version specifierSet versionSpecifier v) ∨
    ∀ r ∈ rowsOf serviceUrl appId t, ∀ r' ∈ rowsOf serviceUrl appId t,
      r'.1.serviceVersion = r.1.serviceVersion

end

/-! ## When it does -/

section

variable {V : Type} [LinearOrder V] {version : String → Option V}
  {specifierSet : String → Option (V → Bool)} {builtins : List BuiltinService}
  {serviceUrl versionSpecifier appId : String} {providerAppId : Option String} {t : Tables}

omit [LinearOrder V] in
theorem checkVersion_ok (versionSpecifier providerName : String) {providerVersion : String}
    {spec : V → Bool} : checkVersion version providerVersion spec versionSpecifier providerName = .ok () ↔
      ∃ v, version providerVersion = some v ∧ spec v = true := by
  unfold checkVersion
  cases version providerVersion with
  | none => simp
  | some v => by_cases h : spec v = true <;> simp [h]

/-- What a row is answered with. -/
def answer (serviceUrl appId : String) (r : ProviderRow × AppRow) : ResolvedProvider :=
  ⟨serviceUrl, appId, r.2.name, r.1.serviceVersion, r.1.endpoint, .localPort r.2.localPort⟩

omit [LinearOrder V] in
theorem resolveApp_ok {fetchone : FetchOne} {spec : V → Bool} {res : ResolvedProvider} :
    resolveApp version fetchone serviceUrl versionSpecifier spec appId t = .ok res ↔
      ∃ r, fetchone (rowsOf serviceUrl appId t) = some r ∧ r.2.status = .running ∧
        (∃ v, version r.1.serviceVersion = some v ∧ spec v = true) ∧ res = answer serviceUrl appId r := by
  unfold resolveApp
  cases hrow : fetchone (rowsOf serviceUrl appId t) with
  | none => simp
  | some r =>
    simp only [Option.some.injEq, exists_eq_left', ne_eq, ite_not]
    split
    · rename_i hrunning
      rw [← checkVersion_ok versionSpecifier r.2.name]
      cases hcheck : checkVersion version r.1.serviceVersion spec versionSpecifier r.2.name with
      | error e => simp [bind, Except.bind]
      | ok u => simp [bind, Except.bind, pure, Except.pure, hrunning, answer, eq_comm]
    · rename_i hstopped
      simp [hstopped]

omit [LinearOrder V] in
theorem resolveRouter_ok {spec : V → Bool} {res : ResolvedProvider} :
    resolveRouter version builtins serviceUrl versionSpecifier spec = .ok res ↔
      ∃ builtin, builtinByUrl builtins serviceUrl = some builtin ∧
        (∃ v, version builtin.version = some v ∧ spec v = true) ∧
        res = ⟨serviceUrl, routerAppId, routerAppName, builtin.version, "/", .inProcess⟩ := by
  unfold resolveRouter
  cases builtinByUrl builtins serviceUrl with
  | none => simp
  | some builtin =>
    simp only [Option.some.injEq, exists_eq_left']
    rw [← checkVersion_ok versionSpecifier routerAppName]
    cases hcheck : checkVersion version builtin.version spec versionSpecifier routerAppName with
    | error e => simp [bind, Except.bind]
    | ok u => simp [bind, Except.bind, pure, Except.pure, eq_comm]

/-- A call that succeeds has chosen a provider. -/
theorem resolveProvider_ok {fetchone : FetchOne} {res : ResolvedProvider} :
    resolveProvider version specifierSet builtins fetchone serviceUrl versionSpecifier providerAppId t =
        .ok res ↔
      ∃ spec appId, specifierSet versionSpecifier = some spec ∧
        targetAppId version builtins serviceUrl providerAppId t = some appId ∧
        if appId = routerAppId then
          resolveRouter version builtins serviceUrl versionSpecifier spec = .ok res
        else resolveApp version fetchone serviceUrl versionSpecifier spec appId t = .ok res := by
  unfold resolveProvider
  cases specifierSet versionSpecifier with
  | none => simp
  | some spec =>
    cases targetAppId version builtins serviceUrl providerAppId t with
    | none => simp
    | some appId =>
      simp only [Option.some.injEq, exists_and_left, exists_eq_left']
      split <;> rfl

theorem mem_registered {v endpoint : String} {running : Bool} (hrouter : appId ≠ routerAppId) :
    (v, endpoint, running) ∈ Registered builtins serviceUrl appId t ↔
      ∃ r ∈ rowsOf serviceUrl appId t, r.1.serviceVersion = v ∧ r.1.endpoint = endpoint ∧
        decide (r.2.status = .running) = running := by
  rw [Registered, if_neg hrouter, List.mem_map]
  simp only [Prod.mk.injEq]

/-- Whatever row the database returns, a call that succeeds is answered with a registration that is
admitted. -/
theorem right_of_resolve {fetchone : FetchOne} (hlawful : fetchone.Lawful) {res : ResolvedProvider}
    (h : resolveProvider version specifierSet builtins fetchone serviceUrl versionSpecifier providerAppId t =
      .ok res) :
    ∃ appId, targetAppId version builtins serviceUrl providerAppId t = some appId ∧
      (res.serviceVersion, res.endpoint, true) ∈ Registered builtins serviceUrl appId t ∧
        Admits version specifierSet versionSpecifier res.serviceVersion := by
  obtain ⟨spec, appId, hspec, htarget, h⟩ := resolveProvider_ok.mp h
  refine ⟨appId, htarget, ?_⟩
  split at h
  · rename_i hrouter
    obtain ⟨builtin, hbuiltin, ⟨v, hv, hadmits⟩, rfl⟩ := resolveRouter_ok.mp h
    refine ⟨?_, spec, v, hspec, hv, hadmits⟩
    rw [Registered, if_pos hrouter, hbuiltin]
    exact List.mem_singleton.mpr rfl
  · rename_i hrouter
    obtain ⟨r, hr, hrunning, ⟨v, hv, hadmits⟩, rfl⟩ := resolveApp_ok.mp h
    refine ⟨(mem_registered hrouter).mpr ⟨r, (hlawful _).1 r hr, rfl, rfl, ?_⟩, spec, v, hspec, hv,
      hadmits⟩
    exact decide_eq_true hrunning

/-- If the row that the database returns is running and admitted, the call succeeds with it. -/
theorem resolve_of_row {fetchone : FetchOne} {r : ProviderRow × AppRow}
    (htarget : targetAppId version builtins serviceUrl providerAppId t = some appId)
    (hrouter : appId ≠ routerAppId) (hr : fetchone (rowsOf serviceUrl appId t) = some r)
    (hrunning : r.2.status = .running)
    (hadmits : Admits version specifierSet versionSpecifier r.1.serviceVersion) :
    resolveProvider version specifierSet builtins fetchone serviceUrl versionSpecifier providerAppId t =
      .ok (answer serviceUrl appId r) := by
  obtain ⟨spec, v, hspec, hv, hadmits⟩ := hadmits
  apply resolveProvider_ok.mpr
  refine ⟨spec, appId, hspec, htarget, ?_⟩
  rw [if_neg hrouter]
  exact resolveApp_ok.mpr ⟨r, hr, hrunning, ⟨v, hv, hadmits⟩, rfl⟩

/-- The provider's rows differ in their versions. -/
theorem row_eq_of_version {r r' : ProviderRow × AppRow} (hr : r ∈ rowsOf serviceUrl appId t)
    (hr' : r' ∈ rowsOf serviceUrl appId t) (h : r.1.serviceVersion = r'.1.serviceVersion) : r = r' := by
  obtain ⟨hmem, hid⟩ := List.mem_filter.mp hr
  obtain ⟨hmem', hid'⟩ := List.mem_filter.mp hr'
  obtain ⟨hsp, hurl, ha, hown⟩ := Tables.mem_providersOf.mp hmem
  obtain ⟨hsp', hurl', ha', hown'⟩ := Tables.mem_providersOf.mp hmem'
  have hids : r.1.appId = r'.1.appId := (of_decide_eq_true hid).trans (of_decide_eq_true hid').symm
  have hprovider : r.1 = r'.1 := List.inj_on_of_nodup_map t.constraints.providers hsp hsp'
    (by rw [hurl, hurl', hids, h])
  have happ : r.2 = r'.2 := List.inj_on_of_nodup_map t.constraints.appIds ha ha'
    ((hown.trans hids).trans hown'.symm)
  exact Prod.ext hprovider happ

/-- The choice that prefers a row. -/
def prefer (r : ProviderRow × AppRow) : FetchOne := fun rows => if r ∈ rows then some r else rows.head?

theorem prefer_lawful (r : ProviderRow × AppRow) : (prefer r).Lawful := by
  intro rows
  unfold prefer
  split
  · rename_i hmem
    exact ⟨fun r' hr' => Option.some.inj hr' ▸ hmem, fun h => by cases h⟩
  · exact ⟨fun r' hr' => List.mem_of_mem_head? hr', fun h => List.head?_eq_none_iff.mp h⟩

theorem oneVersion_of_resolvesRight
    (h : ResolvesRight version specifierSet builtins serviceUrl versionSpecifier providerAppId t) :
    OneVersion version specifierSet builtins serviceUrl versionSpecifier providerAppId t := by
  intro appId htarget
  by_cases hrouter : appId = routerAppId
  · exact Or.inl hrouter
  right
  by_cases hnone : ∀ v endpoint, (v, endpoint, true) ∈ Registered builtins serviceUrl appId t →
      ¬ Admits version specifierSet versionSpecifier v
  · exact Or.inl hnone
  right
  simp only [not_forall, not_not] at hnone
  obtain ⟨v, endpoint, hmem, hadmits⟩ := hnone
  obtain ⟨r, hr, rfl, rfl, hrunning⟩ := (mem_registered hrouter).mp hmem
  -- a second row would be returned to another call
  have honly : ∀ r' ∈ rowsOf serviceUrl appId t, r' = r := by
    intro r' hr'
    have hpick : prefer r (rowsOf serviceUrl appId t) = some r := if_pos hr
    have hpick' : prefer r' (rowsOf serviceUrl appId t) = some r' := if_pos hr'
    have hfirst := resolve_of_row htarget hrouter hpick (of_decide_eq_true hrunning) hadmits
    obtain ⟨hiff, -, -⟩ := h (prefer r') (prefer r) (prefer_lawful r') (prefer_lawful r)
    obtain ⟨res, hres⟩ := hiff.mpr ⟨r.1.serviceVersion, r.1.endpoint, appId, htarget, hmem, hadmits⟩
    have hsame := (h (prefer r') (prefer r) (prefer_lawful r') (prefer_lawful r)).2.2 _ _ hres hfirst
    obtain ⟨spec, appId', -, htarget', hok⟩ := resolveProvider_ok.mp hres
    obtain rfl : appId' = appId := Option.some.inj (htarget'.symm.trans htarget)
    rw [if_neg hrouter] at hok
    obtain ⟨r'', hr'', -, -, rfl⟩ := resolveApp_ok.mp hok
    obtain rfl : r' = r'' := Option.some.inj (hpick'.symm.trans hr'')
    exact row_eq_of_version hr' hr (congrArg ResolvedProvider.serviceVersion hsame).symm
  intro r₁ h₁ r₂ h₂
  rw [honly r₁ h₁, honly r₂ h₂]

theorem resolvesRight_of_oneVersion
    (h : OneVersion version specifierSet builtins serviceUrl versionSpecifier providerAppId t) :
    ResolvesRight version specifierSet builtins serviceUrl versionSpecifier providerAppId t := by
  intro fetchone fetchone' hlawful hlawful'
  refine ⟨⟨?_, ?_⟩, fun res hres => right_of_resolve hlawful hres, ?_⟩
  · rintro ⟨res, hres⟩
    exact ⟨res.serviceVersion, res.endpoint, right_of_resolve hlawful hres⟩
  · rintro ⟨v, endpoint, appId, htarget, hmem, hadmits⟩
    by_cases hrouter : appId = routerAppId
    · rw [Registered, if_pos hrouter] at hmem
      obtain ⟨builtin, hbuiltin, heq⟩ := List.mem_map.mp hmem
      obtain ⟨rfl, -⟩ := Prod.mk.inj heq
      obtain ⟨spec, v, hspec, hv, hadmits⟩ := hadmits
      have hok : resolveRouter version builtins serviceUrl versionSpecifier spec = .ok _ :=
        resolveRouter_ok.mpr ⟨builtin, Option.mem_toList.mp hbuiltin, ⟨v, hv, hadmits⟩, rfl⟩
      exact ⟨_, resolveProvider_ok.mpr ⟨spec, appId, hspec, htarget, by rw [if_pos hrouter]; exact hok⟩⟩
    · obtain ⟨r, hr, rfl, rfl, hrunning⟩ := (mem_registered hrouter).mp hmem
      -- the database has no other row to return
      have hone : ∀ r₁ ∈ rowsOf serviceUrl appId t, r₁ = r := by
        intro r₁ h₁
        rcases h appId htarget with hrouter' | hnone | hsame
        · exact absurd hrouter' hrouter
        · exact absurd hadmits (hnone _ _ hmem)
        · exact row_eq_of_version h₁ hr (hsame r hr r₁ h₁)
      cases hfetch : fetchone (rowsOf serviceUrl appId t) with
      | none =>
        rw [(hlawful _).2 hfetch] at hr
        exact absurd hr List.not_mem_nil
      | some r₁ =>
        rw [hone r₁ ((hlawful _).1 r₁ hfetch)] at hfetch
        exact ⟨_, resolve_of_row htarget hrouter hfetch (of_decide_eq_true hrunning) hadmits⟩
  · intro res res' hres hres'
    obtain ⟨spec, appId, hspec, htarget, hok⟩ := resolveProvider_ok.mp hres
    obtain ⟨spec', appId', hspec', htarget', hok'⟩ := resolveProvider_ok.mp hres'
    obtain rfl : appId' = appId := Option.some.inj (htarget'.symm.trans htarget)
    split at hok
    · rename_i hrouter
      rw [if_pos hrouter] at hok'
      obtain ⟨builtin, hbuiltin, -, rfl⟩ := resolveRouter_ok.mp hok
      obtain ⟨builtin', hbuiltin', -, rfl⟩ := resolveRouter_ok.mp hok'
      rw [Option.some.inj (hbuiltin'.symm.trans hbuiltin)]
    · rename_i hrouter
      rw [if_neg hrouter] at hok'
      obtain ⟨r, hr, hrunning, ⟨v, hv, hadmits⟩, rfl⟩ := resolveApp_ok.mp hok
      obtain ⟨r', hr', -, -, rfl⟩ := resolveApp_ok.mp hok'
      have hmem := (hlawful _).1 r hr
      have hmem' := (hlawful' _).1 r' hr'
      rcases h appId' htarget with hrouter' | hnone | hsame
      · exact absurd hrouter' hrouter
      · exact absurd ⟨spec, v, hspec, hv, hadmits⟩ (hnone r.1.serviceVersion r.1.endpoint
          ((mem_registered hrouter).mpr ⟨r, hmem, rfl, rfl, decide_eq_true hrunning⟩))
      · rw [row_eq_of_version hmem' hmem (hsame r hmem r' hmem')]

end

/-- The lookup answers as it should, whatever row the database returns, exactly if the chosen provider is
the router, or is not running under a version that is admitted, or has registered one version only. -/
theorem resolvesRight_iff {V : Type} [LinearOrder V] (version : String → Option V)
    (specifierSet : String → Option (V → Bool)) (builtins : List BuiltinService)
    (serviceUrl versionSpecifier : String) (providerAppId : Option String) (t : Tables) :
    ResolvesRight version specifierSet builtins serviceUrl versionSpecifier providerAppId t ↔
      OneVersion version specifierSet builtins serviceUrl versionSpecifier providerAppId t :=
  ⟨oneVersion_of_resolvesRight, resolvesRight_of_oneVersion⟩

/-! ## Two versions -/

/-- The versions and the specifier of the example. -/
def twoVersions (text : String) : Option Nat :=
  if text = "1.0" then some 1 else if text = "2.0" then some 2 else none

def fromTwo (text : String) : Option (Nat → Bool) := if text = ">=2" then some (2 ≤ ·) else none

/-- An app that registers two versions of a service, and comes to run. -/
def registering : List ServiceOp :=
  [.insertAndDeploy ⟨"kvkvkvkvkvk1", "kv", "2024-01-01 00:00:00", 9001, .running⟩
    [⟨"github.com/example/kv", "1.0", "/v1"⟩, ⟨"github.com/example/kv", "2.0", "/v2"⟩],
    .updateStatus "kvkvkvkvkvk1" .running]

/-- A row of the older version, which is not admitted, hides the newer one. -/
theorem older_row_hides_newer :
    ¬ ∀ t, Runs builtinServices (fun _ _ => True) .empty t →
      ∀ serviceUrl versionSpecifier providerAppId,
        ResolvesRight twoVersions fromTwo builtinServices serviceUrl versionSpecifier providerAppId t := by
  intro h
  have hview : (runAll (fun t op => (perform builtinServices op t).toOption) (fun _ _ => True)
      Tables.empty registering).map (fun t =>
        (targetAppId twoVersions builtinServices "github.com/example/kv" none t,
          Registered builtinServices "github.com/example/kv" "kvkvkvkvkvk1" t)) =
      some (some "kvkvkvkvkvk1", [("1.0", "/v1", true), ("2.0", "/v2", true)]) := by
    decide +kernel
  obtain ⟨t, ht, hrows⟩ := Option.map_eq_some_iff.mp hview
  obtain ⟨htarget, hregistered⟩ := Prod.mk.inj hrows
  have hrouter : "kvkvkvkvkvk1" ≠ routerAppId := by decide
  have hone := oneVersion_of_resolvesRight
    (h t (runs_of_runAll ht) "github.com/example/kv" ">=2" none) _ htarget
  rcases hone with hrouter' | hnone | hsame
  · exact hrouter hrouter'
  · apply hnone "2.0" "/v2"
    · rw [hregistered]
      exact List.mem_cons_of_mem _ List.mem_cons_self
    · exact ⟨(2 ≤ ·), 2, rfl, rfl, rfl⟩
  · obtain ⟨r, hr, hversion, -⟩ := (mem_registered hrouter).mp
      (hregistered ▸ List.mem_cons_self : ("1.0", "/v1", true) ∈ Registered builtinServices _ _ t)
    obtain ⟨r', hr', hversion', -⟩ := (mem_registered hrouter).mp
      (hregistered ▸ List.mem_cons_of_mem _ List.mem_cons_self :
        ("2.0", "/v2", true) ∈ Registered builtinServices _ _ t)
    have heq := hsame r hr r' hr'
    rw [hversion, hversion'] at heq
    exact absurd heq (by decide)

end OpenHost.Services

import Mathlib.Data.List.DropRight
import OpenHost.Services.Defaults
import OpenHost.Services.Permissions
import OpenHost.Services.Resolve

/-!
# Service URLs

A manifest may write a service with or without a scheme and with slashes behind it;
`_normalize_service_url` brings what it declares to one form, which the tables and the lookups use.  The
requests of the owner and of the providers name a service by that form: nothing normalises what they say.
-/

namespace OpenHost.Services

open Install (ProviderRow ServiceProvides)

/-! ## Normal forms -/

/-- `url.removeprefix(p)` -/
def removePrefix (p url : String) : String := (Text.stripPrefix? p url).getD url

/-- `_normalize_service_url`; kept closed, or comparing two entries would run it. -/
@[irreducible] def normalizeServiceUrl (url : String) : String :=
  Text.rstrip '/' (removePrefix "http://" (removePrefix "https://" url))

/-- The text begins with one of the two schemes. -/
def HasScheme (url : String) : Prop := (∃ r, url = "https://" ++ r) ∨ ∃ r, url = "http://" ++ r

theorem removePrefix_append (p r : String) : removePrefix p (p ++ r) = r := by
  rw [removePrefix, Text.stripPrefix?_eq_some_iff.mpr rfl]
  rfl

theorem removePrefix_of_ne {p url : String} (h : ∀ r, url ≠ p ++ r) : removePrefix p url = url := by
  cases hstrip : Text.stripPrefix? p url with
  | none => rw [removePrefix, hstrip, Option.getD_none]
  | some r => exact absurd (Text.stripPrefix?_eq_some_iff.mp hstrip) (h r)

theorem length_removePrefix_le (p url : String) :
    (removePrefix p url).toList.length ≤ url.toList.length := by
  by_cases h : ∃ r, url = p ++ r
  · obtain ⟨r, rfl⟩ := h
    simp [removePrefix_append]
  · rw [removePrefix_of_ne fun r hr => h ⟨r, hr⟩]

theorem length_rstrip_le (c : Char) (s : String) : (Text.rstrip c s).toList.length ≤ s.toList.length := by
  have h := (List.dropWhile_suffix (fun d => decide (d = c)) (l := s.toList.reverse)).length_le
  simpa [Text.rstrip] using h

theorem rstrip_rstrip (c : Char) (s : String) : Text.rstrip c (Text.rstrip c s) = Text.rstrip c s := by
  simp [Text.rstrip, List.dropWhile_idempotent]

/-- A scheme that is removed makes the text shorter. -/
theorem length_normalize_lt {url : String} (h : HasScheme url) :
    (normalizeServiceUrl url).toList.length < url.toList.length := by
  have hrstrip := length_rstrip_le '/' (removePrefix "http://" (removePrefix "https://" url))
  have hhttp := length_removePrefix_le "http://" (removePrefix "https://" url)
  unfold normalizeServiceUrl
  by_cases hhttps : ∃ r, url = "https://" ++ r
  · obtain ⟨r, rfl⟩ := hhttps
    rw [removePrefix_append] at hrstrip hhttp ⊢
    have hlonger : r.toList.length < ("https://" ++ r).toList.length := by
      rw [String.toList_append, List.length_append]
      exact Nat.lt_add_of_pos_left (by decide)
    omega
  · obtain ⟨r, rfl⟩ := h.resolve_left hhttps
    rw [removePrefix_of_ne fun r' hr => hhttps ⟨r', hr⟩, removePrefix_append] at hrstrip ⊢
    have hlonger : r.toList.length < ("http://" ++ r).toList.length := by
      rw [String.toList_append, List.length_append]
      exact Nat.lt_add_of_pos_left (by decide)
    omega

/-- A second time changes nothing, unless what the first time has left begins with a scheme. -/
theorem normalize_normalize_iff (url : String) :
    normalizeServiceUrl (normalizeServiceUrl url) = normalizeServiceUrl url ↔
      ¬ HasScheme (normalizeServiceUrl url) := by
  have hstripped : Text.rstrip '/' (normalizeServiceUrl url) = normalizeServiceUrl url := by
    unfold normalizeServiceUrl
    exact rstrip_rstrip _ _
  generalize normalizeServiceUrl url = u at hstripped
  constructor
  · intro h hscheme
    have hlt := length_normalize_lt hscheme
    rw [h] at hlt
    exact Nat.lt_irrefl _ hlt
  · intro h
    unfold normalizeServiceUrl
    rw [removePrefix_of_ne fun r hr => h (.inl ⟨r, hr⟩), removePrefix_of_ne fun r hr => h (.inr ⟨r, hr⟩),
      hstripped]

/-! ## Manifests -/

/-- A `[[services.v2.provides]]` entry: `ServiceProvides` converts the service. -/
def providesEntry (written : ServiceProvides) : ServiceProvides :=
  { written with service := normalizeServiceUrl written.service }

/-- A `[[services.v2.consumes]]` entry: `ServiceConsumes` converts the service. -/
def consumesEntry (written : ServiceConsumes) : ServiceConsumes :=
  { written with service := normalizeServiceUrl written.service }

/-- `lookup_service_by_manifest_shortname`, in what the stored manifest of the consumer consumes. -/
def lookupServiceByManifestShortname (shortname : String) (consumes : List ServiceConsumes) :
    Option (String × String) :=
  (consumes.find? (·.shortname = shortname)).map fun perm => (perm.service, perm.version)

@[simp] theorem shortname_consumesEntry (written : ServiceConsumes) :
    (consumesEntry written).shortname = written.shortname := rfl

@[simp] theorem service_consumesEntry (written : ServiceConsumes) :
    (consumesEntry written).service = normalizeServiceUrl written.service := rfl

@[simp] theorem version_consumesEntry (written : ServiceConsumes) :
    (consumesEntry written).version = written.version := rfl

/-- A consumer's lookup gives the normal form of what its manifest says. -/
theorem lookup_consumesEntry (shortname : String) (written : List ServiceConsumes) :
    lookupServiceByManifestShortname shortname (written.map consumesEntry) =
      (written.find? (·.shortname = shortname)).map fun w => (normalizeServiceUrl w.service, w.version) := by
  induction written with
  | nil => rfl
  | cons w ws ih =>
    rw [lookupServiceByManifestShortname] at ih ⊢
    rw [List.map_cons, List.find?_cons, List.find?_cons, shortname_consumesEntry]
    cases decide (w.shortname = shortname) with
    | true => simp
    | false => exact ih

theorem declares_providesEntry {written : List ServiceProvides} {s : String} :
    (∃ v, Declares (written.map providesEntry) s v) ↔
      ∃ w ∈ written, normalizeServiceUrl w.service = s := by
  simp [Declares, providesEntry]

/-! ## What a URL denotes -/

variable {t t' : Tables} {p : String}

/-- The rows of an installed app for a service are those that it offers. -/
theorem rowsOf_ne_nil_iff {s : String} (hp : p ∈ t.apps.map AppRow.appId) :
    rowsOf s p t ≠ [] ↔ ∃ v, Offers t s p v := by
  constructor
  · intro hne
    obtain ⟨⟨sp, a⟩, hmem⟩ := List.exists_mem_of_ne_nil _ hne
    obtain ⟨hrow, hid⟩ := List.mem_filter.mp hmem
    obtain ⟨hsp, hurl, -, -⟩ := Tables.mem_providersOf.mp hrow
    exact ⟨sp.serviceVersion, sp, hsp, hurl, of_decide_eq_true hid, rfl⟩
  · rintro ⟨v, sp, hsp, hurl, hid, -⟩
    obtain ⟨a, ha, haid⟩ := List.mem_map.mp hp
    have hrow := Tables.mem_providersOf.mpr ⟨hsp, hurl, ha, haid.trans hid.symm⟩
    exact List.ne_nil_of_mem (List.mem_filter.mpr ⟨hrow, decide_eq_true hid⟩)

/-- A default can be set to an installed app exactly for what it offers. -/
theorem setDefault_iff {builtins : List BuiltinService} {s : String} (hp : p ∈ t.apps.map AppRow.appId)
    (hrouter : p ≠ routerAppId) :
    (∃ t', setDefault builtins s p t = .ok t') ↔ ∃ v, Offers t s p v := by
  have hany : (t.providers.any fun r => r.serviceUrl = s && r.appId = p) = true ↔ ∃ v, Offers t s p v := by
    simp [Offers]
  rw [setDefault, if_neg hrouter, ← hany]
  constructor
  · rintro ⟨t', h⟩
    split at h
    · assumption
    · cases h
  · intro hoffers
    rw [if_pos hoffers]
    have hconstraints := t.constraints
    have hwrite : Constraints { t.toRows with
        defaults := t.defaults.filter (·.serviceUrl ≠ s) ++ [⟨s, p⟩] } := by
      refine { hconstraints with defaults := ?_, defaultApps := ?_ }
      · -- the row of the service, if there was one, is replaced
        have hold : ((t.defaults.filter (·.serviceUrl ≠ s)).map DefaultRow.serviceUrl).Nodup :=
          hconstraints.defaults.sublist (List.filter_sublist.map _)
        rw [List.map_append]
        refine List.Nodup.append hold (List.nodup_singleton _) ?_
        rintro url hmem hurl
        obtain ⟨d, hd, rfl⟩ := List.mem_map.mp hmem
        exact of_decide_eq_true (List.mem_filter.mp hd).2 (List.mem_singleton.mp hurl)
      · intro d hd
        rcases List.mem_append.mp hd with hd | hd
        · exact hconstraints.defaultApps d (List.mem_of_mem_filter hd)
        · rw [List.mem_singleton.mp hd]
          exact hp
    exact ⟨_, dif_pos hwrite⟩

/-- A grant of the owner reaches a provider exactly for the service that the request names. -/
theorem mem_grantsForProvider_of_grant {c w grant s : String}
    (h : grantGlobalScoped ⟨some c, some w, some grant⟩ t = .ok t') :
    ⟨grant, .global⟩ ∈ grantsForProvider c s p t' ↔
      w = s ∨ ⟨grant, .global⟩ ∈ grantsForProvider c s p t := by
  have hgrant : grantPermissionV2 ⟨c, w, grant, .global, ""⟩ t = .ok t' := by
    unfold grantGlobalScoped at h
    split at h
    · next hc hw hg =>
      obtain ⟨rfl, -⟩ := truthy_eq_some_iff.mp hc
      obtain ⟨rfl, -⟩ := truthy_eq_some_iff.mp hw
      cases hg
      exact h
    · cases h
  have hmem : ∀ r, r ∈ t'.permissions ↔ r ∈ t.permissions ∨ r = ⟨c, w, grant, .global, ""⟩ := by
    intro r
    rw [(grantPermissionV2_ok hgrant).2.2.2]
    split
    · next hold =>
      refine ⟨.inl, ?_⟩
      rintro (hr | rfl)
      · exact hr
      · exact hold
    · rw [List.mem_append, List.mem_singleton]
  simp only [grantsForProvider_eq, List.mem_map, List.mem_filter, decide_eq_true_eq, hmem]
  constructor
  · rintro ⟨r, ⟨hr | rfl, happlies⟩, hentry⟩
    · exact .inr ⟨r, ⟨hr, happlies⟩, hentry⟩
    · exact .inl happlies.2.1
  · rintro (rfl | ⟨r, ⟨hr, happlies⟩, hentry⟩)
    · exact ⟨_, ⟨.inr rfl, rfl, rfl, .inl rfl⟩, rfl⟩
    · exact ⟨r, ⟨.inl hr, happlies⟩, hentry⟩

section

variable {V : Type} [LinearOrder V] (version : String → Option V) (builtins : List BuiltinService)

/-- A default that has been set is found for the service that the request names, and changes none
other. -/
theorem default_of_setDefault {w s : String} (hrouter : p ≠ routerAppId)
    (h : setDefault builtins w p t = .ok t') :
    defaultProviderIdForService version builtins s t' =
      if w = s then some p else defaultProviderIdForService version builtins s t := by
  have hrows : t'.toRows = { t.toRows with
      defaults := t.defaults.filter (·.serviceUrl ≠ w) ++ [⟨w, p⟩] } := by
    rw [setDefault, if_neg hrouter] at h
    split at h
    · exact Tables.write_ok h
    · cases h
  have hdefaults : t'.defaults = t.defaults.filter (·.serviceUrl ≠ w) ++ [⟨w, p⟩] := by rw [hrows]
  by_cases hws : w = s
  · rw [if_pos hws, defaultProviderIdForService]
    have hstored : t'.storedDefault s = some p := by
      rw [Tables.storedDefault_eq_some_iff, hdefaults, hws]
      exact List.mem_append_right _ (List.mem_singleton_self _)
    rw [hstored]
  · rw [if_neg hws]
    have hstored : t'.storedDefault s = t.storedDefault s := by
      apply Option.ext
      intro d
      rw [Tables.storedDefault_eq_some_iff, Tables.storedDefault_eq_some_iff, hdefaults]
      simp [Ne.symm hws]
    have hincumbent : incumbentProviderId version s t' = incumbentProviderId version s t := by
      have hproviders : t'.providersOf s = t.providersOf s := by
        simp only [Tables.providersOf, Tables.findApp, hrows]
      rw [incumbentProviderId, hproviders]
      rfl
    rw [defaultProviderIdForService, defaultProviderIdForService, hstored, hincumbent]

/-- After an installed app has registered what its manifest provides: `_normalize_service_url` is
idempotent unless what it leaves begins with a scheme; a consumer's lookup gives the normal form of what
its manifest says, and finds the app exactly if the app's manifest writes that service in some way; and a
grant or a default that a request names by the normal form is one for that service: the grant reaches the
provider, the default can be set if the app provides it, and is found. -/
theorem serviceUrl_denotes {foreignKeys : Bool} {written : List ServiceProvides} {t₀ : Tables}
    (hregister : registerServicesProvidedByApp foreignKeys p (written.map providesEntry) t₀ = .ok t)
    (hinstalled : p ∈ t₀.apps.map AppRow.appId) (hrouter : p ≠ routerAppId) (u : String) :
    (normalizeServiceUrl (normalizeServiceUrl u) = normalizeServiceUrl u ↔
      ¬ HasScheme (normalizeServiceUrl u)) ∧
    (∀ shortname (consumed : List ServiceConsumes),
      lookupServiceByManifestShortname shortname (consumed.map consumesEntry) =
        (consumed.find? (·.shortname = shortname)).map fun w =>
          (normalizeServiceUrl w.service, w.version)) ∧
    (rowsOf (normalizeServiceUrl u) p t ≠ [] ↔
      ∃ w ∈ written, normalizeServiceUrl w.service = normalizeServiceUrl u) ∧
    (∀ c grant t', grantGlobalScoped ⟨some c, some (normalizeServiceUrl u), some grant⟩ t = .ok t' →
      ⟨grant, .global⟩ ∈ grantsForProvider c (normalizeServiceUrl u) p t') ∧
    ((∃ t', setDefault builtins (normalizeServiceUrl u) p t = .ok t') ↔
      ∃ w ∈ written, normalizeServiceUrl w.service = normalizeServiceUrl u) ∧
    ∀ t', setDefault builtins (normalizeServiceUrl u) p t = .ok t' →
      defaultProviderIdForService version builtins (normalizeServiceUrl u) t' = some p := by
  obtain ⟨happs, -, -, hoffers⟩ := register_ok hregister
  have hp : p ∈ t.apps.map AppRow.appId := by rwa [happs]
  have hprovides : ∀ s, (∃ v, Offers t s p v) ↔ ∃ w ∈ written, normalizeServiceUrl w.service = s := by
    intro s
    rw [← declares_providesEntry]
    simp [hoffers]
  refine ⟨normalize_normalize_iff u, lookup_consumesEntry, ?_, ?_, ?_, ?_⟩
  · rw [rowsOf_ne_nil_iff hp, hprovides]
  · intro c grant t' h
    exact (mem_grantsForProvider_of_grant h).mpr (.inl rfl)
  · rw [setDefault_iff hp hrouter, hprovides]
  · intro t' h
    rw [default_of_setDefault version builtins hrouter h, if_pos rfl]

end

/-- A manifest that writes the service with a scheme and a slash. -/
def writtenKv : List ServiceProvides := [⟨"https://github.com/example/kv/", "1.0", "/"⟩]

/-- The service is found under the form that a consumer's manifest gives, and a grant for that form
reaches the provider. -/
theorem serviceUrl_denotes_kv : ∃ t,
    registerServicesProvidedByApp false "notesnotes11" (writtenKv.map providesEntry)
      (servedBy "notesnotes11") = .ok t ∧
    (rowsOf (normalizeServiceUrl "http://github.com/example/kv") "notesnotes11" t ≠ [] ↔
      ∃ w ∈ writtenKv,
        normalizeServiceUrl w.service = normalizeServiceUrl "http://github.com/example/kv") := by
  have hsome : (registerServicesProvidedByApp false "notesnotes11" (writtenKv.map providesEntry)
      (servedBy "notesnotes11")).toOption.isSome = true := by
    decide +kernel
  obtain ⟨t, ht⟩ := Option.isSome_iff_exists.mp hsome
  have hregister : registerServicesProvidedByApp false "notesnotes11" (writtenKv.map providesEntry)
      (servedBy "notesnotes11") = .ok t := by
    cases hresult : registerServicesProvidedByApp false "notesnotes11" (writtenKv.map providesEntry)
        (servedBy "notesnotes11") with
    | error e => simp [hresult, Except.toOption] at ht
    | ok t' =>
      rw [hresult] at ht
      exact congrArg Except.ok (Option.some.inj ht)
  exact ⟨t, hregister, (serviceUrl_denotes firstVersion builtinServices hregister
    (by decide) (by decide) "http://github.com/example/kv").2.2.1⟩

/-- A request that names the service as a manifest may write it grants nothing for it, and a scheme that
is written twice is taken off twice. -/
theorem grant_misses_service :
    normalizeServiceUrl "https://github.com/example/kv" = kvUrl ∧
      (grantGlobalScoped ⟨some "wikiwikiwik1", some "https://github.com/example/kv", some "READ"⟩
        (servedBy "notesnotes11")).toOption.map (grantsForProvider "wikiwikiwik1" kvUrl "notesnotes11") =
          some [] ∧
      normalizeServiceUrl (normalizeServiceUrl "https://https://kv") ≠
        normalizeServiceUrl "https://https://kv" := by
  decide +kernel

end OpenHost.Services

import OpenHost.Services.Operations

/-!
# The default provider of a service

`default_provider_id_for_service` over whole histories: when it names a provider that provides the
service, and which operations leave it where it is.
-/

namespace OpenHost.Services

open Install (ProviderRow ServiceProvides)

/-! ## The incumbent -/

/-- An installed app offers this version of the service; with the time at which it was installed. -/
def Candidate (t : Tables) (serviceUrl appId version createdAt : String) : Prop :=
  Offers t serviceUrl appId version ∧ ∃ a ∈ t.apps, a.appId = appId ∧ a.createdAt = createdAt

theorem exists_providersOf_iff {t : Tables} {serviceUrl appId v createdAt : String} :
    (∃ r ∈ t.providersOf serviceUrl, r.1.appId = appId ∧ r.1.serviceVersion = v ∧
      r.2.createdAt = createdAt) ↔ Candidate t serviceUrl appId v createdAt := by
  constructor
  · rintro ⟨⟨sp, a⟩, hr, rfl, rfl, rfl⟩
    obtain ⟨hsp, hurl, ha, hid⟩ := Tables.mem_providersOf.mp hr
    exact ⟨⟨sp, hsp, hurl, rfl, rfl⟩, a, ha, hid, rfl⟩
  · rintro ⟨⟨sp, hsp, hurl, rfl, rfl⟩, a, ha, hid, rfl⟩
    exact ⟨(sp, a), Tables.mem_providersOf.mpr ⟨hsp, hurl, ha, hid⟩, rfl, rfl, rfl⟩

section

variable {V : Type} [LinearOrder V] {version : String → Option V}

/-- `(Version(version), app_id)` -/
def rank (version : String → Option V) (v appId : String) : WithBot V ×ₗ String :=
  toLex (version v, appId)

/-- The app offers the service, no provider of it was installed earlier, and of those that were
installed in the same second none comes later by version and id. -/
def Leads (version : String → Option V) (t : Tables) (serviceUrl appId : String) : Prop :=
  ∃ v createdAt, Candidate t serviceUrl appId v createdAt ∧
    ∀ appId' v' createdAt', Candidate t serviceUrl appId' v' createdAt' →
      createdAt ≤ createdAt' ∧ (createdAt' = createdAt → rank version v' appId' ≤ rank version v appId)

theorem incumbentProviderId_eq_none_iff {t : Tables} {serviceUrl : String} :
    incumbentProviderId version serviceUrl t = none ↔ t.providersOf serviceUrl = [] := by
  rw [incumbentProviderId, Option.map_eq_none_iff, List.argmax_eq_none]
  constructor
  · intro h
    cases hold : (t.providersOf serviceUrl).argmin fun r => r.2.createdAt with
    | none => exact List.argmin_eq_none.mp hold
    | some o =>
      -- the oldest one is among those that are tied
      have hmem := List.argmin_mem hold
      have htied := List.filter_eq_nil_iff.mp h o hmem
      simp [hold] at htied
  · intro h
    rw [h]
    rfl

theorem leads_of_incumbent {t : Tables} {serviceUrl appId : String}
    (h : incumbentProviderId version serviceUrl t = some appId) : Leads version t serviceUrl appId := by
  obtain ⟨r, hr, rfl⟩ := Option.map_eq_some_iff.mp h
  obtain ⟨hmem, htied⟩ := List.mem_filter.mp (List.argmax_mem hr)
  obtain ⟨o, ho, hsame⟩ := (Option.any_eq_true _ _).mp htied
  have hcreated : r.2.createdAt = o.2.createdAt := of_decide_eq_true hsame
  refine ⟨r.1.serviceVersion, r.2.createdAt,
    exists_providersOf_iff.mp ⟨r, hmem, rfl, rfl, rfl⟩, ?_⟩
  intro appId' v' createdAt' hcandidate
  obtain ⟨r', hr', rfl, rfl, rfl⟩ := exists_providersOf_iff.mpr hcandidate
  constructor
  · rw [hcreated]
    exact List.le_of_mem_argmin (f := fun r : ProviderRow × AppRow => r.2.createdAt) hr' ho
  · intro heq
    have hin : r' ∈ (t.providersOf serviceUrl).filter fun r =>
        ((t.providersOf serviceUrl).argmin fun r => r.2.createdAt).any fun o =>
          r.2.createdAt = o.2.createdAt := by
      refine List.mem_filter.mpr ⟨hr', (Option.any_eq_true _ _).mpr ⟨o, ho, ?_⟩⟩
      exact decide_eq_true (heq.trans hcreated)
    exact List.le_of_mem_argmax hin hr

/-- The incumbent is the one provider that leads, in whatever order the rows stand. -/
theorem incumbentProviderId_eq_some_iff {t : Tables} {serviceUrl appId : String} :
    incumbentProviderId version serviceUrl t = some appId ↔ Leads version t serviceUrl appId := by
  refine ⟨leads_of_incumbent, ?_⟩
  rintro ⟨v, createdAt, hcandidate, hleads⟩
  cases h : incumbentProviderId version serviceUrl t with
  | none =>
    obtain ⟨r, hr, -⟩ := exists_providersOf_iff.mpr hcandidate
    rw [incumbentProviderId_eq_none_iff.mp h] at hr
    exact absurd hr List.not_mem_nil
  | some d =>
    obtain ⟨v', createdAt', hcandidate', hleads'⟩ := leads_of_incumbent h
    obtain ⟨hle, hrank⟩ := hleads d v' createdAt' hcandidate'
    obtain ⟨hle', hrank'⟩ := hleads' appId v createdAt hcandidate
    have hcreated : createdAt' = createdAt := le_antisymm hle' hle
    have hsame : rank version v' d = rank version v appId :=
      le_antisymm (hrank hcreated) (hrank' hcreated.symm)
    have happ : d = appId := (Prod.mk.inj (toLex.injective hsame)).2
    rw [happ]

end

/-! ## A default that provides the service -/

/-- An installed app, or a builtin, currently provides the service. -/
def Provides (builtins : List BuiltinService) (t : Tables) (serviceUrl p : String) : Prop :=
  (p = routerAppId ∧ (builtinByUrl builtins serviceUrl).isSome) ∨
    ∃ v createdAt, Candidate t serviceUrl p v createdAt

section

variable {V : Type} [LinearOrder V] (version : String → Option V) (builtins : List BuiltinService)

/-- Where anything provides the service, its default does; otherwise it has none. -/
def Served (t : Tables) (serviceUrl : String) : Prop :=
  ((∃ p, Provides builtins t serviceUrl p) →
    ∃ d, defaultProviderIdForService version builtins serviceUrl t = some d ∧
      Provides builtins t serviceUrl d) ∧
  ((¬ ∃ p, Provides builtins t serviceUrl p) →
    defaultProviderIdForService version builtins serviceUrl t = none)

variable {version builtins} {t t' : Tables} {serviceUrl : String}

/-- What the owner has not picked is derived from what is provided. -/
theorem served_of_no_choice (hchoice : t.storedDefault serviceUrl = none) :
    Served version builtins t serviceUrl := by
  unfold Served defaultProviderIdForService
  rw [hchoice]
  dsimp only
  split
  · rename_i hbuiltin
    have hrouter : Provides builtins t serviceUrl routerAppId := Or.inl ⟨rfl, hbuiltin⟩
    exact ⟨fun _ => ⟨routerAppId, rfl, hrouter⟩, fun hnone => absurd ⟨_, hrouter⟩ hnone⟩
  · rename_i hbuiltin
    cases hincumbent : incumbentProviderId version serviceUrl t with
    | some d =>
      obtain ⟨v, createdAt, hcandidate, -⟩ := leads_of_incumbent hincumbent
      have hprovides : Provides builtins t serviceUrl d := Or.inr ⟨v, createdAt, hcandidate⟩
      exact ⟨fun _ => ⟨d, rfl, hprovides⟩, fun hnone => absurd ⟨d, hprovides⟩ hnone⟩
    | none =>
      refine ⟨?_, fun _ => rfl⟩
      rintro ⟨p, ⟨-, hbuiltin'⟩ | ⟨v, createdAt, hcandidate⟩⟩
      · exact absurd hbuiltin' hbuiltin
      · obtain ⟨r, hr, -⟩ := exists_providersOf_iff.mpr hcandidate
        rw [incumbentProviderId_eq_none_iff.mp hincumbent] at hr
        exact absurd hr List.not_mem_nil

/-- A service is served exactly when the provider that the owner picked, if any, provides it. -/
theorem served_iff : Served version builtins t serviceUrl ↔
    ∀ d, t.storedDefault serviceUrl = some d → Provides builtins t serviceUrl d := by
  constructor
  · rintro ⟨hsome, hnone⟩ d hd
    have hdefault : defaultProviderIdForService version builtins serviceUrl t = some d := by
      rw [defaultProviderIdForService, hd]
    by_cases hany : ∃ p, Provides builtins t serviceUrl p
    · obtain ⟨d', hd', hprovides⟩ := hsome hany
      rw [hdefault] at hd'
      rw [Option.some.inj hd']
      exact hprovides
    · rw [hnone hany] at hdefault
      cases hdefault
  · intro hchoice
    cases hd : t.storedDefault serviceUrl with
    | none => exact served_of_no_choice hd
    | some d =>
      have hprovides := hchoice d hd
      have hdefault : defaultProviderIdForService version builtins serviceUrl t = some d := by
        rw [defaultProviderIdForService, hd]
      exact ⟨fun _ => ⟨d, hdefault, hprovides⟩, fun hnone => absurd ⟨d, hprovides⟩ hnone⟩

end

/-! ## Choices that are kept -/

/-- Every provider that the owner picked provides the service. -/
def ChoicesProvide (t : Tables) : Prop :=
  ∀ s d, t.storedDefault s = some d → ∃ v, Offers t s d v

/-- The operation registers no app under a manifest that drops a service which the owner has picked it
for. -/
def KeepsChoices (t : Tables) : ServiceOp → Prop
  | .register _ appId provides => ∀ s, t.storedDefault s = some appId → ∃ v, Declares provides s v
  | _ => True

section

variable {builtins : List BuiltinService} {t t' : Tables} {op : ServiceOp}

/-- A choice is made by the owner alone, of an app that provides the service. -/
theorem choice_of_perform (h : perform builtins op t = .ok t') {s d : String}
    (hd : t'.storedDefault s = some d) : t.storedDefault s = some d ∨
      op = .setDefault s d ∧ ∃ v, Offers t s d v := by
  simp only [Tables.storedDefault_eq_some_iff] at hd ⊢
  by_cases hop : op.isPermission = true
  · rw [(sameServices_of_perform hop h).defaults] at hd
    exact Or.inl hd
  cases op with
  | insertAndDeploy a provides =>
    rw [(insertAndDeploy_ok h).2.1] at hd
    exact Or.inl hd
  | updateStatus appId status =>
    rw [(updateStatus_ok h).2.2.1] at hd
    exact Or.inl hd
  | register foreignKeys appId provides =>
    rw [(register_ok h).2.1] at hd
    exact Or.inl hd
  | removeApp appId =>
    rw [(deleteApp_ok h).2.1] at hd
    exact Or.inl (List.mem_filter.mp hd).1
  | setDefault serviceUrl appId =>
    obtain ⟨-, -, -, chosen, hdefaults, hchosen⟩ := setDefault_ok h
    rw [hdefaults] at hd
    rcases List.mem_append.mp hd with hd | hd
    · exact Or.inl (List.mem_filter.mp hd).1
    · rcases hchosen with rfl | ⟨rfl, hoffers⟩
      · exact absurd hd List.not_mem_nil
      · obtain ⟨rfl, rfl⟩ := DefaultRow.mk.inj (List.mem_singleton.mp hd)
        exact Or.inr ⟨rfl, hoffers⟩
  | clearDefault serviceUrl =>
    rw [(clearDefault_ok h).2.2.2] at hd
    exact Or.inl (List.mem_filter.mp hd).1
  | _ => exact absurd rfl hop

/-- A picked app is installed. -/
theorem mem_apps_of_choice {s d : String} (hd : t.storedDefault s = some d) :
    ∃ a ∈ t.apps, a.appId = d :=
  List.mem_map.mp (t.constraints.defaultApps _ (Tables.storedDefault_eq_some_iff.mp hd))

theorem Offers.congr {s a v : String} (hproviders : t'.providers = t.providers) :
    Offers t' s a v ↔ Offers t s a v := by
  rw [Offers, hproviders, Offers]

/-- An app goes on offering what it offered, unless it is registered anew or removed. -/
theorem offers_of_perform (h : perform builtins op t = .ok t') {s d v : String}
    (hinstalled : ∃ a ∈ t.apps, a.appId = d) (hremains : ∃ a ∈ t'.apps, a.appId = d)
    (hoffers : Offers t s d v) :
    Offers t' s d v ∨ ∃ foreignKeys provides, op = .register foreignKeys d provides := by
  by_cases hop : op.isPermission = true
  · exact Or.inl ((Offers.congr (sameServices_of_perform hop h).providers).mpr hoffers)
  cases op with
  | insertAndDeploy a provides =>
    obtain ⟨happs, -, -, hafter⟩ := insertAndDeploy_ok h
    -- the new app has an id of its own
    have hne : d ≠ a.appId := by
      rintro rfl
      have hnodup := t'.constraints.appIds
      rw [happs, List.map_append, List.nodup_append] at hnodup
      obtain ⟨b, hb, hid⟩ := hinstalled
      exact hnodup.2.2 b.appId (List.mem_map_of_mem hb) a.appId (List.mem_singleton.mpr rfl) hid
    exact Or.inl ((hafter s d v).mpr (Or.inl ⟨hne, hoffers⟩))
  | updateStatus appId status =>
    exact Or.inl ((Offers.congr (updateStatus_ok h).2.1).mpr hoffers)
  | register foreignKeys appId provides =>
    by_cases hne : d = appId
    · exact Or.inr ⟨foreignKeys, provides, by rw [hne]⟩
    · exact Or.inl (((register_ok h).2.2.2 s d v).mpr (Or.inl ⟨hne, hoffers⟩))
  | removeApp appId =>
    obtain ⟨happs, -, hafter⟩ := deleteApp_ok h
    obtain ⟨b, hb, hid⟩ := hremains
    rw [happs] at hb
    have hne : d ≠ appId := by
      rw [← hid]
      exact of_decide_eq_true (List.mem_filter.mp hb).2
    exact Or.inl ((hafter s d v).mpr ⟨hne, hoffers⟩)
  | setDefault serviceUrl appId =>
    exact Or.inl ((Offers.congr (setDefault_ok h).2.1).mpr hoffers)
  | clearDefault serviceUrl =>
    exact Or.inl ((Offers.congr (clearDefault_ok h).2.1).mpr hoffers)
  | _ => exact absurd rfl hop

theorem choicesProvide_of_perform (hchoices : ChoicesProvide t) (hkeeps : KeepsChoices t op)
    (h : perform builtins op t = .ok t') : ChoicesProvide t' := by
  intro s d hd
  have hremains := mem_apps_of_choice hd
  rcases choice_of_perform h hd with hold | ⟨rfl, v, hoffers⟩
  · obtain ⟨v, hoffers⟩ := hchoices s d hold
    rcases offers_of_perform h (mem_apps_of_choice hold) hremains hoffers with
      hoffers' | ⟨foreignKeys, provides, rfl⟩
    · exact ⟨v, hoffers'⟩
    · -- the picked app is registered under a manifest that keeps the service
      obtain ⟨w, hdeclares⟩ := hkeeps s hold
      exact ⟨w, ((register_ok h).2.2.2 s d w).mpr (Or.inr ⟨rfl, hdeclares⟩)⟩
  · exact ⟨v, (Offers.congr (setDefault_ok h).2.1).mpr hoffers⟩

end

section

variable {V : Type} [LinearOrder V]

theorem served_of_choicesProvide {version : String → Option V} {builtins : List BuiltinService}
    {t : Tables} (hchoices : ChoicesProvide t) (serviceUrl : String) :
    Served version builtins t serviceUrl := by
  apply served_iff.mpr
  intro d hd
  obtain ⟨v, hoffers⟩ := hchoices serviceUrl d hd
  obtain ⟨a, ha, hid⟩ := mem_apps_of_choice hd
  exact Or.inr ⟨v, a.createdAt, hoffers, a, ha, hid, rfl⟩

/-- In every state a service is served exactly when the owner's choice, if there is one, provides it.
In every run in which no app is registered under a manifest that drops a service it was picked for, every
service is served in every state. -/
theorem served_of_runs (version : String → Option V) (builtins : List BuiltinService) :
    (∀ t serviceUrl, Served version builtins t serviceUrl ↔
      ∀ d, t.storedDefault serviceUrl = some d → Provides builtins t serviceUrl d) ∧
    ∀ t, Runs builtins KeepsChoices .empty t → ∀ serviceUrl, Served version builtins t serviceUrl := by
  refine ⟨fun t serviceUrl => served_iff, fun t h => ?_⟩
  have hchoices : ChoicesProvide t := by
    apply h.invariant ChoicesProvide
    · intro s d hd
      have hmem := Tables.storedDefault_eq_some_iff.mp hd
      exact absurd hmem List.not_mem_nil
    · exact fun t op t' hchoices hkeeps hstep => choicesProvide_of_perform hchoices hkeeps hstep
  exact fun serviceUrl => served_of_choicesProvide hchoices serviceUrl

end

/-! ## A service that is dropped -/

/-- The one version that the examples register. -/
def firstVersion (text : String) : Option Nat := if text = "1.0" then some 1 else none

def kvUrl : String := "github.com/example/kv"

def provideKv : List ServiceProvides := [⟨kvUrl, "1.0", "/"⟩]

/-- Two apps provide a service, the owner picks the second one, and an update of it drops the
service. -/
def dropping : List ServiceOp :=
  [.insertAndDeploy ⟨"notesnotes11", "notes", "2024-01-01 00:00:00", 9001, .running⟩ provideKv,
    .insertAndDeploy ⟨"wikiwikiwik1", "wiki", "2024-02-01 00:00:00", 9002, .running⟩ provideKv,
    .setDefault kvUrl "wikiwikiwik1", .register false "wikiwikiwik1" []]

/-- What is looked at in the tables that the operations leave. -/
def providersAndChoices (ops : List ServiceOp) : Option (List (String × String) × List DefaultRow) :=
  (runAll (fun t op => (perform builtinServices op t).toOption) (fun _ _ => True) Tables.empty ops).map
    fun t => (t.providers.map fun sp => (sp.serviceUrl, sp.appId), t.defaults)

theorem choice_outlives_service : ¬ ∀ t, Runs builtinServices (fun _ _ => True) .empty t →
    ∀ serviceUrl, Served firstVersion builtinServices t serviceUrl := by
  intro h
  have hview : providersAndChoices dropping =
      some ([(kvUrl, "notesnotes11")], [⟨kvUrl, "wikiwikiwik1"⟩]) := by
    decide +kernel
  obtain ⟨t, ht, hrows⟩ := Option.map_eq_some_iff.mp hview
  obtain ⟨hproviders, hdefaults⟩ := Prod.mk.inj hrows
  have hchoice : t.storedDefault kvUrl = some "wikiwikiwik1" := by
    rw [Tables.storedDefault_eq_some_iff, hdefaults]
    exact List.mem_singleton.mpr rfl
  have hprovides := served_iff.mp (h t (runs_of_runAll ht) kvUrl) _ hchoice
  rcases hprovides with ⟨-, hbuiltin⟩ | ⟨v, createdAt, ⟨sp, hsp, hurl, hid, -⟩, -⟩
  · cases hbuiltin
  · have hmem : (sp.serviceUrl, sp.appId) ∈ t.providers.map fun sp => (sp.serviceUrl, sp.appId) :=
      List.mem_map_of_mem hsp
    rw [hproviders, hurl, hid] at hmem
    exact absurd hmem (by decide +kernel)

/-! ## A default that stays -/

/-- A choice stays until it is changed, withdrawn, or its app is removed. -/
theorem choice_kept {builtins : List BuiltinService} {t t' : Tables} {op : ServiceOp} {s d : String}
    (h : perform builtins op t = .ok t') (hd : t.storedDefault s = some d)
    (hremove : op ≠ .removeApp d) (hset : ∀ a, op ≠ .setDefault s a) (hclear : op ≠ .clearDefault s) :
    t'.storedDefault s = some d := by
  rw [Tables.storedDefault_eq_some_iff] at hd ⊢
  by_cases hop : op.isPermission = true
  · rw [(sameServices_of_perform hop h).defaults]
    exact hd
  cases op with
  | insertAndDeploy a provides =>
    rw [(insertAndDeploy_ok h).2.1]
    exact hd
  | updateStatus appId status =>
    rw [(updateStatus_ok h).2.2.1]
    exact hd
  | register foreignKeys appId provides =>
    rw [(register_ok h).2.1]
    exact hd
  | removeApp appId =>
    rw [(deleteApp_ok h).2.1]
    have hne : d ≠ appId := fun heq => hremove (by rw [heq])
    exact List.mem_filter.mpr ⟨hd, decide_eq_true hne⟩
  | setDefault serviceUrl appId =>
    obtain ⟨-, -, -, chosen, hdefaults, -⟩ := setDefault_ok h
    have hne : s ≠ serviceUrl := fun heq => hset appId (by rw [heq])
    rw [hdefaults]
    exact List.mem_append_left _ (List.mem_filter.mpr ⟨hd, decide_eq_true hne⟩)
  | clearDefault serviceUrl =>
    have hne : s ≠ serviceUrl := fun heq => hclear (by rw [heq])
    rw [(clearDefault_ok h).2.2.2]
    exact List.mem_filter.mpr ⟨hd, decide_eq_true hne⟩
  | _ => exact absurd rfl hop

section

variable {V : Type} [LinearOrder V] {version : String → Option V} {t t' : Tables} {s d : String}

/-- A leader goes on leading while its versions stay and only later apps join. -/
theorem Leads.mono (h : Leads version t s d)
    (hkept : ∀ v createdAt, Candidate t s d v createdAt → Candidate t' s d v createdAt)
    (hjoin : ∀ p v createdAt, Candidate t' s p v createdAt → Candidate t s p v createdAt ∨
      ∀ v' createdAt', Candidate t s d v' createdAt' → createdAt' < createdAt) :
    Leads version t' s d := by
  obtain ⟨v, createdAt, hcandidate, hleads⟩ := h
  refine ⟨v, createdAt, hkept v createdAt hcandidate, ?_⟩
  intro p v' createdAt' hcandidate'
  rcases hjoin p v' createdAt' hcandidate' with hold | hlater
  · exact hleads p v' createdAt' hold
  · have hlt := hlater v createdAt hcandidate
    exact ⟨hlt.le, fun heq => absurd heq.symm hlt.ne⟩

end

/-- The app was installed later than `d`. -/
def InstalledAfter (t : Tables) (d appId : String) : Prop :=
  ∀ a ∈ t.apps, a.appId = appId → ∀ b ∈ t.apps, b.appId = d → b.createdAt < a.createdAt

/-- What an operation may be for a service whose default is `d`: an app that is installed is created
later than every provider; `d` is registered under the versions that it has; another app under no new
one, unless it was installed later or the owner has picked `d`; `d` is not removed, and the choice for the
service is not touched. -/
def Respects (s d : String) (t : Tables) : ServiceOp → Prop
  | .insertAndDeploy a _ => ∀ p v createdAt, Candidate t s p v createdAt → createdAt < a.createdAt
  | .register _ appId provides =>
      if appId = d then ∀ v, Declares provides s v ↔ Offers t s d v
      else t.storedDefault s = some d ∨ (∀ v, Declares provides s v → Offers t s appId v) ∨
        InstalledAfter t d appId
  | .removeApp appId => appId ≠ d
  | .setDefault serviceUrl _ | .clearDefault serviceUrl => serviceUrl ≠ s
  | _ => True

/-- The same with nothing said of the other apps that are registered. -/
def RespectsOwn (s d : String) (t : Tables) : ServiceOp → Prop
  | .register _ appId provides => appId = d → ∀ v, Declares provides s v ↔ Offers t s d v
  | op => Respects s d t op

section

variable {t t' : Tables} {s d : String}

/-- The candidates are read off the providers, and off the ids of the apps and when they were
created. -/
theorem Candidate.congr {p v createdAt : String}
    (happs : t'.apps.map (fun a => (a.appId, a.createdAt)) =
      t.apps.map (fun a => (a.appId, a.createdAt))) (hproviders : t'.providers = t.providers) :
    Candidate t' s p v createdAt ↔ Candidate t s p v createdAt := by
  have hinstalled : ∀ u : Tables, (∃ a ∈ u.apps, a.appId = p ∧ a.createdAt = createdAt) ↔
      (p, createdAt) ∈ u.apps.map fun a => (a.appId, a.createdAt) := by
    intro u
    simp only [List.mem_map, Prod.mk.injEq]
  rw [Candidate, hinstalled, happs, ← hinstalled, Offers.congr hproviders, Candidate]

/-- The candidates after an app was installed: those that there were, and the new app. -/
theorem candidate_insertAndDeploy {a : AppRow} {provides : List ServiceProvides}
    (h : insertAndDeploy a provides t = .ok t') {p v createdAt : String} :
    (Candidate t s p v createdAt → Candidate t' s p v createdAt) ∧
      (Candidate t' s p v createdAt → Candidate t s p v createdAt ∨ createdAt = a.createdAt) := by
  obtain ⟨happs, -, -, hoffers⟩ := insertAndDeploy_ok h
  have hnew : ∀ b ∈ t.apps, b.appId ≠ a.appId := by
    have hnodup := t'.constraints.appIds
    rw [happs, List.map_append, List.nodup_append] at hnodup
    exact fun b hb => hnodup.2.2 b.appId (List.mem_map_of_mem hb) a.appId (List.mem_singleton.mpr rfl)
  constructor
  · rintro ⟨hp, b, hb, rfl, rfl⟩
    refine ⟨(hoffers s b.appId v).mpr (Or.inl ⟨hnew b hb, hp⟩), b, ?_, rfl, rfl⟩
    rw [happs]
    exact List.mem_append_left _ hb
  · rintro ⟨hp, b, hb, rfl, rfl⟩
    rw [happs] at hb
    rcases List.mem_append.mp hb with hb | hb
    · rcases (hoffers s b.appId v).mp hp with ⟨-, hp⟩ | ⟨hid, -⟩
      · exact Or.inl ⟨hp, b, hb, rfl, rfl⟩
      · exact absurd hid (hnew b hb)
    · rw [List.mem_singleton.mp hb]
      exact Or.inr rfl

variable {V : Type} [LinearOrder V] {version : String → Option V} {builtins : List BuiltinService}
  {op : ServiceOp}

theorem Leads.congr (h : Leads version t s d)
    (happs : t'.apps.map (fun a => (a.appId, a.createdAt)) =
      t.apps.map (fun a => (a.appId, a.createdAt))) (hproviders : t'.providers = t.providers) :
    Leads version t' s d :=
  h.mono (fun _ _ hc => (Candidate.congr happs hproviders).mpr hc)
    fun _ _ _ hc => Or.inl ((Candidate.congr happs hproviders).mp hc)

theorem leads_of_perform (h : perform builtins op t = .ok t') (hrespects : Respects s d t op)
    (hchoice : t.storedDefault s = none) (hleads : Leads version t s d) : Leads version t' s d := by
  by_cases hop : op.isPermission = true
  · obtain ⟨happs, hproviders, -⟩ := sameServices_of_perform hop h
    exact hleads.congr (by rw [happs]) hproviders
  cases op with
  | insertAndDeploy a provides =>
    apply hleads.mono
    · exact fun v c hc => (candidate_insertAndDeploy h).1 hc
    · intro p v c hc
      rcases (candidate_insertAndDeploy h).2 hc with hold | rfl
      · exact Or.inl hold
      · exact Or.inr fun v' c' hc' => hrespects d v' c' hc'
  | register foreignKeys appId provides =>
    obtain ⟨happs, -, -, hoffers⟩ := register_ok h
    by_cases hid : appId = d
    · subst hid
      rw [Respects, if_pos rfl] at hrespects
      -- what the leader offers is what it offered
      have hsame : ∀ p v, Offers t' s p v ↔ Offers t s p v := by
        intro p v
        rw [hoffers, hrespects]
        by_cases hp : p = appId
        · subst hp
          simp
        · simp [hp]
      have hcandidate : ∀ p v c, Candidate t' s p v c ↔ Candidate t s p v c := by
        intro p v c
        rw [Candidate, hsame, happs, Candidate]
      exact hleads.mono (fun v c hc => (hcandidate _ v c).mpr hc)
        fun p v c hc => Or.inl ((hcandidate p v c).mp hc)
    · rw [Respects, if_neg hid] at hrespects
      apply hleads.mono
      · rintro v c ⟨hd, hinstalled⟩
        refine ⟨(hoffers s d v).mpr (Or.inl ⟨fun heq => hid heq.symm, hd⟩), ?_⟩
        rw [happs]
        exact hinstalled
      · rintro p v c ⟨hp, b, hb, hbid, rfl⟩
        rw [happs] at hb
        rcases (hoffers s p v).mp hp with ⟨-, hold⟩ | ⟨rfl, hdeclares⟩
        · exact Or.inl ⟨hold, b, hb, hbid, rfl⟩
        · rcases hrespects with hstored | hsubset | hafter
          · rw [hchoice] at hstored
            cases hstored
          · exact Or.inl ⟨hsubset v hdeclares, b, hb, hbid, rfl⟩
          · right
            rintro v' c' ⟨-, b', hb', hbid', rfl⟩
            exact hafter b hb hbid b' hb' hbid'
  | removeApp appId =>
    obtain ⟨happs, -, hoffers⟩ := deleteApp_ok h
    apply hleads.mono
    · rintro v c ⟨hd, b, hb, rfl, rfl⟩
      have hne : b.appId ≠ appId := fun heq => hrespects heq.symm
      refine ⟨(hoffers s b.appId v).mpr ⟨hne, hd⟩, b, ?_, rfl, rfl⟩
      rw [happs]
      exact List.mem_filter.mpr ⟨hb, decide_eq_true hne⟩
    · rintro p v c ⟨hp, b, hb, hbid, rfl⟩
      rw [happs] at hb
      exact Or.inl ⟨((hoffers s p v).mp hp).2, b, (List.mem_filter.mp hb).1, hbid, rfl⟩
  | setDefault serviceUrl appId =>
    obtain ⟨happs, hproviders, -⟩ := setDefault_ok h
    exact hleads.congr (by rw [happs]) hproviders
  | clearDefault serviceUrl =>
    obtain ⟨happs, hproviders, -⟩ := clearDefault_ok h
    exact hleads.congr (by rw [happs]) hproviders
  | updateStatus appId status =>
    obtain ⟨happs, hproviders, -⟩ := updateStatus_ok h
    exact hleads.congr happs hproviders
  | _ => exact absurd rfl hop

/-- Why the default is what it is. -/
theorem default_eq_some_iff : defaultProviderIdForService version builtins s t = some d ↔
    t.storedDefault s = some d ∨ t.storedDefault s = none ∧
      if (builtinByUrl builtins s).isSome then d = routerAppId else Leads version t s d := by
  unfold defaultProviderIdForService
  cases t.storedDefault s with
  | some e => simp
  | none =>
    dsimp only
    split
    · simp [eq_comm]
    · simp [incumbentProviderId_eq_some_iff]

theorem default_of_perform (h : perform builtins op t = .ok t') (hrespects : Respects s d t op)
    (hd : defaultProviderIdForService version builtins s t = some d) :
    defaultProviderIdForService version builtins s t' = some d := by
  rw [default_eq_some_iff] at hd ⊢
  have hset : ∀ a, op ≠ .setDefault s a := by
    rintro a rfl
    exact hrespects rfl
  rcases hd with hstored | ⟨hnone, hderived⟩
  · left
    apply choice_kept h hstored
    · rintro rfl
      exact hrespects rfl
    · exact hset
    · rintro rfl
      exact hrespects rfl
  · right
    constructor
    · cases hstored : t'.storedDefault s with
      | none => rfl
      | some e =>
        rcases choice_of_perform h hstored with hold | ⟨hop, -⟩
        · rw [hnone] at hold
          cases hold
        · exact absurd hop (hset e)
    · split
      · rename_i hbuiltin
        rwa [if_pos hbuiltin] at hderived
      · rename_i hbuiltin
        rw [if_neg hbuiltin] at hderived
        exact leads_of_perform h hrespects hnone hderived

/-- The default of a service stays over every run of operations that respect it; and registering an app,
at whatever time, neither makes nor withdraws a choice of the owner. -/
theorem default_of_runs (version : String → Option V) (builtins : List BuiltinService)
    (hd : defaultProviderIdForService version builtins s t = some d)
    (h : Runs builtins (Respects s d) t t') :
    defaultProviderIdForService version builtins s t' = some d ∧
      ∀ u u' foreignKeys appId provides,
        perform builtins (.register foreignKeys appId provides) u = .ok u' → u'.defaults = u.defaults := by
  constructor
  · exact h.invariant (fun t => defaultProviderIdForService version builtins s t = some d) hd
      fun _ _ _ hd hrespects hstep => default_of_perform hstep hrespects hd
  · exact fun u u' foreignKeys appId provides hregister => (register_ok hregister).2.1

end

/-- Two apps, the first of which was installed a month earlier. -/
def twoApps : List AppRow :=
  [⟨"notesnotes11", "notes", "2024-01-01 00:00:00", 9001, .running⟩,
    ⟨"wikiwikiwik1", "wiki", "2024-02-01 00:00:00", 9002, .running⟩]

theorem nodup_twoApps : (twoApps.map AppRow.appId).Nodup ∧ (twoApps.map AppRow.name).Nodup ∧
    (twoApps.map AppRow.localPort).Nodup := by
  decide

theorem constraints_twoApps (appId : String) :
    Constraints { apps := twoApps, providers := [⟨kvUrl, appId, "1.0", "/"⟩] } where
  appIds := nodup_twoApps.1
  names := nodup_twoApps.2.1
  localPorts := nodup_twoApps.2.2
  providers := List.nodup_singleton _
  defaults := List.nodup_nil
  permissions := List.nodup_nil
  defaultApps _ hd := absurd hd List.not_mem_nil
  consumers _ hp := absurd hp List.not_mem_nil

/-- One of them provides the service. -/
def servedBy (appId : String) : Tables := ⟨_, constraints_twoApps appId⟩

/-- The newer app becomes a provider in a reload. -/
theorem default_of_reload : ∃ t',
    Runs builtinServices (Respects kvUrl "notesnotes11") (servedBy "notesnotes11") t' ∧
    t'.providers.length = 2 ∧
    defaultProviderIdForService firstVersion builtinServices kvUrl t' = some "notesnotes11" := by
  have hd : defaultProviderIdForService firstVersion builtinServices kvUrl (servedBy "notesnotes11") =
      some "notesnotes11" := by
    decide +kernel
  have hview : ((perform builtinServices (.register false "wikiwikiwik1" provideKv)
      (servedBy "notesnotes11")).toOption.map fun t => t.providers.length) = some 2 := by
    decide +kernel
  obtain ⟨t', hstep, hlength⟩ := Option.map_eq_some_iff.mp hview
  have hrun : Runs builtinServices (Respects kvUrl "notesnotes11") (servedBy "notesnotes11") t' := by
    refine .step .refl ?_ (perform_of_toOption hstep)
    rw [Respects, if_neg (by decide)]
    have hafter : ∀ a ∈ twoApps, a.appId = "wikiwikiwik1" → ∀ b ∈ twoApps, b.appId = "notesnotes11" →
        b.createdAt < a.createdAt := by
      decide +kernel
    exact Or.inr (Or.inr hafter)
  exact ⟨t', hrun, hlength, (default_of_runs firstVersion builtinServices hd hrun).1⟩

/-- A reload that makes the older app a provider takes the service from the newer one. -/
theorem reload_moves_default :
    ¬ ∀ t t' s d, defaultProviderIdForService firstVersion builtinServices s t = some d →
      Runs builtinServices (RespectsOwn s d) t t' →
      defaultProviderIdForService firstVersion builtinServices s t' = some d := by
  intro h
  have hview : ((perform builtinServices (.register false "notesnotes11" provideKv)
      (servedBy "wikiwikiwik1")).toOption.map
        (defaultProviderIdForService firstVersion builtinServices kvUrl)) =
          some (some "notesnotes11") := by
    decide +kernel
  obtain ⟨t', hstep, hd'⟩ := Option.map_eq_some_iff.mp hview
  have hrun : Runs builtinServices (RespectsOwn kvUrl "wikiwikiwik1") (servedBy "wikiwikiwik1") t' := by
    refine .step .refl ?_ (perform_of_toOption hstep)
    intro hsame
    exact absurd hsame (by decide)
  have hd := h (servedBy "wikiwikiwik1") t' kvUrl "wikiwikiwik1" (by decide +kernel) hrun
  rw [hd'] at hd
  exact absurd hd (by decide)

end OpenHost.Services

import OpenHost.Install.Sync

/-!
# What a failed reload leaves

The handlers of `reload_app_background`: a `ValueError` of the synchronisation is passed over, and
the launch goes on; any other exception is written into the row, and committed with whatever the
transaction holds.
-/

namespace OpenHost.Install

open Proc (Within Keeps within_bind)

/-! ## Statements that leave the rows of the manifest alone -/

/-- What is committed and what the connection sees has the rows of `t`. -/
abbrev AllRestored (appId : String) (t : Tables) : Conn Tables → Prop :=
  Conn.All fun u => Restored appId t.toRows u.toRows

section

variable {env : ReloadEnv} {appId : String} {t : Tables}

theorem restored_updateApp {f : AppRow → AppRow} (hf : Harmless f) {u u' : Tables}
    (h : u.updateApp appId f = .ok u') : Restored appId u.toRows u'.toRows := by
  rw [Tables.write_ok h]
  exact Restored.of_setApp hf.toKeepsKeys hf.columns

theorem keeps_updateApp {f : AppRow → AppRow} (hf : Harmless f) (s : Stmt) :
    Within (Keeps (AllRestored appId t)) (env.execute s (Tables.updateApp appId f)) :=
  Env.keeps_execute fun _ _ hu h => hu.trans (restored_updateApp hf h)

theorem keeps_commit (s : Stmt) : Within (Keeps (AllRestored appId t)) (env.commit s) :=
  Session.keeps_commit _

theorem keeps_call (s : Call) : Within (Keeps (AllRestored appId t)) (env.call s) := by
  unfold Env.call
  split
  · exact Proc.within_raise _
  · exact Proc.within_pure _

theorem keeps_markAppStarting (env : ReloadEnv) (mark done : Stmt) :
    Within (Keeps (AllRestored appId t)) (markAppStarting env appId mark done) :=
  within_bind (keeps_updateApp harmless_setStarting mark) fun _ => keeps_commit done

theorem keeps_startContainer :
    Within (Keeps (AllRestored appId t)) (startContainer env appId) :=
  within_bind (keeps_call .runContainer) fun _ =>
    within_bind (keeps_updateApp (harmless_setContainer _) .recordContainer) fun _ =>
      within_bind (keeps_commit .commitContainer) fun _ =>
        within_bind (keeps_updateApp (harmless_setReady _) .recordReady) fun _ =>
          keeps_commit .commitReady

theorem keeps_recordError (e : Raised) :
    Within (Keeps (AllRestored appId t)) (recordError env appId e) :=
  within_bind (keeps_updateApp (harmless_setError _) .recordError) fun _ =>
    keeps_commit .commitError

/-- The handler of `run_app_image` starts from what is committed. -/
theorem allRestored_recordLaunchFailure (row : AppRow) (e : Raised) {c : Conn Tables}
    (h : Restored appId t.toRows c.committed.toRows) :
    AllRestored appId t (recordLaunchFailure env appId row e c).2 := by
  have hrest : Within (Keeps (AllRestored appId t)) (do
      Proc.tryExcept
        (do env.execute .recordLaunchFailure (Tables.updateApp appId fun a =>
              { a.setError e.error.text with containerId := persistedContainerId env row e.site })
            env.commit .commitLaunchFailure)
        (fun e => e.error.isSqliteError) fun _ => Session.rollback
      (Proc.raise e : Session Raised Tables Unit)) :=
    within_bind
      (Proc.within_tryExcept
        (within_bind (keeps_updateApp (harmless_setLaunchError _ _) .recordLaunchFailure) fun _ =>
          keeps_commit .commitLaunchFailure)
        fun _ => Session.keeps_rollback)
      fun _ => Proc.within_raise e
  exact hrest c.rolledBack ⟨h, h⟩

end

/-! ## The handler of the reload -/

section

variable {env : ReloadEnv} {appId : String} {c : Conn Tables}

/-- The handler cannot write its error, and the connection is closed on what was committed. -/
def HandlerFails (env : ReloadEnv) : Prop :=
  (env.refuses .recordError).isSome = true ∨ (env.refuses .commitError).isSome = true

theorem execute_refused (env : ReloadEnv) {s : Stmt} {f : Tables → Except PyError Tables}
    (h : (env.refuses s).isSome = true) :
    ∃ e c', env.execute s f c = (.raised e, c') ∧ c'.committed = c.committed := by
  obtain ⟨r, hr⟩ := Option.isSome_iff_exists.mp h
  have hraised : ∃ e c', env.execute s f c = (.raised e, c') := by
    unfold Env.execute Session.execute Env.refusal
    rw [hr]
    exact ⟨_, _, rfl⟩
  obtain ⟨e, c', hraised⟩ := hraised
  exact ⟨e, c', hraised, (Session.same_execute _ _).of_eq hraised⟩

theorem commit_refused (env : ReloadEnv) {s : Stmt} (h : (env.refuses s).isSome = true) :
    ∃ e c', env.commit s c = (.raised e, c') ∧ c'.committed = c.committed := by
  obtain ⟨r, hr⟩ := Option.isSome_iff_exists.mp h
  have hraised : ∃ e c', env.commit s c = (.raised e, c') := by
    unfold Env.commit Session.commit Env.refusal
    rw [hr]
    exact ⟨_, _, rfl⟩
  obtain ⟨e, c', hraised⟩ := hraised
  exact ⟨e, c', hraised, (Env.commit_raised hraised).2.2.1⟩

theorem execute_accepted {s : Stmt} {f : Tables → Except PyError Tables} {t : Tables}
    (h : (env.refuses s).isSome = false) (hf : f c.seen = .ok t) :
    env.execute s f c = (.ok (), { c with txn := some t }) := by
  refine Session.execute_ok_iff.mpr ⟨?_, t, mapError_ok_iff.mpr hf, rfl⟩
  have hnone : env.refuses s = none := by simpa using h
  rw [Env.refusal, hnone, Option.map_none]

theorem commit_accepted {s : Stmt} (h : (env.refuses s).isSome = false) :
    env.commit s c = (.ok (), Conn.fresh c.seen) := by
  refine Session.commit_ok_iff.mpr ⟨?_, rfl⟩
  have hnone : env.refuses s = none := by simpa using h
  rw [Env.refusal, hnone, Option.map_none]

/-- The handler publishes what the connection sees, or nothing where it fails itself. -/
theorem restored_recordError_iff (e : Raised) {t : Tables} (hcommitted : c.committed = t) :
    Restored appId t.toRows (recordError env appId e c).2.committed.toRows ↔
      HandlerFails env ∨ Restored appId t.toRows c.seen.toRows := by
  unfold recordError
  cases hrecord : (env.refuses .recordError).isSome with
  | true =>
    obtain ⟨e', c', hraised, hc'⟩ := execute_refused env (c := c)
      (f := Tables.updateApp appId (AppRow.setError e.error.text)) hrecord
    rw [Proc.bind_of_raised hraised, hc', hcommitted]
    exact iff_of_true (Restored.refl appId t.toRows) (Or.inl (Or.inl hrecord))
  | false =>
    obtain ⟨u, hu⟩ := Tables.updateApp_eq_ok
      (harmless_setError e.error.text).toKeepsKeys appId c.seen
    rw [Proc.bind_of_ok (execute_accepted hrecord hu)]
    cases hcommit : (env.refuses .commitError).isSome with
    | true =>
      obtain ⟨e', c', hraised, hc'⟩ := commit_refused env
        (c := { c with txn := some u }) hcommit
      rw [hraised, hc']
      refine iff_of_true ?_ (Or.inl (Or.inr hcommit))
      rw [hcommitted]
      exact Restored.refl appId t.toRows
    | false =>
      rw [commit_accepted hcommit]
      have hsame := restored_updateApp (harmless_setError e.error.text) hu
      constructor
      · intro h
        exact Or.inr (h.trans hsame.symm)
      · rintro (hfails | h)
        · rw [HandlerFails, hrecord, hcommit] at hfails
          simp at hfails
        · exact h.trans hsame

end

/-! ## The launch after a `ValueError` -/

section

variable {env : ReloadEnv} {appId : String} {manifest : AppManifest} {c : Conn Tables}

/-- The part of the launch up to its first commit fails. -/
def RegisterStops (env : ReloadEnv) : Prop :=
  (env.raises .prepareLaunch).isSome = true ∨ (env.refuses .replaceToken).isSome = true ∨
    (env.refuses .registerServices).isSome = true ∨ (env.refuses .markLaunching).isSome = true ∨
    (env.refuses .commitLaunching).isSome = true

/-- The rows of the manifest but for the providers, which are those of the declared services. -/
structure Registered (appId : String) (manifest : AppManifest) (t u : Tables) : Prop where
  columns : (u.findApp appId).map AppRow.columns = (t.findApp appId).map AppRow.columns
  portMappings : ∀ m : PortMappingRow, m.appId = appId →
    (m ∈ u.portMappings ↔ m ∈ t.portMappings)
  providers : ∀ p : ProviderRow, p.appId = appId →
    (p ∈ u.providers ↔ p ∈ declaredProviders appId manifest.providesServicesV2)

theorem Registered.restored_iff {t u w : Tables} (h : Registered appId manifest t u)
    (hw : Restored appId u.toRows w.toRows) :
    Restored appId t.toRows w.toRows ↔ ProvidersSame appId manifest t.toRows := by
  constructor
  · intro hr p hp
    rw [← h.providers p hp, ← hw.providers p hp, hr.providers p hp]
  · intro hsame
    refine Restored.trans ⟨h.columns, h.portMappings, fun p hp => ?_⟩ hw
    rw [h.providers p hp, hsame p hp]

theorem call_refused (env : ReloadEnv) {s : Call} (h : (env.raises s).isSome = true) :
    ∃ e, env.call s c = (.raised e, c) := by
  obtain ⟨e, he⟩ := Option.isSome_iff_exists.mp h
  rcases call_cases env.toEnv s c with hok | ⟨e', -, hraised⟩
  · rw [Env.call, he] at hok
    cases (Prod.mk.inj hok).1
  · exact ⟨_, hraised⟩

theorem call_accepted {s : Call} (h : (env.raises s).isSome = false) :
    env.call s c = (.ok (), c) := by
  rcases call_cases env.toEnv s c with hok | ⟨e, he, -⟩
  · exact hok
  · rw [he] at h
    cases h

/-- The launch registers the services and commits, or stops without having committed. -/
theorem registerLaunch_cases (env : ReloadEnv) (manifest : AppManifest) {row : AppRow}
    (hrow : c.seen.findApp appId = some row) :
    (RegisterStops env ∧ ∃ e c', registerLaunch env appId manifest c = (.raised e, c') ∧
        c'.committed = c.committed) ∨
      (¬ RegisterStops env ∧ ∃ u, registerLaunch env appId manifest c = (.ok (), Conn.fresh u) ∧
        Registered appId manifest c.seen u) := by
  have hmem : appId ∈ c.seen.appIds := by
    rw [← Rows.findApp_isSome_iff, hrow]
    rfl
  unfold registerLaunch
  cases hprepare : (env.raises .prepareLaunch).isSome with
  | true =>
    obtain ⟨e, hraised⟩ := call_refused env (c := c) hprepare
    exact Or.inl ⟨Or.inl hprepare, e, c, Proc.bind_of_raised hraised, rfl⟩
  | false =>
  rw [Proc.bind_of_ok (call_accepted hprepare)]
  obtain ⟨u₁, hu₁⟩ := Tables.replaceToken_eq_ok ⟨appId, env.tokenHash⟩ hmem
  cases htoken : (env.refuses .replaceToken).isSome with
  | true =>
    obtain ⟨e, c', hraised, hc'⟩ := execute_refused env (c := c)
      (f := Tables.replaceToken ⟨appId, env.tokenHash⟩) htoken
    exact Or.inl ⟨Or.inr (Or.inl htoken), e, c', Proc.bind_of_raised hraised, hc'⟩
  | false =>
  rw [Proc.bind_of_ok (execute_accepted htoken hu₁)]
  have hmem₁ : appId ∈ u₁.appIds := by
    rw [Tables.write_ok hu₁]
    exact hmem
  obtain ⟨u₂, hu₂⟩ := Tables.registerServices_eq_ok manifest.providesServicesV2 hmem₁
  cases hservices : (env.refuses .registerServices).isSome with
  | true =>
    obtain ⟨e, c', hraised, hc'⟩ := execute_refused env
      (c := { c with txn := some u₁ })
      (f := Tables.registerServices appId manifest.providesServicesV2) hservices
    exact Or.inl ⟨Or.inr (Or.inr (Or.inl hservices)), e, c', Proc.bind_of_raised hraised, hc'⟩
  | false =>
  rw [Proc.bind_of_ok (execute_accepted (c := { c with txn := some u₁ }) hservices hu₂)]
  obtain ⟨u₃, hu₃⟩ := Tables.updateApp_eq_ok harmless_setStarting.toKeepsKeys appId u₂
  unfold markAppStarting
  cases hmark : (env.refuses .markLaunching).isSome with
  | true =>
    obtain ⟨e, c', hraised, hc'⟩ := execute_refused env
      (c := { c with txn := some u₂ }) (f := Tables.updateApp appId AppRow.setStarting) hmark
    exact Or.inl ⟨Or.inr (Or.inr (Or.inr (Or.inl hmark))), e, c', Proc.bind_of_raised hraised, hc'⟩
  | false =>
  rw [Proc.bind_of_ok (execute_accepted (c := { c with txn := some u₂ }) hmark hu₃)]
  cases hcommit : (env.refuses .commitLaunching).isSome with
  | true =>
    obtain ⟨e, c', hraised, hc'⟩ := commit_refused env
      (c := { c with txn := some u₃ }) hcommit
    exact Or.inl ⟨Or.inr (Or.inr (Or.inr (Or.inr hcommit))), e, c', hraised, hc'⟩
  | false =>
    refine Or.inr ⟨?_, u₃, commit_accepted hcommit, ?_⟩
    · simp [RegisterStops, hprepare, htoken, hservices, hmark, hcommit]
    · have hlast := restored_updateApp harmless_setStarting hu₃
      have hrows : u₂.findApp appId = c.seen.findApp appId ∧
          u₂.portMappings = c.seen.portMappings := by
        rw [Tables.write_ok hu₂, Tables.write_ok hu₁]
        exact ⟨rfl, rfl⟩
      refine ⟨?_, ?_, ?_⟩
      · rw [hlast.columns, hrows.1]
      · intro m hm
        rw [hlast.portMappings m hm, hrows.2]
      · intro p hp
        rw [hlast.providers p hp, Tables.providers_of_registerServices hu₂ p hp]

/-- `run_app_image` leaves the rows as they were, or as it has registered them. -/
theorem runAppImage_cases (env : ReloadEnv) (manifest : AppManifest) {t : Tables} {row : AppRow}
    (hrow : t.findApp appId = some row) :
    (RegisterStops env ∧ AllRestored appId t (runAppImage env appId manifest (Conn.fresh t)).2) ∨
      (¬ RegisterStops env ∧ ∃ u, Registered appId manifest t u ∧
        AllRestored appId u (runAppImage env appId manifest (Conn.fresh t)).2) := by
  have hrun : runAppImage env appId manifest (Conn.fresh t) =
      Proc.tryExcept (launch env appId manifest) (fun _ => true)
        (recordLaunchFailure env appId row) (Conn.fresh t) := by
    rw [runAppImage, Proc.bind_of_ok (Session.select_apply _)]
    simp only [Conn.seen_fresh, hrow]
  rw [hrun]
  rcases registerLaunch_cases env manifest (c := Conn.fresh t) hrow with
    ⟨hstops, e, c', hraised, hc'⟩ | ⟨hgoes, u, hok, hregistered⟩
  · refine Or.inl ⟨hstops, ?_⟩
    have hlaunch : launch env appId manifest (Conn.fresh t) = (.raised e, c') :=
      Proc.bind_of_raised hraised
    rw [Proc.tryExcept, hlaunch]
    apply allRestored_recordLaunchFailure
    rw [hc']
    exact Restored.refl appId t.toRows
  · refine Or.inr ⟨hgoes, u, hregistered, ?_⟩
    have hlaunch : launch env appId manifest (Conn.fresh t) =
        startContainer env appId (Conn.fresh u) := Proc.bind_of_ok hok
    have hstart : AllRestored appId u (startContainer env appId (Conn.fresh u)).2 :=
      keeps_startContainer (Conn.fresh u) ⟨Restored.refl _ _, Restored.refl _ _⟩
    rw [Proc.tryExcept, hlaunch]
    cases hend : startContainer env appId (Conn.fresh u) with
    | mk outcome c' =>
      rw [hend] at hstart
      cases outcome with
      | ok _ => exact hstart
      | raised e => exact allRestored_recordLaunchFailure row e hstart.1
      | killed => exact hstart

/-- The launch of the checkout at `repoPath` fails before it has registered the services. -/
def LaunchStops (env : ReloadEnv) (repoPath : String) : Prop :=
  (env.raises .checkStorage).isSome = true ∨ (env.raises .parseAtStart).isSome = true ∨
    (∃ e, env.manifest repoPath = .error e) ∨ (env.refuses .markStarting).isSome = true ∨
    (env.refuses .commitStarting).isSome = true ∨ (env.raises .buildImage).isSome = true ∨
    RegisterStops env

/-- `start_app_process` leaves the rows as they were, or as the launch has registered them. -/
theorem startAppProcess_cases (env : ReloadEnv) {t : Tables} {row : AppRow}
    (hrow : t.findApp appId = some row) :
    (LaunchStops env row.repoPath ∧
        AllRestored appId t (startAppProcess env appId (Conn.fresh t)).2) ∨
      (¬ LaunchStops env row.repoPath ∧ ∃ manifest, env.manifest row.repoPath = .ok manifest ∧
        ∃ u, Registered appId manifest t u ∧
          AllRestored appId u (startAppProcess env appId (Conn.fresh t)).2) := by
  have hfresh : AllRestored appId t (Conn.fresh t) := ⟨Restored.refl _ _, Restored.refl _ _⟩
  unfold startAppProcess
  rw [Proc.bind_of_ok (Session.select_apply _)]
  simp only [Conn.seen_fresh, hrow]
  cases hstorage : (env.raises .checkStorage).isSome with
  | true =>
    obtain ⟨e, hraised⟩ := call_refused env (c := Conn.fresh t) hstorage
    rw [Proc.bind_of_raised hraised]
    exact Or.inl ⟨Or.inl hstorage, hfresh⟩
  | false =>
  rw [Proc.bind_of_ok (call_accepted hstorage)]
  cases hparse : (env.raises .parseAtStart).isSome with
  | true =>
    obtain ⟨e, hraised⟩ := call_refused env (c := Conn.fresh t) hparse
    have hcompute : env.compute .parseAtStart (env.manifest row.repoPath) (Conn.fresh t) =
        (.raised e, Conn.fresh t) := Proc.bind_of_raised hraised
    rw [Proc.bind_of_raised hcompute]
    exact Or.inl ⟨Or.inr (Or.inl hparse), hfresh⟩
  | false =>
  cases hmanifest : env.manifest row.repoPath with
  | error e =>
    have hraised : env.compute .parseAtStart (.error e : Except PyError AppManifest)
        (Conn.fresh t) = (.raised ⟨.call .parseAtStart, e⟩, Conn.fresh t) := by
      rw [Env.compute, Proc.bind_of_ok (call_accepted hparse)]
      rfl
    rw [Proc.bind_of_raised hraised]
    exact Or.inl ⟨Or.inr (Or.inr (Or.inl ⟨e, hmanifest⟩)), hfresh⟩
  | ok manifest =>
  have hcomputed : env.compute .parseAtStart (.ok manifest : Except PyError AppManifest)
      (Conn.fresh t) = (.ok manifest, Conn.fresh t) := by
    rw [Env.compute, Proc.bind_of_ok (call_accepted hparse)]
    rfl
  rw [Proc.bind_of_ok hcomputed]
  obtain ⟨u, hu⟩ := Tables.updateApp_eq_ok harmless_setStarting.toKeepsKeys appId t
  have hsame := restored_updateApp harmless_setStarting hu
  cases hmark : (env.refuses .markStarting).isSome with
  | true =>
    obtain ⟨e, c', hraised, -⟩ := execute_refused env (c := Conn.fresh t)
      (f := Tables.updateApp appId AppRow.setStarting) hmark
    have hkept := keeps_markAppStarting env .markStarting .commitStarting _ hfresh
    have hmarkRaised : markAppStarting env appId .markStarting .commitStarting (Conn.fresh t) =
        (.raised e, c') := Proc.bind_of_raised hraised
    rw [hmarkRaised] at hkept
    rw [Proc.bind_of_raised hmarkRaised]
    exact Or.inl ⟨Or.inr (Or.inr (Or.inr (Or.inl hmark))), hkept⟩
  | false =>
  cases hcommit : (env.refuses .commitStarting).isSome with
  | true =>
    obtain ⟨e, c', hraised, -⟩ := commit_refused env
      (c := { Conn.fresh t with txn := some u }) hcommit
    have hkept := keeps_markAppStarting env .markStarting .commitStarting _ hfresh
    have hmarkRaised : markAppStarting env appId .markStarting .commitStarting (Conn.fresh t) =
        (.raised e, c') := by
      rw [markAppStarting, Proc.bind_of_ok (execute_accepted hmark hu)]
      exact hraised
    rw [hmarkRaised] at hkept
    rw [Proc.bind_of_raised hmarkRaised]
    exact Or.inl ⟨Or.inr (Or.inr (Or.inr (Or.inr (Or.inl hcommit)))), hkept⟩
  | false =>
  have hmarked : markAppStarting env appId .markStarting .commitStarting (Conn.fresh t) =
      (.ok (), Conn.fresh u) := by
    rw [markAppStarting, Proc.bind_of_ok (execute_accepted hmark hu)]
    exact commit_accepted hcommit
  rw [Proc.bind_of_ok hmarked]
  cases hbuild : (env.raises .buildImage).isSome with
  | true =>
    obtain ⟨e, hraised⟩ := call_refused env (c := Conn.fresh u) hbuild
    rw [Proc.bind_of_raised hraised]
    exact Or.inl ⟨Or.inr (Or.inr (Or.inr (Or.inr (Or.inr (Or.inl hbuild))))), hsame, hsame⟩
  | false =>
  rw [Proc.bind_of_ok (call_accepted hbuild)]
  have hrow' : u.findApp appId = some row.setStarting := by
    rw [Tables.write_ok hu, Rows.findApp_setApp harmless_setStarting.appId, hrow]
    rfl
  rcases runAppImage_cases env manifest hrow' with
    ⟨hstops, hkept⟩ | ⟨hgoes, v, hregistered, hkept⟩
  · exact Or.inl ⟨Or.inr (Or.inr (Or.inr (Or.inr (Or.inr (Or.inr hstops))))),
      hsame.trans hkept.1, hsame.trans hkept.2⟩
  · refine Or.inr ⟨?_, manifest, rfl, v, ?_, hkept⟩
    · simp [LaunchStops, hstorage, hparse, hmanifest, hmark, hcommit, hbuild, hgoes]
    · refine ⟨hregistered.columns.trans hsame.columns, fun m hm => ?_, hregistered.providers⟩
      rw [hregistered.portMappings m hm, hsame.portMappings m hm]

end

/-! ## The failed reload -/

/-- What is committed when the worker of a reload has ended and closed its connection. -/
def reloaded (range : PortRange) (env : ReloadEnv) (appId repoPath : String) (t : Tables) : Tables :=
  (reloadAppBackground range env appId repoPath (Conn.fresh t)).2.committed

/-- Nothing of the app is lost when the synchronisation raises `e`: after a `ValueError` the launch
stops early or registers what was registered; after any other exception the handler fails, the
transaction was rolled back, or all that was written was there. -/
def FailsCleanly (range : PortRange) (env : ReloadEnv) (appId repoPath : String) (t : Rows)
    (row : AppRow) (e : Raised) : Prop :=
  if e.error.isValueError = true then
    LaunchStops env row.repoPath ∨
      ∀ manifest, env.manifest row.repoPath = .ok manifest → ProvidersSame appId manifest t
  else
    HandlerFails env ∨ env.rolledBack e.site = true ∨
      ∀ manifest, env.manifest repoPath = .ok manifest →
        Unwritten range env appId manifest t e.site

section

variable {range : PortRange} {env : ReloadEnv} {appId repoPath : String} {t : Tables} {row : AppRow}
  {e : Raised} {c : Conn Tables}

/-- An exception other than a `ValueError` goes to the handler. -/
theorem reloaded_of_raised (hrow : t.findApp appId = some row) (hcopy : env.raises .recopy = none)
    (hdir : env.repoIsDir = true) (hvalue : e.error.isValueError = false)
    (h : syncWithManifest range env appId repoPath (Conn.fresh t) = (.raised e, c)) :
    reloaded range env appId repoPath t = (recordError env appId e c).2.committed := by
  have hsync : Proc.tryExcept (syncWithManifest range env appId repoPath)
      (fun e => e.error.isValueError) (fun _ => pure ()) (Conn.fresh t) = (.raised e, c) := by
    rw [Proc.tryExcept, h]
    simp [hvalue]
  have hcall : env.call .recopy (Conn.fresh t) = (.ok (), Conn.fresh t) :=
    call_accepted (by rw [hcopy]; rfl)
  have hbody : reloadApp range env appId repoPath (Conn.fresh t) = (.raised e, c) := by
    rw [reloadApp, Proc.bind_of_ok hcall, if_pos hdir]
    exact Proc.bind_of_raised hsync
  rw [reloaded, reloadAppBackground, Proc.tryExcept, Proc.bind_of_ok (Session.select_apply _)]
  simp only [Conn.seen_fresh, hrow, hbody, if_true]

/-- After a `ValueError` the launch goes on. -/
theorem reloaded_of_valueError (hrow : t.findApp appId = some row)
    (hcopy : env.raises .recopy = none) (hdir : env.repoIsDir = true)
    (hvalue : e.error.isValueError = true)
    (h : syncWithManifest range env appId repoPath (Conn.fresh t) = (.raised e, Conn.fresh t)) :
    ∀ u, AllRestored appId u (startAppProcess env appId (Conn.fresh t)).2 →
      Restored appId u.toRows (reloaded range env appId repoPath t).toRows := by
  intro u hu
  have hsync : Proc.tryExcept (syncWithManifest range env appId repoPath)
      (fun e => e.error.isValueError) (fun _ => pure ()) (Conn.fresh t) =
        (.ok (), Conn.fresh t) := by
    rw [Proc.tryExcept, h]
    simp [hvalue]
  have hcall : env.call .recopy (Conn.fresh t) = (.ok (), Conn.fresh t) :=
    call_accepted (by rw [hcopy]; rfl)
  have hbody : reloadApp range env appId repoPath (Conn.fresh t) =
      startAppProcess env appId (Conn.fresh t) := by
    rw [reloadApp, Proc.bind_of_ok hcall, if_pos hdir]
    exact Proc.bind_of_ok hsync
  rw [reloaded, reloadAppBackground, Proc.tryExcept, Proc.bind_of_ok (Session.select_apply _)]
  simp only [Conn.seen_fresh, hrow, hbody]
  cases hend : startAppProcess env appId (Conn.fresh t) with
  | mk outcome c' =>
    rw [hend] at hu
    cases outcome with
    | ok _ => exact hu.1
    | raised e' => exact (keeps_recordError e' c' hu).1
    | killed => exact hu.1

/-- When the synchronisation raises, the worker leaves the columns, the mappings and the providers of
the app as they were exactly where it fails cleanly. -/
theorem restored_reloaded_iff (hrow : t.findApp appId = some row)
    (hcopy : env.raises .recopy = none) (hdir : env.repoIsDir = true)
    (h : syncWithManifest range env appId repoPath (Conn.fresh t) = (.raised e, c)) :
    Restored appId t.toRows (reloaded range env appId repoPath t).toRows ↔
      FailsCleanly range env appId repoPath t.toRows row e := by
  rcases syncWithManifest_raised hrow h with ⟨rfl, hsite⟩ | ⟨manifest, hmanifest, hfails⟩
  · -- nothing is written yet
    cases hvalue : e.error.isValueError with
    | true =>
      have hleaves := reloaded_of_valueError hrow hcopy hdir hvalue h
      rw [FailsCleanly, if_pos hvalue]
      rcases startAppProcess_cases env hrow with
        ⟨hstops, hkept⟩ | ⟨hgoes, manifest, hmanifest, u, hregistered, hkept⟩
      · exact iff_of_true (hleaves t hkept) (Or.inl hstops)
      · rw [hregistered.restored_iff (hleaves u hkept)]
        constructor
        · intro hsame
          refine Or.inr fun m hm => ?_
          obtain rfl : manifest = m := Except.ok.inj (hmanifest.symm.trans hm)
          exact hsame
        · rintro (hstops | hsame)
          · exact absurd hstops hgoes
          · exact hsame manifest hmanifest
    | false =>
      rw [FailsCleanly, if_neg (by simp [hvalue]),
        reloaded_of_raised hrow hcopy hdir hvalue h]
      refine iff_of_true ?_ (Or.inr (Or.inr fun m _ => ?_))
      · apply (restored_recordError_iff (c := Conn.fresh t) e rfl).mpr
        exact Or.inr (Restored.refl appId t.toRows)
      · rcases hsite with hsite | hsite <;> rw [hsite] <;> trivial
  · rw [FailsCleanly, if_neg (by simp [hfails.notValueError]),
      reloaded_of_raised hrow hcopy hdir hfails.notValueError h,
      restored_recordError_iff e hfails.committed, hfails.restored]
    refine or_congr_right (or_congr_right ?_)
    constructor
    · intro hunwritten m hm
      obtain rfl : manifest = m := Except.ok.inj (hmanifest.symm.trans hm)
      exact hunwritten
    · intro hall
      exact hall manifest hmanifest

end

/-! ## Reloads that fail -/

/-- A manifest with this version and these mappings. -/
def wikiManifest (version : String) (portMappings : List PortMapping)
    (parsed : PortsParsed portMappings) : AppManifest where
  name := "wiki"
  version := version
  portMappings := portMappings
  parsed := parsed

theorem portsParsed_nil : PortsParsed [] :=
  ⟨by decide, by decide, by decide, by decide, by decide⟩

theorem portsParsed_web : PortsParsed [⟨"web", 80, 9001⟩] :=
  ⟨by decide, by decide, by decide, by decide, by decide⟩

/-- The wiki at version 1, without mappings, and another app on port 9001. -/
def wikiApps : List AppRow :=
  [({ manifest := wikiManifest "1" [] portsParsed_nil } : Request).row "w" 9000,
    ({ manifest := wikiManifest "1" [] portsParsed_nil, appName := some "notes" } :
      Request).row "n" 9001]

theorem constraints_wikiApps : Constraints { apps := wikiApps } := by decide

def wikiTables : Tables where
  apps := wikiApps
  constraints := constraints_wikiApps

/-- The new manifest of the wiki asks for the port of the other app. -/
def wikiEnv (version : String) : ReloadEnv where
  host _ := Host.idle
  draws := []
  tokenHash := ""
  manifest _ := .ok (wikiManifest version [⟨"web", 80, 9001⟩] portsParsed_web)

/-- With the version as it was, nothing is lost. -/
theorem restored_reloaded_wiki :
    Restored "w" wikiTables.toRows (reloaded {} (wikiEnv "1") "w" "" wikiTables).toRows := by
  have hraised : (syncWithManifest {} (wikiEnv "1") "w" "" (Conn.fresh wikiTables)).1 =
      .raised ⟨.call .resolvePorts, .runtimeError
        "Port 9001 for 'web' is already in use by app 'notes' (main port)"⟩ := by
    decide +kernel
  refine (restored_reloaded_iff rfl rfl rfl (Prod.ext hraised rfl)).mpr ?_
  refine Or.inr (Or.inr fun manifest hmanifest => ?_)
  obtain rfl := Except.ok.inj hmanifest
  exact ⟨by decide +kernel, by decide +kernel⟩

/-- A new version is in the row although the synchronisation has failed. -/
theorem version_after_failure :
    ∃ e c, syncWithManifest {} (wikiEnv "2") "w" "" (Conn.fresh wikiTables) = (.raised e, c) ∧
      ¬ Restored "w" wikiTables.toRows (reloaded {} (wikiEnv "2") "w" "" wikiTables).toRows := by
  have hraised : (syncWithManifest {} (wikiEnv "2") "w" "" (Conn.fresh wikiTables)).1 =
      .raised ⟨.call .resolvePorts, .runtimeError
        "Port 9001 for 'web' is already in use by app 'notes' (main port)"⟩ := by
    decide +kernel
  refine ⟨_, _, Prod.ext hraised rfl, fun h => ?_⟩
  have hversion : ((reloaded {} (wikiEnv "2") "w" "" wikiTables).findApp "w").map
      (fun a => a.columns.version) = some "2" := by
    decide +kernel
  have hbefore : (wikiTables.findApp "w").map (fun a => a.columns.version) = some "1" := by
    decide +kernel
  have hsame := congrArg (Option.map ManifestColumns.version) h.columns
  rw [Option.map_map, Option.map_map] at hsame
  simp only [Function.comp_def] at hsame
  rw [hversion, hbefore] at hsame
  simp at hsame

end OpenHost.Install

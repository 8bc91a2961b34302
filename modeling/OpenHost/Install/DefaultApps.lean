import OpenHost.Apps.Images
import OpenHost.Install.Deploy
import OpenHost.Library.Runs

/-!
# Default apps

`_install_one` and `_finalize_install`, which `deploy_default_apps` calls for one app after the other
on the connection of the setup request.  An install that raises leaves its transaction open there,
and the next one goes on in it.
-/

namespace OpenHost.Install

open Apps (isValidAppName)

/-! ## One default app -/

/-- `RESERVED_PATHS` -/
def reservedPaths : List String :=
  ["/", "/dashboard", "/login", "/logout", "/add_app", "/remove_app", "/stop_app", "/reload_app",
    "/api", "/health", "/app", "/setup", "/.well-known", "/terminal", "/toggle-ssh", "/identity",
    "/settings", "/system", "/docs"]

/-- `SELECT name FROM apps WHERE name = ?` -/
def Rows.hasName (r : Rows) (name : String) : Bool := r.apps.any (·.name = name)

/-- `validate_manifest` -/
def validateManifest (appName : String) (t : Rows) : Option String :=
  if !isValidAppName appName then
    some "App name must be lowercase alphanumeric (hyphens allowed, not at start/end)"
  else if "/" ++ appName ∈ reservedPaths then
    some ("App name '" ++ appName ++ "' conflicts with a reserved path")
  else if t.hasName appName then some ("App name already in use by '" ++ appName ++ "'")
  else none

/-- Why a default app was not installed. -/
inductive Failure where
  /-- It could not be copied or cloned, or its manifest does not parse. -/
  | fetch (message : String)
  | validation (message : String)
  | insertAndDeploy (e : Raised)
  | unexpected (e : Raised)
  deriving DecidableEq, Repr

/-- `error` in the outcome. -/
def Failure.text : Failure → String
  | fetch message | validation message => message
  | insertAndDeploy e => "insert_and_deploy: " ++ e.error.text
  | unexpected e => "unexpected: " ++ e.error.text

/-- `status` in the outcome. -/
inductive InstallStatus where
  | ok
  | skipped
  | failed (why : Failure)
  deriving DecidableEq, Repr

/-- The install of one default app: the copy or clone with its manifest, and what the world answers. -/
structure Attempt where
  env : Env
  fetched : Except String AppManifest
  finalDir : String := ""
  repoUrl : String := ""

/-- The request for the app of a manifest. -/
def Attempt.request (a : Attempt) (manifest : AppManifest) : Request where
  manifest := manifest
  repoPath := a.finalDir
  repoUrl := some a.repoUrl

/-- The part of `_finalize_install` after its checks; the handler only reports. -/
def installValidated (range : PortRange) (a : Attempt) (manifest : AppManifest) :
    Session Raised Tables InstallStatus := do
  a.env.call .moveClone
  Proc.tryExcept (do let _ ← insertAndDeploy range a.env (a.request manifest)
                     return .ok)
    (fun _ => true) fun e => return .failed (.insertAndDeploy e)

/-- `_finalize_install` -/
def finalizeInstall (range : PortRange) (a : Attempt) (manifest : AppManifest) :
    Session Raised Tables InstallStatus := do
  let t ← Session.select
  if t.hasName manifest.name then return .skipped
  match validateManifest manifest.name t.toRows with
  | some error => return .failed (.validation error)
  | none => installValidated range a manifest

/-- `_install_one`, inside the `try` of `deploy_default_apps`. -/
def installOne (range : PortRange) (a : Attempt) : Session Raised Tables InstallStatus :=
  match a.fetched with
  | .error message => pure (.failed (.fetch message))
  | .ok manifest =>
      Proc.tryExcept (finalizeInstall range a manifest) (fun _ => true) fun e =>
        return .failed (.unexpected e)

/-! ## Installs one after the other -/

/-- The connection of the setup request, with what a reader of the outcomes would keep track of. -/
structure Progress where
  conn : Conn Tables
  /-- The names of the apps whose last install raised before its commit. -/
  failedNames : List String
  /-- The ids that these installs had drawn, as far as no later one has drawn them again. -/
  failedIds : List String
  /-- An app with such a name was reported as skipped. -/
  skippedFailed : Bool

namespace Progress

/-- The connection has just been opened. -/
def start (t : Tables) : Progress := ⟨Conn.fresh t, [], [], false⟩

/-- The app of the manifest has been installed under the id it has drawn. -/
def installed (p : Progress) (name : String) (drawn : Option String) (conn : Conn Tables) :
    Progress where
  conn := conn
  failedNames := p.failedNames.filter (· ≠ name)
  failedIds := p.failedIds.filter (some · ≠ drawn)
  skippedFailed := p.skippedFailed

/-- The install of the app has raised before its commit. -/
def failed (p : Progress) (name : String) (drawn : Option String) (conn : Conn Tables) :
    Progress where
  conn := conn
  failedNames := name :: p.failedNames
  failedIds := drawn.toList ++ p.failedIds
  skippedFailed := p.skippedFailed

/-- What is known after an install with this status. -/
def record (p : Progress) (name : String) (drawn : Option String) (conn : Conn Tables) :
    InstallStatus → Progress
  | .ok => p.installed name drawn conn
  | .skipped =>
      { p with conn := conn, skippedFailed := p.skippedFailed || decide (name ∈ p.failedNames) }
  | .failed (.insertAndDeploy e) =>
      -- only the grants come after the commit
      if e.site = .call .grantPermissions then p.installed name drawn conn
      else p.failed name drawn conn
  | .failed _ => { p with conn := conn }

end Progress

/-- The id that an install draws. -/
def Attempt.drawn (a : Attempt) (c : Conn Tables) : Option String :=
  a.env.draws.find? (· ∉ c.seen.appIds)

/-- The name of the app, if its manifest could be read. -/
def Attempt.name (a : Attempt) : String :=
  match a.fetched with
  | .ok manifest => manifest.name
  | .error _ => ""

/-- One install; there is none after the process has died. -/
def Progress.next (range : PortRange) (p : Progress) (a : Attempt) : Option Progress :=
  match installOne range a p.conn with
  | (.ok status, conn) => some (p.record a.name (a.drawn p.conn) conn status)
  | _ => none

/-- No app whose install raised before its commit is visible, and none was reported as skipped. -/
structure FailedStayHidden (p : Progress) : Prop where
  hidden : ∀ appId ∈ p.failedIds,
    appId ∉ p.conn.committed.appIds ∧ appId ∉ p.conn.committed.owners
  notSkipped : p.skippedFailed = false

/-- The connection holds no uncommitted rows. -/
def NothingPending (p : Progress) : Prop := p.conn.seen.toRows = p.conn.committed.toRows

instance (p : Progress) : Decidable (NothingPending p) :=
  inferInstanceAs (Decidable (p.conn.seen.toRows = p.conn.committed.toRows))

/-- The port that the install is given belongs to an uncommitted row, and none has its name. -/
structure Blocked (range : PortRange) (p : Progress) (a : Attempt) : Prop where
  port : ∀ port, FirstFree (usedPorts p.conn.committed.toRows none) a.env.bindable range.ports port →
    port ∈ p.conn.seen.localPorts
  name : p.conn.seen.hasName a.name = false

/-- Nothing is pending on the connection, or it keeps the install from going on. -/
def Undisturbed (range : PortRange) (p : Progress) (a : Attempt) : Prop :=
  NothingPending p ∨ Blocked range p a

/-! ## What one install does -/

theorem Rows.hasName_iff {r : Rows} {name : String} :
    r.hasName name = true ↔ ∃ a ∈ r.apps, a.name = name := by
  simp [Rows.hasName]

section

variable {range : PortRange} {a : Attempt} {manifest : AppManifest} {c c' : Conn Tables}
  {status : InstallStatus}

theorem installValidated_ok (h : installValidated range a manifest c = (.ok status, c')) :
    (status = .ok ∧ ∃ appId,
        insertAndDeploy range a.env (a.request manifest) c = (.ok appId, c')) ∨
      ∃ e, status = .failed (.insertAndDeploy e) ∧
        insertAndDeploy range a.env (a.request manifest) c = (.raised e, c') := by
  rcases call_cases a.env .moveClone c with hcall | ⟨e, -, hcall⟩
  swap
  · rw [installValidated, Proc.bind_of_raised hcall] at h
    cases (Prod.mk.inj h).1
  rw [installValidated, Proc.bind_of_ok hcall] at h
  rcases Proc.tryExcept_ok_iff.mp h with h | ⟨e, c₁, hraised, -, hreport⟩
  · obtain ⟨appId, c₁, hinsert, hret⟩ := Proc.bind_ok_iff.mp h
    obtain ⟨hs, rfl⟩ := Prod.mk.inj hret
    exact Or.inl ⟨(Outcome.ok.inj hs).symm, appId, hinsert⟩
  · obtain ⟨hs, rfl⟩ := Prod.mk.inj hreport
    refine Or.inr ⟨e, (Outcome.ok.inj hs).symm, ?_⟩
    rcases Proc.bind_raised_iff.mp hraised with hraised | ⟨_, _, _, hret⟩
    · exact hraised
    · cases (Prod.mk.inj hret).1

/-- What escapes from `installValidated` was raised before anything was written. -/
theorem installValidated_raised {e : Raised}
    (h : installValidated range a manifest c = (.raised e, c')) : c' = c := by
  rcases call_cases a.env .moveClone c with hcall | ⟨e', -, hcall⟩
  · rw [installValidated, Proc.bind_of_ok hcall] at h
    obtain ⟨e₁, c₁, -, hhandler⟩ := Proc.tryExcept_raised_of_handles (fun _ => rfl) h
    cases (Prod.mk.inj hhandler).1
  · rw [installValidated, Proc.bind_of_raised hcall] at h
    exact (Prod.mk.inj h).2.symm

/-- `_finalize_install` skips, turns away or goes on. -/
theorem finalizeInstall_apply (range : PortRange) (a : Attempt) (manifest : AppManifest)
    (c : Conn Tables) :
    (c.seen.hasName manifest.name = true ∧
        finalizeInstall range a manifest c = (.ok .skipped, c)) ∨
      (∃ error, finalizeInstall range a manifest c = (.ok (.failed (.validation error)), c)) ∨
      (c.seen.hasName manifest.name = false ∧
        finalizeInstall range a manifest c = installValidated range a manifest c) := by
  unfold finalizeInstall
  rw [Proc.bind_of_ok (Session.select_apply c)]
  cases hname : c.seen.hasName manifest.name with
  | true => exact Or.inl ⟨rfl, rfl⟩
  | false =>
    refine Or.inr ?_
    cases validateManifest manifest.name c.seen.toRows with
    | some error => exact Or.inl ⟨error, rfl⟩
    | none => exact Or.inr ⟨rfl, rfl⟩

/-- How an install ends: without a change, or as `insert_and_deploy` does for an app whose name the
connection has not seen. -/
theorem installOne_cases (h : installOne range a c = (.ok status, c')) :
    (c' = c ∧ ((status = .skipped ∧ c.seen.hasName a.name = true) ∨
        ∃ why, status = .failed why ∧ ∀ e, why ≠ .insertAndDeploy e)) ∨
      ∃ manifest, a.fetched = .ok manifest ∧ c.seen.hasName manifest.name = false ∧
        ((status = .ok ∧ ∃ appId,
            insertAndDeploy range a.env (a.request manifest) c = (.ok appId, c')) ∨
          ∃ e, status = .failed (.insertAndDeploy e) ∧
            insertAndDeploy range a.env (a.request manifest) c = (.raised e, c')) := by
  unfold installOne at h
  cases hfetched : a.fetched with
  | error message =>
    rw [hfetched] at h
    obtain ⟨hs, hc⟩ := Prod.mk.inj h
    exact Or.inl ⟨hc.symm, Or.inr ⟨_, (Outcome.ok.inj hs).symm, by simp⟩⟩
  | ok manifest =>
    have hname : a.name = manifest.name := by rw [Attempt.name, hfetched]
    rw [hfetched] at h
    rcases Proc.tryExcept_ok_iff.mp h with h | ⟨e, c₁, hraised, -, hreport⟩
    · rcases finalizeInstall_apply range a manifest c with ⟨hskip, heq⟩ | ⟨error, heq⟩ | ⟨hnew, heq⟩
      · rw [heq] at h
        obtain ⟨hs, hc⟩ := Prod.mk.inj h
        exact Or.inl ⟨hc.symm, Or.inl ⟨(Outcome.ok.inj hs).symm, hname ▸ hskip⟩⟩
      · rw [heq] at h
        obtain ⟨hs, hc⟩ := Prod.mk.inj h
        exact Or.inl ⟨hc.symm, Or.inr ⟨_, (Outcome.ok.inj hs).symm, by simp⟩⟩
      · rw [heq] at h
        exact Or.inr ⟨manifest, rfl, hnew, installValidated_ok h⟩
    · obtain ⟨hs, rfl⟩ := Prod.mk.inj hreport
      refine Or.inl ⟨?_, Or.inr ⟨_, (Outcome.ok.inj hs).symm, by simp⟩⟩
      rcases finalizeInstall_apply range a manifest c with ⟨hskip, heq⟩ | ⟨error, heq⟩ | ⟨hnew, heq⟩
      · rw [heq] at hraised
        cases (Prod.mk.inj hraised).1
      · rw [heq] at hraised
        cases (Prod.mk.inj hraised).1
      · rw [heq] at hraised
        exact installValidated_raised hraised

end

/-! ## Sequences that leave nothing behind -/

/-- What a sequence of installs carries along: no app whose last install raised before its commit
has a committed row, and the connection sees what is committed. -/
structure Tracked (p : Progress) : Prop where
  kept : ∀ x ∈ p.conn.committed.apps, x ∈ p.conn.seen.apps
  ids : ∀ appId ∈ p.failedIds, appId ∉ p.conn.committed.appIds
  names : ∀ name ∈ p.failedNames, p.conn.committed.hasName name = false
  notSkipped : p.skippedFailed = false

theorem tracked_start (t : Tables) : Tracked (Progress.start t) :=
  ⟨fun _ hx => hx, by simp [Progress.start], by simp [Progress.start], rfl⟩

section

variable {range : PortRange} {p p' : Progress} {a : Attempt}

theorem Tracked.hasName_committed (hp : Tracked p) {name : String}
    (h : p.conn.seen.hasName name = false) : p.conn.committed.hasName name = false := by
  rw [Bool.eq_false_iff, Ne, Rows.hasName_iff] at h ⊢
  rintro ⟨x, hx, hname⟩
  exact h ⟨x, hp.kept x hx, hname⟩

theorem Tracked.not_mem_committed (hp : Tracked p) {appId : String}
    (h : appId ∉ p.conn.seen.appIds) : appId ∉ p.conn.committed.appIds := by
  intro hmem
  obtain ⟨x, hx, rfl⟩ := List.mem_map.mp hmem
  exact h (List.mem_map_of_mem (hp.kept x hx))

/-- An app that has been installed is the only new one among the committed apps. -/
theorem Tracked.installed (hp : Tracked p) {name : String} {drawn : Option String}
    {c' : Conn Tables} (hkept : ∀ x ∈ c'.committed.apps, x ∈ c'.seen.apps)
    (hnew : ∀ x ∈ c'.committed.apps,
      x ∈ p.conn.committed.apps ∨ (some x.appId = drawn ∧ x.name = name)) :
    Tracked (p.installed name drawn c') where
  kept := hkept
  ids id hid := by
    obtain ⟨hid, hne⟩ := List.mem_filter.mp hid
    intro hmem
    obtain ⟨x, hx, rfl⟩ := List.mem_map.mp hmem
    rcases hnew x hx with hx | ⟨hx, -⟩
    · exact hp.ids x.appId hid (List.mem_map_of_mem hx)
    · simp [hx] at hne
  names n hn := by
    obtain ⟨hn, hne⟩ := List.mem_filter.mp hn
    rw [Bool.eq_false_iff, Ne, Rows.hasName_iff]
    rintro ⟨x, hx, rfl⟩
    rcases hnew x hx with hx | ⟨-, hx⟩
    · have hold := hp.names x.name hn
      rw [Bool.eq_false_iff, Ne, Rows.hasName_iff] at hold
      exact hold ⟨x, hx, rfl⟩
    · simp [hx] at hne
  notSkipped := hp.notSkipped

/-- An app whose install has raised has no committed row, as it had none before. -/
theorem Tracked.failed (hp : Tracked p) {name : String} {drawn : Option String}
    {c' : Conn Tables} (hsame : c'.committed = p.conn.committed)
    (hkept : ∀ x ∈ c'.committed.apps, x ∈ c'.seen.apps)
    (hname : p.conn.committed.hasName name = false)
    (hdrawn : ∀ appId, drawn = some appId → appId ∉ p.conn.committed.appIds) :
    Tracked (p.failed name drawn c') where
  kept := hkept
  ids id hid := by
    show id ∉ c'.committed.appIds
    rw [hsame]
    rcases List.mem_append.mp hid with hid | hid
    · exact hdrawn id (Option.mem_toList.mp hid)
    · exact hp.ids id hid
  names n hn := by
    show c'.committed.hasName n = false
    rw [hsame]
    rcases List.mem_cons.mp hn with rfl | hn
    · exact hname
    · exact hp.names n hn
  notSkipped := hp.notSkipped

theorem Tracked.kept_insertAndDeploy (hp : Tracked p) (env : Env) (req : Request)
    {o : Outcome Raised String} {c' : Conn Tables}
    (h : insertAndDeploy range env req p.conn = (o, c')) :
    ∀ x ∈ c'.committed.apps, x ∈ c'.seen.apps := by
  have hkept := OpenHost.Install.kept_insertAndDeploy range env req hp.kept
  rwa [h] at hkept

/-- An install that nothing disturbs. -/
theorem tracked_of_next (hp : Tracked p) (hquiet : Undisturbed range p a)
    (h : p.next range a = some p') : Tracked p' := by
  unfold Progress.next at h
  split at h
  swap
  · cases h
  rename_i status conn hrun
  obtain rfl := Option.some.inj h
  rcases installOne_cases hrun with ⟨rfl, hend⟩ | ⟨manifest, hfetched, hnew, hend⟩
  · rcases hend with ⟨rfl, hskip⟩ | ⟨why, rfl, hwhy⟩
    · refine ⟨hp.kept, hp.ids, hp.names, ?_⟩
      -- the name was seen, so it is committed, and no failed install has it
      have hnot : a.name ∉ p.failedNames := by
        intro hmem
        have hno := hp.names a.name hmem
        rcases hquiet with hpending | hblocked
        · rw [← Tables.eq_of_rows hpending, hskip] at hno
          cases hno
        · rw [hblocked.name] at hskip
          cases hskip
      simp [Progress.record, hp.notSkipped, hnot]
    · cases why with
      | insertAndDeploy e => exact absurd rfl (hwhy e)
      | _ => exact ⟨hp.kept, hp.ids, hp.names, hp.notSkipped⟩
  · have hname : a.name = manifest.name := by rw [Attempt.name, hfetched]
    -- an install that gets to its commit has added one app to what was committed
    have hinstalled : ∀ {o : Outcome Raised String},
        insertAndDeploy range a.env (a.request manifest) p.conn = (o, conn) → o ≠ .killed →
        (∀ e, o = .raised e → e.site = .call .grantPermissions) →
        Tracked (p.installed a.name (a.drawn p.conn) conn) := by
      intro o ho halive hcommitted
      refine hp.installed (hp.kept_insertAndDeploy _ _ ho) fun x hx => ?_
      rcases hquiet with hpending | hblocked
      · rcases insertAndDeploy_adds range a.env (a.request manifest) p.conn with
          hsame | ⟨row, resolved, hprep, hadds, -⟩
        · rw [ho] at hsame
          obtain rfl : conn = p.conn := hsame
          exact Or.inl hx
        · rw [ho, Tables.eq_of_rows hpending, or_self_iff] at hadds
          refine (hadds.apps x hx).imp_right ?_
          rintro rfl
          refine ⟨hprep.drawn.symm, ?_⟩
          rw [hprep.row_eq, hname]
          rfl
      · -- with the port taken it cannot have got there
        rcases insertAndDeploy_of_portTaken (a.request manifest) hblocked.port with
          hend | ⟨e, c', hend, hsite⟩
        · rw [hend] at ho
          exact absurd (Prod.mk.inj ho).1.symm halive
        · rw [hend] at ho
          exact absurd (hcommitted e (Prod.mk.inj ho).1.symm) hsite
    rcases hend with ⟨rfl, appId, hok⟩ | ⟨e, rfl, hraised⟩
    · exact hinstalled hok (by simp) fun e he => by cases he
    · rw [Progress.record]
      split
      · rename_i hsite
        refine hinstalled hraised (by simp) fun e' he => ?_
        rw [← Outcome.raised.inj he]
        exact hsite
      · rename_i hsite
        refine hp.failed (committed_of_insertAndDeploy_raised hraised hsite)
          (hp.kept_insertAndDeploy _ _ hraised) ?_ ?_
        · rw [hname]
          exact hp.hasName_committed hnew
        · intro appId hdrawn
          have hfresh := List.find?_some hdrawn
          exact hp.not_mem_committed (by simpa using hfresh)

end

/-- Where nothing pending disturbs an install, no app whose last install raised before its commit has
a committed row, and none is reported as skipped. -/
theorem failedStayHidden_of_reaches (range : PortRange) (t : Tables) {p : Progress}
    (h : Reach (fun p a p' => p.next range a = some p') (Undisturbed range) (Progress.start t) p) :
    FailedStayHidden p := by
  have htracked : Tracked p := h.invariant Tracked (tracked_start t)
    fun _ _ _ hp hquiet hnext => tracked_of_next hp hquiet hnext
  refine ⟨fun appId hid => ⟨htracked.ids appId hid, fun howner => ?_⟩, htracked.notSkipped⟩
  exact htracked.ids appId hid (p.conn.committed.constraints.references appId howner)

/-! ## Installs of which one fails -/

/-- An install for which the world answers as it should; the ports in `taken` cannot be bound. -/
def Attempt.ofManifest (appId : String) (taken : List Int) (manifest : AppManifest) : Attempt where
  env := { bindable := (· ∉ taken), host := fun _ => Host.idle, draws := [appId], tokenHash := appId }
  fetched := .ok manifest

/-- An app that declares these databases. -/
def databaseManifest (name : String) (sqliteDbs : List String) : AppManifest where
  name := name
  sqliteDbs := sqliteDbs
  parsed := ⟨by decide, by decide, by decide, by decide, by decide⟩

/-- An app is installed; the next one declares a database twice and leaves nothing to be seen. -/
theorem failedStayHidden_notes :
    ∃ p, p.failedNames = ["notes"] ∧ p.conn.committed.appIds = ["w"] ∧ FailedStayHidden p := by
  have hrun : (runAll (Progress.next {}) (fun p _ => NothingPending p) (Progress.start .empty)
      [.ofManifest "w" [] (databaseManifest "wiki" []),
        .ofManifest "n" [] (databaseManifest "notes" ["main", "main"])]).any
      (fun p => p.failedNames = ["notes"] && p.conn.committed.appIds = ["w"]) = true := by
    decide +kernel
  obtain ⟨p, hp, hfailed⟩ := (Option.any_eq_true _ _).mp hrun
  simp only [Bool.and_eq_true, decide_eq_true_eq] at hfailed
  exact ⟨p, hfailed.1, hfailed.2, failedStayHidden_of_reaches {} .empty
    ((reach_of_run hp).mono fun _ _ => Or.inl)⟩

/-- An app whose install failed is reported as skipped when it is tried again, and its rows are
published with those of the next app that gets another port. -/
theorem failed_published :
    ∃ p, Reach (fun p a p' => p.next {} a = some p') (fun _ _ => True) (Progress.start .empty) p ∧
      p.skippedFailed = true ∧ "n" ∈ p.failedIds ∧ "n" ∈ p.conn.committed.appIds ∧
      ¬ FailedStayHidden p := by
  have hrun : (runAll (Progress.next {}) (fun _ _ => True) (Progress.start .empty)
      [.ofManifest "n" [] (databaseManifest "notes" ["main", "main"]),
        .ofManifest "m" [] (databaseManifest "notes" ["main"]),
        .ofManifest "w" [9000] (databaseManifest "wiki" [])]).any
      (fun p => p.skippedFailed && decide ("n" ∈ p.failedIds) &&
        decide ("n" ∈ p.conn.committed.appIds)) = true := by
    decide +kernel
  obtain ⟨p, hp, hbad⟩ := (Option.any_eq_true _ _).mp hrun
  simp only [Bool.and_eq_true, decide_eq_true_eq] at hbad
  obtain ⟨⟨hskipped, hfailed⟩, hvisible⟩ := hbad
  exact ⟨p, reach_of_run hp, hskipped, hfailed, hvisible,
    fun h => (h.hidden "n" hfailed).1 hvisible⟩

end OpenHost.Install

import OpenHost.Apps.Lifecycle
import OpenHost.Manifest.Review

/-!
# The approval of an update

An update pulls into the working tree from which the app is built, and only then compares the
manifest there with the one in the app's row.  What is refused is rolled back.  A plain reload, a
rename and the startup recovery build from the same tree without a comparison, and all of them
interleave.

The app came from git: there is no directory of its name among the builtin apps.
-/

namespace OpenHost.Gate

open Apps (Status)
open Manifest
open Raises (Exc Result)
open Services (Tables)

/-! ## The app -/

/-- A working tree, as far as the manifest goes. -/
structure Checkout where
  /-- The text of the manifest, if the tree has one. -/
  toml : Option String
  /-- An owner's request has carried the approval since this was pulled. -/
  approved : Bool
  deriving DecidableEq, Repr

/-- The columns of the app's row that the functions read or write. -/
structure Row where
  status : Status
  manifestRaw : Option String
  repoPath : String
  deriving DecidableEq, Repr

/-- The app: its row, the tree and where it is, the permissions, and the manifest that was deployed
last. -/
structure Site where
  row : Row
  /-- The manifest in the row came from a tree that was approved. -/
  recordedApproved : Bool
  tree : Checkout
  treePath : String
  tables : Tables
  deployed : AppManifest

/-- `data: ReloadAppRequest`, and whether the request comes back from GitHub. -/
structure ReloadRequest where
  update : Bool
  continueOauth : Bool
  approveNewPermissions : Bool
  deriving DecidableEq, Repr

/-- A request or a thread, stopped before its next step. -/
inductive Task where
  /-- `_reload_app_impl`: read the row -/
  | reload (r : ReloadRequest)
  /-- `_reload_app_impl`: `get_head_sha` -/
  | head (r : ReloadRequest) (row : Row)
  /-- `_reload_app_impl`: `git_pull`, without or with a token -/
  | pull (r : ReloadRequest) (row : Row) (prePullSha : Option Checkout) (token : Bool)
  /-- `_reload_app_impl`: `_gate_update_review` -/
  | review (r : ReloadRequest) (row : Row) (prePullSha : Option Checkout)
  /-- `_reload_app_impl`: `reset_hard` -/
  | resetHard (row : Row) (sha : Checkout)
  /-- `_reload_app_impl`: claim the reload -/
  | claim (continueOauth : Bool) (row : Row)
  /-- `_reload_app_impl`: stop the app and start the worker -/
  | spawn (row : Row)
  /-- `reload_app_background`: the manifest goes into the row -/
  | record (repoPath : String)
  /-- `start_app_process`: the manifest of the tree is deployed -/
  | start
  /-- `restart_app_process`: the manifest of the row is deployed -/
  | restart
  /-- `run_app_image` -/
  | run
  /-- `rename_app`: read the row and stop the app -/
  | rename (newPath : String)
  /-- `rename_app`: rename the directories -/
  | renameDirs (newPath : String) (prior : Row)
  /-- `rename_app`: write the name -/
  | renameRecord (newPath : String) (prior : Row)
  deriving DecidableEq, Repr

/-- How a pull ends. -/
inductive Pull where
  | done
  /-- It failed, and is made again with the owner's token. -/
  | again
  /-- It failed, and the owner is sent to GitHub. -/
  | redirected
  | failed
  deriving DecidableEq, Repr

/-- What the world outside answers to a step. -/
structure Answer where
  raises : Bool := false
  pull : Pull := .done
  /-- The manifest in the tree after a pull that has moved it. -/
  moved : Option (Option String) := none
  /-- The manifest was in the row when the worker raised. -/
  wrote : Bool := false
  deriving DecidableEq, Repr

/-! ## Steps -/

variable (lim : Json.Limits) (rt : Runtime) (appId : String)

/-- `parse_manifest(repo_path)` -/
def Checkout.parse (c : Checkout) : Result AppManifest :=
  match c.toml with
  | some text => parseManifestFromString rt text
  | none => .error (.valueError "No openhost.toml found")

namespace Site

/-- The tree, if it is there. -/
def treeAt (s : Site) (path : String) : Option Checkout :=
  if path = s.treePath then some s.tree else none

def setStatus (s : Site) (status : Status) : Site :=
  { s with row := { s.row with status := status } }

/-- `git_pull` has moved the tree, if that is where it ran. -/
def pulled (s : Site) (path : String) (moved : Option (Option String)) : Site :=
  match s.treeAt path, moved with
  | some _, some toml => { s with tree := ⟨toml, false⟩ }
  | _, _ => s

end Site

/-- The permissions that an update declares newly. -/
def newPermissions (m : AppManifest) (previousManifestRaw : Option String) (t : Tables) :
    Result (List PermissionGrant) :=
  getAllPermissionsV2 lim (some appId) t >>= fun granted =>
    manifestNewlyDeclaredPermissionsV2 lim rt m granted previousManifestRaw

/-- The grants that the loop over the new permissions comes to. -/
def grantEach : List PermissionGrant → Tables → Tables
  | [], t => t
  | pg :: rest, t =>
    match grantPermissionV2 lim appId pg.serviceUrl pg.grant t with
    | .ok t' => grantEach rest t'
    | .error _ => t

/-- The tables after `_gate_update_review`, which may raise after some of the grants. -/
def tablesAfter (repo : Option (Result AppManifest)) (approve : Bool) (raw : Option String)
    (t : Tables) : Tables :=
  match repo with
  | some (.ok m) =>
    match newPermissions lim rt appId m raw t, manifestSettingsChanges lim rt m raw with
    | .ok new, .ok _ => if approve then grantEach lim appId new t else t
    | _, _ => t
  | _ => t

/-- The manifest that `restart_app_process` takes. -/
def restartManifest (s : Site) : Result AppManifest :=
  match Services.truthy s.row.manifestRaw with
  | some text => parseManifestFromString rt text
  | none => ((s.treeAt s.row.repoPath).getD ⟨none, false⟩).parse rt

/-- The manifest is deployed. -/
def deploy (m : Result AppManifest) (s : Site) : Site × List Task :=
  match m with
  | .ok m => ({ s.setStatus .starting with deployed := m }, [.run])
  | .error _ => (s.setStatus .error, [])

/-- `prior_status in ("running", "starting", "building")` -/
def wasRunning (row : Row) : Bool :=
  row.status = .running || row.status = .starting || row.status = .building

/-- One step of a task: the app afterwards and the tasks that go on. -/
def Task.step (t : Task) (c : Answer) (s : Site) : Site × List Task :=
  match t with
  | .reload r =>
    (s, if c.raises then []
      else if r.update || r.continueOauth then [.head r s.row] else [.claim r.continueOauth s.row])
  | .head r row =>
    match s.treeAt row.repoPath with
    | none => (s.setStatus .error, [])
    -- a HEAD that cannot be read is passed over
    | some tree => (s, [.pull r row (if c.raises then none else some tree) r.continueOauth])
  | .pull r row prePullSha token =>
    let s' := s.pulled row.repoPath c.moved
    match c.pull with
    | .done =>
      -- git does not run where there is no tree
      if row.repoPath = s.treePath then (s', if c.raises then [] else [.review r row prePullSha])
      else (s'.setStatus .error, [])
    | .again => (s', if c.raises || token then [] else [.pull r row prePullSha true])
    | .redirected => (s', [])
    | .failed => (s'.setStatus .error, [])
  | .review r row prePullSha =>
    let repo := (s.treeAt row.repoPath).map (Checkout.parse rt)
    let s' :=
      { s with
        tables := tablesAfter lim rt appId repo r.approveNewPermissions row.manifestRaw s.tables
        tree := { s.tree with approved := s.tree.approved || r.approveNewPermissions } }
    match gateUpdateReview lim rt appId repo r.approveNewPermissions row.manifestRaw s.tables with
    | .error _ => (s', [])
    | .ok (_, none) => (s', if c.raises then [] else [.claim r.continueOauth row])
    | .ok (_, some _) => (s', prePullSha.toList.map (Task.resetHard row))
  -- a rollback that fails is passed over, too
  | .resetHard row sha =>
    (if c.raises || row.repoPath ≠ s.treePath then s else { s with tree := sha }, [])
  | .claim continueOauth row =>
    if c.raises then (s, [])
    else if s.row.status.transient then (s, if continueOauth then [.spawn row] else [])
    else (s.setStatus .building, [.spawn row])
  | .spawn row => (s, if c.raises then [] else [.record row.repoPath])
  | .record repoPath =>
    match (s.treeAt repoPath).map (Checkout.parse rt) with
    | some (.ok m) =>
      let s' :=
        { s with
          row := { s.row with manifestRaw := some m.rawToml }
          recordedApproved := s.tree.approved }
      -- the `except` clause commits what was written before
      if c.raises then ((if c.wrote then s' else s).setStatus .error, []) else (s', [.start])
    | some (.error e) =>
      if c.raises || !e.isValueError then (s.setStatus .error, []) else (s, [.start])
    | none => if c.raises then (s.setStatus .error, []) else (s, [.start])
  | .start =>
    if c.raises then (s.setStatus .error, [])
    else deploy (((s.treeAt s.row.repoPath).getD ⟨none, false⟩).parse rt) s
  | .restart =>
    if c.raises then (s.setStatus .error, []) else deploy (restartManifest rt s) s
  | .run => (s.setStatus (if c.raises then .error else .running), [])
  | .rename newPath =>
    if c.raises then (s, []) else (s.setStatus .stopped, [.renameDirs newPath s.row])
  | .renameDirs newPath prior =>
    if c.raises then (s.setStatus prior.status, [])
    -- directories that are not there are left out
    else ({ s with treePath := if prior.repoPath = s.treePath then newPath else s.treePath },
      [.renameRecord newPath prior])
  | .renameRecord newPath prior =>
    if c.raises then (s, [])
    else
      let repoPath := if s.row.repoPath = prior.repoPath then newPath else s.row.repoPath
      ({ s with row := { s.row with repoPath := repoPath } },
        if wasRunning prior then [.start] else [])

/-! ## The server -/

/-- The requests on the app. -/
inductive Request where
  | reload (update approveNewPermissions : Bool)
  | reloadAfterOauth
  | rename (newPath : String)
  deriving DecidableEq, Repr

/-- The task of a request. -/
def Request.task : Request → Task
  | .reload update approve => .reload ⟨update, false, approve⟩
  | .reloadAfterOauth => .reload ⟨true, true, false⟩
  | .rename newPath => .rename newPath

/-- What may happen next. -/
inductive Action where
  | request (r : Request)
  /-- the task at a position takes its next step -/
  | task (i : Nat) (c : Answer)
  /-- the process dies and comes up again; `check_app_status` leaves this status, and the app may
  have to be recovered, with or without a build -/
  | reboot (status : Status) (needsBuild : Option Bool)
  deriving DecidableEq, Repr

/-- The app and the tasks in flight. -/
abbrev Server := Pool Site Task

/-- `_restart_apps_sequential`, for one app. -/
def recoverTask (needsBuild : Bool) : Task := if needsBuild then .start else .restart

/-- One step of the server. -/
def next (s : Server) : Action → Option Server
  | .request r => some { s with tasks := s.tasks ++ [r.task] }
  | .task i c => s.stepAt (Task.step lim rt appId) i c
  | .reboot status needsBuild =>
    some
      { shared := s.shared.setStatus status
        tasks := (needsBuild.map recoverTask).toList }

/-- The step relation. -/
def Step (s : Server) (a : Action) (t : Server) : Prop := next lim rt appId s a = some t

/-! ## What is to hold -/

/-- Nothing in the manifest calls for an approval: it is the one that is deployed, or each of its
permissions is granted or declared by that one, and the settings are the same. -/
def Unremarkable (deployed m : AppManifest) (t : Tables) : Prop :=
  m = deployed ∨
    (∀ p ∈ allManifestPermissionsV2 m, Granted lim t appId p ∨
      ∃ q ∈ allManifestPermissionsV2 deployed, SamePermission q p) ∧
    SameSettings rt deployed m

/-- What a tree holds calls for no approval, or has been approved. -/
def Fine (s : Site) (c : Checkout) : Prop :=
  c.approved = true ∨ ∀ m, c.parse rt = .ok m → Unremarkable lim rt appId s.deployed m s.tables

/-- What is deployed in a step, with what was approved. -/
inductive Deploys (s : Site) : Task → Answer → AppManifest → Bool → Prop
  | start {c : Answer} {m : AppManifest} {tree : Checkout} (hc : c.raises = false)
      (htree : s.treeAt s.row.repoPath = some tree) (hm : tree.parse rt = .ok m) :
      Deploys s .start c m tree.approved
  | restart {c : Answer} {m : AppManifest} (hc : c.raises = false)
      (hm : restartManifest rt s = .ok m) : Deploys s .restart c m
        (if (Services.truthy s.row.manifestRaw).isSome then s.recordedApproved else s.tree.approved)

/-- What a step deploys calls for no approval, or was approved after the pull. -/
def Approved (s : Server) (a : Action) : Prop :=
  ∀ i c t m approved, a = .task i c → s.tasks[i]? = some t →
    Deploys rt s.shared t c m approved →
      approved = true ∨ Unremarkable lim rt appId s.shared.deployed m s.shared.tables

/-- The task has pulled and not come to the end of the review. -/
def Task.reviews : Task → Bool
  | .review _ _ _ | .resetHard _ _ => true
  | _ => false

/-- No update is between its pull and the end of its review. -/
def Server.Quiet (s : Server) : Prop := ∀ t ∈ s.tasks, t.reviews = false

/-- The condition on a step of a task. -/
def TaskOk (s : Server) (c : Answer) : Task → Prop
  -- what the request would go back to is fine, and so is what it leaves when it does not come to
  -- the review
  | .pull _ _ prePullSha _ =>
    s.Quiet ∧ (∀ sha ∈ prePullSha, Fine lim rt appId s.shared sha) ∧
      (c.pull ≠ .done ∨ c.raises = true →
        ∀ toml ∈ c.moved, Fine lim rt appId s.shared ⟨toml, false⟩)
  -- the gate sees what it is to see, and what it refuses can be rolled back
  | .review r row prePullSha =>
    r.approveNewPermissions = false → ¬Fine lim rt appId s.shared s.shared.tree →
      row.repoPath = s.shared.treePath ∧ prePullSha.isSome = true ∧
        Previous rt row.manifestRaw (some s.shared.deployed) ∧
        ∀ m, s.shared.tree.parse rt = .ok m → Reviewable lim rt m (some s.shared.deployed)
  | .resetHard row _ =>
    ¬Fine lim rt appId s.shared s.shared.tree → c.raises = false ∧ row.repoPath = s.shared.treePath
  | .start => s.Quiet
  | .restart => s.Quiet ∧ Previous rt s.shared.row.manifestRaw (some s.shared.deployed)
  | _ => True

/-- The condition on a step. -/
def Undisturbed (s : Server) : Action → Prop
  | .request _ => True
  | .task i c => ∀ t, s.tasks[i]? = some t → TaskOk lim rt appId s c t
  | .reboot _ _ => s.Quiet

/-! ## The gate -/

section

variable {lim : Json.Limits} {rt : Runtime} {appId : String}

theorem mem_of_newlyDeclared {m : AppManifest} {granted : List PermissionRecord}
    {raw : Option String} {new : List PermissionGrant}
    (h : manifestNewlyDeclaredPermissionsV2 lim rt m granted raw = .ok new) :
    ∀ p ∈ new, p ∈ allManifestPermissionsV2 m := by
  unfold manifestNewlyDeclaredPermissionsV2 at h
  obtain ⟨ungranted, hungranted, h⟩ := Raises.bind_eq_ok_iff.mp h
  obtain ⟨keys, -, hcollect⟩ := Raises.bind_eq_ok_iff.mp hungranted
  obtain ⟨previous, -, h⟩ := Raises.bind_eq_ok_iff.mp h
  have hsound : ∀ p ∈ ungranted, p ∈ allManifestPermissionsV2 m := fun p hp =>
    ((collectNew_spec hcollect).1 p hp).1
  cases previous with
  | none =>
    obtain rfl := Except.ok.inj h
    exact hsound
  | some old =>
    obtain ⟨declared, -, hnew⟩ := Raises.bind_eq_ok_iff.mp h
    exact fun p hp => hsound p ((withoutKeys_sublist hnew).subset hp)

theorem stored_grantPermissionV2 {p : PermissionGrant} {t t' : Tables}
    (hdistinct : p.grant.distinctKeys = true) (ht : Stored lim t)
    (h : grantPermissionV2 lim appId p.serviceUrl p.grant t = .ok t') : Stored lim t' := by
  obtain ⟨text, htext, h⟩ := Raises.bind_eq_ok_iff.mp h
  cases hwrite : Services.grantPermissionV2 ⟨appId, p.serviceUrl, text, .global, ""⟩ t with
  | error e =>
    rw [hwrite] at h
    cases h
  | ok u =>
    rw [hwrite] at h
    obtain rfl := Except.ok.inj h
    obtain ⟨-, -, -, hpermissions⟩ := Services.grantPermissionV2_ok hwrite
    intro row hrow
    rw [hpermissions] at hrow
    split at hrow
    · exact ht row hrow
    · rcases List.mem_append.mp hrow with hrow | hrow
      · exact ht row hrow
      · obtain ⟨j, hj, hdump⟩ := dumpGrant_eq_ok_iff.mp htext
        rw [List.mem_singleton.mp hrow]
        exact ⟨j, Toml.wellFormed_of_json? hdistinct hj, hdump⟩

theorem stored_grantEach {grants : List PermissionGrant} {t : Tables}
    (hdistinct : ∀ p ∈ grants, p.grant.distinctKeys = true) (ht : Stored lim t) :
    Stored lim (grantEach lim appId grants t) := by
  induction grants generalizing t with
  | nil => exact ht
  | cons p grants ih =>
    rw [List.forall_mem_cons] at hdistinct
    unfold grantEach
    split
    · next t' hgrant => exact ih hdistinct.2 (stored_grantPermissionV2 hdistinct.1 ht hgrant)
    · exact ht

theorem exists_text_of_parse {c : Checkout} {m : AppManifest} (h : c.parse rt = .ok m) :
    ∃ text, parseManifestFromString rt text = .ok m := by
  unfold Checkout.parse at h
  split at h
  · next text _ => exact ⟨text, h⟩
  · cases h

/-- The payloads are texts that were written, also after the gate. -/
theorem stored_tablesAfter {tree : Option Checkout} {approve : Bool} {raw : Option String}
    {t : Tables}
    (ht : Stored lim t) :
    Stored lim (tablesAfter lim rt appId (tree.map (Checkout.parse rt)) approve raw t) := by
  unfold tablesAfter
  split
  · next m hrepo =>
    obtain ⟨c, -, hm⟩ := Option.map_eq_some_iff.mp hrepo
    obtain ⟨text, htext⟩ := exists_text_of_parse hm
    split
    · next new _ hnew _ =>
      obtain ⟨granted, -, hnew⟩ := Raises.bind_eq_ok_iff.mp hnew
      split
      · exact stored_grantEach
          (fun p hp => declared_distinctKeys htext p (mem_of_newlyDeclared hnew p hp)) ht
      · exact ht
    · exact ht
  · exact ht

theorem tablesAfter_of_not_approve {repo : Option (Result AppManifest)} {raw : Option String}
    {t : Tables} : tablesAfter lim rt appId repo false raw t = t := by
  unfold tablesAfter
  split
  · split <;> rfl
  · rfl

variable {m old : AppManifest} {raw : Option String} {t t' : Tables}

/-- The gate answers, and lets pass without an approval what calls for none. -/
theorem gate_spec {c : Checkout} (hm : c.parse rt = .ok m) (hprevious : Previous rt raw (some old))
    (hreviewable : Reviewable lim rt m (some old)) (ht : Stored lim t) (hid : appId ≠ "") :
    ∃ review, gateUpdateReview lim rt appId (some (.ok m)) false raw t = .ok (t, review) ∧
      (review = none → Unremarkable lim rt appId old m t) := by
  obtain ⟨text, htext⟩ := exists_text_of_parse hm
  obtain ⟨granted, hgranted, hkeys⟩ := exists_grantedKeys (payloads_of_stored ht (some appId))
  obtain ⟨new, hnew⟩ := (exists_newlyDeclared_iff hprevious hkeys).mpr
    ⟨hreviewable.declared, hreviewable.previouslyDeclared⟩
  obtain ⟨changes, hchanges⟩ :=
    (exists_manifestSettingsChanges_iff hprevious).mpr hreviewable.settings
  refine ⟨_, (gateUpdateReview_eq_ok_iff hgranted).mpr ⟨new, hnew, changes, hchanges, rfl⟩, ?_⟩
  intro hnone
  have hspec := newlyDeclared_spec (declared_distinctKeys htext) hprevious hid hkeys hnew
  have hsettings := manifestSettingsChanges_eq_nil_iff hprevious hchanges
  split at hnone
  · next hempty =>
    rw [Bool.and_eq_true, List.isEmpty_iff, List.isEmpty_iff] at hempty
    right
    constructor
    · intro p hp
      rcases hspec.eq_nil_iff.mp hempty.1 p hp with hgr | ⟨old', hold, hq⟩
      · exact .inl hgr
      · rw [Option.mem_def, Option.some.injEq] at hold
        exact .inr (hold ▸ hq)
    · exact hsettings.mp hempty.2 old rfl
  · cases hnone

theorem grantEach_of_grantAll {grants : List PermissionGrant} {t t' : Tables}
    (h : grantAll lim appId grants t = .ok t') : grantEach lim appId grants t = t' := by
  induction grants generalizing t with
  | nil => exact Except.ok.inj h
  | cons p grants ih =>
    rw [grantAll, List.foldlM_cons] at h
    obtain ⟨u, hu, hrest⟩ := Raises.bind_eq_ok_iff.mp h
    rw [grantEach, hu]
    exact ih hrest

/-- Where the gate answers, the tables are those it leaves. -/
theorem tablesAfter_of_ok {repo : Option (Result AppManifest)} {approve : Bool}
    {review : Option UpdateReviewRequired}
    (h : gateUpdateReview lim rt appId repo approve raw t = .ok (t', review)) :
    tablesAfter lim rt appId repo approve raw t = t' := by
  unfold gateUpdateReview at h
  split at h
  · exact congrArg Prod.fst (Except.ok.inj h)
  · split at h
    · exact congrArg Prod.fst (Except.ok.inj h)
    · cases h
  · next m =>
    obtain ⟨granted, hgranted, h⟩ := Raises.bind_eq_ok_iff.mp h
    obtain ⟨new, hnew, h⟩ := Raises.bind_eq_ok_iff.mp h
    obtain ⟨changes, hchanges, h⟩ := Raises.bind_eq_ok_iff.mp h
    have hnew' : newPermissions lim rt appId m raw t = .ok new :=
      Raises.bind_eq_ok_iff.mpr ⟨granted, hgranted, hnew⟩
    simp only [tablesAfter, hnew', hchanges]
    split at h
    · next hempty =>
      rw [Bool.and_eq_true, List.isEmpty_iff] at hempty
      rw [hempty.1, grantEach, ite_self]
      exact congrArg Prod.fst (Except.ok.inj h)
    · cases approve with
      | true =>
        obtain ⟨t'', hgrants, h⟩ := Raises.bind_eq_ok_iff.mp h
        rw [if_pos rfl, grantEach_of_grantAll hgrants]
        exact congrArg Prod.fst (Except.ok.inj h)
      | false => exact congrArg Prod.fst (Except.ok.inj h)

/-- What is approved is not asked for again. -/
theorem review_eq_none_of_approve {repo : Option (Result AppManifest)}
    {review : Option UpdateReviewRequired}
    (h : gateUpdateReview lim rt appId repo true raw t = .ok (t', review)) : review = none := by
  unfold gateUpdateReview at h
  split at h
  · exact (congrArg Prod.snd (Except.ok.inj h)).symm
  · split at h
    · exact (congrArg Prod.snd (Except.ok.inj h)).symm
    · cases h
  · obtain ⟨granted, -, h⟩ := Raises.bind_eq_ok_iff.mp h
    obtain ⟨new, -, h⟩ := Raises.bind_eq_ok_iff.mp h
    obtain ⟨changes, -, h⟩ := Raises.bind_eq_ok_iff.mp h
    split at h
    · exact (congrArg Prod.snd (Except.ok.inj h)).symm
    · rw [if_pos rfl] at h
      obtain ⟨t'', -, h⟩ := Raises.bind_eq_ok_iff.mp h
      exact (congrArg Prod.snd (Except.ok.inj h)).symm

end

end OpenHost.Gate

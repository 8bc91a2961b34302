import OpenHost.Install.Ports

/-!
# Installing an app

`insert_and_deploy`: the ports, the id and the data directories of a new app, and its rows, which
are committed together.  Nothing rolls the transaction back when a statement raises.
-/

namespace OpenHost.Install

open Proc (Within Same Keeps within_bind)

/-! ## The environment -/

/-- A call that may raise. -/
inductive Call where
  | checkStorage
  | allocatePort
  | resolvePorts
  | makeDataDirs
  | columnValues
  | grantPermissions
  | moveClone
  | recopy
  | parseManifest
  | parseAtStart
  | buildImage
  | prepareLaunch
  | runContainer
  | stopContainer
  deriving DecidableEq, Repr

/-- A statement of the database. -/
inductive Stmt where
  | insertApp
  | insertPortMapping (label : String)
  | insertDatabase (dbName : String)
  | replaceToken
  | registerServices
  | commitInstall
  | updateColumns
  | readMappings
  | readPorts
  | deletePortMapping (label : String)
  | writePortMapping (label : String)
  | syncServices
  | commitSync
  | markStarting
  | commitStarting
  | markLaunching
  | commitLaunching
  | recordContainer
  | commitContainer
  | recordReady
  | commitReady
  | recordLaunchFailure
  | commitLaunchFailure
  | recordError
  | commitError
  | deleteApp
  | commitRemoval
  deriving DecidableEq, Repr

/-- Where an exception was raised. -/
inductive Site where
  | call (c : Call)
  | stmt (s : Stmt)
  deriving DecidableEq, Repr

/-- An exception with the place it comes from. -/
structure Raised where
  site : Site
  error : PyError
  deriving DecidableEq, Repr

/-- Why the database refuses a statement for reasons of its own, and whether it rolls back the
transaction. -/
structure DatabaseRefusal where
  message : String
  rollsBack : Bool := false
  deriving DecidableEq, Repr

/-- The answers of the outside world. -/
structure Env where
  raises : Call → Option PyError := fun _ => none
  refuses : Stmt → Option DatabaseRefusal := fun _ => none
  /-- The port of the app can be bound. -/
  bindable : Int → Bool := fun _ => true
  /-- The host, when the port of this mapping is looked for. -/
  host : String → Host
  /-- What `new_app_id` draws while the process lives. -/
  draws : List String
  /-- `hashlib.sha256(app_token.encode()).hexdigest()` -/
  tokenHash : String
  /-- `env_vars.get(f"OPENHOST_SQLITE_{db_name.upper()}", "")` -/
  dbPath : String → String := fun _ => ""

namespace Env

/-- A call raises, or does what it has to. -/
def call (env : Env) (c : Call) : Session Raised Tables Unit :=
  match env.raises c with
  | some e => Proc.raise ⟨.call c, e⟩
  | none => pure ()

/-- A call that returns what it has computed. -/
def compute {α : Type} (env : Env) (c : Call) (r : Except PyError α) : Session Raised Tables α := do
  env.call c
  Proc.ofExcept (r.mapError fun e => ⟨.call c, e⟩)

/-- The refusal of a statement, as an exception. -/
def refusal (env : Env) (s : Stmt) : Option (Refusal Raised) :=
  (env.refuses s).map fun r => ⟨⟨.stmt s, .databaseError r.message⟩, r.rollsBack⟩

/-- A statement that reads the tables. -/
def look (env : Env) (s : Stmt) : Session Raised Tables Tables := Session.look (env.refusal s)

/-- A statement that changes the tables. -/
def execute (env : Env) (s : Stmt) (f : Tables → Except PyError Tables) :
    Session Raised Tables Unit :=
  Session.execute (env.refusal s) fun t => (f t).mapError fun e => ⟨.stmt s, e⟩

/-- `db.commit()` -/
def commit (env : Env) (s : Stmt) : Session Raised Tables Unit := Session.commit (env.refusal s)

end Env

/-! ### What a statement leaves -/

/-- The database rolled the transaction back when it refused what was to be done there. -/
def Env.rolledBack (env : Env) : Site → Bool
  | .stmt s => (env.refuses s).any (·.rollsBack)
  | .call _ => false

/-- What a connection sees after a statement has raised. -/
def Env.seenAfter (env : Env) (site : Site) (c : Conn Tables) : Tables :=
  if env.rolledBack site then c.committed else c.seen

section

variable {env : Env} {s : Stmt} {f : Tables → Except PyError Tables} {c c' : Conn Tables}
  {e : Raised} {u : Unit}

theorem mapError_ok_iff {α : Type} {site : Site} {r : Except PyError α} {a : α} :
    (r.mapError fun e => (⟨site, e⟩ : Raised)) = .ok a ↔ r = .ok a := by
  cases r <;> simp [Except.mapError]

theorem mapError_error_iff {α : Type} {site : Site} {r : Except PyError α} :
    (r.mapError fun e => (⟨site, e⟩ : Raised)) = .error e ↔ ∃ e', r = .error e' ∧ e = ⟨site, e'⟩ := by
  cases r <;> simp [Except.mapError, eq_comm]

/-- What a refusal of the database itself leaves. -/
theorem refusal_leaves {r : Refusal Raised} (h : env.refusal s = some r) (c : Conn Tables) :
    r.error.site = .stmt s ∧ r.error.error.isValueError = false ∧
      (r.leaves c).seen = env.seenAfter (.stmt s) c := by
  obtain ⟨refused, hrefused, rfl⟩ := Option.map_eq_some_iff.mp h
  refine ⟨rfl, rfl, ?_⟩
  rw [Env.seenAfter, Env.rolledBack, hrefused, Option.any_some, Refusal.leaves]
  split <;> rfl

theorem Env.execute_ok (h : env.execute s f c = (.ok u, c')) :
    ∃ t, f c.seen = .ok t ∧ c' = { c with txn := some t } := by
  obtain ⟨-, t, hf, rfl⟩ := Session.execute_ok_iff.mp h
  exact ⟨t, mapError_ok_iff.mp hf, rfl⟩

/-- A statement that raises publishes nothing and changes nothing, unless the transaction is rolled
back with it. -/
theorem Env.execute_raised (hf : ∀ t e, f t = .error e → e = .integrityError)
    (h : env.execute s f c = (.raised e, c')) :
    e.site = .stmt s ∧ e.error.isValueError = false ∧ c'.committed = c.committed ∧
      c'.seen = env.seenAfter (.stmt s) c := by
  rcases Session.execute_raised h with ⟨r, hr, rfl, rfl⟩ | ⟨hr, hbroken, rfl⟩
  · obtain ⟨hsite, hvalue, hseen⟩ := refusal_leaves hr c.opened
    exact ⟨hsite, hvalue, r.committed_leaves _, hseen⟩
  · obtain ⟨e', he', rfl⟩ := mapError_error_iff.mp hbroken
    refine ⟨rfl, by rw [hf _ _ he']; rfl, rfl, ?_⟩
    have hnone : env.refuses s = none := by simpa [Env.refusal] using hr
    simp [Env.seenAfter, Env.rolledBack, hnone]

theorem Env.look_ok {t : Tables} (h : env.look s c = (.ok t, c')) : t = c.seen ∧ c' = c :=
  (Session.look_ok_iff.mp h).2

theorem Env.look_raised (h : env.look s c = (.raised e, c')) :
    e.site = .stmt s ∧ e.error.isValueError = false ∧ c'.committed = c.committed ∧
      c'.seen = env.seenAfter (.stmt s) c := by
  obtain ⟨r, hr, rfl, rfl⟩ := Session.look_raised h
  obtain ⟨hsite, hvalue, hseen⟩ := refusal_leaves hr c
  exact ⟨hsite, hvalue, r.committed_leaves _, hseen⟩

theorem Env.commit_raised (h : env.commit s c = (.raised e, c')) :
    e.site = .stmt s ∧ e.error.isValueError = false ∧ c'.committed = c.committed ∧
      c'.seen = env.seenAfter (.stmt s) c := by
  obtain ⟨r, hr, rfl, rfl⟩ := Session.commit_raised h
  obtain ⟨hsite, hvalue, hseen⟩ := refusal_leaves hr c
  exact ⟨hsite, hvalue, r.committed_leaves _, hseen⟩

/-- A statement keeps what it keeps of the tables. -/
theorem Env.keeps_execute {P : Tables → Prop} (h : ∀ t t', P t → f t = .ok t' → P t') :
    Within (Keeps (Conn.All P)) (env.execute s f) :=
  Session.keeps_execute _ fun t t' ht hf => h t t' ht (mapError_ok_iff.mp hf)

end

/-! ## The install -/

/-- The arguments of an install. -/
structure Request where
  manifest : AppManifest
  repoPath : String := ""
  appName : Option String := none
  repoUrl : Option String := none
  portOverrides : List (String × Int) := []

/-- `app_name`, or the name in the manifest. -/
def Request.name (req : Request) : String := req.appName.getD req.manifest.name

/-- The mappings with the ports that the caller chose. -/
def Request.mappings (req : Request) : List PortMapping :=
  req.manifest.portMappings.map fun pm =>
    { pm with hostPort := (req.portOverrides.lookup pm.label).getD pm.hostPort }

/-- `_mint_unique_app_id`, which goes on until it draws an id without a row. -/
def mintUniqueAppId (env : Env) : Session Raised Tables String := do
  let t ← Session.select
  match env.draws.find? (· ∉ t.appIds) with
  | some appId => return appId
  | none => Proc.die

/-- The row of a new app. -/
def Request.row (req : Request) (appId : String) (localPort : Int) : AppRow where
  appId := appId
  name := req.name
  repoPath := req.repoPath
  repoUrl := req.repoUrl
  localPort := localPort
  containerId := none
  status := .building
  errorMessage := none
  columns := manifestColumnValues req.manifest

/-- The row of a resolved mapping. -/
def mappingRow (appId : String) (pm : PortMapping) : PortMappingRow :=
  ⟨appId, pm.label, pm.containerPort, pm.hostPort⟩

/-- The rows that `insert_and_deploy` writes. -/
def writeRows (env : Env) (manifest : AppManifest) (row : AppRow) (resolved : List PortMapping) :
    Session Raised Tables Unit := do
  env.execute .insertApp (Tables.insertApp row)
  Proc.forEach resolved fun pm =>
    env.execute (.insertPortMapping pm.label) (Tables.insertPortMapping (mappingRow row.appId pm))
  Proc.forEach manifest.sqliteDbs fun dbName =>
    env.execute (.insertDatabase dbName)
      (Tables.insertDatabase ⟨row.appId, dbName, env.dbPath dbName⟩)
  env.execute .replaceToken (Tables.replaceToken ⟨row.appId, env.tokenHash⟩)
  env.execute .registerServices (Tables.registerServices row.appId manifest.providesServicesV2)

/-- The rows, and their commit. -/
def insertRows (env : Env) (manifest : AppManifest) (row : AppRow) (resolved : List PortMapping) :
    Session Raised Tables Unit := do
  writeRows env manifest row resolved
  env.commit .commitInstall

/-- `insert_and_deploy`, up to the start of the deploy thread. -/
def insertAndDeploy (range : PortRange) (env : Env) (req : Request) :
    Session Raised Tables String := do
  env.call .checkStorage
  -- `allocate_port` reads on a connection of its own
  let committed ← Proc.reads Conn.committed
  let localPort ← env.compute .allocatePort (allocatePort committed.toRows env.bindable range)
  let appId ← mintUniqueAppId env
  let t ← Session.select
  let resolved ← env.compute .resolvePorts
    (resolvePortMappings req.mappings t.toRows range none fun _ => env.host)
  env.call .makeDataDirs
  env.call .columnValues
  insertRows env req.manifest (req.row appId localPort) resolved
  -- the grants are written on connections of their own
  env.call .grantPermissions
  return appId

/-! ## What comes before the rows -/

section Prelude

variable {env : Env} {c : Conn Tables}

/-- A call leaves the connection alone. -/
theorem call_cases (env : Env) (s : Call) (c : Conn Tables) :
    env.call s c = (.ok (), c) ∨ ∃ e, env.raises s = some e ∧ env.call s c = (.raised ⟨.call s, e⟩, c) := by
  unfold Env.call
  cases env.raises s with
  | none => exact Or.inl rfl
  | some e => exact Or.inr ⟨e, rfl, rfl⟩

theorem compute_cases {α : Type} (env : Env) (s : Call) (r : Except PyError α) (c : Conn Tables) :
    (∃ a, r = .ok a ∧ env.compute s r c = (.ok a, c)) ∨
      ∃ e, env.compute s r c = (.raised ⟨.call s, e⟩, c) := by
  unfold Env.compute
  rcases call_cases env s c with h | ⟨e, -, h⟩
  · rw [Proc.bind_of_ok h]
    cases r with
    | ok a => exact Or.inl ⟨a, rfl, rfl⟩
    | error e => exact Or.inr ⟨e, rfl⟩
  · exact Or.inr ⟨e, Proc.bind_of_raised h⟩

/-- The port, the id and the mappings with which an install goes on to write. -/
structure Prepared (range : PortRange) (env : Env) (req : Request) (c : Conn Tables)
    (row : AppRow) (resolved : List PortMapping) : Prop where
  row_eq : row = req.row row.appId row.localPort
  localPort : FirstFree (usedPorts c.committed.toRows none) env.bindable range.ports row.localPort
  drawn : env.draws.find? (· ∉ c.seen.appIds) = some row.appId
  resolved : resolvePortMappings req.mappings c.seen.toRows range none (fun _ => env.host) =
    .ok resolved

/-- An install ends without having written anything, or is prepared and writes its rows. -/
theorem insertAndDeploy_cases (range : PortRange) (env : Env) (req : Request) (c : Conn Tables) :
    (insertAndDeploy range env req c = (.killed, c) ∨
      ∃ s e, insertAndDeploy range env req c = (.raised ⟨.call s, e⟩, c) ∧ s ≠ .grantPermissions) ∨
    ∃ row resolved, Prepared range env req c row resolved ∧
      insertAndDeploy range env req c =
        (do insertRows env req.manifest row resolved
            env.call .grantPermissions
            return row.appId : Session Raised Tables String) c := by
  unfold insertAndDeploy
  rcases call_cases env .checkStorage c with h | ⟨e, -, h⟩
  swap
  · exact Or.inl (Or.inr ⟨_, e, Proc.bind_of_raised h, by decide⟩)
  rw [Proc.bind_of_ok h, Proc.bind_of_ok (Proc.reads_apply _ c)]
  rcases compute_cases env .allocatePort
      (allocatePort c.committed.toRows env.bindable range) c with ⟨localPort, hport, h⟩ | ⟨e, h⟩
  swap
  · exact Or.inl (Or.inr ⟨_, e, Proc.bind_of_raised h, by decide⟩)
  rw [Proc.bind_of_ok h]
  cases hdraw : env.draws.find? (· ∉ c.seen.appIds) with
  | none =>
    have hdie : mintUniqueAppId env c = (.killed, c) := by
      rw [mintUniqueAppId, Proc.bind_of_ok (Session.select_apply c), hdraw]
      rfl
    exact Or.inl (Or.inl (Proc.bind_of_killed hdie))
  | some appId =>
    have hmint : mintUniqueAppId env c = (.ok appId, c) := by
      rw [mintUniqueAppId, Proc.bind_of_ok (Session.select_apply c), hdraw]
      rfl
    rw [Proc.bind_of_ok hmint, Proc.bind_of_ok (Session.select_apply c)]
    rcases compute_cases env .resolvePorts
        (resolvePortMappings req.mappings c.seen.toRows range none fun _ => env.host) c with
      ⟨resolved, hresolved, h⟩ | ⟨e, h⟩
    swap
    · exact Or.inl (Or.inr ⟨_, e, Proc.bind_of_raised h, by decide⟩)
    rw [Proc.bind_of_ok h]
    rcases call_cases env .makeDataDirs c with h | ⟨e, -, h⟩
    swap
    · exact Or.inl (Or.inr ⟨_, e, Proc.bind_of_raised h, by decide⟩)
    rw [Proc.bind_of_ok h]
    rcases call_cases env .columnValues c with h | ⟨e, -, h⟩
    swap
    · exact Or.inl (Or.inr ⟨_, e, Proc.bind_of_raised h, by decide⟩)
    rw [Proc.bind_of_ok h]
    exact Or.inr ⟨req.row appId localPort, resolved,
      ⟨rfl, allocatePort_ok hport, hdraw, hresolved⟩, rfl⟩

end Prelude

/-! ## What the rows of an app add -/

/-- Every row of `apps` and of `app_port_mappings` was there before, or is one of the new app's, and
no app is lost. -/
structure Adds (row : AppRow) (resolved : List PortMapping) (t t' : Tables) : Prop where
  kept : ∀ a ∈ t.apps, a ∈ t'.apps
  apps : ∀ a ∈ t'.apps, a ∈ t.apps ∨ a = row
  portMappings : ∀ m ∈ t'.portMappings,
    m ∈ t.portMappings ∨ ∃ pm ∈ resolved, m = mappingRow row.appId pm

namespace Adds

variable {row : AppRow} {resolved : List PortMapping} {t t' u : Tables}

theorem refl (t : Tables) : Adds row resolved t t :=
  ⟨fun _ h => h, fun _ h => Or.inl h, fun _ h => Or.inl h⟩

theorem trans (h : Adds row resolved t t') (h' : Adds row resolved t' u) :
    Adds row resolved t u where
  kept a ha := h'.kept a (h.kept a ha)
  apps a ha := (h'.apps a ha).elim (h.apps a) Or.inr
  portMappings m hm := (h'.portMappings m hm).elim (h.portMappings m) Or.inr

/-- A statement that leaves the apps and the mappings alone. -/
theorem of_eq (happs : t'.apps = t.apps) (hmappings : t'.portMappings = t.portMappings) :
    Adds row resolved t t' where
  kept a ha := by rw [happs]; exact ha
  apps a ha := by rw [happs] at ha; exact Or.inl ha
  portMappings m hm := by rw [hmappings] at hm; exact Or.inl hm

end Adds

section

variable {env : Env} {row : AppRow} {resolved : List PortMapping}

/-- A statement that adds rows of the new app goes on from what another has added. -/
theorem adds_execute {s : Stmt} {f : Tables → Except PyError Tables} {k v : Tables}
    (h : ∀ t t', f t = .ok t' → Adds row resolved t t') :
    Within (Keeps (Conn.All fun t => Adds row resolved k t ∨ Adds row resolved v t))
      (env.execute s f) :=
  Env.keeps_execute fun t t' ht hf => ht.imp (·.trans (h t t' hf)) (·.trans (h t t' hf))

/-- What is committed and what the connection sees after `writeRows` has only the rows of the new
app besides those that were committed or seen before. -/
theorem adds_writeRows (manifest : AppManifest) (k v : Tables) :
    Within (Keeps (Conn.All fun t => Adds row resolved k t ∨ Adds row resolved v t))
      (writeRows env manifest row resolved) := by
  unfold writeRows
  apply within_bind
  · apply adds_execute
    intro t t' h
    have hrows := Tables.write_ok h
    refine ⟨fun a ha => ?_, fun a ha => ?_, fun m hm => Or.inl ?_⟩
    · rw [hrows]
      exact List.mem_append_left _ ha
    · rw [hrows] at ha
      simpa using ha
    · rw [hrows] at hm
      exact hm
  intro _
  apply within_bind
  · apply Proc.within_forEach
    intro pm hpm
    apply adds_execute
    intro t t' h
    have hrows := Tables.write_ok h
    refine ⟨fun a ha => ?_, fun a ha => Or.inl ?_, fun m hm => ?_⟩
    · rw [hrows]
      exact ha
    · rw [hrows] at ha
      exact ha
    · rw [hrows] at hm
      rcases List.mem_append.mp hm with hm | hm
      · exact Or.inl hm
      · exact Or.inr ⟨pm, hpm, List.mem_singleton.mp hm⟩
  intro _
  apply within_bind
  · apply Proc.within_forEach
    intro dbName _
    apply adds_execute
    intro t t' h
    have hrows := Tables.write_ok h
    exact Adds.of_eq (by rw [hrows]) (by rw [hrows])
  intro _
  apply within_bind
  · apply adds_execute
    intro t t' h
    have hrows := Tables.write_ok h
    exact Adds.of_eq (by rw [hrows]) (by rw [hrows])
  intro _
  apply adds_execute
  intro t t' h
  have hrows := Tables.write_ok h
  exact Adds.of_eq (by rw [hrows]) (by rw [hrows])

/-- The same with the commit. -/
theorem adds_insertRows (env : Env) (manifest : AppManifest) (row : AppRow)
    (resolved : List PortMapping) (c : Conn Tables) :
    (insertRows env manifest row resolved c).2.All fun t =>
      Adds row resolved c.committed t ∨ Adds row resolved c.seen t := by
  have hall : Within (Keeps (Conn.All fun t =>
      Adds row resolved c.committed t ∨ Adds row resolved c.seen t))
      (insertRows env manifest row resolved) :=
    within_bind (adds_writeRows manifest _ _) fun _ => Session.keeps_commit _
  exact hall c ⟨Or.inl (Adds.refl _), Or.inr (Adds.refl _)⟩

theorem same_writeRows (manifest : AppManifest) :
    Within (Same Conn.committed) (writeRows env manifest row resolved) := by
  unfold writeRows
  exact within_bind (Session.same_execute _ _) fun _ =>
    within_bind (Proc.within_forEach fun _ _ => Session.same_execute _ _) fun _ =>
      within_bind (Proc.within_forEach fun _ _ => Session.same_execute _ _) fun _ =>
        within_bind (Session.same_execute _ _) fun _ => Session.same_execute _ _

/-- Rows that are not committed are not published either. -/
theorem committed_of_insertRows_raised {manifest : AppManifest} {c c' : Conn Tables} {e : Raised}
    (h : insertRows env manifest row resolved c = (.raised e, c')) :
    c'.committed = c.committed := by
  rcases Proc.bind_raised_iff.mp h with h | ⟨_, c₁, hrows, hcommit⟩
  · exact (same_writeRows manifest).of_eq h
  · obtain ⟨r, -, -, rfl⟩ := Session.commit_raised hcommit
    rw [Refusal.committed_leaves]
    exact (same_writeRows manifest).of_eq hrows

end

/-! ## How an install ends -/

/-- A port that an app has already got is refused. -/
theorem insertApp_of_portTaken {row : AppRow} {t : Tables} (h : row.localPort ∈ t.localPorts) :
    t.insertApp row = .error .integrityError := by
  apply dif_neg
  intro hc
  have hnodup := hc.localPorts
  simp only [Rows.localPorts, List.map_append, List.map_cons, List.map_nil] at hnodup
  exact (List.nodup_append.mp hnodup).2.2 _ h _ (List.mem_singleton_self _) rfl

variable {range : PortRange} {env : Env} {req : Request} {c c' : Conn Tables}

theorem insertRows_of_portTaken (env : Env) (manifest : AppManifest) {row : AppRow}
    (resolved : List PortMapping) (h : row.localPort ∈ c.seen.localPorts) :
    ∃ e c', insertRows env manifest row resolved c = (.raised ⟨.stmt .insertApp, e⟩, c') := by
  have hinsert : ∃ e c', env.execute .insertApp (Tables.insertApp row) c =
      (.raised ⟨.stmt .insertApp, e⟩, c') := by
    unfold Env.execute Session.execute Env.refusal
    cases env.refuses .insertApp with
    | some r => exact ⟨_, _, rfl⟩
    | none =>
      simp only [Option.map_none, insertApp_of_portTaken h]
      exact ⟨_, _, rfl⟩
  obtain ⟨e, c', hraised⟩ := hinsert
  exact ⟨e, c', Proc.bind_of_raised (Proc.bind_of_raised hraised)⟩

/-- An install that is given a port which a row on its connection has does not get to its commit. -/
theorem insertAndDeploy_of_portTaken (req : Request)
    (h : ∀ port, FirstFree (usedPorts c.committed.toRows none) env.bindable range.ports port →
      port ∈ c.seen.localPorts) :
    insertAndDeploy range env req c = (.killed, c) ∨
      ∃ e c', insertAndDeploy range env req c = (.raised e, c') ∧
        e.site ≠ .call .grantPermissions := by
  rcases insertAndDeploy_cases range env req c with
    (hend | ⟨s, e, hend, hs⟩) | ⟨row, resolved, hprep, hrun⟩
  · exact Or.inl hend
  · exact Or.inr ⟨_, c, hend, by simpa using hs⟩
  · obtain ⟨e, c', hrows⟩ := insertRows_of_portTaken env req.manifest resolved
      (h row.localPort hprep.localPort)
    rw [hrun]
    exact Or.inr ⟨_, c', Proc.bind_of_raised hrows, by simp⟩

/-- What follows the rows leaves the connection alone. -/
theorem grants_apply (row : AppRow) (c : Conn Tables) :
    ((do env.call .grantPermissions
         return row.appId : Session Raised Tables String) c).2 = c := by
  rcases call_cases env .grantPermissions c with hcall | ⟨e, -, hcall⟩
  · rw [Proc.bind_of_ok hcall]
    rfl
  · rw [Proc.bind_of_raised hcall]

/-- An install that raises before its commit has published nothing. -/
theorem committed_of_insertAndDeploy_raised {e : Raised}
    (h : insertAndDeploy range env req c = (.raised e, c'))
    (hsite : e.site ≠ .call .grantPermissions) : c'.committed = c.committed := by
  rcases insertAndDeploy_cases range env req c with
    (hend | ⟨s, e', hend, -⟩) | ⟨row, resolved, -, hrun⟩
  · rw [hend] at h
    cases (Prod.mk.inj h).1
  · rw [hend] at h
    rw [← (Prod.mk.inj h).2]
  · rw [hrun] at h
    rcases Proc.bind_raised_iff.mp h with h | ⟨_, c₁, -, hrest⟩
    · exact committed_of_insertRows_raised h
    · rcases call_cases env .grantPermissions c₁ with hcall | ⟨e', -, hcall⟩
      · rw [Proc.bind_of_ok hcall] at hrest
        cases (Prod.mk.inj hrest).1
      · rw [Proc.bind_of_raised hcall] at hrest
        obtain rfl := Outcome.raised.inj (Prod.mk.inj hrest).1
        exact absurd rfl hsite

/-- An install publishes nothing, or all that its connection sees. -/
theorem insertAndDeploy_publishes (range : PortRange) (env : Env) (req : Request)
    (c : Conn Tables) :
    (insertAndDeploy range env req c).2.committed = c.committed ∨
      (insertAndDeploy range env req c).2.seen = (insertAndDeploy range env req c).2.committed := by
  rcases insertAndDeploy_cases range env req c with
    (hend | ⟨s, e', hend, -⟩) | ⟨row, resolved, -, hrun⟩
  · exact Or.inl (by rw [hend])
  · exact Or.inl (by rw [hend])
  · rw [hrun]
    apply Proc.bind_post (Q := fun c' : Conn Tables =>
      c'.committed = c.committed ∨ c'.seen = c'.committed)
    · intro _ c₁ hrows
      rw [grants_apply]
      obtain ⟨_, c₂, -, hcommit⟩ := Proc.bind_ok_iff.mp hrows
      obtain ⟨-, rfl⟩ := Session.commit_ok_iff.mp hcommit
      exact Or.inr rfl
    · intro e c₁ hrows
      exact Or.inl (committed_of_insertRows_raised hrows)
    · intro c₁ hrows
      rcases Proc.bind_killed_iff.mp hrows with hrows | ⟨_, c₂, -, hcommit⟩
      · exact Or.inl ((same_writeRows req.manifest).of_eq hrows)
      · -- a statement of the database returns or raises
        cases hr : env.refusal .commitInstall with
        | none => simp [Env.commit, Session.commit, hr] at hcommit
        | some r => simp [Env.commit, Session.commit, hr] at hcommit

/-- Whatever an install does, it adds only rows of the app it has prepared. -/
theorem insertAndDeploy_adds (range : PortRange) (env : Env) (req : Request) (c : Conn Tables) :
    (insertAndDeploy range env req c).2 = c ∨
      ∃ row resolved, Prepared range env req c row resolved ∧
        (insertAndDeploy range env req c).2.All fun t =>
          Adds row resolved c.committed t ∨ Adds row resolved c.seen t := by
  rcases insertAndDeploy_cases range env req c with
    (hend | ⟨s, e', hend, -⟩) | ⟨row, resolved, hprep, hrun⟩
  · exact Or.inl (by rw [hend])
  · exact Or.inl (by rw [hend])
  · refine Or.inr ⟨row, resolved, hprep, ?_⟩
    rw [hrun]
    have hrows := adds_insertRows env req.manifest row resolved c
    apply Proc.bind_post
    · intro _ c₁ hc
      rw [grants_apply]
      rw [hc] at hrows
      exact hrows
    · intro _ c₁ hc
      rw [hc] at hrows
      exact hrows
    · intro c₁ hc
      rw [hc] at hrows
      exact hrows

/-- After an install the connection still sees what is committed. -/
theorem kept_insertAndDeploy (range : PortRange) (env : Env) (req : Request) {c : Conn Tables}
    (hkept : ∀ a ∈ c.committed.apps, a ∈ c.seen.apps) :
    ∀ a ∈ (insertAndDeploy range env req c).2.committed.apps,
      a ∈ (insertAndDeploy range env req c).2.seen.apps := by
  intro a ha
  rcases insertAndDeploy_publishes range env req c with hsame | hall
  · rcases insertAndDeploy_adds range env req c with hend | ⟨row, resolved, -, -, hadds⟩
    · rw [hend] at ha ⊢
      exact hkept a ha
    · rw [hsame] at ha
      rcases hadds with hadds | hadds
      · exact hadds.kept a ha
      · exact hadds.kept a (hkept a ha)
  · rw [hall]
    exact ha

end OpenHost.Install

import OpenHost.Domains.State
import OpenHost.Install.DefaultAppRetries
import OpenHost.Install.DefaultApps

/-!
# The connection on which default apps are installed

`/setup` installs the default apps on a connection of `get_db`, whose rows can be indexed by name.
`retry_pending_default_apps` opens one of its own, whose rows are tuples.  The two agree as long as no
install reads a row by name.

## Reasoning

* `resolvePortMappingsOn_tuple`: on a row that is read by name the ports are given up.
* `installOneOn_eq_of_not_reads`, `installOneOn_tuple_of_reads`: one install on either connection.
* `deployOn_tuple_eq_iff`: when all of them come to the same.
-/

namespace OpenHost.Install

open Domains (DomainRecord Domain)

/-! ## Rows -/

/-- What a connection makes of a row: `get_db` sets `sqlite3.Row`, and a tuple is the default. -/
inductive RowFactory where
  | row
  | tuple
  deriving DecidableEq, Repr

/-- The `TypeError` for a tuple that is indexed by a name. -/
def nameIndex : PyError := .other "tuple indices must be integers or slices, not str"

/-- `row[name]`, where the column holds the value. -/
def RowFactory.get {α : Type} (f : RowFactory) (value : α) : Except PyError α :=
  match f with
  | .row => .ok value
  | .tuple => .error nameIndex

/-- The rows of other tables that an install reads. -/
structure OtherRows where
  domains : List DomainRecord
  /-- The owner comes first. -/
  usernames : List String

/-! ## Ports -/

/-- `check_port_available` without an excluded app. -/
def checkPortAvailableOn (f : RowFactory) (port : Int) (t : Rows) (bindable : Int → Bool) :
    Except PyError (Option UsedBy) :=
  match t.apps.find? (·.localPort = port) with
  | some row => do
      let _ ← f.get row.appId
      let name ← f.get row.name
      return some (.mainPort name)
  | none =>
      match mappingUser t none port with
      | some usedBy => do
          let usedBy ← f.get usedBy
          return some usedBy
      | none => do
          if ← portIsBindable bindable port then return none
          return some .hostService

/-- `_find_free_host_port` without an excluded app. -/
def findFreeHostPortOn (f : RowFactory) (range : PortRange) (t : Rows) (claimed : List Int)
    (host : Host) : Except PyError Int := do
  let localPorts ← t.apps.mapM fun a => f.get a.localPort
  let hostPorts ← t.portMappings.mapM fun m => f.get m.hostPort
  match ← firstFree (localPorts ++ hostPorts ++ claimed) host.bindable (host.shuffle range.ports) with
  | some port => return port
  | none => throw (.runtimeError (noFreePorts range ++ " for auto-assignment"))

/-- One turn of the first pass of `resolve_port_mappings`. -/
def resolveFixedOn (f : RowFactory) (t : Rows) (host : List Int → String → Host) (b : Batch)
    (pm : PortMapping) : Except PyError Batch :=
  if pm.hostPort = 0 then .ok b
  else do
    match ← checkPortAvailableOn f pm.hostPort t (host b.1 pm.label).bindable with
    | some usedBy =>
        throw (.runtimeError ("Port " ++ toString pm.hostPort ++ " for '" ++ pm.label ++
          "' is already in use by " ++ usedBy.format))
    | none =>
        if pm.hostPort ∈ b.1 then
          throw (.runtimeError ("Port " ++ toString pm.hostPort ++
            " requested by multiple mappings in this deploy"))
        return (b.1 ++ [pm.hostPort], b.2 ++ [pm])

/-- One turn of the second pass. -/
def resolveAutoOn (f : RowFactory) (range : PortRange) (t : Rows) (host : List Int → String → Host)
    (b : Batch) (pm : PortMapping) : Except PyError Batch :=
  if pm.hostPort = 0 then do
    let assigned ← findFreeHostPortOn f range t b.1 (host b.1 pm.label)
    return (b.1 ++ [assigned], b.2 ++ [{ pm with hostPort := assigned }])
  else .ok b

/-- `resolve_port_mappings` without an excluded app. -/
def resolvePortMappingsOn (f : RowFactory) (mappings : List PortMapping) (t : Rows) (range : PortRange)
    (host : List Int → String → Host) : Except PyError (List PortMapping) := do
  let fixed ← mappings.foldlM (resolveFixedOn f t host) ([], [])
  let all ← mappings.foldlM (resolveAutoOn f range t host) fixed
  return all.2

/-! ## One install -/

/-- `primary_domain` -/
def primaryDomainOn (f : RowFactory) (domains : List DomainRecord) : Except PyError Domain :=
  match domains.find? (·.isPrimary) with
  | none => .error (.runtimeError
      "No primary domain in the DB `domains` table — seed_first_boot must run first.")
  | some record => do
      let record ← f.get record
      return record.toDomain

/-- `read_owner_username` -/
def readOwnerUsernameOn (f : RowFactory) (usernames : List String) : Except PyError (Option String) :=
  match usernames.head? with
  | none => .ok none
  | some username => do
      let username ← f.get username
      return if username = "" then none else some username

/-- The part of `insert_and_deploy` from the data directories on. -/
def insertPrepared (env : Env) (req : Request) (localPort : Int) (appId : String)
    (resolved : List PortMapping) : Session Raised Tables String := do
  env.call .makeDataDirs
  env.call .columnValues
  insertRows env req.manifest (req.row appId localPort) resolved
  env.call .grantPermissions
  return appId

/-- The part of `insert_and_deploy` from the port mappings on. -/
def insertResolved (f : RowFactory) (other : OtherRows) (range : PortRange) (env : Env) (req : Request)
    (localPort : Int) (appId : String) : Session Raised Tables String := do
  let t ← Session.select
  let resolved ← env.compute .resolvePorts
    (resolvePortMappingsOn f req.mappings t.toRows range fun _ => env.host)
  -- two of the arguments of `make_data_dirs_and_env_vars`
  let _ ← Proc.ofExcept ((primaryDomainOn f other.domains).mapError fun e => ⟨.call .makeDataDirs, e⟩)
  let _ ← Proc.ofExcept
    ((readOwnerUsernameOn f other.usernames).mapError fun e => ⟨.call .makeDataDirs, e⟩)
  insertPrepared env req localPort appId resolved

/-- `insert_and_deploy`, up to the start of the deploy thread, on a connection of the kind. -/
def insertAndDeployOn (f : RowFactory) (other : OtherRows) (range : PortRange) (env : Env)
    (req : Request) : Session Raised Tables String := do
  env.call .checkStorage
  -- a connection of `get_db`
  let committed ← Proc.reads Conn.committed
  let localPort ← env.compute .allocatePort (allocatePort committed.toRows env.bindable range)
  let appId ← mintUniqueAppId env
  insertResolved f other range env req localPort appId

/-- The part of `_finalize_install` after its checks. -/
def installValidatedOn (f : RowFactory) (other : OtherRows) (range : PortRange) (a : Attempt)
    (manifest : AppManifest) : Session Raised Tables InstallStatus := do
  a.env.call .moveClone
  Proc.tryExcept (do let _ ← insertAndDeployOn f other range a.env (a.request manifest)
                     return .ok)
    (fun _ => true) fun e => return .failed (.insertAndDeploy e)

/-- `_finalize_install`.  `validate_manifest` finds no row to index: the name has just been looked
for. -/
def finalizeInstallOn (f : RowFactory) (other : OtherRows) (range : PortRange) (a : Attempt)
    (manifest : AppManifest) : Session Raised Tables InstallStatus := do
  let t ← Session.select
  if t.hasName manifest.name then return .skipped
  match validateManifest manifest.name t.toRows with
  | some error => return .failed (.validation error)
  | none => installValidatedOn f other range a manifest

/-- `_install_one`, inside the `try` of `deploy_default_apps`. -/
def installOneOn (f : RowFactory) (other : OtherRows) (range : PortRange) (a : Attempt) :
    Session Raised Tables InstallStatus :=
  match a.fetched with
  | .error message => pure (.failed (.fetch message))
  | .ok manifest =>
      Proc.tryExcept (finalizeInstallOn f other range a manifest) (fun _ => true) fun e =>
        return .failed (.unexpected e)

/-! ## All of them -/

/-- `status` and `error` -/
def InstallStatus.recorded : InstallStatus → RecordStatus × Option String
  | .ok => (.ok, none)
  | .skipped => (.skipped, none)
  | .failed why => (.failed, some why.text)

/-- An attempt is due: the record of the spec is not terminal. -/
def Deploy.isDue (d : Deploy) (spec : String) : Bool :=
  match d.sentinel spec with
  | none => true
  | some r => r.status = .failed && r.attempts < maxRetryAttempts

/-- The variables of `deploy_default_apps` and its connection. -/
structure DeployRun where
  deploy : Deploy
  conn : Conn Tables
  /-- `_mint_unique_app_id` does not come to an end. -/
  stuck : Bool := false

/-- One spec; the attempts answer for the first one that is due, the second and so on. -/
def DeployRun.spec (f : RowFactory) (other : OtherRows) (range : PortRange) (attempts : ℕ → Attempt)
    (r : DeployRun) (spec : String) : DeployRun :=
  if r.stuck then r
  else if r.deploy.isDue spec then
    match installOneOn f other range (attempts r.deploy.attempted.length) r.conn with
    | (.ok status, conn) => { r with deploy := r.deploy.spec (fun _ => status.recorded) spec, conn := conn }
    | (_, conn) => { r with conn := conn, stuck := true }
  else { r with deploy := r.deploy.spec (fun _ => (.ok, none)) spec }

/-- `deploy_default_apps` on a connection of the kind, up to the writing of the sentinel. -/
def deployOn (f : RowFactory) (other : OtherRows) (range : PortRange) (attempts : ℕ → Attempt)
    (sentinel : Sentinel) (t : Tables) (specs : List String) : DeployRun :=
  specs.foldl (DeployRun.spec f other range attempts) ⟨startDeploy sentinel, Conn.fresh t, false⟩

/-! ## Rows that are read by name -/

/-- A loop over the mappings comes to one for which there is a row, before it fails for another reason. -/
def comesToRow (found : PortMapping → Bool) (turn : Batch → PortMapping → Except PyError Batch) :
    Batch → List PortMapping → Bool
  | _, [] => false
  | b, pm :: pms =>
      found pm ||
        match turn b pm with
        | .ok b' => comesToRow found turn b' pms
        | .error _ => false

/-- A row has the port that the mapping asks for. -/
def fixedRow (t : Rows) (pm : PortMapping) : Bool :=
  pm.hostPort ≠ 0 &&
    ((t.apps.find? (·.localPort = pm.hostPort)).isSome || (mappingUser t none pm.hostPort).isSome)

/-- The mapping takes any port, and there are rows with ports. -/
def autoRow (t : Rows) (pm : PortMapping) : Bool :=
  pm.hostPort = 0 && (!t.apps.isEmpty || !t.portMappings.isEmpty)

/-- `resolve_port_mappings` comes to a row that it reads. -/
def readsPortRow (mappings : List PortMapping) (t : Rows) (range : PortRange)
    (host : List Int → String → Host) : Bool :=
  comesToRow (fixedRow t) (resolveFixed t none host) ([], []) mappings ||
    match mappings.foldlM (resolveFixed t none host) ([], []) with
    | .ok fixed => comesToRow (autoRow t) (resolveAuto range t none host) fixed mappings
    | .error _ => false

section Ports

variable {t : Rows} {range : PortRange} {host : List Int → String → Host} {b : Batch} {pm : PortMapping}

theorem checkPortAvailableOn_row (port : Int) (t : Rows) (bindable : Int → Bool) :
    checkPortAvailableOn .row port t bindable = checkPortAvailable port t none bindable := by
  unfold checkPortAvailableOn checkPortAvailable mainPortUser
  cases t.apps.find? (·.localPort = port) with
  | some row => rfl
  | none =>
    cases mappingUser t none port with
    | some usedBy => rfl
    | none => rfl

theorem checkPortAvailableOn_tuple (port : Int) (t : Rows) (bindable : Int → Bool) :
    checkPortAvailableOn .tuple port t bindable =
      if (t.apps.find? (·.localPort = port)).isSome || (mappingUser t none port).isSome then
        .error nameIndex
      else checkPortAvailable port t none bindable := by
  rw [← checkPortAvailableOn_row]
  unfold checkPortAvailableOn
  cases t.apps.find? (·.localPort = port) with
  | some row => rfl
  | none =>
    cases mappingUser t none port with
    | some usedBy => rfl
    | none => rfl

theorem mapM_get_row {α β : Type} (xs : List α) (g : α → β) :
    (xs.mapM fun x => RowFactory.row.get (g x)) = .ok (xs.map g) := by
  induction xs with
  | nil => rfl
  | cons x xs ih =>
    rw [List.mapM_cons, ih]
    rfl

theorem mapM_get_tuple {α β : Type} (xs : List α) (g : α → β) :
    (xs.mapM fun x => RowFactory.tuple.get (g x)) =
      if xs.isEmpty then .ok [] else .error nameIndex := by
  cases xs with
  | nil => rfl
  | cons x xs =>
    rw [List.mapM_cons]
    rfl

theorem findFreeHostPortOn_row (claimed : List Int) (host : Host) :
    findFreeHostPortOn .row range t claimed host = findFreeHostPort range t claimed none host := by
  have hports : usedPorts t none = t.apps.map AppRow.localPort ++ t.portMappings.map PortMappingRow.hostPort := by
    have hall : t.portMappings.filter (isOther none) = t.portMappings := List.filter_eq_self.mpr fun _ _ => rfl
    rw [usedPorts, hall]
    rfl
  unfold findFreeHostPortOn findFreeHostPort
  rw [mapM_get_row, mapM_get_row, hports]
  rfl

theorem findFreeHostPortOn_tuple (claimed : List Int) (host : Host) :
    findFreeHostPortOn .tuple range t claimed host =
      if !t.apps.isEmpty || !t.portMappings.isEmpty then .error nameIndex
      else findFreeHostPort range t claimed none host := by
  rw [← findFreeHostPortOn_row]
  unfold findFreeHostPortOn
  rw [mapM_get_tuple, mapM_get_tuple, mapM_get_row, mapM_get_row]
  cases happs : t.apps with
  | cons a as => rfl
  | nil =>
    cases hmappings : t.portMappings with
    | cons m ms => rfl
    | nil => rfl

theorem resolveFixedOn_row : resolveFixedOn .row t host = resolveFixed t none host := by
  funext b pm
  simp only [resolveFixedOn, checkPortAvailableOn_row]
  rfl

theorem resolveFixedOn_tuple (b : Batch) (pm : PortMapping) :
    resolveFixedOn .tuple t host b pm =
      if fixedRow t pm then .error nameIndex else resolveFixed t none host b pm := by
  unfold resolveFixedOn resolveFixed fixedRow
  by_cases hzero : pm.hostPort = 0
  · simp [hzero]
  · rw [if_neg hzero, if_neg hzero, checkPortAvailableOn_tuple]
    simp only [hzero, ne_eq, not_false_eq_true, decide_true, Bool.true_and]
    split
    · rfl
    · rfl

theorem resolveAutoOn_row : resolveAutoOn .row range t host = resolveAuto range t none host := by
  funext b pm
  simp only [resolveAutoOn, resolveAuto, findFreeHostPortOn_row]

theorem resolveAutoOn_tuple (b : Batch) (pm : PortMapping) :
    resolveAutoOn .tuple range t host b pm =
      if autoRow t pm then .error nameIndex else resolveAuto range t none host b pm := by
  unfold resolveAutoOn resolveAuto autoRow
  by_cases hzero : pm.hostPort = 0
  · rw [if_pos hzero, if_pos hzero, findFreeHostPortOn_tuple]
    simp only [hzero, decide_true, Bool.true_and]
    split
    · rfl
    · rfl
  · simp [hzero]

/-- A loop whose turns give up at a row. -/
theorem foldlM_of_found {found : PortMapping → Bool} {turn turn' : Batch → PortMapping → Except PyError Batch}
    (h : ∀ b pm, turn' b pm = if found pm then .error nameIndex else turn b pm) (b : Batch)
    (pms : List PortMapping) :
    pms.foldlM turn' b = if comesToRow found turn b pms then .error nameIndex else pms.foldlM turn b := by
  induction pms generalizing b with
  | nil => rfl
  | cons pm pms ih =>
    rw [List.foldlM_cons, List.foldlM_cons, h, comesToRow]
    cases hfound : found pm with
    | true => rfl
    | false =>
      cases hturn : turn b pm with
      | error e => rfl
      | ok b' => exact ih b'

theorem resolvePortMappingsOn_row (mappings : List PortMapping) :
    resolvePortMappingsOn .row mappings t range host = resolvePortMappings mappings t range none host := by
  simp only [resolvePortMappingsOn, resolvePortMappings, resolveFixedOn_row, resolveAutoOn_row]

/-- On tuples the ports are given up at the first row that is read. -/
theorem resolvePortMappingsOn_tuple (mappings : List PortMapping) :
    resolvePortMappingsOn .tuple mappings t range host =
      if readsPortRow mappings t range host then .error nameIndex
      else resolvePortMappings mappings t range none host := by
  unfold resolvePortMappingsOn resolvePortMappings readsPortRow
  rw [foldlM_of_found resolveFixedOn_tuple]
  cases hfirst : comesToRow (fixedRow t) (resolveFixed t none host) ([], []) mappings with
  | true => rfl
  | false =>
    cases hfixed : mappings.foldlM (resolveFixed t none host) ([], []) with
    | error e => rfl
    | ok fixed =>
      simp only [Bool.false_or, Bool.false_eq_true, if_false]
      show (do let all ← mappings.foldlM (resolveAutoOn .tuple range t host) fixed; return all.2) = _
      rw [foldlM_of_found resolveAutoOn_tuple]
      split
      · rfl
      · rfl

end Ports

/-! ## Other exceptions -/

/-- The text is another one than that of the `TypeError` for a tuple. -/
def OtherText (e : PyError) : Prop := e.text ≠ nameIndex.text

/-- Whatever the function raises has another text. -/
def ErrorsOther {α : Type} (r : Except PyError α) : Prop := ∀ e, r = .error e → OtherText e

/-- No exception from elsewhere has the text of that `TypeError`. -/
structure Env.OtherTexts (env : Env) : Prop where
  calls : ∀ s e, env.raises s = some e → OtherText e
  statements : ∀ s r, env.refuses s = some r → r.message ≠ nameIndex.text

theorem errorsOther_ok {α : Type} (a : α) : ErrorsOther (.ok a : Except PyError α) := by
  intro e h
  cases h

theorem errorsOther_error {α : Type} {e : PyError} (h : OtherText e) :
    ErrorsOther (.error e : Except PyError α) := by
  intro e' h'
  cases h'
  exact h

theorem errorsOther_bind {α β : Type} {r : Except PyError α} {g : α → Except PyError β}
    (hr : ErrorsOther r) (hg : ∀ a, ErrorsOther (g a)) : ErrorsOther (r >>= g) := by
  cases r with
  | error e => exact errorsOther_error (hr e rfl)
  | ok a => exact hg a

theorem errorsOther_foldlM {α β : Type} {g : β → α → Except PyError β} (h : ∀ b a, ErrorsOther (g b a))
    (xs : List α) (b : β) : ErrorsOther (xs.foldlM g b) := by
  induction xs generalizing b with
  | nil => exact errorsOther_ok b
  | cons x xs ih =>
    rw [List.foldlM_cons]
    exact errorsOther_bind (h b x) fun b' => ih b'

/-- A text that begins with another character. -/
theorem otherText_of_head {message : String} {c : Char} (h : message.toList.head? = some c) (hc : c ≠ 't') :
    message ≠ nameIndex.text := by
  rintro rfl
  exact hc (Option.some.inj h).symm

theorem otherText_append {start rest : String} {c : Char} {cs : List Char} (h : start.toList = c :: cs)
    (hc : c ≠ 't') : start ++ rest ≠ nameIndex.text := by
  refine otherText_of_head ?_ hc
  rw [String.toList_append, h]
  rfl

theorem errorsOther_portIsBindable (bindable : Int → Bool) (port : Int) :
    ErrorsOther (portIsBindable bindable port) := by
  unfold portIsBindable
  split
  · exact errorsOther_ok _
  · exact errorsOther_error (by simp [OtherText, PyError.text, nameIndex])

theorem errorsOther_firstFree (used : List Int) (bindable : Int → Bool) (ports : List Int) :
    ErrorsOther (firstFree used bindable ports) := by
  induction ports with
  | nil => exact errorsOther_ok none
  | cons port ports ih =>
    rw [firstFree]
    split
    · exact ih
    · apply errorsOther_bind (errorsOther_portIsBindable bindable port)
      intro free
      split
      · exact errorsOther_ok _
      · exact ih

theorem otherText_noFreePorts (range : PortRange) (rest : String) :
    OtherText (.runtimeError (noFreePorts range ++ rest)) := by
  show noFreePorts range ++ rest ≠ nameIndex.text
  unfold noFreePorts
  rw [String.append_assoc, String.append_assoc, String.append_assoc]
  exact otherText_append rfl (by decide)

theorem errorsOther_resolveFixed (t : Rows) (host : List Int → String → Host) (b : Batch)
    (pm : PortMapping) : ErrorsOther (resolveFixed t none host b pm) := by
  unfold resolveFixed
  split
  · exact errorsOther_ok b
  apply errorsOther_bind
  · unfold checkPortAvailable
    split
    · exact errorsOther_ok _
    · exact errorsOther_ok _
    · apply errorsOther_bind (errorsOther_portIsBindable _ _)
      intro free
      split
      · exact errorsOther_ok _
      · exact errorsOther_ok _
  · intro found
    cases found with
    | some usedBy =>
      apply errorsOther_error
      show _ ≠ nameIndex.text
      simp only [PyError.text, String.append_assoc]
      exact otherText_append rfl (by decide)
    | none =>
      dsimp only
      split
      · apply errorsOther_error
        show _ ≠ nameIndex.text
        simp only [PyError.text, String.append_assoc]
        exact otherText_append rfl (by decide)
      · exact errorsOther_ok _

theorem errorsOther_resolveAuto (range : PortRange) (t : Rows) (host : List Int → String → Host)
    (b : Batch) (pm : PortMapping) : ErrorsOther (resolveAuto range t none host b pm) := by
  unfold resolveAuto
  split
  · apply errorsOther_bind
    · apply errorsOther_bind (errorsOther_firstFree _ _ _)
      intro found
      cases found with
      | some port => exact errorsOther_ok port
      | none => exact errorsOther_error (otherText_noFreePorts range _)
    · intro assigned
      exact errorsOther_ok _
  · exact errorsOther_ok b

theorem errorsOther_resolvePortMappings (mappings : List PortMapping) (t : Rows) (range : PortRange)
    (host : List Int → String → Host) :
    ErrorsOther (resolvePortMappings mappings t range none host) := by
  apply errorsOther_bind (errorsOther_foldlM (errorsOther_resolveFixed t host) _ _)
  intro fixed
  apply errorsOther_bind (errorsOther_foldlM (errorsOther_resolveAuto range t host) _ _)
  intro all
  exact errorsOther_ok _

theorem errorsOther_primaryDomainOn (domains : List DomainRecord) :
    ErrorsOther (primaryDomainOn .row domains) := by
  unfold primaryDomainOn
  split
  · apply errorsOther_error
    exact otherText_of_head rfl (by decide)
  · exact errorsOther_ok _

theorem errorsOther_readOwnerUsernameOn (usernames : List String) :
    ErrorsOther (readOwnerUsernameOn .row usernames) := by
  unfold readOwnerUsernameOn
  split
  · exact errorsOther_ok _
  · exact errorsOther_ok _

theorem errorsOther_write (r : Rows) : ErrorsOther (Tables.write r) := by
  intro e h
  rw [Tables.write_error h]
  simp [OtherText, PyError.text, nameIndex]

/-! ### Procedures -/

/-- What an install raises has another text. -/
def RaisesOther {α : Type} (x : Session Raised Tables α) : Prop :=
  Proc.OnlyRaises (fun e : Raised => OtherText e.error) x

section

variable {env : Env}

theorem raisesOther_ofExcept {α : Type} {site : Site} {r : Except PyError α} (h : ErrorsOther r) :
    RaisesOther (Proc.ofExcept (r.mapError fun e => (⟨site, e⟩ : Raised))) := by
  apply Proc.onlyRaises_ofExcept
  intro e he
  obtain ⟨e', he', rfl⟩ := mapError_error_iff.mp he
  exact h e' he'

theorem raisesOther_call (henv : env.OtherTexts) (s : Call) : RaisesOther (env.call s) := by
  unfold Env.call
  cases hraises : env.raises s with
  | none => exact Proc.onlyRaises_pure ()
  | some e => exact Proc.onlyRaises_raise (henv.calls s e hraises)

theorem raisesOther_compute {α : Type} (henv : env.OtherTexts) (s : Call) {r : Except PyError α}
    (h : ErrorsOther r) : RaisesOther (env.compute s r) :=
  Proc.onlyRaises_bind (raisesOther_call henv s) fun _ => raisesOther_ofExcept h

theorem otherText_refusal (henv : env.OtherTexts) {s : Stmt} {r : Refusal Raised}
    (h : env.refusal s = some r) : OtherText r.error.error := by
  obtain ⟨refused, hrefused, rfl⟩ := Option.map_eq_some_iff.mp h
  exact henv.statements s refused hrefused

theorem raisesOther_execute (henv : env.OtherTexts) (s : Stmt) {f : Tables → Except PyError Tables}
    (h : ∀ t, ErrorsOther (f t)) : RaisesOther (env.execute s f) := by
  intro c e c' hrun
  rcases Session.execute_raised hrun with ⟨r, hr, rfl, -⟩ | ⟨-, hf, -⟩
  · exact otherText_refusal henv hr
  · obtain ⟨e', he', rfl⟩ := mapError_error_iff.mp hf
    exact h _ e' he'

theorem raisesOther_commit (henv : env.OtherTexts) (s : Stmt) : RaisesOther (env.commit s) := by
  intro c e c' hrun
  obtain ⟨r, hr, rfl, -⟩ := Session.commit_raised hrun
  exact otherText_refusal henv hr

theorem raisesOther_insertRows (henv : env.OtherTexts) (manifest : AppManifest) (row : AppRow)
    (resolved : List PortMapping) : RaisesOther (insertRows env manifest row resolved) := by
  refine Proc.onlyRaises_bind ?_ fun _ => raisesOther_commit henv _
  unfold writeRows
  refine Proc.onlyRaises_bind (raisesOther_execute henv _ fun t => errorsOther_write _) fun _ => ?_
  refine Proc.onlyRaises_bind (Proc.onlyRaises_forEach fun pm =>
    raisesOther_execute henv _ fun t => errorsOther_write _) fun _ => ?_
  refine Proc.onlyRaises_bind (Proc.onlyRaises_forEach fun dbName =>
    raisesOther_execute henv _ fun t => errorsOther_write _) fun _ => ?_
  refine Proc.onlyRaises_bind (raisesOther_execute henv _ fun t => errorsOther_write _) fun _ => ?_
  exact raisesOther_execute henv _ fun t => errorsOther_write _

/-- Rows that can be indexed by name are no cause of that exception. -/
theorem raisesOther_insertResolved (henv : env.OtherTexts) (other : OtherRows) (range : PortRange)
    (req : Request) (localPort : Int) (appId : String) :
    RaisesOther (insertResolved .row other range env req localPort appId) := by
  unfold insertResolved
  refine Proc.onlyRaises_bind (Proc.onlyRaises_reads _) fun t => ?_
  refine Proc.onlyRaises_bind (raisesOther_compute henv _ ?_) fun resolved => ?_
  · rw [resolvePortMappingsOn_row]
    exact errorsOther_resolvePortMappings _ _ _ _
  refine Proc.onlyRaises_bind (raisesOther_ofExcept (errorsOther_primaryDomainOn _)) fun _ => ?_
  refine Proc.onlyRaises_bind (raisesOther_ofExcept (errorsOther_readOwnerUsernameOn _)) fun _ => ?_
  unfold insertPrepared
  refine Proc.onlyRaises_bind (raisesOther_call henv _) fun _ => ?_
  refine Proc.onlyRaises_bind (raisesOther_call henv _) fun _ => ?_
  refine Proc.onlyRaises_bind (raisesOther_insertRows henv _ _ _) fun _ => ?_
  exact Proc.onlyRaises_bind (raisesOther_call henv _) fun _ => Proc.onlyRaises_pure _

end

/-! ## One install on either connection -/

/-- `insert_and_deploy` gets to the port mappings. -/
structure Starts (range : PortRange) (env : Env) (c : Conn Tables) (localPort : Int) (appId : String) :
    Prop where
  storage : env.raises .checkStorage = none
  allocates : env.raises .allocatePort = none
  localPort : allocatePort c.committed.toRows env.bindable range = .ok localPort
  drawn : env.draws.find? (· ∉ c.seen.appIds) = some appId

/-- From the port mappings on a row is read by name: one with a port, or the primary domain's. -/
structure ReadsRow (other : OtherRows) (range : PortRange) (env : Env) (req : Request) (t : Rows) :
    Prop where
  resolves : env.raises .resolvePorts = none
  row : readsPortRow req.mappings t range (fun _ => env.host) = true ∨
    (∃ resolved, resolvePortMappings req.mappings t range none (fun _ => env.host) = .ok resolved) ∧
      ∃ r ∈ other.domains, r.isPrimary = true

section

variable {other : OtherRows} {range : PortRange} {env : Env} {req : Request} {c : Conn Tables}
  {localPort : Int} {appId : String}

theorem call_of_none {s : Call} (h : env.raises s = none) : env.call s = pure () := by
  rw [Env.call, h]

theorem compute_of_none {α : Type} {s : Call} {r : Except PyError α} (h : env.raises s = none) :
    env.compute s r = Proc.ofExcept (r.mapError fun e => ⟨.call s, e⟩) := by
  rw [Env.compute, call_of_none h]
  rfl

/-- Before the port mappings the connection makes no difference. -/
theorem insertAndDeployOn_cases (other : OtherRows) (range : PortRange) (env : Env) (req : Request)
    (c : Conn Tables) :
    (∃ outcome, (∀ f, insertAndDeployOn f other range env req c = (outcome, c)) ∧
        ∀ localPort appId, ¬ Starts range env c localPort appId) ∨
      ∃ localPort appId, Starts range env c localPort appId ∧
        ∀ f, insertAndDeployOn f other range env req c =
          insertResolved f other range env req localPort appId c := by
  cases hstorage : env.raises .checkStorage with
  | some e =>
    refine .inl ⟨.raised ⟨.call .checkStorage, e⟩, fun f => ?_, fun _ _ h => ?_⟩
    · exact Proc.bind_of_raised (by rw [Env.call, hstorage]; rfl)
    · cases hstorage.symm.trans h.storage
  | none =>
    have hfirst : ∀ f, insertAndDeployOn f other range env req c =
        (do let localPort ← env.compute .allocatePort (allocatePort c.committed.toRows env.bindable range)
            let appId ← mintUniqueAppId env
            insertResolved f other range env req localPort appId : Session Raised Tables String) c := by
      intro f
      rw [insertAndDeployOn, call_of_none hstorage]
      rfl
    cases hallocates : env.raises .allocatePort with
    | some e =>
      refine .inl ⟨.raised ⟨.call .allocatePort, e⟩, fun f => ?_, fun _ _ h => ?_⟩
      · rw [hfirst]
        exact Proc.bind_of_raised (by rw [Env.compute, Env.call, hallocates]; rfl)
      · cases hallocates.symm.trans h.allocates
    | none =>
      cases hport : allocatePort c.committed.toRows env.bindable range with
      | error e =>
        refine .inl ⟨.raised ⟨.call .allocatePort, e⟩, fun f => ?_, fun _ _ h => ?_⟩
        · rw [hfirst, hport, compute_of_none hallocates]
          rfl
        · cases hport.symm.trans h.localPort
      | ok localPort =>
        have hsecond : ∀ f, insertAndDeployOn f other range env req c =
            (do let appId ← mintUniqueAppId env
                insertResolved f other range env req localPort appId : Session Raised Tables String) c := by
          intro f
          rw [hfirst, hport, compute_of_none hallocates]
          rfl
        cases hdrawn : env.draws.find? (· ∉ c.seen.appIds) with
        | none =>
          refine .inl ⟨.killed, fun f => ?_, fun _ _ h => ?_⟩
          · rw [hsecond]
            apply Proc.bind_of_killed
            rw [mintUniqueAppId, Proc.bind_of_ok (Session.select_apply c), hdrawn]
            rfl
          · cases hdrawn.symm.trans h.drawn
        | some appId =>
          refine .inr ⟨localPort, appId, ⟨hstorage, hallocates, hport, hdrawn⟩, fun f => ?_⟩
          rw [hsecond]
          apply Proc.bind_of_ok
          rw [mintUniqueAppId, Proc.bind_of_ok (Session.select_apply c), hdrawn]
          rfl

/-- A row that is read by name ends the install on tuples. -/
theorem insertResolved_tuple_of_reads (h : ReadsRow other range env req c.seen.toRows) (localPort : Int)
    (appId : String) :
    ∃ site, insertResolved .tuple other range env req localPort appId c = (.raised ⟨site, nameIndex⟩, c) := by
  unfold insertResolved
  rw [Proc.bind_of_ok (Session.select_apply c), resolvePortMappingsOn_tuple, compute_of_none h.resolves]
  cases hport : readsPortRow req.mappings c.seen.toRows range (fun _ => env.host) with
  | true => exact ⟨.call .resolvePorts, rfl⟩
  | false =>
    obtain hrow | ⟨⟨resolved, hresolved⟩, r, hr, hprimary⟩ := h.row
    · cases hport.symm.trans hrow
    · obtain ⟨record, hrecord⟩ : ∃ record, other.domains.find? (·.isPrimary) = some record := by
        rw [← Option.isSome_iff_exists, List.find?_isSome]
        exact ⟨r, hr, hprimary⟩
      rw [hresolved, primaryDomainOn, hrecord]
      exact ⟨.call .makeDataDirs, rfl⟩

/-- While no row is read by name, the connections are alike. -/
theorem insertResolved_eq_of_not_reads (h : ¬ ReadsRow other range env req c.seen.toRows) (localPort : Int)
    (appId : String) :
    ∃ outcome, ∀ f, insertResolved f other range env req localPort appId c = (outcome, c) := by
  have hstart : ∀ f, insertResolved f other range env req localPort appId c =
      (do let resolved ← env.compute .resolvePorts
            (resolvePortMappingsOn f req.mappings c.seen.toRows range fun _ => env.host)
          let _ ← Proc.ofExcept
            ((primaryDomainOn f other.domains).mapError fun e => ⟨.call .makeDataDirs, e⟩)
          let _ ← Proc.ofExcept
            ((readOwnerUsernameOn f other.usernames).mapError fun e => ⟨.call .makeDataDirs, e⟩)
          insertPrepared env req localPort appId resolved : Session Raised Tables String) c :=
    fun f => Proc.bind_of_ok (Session.select_apply c)
  cases hresolves : env.raises .resolvePorts with
  | some e =>
    refine ⟨.raised ⟨.call .resolvePorts, e⟩, fun f => ?_⟩
    rw [hstart]
    exact Proc.bind_of_raised (by rw [Env.compute, Env.call, hresolves]; rfl)
  | none =>
    have hnone : readsPortRow req.mappings c.seen.toRows range (fun _ => env.host) = false := by
      rw [Bool.eq_false_iff]
      exact fun hrow => h ⟨hresolves, .inl hrow⟩
    have hsame : ∀ f, resolvePortMappingsOn f req.mappings c.seen.toRows range (fun _ => env.host) =
        resolvePortMappings req.mappings c.seen.toRows range none (fun _ => env.host) := by
      intro f
      cases f with
      | row => exact resolvePortMappingsOn_row _
      | tuple => rw [resolvePortMappingsOn_tuple, if_neg (by simp [hnone])]
    cases hresolved : resolvePortMappings req.mappings c.seen.toRows range none (fun _ => env.host) with
    | error e =>
      refine ⟨.raised ⟨.call .resolvePorts, e⟩, fun f => ?_⟩
      rw [hstart, hsame, hresolved, compute_of_none hresolves]
      rfl
    | ok resolved =>
      have hprimary : other.domains.find? (·.isPrimary) = none := by
        rw [List.find?_eq_none]
        exact fun r hr hp => h ⟨hresolves, .inr ⟨⟨resolved, hresolved⟩, r, hr, by simpa using hp⟩⟩
      refine ⟨.raised ⟨.call .makeDataDirs, .runtimeError
        "No primary domain in the DB `domains` table — seed_first_boot must run first."⟩, fun f => ?_⟩
      rw [hstart, hsame, hresolved, compute_of_none hresolves, primaryDomainOn, hprimary]
      rfl

end

/-- The attempt gets as far as a row that is read by name. -/
def ReadsByName (other : OtherRows) (range : PortRange) (a : Attempt) (c : Conn Tables) : Prop :=
  ∃ manifest localPort appId, a.fetched = .ok manifest ∧
    validateManifest manifest.name c.seen.toRows = none ∧ a.env.raises .moveClone = none ∧
    Starts range a.env c localPort appId ∧ ReadsRow other range a.env (a.request manifest) c.seen.toRows

/-- `status` and `error` of an install that has come to such a row on tuples. -/
def givenUp : RecordStatus × Option String := (.failed, some ("insert_and_deploy: " ++ nameIndex.text))

section

variable {other : OtherRows} {range : PortRange} {a : Attempt} {manifest : AppManifest} {c c' : Conn Tables}

theorem hasName_of_validated {t : Rows} {name : String} (h : validateManifest name t = none) :
    t.hasName name = false := by
  cases hname : t.hasName name with
  | false => rfl
  | true =>
    exfalso
    unfold validateManifest at h
    split at h
    · cases h
    split at h
    · cases h
    · cases h

/-- A manifest that passes the checks is moved and inserted. -/
theorem installOneOn_of_validated (hfetched : a.fetched = .ok manifest)
    (hvalid : validateManifest manifest.name c.seen.toRows = none) (hmoved : a.env.raises .moveClone = none)
    (f : RowFactory) :
    installOneOn f other range a c =
      Proc.tryExcept (Proc.tryExcept
          (do let _ ← insertAndDeployOn f other range a.env (a.request manifest)
              return InstallStatus.ok)
          (fun _ => true) fun e => return .failed (.insertAndDeploy e))
        (fun _ => true) (fun e => return .failed (.unexpected e)) c := by
  have hfinalize : finalizeInstallOn f other range a manifest c = Proc.tryExcept
      (do let _ ← insertAndDeployOn f other range a.env (a.request manifest)
          return InstallStatus.ok)
      (fun _ => true) (fun e => return .failed (.insertAndDeploy e)) c := by
    unfold finalizeInstallOn
    rw [Proc.bind_of_ok (Session.select_apply c), hasName_of_validated hvalid, hvalid]
    simp only [Bool.false_eq_true, if_false, installValidatedOn, call_of_none hmoved]
    rfl
  unfold installOneOn
  rw [hfetched]
  simp only [Proc.tryExcept, hfinalize]

/-- Without such a row an attempt ends alike, and writes nothing. -/
theorem installOneOn_eq_of_not_reads (h : ¬ ReadsByName other range a c) :
    ∃ outcome, ∀ f, installOneOn f other range a c = (outcome, c) := by
  cases hfetched : a.fetched with
  | error message =>
    refine ⟨.ok (.failed (.fetch message)), fun f => ?_⟩
    rw [installOneOn, hfetched]
    rfl
  | ok manifest =>
    cases hname : c.seen.hasName manifest.name with
    | true =>
      refine ⟨.ok .skipped, fun f => ?_⟩
      unfold installOneOn finalizeInstallOn
      simp [hfetched, Proc.tryExcept, Proc.bind_of_ok (Session.select_apply c), hname]
    | false =>
      cases hvalid : validateManifest manifest.name c.seen.toRows with
      | some error =>
        refine ⟨.ok (.failed (.validation error)), fun f => ?_⟩
        unfold installOneOn finalizeInstallOn
        simp [hfetched, Proc.tryExcept, Proc.bind_of_ok (Session.select_apply c), hname, hvalid]
      | none =>
        cases hmoved : a.env.raises .moveClone with
        | some e =>
          refine ⟨.ok (.failed (.unexpected ⟨.call .moveClone, e⟩)), fun f => ?_⟩
          have hcall : a.env.call .moveClone c = (.raised ⟨.call .moveClone, e⟩, c) := by
            rw [Env.call, hmoved]
            rfl
          unfold installOneOn finalizeInstallOn installValidatedOn
          simp [hfetched, Proc.tryExcept, Proc.bind_of_ok (Session.select_apply c), hname, hvalid,
            Proc.bind_of_raised hcall]
        | none =>
          obtain ⟨outcome, hinsert⟩ : ∃ outcome, ∀ f,
              insertAndDeployOn f other range a.env (a.request manifest) c = (outcome, c) := by
            rcases insertAndDeployOn_cases other range a.env (a.request manifest) c with
              ⟨outcome, hsame, -⟩ | ⟨localPort, appId, hstarts, hrest⟩
            · exact ⟨outcome, hsame⟩
            · have hnot : ¬ ReadsRow other range a.env (a.request manifest) c.seen.toRows := fun hreads =>
                h ⟨manifest, localPort, appId, hfetched, hvalid, hmoved, hstarts, hreads⟩
              obtain ⟨outcome, hsame⟩ := insertResolved_eq_of_not_reads hnot localPort appId
              exact ⟨outcome, fun f => by rw [hrest, hsame]⟩
          cases outcome with
          | ok appId =>
            refine ⟨.ok .ok, fun f => ?_⟩
            rw [installOneOn_of_validated hfetched hvalid hmoved]
            simp only [Proc.tryExcept, Proc.bind_of_ok (hinsert f)]
            rfl
          | raised e =>
            refine ⟨.ok (.failed (.insertAndDeploy e)), fun f => ?_⟩
            rw [installOneOn_of_validated hfetched hvalid hmoved]
            simp only [Proc.tryExcept, Proc.bind_of_raised (hinsert f)]
            rfl
          | killed =>
            refine ⟨.killed, fun f => ?_⟩
            rw [installOneOn_of_validated hfetched hvalid hmoved]
            simp only [Proc.tryExcept, Proc.bind_of_killed (hinsert f)]

/-- At such a row the attempt is given up on tuples. -/
theorem installOneOn_tuple_of_reads (h : ReadsByName other range a c) :
    ∃ status, installOneOn .tuple other range a c = (.ok status, c) ∧ status.recorded = givenUp := by
  obtain ⟨manifest, localPort, appId, hfetched, hvalid, hmoved, hstarts, hreads⟩ := h
  rcases insertAndDeployOn_cases other range a.env (a.request manifest) c with
    ⟨-, -, hnot⟩ | ⟨localPort, appId, -, hrest⟩
  · exact absurd hstarts (hnot localPort appId)
  · obtain ⟨site, hraised⟩ := insertResolved_tuple_of_reads hreads localPort appId
    rw [← hrest] at hraised
    refine ⟨.failed (.insertAndDeploy ⟨site, nameIndex⟩), ?_, rfl⟩
    rw [installOneOn_of_validated hfetched hvalid hmoved]
    simp only [Proc.tryExcept, Proc.bind_of_raised hraised]
    rfl

/-- On rows with names it ends in another way. -/
theorem installOneOn_row_of_reads (henv : a.env.OtherTexts) (h : ReadsByName other range a c)
    {status : InstallStatus} (hrun : installOneOn .row other range a c = (.ok status, c')) :
    status.recorded ≠ givenUp := by
  obtain ⟨manifest, localPort, appId, hfetched, hvalid, hmoved, hstarts, hreads⟩ := h
  rcases insertAndDeployOn_cases other range a.env (a.request manifest) c with
    ⟨-, -, hnot⟩ | ⟨localPort, appId, -, hrest⟩
  · exact absurd hstarts (hnot localPort appId)
  rw [installOneOn_of_validated hfetched hvalid hmoved] at hrun
  cases hinsert : insertAndDeployOn .row other range a.env (a.request manifest) c with
  | mk outcome c₁ =>
    cases outcome with
    | ok appId =>
      simp only [Proc.tryExcept, Proc.bind_of_ok hinsert] at hrun
      obtain rfl := Outcome.ok.inj (Prod.mk.inj hrun).1
      simp [InstallStatus.recorded, givenUp]
    | raised e =>
      simp only [Proc.tryExcept, Proc.bind_of_raised hinsert] at hrun
      obtain rfl := Outcome.ok.inj (Prod.mk.inj hrun).1
      have hother : OtherText e.error := by
        rw [hrest] at hinsert
        exact raisesOther_insertResolved henv other range _ localPort appId c e c₁ hinsert
      intro heq
      have htext : "insert_and_deploy: " ++ e.error.text = "insert_and_deploy: " ++ nameIndex.text :=
        Option.some.inj (Prod.mk.inj heq).2
      exact hother ((String.append_right_inj _).mp htext)
    | killed =>
      simp only [Proc.tryExcept, Proc.bind_of_killed hinsert] at hrun
      cases (Prod.mk.inj hrun).1

end

/-- On rows with names the install is the one that other requests make, once there is a primary domain. -/
theorem insertAndDeployOn_row {other : OtherRows} (h : ∃ r ∈ other.domains, r.isPrimary = true)
    (range : PortRange) (env : Env) (req : Request) :
    insertAndDeployOn .row other range env req = insertAndDeploy range env req := by
  obtain ⟨record, hrecord⟩ : ∃ record, other.domains.find? (·.isPrimary) = some record := by
    rw [← Option.isSome_iff_exists, List.find?_isSome]
    exact h
  have hprimary : primaryDomainOn .row other.domains = .ok record.toDomain := by
    rw [primaryDomainOn, hrecord]
    rfl
  have howner : ∃ owner, readOwnerUsernameOn .row other.usernames = .ok owner := by
    unfold readOwnerUsernameOn
    cases other.usernames.head? with
    | none => exact ⟨none, rfl⟩
    | some username => exact ⟨_, rfl⟩
  obtain ⟨owner, howner⟩ := howner
  unfold insertAndDeployOn insertResolved insertAndDeploy
  simp only [resolvePortMappingsOn_row, hprimary, howner]
  rfl

/-! ## Runs on either connection -/

/-- `deploy_default_apps` as `/setup` calls it. -/
def setupDefaultApps := deployOn .row

/-- `retry_pending_default_apps` -/
def retryPendingDefaultApps := deployOn .tuple

/-- What is left of a run: the rows of the apps, the records and the outcomes. -/
def DeployRun.result (r : DeployRun) : Rows × Deploy × Bool := (r.conn.committed.toRows, r.deploy, r.stuck)

/-- The attempt for the spec is due and gets as far as a row that is read by name. -/
structure DeployRun.Reads (other : OtherRows) (range : PortRange) (attempts : ℕ → Attempt) (r : DeployRun)
    (spec : String) : Prop where
  going : r.stuck = false
  due : r.deploy.isDue spec = true
  reads : ReadsByName other range (attempts r.deploy.attempted.length) r.conn

/-- What is said about the spec at a place of the list. -/
def DeployRun.entry (r : DeployRun) (n : ℕ) : Option (RecordStatus × Option String) :=
  (r.deploy.outcomes[n]?).map fun o => (o.status, o.error)

section

variable {f : RowFactory} {other : OtherRows} {range : PortRange} {attempts : ℕ → Attempt} {r : DeployRun}
  {spec : String}

theorem spec_of_due (install : Attempts) {d : Deploy} (h : d.isDue spec = true) :
    ∃ n, (d.spec install spec).outcomes =
      d.outcomes ++ [⟨spec, (install d.attempted.length).1, n, (install d.attempted.length).2⟩] := by
  unfold Deploy.isDue at h
  unfold Deploy.spec
  cases hrecord : d.sentinel spec with
  | none => exact ⟨_, by simp; rfl⟩
  | some record =>
    rw [hrecord] at h
    obtain ⟨hfailed, hattempts⟩ := Bool.and_eq_true_iff.mp h
    have hstatus : record.status = .failed := of_decide_eq_true hfailed
    have hless : ¬ record.attempts ≥ maxRetryAttempts := Nat.not_le.mpr (of_decide_eq_true hattempts)
    exact ⟨_, by simp [hstatus, hless]; rfl⟩

/-- Each spec is said to have come to something, and nothing that was said is taken back. -/
theorem outcomes_spec (install : Attempts) (d : Deploy) (spec : String) :
    ∃ o, (d.spec install spec).outcomes = d.outcomes ++ [o] := by
  unfold Deploy.spec
  dsimp only
  split
  · exact ⟨_, rfl⟩
  split
  · exact ⟨_, rfl⟩
  · exact ⟨_, rfl⟩

theorem outcomes_run_spec (f : RowFactory) (r : DeployRun) (spec : String) :
    ∃ l, (r.spec f other range attempts spec).deploy.outcomes = r.deploy.outcomes ++ l := by
  unfold DeployRun.spec
  split
  · exact ⟨[], (List.append_nil _).symm⟩
  split
  · split
    · obtain ⟨o, ho⟩ := outcomes_spec _ r.deploy spec
      exact ⟨[o], ho⟩
    · exact ⟨[], (List.append_nil _).symm⟩
  · obtain ⟨o, ho⟩ := outcomes_spec _ r.deploy spec
    exact ⟨[o], ho⟩

theorem outcomes_foldl (f : RowFactory) (specs : List String) (r : DeployRun) :
    ∃ l, (specs.foldl (DeployRun.spec f other range attempts) r).deploy.outcomes =
      r.deploy.outcomes ++ l := by
  induction specs generalizing r with
  | nil => exact ⟨[], (List.append_nil _).symm⟩
  | cons spec specs ih =>
    obtain ⟨l, hl⟩ : ∃ l, (r.spec f other range attempts spec).deploy.outcomes = r.deploy.outcomes ++ l :=
      outcomes_run_spec f r spec
    obtain ⟨l', hl'⟩ := ih (r.spec f other range attempts spec)
    exact ⟨l ++ l', by rw [List.foldl_cons, hl', hl, List.append_assoc]⟩

/-- What has been said stays. -/
theorem entry_foldl (f : RowFactory) (specs : List String) {n : ℕ} {e : RecordStatus × Option String}
    (h : r.entry n = some e) :
    (specs.foldl (DeployRun.spec f other range attempts) r).entry n = some e := by
  obtain ⟨l, hl⟩ : ∃ l, (specs.foldl (DeployRun.spec f other range attempts) r).deploy.outcomes =
      r.deploy.outcomes ++ l := outcomes_foldl f specs r
  obtain ⟨o, ho, rfl⟩ := Option.map_eq_some_iff.mp h
  rw [DeployRun.entry, hl, List.getElem?_append_left (List.getElem?_eq_some_iff.mp ho).1, ho]
  rfl

theorem entry_eq_of_result_eq {r r' : DeployRun} (h : r.result = r'.result) (n : ℕ) : r.entry n = r'.entry n := by
  have hdeploy : r.deploy = r'.deploy := (Prod.mk.inj (Prod.mk.inj h).2).1
  rw [DeployRun.entry, DeployRun.entry, hdeploy]

theorem stuck_foldl (f : RowFactory) (specs : List String) (h : r.stuck = true) :
    specs.foldl (DeployRun.spec f other range attempts) r = r := by
  induction specs with
  | nil => rfl
  | cons spec specs ih =>
    rw [List.foldl_cons, DeployRun.spec, if_pos h]
    exact ih

/-- Without a row that is read by name one spec comes to the same. -/
theorem run_spec_eq (h : ¬ r.Reads other range attempts spec) :
    r.spec .tuple other range attempts spec = r.spec .row other range attempts spec := by
  unfold DeployRun.spec
  split
  · rfl
  next hstuck =>
  split
  · next hdue =>
    have hnot : ¬ ReadsByName other range (attempts r.deploy.attempted.length) r.conn := fun hreads =>
      h ⟨by simpa using hstuck, hdue, hreads⟩
    obtain ⟨outcome, hsame⟩ := installOneOn_eq_of_not_reads hnot
    rw [hsame, hsame]
  · rfl

/-- At such a row the runs part: what they say about the spec is not the same. -/
theorem entry_of_reads (henv : ∀ n, (attempts n).env.OtherTexts) (h : r.Reads other range attempts spec) :
    (r.spec .tuple other range attempts spec).entry r.deploy.outcomes.length = some givenUp ∧
      ∀ specs : List String,
        (specs.foldl (DeployRun.spec .row other range attempts) (r.spec .row other range attempts spec)).entry
          r.deploy.outcomes.length ≠ some givenUp := by
  have hgoing : ¬ r.stuck = true := by simp [h.going]
  have hentry : ∀ (conn : Conn Tables) (result : RecordStatus × Option String),
      (DeployRun.mk (r.deploy.spec (fun _ => result) spec) conn r.stuck).entry r.deploy.outcomes.length =
        some result := by
    intro conn result
    obtain ⟨n, hn⟩ := spec_of_due (fun _ => result) h.due
    rw [DeployRun.entry, hn, List.getElem?_append_right le_rfl, Nat.sub_self]
    rfl
  constructor
  · obtain ⟨status, hrun, hrecorded⟩ := installOneOn_tuple_of_reads h.reads
    simp only [DeployRun.spec, if_neg hgoing, if_pos h.due, hrun, hrecorded]
    exact hentry r.conn givenUp
  · intro specs
    simp only [DeployRun.spec, if_neg hgoing, if_pos h.due]
    cases hrun : installOneOn .row other range (attempts r.deploy.attempted.length) r.conn with
    | mk outcome conn =>
      cases outcome with
      | ok status =>
        have hother := installOneOn_row_of_reads (henv _) h.reads hrun
        rw [entry_foldl .row specs (hentry conn status.recorded)]
        exact fun heq => hother (Option.some.inj heq)
      | raised e =>
        rw [stuck_foldl .row specs rfl, DeployRun.entry, List.getElem?_eq_none le_rfl]
        simp
      | killed =>
        rw [stuck_foldl .row specs rfl, DeployRun.entry, List.getElem?_eq_none le_rfl]
        simp

/-- From any state on, the runs come to the same exactly when no attempt gets to such a row. -/
theorem foldl_result_eq_iff (henv : ∀ n, (attempts n).env.OtherTexts) (specs : List String) (r : DeployRun) :
    (specs.foldl (DeployRun.spec .tuple other range attempts) r).result =
        (specs.foldl (DeployRun.spec .row other range attempts) r).result ↔
      ∀ pre spec post, specs = pre ++ spec :: post →
        ¬ (pre.foldl (DeployRun.spec .row other range attempts) r).Reads other range attempts spec := by
  induction specs generalizing r with
  | nil =>
    rw [List.foldl_nil, List.foldl_nil]
    refine ⟨fun _ pre spec post h => ?_, fun _ => rfl⟩
    simp at h
  | cons spec specs ih =>
    rw [List.foldl_cons, List.foldl_cons]
    by_cases hreads : r.Reads other range attempts spec
    · -- the first spec already parts the runs
      constructor
      · intro heq
        obtain ⟨htuple, hrow⟩ := entry_of_reads henv hreads
        have hlater : (specs.foldl (DeployRun.spec .tuple other range attempts)
            (r.spec .tuple other range attempts spec)).entry r.deploy.outcomes.length = some givenUp :=
          entry_foldl .tuple specs htuple
        exact absurd ((entry_eq_of_result_eq heq _).symm.trans hlater) (hrow specs)
      · intro h
        exact absurd hreads (h [] spec specs rfl)
    · rw [run_spec_eq hreads, ih]
      constructor
      · rintro h (_ | ⟨first, pre⟩) spec' post hsplit
        · obtain ⟨rfl, -⟩ := List.cons.inj hsplit
          exact hreads
        · obtain ⟨rfl, hrest⟩ := List.cons.inj hsplit
          exact h pre spec' post hrest
      · intro h pre spec' post hsplit
        exact h (spec :: pre) spec' post (congrArg (spec :: ·) hsplit)

end

/-- **When the retry comes to what the setup would have come to**: no attempt gets as far as a row that
is read by name. -/
theorem retry_result_eq_iff (other : OtherRows) (range : PortRange) (attempts : ℕ → Attempt)
    (henv : ∀ n, (attempts n).env.OtherTexts) (sentinel : Sentinel) (t : Tables) (specs : List String) :
    (retryPendingDefaultApps other range attempts sentinel t specs).result =
        (setupDefaultApps other range attempts sentinel t specs).result ↔
      ∀ pre spec post, specs = pre ++ spec :: post →
        ¬ (setupDefaultApps other range attempts sentinel t pre).Reads other range attempts spec :=
  foldl_result_eq_iff henv specs _

/-! ### One default app -/

/-- An instance with a primary domain. -/
def seeded : OtherRows where
  domains := [{ name := "host.example.com", tls := true, mdns := false, isPrimary := true }]
  usernames := ["owner"]

theorem portsParsed_none : PortsParsed [] := ⟨by simp, by simp, by simp, by simp, by simp⟩

/-- The clone of an app without ports. -/
def notesManifest : AppManifest where
  name := "notes"
  parsed := portsParsed_none

/-- A host on which nothing is in the way. -/
def quietEnv : Env where
  host _ := Host.idle
  draws := ["a1"]
  tokenHash := "0"

theorem otherTexts_quietEnv : quietEnv.OtherTexts where
  calls s e h := by cases h
  statements s r h := by cases h

/-- A host without room on its disk. -/
def fullEnv : Env where
  raises s := if s = .checkStorage then some (.runtimeError "Storage too low") else none
  host _ := Host.idle
  draws := ["a1"]
  tokenHash := "0"

theorem otherTexts_fullEnv : fullEnv.OtherTexts where
  calls s e h := by
    simp only [fullEnv, Option.ite_none_right_eq_some, Option.some.injEq] at h
    obtain ⟨-, rfl⟩ := h
    simp [OtherText, PyError.text, nameIndex]
  statements s r h := by cases h

theorem retry_result_eq_on_full_disk :
    (retryPendingDefaultApps seeded {} (fun _ => ⟨fullEnv, .ok notesManifest, "", ""⟩) (fun _ => none)
        Tables.empty ["notes"]).result =
      (setupDefaultApps seeded {} (fun _ => ⟨fullEnv, .ok notesManifest, "", ""⟩) (fun _ => none)
        Tables.empty ["notes"]).result := by
  refine (retry_result_eq_iff _ _ _ (fun _ => otherTexts_fullEnv) _ _ _).mpr ?_
  rintro pre spec post - ⟨-, -, manifest, localPort, appId, -, -, -, hstarts, -⟩
  cases hstarts.storage

/-- The setup installs the app, and the retry never does. -/
theorem retry_result_not_always_eq :
    ¬ ∀ (other : OtherRows) (range : PortRange) (attempts : ℕ → Attempt) (sentinel : Sentinel) (t : Tables)
        (specs : List String),
      (retryPendingDefaultApps other range attempts sentinel t specs).result =
        (setupDefaultApps other range attempts sentinel t specs).result := by
  intro h
  have heq := h seeded ⟨9000, 9000⟩ (fun _ => ⟨quietEnv, .ok notesManifest, "", ""⟩) (fun _ => none)
    Tables.empty ["notes"]
  refine (foldl_result_eq_iff (fun _ => otherTexts_quietEnv) ["notes"] _).mp heq [] "notes" [] rfl ⟨rfl, rfl, ?_⟩
  refine ⟨notesManifest, 9000, "a1", rfl, rfl, rfl, ⟨rfl, rfl, rfl, rfl⟩, rfl, .inr ⟨⟨[], rfl⟩, ?_⟩⟩
  exact ⟨_, List.mem_singleton_self _, rfl⟩

end OpenHost.Install

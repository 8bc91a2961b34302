import Mathlib.Data.List.Perm.Basic
import OpenHost.Install.Tables

/-!
# Ports

`core/ports.py`: the port of a new app, and the host ports of its mappings.  The first is the lowest
free port of the range, the others are asked for or picked at random.
-/

namespace OpenHost.Install

/-- What the host answers when a port is looked for. -/
structure Host where
  /-- A TCP and a UDP socket can be bound to the port. -/
  bindable : Int → Bool
  /-- `random.shuffle` -/
  shuffle : List Int → List Int
  perm : ∀ ports, (shuffle ports).Perm ports

/-- A host whose ports are all free. -/
def Host.idle : Host where
  bindable _ := true
  shuffle ports := ports
  perm ports := List.Perm.refl ports

/-- `port_range_start` and `port_range_end` -/
structure PortRange where
  start : Int := 9000
  stop : Int := 9999
  deriving DecidableEq, Repr

/-- `range(range_start, range_end + 1)` -/
def PortRange.ports (range : PortRange) : List Int :=
  (List.range (range.stop + 1 - range.start).toNat).map fun n => range.start + n

/-- `_port_is_bindable` -/
def portIsBindable (bindable : Int → Bool) (port : Int) : Except PyError Bool :=
  if 0 ≤ port ∧ port ≤ 65535 then .ok (bindable port)
  else .error (.overflowError "bind(): port must be 0-65535.")

/-- `for port in ports: if port in used: continue; if _port_is_bindable(port): return port` -/
def firstFree (used : List Int) (bindable : Int → Bool) :
    List Int → Except PyError (Option Int)
  | [] => .ok none
  | port :: ports =>
      if port ∈ used then firstFree used bindable ports
      else do
        if ← portIsBindable bindable port then return some port
        firstFree used bindable ports

/-- The text of the error for a range without a free port. -/
def noFreePorts (range : PortRange) : String :=
  "No free ports in range " ++ toString range.start ++ "-" ++ toString range.stop

/-- The rows of other apps; an empty id stands for no exclusion. -/
def isOther (excludeAppId : Option String) (m : PortMappingRow) : Bool :=
  match excludeAppId with
  | none => true
  | some appId => appId = "" || m.appId ≠ appId

/-- The ports in the database, without the mapped ones of the excluded app. -/
def usedPorts (t : Rows) (excludeAppId : Option String) : List Int :=
  t.localPorts ++ (t.portMappings.filter (isOther excludeAppId)).map PortMappingRow.hostPort

/-- `allocate_port`, which reads what is committed. -/
def allocatePort (t : Rows) (bindable : Int → Bool) (range : PortRange) : Except PyError Int := do
  match ← firstFree (usedPorts t none) bindable range.ports with
  | some port => return port
  | none => throw (.runtimeError (noFreePorts range))

/-- `used_by` of `check_port_available` -/
inductive UsedBy where
  | mainPort (appName : String)
  | portMapping (appName label : String)
  | hostService
  deriving DecidableEq, Repr

/-- `_format_used_by` -/
def UsedBy.format : UsedBy → String
  | mainPort appName => "app '" ++ appName ++ "' (main port)"
  | portMapping appName label => "app '" ++ appName ++ "' (port mapping '" ++ label ++ "')"
  | hostService => "host-level service"

/-- The app that has the port as its own, unless it is the excluded one. -/
def mainPortUser (t : Rows) (excludeAppId : Option String) (port : Int) : Option UsedBy :=
  (t.apps.find? (·.localPort = port)).bind fun row =>
    if some row.appId = excludeAppId then none else some (.mainPort row.name)

/-- The mapping, joined with its app, that has the port. -/
def mappingUser (t : Rows) (excludeAppId : Option String) (port : Int) : Option UsedBy :=
  t.portMappings.findSome? fun m =>
    if m.hostPort = port && isOther excludeAppId m then
      (t.findApp m.appId).map fun a => .portMapping a.name m.label
    else none

/-- `check_port_available`: `none` for a port that is available. -/
def checkPortAvailable (port : Int) (t : Rows) (excludeAppId : Option String)
    (bindable : Int → Bool) : Except PyError (Option UsedBy) :=
  match mainPortUser t excludeAppId port, mappingUser t excludeAppId port with
  | some usedBy, _ | none, some usedBy => .ok (some usedBy)
  | none, none => do
      if ← portIsBindable bindable port then return none
      return some .hostService

/-- `_find_free_host_port` -/
def findFreeHostPort (range : PortRange) (t : Rows) (claimed : List Int)
    (excludeAppId : Option String) (host : Host) : Except PyError Int := do
  match ← firstFree (usedPorts t excludeAppId ++ claimed) host.bindable
      (host.shuffle range.ports) with
  | some port => return port
  | none => throw (.runtimeError (noFreePorts range ++ " for auto-assignment"))

/-- The claimed ports and the resolved mappings so far. -/
abbrev Batch := List Int × List PortMapping

/-- One turn of the first pass: a port that is asked for. -/
def resolveFixed (t : Rows) (excludeAppId : Option String) (host : List Int → String → Host)
    (b : Batch) (pm : PortMapping) : Except PyError Batch :=
  if pm.hostPort = 0 then .ok b
  else do
    match ← checkPortAvailable pm.hostPort t excludeAppId (host b.1 pm.label).bindable with
    | some usedBy =>
        throw (.runtimeError ("Port " ++ toString pm.hostPort ++ " for '" ++ pm.label ++
          "' is already in use by " ++ usedBy.format))
    | none =>
        if pm.hostPort ∈ b.1 then
          throw (.runtimeError ("Port " ++ toString pm.hostPort ++
            " requested by multiple mappings in this deploy"))
        return (b.1 ++ [pm.hostPort], b.2 ++ [pm])

/-- One turn of the second pass: a port for a mapping that takes any. -/
def resolveAuto (range : PortRange) (t : Rows) (excludeAppId : Option String)
    (host : List Int → String → Host) (b : Batch) (pm : PortMapping) : Except PyError Batch :=
  if pm.hostPort = 0 then do
    let assigned ← findFreeHostPort range t b.1 excludeAppId (host b.1 pm.label)
    return (b.1 ++ [assigned], b.2 ++ [{ pm with hostPort := assigned }])
  else .ok b

/-- `resolve_port_mappings`.  The host answers anew each time a port is looked for, which the ports
claimed so far tell apart. -/
def resolvePortMappings (mappings : List PortMapping) (t : Rows) (range : PortRange)
    (excludeAppId : Option String) (host : List Int → String → Host) :
    Except PyError (List PortMapping) := do
  let fixed ← mappings.foldlM (resolveFixed t excludeAppId host) ([], [])
  let all ← mappings.foldlM (resolveAuto range t excludeAppId host) fixed
  return all.2

/-! ## Which port is taken -/

/-- `port` is the first of the ports that is neither used nor refused by the host. -/
def FirstFree (used : List Int) (bindable : Int → Bool) (ports : List Int) (port : Int) : Prop :=
  ∃ pre post, ports = pre ++ port :: post ∧ port ∉ used ∧ bindable port = true ∧
    ∀ q ∈ pre, q ∈ used ∨ bindable q = false

theorem portIsBindable_ok {bindable : Int → Bool} {port : Int} {b : Bool}
    (h : portIsBindable bindable port = .ok b) : bindable port = b := by
  unfold portIsBindable at h
  split at h
  · exact Except.ok.inj h
  · cases h

theorem FirstFree.cons {used : List Int} {bindable : Int → Bool} {ports : List Int} {port q : Int}
    (h : FirstFree used bindable ports port) (hq : q ∈ used ∨ bindable q = false) :
    FirstFree used bindable (q :: ports) port := by
  obtain ⟨pre, post, rfl, hused, hbind, hpre⟩ := h
  refine ⟨q :: pre, post, rfl, hused, hbind, ?_⟩
  intro x hx
  rcases List.mem_cons.mp hx with rfl | hx
  · exact hq
  · exact hpre x hx

theorem firstFree_of_ok {used : List Int} {bindable : Int → Bool} {ports : List Int} {port : Int}
    (h : firstFree used bindable ports = .ok (some port)) :
    FirstFree used bindable ports port := by
  induction ports with
  | nil => cases h
  | cons q ports ih =>
    rw [firstFree] at h
    split at h
    · rename_i hused
      exact (ih h).cons (Or.inl hused)
    · rename_i hused
      cases hbind : portIsBindable bindable q with
      | error e =>
        rw [hbind] at h
        cases h
      | ok b =>
        have hb := portIsBindable_ok hbind
        rw [hbind] at h
        cases b with
        | true =>
          obtain rfl : q = port := Option.some.inj (Except.ok.inj h)
          exact ⟨[], ports, rfl, hused, hb, by simp⟩
        | false => exact (ih h).cons (Or.inr hb)

theorem allocatePort_ok {t : Rows} {bindable : Int → Bool} {range : PortRange} {port : Int}
    (h : allocatePort t bindable range = .ok port) :
    FirstFree (usedPorts t none) bindable range.ports port := by
  unfold allocatePort at h
  cases hfree : firstFree (usedPorts t none) bindable range.ports with
  | error e =>
    rw [hfree] at h
    cases h
  | ok found =>
    rw [hfree] at h
    cases found with
    | none => cases h
    | some p =>
      obtain rfl : p = port := Except.ok.inj h
      exact firstFree_of_ok hfree

theorem findFreeHostPort_ok {range : PortRange} {t : Rows} {claimed : List Int}
    {excludeAppId : Option String} {host : Host} {port : Int}
    (h : findFreeHostPort range t claimed excludeAppId host = .ok port) :
    FirstFree (usedPorts t excludeAppId ++ claimed) host.bindable (host.shuffle range.ports)
      port := by
  unfold findFreeHostPort at h
  cases hfree : firstFree (usedPorts t excludeAppId ++ claimed) host.bindable
      (host.shuffle range.ports) with
  | error e =>
    rw [hfree] at h
    cases h
  | ok found =>
    rw [hfree] at h
    cases found with
    | none => cases h
    | some p =>
      obtain rfl : p = port := Except.ok.inj h
      exact firstFree_of_ok hfree

/-- An available port is bindable, and no app but the excluded one has it as its own. -/
theorem checkPortAvailable_ok {port : Int} {t : Tables} {excludeAppId : Option String}
    {bindable : Int → Bool}
    (h : checkPortAvailable port t.toRows excludeAppId bindable = .ok none) :
    bindable port = true ∧ ∀ a ∈ t.apps, a.localPort = port → some a.appId = excludeAppId := by
  unfold checkPortAvailable at h
  split at h
  · cases h
  · cases h
  · rename_i hmain _
    refine ⟨?_, fun a ha hport => ?_⟩
    · cases hbind : portIsBindable bindable port with
      | error e =>
        rw [hbind] at h
        cases h
      | ok b =>
        rw [hbind] at h
        cases b with
        | true => exact portIsBindable_ok hbind
        | false => cases h
    · -- the first row with the port is the only one
      obtain ⟨row, hrow⟩ : ∃ row, t.apps.find? (·.localPort = port) = some row := by
        rw [← Option.isSome_iff_exists, List.find?_isSome]
        exact ⟨a, ha, decide_eq_true hport⟩
      have hrowport : row.localPort = port := by simpa using List.find?_some hrow
      have hsame : row = a := List.inj_on_of_nodup_map t.constraints.localPorts
        (List.mem_of_find?_eq_some hrow) ha (hrowport.trans hport.symm)
      rw [mainPortUser, hrow, Option.bind_some, hsame] at hmain
      split at hmain
      · assumption
      · cases hmain

/-! ## What is raised -/

theorem portIsBindable_error {bindable : Int → Bool} {port : Int} {e : PyError}
    (h : portIsBindable bindable port = .error e) : e.isValueError = false := by
  unfold portIsBindable at h
  split at h
  · cases h
  · rw [← Except.error.inj h]
    rfl

theorem firstFree_error {used : List Int} {bindable : Int → Bool} {ports : List Int} {e : PyError}
    (h : firstFree used bindable ports = .error e) : e.isValueError = false := by
  induction ports with
  | nil => cases h
  | cons q ports ih =>
    rw [firstFree] at h
    split at h
    · exact ih h
    · cases hbind : portIsBindable bindable q with
      | error e' =>
        rw [hbind] at h
        rw [← Except.error.inj h]
        exact portIsBindable_error hbind
      | ok b =>
        rw [hbind] at h
        cases b with
        | true => cases h
        | false => exact ih h

theorem findFreeHostPort_error {range : PortRange} {t : Rows} {claimed : List Int}
    {excludeAppId : Option String} {host : Host} {e : PyError}
    (h : findFreeHostPort range t claimed excludeAppId host = .error e) :
    e.isValueError = false := by
  unfold findFreeHostPort at h
  cases hfree : firstFree (usedPorts t excludeAppId ++ claimed) host.bindable
      (host.shuffle range.ports) with
  | error e' =>
    rw [hfree] at h
    rw [← Except.error.inj h]
    exact firstFree_error hfree
  | ok found =>
    rw [hfree] at h
    cases found with
    | none =>
      rw [← Except.error.inj h]
      rfl
    | some p => cases h

theorem checkPortAvailable_error {port : Int} {t : Rows} {excludeAppId : Option String}
    {bindable : Int → Bool} {e : PyError}
    (h : checkPortAvailable port t excludeAppId bindable = .error e) : e.isValueError = false := by
  unfold checkPortAvailable at h
  split at h
  · cases h
  · cases h
  · cases hbind : portIsBindable bindable port with
    | error e' =>
      rw [hbind] at h
      rw [← Except.error.inj h]
      exact portIsBindable_error hbind
    | ok b =>
      rw [hbind] at h
      cases b <;> cases h

/-- A loop raises what one of its turns raises. -/
theorem foldlM_error {α β : Type} {P : PyError → Prop} {f : β → α → Except PyError β}
    (hf : ∀ b a e, f b a = .error e → P e) {l : List α} {b : β} {e : PyError}
    (h : l.foldlM f b = .error e) : P e := by
  induction l generalizing b with
  | nil => cases h
  | cons a l ih =>
    rw [List.foldlM_cons] at h
    cases hstep : f b a with
    | error e' =>
      rw [hstep] at h
      rw [← Except.error.inj h]
      exact hf b a e' hstep
    | ok b' =>
      rw [hstep] at h
      exact ih h

theorem resolveFixed_error {t : Rows} {excludeAppId : Option String} {host : List Int → String → Host}
    (b : Batch) (pm : PortMapping) (e : PyError)
    (h : resolveFixed t excludeAppId host b pm = .error e) : e.isValueError = false := by
  unfold resolveFixed at h
  split at h
  · cases h
  · cases havail : checkPortAvailable pm.hostPort t excludeAppId (host b.1 pm.label).bindable with
    | error e' =>
      rw [havail] at h
      rw [← Except.error.inj h]
      exact checkPortAvailable_error havail
    | ok usedBy =>
      rw [havail] at h
      cases usedBy with
      | some _ =>
        rw [← Except.error.inj h]
        rfl
      | none =>
        by_cases hclaimed : pm.hostPort ∈ b.1
        · simp only [hclaimed, if_true] at h
          rw [← Except.error.inj h]
          rfl
        · simp only [hclaimed, if_false] at h
          cases h

theorem resolveAuto_error {range : PortRange} {t : Rows} {excludeAppId : Option String}
    {host : List Int → String → Host} (b : Batch) (pm : PortMapping) (e : PyError)
    (h : resolveAuto range t excludeAppId host b pm = .error e) : e.isValueError = false := by
  unfold resolveAuto at h
  split at h
  · cases hfree : findFreeHostPort range t b.1 excludeAppId (host b.1 pm.label) with
    | error e' =>
      rw [hfree] at h
      rw [← Except.error.inj h]
      exact findFreeHostPort_error hfree
    | ok port =>
      rw [hfree] at h
      cases h
  · cases h

/-- No `ValueError` comes out of `resolve_port_mappings`. -/
theorem resolvePortMappings_error {mappings : List PortMapping} {t : Rows} {range : PortRange}
    {excludeAppId : Option String} {host : List Int → String → Host} {e : PyError}
    (h : resolvePortMappings mappings t range excludeAppId host = .error e) :
    e.isValueError = false := by
  unfold resolvePortMappings at h
  cases hfixed : mappings.foldlM (resolveFixed t excludeAppId host) ([], []) with
  | error e' =>
    rw [hfixed] at h
    rw [← Except.error.inj h]
    exact foldlM_error (P := fun e => e.isValueError = false) resolveFixed_error hfixed
  | ok fixed =>
    cases hauto : mappings.foldlM (resolveAuto range t excludeAppId host) fixed with
    | error e' =>
      simp only [hfixed, hauto, bind, Except.bind] at h
      rw [← Except.error.inj h]
      exact foldlM_error (P := fun e => e.isValueError = false) resolveAuto_error hauto
    | ok all =>
      simp only [hfixed, hauto, bind, Except.bind, pure, Except.pure] at h
      cases h

/-! ## What a batch of mappings gets -/

/-- The mappings that ask for a port. -/
def fixedMappings (mappings : List PortMapping) : List PortMapping :=
  mappings.filter (·.hostPort ≠ 0)

/-- The mappings that take any port. -/
def autoMappings (mappings : List PortMapping) : List PortMapping :=
  mappings.filter (·.hostPort = 0)

/-- The random choice picks these ports for the mappings, one after the other. -/
inductive Picks (range : PortRange) (t : Rows) (excludeAppId : Option String)
    (host : List Int → String → Host) : List PortMapping → List Int → List Int → Prop where
  | nil (claimed : List Int) : Picks range t excludeAppId host [] claimed []
  | cons {pm : PortMapping} {pms : List PortMapping} {claimed ports : List Int} {port : Int}
      (first : FirstFree (usedPorts t excludeAppId ++ claimed) (host claimed pm.label).bindable
        ((host claimed pm.label).shuffle range.ports) port)
      (rest : Picks range t excludeAppId host pms (claimed ++ [port]) ports) :
      Picks range t excludeAppId host (pm :: pms) claimed (port :: ports)

/-- The mappings with the ports that were picked. -/
def assign (mappings : List PortMapping) (ports : List Int) : List PortMapping :=
  List.zipWith (fun pm port => { pm with hostPort := port }) mappings ports

theorem mem_assign {mappings : List PortMapping} {ports : List Int} {pm : PortMapping}
    (h : pm ∈ assign mappings ports) : pm.hostPort ∈ ports := by
  obtain ⟨i, hi, rfl⟩ := List.mem_iff_getElem.mp h
  simp [assign]

variable {range : PortRange} {t : Rows} {excludeAppId : Option String} {host : List Int → String → Host}

theorem Picks.length_eq {pms : List PortMapping} {claimed ports : List Int}
    (h : Picks range t excludeAppId host pms claimed ports) : pms.length = ports.length := by
  induction h with
  | nil => rfl
  | cons _ _ ih => rw [List.length_cons, List.length_cons, ih]

/-- What is picked is not in use. -/
theorem Picks.not_used {pms : List PortMapping} {claimed ports : List Int}
    (h : Picks range t excludeAppId host pms claimed ports) :
    ∀ port ∈ ports, port ∉ usedPorts t excludeAppId := by
  induction h with
  | nil => simp
  | cons first _ ih =>
    obtain ⟨_, _, _, hused, _⟩ := first
    intro port hport
    rcases List.mem_cons.mp hport with rfl | hport
    · exact fun h => hused (List.mem_append_left _ h)
    · exact ih port hport

/-- The first pass keeps the mappings that ask for a port, all of which are available. -/
theorem resolveFixed_pass {pms : List PortMapping} {b b' : Batch}
    (h : pms.foldlM (resolveFixed t excludeAppId host) b = .ok b') :
    b' = (b.1 ++ (fixedMappings pms).map PortMapping.hostPort, b.2 ++ fixedMappings pms) ∧
      ∀ pm ∈ fixedMappings pms, ∃ claimed,
        checkPortAvailable pm.hostPort t excludeAppId (host claimed pm.label).bindable =
          .ok none := by
  induction pms generalizing b with
  | nil =>
    obtain rfl := Except.ok.inj h
    simp [fixedMappings]
  | cons pm pms ih =>
    rw [List.foldlM_cons] at h
    by_cases hport : pm.hostPort = 0
    · rw [resolveFixed, if_pos hport] at h
      have hskip : fixedMappings (pm :: pms) = fixedMappings pms := by simp [fixedMappings, hport]
      rw [hskip]
      exact ih h
    · rw [resolveFixed, if_neg hport] at h
      have htake : fixedMappings (pm :: pms) = pm :: fixedMappings pms := by
        simp [fixedMappings, hport]
      rw [htake]
      cases havail : checkPortAvailable pm.hostPort t excludeAppId
          (host b.1 pm.label).bindable with
      | error e =>
        rw [havail] at h
        cases h
      | ok usedBy =>
        rw [havail] at h
        cases usedBy with
        | some _ => cases h
        | none =>
          by_cases hclaimed : pm.hostPort ∈ b.1
          · simp only [hclaimed, if_true] at h
            cases h
          · simp only [hclaimed, if_false] at h
            obtain ⟨hb, hall⟩ := ih h
            refine ⟨by simpa using hb, ?_⟩
            intro x hx
            rcases List.mem_cons.mp hx with rfl | hx
            · exact ⟨_, havail⟩
            · exact hall x hx

/-- The second pass gives the other mappings the ports that are picked. -/
theorem resolveAuto_pass {pms : List PortMapping} {b b' : Batch}
    (h : pms.foldlM (resolveAuto range t excludeAppId host) b = .ok b') :
    ∃ ports, Picks range t excludeAppId host (autoMappings pms) b.1 ports ∧
      b'.2 = b.2 ++ assign (autoMappings pms) ports := by
  induction pms generalizing b with
  | nil =>
    obtain rfl := Except.ok.inj h
    exact ⟨[], .nil _, by simp [assign]⟩
  | cons pm pms ih =>
    rw [List.foldlM_cons] at h
    by_cases hport : pm.hostPort = 0
    · rw [resolveAuto, if_pos hport] at h
      have htake : autoMappings (pm :: pms) = pm :: autoMappings pms := by
        simp [autoMappings, hport]
      cases hfree : findFreeHostPort range t b.1 excludeAppId (host b.1 pm.label) with
      | error e =>
        rw [hfree] at h
        cases h
      | ok port =>
        rw [hfree] at h
        obtain ⟨ports, hpicks, hb⟩ := ih h
        rw [htake]
        exact ⟨port :: ports, .cons (findFreeHostPort_ok hfree) hpicks, by simpa [assign] using hb⟩
    · rw [resolveAuto, if_neg hport] at h
      have hskip : autoMappings (pm :: pms) = autoMappings pms := by simp [autoMappings, hport]
      rw [hskip]
      exact ih h

/-- The mappings come back with the ports they asked for, all available, and after them the others
with the ports that were picked. -/
theorem resolvePortMappings_ok {mappings resolved : List PortMapping}
    (h : resolvePortMappings mappings t range excludeAppId host = .ok resolved) :
    ∃ ports, Picks range t excludeAppId host (autoMappings mappings)
        ((fixedMappings mappings).map PortMapping.hostPort) ports ∧
      resolved = fixedMappings mappings ++ assign (autoMappings mappings) ports ∧
      ∀ pm ∈ fixedMappings mappings, ∃ claimed,
        checkPortAvailable pm.hostPort t excludeAppId (host claimed pm.label).bindable =
          .ok none := by
  unfold resolvePortMappings at h
  cases hfixed : mappings.foldlM (resolveFixed t excludeAppId host) ([], []) with
  | error e =>
    rw [hfixed] at h
    cases h
  | ok fixed =>
    obtain ⟨hb, havail⟩ := resolveFixed_pass hfixed
    cases hauto : mappings.foldlM (resolveAuto range t excludeAppId host) fixed with
    | error e =>
      simp only [hfixed, hauto, bind, Except.bind] at h
      cases h
    | ok all =>
      obtain ⟨ports, hpicks, hall⟩ := resolveAuto_pass hauto
      simp only [hfixed, hauto, bind, Except.bind, pure, Except.pure] at h
      obtain rfl := Except.ok.inj h
      rw [hb] at hpicks hall
      exact ⟨ports, by simpa using hpicks, by simpa using hall, havail⟩

/-- The requests, the fixed ones first. -/
theorem requests_perm (mappings : List PortMapping) :
    (fixedMappings mappings ++ autoMappings mappings).Perm mappings := by
  have hsplit : autoMappings mappings = mappings.filter fun pm => !decide (pm.hostPort ≠ 0) := by
    unfold autoMappings
    congr 1
    funext pm
    by_cases hport : pm.hostPort = 0 <;> simp [hport]
  rw [hsplit]
  exact List.filter_append_perm _ mappings

/-- The resolved mappings have the labels of those that were to be resolved. -/
theorem labels_of_resolvePortMappings {mappings resolved : List PortMapping}
    (h : resolvePortMappings mappings t range excludeAppId host = .ok resolved) :
    (resolved.map PortMapping.label).Perm (mappings.map PortMapping.label) := by
  obtain ⟨ports, hpicks, rfl, -⟩ := resolvePortMappings_ok h
  have hlabels : ∀ (pms : List PortMapping) (ports : List Int), pms.length = ports.length →
      (assign pms ports).map PortMapping.label = pms.map PortMapping.label := by
    intro pms
    induction pms with
    | nil => simp [assign]
    | cons pm pms ih =>
      intro ports hlen
      cases ports with
      | nil => simp at hlen
      | cons port ports =>
        have hrest := ih ports (by simpa using hlen)
        simpa [assign] using hrest
  rw [List.map_append, hlabels _ _ hpicks.length_eq, ← List.map_append]
  exact (requests_perm mappings).map _

end OpenHost.Install

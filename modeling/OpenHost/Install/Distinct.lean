import OpenHost.Install.Sync
import OpenHost.Library.Runs

/-!
# Distinct ports

No port belongs to two apps or mappings, in any run of installs, reloads and removals.  The database
keeps the ports of the apps apart, and the mapped ports; that no mapped port is the port of an app is
left to the code.
-/

namespace OpenHost.Install

open Proc (Within Keeps within_bind)

/-! ## Runs -/

/-- What can happen to the rows. -/
inductive Event where
  /-- An install on a connection of its own. -/
  | install (env : Env) (req : Request)
  /-- An install on the connection of the setup request, as `deploy_default_apps` makes one after
  the other. -/
  | installDefault (env : Env) (req : Request)
  /-- The setup request ends. -/
  | closeSetup
  | reload (env : ReloadEnv) (appId repoPath : String)
  | remove (env : Env) (appId : String)

/-- The connection of the setup request holds no uncommitted rows, and with them the lock. -/
def Unlocked (c : Conn Tables) : Prop := c.seen.toRows = c.committed.toRows

instance (c : Conn Tables) : Decidable (Unlocked c) :=
  inferInstanceAs (Decidable (c.seen.toRows = c.committed.toRows))

/-- An event, on what is committed and what the connection of the setup request sees.  A connection
that does not get the lock changes nothing. -/
def Event.next (range : PortRange) (c : Conn Tables) : Event → Option (Conn Tables)
  | .install env req =>
      if Unlocked c then
        some (Conn.fresh (insertAndDeploy range env req (Conn.fresh c.committed)).2.committed)
      else none
  | .installDefault env req => some (insertAndDeploy range env req c).2
  | .closeSetup => some c.rolledBack
  | .reload env appId repoPath =>
      if Unlocked c then
        some (Conn.fresh
          (reloadAppBackground range env appId repoPath (Conn.fresh c.committed)).2.committed)
      else none
  | .remove env appId =>
      if Unlocked c then
        some (Conn.fresh (removeAppBackground env appId (Conn.fresh c.committed)).2.committed)
      else none

/-- All ports are distinct. -/
def Distinct (t : Rows) : Prop := (t.localPorts ++ t.hostPorts).Nodup

/-! ## When an event may take place -/

/-- The port that the new app is given is neither mapped on the connection, nor asked for by one of
its own mappings that could be bound to it, nor picked for one of them. -/
structure OwnPortSpared (range : PortRange) (env : Env) (req : Request) (c : Conn Tables)
    (port : Int) : Prop where
  unmapped : port ∉ c.seen.hostPorts
  unasked : ∀ pm ∈ fixedMappings req.mappings, pm.hostPort = port →
    (env.host pm.label).bindable port = false
  unpicked : ∀ ports, Picks range c.seen.toRows none (fun _ => env.host)
    (autoMappings req.mappings) ((fixedMappings req.mappings).map PortMapping.hostPort) ports →
      port ∉ ports

/-- For an install: the lowest free port is spared. -/
def InstallSpares (range : PortRange) (env : Env) (req : Request) (c : Conn Tables) : Prop :=
  ∀ port, FirstFree (usedPorts c.committed.toRows none) env.bindable range.ports port →
    OwnPortSpared range env req c port

/-- For a reload: no new label asks for the port of the app itself, unless it cannot be bound. -/
def ReloadSpares (env : ReloadEnv) (appId repoPath : String) (t : Rows) : Prop :=
  ∀ manifest, env.manifest repoPath = .ok manifest → ∀ pm ∈ manifest.portMappings,
    pm.label ∉ (t.mappingsOf appId).map PortMappingRow.label → pm.hostPort ≠ 0 →
    (∃ a ∈ t.apps, a.appId = appId ∧ a.localPort = pm.hostPort) →
    (env.host pm.label).bindable pm.hostPort = false

/-- The event spares the ports of the apps. -/
def Event.Spares (range : PortRange) (c : Conn Tables) : Event → Prop
  | .install env req => InstallSpares range env req (Conn.fresh c.committed)
  | .installDefault env req => InstallSpares range env req c
  | .reload env appId repoPath => ReloadSpares env appId repoPath c.committed.toRows
  | .closeSetup | .remove _ _ => True

/-! ## Ports that are kept apart -/

/-- No mapped port is the port of an app. -/
def Separate (t : Tables) : Prop := ∀ port ∈ t.hostPorts, port ∉ t.localPorts

/-- With the constraints of the schema nothing more is needed. -/
theorem distinct_iff (t : Tables) : Distinct t.toRows ↔ Separate t := by
  rw [Distinct, List.nodup_append]
  constructor
  · rintro ⟨-, -, hne⟩ port hhost hlocal
    exact hne port hlocal port hhost rfl
  · intro h
    refine ⟨t.constraints.localPorts, t.constraints.hostPorts, ?_⟩
    rintro a ha b hb rfl
    exact h a hb ha

section Install

variable {range : PortRange} {env : Env} {req : Request} {c : Conn Tables} {row : AppRow}
  {resolved : List PortMapping}

/-- A resolved mapping of a new app has a port that no app on the connection has, and not its own
app's. -/
theorem Prepared.spared (h : Prepared range env req c row resolved)
    (hspares : InstallSpares range env req c) :
    row.localPort ∉ c.seen.hostPorts ∧
      ∀ pm ∈ resolved, pm.hostPort ∉ c.seen.localPorts ∧ pm.hostPort ≠ row.localPort := by
  obtain ⟨hunmapped, hunasked, hunpicked⟩ := hspares row.localPort h.localPort
  obtain ⟨ports, hpicks, rfl, havail⟩ := resolvePortMappings_ok h.resolved
  refine ⟨hunmapped, fun pm hpm => ?_⟩
  rcases List.mem_append.mp hpm with hfixed | hauto
  · obtain ⟨_, havailable⟩ := havail pm hfixed
    obtain ⟨hbind, happs⟩ := checkPortAvailable_ok havailable
    refine ⟨fun hmem => ?_, fun heq => ?_⟩
    · obtain ⟨a, ha, hport⟩ := List.mem_map.mp hmem
      cases happs a ha hport
    · rw [heq] at hbind
      rw [hunasked pm hfixed heq] at hbind
      cases hbind
  · have hport := mem_assign hauto
    refine ⟨fun hmem => ?_, fun heq => ?_⟩
    · exact hpicks.not_used _ hport (List.mem_append_left _ hmem)
    · exact hunpicked ports hpicks (heq ▸ hport)

/-- The rows of a new app are added to tables whose ports are kept apart. -/
theorem separate_of_adds {b t : Tables} (hb : Separate b) (hrow : row.localPort ∉ b.hostPorts)
    (hresolved : ∀ pm ∈ resolved, pm.hostPort ∉ b.localPorts ∧ pm.hostPort ≠ row.localPort)
    (h : Adds row resolved b t) : Separate t := by
  intro port hhost hlocal
  obtain ⟨m, hm, rfl⟩ := List.mem_map.mp hhost
  obtain ⟨a, ha, hport⟩ := List.mem_map.mp hlocal
  rcases h.apps a ha with ha | rfl <;> rcases h.portMappings m hm with hm | ⟨pm, hpm, rfl⟩
  · exact hb _ (List.mem_map_of_mem hm) (List.mem_map.mpr ⟨a, ha, hport⟩)
  · exact (hresolved pm hpm).1 (List.mem_map.mpr ⟨a, ha, hport⟩)
  · exact hrow (List.mem_map.mpr ⟨m, hm, hport.symm⟩)
  · exact (hresolved pm hpm).2 hport.symm

/-- An install that spares its port keeps the ports apart, in what is committed and in what it leaves
pending. -/
theorem separate_insertAndDeploy (hspares : InstallSpares range env req c)
    (hkept : ∀ a ∈ c.committed.apps, a ∈ c.seen.apps) (h : c.All Separate) :
    (insertAndDeploy range env req c).2.All Separate := by
  rcases insertAndDeploy_adds range env req c with hend | ⟨row, resolved, hprep, hadds⟩
  · rw [hend]
    exact h
  · obtain ⟨hrow, hresolved⟩ := hprep.spared hspares
    -- no committed mapping has the port either, or it would not be free
    have hrow' : row.localPort ∉ c.committed.hostPorts := by
      obtain ⟨_, _, _, hused, _⟩ := hprep.localPort
      intro hmem
      apply hused
      obtain ⟨m, hm, hport⟩ := List.mem_map.mp hmem
      exact List.mem_append_right _ (List.mem_map.mpr
        ⟨m, List.mem_filter.mpr ⟨hm, rfl⟩, hport⟩)
    have hresolved' : ∀ pm ∈ resolved,
        pm.hostPort ∉ c.committed.localPorts ∧ pm.hostPort ≠ row.localPort := by
      intro pm hpm
      refine ⟨fun hmem => (hresolved pm hpm).1 ?_, (hresolved pm hpm).2⟩
      obtain ⟨a, ha, hport⟩ := List.mem_map.mp hmem
      exact List.mem_map.mpr ⟨a, hkept a ha, hport⟩
    have hone : ∀ t, Adds row resolved c.committed t ∨ Adds row resolved c.seen t → Separate t := by
      rintro t (ht | ht)
      · exact separate_of_adds h.1 hrow' hresolved' ht
      · exact separate_of_adds h.2 hrow hresolved ht
    exact ⟨hone _ hadds.1, hone _ hadds.2⟩

end Install

/-! ## Reloads -/

/-- The ports of the apps are `ports`, and no mapped port is among them. -/
structure Avoids (ports : List Int) (t : Tables) : Prop where
  localPorts : t.localPorts = ports
  hostPorts : ∀ port ∈ t.hostPorts, port ∉ ports

theorem avoids_iff {ports : List Int} {t : Tables} :
    Avoids ports t ↔ t.localPorts = ports ∧ Separate t := by
  constructor
  · rintro ⟨rfl, h⟩
    exact ⟨rfl, h⟩
  · rintro ⟨rfl, h⟩
    exact ⟨rfl, h⟩

section Reload

variable {range : PortRange} {env : ReloadEnv} {appId : String} {ports : List Int}

/-- Rows that leave the ports of the apps and add no mapped one. -/
theorem Avoids.of_rows {t t' : Tables} (h : Avoids ports t)
    (hlocal : t'.localPorts = t.localPorts) (hhost : ∀ port ∈ t'.hostPorts, port ∈ t.hostPorts) :
    Avoids ports t' :=
  ⟨hlocal.trans h.localPorts, fun port hport => h.hostPorts port (hhost port hport)⟩

theorem avoids_updateApp {f : AppRow → AppRow} (hf : Rows.KeepsKeys f) (s : Stmt) :
    Within (Keeps (Conn.All (Avoids ports))) (env.execute s (Tables.updateApp appId f)) :=
  Env.keeps_execute fun t t' ht h => by
    refine ht.of_rows ?_ fun port hport => ?_
    · rw [Rows.localPorts, Tables.write_ok h, Rows.map_setApp hf.localPort]
      rfl
    · rw [Tables.write_ok h] at hport
      exact hport

theorem avoids_delete (label : String) (s : Stmt) :
    Within (Keeps (Conn.All (Avoids ports))) (env.execute s (Tables.deletePortMapping appId label)) :=
  Env.keeps_execute fun t t' ht h => by
    refine ht.of_rows (by rw [Tables.write_ok h]; rfl) fun port hport => ?_
    rw [Tables.write_ok h] at hport
    obtain ⟨m, hm, rfl⟩ := List.mem_map.mp hport
    exact List.mem_map_of_mem (List.mem_of_mem_filter hm)

theorem avoids_replaceToken (row : TokenRow) (s : Stmt) :
    Within (Keeps (Conn.All (Avoids ports))) (env.execute s (Tables.replaceToken row)) :=
  Env.keeps_execute fun t t' ht h =>
    ht.of_rows (by rw [Tables.write_ok h]; rfl) fun port hport => by
      rw [Tables.write_ok h] at hport
      exact hport

theorem avoids_registerServices (services : List ServiceProvides) (s : Stmt) :
    Within (Keeps (Conn.All (Avoids ports)))
      (env.execute s (Tables.registerServices appId services)) :=
  Env.keeps_execute fun t t' ht h =>
    ht.of_rows (by rw [Tables.write_ok h]; rfl) fun port hport => by
      rw [Tables.write_ok h] at hport
      exact hport

/-- A mapping with another port than those of the apps is written. -/
theorem avoids_writeMapping {existing : List PortMappingRow} {pm : PortMapping}
    (hpm : pm.hostPort ∉ ports) (s : Stmt) :
    Within (Keeps (Conn.All (Avoids ports))) (env.execute s (writeMapping appId existing pm)) :=
  Env.keeps_execute fun t t' ht h => by
    unfold writeMapping at h
    split at h
    · refine ⟨(by rw [Tables.write_ok h]; exact ht.localPorts), fun port hport => ?_⟩
      rw [Tables.write_ok h] at hport
      obtain ⟨m', hm', rfl⟩ := List.mem_map.mp hport
      obtain ⟨m, hm, rfl⟩ := List.mem_map.mp hm'
      split
      · exact hpm
      · exact ht.hostPorts _ (List.mem_map_of_mem hm)
    · refine ⟨(by rw [Tables.write_ok h]; exact ht.localPorts), fun port hport => ?_⟩
      rw [Tables.write_ok h] at hport
      obtain ⟨m, hm, rfl⟩ := List.mem_map.mp hport
      rcases List.mem_append.mp hm with hm | hm
      · exact ht.hostPorts _ (List.mem_map_of_mem hm)
      · rw [List.mem_singleton.mp hm]
        exact hpm

theorem avoids_commit (s : Stmt) : Within (Keeps (Conn.All (Avoids ports))) (env.commit s) :=
  Session.keeps_commit _

theorem avoids_call (s : Call) : Within (Keeps (Conn.All (Avoids ports))) (env.call s) := by
  unfold Env.call
  split
  · exact Proc.within_raise _
  · exact Proc.within_pure _

theorem avoids_markAppStarting (mark done : Stmt) :
    Within (Keeps (Conn.All (Avoids ports))) (markAppStarting env appId mark done) :=
  within_bind (avoids_updateApp harmless_setStarting.toKeepsKeys mark) fun _ => avoids_commit done

theorem avoids_runAppImage (manifest : AppManifest) :
    Within (Keeps (Conn.All (Avoids ports))) (runAppImage env appId manifest) := by
  have hregister : Within (Keeps (Conn.All (Avoids ports))) (registerLaunch env appId manifest) :=
    within_bind (avoids_call .prepareLaunch) fun _ =>
      within_bind (avoids_replaceToken _ .replaceToken) fun _ =>
        within_bind (avoids_registerServices _ .registerServices) fun _ =>
          avoids_markAppStarting .markLaunching .commitLaunching
  have hstart : Within (Keeps (Conn.All (Avoids ports))) (startContainer env appId) :=
    within_bind (avoids_call .runContainer) fun _ =>
      within_bind (avoids_updateApp (harmless_setContainer _).toKeepsKeys .recordContainer) fun _ =>
        within_bind (avoids_commit .commitContainer) fun _ =>
          within_bind (avoids_updateApp (harmless_setReady _).toKeepsKeys .recordReady) fun _ =>
            avoids_commit .commitReady
  refine within_bind Session.keeps_select fun t => ?_
  split
  · exact Proc.within_raise _
  · refine Proc.within_tryExcept (within_bind hregister fun _ => hstart) fun e => ?_
    exact within_bind Session.keeps_rollback fun _ =>
      within_bind
        (Proc.within_tryExcept
          (within_bind (avoids_updateApp (harmless_setLaunchError _ _).toKeepsKeys
            .recordLaunchFailure) fun _ => avoids_commit .commitLaunchFailure)
          fun _ => Session.keeps_rollback)
        fun _ => Proc.within_raise e

theorem avoids_startAppProcess :
    Within (Keeps (Conn.All (Avoids ports))) (startAppProcess env appId) := by
  refine within_bind Session.keeps_select fun t => within_bind (avoids_call .checkStorage) fun _ => ?_
  split
  · exact Proc.within_raise _
  · exact within_bind (within_bind (avoids_call .parseAtStart) fun _ => Proc.within_ofExcept _)
      fun manifest => within_bind (avoids_markAppStarting .markStarting .commitStarting) fun _ =>
        within_bind (avoids_call .buildImage) fun _ => avoids_runAppImage manifest

theorem avoids_recordError (e : Raised) :
    Within (Keeps (Conn.All (Avoids ports))) (recordError env appId e) :=
  within_bind (avoids_updateApp (harmless_setError _).toKeepsKeys .recordError) fun _ =>
    avoids_commit .commitError

/-- A resolved mapping of a reload has a port that no app has. -/
theorem resolved_avoids (existing : List PortMappingRow) {mappings resolved : List PortMapping}
    {t : Tables} (ht : Avoids ports t) (hexisting : ∀ m ∈ existing, m.hostPort ∉ ports)
    (hspares : ∀ pm ∈ mappings, pm.label ∉ existing.map PortMappingRow.label → pm.hostPort ≠ 0 →
      (∃ a ∈ t.apps, a.appId = appId ∧ a.localPort = pm.hostPort) →
      (env.host pm.label).bindable pm.hostPort = false)
    (h : resolvePortMappings (mappings.map (preserve existing)) t.toRows range (some appId)
      (fun _ => env.host) = .ok resolved) : ∀ pm ∈ resolved, pm.hostPort ∉ ports := by
  obtain ⟨picked, hpicks, rfl, havail⟩ := resolvePortMappings_ok h
  intro pm hpm hmem
  rw [← ht.localPorts] at hmem
  rcases List.mem_append.mp hpm with hfixed | hauto
  · obtain ⟨_, havailable⟩ := havail pm hfixed
    obtain ⟨hbind, happs⟩ := checkPortAvailable_ok havailable
    obtain ⟨a, ha, hport⟩ := List.mem_map.mp hmem
    have hid : a.appId = appId := Option.some.inj (happs a ha hport)
    obtain ⟨hin, hne⟩ := List.mem_filter.mp hfixed
    obtain ⟨new, hnew, rfl⟩ := List.mem_map.mp hin
    unfold preserve at hbind hport hne hmem
    split at hbind
    · -- a label that is there keeps a port that is no app's
      rename_i m hfind
      simp only [hfind] at hmem
      rw [ht.localPorts] at hmem
      exact hexisting m (List.mem_of_find?_eq_some hfind) hmem
    · rename_i hfind
      simp only [hfind] at hport hne
      have hlabel : new.label ∉ existing.map PortMappingRow.label := by
        intro hlabel
        obtain ⟨m, hm, heq⟩ := List.mem_map.mp hlabel
        simpa [heq] using List.find?_eq_none.mp hfind m hm
      rw [hspares new hnew hlabel (by simpa using hne) ⟨a, ha, hid, hport⟩] at hbind
      cases hbind
  · exact hpicks.not_used _ (mem_assign hauto) (List.mem_append_left _ hmem)

/-- The mappings are synchronised with ports that no app has. -/
theorem avoids_syncPortMappings {newMappings : List PortMapping} {c : Conn Tables}
    (hspares : ∀ pm ∈ newMappings,
      pm.label ∉ (c.seen.mappingsOf appId).map PortMappingRow.label → pm.hostPort ≠ 0 →
      (∃ a ∈ c.seen.apps, a.appId = appId ∧ a.localPort = pm.hostPort) →
      (env.host pm.label).bindable pm.hostPort = false)
    (h : c.All (Avoids ports)) :
    (syncPortMappings range env appId newMappings c).2.All (Avoids ports) := by
  unfold syncPortMappings
  apply Proc.bind_post (Q := Conn.All (Avoids ports))
  case hraised => exact fun e c₁ hlook => (Session.keeps_look _).of_eq hlook h
  case hkilled => exact fun c₁ hlook => (Session.keeps_look _).of_eq hlook h
  intro t c₁ hlook
  obtain ⟨rfl, rfl⟩ := Env.look_ok hlook
  have hdeletes : Within (Keeps (Conn.All (Avoids ports))) (Proc.forEach
      (env.order (removedLabels (c₁.seen.mappingsOf appId) newMappings)) fun label =>
        env.execute (.deletePortMapping label) (Tables.deletePortMapping appId label)) :=
    Proc.within_forEach fun label _ => avoids_delete label _
  apply Proc.bind_post (Q := Conn.All (Avoids ports))
  case hraised => exact fun e c₂ hdelete => hdeletes.of_eq hdelete h
  case hkilled => exact fun c₂ hdelete => hdeletes.of_eq hdelete h
  intro _ c₂ hdelete
  have h₂ := hdeletes.of_eq hdelete h
  -- the apps are as they were before the labels were deleted
  have happs : c₂.seen.apps = c₁.seen.apps := by
    rw [(deletes_ok hdelete).2]
    rfl
  apply Proc.bind_post (Q := Conn.All (Avoids ports))
  case hraised => exact fun e c₃ hlook => (Session.keeps_look _).of_eq hlook h₂
  case hkilled => exact fun c₃ hlook => (Session.keeps_look _).of_eq hlook h₂
  intro t c₃ hlook
  obtain ⟨rfl, rfl⟩ := Env.look_ok hlook
  apply Proc.bind_post (Q := Conn.All (Avoids ports))
  case hraised =>
    exact fun e c₄ hresolve =>
      (Proc.within_ofExcept (R := Keeps (Conn.All (Avoids ports))) _).of_eq hresolve h₂
  case hkilled =>
    exact fun c₄ hresolve =>
      (Proc.within_ofExcept (R := Keeps (Conn.All (Avoids ports))) _).of_eq hresolve h₂
  intro resolved c₄ hresolve
  obtain ⟨hok, rfl⟩ := Proc.ofExcept_ok_iff.mp hresolve
  have hresolved := resolved_avoids (c₁.seen.mappingsOf appId) h₂.2
    (fun m hm => h.2.hostPorts _ (List.mem_map_of_mem (List.mem_of_mem_filter hm)))
    (by rw [happs]; exact hspares) (mapError_ok_iff.mp hok)
  exact Proc.within_forEach (fun pm hpm => avoids_writeMapping (hresolved pm hpm) _) c₄ h₂

/-- A reload that spares the port of its app leaves the ports of the apps to themselves. -/
theorem avoids_reloadAppBackground (range : PortRange) {repoPath : String} {t : Tables}
    (hspares : ReloadSpares env appId repoPath t.toRows) (h : Avoids ports t) :
    (reloadAppBackground range env appId repoPath (Conn.fresh t)).2.All (Avoids ports) := by
  have hfresh : (Conn.fresh t).All (Avoids ports) := ⟨h, h⟩
  have hsync : (syncWithManifest range env appId repoPath (Conn.fresh t)).2.All (Avoids ports) := by
    unfold syncWithManifest
    rcases compute_cases env.toEnv .parseManifest (env.manifest repoPath)
      (Conn.fresh t) with ⟨manifest, hmanifest, hparse⟩ | ⟨e, hparse⟩
    swap
    · rw [Proc.bind_of_raised hparse]
      exact hfresh
    rw [Proc.bind_of_ok hparse]
    rcases call_cases env.toEnv .columnValues (Conn.fresh t) with hvalues | ⟨e, -, hvalues⟩
    swap
    · rw [Proc.bind_of_raised hvalues]
      exact hfresh
    rw [Proc.bind_of_ok hvalues]
    have hkeys : Rows.KeepsKeys (AppRow.setColumns (manifestColumnValues manifest)) :=
      ⟨fun _ => rfl, fun _ => rfl, fun _ => rfl⟩
    have hcolumns : Within (Keeps (Conn.All (Avoids ports))) (env.execute .updateColumns
        (Tables.updateApp appId (AppRow.setColumns (manifestColumnValues manifest)))) :=
      avoids_updateApp hkeys .updateColumns
    apply Proc.bind_post (Q := Conn.All (Avoids ports))
    case hraised => exact fun e c₁ hupdate => hcolumns.of_eq hupdate hfresh
    case hkilled => exact fun c₁ hupdate => hcolumns.of_eq hupdate hfresh
    intro _ c₁ hupdate
    have h₁ := hcolumns.of_eq hupdate hfresh
    obtain ⟨t₁, ht₁, rfl⟩ := Env.execute_ok hupdate
    apply Proc.bind_keeps (P := Conn.All (Avoids ports))
    · refine avoids_syncPortMappings (fun pm hpm hlabel hne ⟨a, ha, hid, hport⟩ => ?_) h₁
      rw [Conn.seen_mk_some, Tables.write_ok ht₁] at hlabel ha
      -- the row of the app before its columns were set
      obtain ⟨b, hb, rfl⟩ := List.mem_map.mp ha
      refine hspares manifest hmanifest pm hpm hlabel hne ⟨b, hb, ?_⟩
      split at hid
      · rename_i hbid
        rw [if_pos hbid] at hport
        exact ⟨hbid, hport⟩
      · rename_i hbid
        exact absurd hid hbid
    · exact fun _ => within_bind (avoids_registerServices _ .syncServices) fun _ =>
        avoids_commit .commitSync
  have hbody : (reloadApp range env appId repoPath (Conn.fresh t)).2.All (Avoids ports) := by
    unfold reloadApp
    rcases call_cases env.toEnv .recopy (Conn.fresh t) with hcopy | ⟨e, -, hcopy⟩
    swap
    · rw [Proc.bind_of_raised hcopy]
      exact hfresh
    rw [Proc.bind_of_ok hcopy]
    split
    · apply Proc.bind_keeps (P := Conn.All (Avoids ports))
      · exact Proc.tryExcept_keeps hsync fun _ => Proc.within_pure ()
      · exact fun _ => avoids_startAppProcess
    · exact within_bind (Proc.within_pure ()) (fun _ => avoids_startAppProcess) _ hfresh
  unfold reloadAppBackground
  apply Proc.tryExcept_keeps (P := Conn.All (Avoids ports))
  · rw [Proc.bind_of_ok (Session.select_apply _)]
    cases hrow : t.findApp appId with
    | none =>
      simp only [Conn.seen_fresh, hrow]
      exact hfresh
    | some row =>
      simp only [Conn.seen_fresh, hrow]
      exact hbody
  · exact avoids_recordError

end Reload

/-! ## Removals -/

section Removal

variable {env : Env} {appId : String}

theorem separate_deleteApp {t t' : Tables} (ht : Separate t) (h : t.deleteApp appId = .ok t') :
    Separate t' := by
  intro port hhost hlocal
  rw [Tables.write_ok h] at hhost hlocal
  obtain ⟨m, hm, rfl⟩ := List.mem_map.mp hhost
  obtain ⟨a, ha, hport⟩ := List.mem_map.mp hlocal
  exact ht _ (List.mem_map_of_mem (List.mem_of_mem_filter hm))
    (List.mem_map.mpr ⟨a, List.mem_of_mem_filter ha, hport⟩)

theorem separate_setError {t t' : Tables} {message : String} (ht : Separate t)
    (h : t.updateApp appId (AppRow.setError message) = .ok t') : Separate t' := by
  intro port hhost hlocal
  rw [Tables.write_ok h] at hhost hlocal
  rw [Rows.localPorts, Rows.map_setApp (harmless_setError message).localPort] at hlocal
  exact ht port hhost hlocal

/-- A removal only takes ports away. -/
theorem keeps_removeAppBackground :
    Within (Keeps (Conn.All Separate)) (removeAppBackground env appId) := by
  have hcommit : ∀ s, Within (Keeps (Conn.All Separate)) (env.commit s) :=
    fun s => Session.keeps_commit _
  have hdelete : Within (Keeps (Conn.All Separate))
      (env.execute .deleteApp (Tables.deleteApp appId)) :=
    Env.keeps_execute fun _ _ => separate_deleteApp
  have hrecord : Within (Keeps (Conn.All Separate))
      (env.execute .recordError (Tables.updateApp appId (AppRow.setError removalFailed))) :=
    Env.keeps_execute fun _ _ => separate_setError
  refine Proc.within_tryExcept (within_bind Session.keeps_select fun t => ?_) fun _ => ?_
  · split
    · exact Proc.within_pure ()
    · exact within_bind hdelete fun _ => hcommit .commitRemoval
  · exact Proc.within_tryExcept (within_bind hrecord fun _ => hcommit .commitError)
      fun _ => Proc.within_pure ()

end Removal

/-! ## Runs -/

/-- What every event preserves that spares the ports of the apps. -/
structure Apart (c : Conn Tables) : Prop where
  separate : c.All Separate
  kept : ∀ a ∈ c.committed.apps, a ∈ c.seen.apps

theorem apart_fresh {t : Tables} (h : Separate t) : Apart (Conn.fresh t) :=
  ⟨⟨h, h⟩, fun _ ha => ha⟩

theorem apart_of_next {range : PortRange} {c c' : Conn Tables} {e : Event} (hc : Apart c)
    (hspares : e.Spares range c) (h : e.next range c = some c') : Apart c' := by
  cases e with
  | install env req =>
    rw [Event.next] at h
    split at h
    · cases h
      exact apart_fresh (separate_insertAndDeploy hspares (fun _ ha => ha)
        (apart_fresh hc.separate.1).separate).1
    · cases h
  | installDefault env req =>
    cases h
    exact ⟨separate_insertAndDeploy hspares hc.kept hc.separate,
      kept_insertAndDeploy range env req hc.kept⟩
  | closeSetup =>
    cases h
    exact apart_fresh hc.separate.1
  | reload env appId repoPath =>
    rw [Event.next] at h
    split at h
    · cases h
      -- the ports of the apps are the same before and after
      have havoids := avoids_reloadAppBackground range hspares
        (avoids_iff.mpr ⟨rfl, hc.separate.1⟩)
      exact apart_fresh (avoids_iff.mp havoids.1).2
    · cases h
  | remove env appId =>
    rw [Event.next] at h
    split at h
    · cases h
      exact apart_fresh (keeps_removeAppBackground _ (apart_fresh hc.separate.1).separate).1
    · cases h

/-- In every run whose installs and reloads spare the ports of the apps, all committed ports are
distinct. -/
theorem distinct_of_reaches (range : PortRange) {t : Tables} (ht : Distinct t.toRows)
    {c : Conn Tables} (h : Reach (fun c (e : Event) c' => e.next range c = some c')
      (fun c e => e.Spares range c) (Conn.fresh t) c) : Distinct c.committed.toRows := by
  have hapart : Apart c := h.invariant Apart (apart_fresh ((distinct_iff t).mp ht))
    fun _ _ _ hc hspares hnext => apart_of_next hc hspares hnext
  exact (distinct_iff _).mpr hapart.separate.1

/-! ## An app that maps a port -/

/-- An app with one mapping, for which the owner asks for a port of the host. -/
def mailRequest (hostPort : Int) : Request where
  manifest :=
    { name := "mail"
      portMappings := [⟨"smtp", 25, 0⟩]
      parsed := ⟨by decide, by decide, by decide, by decide, by decide⟩ }
  portOverrides := [("smtp", hostPort)]

/-- It is installed on a host whose ports are all free. -/
def mailEnv : Env where
  host _ := Host.idle
  draws := ["m"]
  tokenHash := ""

/-- A range that is not empty begins with its first port. -/
theorem PortRange.ports_cons (range : PortRange) {n : Nat}
    (h : (range.stop + 1 - range.start).toNat = n + 1) :
    ∃ ports, range.ports = range.start :: ports := by
  refine ⟨(List.range n).map fun i => range.start + (i + 1 : Nat), ?_⟩
  rw [PortRange.ports, h, List.range_succ_eq_map]
  simp [Function.comp_def, List.flatMap_map, ← List.map_eq_flatMap]

/-- On an empty database the new app gets the first port, and maps another one. -/
theorem distinct_of_reaches_mail :
    ∃ c, (Event.next {} (Conn.fresh .empty) (.install mailEnv (mailRequest 9500))) = some c ∧
      c.committed.localPorts = [9000] ∧ c.committed.hostPorts = [9500] ∧
      Distinct c.committed.toRows := by
  have hspares : Event.Spares {} (Conn.fresh .empty) (.install mailEnv (mailRequest 9500)) := by
    rintro port ⟨pre, post, hports, -, -, hpre⟩
    obtain ⟨ports, hfirst⟩ := PortRange.ports_cons {} (n := 999) (by decide)
    rw [hfirst] at hports
    -- nothing keeps the install from the first port of the range
    obtain rfl : pre = [] := by
      cases pre with
      | nil => rfl
      | cons q pre =>
        rcases hpre q (List.mem_cons_self) with hused | hrefused
        · exact absurd hused (List.not_mem_nil)
        · cases hrefused
    obtain rfl : 9000 = port := (List.cons.inj hports).1
    refine ⟨List.not_mem_nil, by decide, fun ports hpicks => ?_⟩
    cases hpicks
    exact List.not_mem_nil
  have hports : (Event.next {} (Conn.fresh .empty) (.install mailEnv (mailRequest 9500))).any
      (fun c => c.committed.localPorts = [9000] && c.committed.hostPorts = [9500]) = true := by
    decide +kernel
  obtain ⟨c, hnext, hports⟩ := (Option.any_eq_true _ _).mp hports
  simp only [Bool.and_eq_true, decide_eq_true_eq] at hports
  have hstart : Distinct (Tables.empty).toRows := by
    rw [distinct_iff]
    exact fun _ hmem => absurd hmem List.not_mem_nil
  exact ⟨c, hnext, hports.1, hports.2,
    distinct_of_reaches {} hstart (.step .refl hspares hnext)⟩

/-- The port of a new app is not kept from its own mappings. -/
theorem own_port_mapped :
    ∃ c, Reach (fun c (e : Event) c' => e.next {} c = some c') (fun _ _ => True)
        (Conn.fresh .empty) c ∧
      c.committed.localPorts = [9000] ∧ c.committed.hostPorts = [9000] ∧
      ¬ Distinct c.committed.toRows := by
  have hrun : (runAll (fun c e => Event.next {} c e) (fun _ _ => True) (Conn.fresh .empty)
      [.install mailEnv (mailRequest 9000)]).any
      (fun c => c.committed.localPorts = [9000] && c.committed.hostPorts = [9000]) = true := by
    decide +kernel
  obtain ⟨c, hc, hports⟩ := (Option.any_eq_true _ _).mp hrun
  simp only [Bool.and_eq_true, decide_eq_true_eq] at hports
  obtain ⟨hlocal, hhost⟩ := hports
  refine ⟨c, reach_of_run hc, hlocal, hhost, ?_⟩
  rw [Distinct, hlocal, hhost]
  decide

end OpenHost.Install

import OpenHost.Install.Deploy
import OpenHost.Install.ResolvedPorts
import OpenHost.Manifest.Permissions

/-!
# Ports that an install asks for

A port comes from `[[ports]]` of the manifest or from the overrides of the request, and goes through
`resolve_port_mappings` to the table.  What the manifest declares has been checked by the parser, an
override only by what the host lets be bound.
-/

namespace OpenHost.Install

open Manifest (DeclaredPort parsePort parsePorts orRaise_eq_ok_iff)
open Raises

/-! ## What the parser has checked -/

/-- The mapping as the tables have it: a Boolean is stored as a number. -/
def declared (pm : DeclaredPort) : PortMapping :=
  ⟨pm.label, pm.containerPort.toInt, pm.hostPort.toInt⟩

/-- The ports of a manifest are numbers that are not negative. -/
def NonNegative (pm : DeclaredPort) : Prop := 0 ≤ pm.containerPort.toInt ∧ 0 ≤ pm.hostPort.toInt

theorem nonNegative?_eq_some {v : Option Toml.Value} {n : Manifest.PyInt}
    (h : Manifest.nonNegative? v = some n) : 0 ≤ n.toInt := by
  unfold Manifest.nonNegative? at h
  exact of_decide_eq_true (Option.filter_eq_some_iff.mp h).2

theorem nonEmptyStr?_eq_some {v : Option Toml.Value} {s : String}
    (h : Manifest.nonEmptyStr? v = some s) : s ≠ "" := by
  unfold Manifest.nonEmptyStr? at h
  exact of_decide_eq_true (Option.filter_eq_some_iff.mp h).2

/-- One entry: it is checked on its own and against the entries before it. -/
theorem parsePort_ok {parsed parsed' : List DeclaredPort} {entry : Toml.Value}
    (h : parsePort parsed entry = .ok parsed') :
    ∃ pm, parsed' = parsed ++ [pm] ∧ NonNegative pm ∧ pm.label ≠ "" ∧
      pm.label ∉ parsed.map DeclaredPort.label ∧
      pm.containerPort.toInt ∉ (parsed.map fun pm => pm.containerPort.toInt) ∧
      (pm.hostPort.toInt = 0 ∨ unprivilegedPortFloor ≤ pm.hostPort.toInt) ∧
      (pm.hostPort.toInt = 0 ∨ pm.hostPort.toInt ∉ parsed.map fun pm => pm.hostPort.toInt) := by
  unfold parsePort at h
  simp only [bind_eq_ok_iff, require_eq_ok_iff, orRaise_eq_ok_iff, decide_eq_true_eq] at h
  obtain ⟨_, _, label, hlabel, _, hnew, cport, hcport, _, hcnew, hport, hhport, _, hfloor, _, hhnew,
    heq⟩ := h
  exact ⟨⟨label, cport, hport⟩, (Except.ok.inj heq).symm,
    ⟨nonNegative?_eq_some hcport, nonNegative?_eq_some hhport⟩, nonEmptyStr?_eq_some hlabel, hnew,
    hcnew, hfloor, hhnew⟩

theorem portsParsed_append {ports : List PortMapping} {pm : PortMapping} (h : PortsParsed ports)
    (hlabel : pm.label ≠ "") (hnew : pm.label ∉ ports.map PortMapping.label)
    (hcnew : pm.containerPort ∉ ports.map PortMapping.containerPort)
    (hfloor : pm.hostPort = 0 ∨ unprivilegedPortFloor ≤ pm.hostPort)
    (hhnew : pm.hostPort = 0 ∨ pm.hostPort ∉ ports.map PortMapping.hostPort) :
    PortsParsed (ports ++ [pm]) where
  named := by simpa [or_imp, forall_and] using And.intro h.named hlabel
  labels := by
    rw [List.map_append]
    exact h.labels.append (List.nodup_singleton _) (by simpa using hnew)
  containerPorts := by
    rw [List.map_append]
    exact h.containerPorts.append (List.nodup_singleton _) (by simpa using hcnew)
  hostPorts := by
    rw [List.map_append, List.filter_append]
    by_cases hzero : pm.hostPort = 0
    · simpa [hzero] using h.hostPorts
    · have hmem := hhnew.resolve_left hzero
      refine h.hostPorts.append (by simp [hzero]) ?_
      simpa [hzero] using hmem
  floor := by simpa [or_imp, forall_and] using And.intro h.floor hfloor

/-- What the parser has checked of a list of ports. -/
def Accepted (ports : List DeclaredPort) : Prop :=
  PortsParsed (ports.map declared) ∧ ∀ pm ∈ ports, NonNegative pm

theorem accepted_nil : Accepted [] := ⟨⟨by simp, by simp, by simp, by simp, by simp⟩, by simp⟩

/-- The ports of a list that was accepted. -/
theorem accepted_of_parsePorts {portsList : Toml.Value} {ports : List DeclaredPort}
    (h : parsePorts portsList = .ok ports) : Accepted ports := by
  obtain ⟨entries, -, hloop⟩ := bind_eq_ok_iff.mp h
  refine foldlM_ok_invariant (fun parsed entry parsed' _ hparsed hstep => ?_) accepted_nil
    hloop
  obtain ⟨pm, rfl, hnonneg, hlabel, hnew, hcnew, hfloor, hhnew⟩ := parsePort_ok hstep
  obtain ⟨hports, hall⟩ := hparsed
  refine ⟨?_, by simpa [or_imp, forall_and] using And.intro hall hnonneg⟩
  rw [List.map_append]
  refine portsParsed_append hports hlabel ?_ ?_ hfloor ?_
  · simpa [declared, List.map_map, Function.comp_def] using hnew
  · simpa [declared, List.map_map, Function.comp_def] using hcnew
  · simpa [declared, List.map_map, Function.comp_def] using hhnew

theorem parsePorts_of_parse {rt : Manifest.Runtime} {rawText : String} {m : Manifest.AppManifest}
    (h : Manifest.parseManifestFromString rt rawText = .ok m) :
    ∃ portsList, parsePorts portsList = .ok m.portMappings := by
  obtain ⟨s, -, hbuild⟩ := bind_eq_ok_iff.mp h
  unfold Manifest.buildManifest at hbuild
  simp only [bind_eq_ok_iff] at hbuild
  obtain ⟨portMappings, hports, _, _, _, _, _, _, _, _, _, _, _, _, _, _, _, _, _, _, hm⟩ := hbuild
  exact ⟨_, by rw [← Except.ok.inj hm, hports]⟩

/-! ## What the host has let be bound -/

/-- The host with the ports that a socket can have. -/
def Host.clip (h : Host) : Host :=
  { h with bindable := fun port => decide (0 ≤ port ∧ port ≤ 65535) && h.bindable port }

theorem portIsBindable_clip (h : Host) (port : Int) :
    portIsBindable h.clip.bindable port = portIsBindable h.bindable port := by
  unfold portIsBindable
  split
  · next hport => simp [Host.clip, hport]
  · rfl

theorem firstFree_clip (used : List Int) (h : Host) (ports : List Int) :
    firstFree used h.clip.bindable ports = firstFree used h.bindable ports := by
  induction ports with
  | nil => rfl
  | cons port ports ih => rw [firstFree, firstFree, portIsBindable_clip, ih]

/-- A port beyond those of a socket raises anyway. -/
theorem resolvePortMappings_clip (mappings : List PortMapping) (t : Rows) (range : PortRange)
    (excludeAppId : Option String) (host : List Int → String → Host) :
    resolvePortMappings mappings t range excludeAppId (fun claimed label => (host claimed label).clip) =
      resolvePortMappings mappings t range excludeAppId host := by
  have hfixed : resolveFixed t excludeAppId (fun claimed label => (host claimed label).clip) =
      resolveFixed t excludeAppId host := by
    funext b pm
    simp only [resolveFixed, checkPortAvailable, portIsBindable_clip]
  have hauto : resolveAuto range t excludeAppId (fun claimed label => (host claimed label).clip) =
      resolveAuto range t excludeAppId host := by
    funext b pm
    simp only [resolveAuto, findFreeHostPort, firstFree_clip]
    rfl
  rw [resolvePortMappings, hfixed, hauto, resolvePortMappings]

theorem exists_of_forall₂ {α β : Type} {R : α → β → Prop} {l : List α} {l' : List β}
    (h : List.Forall₂ R l l') : ∀ b ∈ l', ∃ a ∈ l, R a b := by
  induction h with
  | nil => simp
  | cons hab _ ih =>
    intro b hb
    rcases List.mem_cons.mp hb with rfl | hb
    · exact ⟨_, List.mem_cons_self, hab⟩
    · obtain ⟨a, ha, hr⟩ := ih b hb
      exact ⟨a, List.mem_cons_of_mem _ ha, hr⟩

/-- A mapping that comes out serves one that was asked for, with a port that a socket can have. -/
theorem serves_of_resolved {mappings resolved : List PortMapping} {t : Tables} {range : PortRange}
    {excludeAppId : Option String} {host : List Int → String → Host}
    (h : resolvePortMappings mappings t.toRows range excludeAppId host = .ok resolved) :
    ∀ r ∈ resolved, (0 ≤ r.hostPort ∧ r.hostPort ≤ 65535) ∧ ∃ pm ∈ mappings, Serves range pm r := by
  rw [← resolvePortMappings_clip] at h
  have hclip : ∀ {c : List Int} {label : String} {port : Int},
      (host c label).clip.bindable port = true → 0 ≤ port ∧ port ≤ 65535 := by
    intro c label port hport
    exact of_decide_eq_true (Bool.and_eq_true_iff.mp hport).1
  obtain ⟨ports, hpicks, rfl, havail⟩ := resolvePortMappings_ok h
  have hpicked := hpicks.bound_in_range
  intro r hr
  rcases List.mem_append.mp hr with hfixed | hauto
  · obtain ⟨c, hc⟩ := havail r hfixed
    obtain ⟨hmem, hne⟩ := List.mem_filter.mp hfixed
    have hne : r.hostPort ≠ 0 := by simpa using hne
    exact ⟨hclip (checkPortAvailable_ok hc).1, r, hmem, rfl, rfl, fun _ => rfl,
      fun hzero => absurd hzero hne⟩
  · obtain ⟨-, c, label, hbound⟩ := hpicked _ (mem_assign hauto)
    have hserves : List.Forall₂ (Serves range) (autoMappings mappings)
        (assign (autoMappings mappings) ports) :=
      forall₂_serves_assign hpicks.length_eq (fun pm hpm => by simpa using (List.mem_filter.mp hpm).2)
        fun port hport => (hpicked port hport).1
    obtain ⟨pm, hpm, hpr⟩ := exists_of_forall₂ hserves r hauto
    exact ⟨hclip hbound, pm, (List.mem_filter.mp hpm).1, hpr⟩

/-! ## What reaches the table -/

/-- What is true of the ports of a row that an install has written. -/
structure PortsAdmitted (range : PortRange) (overrides : List (String × Int))
    (ports : List DeclaredPort) (row : PortMappingRow) : Prop where
  hostPort : 0 ≤ row.hostPort ∧ row.hostPort ≤ 65535
  /-- With a range of actual ports, so is the port of the row. -/
  positive : 1 ≤ range.start → 1 ≤ row.hostPort
  containerPort : 0 ≤ row.containerPort
  /-- A port that the manifest asks for, and that the request does not override. -/
  floor : ∀ pm ∈ ports, pm.label = row.label → overrides.lookup pm.label = none →
    pm.hostPort.toInt ≠ 0 → unprivilegedPortFloor ≤ row.hostPort

/-- The request is for the ports of this manifest. -/
def Request.RequestsPorts (req : Request) (m : Manifest.AppManifest) : Prop :=
  req.manifest.portMappings = m.portMappings.map declared

theorem portsAdmitted_of_resolved {range : PortRange} {req : Request} {m : Manifest.AppManifest}
    (hreq : req.RequestsPorts m) (haccepted : Accepted m.portMappings) {t : Tables}
    {host : List Int → String → Host} {resolved : List PortMapping}
    (h : resolvePortMappings req.mappings t.toRows range none host = .ok resolved) (appId : String) :
    ∀ r ∈ resolved, PortsAdmitted range req.portOverrides m.portMappings (mappingRow appId r) := by
  intro r hr
  obtain ⟨hbounds, pm, hpm, hserves⟩ := serves_of_resolved h r hr
  obtain ⟨d, hd, rfl⟩ := List.mem_map.mp hpm
  rw [hreq] at hd
  obtain ⟨decl, hdecl, rfl⟩ := List.mem_map.mp hd
  refine ⟨hbounds, fun hstart => ?_, ?_, fun decl' hdecl' hlabel hover hne => ?_⟩
  · show 1 ≤ r.hostPort
    by_cases hzero : (req.portOverrides.lookup decl.label).getD decl.hostPort.toInt = 0
    · have hrange := hserves.automatic hzero
      omega
    · have hne : r.hostPort ≠ 0 := by
        rw [hserves.asked hzero]
        exact hzero
      omega
  · show 0 ≤ r.containerPort
    rw [hserves.containerPort]
    exact (haccepted.2 decl hdecl).1
  · show unprivilegedPortFloor ≤ r.hostPort
    -- the labels tell the declared ports apart
    have hsame : declared decl' = declared decl := List.inj_on_of_nodup_map haccepted.1.labels
      (List.mem_map_of_mem hdecl') (List.mem_map_of_mem hdecl) (hlabel.trans hserves.label)
    have hover' : req.portOverrides.lookup decl.label = none := by
      rwa [show decl.label = decl'.label from (congrArg PortMapping.label hsame).symm]
    have hport : decl.hostPort.toInt = decl'.hostPort.toInt :=
      (congrArg PortMapping.hostPort hsame).symm
    have hasks : (req.portOverrides.lookup decl.label).getD decl.hostPort.toInt =
        decl.hostPort.toInt := by rw [hover', Option.getD_none]
    have hasked : r.hostPort = decl.hostPort.toInt := by
      rw [← hasks]
      refine hserves.asked fun hzero => hne ?_
      rw [← hport, ← hasks]
      exact hzero
    have hfloor := haccepted.1.floor (declared decl) (List.mem_map_of_mem hdecl)
    rw [hasked]
    exact hfloor.resolve_left fun hzero => hne (hport.symm.trans hzero)

/-- Whatever an install does, the ports of the rows that it adds are admitted. -/
theorem insertAndDeploy_ports {rt : Manifest.Runtime} {rawText : String} {m : Manifest.AppManifest}
    (hm : Manifest.parseManifestFromString rt rawText = .ok m) {req : Request}
    (hreq : req.RequestsPorts m) (range : PortRange) (env : Env) (c : Conn Tables) :
    ∀ t, t = (insertAndDeploy range env req c).2.committed ∨
        t = (insertAndDeploy range env req c).2.seen →
      ∀ row ∈ t.portMappings, row ∈ c.committed.portMappings ∨ row ∈ c.seen.portMappings ∨
        PortsAdmitted range req.portOverrides m.portMappings row := by
  obtain ⟨portsList, hports⟩ := parsePorts_of_parse hm
  intro t ht row hrow
  rcases insertAndDeploy_adds range env req c with hsame | ⟨app, resolved, hprep, hall⟩
  · rw [hsame] at ht
    rcases ht with rfl | rfl
    · exact .inl hrow
    · exact .inr (.inl hrow)
  · have hadmitted := portsAdmitted_of_resolved hreq (accepted_of_parsePorts hports) hprep.resolved
      app.appId
    have hadds : Adds app resolved c.committed t ∨ Adds app resolved c.seen t := by
      rcases ht with rfl | rfl
      · exact hall.1
      · exact hall.2
    rcases hadds with hadds | hadds
    · rcases hadds.portMappings row hrow with hold | ⟨pm, hpm, rfl⟩
      · exact .inl hold
      · exact .inr (.inr (hadmitted pm hpm))
    · rcases hadds.portMappings row hrow with hold | ⟨pm, hpm, rfl⟩
      · exact .inr (.inl hold)
      · exact .inr (.inr (hadmitted pm hpm))

/-! ## A port without a number -/

/-- What the reader makes of a manifest with one port. -/
def onePortTables (port : Toml.Table) : Toml.Table :=
  [("app", .table [("name", .str "relay"), ("version", .str "1")]),
    ("runtime", .table [("container", .table [("image", .str "Dockerfile"), ("port", .int 80)])]),
    ("ports", .array [.table port])]

/-- The text, with the lines of the port. -/
def onePortText (port : String) : String :=
  "app = \x7b name = 'relay', version = '1' \x7d\n" ++
  "runtime.container = \x7b image = 'Dockerfile', port = 80 \x7d\n[[ports]]\n" ++ port

theorem portsParsed_ephemeral : PortsParsed [⟨"ephemeral", 0, 0⟩] :=
  ⟨by decide, by decide, by decide, by decide, by decide⟩

def ephemeralText : String := onePortText "label = 'ephemeral'\ncontainer_port = 0\n"

def ephemeralTables : Toml.Table := onePortTables [("label", .str "ephemeral"), ("container_port", .int 0)]

def ephemeralRequest : Request where
  manifest := { name := "relay", portMappings := [⟨"ephemeral", 0, 0⟩], parsed := portsParsed_ephemeral }

/-- A host whose ports are all free, and are gone through from the last one. -/
def relayEnv : Env where
  host _ := { Host.idle with shuffle := List.reverse, perm := List.reverse_perm }
  draws := ["r"]
  tokenHash := ""

/-- The install of the manifest on a server without apps. -/
def relayInstall : Outcome Raised String × Conn Tables :=
  insertAndDeploy {} relayEnv ephemeralRequest (Conn.fresh .empty)

theorem exists_parse_ephemeral :
    ∃ m, Manifest.parseManifestFromString (.reading [(ephemeralText, ephemeralTables)]) ephemeralText =
        .ok m ∧ ephemeralRequest.RequestsPorts m := by
  have hdistinct : (Toml.Value.table ephemeralTables).distinctKeys = true := by decide
  apply Exists.intro
  constructor
  · rw [Manifest.parseManifestFromString, Manifest.parseSections, Manifest.loads_reading (by decide) hdistinct]
    rfl
  · rfl

theorem relayInstall_admitted :
    ∃ m, Manifest.parseManifestFromString (.reading [(ephemeralText, ephemeralTables)]) ephemeralText =
        .ok m ∧ ephemeralRequest.RequestsPorts m ∧
      ∀ row ∈ relayInstall.2.committed.portMappings,
        PortsAdmitted {} ephemeralRequest.portOverrides m.portMappings row := by
  obtain ⟨m, hm, hreq⟩ := exists_parse_ephemeral
  refine ⟨m, hm, hreq, fun row hrow => ?_⟩
  have hports := insertAndDeploy_ports hm hreq {} relayEnv (Conn.fresh .empty)
  rw [← relayInstall] at hports
  rcases hports _ (.inl rfl) row hrow with hold | hold | hadmitted
  · cases hold
  · cases hold
  · exact hadmitted

/-- The container port 0 is accepted, and reaches the table. -/
theorem relayInstall_zero :
    ∃ m, Manifest.parseManifestFromString (.reading [(ephemeralText, ephemeralTables)]) ephemeralText =
        .ok m ∧ ephemeralRequest.RequestsPorts m ∧
      (⟨"r", "ephemeral", 0, 9999⟩ : PortMappingRow) ∈ relayInstall.2.committed.portMappings := by
  obtain ⟨m, hm, hreq⟩ := exists_parse_ephemeral
  exact ⟨m, hm, hreq, by decide +kernel⟩

end OpenHost.Install

import OpenHost.Install.Ports

/-!
# What a batch of port mappings is resolved to

`resolve_port_mappings` goes through the mappings twice, first for the ports that are asked for and
then for those that are picked at random.  Both passes share the ports claimed so far, so what comes
out is a permutation of the requests with distinct ports, each of them free on the host and no other
app's.
-/

namespace OpenHost.Install

/-! ## The statement -/

/-- The host with these ports free; the shuffles are still its own. -/
def Host.withFree (free : Int → Bool) (h : Host) : Host := { h with bindable := free }

/-- `r` is the request `pm` with a port: the one it asks for, or one of the range. -/
structure Serves (range : PortRange) (pm r : PortMapping) : Prop where
  label : r.label = pm.label
  containerPort : r.containerPort = pm.containerPort
  asked : pm.hostPort ≠ 0 → r.hostPort = pm.hostPort
  automatic : pm.hostPort = 0 → range.start ≤ r.hostPort ∧ r.hostPort ≤ range.stop

/-- No app but the excluded one has the port, as its own or mapped. -/
def UnusedByOthers (t : Rows) (excludeAppId : Option String) (port : Int) : Prop :=
  ∀ a ∈ t.apps, some a.appId ≠ excludeAppId →
    a.localPort ≠ port ∧ ∀ m ∈ t.portMappings, m.appId = a.appId → m.hostPort ≠ port

/-- The mappings are resolved to these. -/
structure ResolvedTo (range : PortRange) (t : Rows) (excludeAppId : Option String)
    (free : Int → Bool) (mappings resolved : List PortMapping) : Prop where
  permuted : ∃ requests, requests.Perm mappings ∧ List.Forall₂ (Serves range) requests resolved
  distinct : (resolved.map PortMapping.hostPort).Nodup
  free : ∀ r ∈ resolved, free r.hostPort = true
  unused : ∀ r ∈ resolved, UnusedByOthers t excludeAppId r.hostPort

/-- `resolve_port_mappings` on a connection: all its statements are `SELECT`s. -/
def resolveOn (mappings : List PortMapping) (range : PortRange) (excludeAppId : Option String)
    (host : List Int → String → Host) : Session PyError Tables (List PortMapping) := do
  let t ← Session.select
  Proc.ofExcept (resolvePortMappings mappings t.toRows range excludeAppId host)

/-! ## Ports of others -/

theorem mem_ports_iff {range : PortRange} {port : Int} :
    port ∈ range.ports ↔ range.start ≤ port ∧ port ≤ range.stop := by
  simp only [PortRange.ports, List.mem_map, List.bind_eq_flatMap, List.mem_flatMap, List.pure_def,
    List.mem_singleton, List.mem_range]
  constructor
  · rintro ⟨_, ⟨n, hn, rfl⟩, rfl⟩
    omega
  · rintro ⟨hstart, hstop⟩
    exact ⟨port - range.start, ⟨(port - range.start).toNat, by omega, by omega⟩, by omega⟩

theorem isOther_of_ne {excludeAppId : Option String} {m : PortMappingRow}
    (h : some m.appId ≠ excludeAppId) : isOther excludeAppId m = true := by
  cases excludeAppId with
  | none => rfl
  | some appId =>
    have hne : m.appId ≠ appId := fun heq => h (congrArg some heq)
    simp [isOther, hne]

/-- A port that the random choice leaves aside belongs to no other app. -/
theorem unusedByOthers_of_not_usedPorts {t : Rows} {excludeAppId : Option String} {port : Int}
    (h : port ∉ usedPorts t excludeAppId) : UnusedByOthers t excludeAppId port := by
  intro a ha hother
  rw [usedPorts, List.mem_append, not_or] at h
  refine ⟨fun hport => h.1 (List.mem_map.mpr ⟨a, ha, hport⟩), fun m hm howner hport => h.2 ?_⟩
  have hkept : isOther excludeAppId m = true := isOther_of_ne (by rwa [howner])
  exact List.mem_map.mpr ⟨m, List.mem_filter.mpr ⟨hm, hkept⟩, hport⟩

/-- A port that is available belongs to no other app. -/
theorem unusedByOthers_of_available {t : Tables} {excludeAppId : Option String} {port : Int}
    {bindable : Int → Bool}
    (h : checkPortAvailable port t.toRows excludeAppId bindable = .ok none) :
    UnusedByOthers t.toRows excludeAppId port := by
  intro a ha hother
  refine ⟨fun hport => hother ((checkPortAvailable_ok h).2 a ha hport), fun m hm howner hport => ?_⟩
  -- the join finds the app of the mapping, so the mapping would have been reported
  have hmapping : mappingUser t.toRows excludeAppId port = none := by
    unfold checkPortAvailable at h
    split at h
    · cases h
    · cases h
    · assumption
  have hnone := List.findSome?_eq_none_iff.mp hmapping m hm
  have hkept : isOther excludeAppId m = true := isOther_of_ne (by rwa [howner])
  have hfind : t.findApp m.appId ≠ none := by
    intro hmissing
    have hnot := List.find?_eq_none.mp hmissing a ha
    exact hnot (decide_eq_true howner.symm)
  obtain ⟨row, hrow⟩ := Option.ne_none_iff_exists'.mp hfind
  simp [hport, hkept, hrow] at hnone

/-! ## The two passes -/

section

variable {range : PortRange} {t : Rows} {excludeAppId : Option String}
  {host : List Int → String → Host}

/-- The first pass claims no port twice. -/
theorem resolveFixed_claimed {pms : List PortMapping} {b b' : Batch} (hb : b.1.Nodup)
    (h : pms.foldlM (resolveFixed t excludeAppId host) b = .ok b') : b'.1.Nodup := by
  induction pms generalizing b with
  | nil =>
    obtain rfl := Except.ok.inj h
    exact hb
  | cons pm pms ih =>
    rw [List.foldlM_cons] at h
    cases hstep : resolveFixed t excludeAppId host b pm with
    | error e =>
      rw [hstep] at h
      cases h
    | ok b₁ =>
      rw [hstep] at h
      refine ih ?_ h
      unfold resolveFixed at hstep
      split at hstep
      · obtain rfl := Except.ok.inj hstep
        exact hb
      · cases havail : checkPortAvailable pm.hostPort t excludeAppId
            (host b.1 pm.label).bindable with
        | error e =>
          rw [havail] at hstep
          cases hstep
        | ok usedBy =>
          rw [havail] at hstep
          cases usedBy with
          | some _ => cases hstep
          | none =>
            -- the port joins the claimed ones only when it is not among them
            by_cases hclaimed : pm.hostPort ∈ b.1
            · simp only [hclaimed, if_true] at hstep
              cases hstep
            · simp only [hclaimed, if_false] at hstep
              obtain rfl := Except.ok.inj hstep
              exact List.Nodup.append hb (List.nodup_singleton _) (by simpa using hclaimed)

/-- The random choice adds no port to the claimed ones that is among them. -/
theorem Picks.nodup {pms : List PortMapping} {claimed ports : List Int}
    (h : Picks range t excludeAppId host pms claimed ports) (hclaimed : claimed.Nodup) :
    (claimed ++ ports).Nodup := by
  induction h with
  | nil => simpa using hclaimed
  | @cons pm pms claimed ports port first _ ih =>
    obtain ⟨_, _, _, hused, _⟩ := first
    have hnew : port ∉ claimed := fun hmem => hused (List.mem_append_right _ hmem)
    have hrest := ih (List.Nodup.append hclaimed (List.nodup_singleton _) (by simpa using hnew))
    simpa using hrest

/-- What is picked is a port of the range that the host let be bound. -/
theorem Picks.bound_in_range {pms : List PortMapping} {claimed ports : List Int}
    (h : Picks range t excludeAppId host pms claimed ports) :
    ∀ port ∈ ports, port ∈ range.ports ∧ ∃ c label, (host c label).bindable port = true := by
  induction h with
  | nil => simp
  | @cons pm pms claimed ports port first _ ih =>
    obtain ⟨pre, post, hsplit, -, hbind, -⟩ := first
    intro q hq
    rcases List.mem_cons.mp hq with rfl | hq
    · refine ⟨?_, claimed, pm.label, hbind⟩
      -- the shuffled range has the ports of the range
      rw [← ((host claimed pm.label).perm range.ports).mem_iff, hsplit]
      simp
    · exact ih q hq

/-- What is picked is a free port of the range. -/
theorem Picks.free_in_range {free : Int → Bool} {pms : List PortMapping} {claimed ports : List Int}
    (h : Picks range t excludeAppId (fun c l => (host c l).withFree free) pms claimed ports) :
    ∀ port ∈ ports, port ∈ range.ports ∧ free port = true := by
  intro port hport
  obtain ⟨hrange, c, label, hfree⟩ := h.bound_in_range port hport
  exact ⟨hrange, hfree⟩

end

theorem assign_hostPorts {mappings : List PortMapping} {ports : List Int}
    (h : mappings.length = ports.length) :
    (assign mappings ports).map PortMapping.hostPort = ports := by
  induction mappings generalizing ports with
  | nil =>
    cases ports with
    | nil => rfl
    | cons port ports => simp at h
  | cons pm mappings ih =>
    cases ports with
    | nil => simp at h
    | cons port ports =>
      have hrest : (assign mappings ports).map PortMapping.hostPort = ports := ih (by simpa using h)
      simpa [assign] using hrest

/-- The automatic mappings are served with the picked ports. -/
theorem forall₂_serves_assign {range : PortRange} {mappings : List PortMapping} {ports : List Int}
    (hlen : mappings.length = ports.length) (hauto : ∀ pm ∈ mappings, pm.hostPort = 0)
    (hports : ∀ port ∈ ports, port ∈ range.ports) :
    List.Forall₂ (Serves range) mappings (assign mappings ports) := by
  induction mappings generalizing ports with
  | nil =>
    cases ports with
    | nil => exact .nil
    | cons port ports => simp at hlen
  | cons pm mappings ih =>
    cases ports with
    | nil => simp at hlen
    | cons port ports =>
      have hport : range.start ≤ port ∧ port ≤ range.stop :=
        mem_ports_iff.mp (hports port List.mem_cons_self)
      have hzero : pm.hostPort = 0 := hauto pm List.mem_cons_self
      refine .cons ⟨rfl, rfl, fun h => absurd hzero h, fun _ => hport⟩ ?_
      exact ih (by simpa using hlen) (fun q hq => hauto q (List.mem_cons_of_mem _ hq))
        fun q hq => hports q (List.mem_cons_of_mem _ hq)

theorem forall₂_serves_fixed {range : PortRange} {mappings : List PortMapping}
    (hfixed : ∀ pm ∈ mappings, pm.hostPort ≠ 0) :
    List.Forall₂ (Serves range) mappings mappings :=
  List.forall₂_same.mpr fun pm hpm => ⟨rfl, rfl, fun _ => rfl, fun h => absurd h (hfixed pm hpm)⟩

/-- The ports that the fixed mappings ask for are distinct when the first pass goes through. -/
theorem nodup_of_resolved {range : PortRange} {t : Rows} {excludeAppId : Option String}
    {host : List Int → String → Host} {mappings resolved : List PortMapping}
    (h : resolvePortMappings mappings t range excludeAppId host = .ok resolved) :
    ((fixedMappings mappings).map PortMapping.hostPort).Nodup := by
  unfold resolvePortMappings at h
  cases hfixed : mappings.foldlM (resolveFixed t excludeAppId host) ([], []) with
  | error e =>
    rw [hfixed] at h
    cases h
  | ok fixed =>
    have hclaimed := resolveFixed_claimed List.nodup_nil hfixed
    rw [(resolveFixed_pass hfixed).1] at hclaimed
    simpa using hclaimed

/-! ## The batch -/

theorem resolvedTo_of_ok {range : PortRange} {t : Tables} {excludeAppId : Option String}
    {host : List Int → String → Host} {free : Int → Bool} {mappings resolved : List PortMapping}
    (h : resolvePortMappings mappings t.toRows range excludeAppId
      (fun claimed label => (host claimed label).withFree free) = .ok resolved) :
    ResolvedTo range t.toRows excludeAppId free mappings resolved := by
  have hfixedNodup := nodup_of_resolved h
  obtain ⟨ports, hpicks, rfl, havail⟩ := resolvePortMappings_ok h
  have hassigned := assign_hostPorts hpicks.length_eq
  have hpicked := hpicks.free_in_range
  refine ⟨⟨_, requests_perm mappings, ?_⟩, ?_, fun r hr => ?_, fun r hr => ?_⟩
  · apply List.rel_append
    · exact forall₂_serves_fixed fun pm hpm => by simpa using (List.mem_filter.mp hpm).2
    · exact forall₂_serves_assign hpicks.length_eq
        (fun pm hpm => by simpa using (List.mem_filter.mp hpm).2) fun port hport =>
          (hpicked port hport).1
  · rw [List.map_append, hassigned]
    exact hpicks.nodup hfixedNodup
  · rcases List.mem_append.mp hr with hfixed | hauto
    · obtain ⟨_, havailable⟩ := havail r hfixed
      exact (checkPortAvailable_ok havailable).1
    · exact (hpicked _ (mem_assign hauto)).2
  · rcases List.mem_append.mp hr with hfixed | hauto
    · obtain ⟨_, havailable⟩ := havail r hfixed
      exact unusedByOthers_of_available havailable
    · exact unusedByOthers_of_not_usedPorts (hpicks.not_used _ (mem_assign hauto))

/-- Resolving raises or gives every request a port of its own, and leaves the connection as it
was. -/
theorem resolveOn_raises_or_resolves (mappings : List PortMapping) (range : PortRange)
    (excludeAppId : Option String) (host : List Int → String → Host) (free : Int → Bool)
    (c : Conn Tables) :
    let answer := resolveOn mappings range excludeAppId
      (fun claimed label => (host claimed label).withFree free) c
    answer.2 = c ∧
      ((∃ e, answer.1 = .raised e) ∨
        ∃ resolved, answer.1 = .ok resolved ∧
          ResolvedTo range c.seen.toRows excludeAppId free mappings resolved) := by
  intro answer
  cases hresolve : resolvePortMappings mappings c.seen.toRows range excludeAppId
      (fun claimed label => (host claimed label).withFree free) with
  | error e =>
    have hanswer : answer = (.raised e, c) := by
      simp only [answer, resolveOn, Proc.bind_apply, Session.select_apply, hresolve]
      rfl
    exact ⟨by rw [hanswer], .inl ⟨e, by rw [hanswer]⟩⟩
  | ok resolved =>
    have hanswer : answer = (.ok resolved, c) := by
      simp only [answer, resolveOn, Proc.bind_apply, Session.select_apply, hresolve]
      rfl
    exact ⟨by rw [hanswer], .inr ⟨resolved, by rw [hanswer], resolvedTo_of_ok hresolve⟩⟩

end OpenHost.Install

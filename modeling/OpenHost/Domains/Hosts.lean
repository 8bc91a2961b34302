import Mathlib.Data.List.Nodup
import OpenHost.Domains.Primary

/-!
# One row for a host

Which rows denote one host, compared without port and case, and which row an operation addresses that is
given a name of it.  `get_record` takes port and case off on both sides; `upsert_record`, the removals
and `set_record_status` put the name they are given in lower case and compare it with the stored one;
`seed_domains` stores what it is given.
-/

namespace OpenHost.Domains

open Text (lower before)
open Tx (Prog Store Action Sound)
open Domain (hostNoPort)

/-! ## Hosts -/

/-- The hosts of the rows. -/
def hosts (rows : List DomainRecord) : List String := rows.map fun r => hostNoPort r.name

/-- No two rows denote the same host. -/
def HostsDistinct (rows : List DomainRecord) : Prop := (hosts rows).Nodup

instance (rows : List DomainRecord) : Decidable (HostsDistinct rows) :=
  inferInstanceAs (Decidable (hosts rows).Nodup)

/-- The row that `get_record` finds by the name is the one that the other operations address by it. -/
def Agree (rows : List DomainRecord) (name : String) : Prop :=
  ∀ r, getRecord rows name = some r ↔ r ∈ rows ∧ r.name = lower name

/-- The host of the name is stored under this name, in lower case, or not at all. -/
def StoredAs (rows : List DomainRecord) (name : String) : Prop :=
  ∀ r ∈ rows, hostNoPort r.name = hostNoPort name → r.name = lower name

instance (rows : List DomainRecord) (name : String) : Decidable (StoredAs rows name) :=
  inferInstanceAs (Decidable (∀ r ∈ rows, hostNoPort r.name = hostNoPort name → r.name = lower name))

@[simp] theorem hostNoPort_lower (name : String) : hostNoPort (lower name) = hostNoPort name := by
  rw [hostNoPort, Text.before_lower, Text.lower_lower, hostNoPort]

/-! ## Agreement -/

section

variable {rows : List DomainRecord} {name : String}

theorem getRecord_host {r : DomainRecord} (h : getRecord rows name = some r) :
    r ∈ rows ∧ hostNoPort r.name = hostNoPort name := by
  unfold getRecord at h
  have hhost := List.find?_some h
  exact ⟨List.mem_of_find?_eq_some h, of_decide_eq_true hhost⟩

/-- With one row for a host, `get_record` finds every row of the host. -/
theorem getRecord_of_host (hdistinct : HostsDistinct rows) {r : DomainRecord} (hr : r ∈ rows)
    (hhost : hostNoPort r.name = hostNoPort name) : getRecord rows name = some r := by
  cases hfind : getRecord rows name with
  | none =>
    have hnone := List.find?_eq_none.mp hfind r hr
    exact absurd (decide_eq_true hhost) hnone
  | some r' =>
    obtain ⟨hr', hhost'⟩ := getRecord_host hfind
    rw [List.inj_on_of_nodup_map hdistinct hr' hr (hhost'.trans hhost.symm)]

/-- With one row for a host, `get_record` and the other operations address the same row by a name exactly
when its host is stored under it. -/
theorem agree_iff_storedAs (hdistinct : HostsDistinct rows) : Agree rows name ↔ StoredAs rows name := by
  constructor
  · intro hagree r hr hhost
    exact ((hagree r).mp (getRecord_of_host hdistinct hr hhost)).2
  · intro hstored r
    constructor
    · intro hfind
      obtain ⟨hr, hhost⟩ := getRecord_host hfind
      exact ⟨hr, hstored r hr hhost⟩
    · rintro ⟨hr, hname⟩
      refine getRecord_of_host hdistinct hr ?_
      rw [hname, hostNoPort_lower]

end

/-! ## The table as a map from hosts to rows -/

/-- What an operation that is given a name makes of the row of its host; none stands for no row. -/
def DomainOp.onHost : DomainOp → Option (String × (Option DomainRecord → Option DomainRecord))
  | .upsertRecord record =>
      some (record.name, fun row =>
        some ((row.map (replaceFields record)).getD { record with name := lower record.name }))
  | .removeRecord name => some (name, fun _ => none)
  | .removeNonPrimaryRecord name => some (name, Option.filter (·.isPrimary))
  | .setRecordStatus name certStatus errorMessage =>
      some (name, Option.map fun r => { r with certStatus, errorMessage })
  | .seedDomains _ _ | .setPrimaryDomain _ => none

/-- The row of the host of `name` becomes what `f` makes of it; the rows of other hosts stay. -/
def Updates (name : String) (f : Option DomainRecord → Option DomainRecord)
    (rows rows' : List DomainRecord) : Prop :=
  ∀ host, getRecord rows' host =
    if hostNoPort host = hostNoPort name then f (getRecord rows name) else getRecord rows host

/-- The names that `seed_domains` is given. -/
def seedNames (primary : Domain) (extras : List DomainRecord) : List String :=
  primary.name :: extras.map DomainRecord.name

/-- The names given to an operation spell each host in one way: those of `seed_domains` up to the port,
and none of them is of a host that is stored; the others as the host is stored. -/
def OneSpelling (rows : List DomainRecord) : DomainOp → Prop
  | .seedDomains primary extras =>
      (∀ n ∈ seedNames primary extras, ∀ m ∈ seedNames primary extras,
        hostNoPort n = hostNoPort m → before ':' n = before ':' m) ∧
      ∀ n ∈ seedNames primary extras, hostNoPort n ∉ hosts rows
  | .upsertRecord record => StoredAs rows record.name
  | .removeRecord name | .removeNonPrimaryRecord name | .setRecordStatus name _ _ =>
      StoredAs rows name
  | .setPrimaryDomain _ => True

instance (rows : List DomainRecord) (op : DomainOp) : Decidable (OneSpelling rows op) := by
  cases op <;> unfold OneSpelling <;> infer_instance

section

variable {rows rows' : List DomainRecord} {name : String}

theorem mem_hosts_of_mem {r : DomainRecord} (h : r ∈ rows) : hostNoPort r.name ∈ hosts rows :=
  List.mem_map_of_mem h

/-- With one row for a host, `get_record` finds exactly the rows of the host. -/
theorem getRecord_eq_some_iff (hdistinct : HostsDistinct rows) {r : DomainRecord} :
    getRecord rows name = some r ↔ r ∈ rows ∧ hostNoPort r.name = hostNoPort name :=
  ⟨getRecord_host, fun h => getRecord_of_host hdistinct h.1 h.2⟩

/-- A row of the host is the one stored under the name. -/
theorem StoredAs.name_eq_iff (hstored : StoredAs rows name) {r : DomainRecord} (hr : r ∈ rows) :
    r.name = lower name ↔ hostNoPort r.name = hostNoPort name := by
  constructor
  · intro h
    rw [h, hostNoPort_lower]
  · exact hstored r hr

/-- A change of fields leaves the hosts. -/
theorem hosts_map {f : DomainRecord → DomainRecord} (hf : ∀ r, (f r).name = r.name) :
    hosts (rows.map f) = hosts rows := by
  simp [hosts, Function.comp_def, hf]

/-- `get_record` after a change of fields. -/
theorem getRecord_map {f : DomainRecord → DomainRecord} (hf : ∀ r, (f r).name = r.name) :
    getRecord (rows.map f) name = (getRecord rows name).map f := by
  unfold getRecord
  have hsame : (fun r : DomainRecord => decide (lower (before ':' r.name) = lower (before ':' name))) ∘ f =
      fun r => decide (lower (before ':' r.name) = lower (before ':' name)) := by
    funext r
    rw [Function.comp_apply, hf]
  rw [List.find?_map, hsame]

/-- An `UPDATE` by name reaches the row of the host. -/
theorem updates_of_map (hstored : StoredAs rows name) {f : DomainRecord → DomainRecord}
    (hf : ∀ r, (f r).name = r.name) :
    Updates name (Option.map f) rows (rows.map fun r => if r.name = lower name then f r else r) := by
  intro host
  have hkeep : ∀ r, (if r.name = lower name then f r else r).name = r.name := by
    intro r
    split
    · exact hf r
    · rfl
  rw [getRecord_map hkeep]
  split
  · rename_i hhost
    have hsame : getRecord rows host = getRecord rows name := by
      unfold getRecord
      rw [← hostNoPort, ← hostNoPort, hhost]
    rw [hsame]
    apply Option.map_congr
    intro r hr
    obtain ⟨hmem, hr⟩ := getRecord_host hr
    rw [if_pos (hstored r hmem hr)]
  · rename_i hhost
    have hid : ∀ r, getRecord rows host = some r → (if r.name = lower name then f r else r) = r := by
      intro r hr
      obtain ⟨hmem, hr⟩ := getRecord_host hr
      rw [if_neg fun hname => hhost (hr.symm.trans ((hstored.name_eq_iff hmem).mp hname))]
    cases hfind : getRecord rows host with
    | none => rfl
    | some r => rw [Option.map_some, hid r hfind]

/-- A `DELETE` by name reaches the row of the host. -/
theorem updates_of_filter (hdistinct : HostsDistinct rows) (hstored : StoredAs rows name)
    (keep : DomainRecord → Bool) :
    Updates name (Option.filter keep) rows
      (rows.filter fun r => !(decide (r.name = lower name) && !keep r)) := by
  intro host
  have hdistinct' : HostsDistinct (rows.filter fun r => !(decide (r.name = lower name) && !keep r)) :=
    hdistinct.sublist (List.filter_sublist.map _)
  apply Option.ext
  intro r
  rw [getRecord_eq_some_iff hdistinct', List.mem_filter]
  split
  · rename_i hhost
    rw [Option.filter_eq_some_iff, getRecord_eq_some_iff hdistinct, hhost]
    constructor
    · rintro ⟨⟨hr, hkeep⟩, hname⟩
      have hlower := hstored r hr hname
      exact ⟨⟨hr, hname⟩, by simpa [hlower] using hkeep⟩
    · rintro ⟨⟨hr, hname⟩, hkeep⟩
      exact ⟨⟨hr, by simp [hkeep]⟩, hname⟩
  · rename_i hhost
    rw [getRecord_eq_some_iff hdistinct]
    constructor
    · rintro ⟨⟨hr, -⟩, hname⟩
      exact ⟨hr, hname⟩
    · rintro ⟨hr, hname⟩
      -- a row of another host has another name
      have hne : r.name ≠ lower name := fun h =>
        hhost (hname.symm.trans ((hstored.name_eq_iff hr).mp h))
      exact ⟨⟨hr, by simp [hne]⟩, hname⟩

end

/-! ## What the operations publish -/

/-- What an operation that returned may have made of the rows. -/
structure HostEffect (op : DomainOp) (_result : Option Bool) (c c' : Tables) : Prop where
  distinct : HostsDistinct c.domains → OneSpelling c.domains op → HostsDistinct c'.domains
  updates : HostsDistinct c.domains → OneSpelling c.domains op →
    ∀ name f, op.onHost = some (name, f) → Updates name f c.domains c'.domains

/-- The rows of `seed_domains` up to a turn of its loop: one for each host seen, compared as given. -/
structure Seeding (names : List String) (acc : List String × List DomainRecord) : Prop where
  seen : ∀ r ∈ acc.2, before ':' r.name ∈ acc.1
  nodup : (acc.2.map fun r => before ':' r.name).Nodup
  given : ∀ r ∈ acc.2, r.name ∈ names

theorem seeding_foldl {names : List String} {extras : List DomainRecord}
    {acc : List String × List DomainRecord} (h : Seeding names acc)
    (hnames : ∀ r ∈ extras, r.name ∈ names) : Seeding names (extras.foldl addExtra acc) := by
  induction extras generalizing acc with
  | nil => exact h
  | cons rec extras ih =>
    rw [List.foldl_cons]
    refine ih ?_ fun r hr => hnames r (List.mem_cons_of_mem _ hr)
    unfold addExtra
    dsimp only
    split
    · exact h
    · rename_i hnew
      constructor
      · intro r hr
        rcases List.mem_append.mp hr with hr | hr
        · exact List.mem_cons_of_mem _ (h.seen r hr)
        · rw [List.mem_singleton.mp hr]
          exact List.mem_cons_self
      · rw [List.map_append, List.map_singleton]
        apply List.nodup_append.mpr
        refine ⟨h.nodup, List.nodup_singleton _, ?_⟩
        intro host hhost host' hhost' heq
        obtain ⟨r, hr, rfl⟩ := List.mem_map.mp hhost
        apply hnew
        rw [← List.mem_singleton.mp hhost', ← heq]
        exact h.seen r hr
      · intro r hr
        rcases List.mem_append.mp hr with hr | hr
        · exact h.given r hr
        · rw [List.mem_singleton.mp hr]
          exact hnames rec List.mem_cons_self

theorem seeding_seedRows (primary : Domain) (extras : List DomainRecord) :
    ((seedRows primary extras).map fun r => before ':' r.name).Nodup ∧
      ∀ r ∈ seedRows primary extras, r.name ∈ seedNames primary extras := by
  have hseeding : Seeding (seedNames primary extras) (extras.foldl addExtra ([primary.nameNoPort],
      [{ name := primary.name, tls := primary.tls, mdns := primary.mdns, isPrimary := true }])) := by
    apply seeding_foldl
    · constructor
      · intro r hr
        rw [List.mem_singleton.mp hr]
        exact List.mem_cons_self
      · exact List.nodup_singleton _
      · intro r hr
        rw [List.mem_singleton.mp hr]
        exact List.mem_cons_self
    · intro r hr
      exact List.mem_cons_of_mem _ (List.mem_map_of_mem hr)
  exact ⟨hseeding.nodup, hseeding.given⟩

/-- Seeding a table adds one row for each host. -/
theorem distinct_seedRows {rows : List DomainRecord} {primary : Domain} {extras : List DomainRecord}
    (hdistinct : HostsDistinct rows) (hspelling : OneSpelling rows (.seedDomains primary extras)) :
    HostsDistinct (rows ++ seedRows primary extras) := by
  obtain ⟨hnodup, hgiven⟩ := seeding_seedRows primary extras
  obtain ⟨hone, hnew⟩ := hspelling
  have hseeded : (hosts (seedRows primary extras)).Nodup := by
    apply List.pairwise_map.mpr
    have hnodup := List.pairwise_map.mp hnodup
    apply hnodup.imp_of_mem
    intro r r' hr hr' hne heq
    exact hne (hone r.name (hgiven r hr) r'.name (hgiven r' hr') heq)
  rw [HostsDistinct, hosts, List.map_append]
  apply List.nodup_append.mpr
  refine ⟨hdistinct, hseeded, ?_⟩
  intro host hhost host' hhost' heq
  obtain ⟨r, hr, rfl⟩ := List.mem_map.mp hhost'
  exact hnew r.name (hgiven r hr) (heq ▸ hhost)

theorem hostEffect_seedDomains (primary : Domain) (extras : List DomainRecord) :
    (seedDomains primary extras).Publishes (HostEffect (.seedDomains primary extras)) := by
  apply seedDomains_publishes_of
  · exact fun c => ⟨fun h _ => h, fun _ _ name f hop => by cases hop⟩
  · intro c v hdomains _
    refine ⟨fun hdistinct hspelling => ?_, fun _ _ name f hop => by cases hop⟩
    rw [hdomains]
    exact distinct_seedRows hdistinct hspelling

/-- Of a host that is not stored no row is named. -/
theorem not_mem_hosts_of_storedAs {rows : List DomainRecord} {name : String}
    (hstored : StoredAs rows name) (hno : ∀ r ∈ rows, r.name ≠ lower name) :
    hostNoPort name ∉ hosts rows := by
  intro hmem
  obtain ⟨r, hr, hhost⟩ := List.mem_map.mp hmem
  exact hno r hr (hstored r hr hhost)

theorem getRecord_append {rows : List DomainRecord} {record : DomainRecord} {host : String}
    (hnew : hostNoPort record.name ∉ hosts rows) : getRecord (rows ++ [record]) host =
      if hostNoPort host = hostNoPort record.name then some record else getRecord rows host := by
  unfold getRecord
  rw [List.find?_append]
  split
  · rename_i hhost
    have hnone : getRecord rows host = none := by
      cases hfind : getRecord rows host with
      | none => rfl
      | some r =>
        obtain ⟨hr, hname⟩ := getRecord_host hfind
        have hmem := mem_hosts_of_mem hr
        rw [hname, hhost] at hmem
        exact absurd hmem hnew
    unfold getRecord at hnone
    rw [hnone, Option.none_or, List.find?_singleton, if_pos]
    exact decide_eq_true hhost.symm
  · rename_i hhost
    rw [List.find?_singleton, if_neg, Option.or_none]
    exact fun h => hhost (of_decide_eq_true h).symm

theorem hostEffect_upsertRecord (record : DomainRecord) :
    (upsertRecord record).Publishes (HostEffect (.upsertRecord record)) := by
  intro c v n hv
  refine ⟨none, rfl, ?_⟩
  unfold upsert at hv
  split at hv
  · rename_i hthere
    obtain ⟨hdomains, -, -⟩ := Tables.write_ok hv
    constructor
    · intro hdistinct _
      rw [HostsDistinct, hdomains, hosts_map]
      · exact hdistinct
      · intro r
        split <;> rfl
    · rintro hdistinct hstored name f ⟨rfl, rfl⟩ host
      have hupdates := updates_of_map hstored (f := replaceFields record) fun _ => rfl
      obtain ⟨r, hr, hname⟩ := List.any_eq_true.mp hthere
      have hfind := ((agree_iff_storedAs hdistinct).mpr hstored r).mpr ⟨hr, of_decide_eq_true hname⟩
      have hhost := hupdates host
      rw [hfind, Option.map_some] at hhost
      have hrows : v.domains = c.domains.map fun r =>
          if r.name = lower record.name then replaceFields record r else r := by
        rw [hdomains]
        apply List.map_congr_left
        intro r _
        simp [replaceFields]
      rw [hfind, hrows, hhost]
      rfl
  · rename_i hthere
    obtain ⟨hdomains, -, -⟩ := Tables.write_ok hv
    have hno : ∀ r ∈ c.domains, r.name ≠ lower record.name := by
      intro r hr hname
      exact hthere (List.any_eq_true.mpr ⟨r, hr, decide_eq_true hname⟩)
    constructor
    · intro hdistinct hstored
      rw [HostsDistinct, hdomains, hosts, List.map_append, List.map_singleton, hostNoPort_lower]
      apply List.nodup_append.mpr
      refine ⟨hdistinct, List.nodup_singleton _, ?_⟩
      intro host hhost host' hhost' heq
      rw [heq, List.mem_singleton.mp hhost'] at hhost
      exact not_mem_hosts_of_storedAs hstored hno hhost
    · rintro hdistinct hstored name f ⟨rfl, rfl⟩ host
      have hnew := not_mem_hosts_of_storedAs hstored hno
      obtain ⟨row, hrow, hname⟩ : ∃ row : DomainRecord,
          row = { record with name := lower record.name } ∧ row.name = lower record.name :=
        ⟨_, rfl, rfl⟩
      rw [← hostNoPort_lower, ← hname] at hnew
      have hnone : getRecord c.domains record.name = none := by
        cases hfind : getRecord c.domains record.name with
        | none => rfl
        | some r =>
          obtain ⟨hr, hname⟩ := getRecord_host hfind
          exact absurd (hstored r hr hname) (hno r hr)
      rw [← hrow] at hdomains
      rw [hdomains, getRecord_append hnew, hname, hostNoPort_lower, hnone]
      simp only [Option.map_none, Option.getD_none, hrow]

theorem hostEffect_removeRecord (name : String) :
    (removeRecord name).Publishes (HostEffect (.removeRecord name)) := by
  intro c v n hv
  obtain ⟨hdomains, -, -⟩ := Tables.write_ok hv
  refine ⟨_, rfl, fun hdistinct _ => ?_, ?_⟩
  · rw [HostsDistinct, hdomains]
    exact hdistinct.sublist (List.filter_sublist.map _)
  · rintro hdistinct hstored name f ⟨rfl, rfl⟩ host
    have hupdates := updates_of_filter hdistinct hstored (fun _ => false) host
    have hfalse : ∀ row : Option DomainRecord, row.filter (fun _ => false) = none := by
      intro row
      cases row <;> rfl
    simpa [hdomains, hfalse] using hupdates

theorem hostEffect_removeNonPrimaryRecord (name : String) :
    (removeNonPrimaryRecord name).Publishes (HostEffect (.removeNonPrimaryRecord name)) := by
  intro c v n hv
  obtain ⟨hdomains, -, -⟩ := Tables.write_ok hv
  refine ⟨_, rfl, fun hdistinct _ => ?_, ?_⟩
  · rw [HostsDistinct, hdomains]
    exact hdistinct.sublist (List.filter_sublist.map _)
  · rintro hdistinct hstored name f ⟨rfl, rfl⟩
    rw [hdomains]
    exact updates_of_filter hdistinct hstored (·.isPrimary)

theorem hostEffect_setRecordStatus (name : String) (certStatus : DomainCertStatus)
    (errorMessage : Option String) :
    (setRecordStatus name certStatus errorMessage).Publishes
      (HostEffect (.setRecordStatus name certStatus errorMessage)) := by
  intro c v n hv
  obtain ⟨hdomains, -, -⟩ := Tables.write_ok hv
  refine ⟨none, rfl, fun hdistinct _ => ?_, ?_⟩
  · rw [HostsDistinct, hdomains, hosts_map]
    · exact hdistinct
    · intro r
      split <;> rfl
  · rintro hdistinct hstored name f ⟨rfl, rfl⟩
    have hupdates := updates_of_map hstored (f := fun r => { r with certStatus, errorMessage }) fun _ => rfl
    rw [hdomains]
    simpa using hupdates

/-- Demotion and promotion leave the hosts. -/
theorem hostEffect_promote {name currentName targetName : String} {c : Tables} :
    Prog.PublishesFrom (HostEffect (.setPrimaryDomain name)) c (promote currentName targetName) c := by
  intro v₁ demoted h₁ v₂ promoted h₂
  dsimp only
  split
  · trivial
  · intro v₃ _ h₃
    obtain ⟨rfl, -⟩ := Prod.mk.inj (Except.ok.inj h₃)
    obtain ⟨hdomains₁, -, -⟩ := Tables.write_ok h₁
    obtain ⟨hdomains₂, -, -⟩ := Tables.write_ok h₂
    refine ⟨some true, rfl, fun hdistinct _ => ?_, fun _ _ name f hop => by cases hop⟩
    have hhosts : hosts v₂.domains = hosts c.domains := by
      rw [hdomains₂, hdomains₁, hosts_map, hosts_map]
      · intro r
        split <;> rfl
      · intro r
        split <;> rfl
    show (hosts v₂.domains).Nodup
    rw [hhosts]
    exact hdistinct

theorem hostEffect_setPrimaryDomain (name : String) :
    (setPrimaryDomain name).Publishes (HostEffect (.setPrimaryDomain name)) := by
  apply setPrimaryDomain_publishes_of
  · exact fun c => ⟨fun h _ => h, fun _ _ name f hop => by cases hop⟩
  · exact fun c currentName targetName _ _ => hostEffect_promote

theorem hostEffect_program (op : DomainOp) : (program op).Publishes (HostEffect op) := by
  cases op with
  | seedDomains primary extras => exact hostEffect_seedDomains primary extras
  | upsertRecord record => exact hostEffect_upsertRecord record
  | removeRecord name => exact hostEffect_removeRecord name
  | removeNonPrimaryRecord name => exact hostEffect_removeNonPrimaryRecord name
  | setPrimaryDomain name => exact hostEffect_setPrimaryDomain name
  | setRecordStatus name certStatus errorMessage =>
    exact hostEffect_setRecordStatus name certStatus errorMessage

/-! ## Runs -/

/-- A connection that commits an operation was given names that spell each host in one way. -/
def spellsOnce (s : Connections) : Action DomainOp DomainError → Bool
  | .advance i =>
      match s.sessions i with
      | some (op, .commit _) => OneSpelling s.committed.domains op
      | _ => true
  | _ => true

/-- The runs of the operations from `s₀`. -/
abbrev Runs (s₀ s : Connections) : Prop :=
  Reach (fun s a s' => Tx.step program s a = some s') (fun _ _ => True) s₀ s

/-- The runs in which the names spell each host in one way. -/
abbrev SpellingRuns (s₀ s : Connections) : Prop :=
  Reach (fun s a s' => Tx.step program s a = some s') (fun s a => spellsOnce s a = true) s₀ s

/-- The operation that changes what is committed was given names that spell each host in one way. -/
theorem spelling_of_step {s s' : Connections} {i : Nat} {op : DomainOp} {v : Option Bool}
    (hspells : spellsOnce s (.advance i) = true) (h : Tx.step program s (.advance i) = some s')
    (hret : s'.sessions i = some (op, .ret v)) (hne : s'.committed ≠ s.committed) :
    OneSpelling s.committed.domains op := by
  simp only [Tx.step] at h
  split at h
  · rename_i op' p hsession
    have hop := Tx.op_of_advance h
    rw [hret] at hop
    obtain rfl : op = op' := Option.some.inj hop
    obtain ⟨k, rfl⟩ := Tx.commit_of_advance h hne
    simp only [spellsOnce, hsession] at hspells
    exact of_decide_eq_true hspells
  · cases h

/-- The connections are sound, and the table has one row for a host. -/
structure OneRow (s : Connections) : Prop where
  sound : Sound HostEffect s
  distinct : HostsDistinct s.committed.domains

theorem oneRow_of_step {s s' : Connections} (hs : OneRow s) {a : Action DomainOp DomainError}
    (hspells : spellsOnce s a = true) (h : Tx.step program s a = some s') :
    OneRow s' ∧ (s'.committed = s.committed ∨ ∃ i op v, a = .advance i ∧
      s'.sessions i = some (op, .ret v) ∧ ∀ name f, op.onHost = some (name, f) →
        Updates name f s.committed.domains s'.committed.domains) := by
  obtain ⟨hsound, hstep⟩ := Tx.publishes_of_step hostEffect_program running_program hs.sound h
  by_cases hsame : s'.committed = s.committed
  · exact ⟨⟨hsound, hsame ▸ hs.distinct⟩, Or.inl hsame⟩
  · rcases hstep with ⟨hcommitted, -⟩ | ⟨i, op, v, rfl, hret, heffect⟩
    · exact absurd hcommitted hsame
    · have hspelling := spelling_of_step hspells h hret hsame
      exact ⟨⟨hsound, heffect.distinct hs.distinct hspelling⟩,
        Or.inr ⟨i, op, v, rfl, hret, heffect.updates hs.distinct hspelling⟩⟩

theorem oneRow_of_reaches {s₀ s : Connections} (hidle : Idle s₀)
    (hstart : HostsDistinct s₀.committed.domains) (h : SpellingRuns s₀ s) : OneRow s :=
  h.invariant OneRow ⟨Tx.sound_of_unused hidle.txn hidle.sessions, hstart⟩
    fun _ _ _ hs hok hstep => (oneRow_of_step hs hok hstep).1

/-- In every run whose names spell each host in one way: no two rows denote one host; by a name under
which its host is stored, and by no other, `get_record` and the other operations address one row; and
only an operation that returns changes the table, at the row of the host that it was given a name of. -/
theorem hosts_of_reaches {s₀ s : Connections} (hidle : Idle s₀)
    (hstart : HostsDistinct s₀.committed.domains) (h : SpellingRuns s₀ s) :
    HostsDistinct s.committed.domains ∧
    (∀ name, Agree s.committed.domains name ↔ StoredAs s.committed.domains name) ∧
    ∀ a s', spellsOnce s a = true → Tx.step program s a = some s' →
      s'.committed = s.committed ∨ ∃ i op v, a = .advance i ∧ s'.sessions i = some (op, .ret v) ∧
        ∀ name f, op.onHost = some (name, f) →
          Updates name f s.committed.domains s'.committed.domains := by
  have hs := oneRow_of_reaches hidle hstart h
  exact ⟨hs.distinct, fun name => agree_iff_storedAs hs.distinct,
    fun a s' hok hstep => (oneRow_of_step hs hok hstep).2⟩

/-- A new instance whose names differ in case only from the stored ones. -/
def renewing : List (Action DomainOp DomainError) :=
  [.start 0 (.seedDomains ⟨"host.example.com", true, false⟩ []), .advance 0, .advance 0, .advance 0,
    .start 1 (.setRecordStatus "Host.example.com" .active none), .advance 1, .advance 1]

theorem hosts_of_renewing : ∃ s, SpellingRuns newInstance s ∧
    s.committed.domains = [⟨"host.example.com", true, false, .active, none, true⟩] ∧
    HostsDistinct s.committed.domains ∧
    (Agree s.committed.domains "HOST.example.com" ↔
      StoredAs s.committed.domains "HOST.example.com") := by
  have hrun : ((runAll (Tx.step program) (fun s a => spellsOnce s a = true) newInstance renewing).map
      fun s => s.committed.domains) =
        some [⟨"host.example.com", true, false, .active, none, true⟩] := by
    decide +kernel
  obtain ⟨s, hs, hrows⟩ := Option.map_eq_some_iff.mp hrun
  have hreached : SpellingRuns newInstance s := reach_of_run hs
  obtain ⟨hdistinct, hagree, -⟩ := hosts_of_reaches idle_newInstance List.nodup_nil hreached
  exact ⟨s, hreached, hrows, hdistinct, hagree "HOST.example.com"⟩

/-! ## A host with a port -/

/-- The primary domain is seeded with its port. -/
def seeding : List (Action DomainOp DomainError) :=
  [.start 0 (.seedDomains ⟨"host.example.com:8443", true, false⟩ []), .advance 0, .advance 0, .advance 0]

/-- Then the host is upserted without the port. -/
def upserting : List (Action DomainOp DomainError) :=
  [.start 1 (.upsertRecord ⟨"host.example.com", true, false, .active, none, false⟩), .advance 1,
    .advance 1]

def rowsAfter (actions : List (Action DomainOp DomainError)) : Option (List DomainRecord) :=
  (runAll (Tx.step program) (fun _ _ => True) newInstance actions).map fun s => s.committed.domains

theorem runs_of_rowsAfter {actions : List (Action DomainOp DomainError)} {rows : List DomainRecord}
    (h : rowsAfter actions = some rows) : ∃ s, Runs newInstance s ∧ s.committed.domains = rows := by
  obtain ⟨s, hs, hrows⟩ := Option.map_eq_some_iff.mp h
  exact ⟨s, reach_of_run hs, hrows⟩

/-- `get_record` finds the seeded row by its host, and no other operation does; after the upsert two
rows denote the host. -/
theorem seeded_port_splits_host :
    (¬ ∀ s₀ s, Idle s₀ → HostsDistinct s₀.committed.domains → Runs s₀ s →
      HostsDistinct s.committed.domains) ∧
    ¬ ∀ s₀ s, Idle s₀ → HostsDistinct s₀.committed.domains → Runs s₀ s →
      ∀ name, Agree s.committed.domains name := by
  have hseeded : rowsAfter seeding =
      some [⟨"host.example.com:8443", true, false, .none, none, true⟩] := by
    decide +kernel
  have hupserted : rowsAfter (seeding ++ upserting) =
      some [⟨"host.example.com:8443", true, false, .none, none, true⟩,
        ⟨"host.example.com", true, false, .active, none, false⟩] := by
    decide +kernel
  constructor
  · intro h
    obtain ⟨s, hs, hrows⟩ := runs_of_rowsAfter hupserted
    have hdistinct := h newInstance s idle_newInstance List.nodup_nil hs
    rw [hrows] at hdistinct
    exact absurd hdistinct (by decide +kernel)
  · intro h
    obtain ⟨s, hs, hrows⟩ := runs_of_rowsAfter hseeded
    have hagree := h newInstance s idle_newInstance List.nodup_nil hs "host.example.com"
    rw [hrows] at hagree
    have hfind := (hagree ⟨"host.example.com:8443", true, false, .none, none, true⟩).mp (by decide +kernel)
    exact absurd hfind.2 (by decide +kernel)

end OpenHost.Domains

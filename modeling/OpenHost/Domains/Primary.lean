import OpenHost.Domains.Operations

/-!
# The primary domain

Once the table has been seeded exactly one row is primary, whatever operations run side by side and
wherever they fail.
-/

namespace OpenHost.Domains

open Text (lower before)
open Tx (Prog Store Action Sound)

/-! ## What the statements do -/

namespace Tables

theorem write_ok {t t' : Tables} {domains : List DomainRecord} {n m : Nat}
    (h : t.write domains n = .ok (t', m)) : t'.domains = domains ∧ t'.apps = t.apps ∧ m = n := by
  unfold write at h
  split at h
  · obtain ⟨rfl, rfl⟩ := Prod.mk.inj (Except.ok.inj h)
    exact ⟨rfl, rfl, rfl⟩
  · cases h

theorem primaries_le (t : Tables) : t.primaries ≤ 1 := t.constraints.primary

/-- Two primary rows are one row. -/
theorem primary_unique {t : Tables} {r r' : DomainRecord} (hr : r ∈ t.domains)
    (hr' : r' ∈ t.domains) (hp : r.isPrimary = true) (hp' : r'.isPrimary = true) : r = r' := by
  have hle := t.primaries_le
  rw [primaries, List.countP_eq_length_filter] at hle
  have hmem : r ∈ t.domains.filter (·.isPrimary) := List.mem_filter.mpr ⟨hr, hp⟩
  have hmem' : r' ∈ t.domains.filter (·.isPrimary) := List.mem_filter.mpr ⟨hr', hp'⟩
  cases hrows : t.domains.filter (·.isPrimary) with
  | nil => simp [hrows] at hmem
  | cons a rest =>
    rw [hrows] at hmem hmem' hle
    have hrest : rest = [] := List.length_eq_zero_iff.mp (by simpa using hle)
    subst hrest
    rw [List.mem_singleton.mp hmem, List.mem_singleton.mp hmem']

/-- The name of the primary row. -/
theorem primaryName_eq_some_iff {t : Tables} {name : String} :
    t.primaryName = some name ↔ ∃ r ∈ t.domains, r.isPrimary = true ∧ r.name = name := by
  rw [primaryName, Option.map_eq_some_iff]
  constructor
  · rintro ⟨r, hr, rfl⟩
    exact ⟨r, List.mem_of_find?_eq_some hr, List.find?_some hr, rfl⟩
  · rintro ⟨r, hr, hp, rfl⟩
    cases hfind : t.domains.find? (·.isPrimary) with
    | none => exact absurd hp (by simpa using List.find?_eq_none.mp hfind r hr)
    | some r' =>
      have heq := primary_unique (List.mem_of_find?_eq_some hfind) hr (List.find?_some hfind) hp
      exact ⟨r', rfl, by rw [heq]⟩

theorem one_le_primaries_iff {t : Tables} :
    1 ≤ t.primaries ↔ ∃ r ∈ t.domains, r.isPrimary = true := by
  rw [primaries, Nat.one_le_iff_ne_zero, ← Nat.pos_iff_ne_zero, List.countP_pos_iff]

/-- Changing rows without touching the flag keeps the number of primary rows. -/
theorem primaries_of_update {t t' : Tables} {p : DomainRecord → Bool}
    {f : DomainRecord → DomainRecord} {n : Nat} (h : t.update p f = .ok (t', n))
    (hf : ∀ r, (f r).isPrimary = r.isPrimary) : t'.primaries = t.primaries ∧ t'.apps = t.apps := by
  obtain ⟨hdomains, happs, -⟩ := write_ok h
  refine ⟨?_, happs⟩
  rw [primaries, hdomains, List.countP_map, primaries]
  congr 1
  funext r
  by_cases hp : p r = true <;> simp [hp, hf]

end Tables

/-! ## What the operations publish -/

/-- `remove_record` is called on names that are not the primary's. -/
def Spares (op : DomainOp) (t : Tables) : Prop :=
  ∀ name, op = .removeRecord name → ∀ r ∈ t.domains, r.name = lower name → r.isPrimary = false

/-- What an operation that returned `result` may have made of the tables. -/
structure Effect (op : DomainOp) (result : Option Bool) (c c' : Tables) : Prop where
  kept : Spares op c → 1 ≤ c.primaries → 1 ≤ c'.primaries
  seeded : ∀ primary extras, op = .seedDomains primary extras → result = some true →
    1 ≤ c'.primaries
  apps : (∀ name, op ≠ .setPrimaryDomain name) → c'.apps = c.apps
  handed : ∀ name, op = .setPrimaryDomain name → c' = c ∨
    (c'.primaryName ≠ c.primaryName ∧ c'.apps = c.apps.map handToRecovery)

/-- The effect of an operation that changes only the rows of the table. -/
theorem Effect.of_rows {op : DomainOp} {result : Option Bool} {c c' : Tables}
    (hseed : ∀ primary extras, op ≠ .seedDomains primary extras)
    (hset : ∀ name, op ≠ .setPrimaryDomain name)
    (hkept : Spares op c → 1 ≤ c.primaries → 1 ≤ c'.primaries) (happs : c'.apps = c.apps) :
    Effect op result c c' where
  kept := hkept
  seeded primary extras hop := absurd hop (hseed primary extras)
  apps _ := happs
  handed name hop := absurd hop (hset name)

theorem mem_foldl_addExtra {extras : List DomainRecord} {acc : List String × List DomainRecord}
    {r : DomainRecord} (h : r ∈ acc.2) : r ∈ (extras.foldl addExtra acc).2 := by
  induction extras generalizing acc with
  | nil => exact h
  | cons rec extras ih =>
    rw [List.foldl_cons]
    apply ih
    unfold addExtra
    dsimp only
    split
    · exact h
    · exact List.mem_append_left _ h

theorem exists_primary_mem_seedRows (primary : Domain) (extras : List DomainRecord) :
    ∃ r ∈ seedRows primary extras, r.isPrimary = true :=
  ⟨_, mem_foldl_addExtra List.mem_cons_self, rfl⟩

/-- `seed_domains` returns without a change, or adds its rows behind those that are there. -/
theorem seedDomains_publishes_of {R : Option Bool → Tables → Tables → Prop} (primary : Domain)
    (extras : List DomainRecord) (hkeep : ∀ c, R (some false) c c)
    (hseed : ∀ c v : Tables, v.domains = c.domains ++ seedRows primary extras → v.apps = c.apps →
      R (some true) c v) :
    (seedDomains primary extras).Publishes R := by
  intro t
  dsimp only
  split
  · have hne : (seedRows primary extras).map Tables.insert ≠ [] := by
      intro h
      obtain ⟨p, hp, -⟩ := exists_primary_mem_seedRows primary extras
      rw [List.map_eq_nil_iff.mp h] at hp
      cases hp
    apply Prog.publishes_executeAll hne
    intro c
    -- the rows inserted so far stand behind those that were there
    apply Prog.publishesFrom_executeAll fun v fs => ∃ done rest,
      fs = rest.map Tables.insert ∧ done ++ rest = seedRows primary extras ∧
        v.domains = c.domains ++ done ∧ v.apps = c.apps
    · exact ⟨[], _, rfl, rfl, by simp, rfl⟩
    · rintro f fs v v' n ⟨done, rest, hfs, hrows, hdomains, happs⟩ hf
      cases rest with
      | nil => cases hfs
      | cons r rest =>
        obtain ⟨rfl, rfl⟩ := List.cons.inj hfs
        obtain ⟨hdomains', happs', -⟩ := Tables.write_ok hf
        exact ⟨done ++ [r], rest, rfl, by simpa using hrows, by simp [hdomains', hdomains],
          happs'.trans happs⟩
    · rintro v ⟨done, rest, hfs, hrows, hdomains, happs⟩
      have hrest : rest = [] := List.map_eq_nil_iff.mp hfs.symm
      rw [hrest, List.append_nil] at hrows
      exact ⟨some true, rfl, hseed c v (hrows ▸ hdomains) happs⟩
  · exact hkeep

theorem seedDomains_publishes (primary : Domain) (extras : List DomainRecord) :
    (seedDomains primary extras).Publishes (Effect (.seedDomains primary extras)) := by
  apply seedDomains_publishes_of
  · exact fun c => ⟨fun _ h => h, fun _ _ _ hresult => (by cases hresult), fun _ => rfl,
      fun _ hop => by cases hop⟩
  · intro c v hdomains happs
    obtain ⟨p, hp, hprimary⟩ := exists_primary_mem_seedRows primary extras
    have hone : 1 ≤ v.primaries := by
      apply Tables.one_le_primaries_iff.mpr
      refine ⟨p, ?_, hprimary⟩
      rw [hdomains]
      exact List.mem_append_right _ hp
    exact ⟨fun _ _ => hone, fun _ _ _ _ => hone, fun _ => happs, fun _ hop => by cases hop⟩

theorem upsertRecord_publishes (record : DomainRecord) :
    (upsertRecord record).Publishes (Effect (.upsertRecord record)) := by
  intro c v n hv
  refine ⟨none, rfl, ?_⟩
  unfold upsert at hv
  split at hv
  · obtain ⟨hprimaries, happs⟩ := Tables.primaries_of_update hv fun _ => rfl
    exact Effect.of_rows (by simp) (by simp) (fun _ h => hprimaries ▸ h) happs
  · obtain ⟨hdomains, happs, -⟩ := Tables.write_ok hv
    refine Effect.of_rows (by simp) (by simp) (fun _ h => ?_) happs
    rw [Tables.primaries, hdomains, List.countP_append]
    exact Nat.le_add_right_of_le h

theorem removeRecord_publishes (name : String) :
    (removeRecord name).Publishes (Effect (.removeRecord name)) := by
  intro c v n hv
  refine ⟨_, rfl, ?_⟩
  obtain ⟨hdomains, happs, -⟩ := Tables.write_ok hv
  refine Effect.of_rows (by simp) (by simp) (fun hspares h => ?_) happs
  obtain ⟨r, hr, hprimary⟩ := Tables.one_le_primaries_iff.mp h
  apply Tables.one_le_primaries_iff.mpr
  refine ⟨r, ?_, hprimary⟩
  rw [hdomains]
  apply List.mem_filter.mpr
  refine ⟨hr, ?_⟩
  -- the primary row has another name
  rw [Bool.not_eq_true', decide_eq_false_iff_not]
  intro hname
  rw [hspares name rfl r hr hname] at hprimary
  cases hprimary

theorem removeNonPrimaryRecord_publishes (name : String) :
    (removeNonPrimaryRecord name).Publishes (Effect (.removeNonPrimaryRecord name)) := by
  intro c v n hv
  refine ⟨_, rfl, ?_⟩
  obtain ⟨hdomains, happs, -⟩ := Tables.write_ok hv
  refine Effect.of_rows (by simp) (by simp) (fun _ h => ?_) happs
  obtain ⟨r, hr, hprimary⟩ := Tables.one_le_primaries_iff.mp h
  apply Tables.one_le_primaries_iff.mpr
  refine ⟨r, ?_, hprimary⟩
  rw [hdomains]
  apply List.mem_filter.mpr
  exact ⟨hr, by simp [hprimary]⟩

theorem setRecordStatus_publishes (name : String) (certStatus : DomainCertStatus)
    (errorMessage : Option String) :
    (setRecordStatus name certStatus errorMessage).Publishes
      (Effect (.setRecordStatus name certStatus errorMessage)) := by
  intro c v n hv
  obtain ⟨hprimaries, happs⟩ := Tables.primaries_of_update hv fun _ => rfl
  exact ⟨none, rfl, Effect.of_rows (by simp) (by simp) (fun _ h => hprimaries ▸ h) happs⟩

/-- Demotion and promotion leave the target as the primary domain. -/
theorem promote_publishes {op : DomainOp} {name currentName targetName : String} {c : Tables}
    (hop : op = .setPrimaryDomain name) (hcurrent : c.primaryName = some currentName)
    (hne : targetName ≠ currentName) :
    Prog.PublishesFrom (Effect op) c (promote currentName targetName) c := by
  subst hop
  intro v₁ demoted h₁ v₂ promoted h₂
  dsimp only
  split
  · trivial
  · rename_i hcounts
    intro v₃ _ h₃
    simp only [Bool.or_eq_true, decide_eq_true_eq, not_or, not_not] at hcounts
    obtain ⟨rfl, -⟩ := Prod.mk.inj (Except.ok.inj h₃)
    obtain ⟨-, happs₁, -⟩ := Tables.write_ok h₁
    obtain ⟨hdomains₂, happs₂, hpromoted⟩ := Tables.write_ok h₂
    -- one row was promoted
    obtain ⟨r, hr, hmatch⟩ := List.countP_pos_iff.mp
      (Nat.lt_of_lt_of_eq Nat.zero_lt_one (hcounts.2.symm.trans hpromoted))
    have htarget : Tables.primaryName ⟨v₂.domains, v₂.apps.map handToRecovery, v₂.constraints⟩ =
        some targetName := by
      apply Tables.primaryName_eq_some_iff.mpr
      refine ⟨{ r with isPrimary := true }, ?_, rfl, ?_⟩
      · show _ ∈ v₂.domains
        rw [hdomains₂]
        exact List.mem_map.mpr ⟨r, hr, by rw [if_pos hmatch]⟩
      · simp only [Bool.and_eq_true, decide_eq_true_eq] at hmatch
        exact hmatch.1
    have hone : 1 ≤ Tables.primaries ⟨v₂.domains, v₂.apps.map handToRecovery, v₂.constraints⟩ := by
      obtain ⟨r', hr', hp', -⟩ := Tables.primaryName_eq_some_iff.mp htarget
      exact Tables.one_le_primaries_iff.mpr ⟨r', hr', hp'⟩
    refine ⟨some true, rfl, fun _ _ => hone, fun _ _ hop _ => (by cases hop),
      fun hset => absurd rfl (hset name), fun _ _ => Or.inr ⟨?_, ?_⟩⟩
    · rw [htarget, hcurrent]
      exact fun h => hne (Option.some.inj h)
    · show v₂.apps.map handToRecovery = _
      rw [happs₂, happs₁]

/-- `set_primary_domain` returns without a change, or promotes another domain than the primary. -/
theorem setPrimaryDomain_publishes_of {R : Option Bool → Tables → Tables → Prop} (name : String)
    (hkeep : ∀ c, R (some false) c c)
    (hpromote : ∀ c currentName targetName, c.primaryName = some currentName →
      targetName ≠ currentName → Prog.PublishesFrom R c (promote currentName targetName) c) :
    (setPrimaryDomain name).Publishes R := by
  intro c
  show Prog.PublishesFrom _ c (Prog.select _) c
  unfold Prog.PublishesFrom
  dsimp only
  split
  · trivial
  · rename_i target htarget
    unfold Prog.PublishesFrom
    dsimp only
    split
    · trivial
    · rename_i currentName hcurrent
      split
      · -- the target is the primary domain already
        exact ⟨some false, rfl, hkeep c⟩
      · rename_i hne
        unfold Prog.PublishesFrom
        dsimp only
        split
        · exact hpromote c currentName target.name hcurrent hne
        · trivial

theorem setPrimaryDomain_publishes (name : String) :
    (setPrimaryDomain name).Publishes (Effect (.setPrimaryDomain name)) := by
  apply setPrimaryDomain_publishes_of
  · exact fun c => ⟨fun _ h => h, fun _ _ hop _ => (by cases hop), fun _ => rfl,
      fun _ _ => Or.inl rfl⟩
  · exact fun c currentName targetName => promote_publishes rfl

theorem program_publishes (op : DomainOp) : (program op).Publishes (Effect op) := by
  cases op with
  | seedDomains primary extras => exact seedDomains_publishes primary extras
  | upsertRecord record => exact upsertRecord_publishes record
  | removeRecord name => exact removeRecord_publishes name
  | removeNonPrimaryRecord name => exact removeNonPrimaryRecord_publishes name
  | setPrimaryDomain name => exact setPrimaryDomain_publishes name
  | setRecordStatus name certStatus errorMessage =>
    exact setRecordStatus_publishes name certStatus errorMessage

/-! ## Runs -/

/-- Connections over the two tables. -/
abbrev Connections := Store DomainOp Tables DomainError (Option Bool)

/-- A step of `remove_record` is taken only while no row of that name is primary. -/
def sparesPrimary (s : Connections) : Action DomainOp DomainError → Bool
  | .advance i =>
      match s.sessions i with
      | some (.removeRecord name, _) =>
          s.committed.domains.all fun r => r.name ≠ lower name || !r.isPrimary
      | _ => true
  | _ => true

/-- What is reached from `s₀` when `remove_record` is called on non-primary names only. -/
abbrev Reaches (s₀ s : Connections) : Prop :=
  Reach (fun s a s' => Tx.step program s a = some s') (fun s a => sparesPrimary s a = true) s₀ s

/-- No connection is in use. -/
structure Idle (s : Connections) : Prop where
  txn : s.txn = none
  sessions : ∀ i, s.sessions i = none

/-- Some `seed_domains` has populated the table. -/
def Seeded (s : Connections) : Prop :=
  ∃ i primary extras, s.sessions i = some (.seedDomains primary extras, .ret (some true))

theorem running_program (op : DomainOp) : (program op).running = true := by
  cases op <;> rfl

/-- The operation that returns with a step spares the primary row. -/
theorem spares_of_step {s s' : Connections} {i : Nat} {op : DomainOp} {v : Option Bool}
    (hspares : sparesPrimary s (.advance i) = true)
    (h : Tx.step program s (.advance i) = some s') (hret : s'.sessions i = some (op, .ret v)) :
    Spares op s.committed := by
  rintro name rfl r hr hname
  simp only [Tx.step] at h
  split at h
  · rename_i op' p hsession
    have hop := Tx.op_of_advance h
    rw [hret] at hop
    obtain rfl : DomainOp.removeRecord name = op' := Option.some.inj hop
    simp only [sparesPrimary, hsession, List.all_eq_true, Bool.or_eq_true, decide_eq_true_eq,
      Bool.not_eq_true'] at hspares
    exact (hspares r hr).resolve_left (not_not.mpr hname)
  · cases h

/-- The connections are sound, and the table has a primary row if it has been seeded. -/
structure Settled (s₀ s : Connections) : Prop where
  sound : Sound Effect s
  primary : s₀.committed.primaries = 1 ∨ Seeded s → 1 ≤ s.committed.primaries

theorem settled_of_step {s₀ s s' : Connections} (hs : Settled s₀ s)
    {a : Action DomainOp DomainError} (hspares : sparesPrimary s a = true)
    (h : Tx.step program s a = some s') : Settled s₀ s' := by
  obtain ⟨hsound, hstep⟩ := Tx.publishes_of_step program_publishes running_program hs.sound h
  refine ⟨hsound, ?_⟩
  rcases hstep with ⟨hcommitted, hret⟩ | ⟨i, op, v, rfl, hret, heffect⟩
  · rw [hcommitted]
    intro hseeded
    apply hs.primary
    exact hseeded.imp_right fun ⟨i, primary, extras, hi⟩ => ⟨i, primary, extras, hret _ _ _ hi⟩
  · have hkept := heffect.kept (spares_of_step hspares h hret)
    rintro (hstart | ⟨j, primary, extras, hj⟩)
    · exact hkept (hs.primary (Or.inl hstart))
    · by_cases hij : j = i
      · -- this step has seeded the table
        subst hij
        obtain ⟨rfl, hp⟩ := Prod.mk.inj (Option.some.inj (hret.symm.trans hj))
        exact heffect.seeded primary extras rfl (Prog.ret.inj hp)
      · apply hkept
        apply hs.primary
        refine Or.inr ⟨j, primary, extras, ?_⟩
        simp only [Tx.step] at h
        split at h
        · rw [← Tx.sessions_of_advance h hij]
          exact hj
        · cases h

theorem settled_of_reaches {s₀ s : Connections} (hidle : Idle s₀) (h : Reaches s₀ s) :
    Settled s₀ s := by
  apply h.invariant (Settled s₀)
  · refine ⟨Tx.sound_of_unused hidle.txn hidle.sessions, ?_⟩
    rintro (hstart | ⟨i, primary, extras, hi⟩)
    · exact Nat.le_of_eq hstart.symm
    · rw [hidle.sessions i] at hi
      cases hi
  · exact fun s a s' hs hok hstep => settled_of_step hs hok hstep

/-- A program that has ended is where it was in every state reached later. -/
theorem ended_of_reaches {s t : Connections} (h : Reaches s t) {i : Nat} {op : DomainOp}
    {p : DomainProg} (hsession : s.sessions i = some (op, p)) (hended : p.running = false) :
    t.sessions i = some (op, p) :=
  h.invariant (fun t => t.sessions i = some (op, p)) hsession
    fun _ _ _ ht _ hstep => Tx.ended_of_step hstep ht hended

/-- In every run: once the table is seeded one row is primary; only an operation that returns with
that very step, and so never fails, changes what is committed; and `set_primary_domain` changes the
apps only together with the primary, and then hands over exactly the live ones. -/
theorem oneDomain_of_reaches {s₀ s : Connections} (hidle : Idle s₀) (h : Reaches s₀ s) :
    (s₀.committed.primaries = 1 ∨ Seeded s → s.committed.primaries = 1) ∧
    ∀ a s', sparesPrimary s a = true → Tx.step program s a = some s' →
      s'.committed = s.committed ∨
      ∃ i op v, a = .advance i ∧ (∀ t, Reaches s' t → t.sessions i = some (op, .ret v)) ∧
        ((∀ name, op ≠ .setPrimaryDomain name) → s'.committed.apps = s.committed.apps) ∧
        (∀ name, op = .setPrimaryDomain name →
          s'.committed.primaryName ≠ s.committed.primaryName ∧
          s'.committed.apps = s.committed.apps.map handToRecovery) := by
  have hs := settled_of_reaches hidle h
  refine ⟨fun hseeded => Nat.le_antisymm s.committed.primaries_le (hs.primary hseeded), ?_⟩
  intro a s' _ hstep
  by_cases hsame : s'.committed = s.committed
  · exact Or.inl hsame
  · obtain ⟨-, hpublished⟩ := Tx.publishes_of_step program_publishes running_program hs.sound hstep
    rcases hpublished with ⟨hcommitted, -⟩ | ⟨i, op, v, rfl, hret, heffect⟩
    · exact Or.inl hcommitted
    · refine Or.inr ⟨i, op, v, rfl, fun t ht => ended_of_reaches ht hret rfl, heffect.apps, ?_⟩
      intro name hop
      exact (heffect.handed name hop).resolve_left hsame

/-! ## A promotion without apps -/

/-- A step changes the status of some app exactly when it changes the primary. -/
def StatusesFollow (s s' : Connections) : Prop :=
  s'.committed.apps.map Apps.Row.status ≠ s.committed.apps.map Apps.Row.status ↔
    s'.committed.primaryName ≠ s.committed.primaryName

/-- A new instance: no domains, no apps. -/
def newInstance : Connections where
  committed := ⟨[], [], ⟨List.nodup_nil, Nat.zero_le 1⟩⟩
  txn := none
  sessions _ := none

theorem idle_newInstance : Idle newInstance := ⟨rfl, fun _ => rfl⟩

/-- Two domains are configured, and the second one is about to become the primary. -/
def promotion : List (Action DomainOp DomainError) :=
  [.start 0 (.seedDomains ⟨"a.com", true, false⟩ []), .advance 0, .advance 0, .advance 0,
    .start 1 (.upsertRecord ⟨"b.com", true, false, .active, none, false⟩), .advance 1, .advance 1,
    .start 2 (.setPrimaryDomain "b.com"), .advance 2, .advance 2, .advance 2, .advance 2,
    .advance 2, .advance 2, .advance 2]

/-- What a step of the promotion starts from and leads to. -/
structure PromotionView where
  promotes : Option DomainOp
  seeds : Option DomainOp
  seeded : Option (Option Bool)
  primary : Option String
  primary' : Option String
  apps : List Apps.Row
  apps' : List Apps.Row
  deriving DecidableEq

def promotionView (s s' : Connections) : PromotionView where
  promotes := (s.sessions 2).map Prod.fst
  seeds := (s.sessions 0).map Prod.fst
  seeded := (s.sessions 0).bind fun x => x.2.result?
  primary := s.committed.primaryName
  primary' := s'.committed.primaryName
  apps := s.committed.apps
  apps' := s'.committed.apps

/-- The last step of the promotion. -/
def promoted : PromotionView where
  promotes := some (.setPrimaryDomain "b.com")
  seeds := some (.seedDomains ⟨"a.com", true, false⟩ [])
  seeded := some (some true)
  primary := some "a.com"
  primary' := some "b.com"
  apps := []
  apps' := []

theorem run_promotion : ∃ s s', Reaches newInstance s ∧
    Tx.step program s (.advance 2) = some s' ∧ promotionView s s' = promoted := by
  have hrun : ((runAll (Tx.step program) (fun s a => sparesPrimary s a = true) newInstance
      promotion).bind fun s => (Tx.step program s (.advance 2)).map (promotionView s)) =
        some promoted := by
    decide +kernel
  obtain ⟨s, hs, hlast⟩ := Option.bind_eq_some_iff.mp hrun
  obtain ⟨s', hs', hview⟩ := Option.map_eq_some_iff.mp hlast
  exact ⟨s, s', reach_of_run hs, hs', hview⟩

/-- While the new domain waits to be promoted the first one is the primary. -/
theorem promotion_oneDomain : ∃ s, Reaches newInstance s ∧
    s.committed.primaryName = some "a.com" ∧ s.committed.primaries = 1 := by
  obtain ⟨s, s', hs, -, hview⟩ := run_promotion
  obtain ⟨⟨op, p⟩, hsession, hop⟩ := Option.map_eq_some_iff.mp (congrArg PromotionView.seeds hview)
  obtain ⟨⟨op', p'⟩, hsession', hret⟩ :=
    Option.bind_eq_some_iff.mp (congrArg PromotionView.seeded hview)
  obtain ⟨rfl, rfl⟩ := Prod.mk.inj (Option.some.inj (hsession.symm.trans hsession'))
  have hp : p = .ret (some true) := Prog.result?_eq_some_iff.mp hret
  have hseeded : Seeded s := by
    refine ⟨0, ⟨"a.com", true, false⟩, [], ?_⟩
    rw [hsession, hp, ← hop]
  exact ⟨s, hs, congrArg PromotionView.primary hview,
    (oneDomain_of_reaches idle_newInstance hs).1 (Or.inr hseeded)⟩

/-- The primary changes and no status does. -/
theorem promotion_without_apps :
    ¬ ∀ s₀ s s' i name, Idle s₀ → Reaches s₀ s →
      (s.sessions i).map Prod.fst = some (.setPrimaryDomain name) →
      Tx.step program s (.advance i) = some s' → StatusesFollow s s' := by
  intro h
  obtain ⟨s, s', hs, hstep, hview⟩ := run_promotion
  have hfollow := h newInstance s s' 2 "b.com" idle_newInstance hs
    (congrArg PromotionView.promotes hview) hstep
  have hprimary : s.committed.primaryName = some "a.com" := congrArg PromotionView.primary hview
  have hprimary' : s'.committed.primaryName = some "b.com" :=
    congrArg PromotionView.primary' hview
  have happs : s.committed.apps = [] := congrArg PromotionView.apps hview
  have happs' : s'.committed.apps = [] := congrArg PromotionView.apps' hview
  have hchanged : s'.committed.primaryName ≠ s.committed.primaryName := by
    rw [hprimary, hprimary']
    decide
  apply hfollow.mpr hchanged
  rw [happs, happs']

end OpenHost.Domains

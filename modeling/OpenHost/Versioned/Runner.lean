import Mathlib.Algebra.Order.Ring.Int
import Mathlib.Data.Nat.Cast.Basic
import Mathlib.Tactic.Push
import OpenHost.Library.Runs
import OpenHost.Library.Script

/-!
# The startup runner of the database migrations

`db/versioned/base.py` and `runner.py`.  On every start the database is created from `schema.sql`, or
brought up to the highest version that the code has; each migration and its stamp are one transaction.
What a migration does is left open: its statements are given, and may be refused.
-/

namespace OpenHost.Versioned

open Sql

/-- A database: the table `schema_version`, with its row, and the other tables. -/
structure Database (δ : Type) where
  schemaVersion : Option (Option Int)
  content : δ

variable {ρ δ : Type}

/-- `read_version` -/
def Database.readVersion (db : Database δ) : Int := db.schemaVersion.join.getD 0

/-- How a migration runs its statements. -/
inductive Kind where
  /-- `Migration.apply` -/
  | python
  /-- `SqlFileMigration.apply` -/
  | sqlFile
  /-- An `apply` of its own, which turns off the foreign keys. -/
  | togglesForeignKeys

/-- A registered migration.  `ρ` is what it draws at random. -/
structure Migration (ρ δ : Type) where
  version : Int
  kind : Kind
  /-- Its statements, by what it draws and what it finds. -/
  up : ρ → δ → List (Statement δ)

/-- A statement of `schema.sql`. -/
inductive SchemaStatement (δ : Type) where
  | otherTables (f : Statement δ)
  /-- `CREATE TABLE IF NOT EXISTS schema_version` -/
  | createSchemaVersion

/-- The code of one release. -/
structure Code (ρ δ : Type) where
  registry : List (Migration ρ δ)
  schemaSql : List (SchemaStatement δ)

/-! ## Statements -/

/-- A statement that concerns the other tables. -/
def onContent (f : Statement δ) : Statement (Database δ) := fun fk db =>
  (f fk db.content).map fun content => { db with content := content }

/-- `INSERT OR REPLACE INTO schema_version` -/
def stamp (version : Int) : Statement (Database δ) := fun _ db =>
  db.schemaVersion.map fun _ => { db with schemaVersion := some (some version) }

def SchemaStatement.statement : SchemaStatement δ → Statement (Database δ)
  | .otherTables f => onContent f
  | .createSchemaVersion => fun _ db =>
      some { db with schemaVersion := some (db.schemaVersion.getD none) }

/-- The statements of a migration, with the stamp. -/
def Migration.statements (m : Migration ρ δ) (seed : ρ) (db : Database δ) :
    List (Statement (Database δ)) :=
  (m.up seed db.content).map onContent ++ [stamp m.version]

/-- The statements that create a database, with the stamp. -/
def Code.initStatements (code : Code ρ δ) (highest : Int) : List (Statement (Database δ)) :=
  code.schemaSql.map SchemaStatement.statement ++ [stamp highest]

/-! ## `apply` -/

/-- Statements and `COMMIT` in an open transaction. -/
def body (fs : Database δ → List (Statement (Database δ))) : Script (Database δ) :=
  select fun db => andThen (executeAll (fs db)) commit

/-- `executescript`, of a script that begins and commits a transaction. -/
def executescript (fs : Database δ → List (Statement (Database δ))) : Script (Database δ) :=
  andThen implicitCommit (andThen begin_ (body fs))

/-- `migration.apply(db)` -/
def Migration.apply (m : Migration ρ δ) (seed : ρ) : Script (Database δ) :=
  match m.kind with
  | .python => andThen begin_ (orRollback (body (m.statements seed)))
  | .sqlFile =>
      -- the file is read first
      andThen query (orRollback (executescript (m.statements seed)))
  | .togglesForeignKeys =>
      andThen (pragmaForeignKeys false) (andThen begin_
        (finally_ (orRollback (body (m.statements seed))) (pragmaForeignKeys true)))

/-- `_init_fresh` -/
def Code.initFresh (code : Code ρ δ) (highest : Int) : Script (Database δ) :=
  andThen query (orRollback (executescript fun _ => code.initStatements highest))

/-! ## The runner -/

/-- `validate_registry` -/
def validateRegistry (registry : List (Migration ρ δ)) : Bool :=
  registry.map Migration.version = (List.range registry.length).map fun i : Nat => 2 + (i : Int)

/-- `highest_registered_version` -/
def highestRegisteredVersion (registry : List (Migration ρ δ)) : Int :=
  match registry.getLast? with
  | none => 1
  | some m => m.version

/-- The loop over the registered migrations. -/
def applyFrom (seed : Int → ρ) : List (Migration ρ δ) → Int → Script (Database δ)
  | [], _ => done
  | m :: ms, current =>
      if m.version ≤ current then applyFrom seed ms current
      else andThen (m.apply (seed m.version)) (applyFrom seed ms m.version)

section

variable (hasTables : δ → Bool)

/-- `_has_any_tables` -/
def Database.hasAnyTables (db : Database δ) : Bool := db.schemaVersion.isSome || hasTables db.content

/-- `_apply_under_lock`, on the open connection. -/
def applyUnderLock (code : Code ρ δ) (seed : Int → ρ) (highest : Int) : Script (Database δ) :=
  andThen query (select fun db =>
    if highest < db.readVersion then raise
    else andThen query
      (if db.hasAnyTables hasTables = false then code.initFresh highest
      else if db.readVersion = 0 then raise
      else applyFrom seed code.registry db.readVersion))

/-- `apply_migrations`; the lock file, the lock and the connection are calls that can fail. -/
def applyMigrations (code : Code ρ δ) (seed : Int → ρ) : Script (Database δ) :=
  if validateRegistry code.registry = false then raise
  else andThen query
    (applyUnderLock hasTables code seed (highestRegisteredVersion code.registry))

/-- One start of the process on this disk, where foreign keys are not enforced at first. -/
def startup (code : Code ρ δ) (seed : Int → ρ) (fates : List Fate) (db : Database δ) :
    Result (Database δ) :=
  applyMigrations hasTables code seed ⟨db, none, false⟩ fates

/-! ## What a version stands for -/

/-- What a migration makes of the tables; foreign keys are off where it turns them off. -/
def Migration.Effect (m : Migration ρ δ) (content content' : δ) : Prop :=
  ∃ seed fk, (m.kind = .togglesForeignKeys → fk = false) ∧
    runStatements fk (m.up seed content) content = some content'

/-- `schema.sql`, with the stamp, makes this of the database. -/
def Code.Creates (code : Code ρ δ) (db db' : Database δ) : Prop :=
  ∃ fk, runStatements fk (code.initStatements (highestRegisteredVersion code.registry)) db = some db'

/-- The tables hold what a version stands for, if the database was `start` at first. -/
inductive Holds (all : List (Migration ρ δ)) (start : Database δ) : Int → δ → Prop where
  /-- The version at first. -/
  | start : start.readVersion ≠ 0 → Holds all start start.readVersion start.content
  /-- A database created by one of the releases. -/
  | fresh {code : Code ρ δ} {db : Database δ} : code.registry <+: all →
      start.hasAnyTables hasTables = false → code.Creates start db →
      Holds all start (highestRegisteredVersion code.registry) db.content
  /-- The next migration. -/
  | migrate {n : Nat} {m : Migration ρ δ} {content content' : δ} :
      Holds all start (n + 1) content → all[n]? = some m → m.Effect content content' →
      Holds all start (n + 2) content'

/-- The database is as at first and has no version, or holds what its version stands for. -/
def Sound (all : List (Migration ρ δ)) (start db : Database δ) : Prop :=
  db = start ∧ db.readVersion = 0 ∨
    1 ≤ db.readVersion ∧ Holds hasTables all start db.readVersion db.content

end

/-! ## What `apply` leaves -/

section Apply

variable {db : Database δ} {fk : Bool}

theorem runStatements_onContent (fs : List (Statement δ)) (schemaVersion : Option (Option Int))
    (content : δ) :
    runStatements fk (fs.map onContent) ⟨schemaVersion, content⟩ =
      (runStatements fk fs content).map fun content => ⟨schemaVersion, content⟩ := by
  induction fs generalizing content with
  | nil => rfl
  | cons f fs ih =>
    simp only [List.map_cons, runStatements, onContent]
    cases f fk content with
    | none => rfl
    | some content' => exact ih content'

/-- The statements of a migration have its effect, and stamp its version. -/
theorem effect_of_statements {m : Migration ρ δ} {seed : ρ} {db' : Database δ}
    (hfk : m.kind = .togglesForeignKeys → fk = false)
    (h : runStatements fk (m.statements seed db) db = some db') :
    m.Effect db.content db'.content ∧ db'.readVersion = m.version := by
  obtain ⟨schemaVersion, content⟩ := db
  rw [Migration.statements, runStatements_append, runStatements_onContent] at h
  cases hrun : runStatements fk (m.up seed content) content with
  | none =>
    rw [hrun] at h
    cases h
  | some content' =>
    rw [hrun] at h
    simp only [Option.map_some, Option.bind_some, runStatements, stamp, Option.bind_eq_some_iff] at h
    obtain ⟨_, hstamp, hsame⟩ := h
    obtain ⟨_, -, rfl⟩ := Option.map_eq_some_iff.mp hstamp
    cases hsame
    exact ⟨⟨seed, fk, hfk, hrun⟩, rfl⟩

/-- What `apply` leaves: the effect of the migration with its stamp, or nothing. -/
theorem meets_apply (m : Migration ρ δ) (seed : ρ) :
    Meets (Idle db fk) (m.apply seed) (Atomic db fun db' =>
      m.Effect db.content db'.content ∧ db'.readVersion = m.version) := by
  have hbody : ∀ fk, (m.kind = .togglesForeignKeys → fk = false) →
      Meets (InTxn db fk db) (body (m.statements seed)) (Atomic db fun db' =>
        m.Effect db.content db'.content ∧ db'.readVersion = m.version) :=
    fun fk hfk => (meets_statements (m.statements seed)).weaken (fun _ h => h)
      fun _ _ h => h.mono fun _ hrun => effect_of_statements hfk hrun
  unfold Migration.apply
  cases hkind : m.kind with
  | python =>
    exact meets_begin_atomic (meets_orRollback_atomic (hbody fk (by rw [hkind]; exact nofun)))
  | sqlFile =>
    exact meets_query_atomic (meets_orRollback_atomic (meets_implicitCommit_atomic
      (meets_begin_atomic (hbody fk (by rw [hkind]; exact nofun)))))
  | togglesForeignKeys =>
    exact meets_pragma_atomic (meets_orRollback_atomic (hbody false fun _ => rfl))

/-- `schema.sql` is stamped with the version that is given. -/
theorem readVersion_of_initStatements {code : Code ρ δ} {highest : Int} {db' : Database δ}
    (h : runStatements fk (code.initStatements highest) db = some db') :
    db'.readVersion = highest := by
  rw [Code.initStatements, runStatements_append] at h
  obtain ⟨created, -, hlast⟩ := Option.bind_eq_some_iff.mp h
  simp only [runStatements, stamp, Option.bind_eq_some_iff] at hlast
  obtain ⟨_, hstamp, hsame⟩ := hlast
  obtain ⟨_, -, rfl⟩ := Option.map_eq_some_iff.mp hstamp
  cases hsame
  rfl

theorem meets_initFresh (code : Code ρ δ) :
    Meets (Idle db fk) (code.initFresh (highestRegisteredVersion code.registry))
      (Atomic db fun db' => code.Creates db db' ∧
        db'.readVersion = highestRegisteredVersion code.registry) := by
  refine meets_query_atomic (meets_orRollback_atomic (meets_implicitCommit_atomic
    (meets_begin_atomic ?_)))
  exact (meets_statements fun _ => code.initStatements _).weaken (fun _ h => h)
    fun _ _ h => h.mono fun _ hrun => ⟨⟨fk, hrun⟩, readVersion_of_initStatements hrun⟩

end Apply

/-! ## What a start leaves -/

section Startup

variable {hasTables : δ → Bool} {all : List (Migration ρ δ)} {start db : Database δ} {code : Code ρ δ}

/-- The registered migrations have the versions from 2 on. -/
theorem version_of_validateRegistry (h : validateRegistry code.registry = true) {i : Nat}
    {m : Migration ρ δ} (hm : code.registry[i]? = some m) : m.version = i + 2 := by
  have hversions : code.registry.map Migration.version =
      (List.range code.registry.length).map fun i : Nat => 2 + (i : Int) := of_decide_eq_true h
  obtain ⟨hi, -⟩ := List.getElem?_eq_some_iff.mp hm
  have hat := congrArg (·[i]?) hversions
  simp only [List.getElem?_map, hm, Option.map_some, List.getElem?_range hi,
    Option.some.injEq] at hat
  omega

theorem highestRegisteredVersion_eq (h : validateRegistry code.registry = true) :
    highestRegisteredVersion code.registry = code.registry.length + 1 := by
  unfold highestRegisteredVersion
  cases hlast : code.registry.getLast? with
  | none =>
    rw [List.getLast?_eq_none_iff.mp hlast]
    rfl
  | some m =>
    rw [List.getLast?_eq_getElem?] at hlast
    have hpos : 0 < code.registry.length := by
      obtain ⟨hi, -⟩ := List.getElem?_eq_some_iff.mp hlast
      omega
    have hversion := version_of_validateRegistry h hlast
    dsimp only
    omega

/-- The tables hold what the version stands for that is recorded. -/
def Recorded (hasTables : δ → Bool) (all : List (Migration ρ δ)) (start db : Database δ) : Prop :=
  1 ≤ db.readVersion ∧ Holds hasTables all start db.readVersion db.content

/-- The connection is idle, on a database of this version. -/
def Ready (hasTables : δ → Bool) (all : List (Migration ρ δ)) (start : Database δ) (current : Int)
    (c : Sql.Conn (Database δ)) : Prop :=
  c.txn = none ∧ Recorded hasTables all start c.disk ∧ c.disk.readVersion = current

/-- The next migration. -/
theorem recorded_of_effect {n : Nat} {m : Migration ρ δ} {db' : Database δ}
    (h : Recorded hasTables all start db) (hversion : db.readVersion = n + 1)
    (hm : all[n]? = some m) (heffect : m.Effect db.content db'.content)
    (hstamp : db'.readVersion = n + 2) : Recorded hasTables all start db' := by
  have hholds := h.2
  rw [hversion] at hholds
  exact ⟨by omega, by rw [hstamp]; exact hholds.migrate hm heffect⟩

/-- The loop, at the migration with index `i`. -/
theorem meets_applyFrom (seed : Int → ρ) {ms : List (Migration ρ δ)} {i : Nat} {current : Int}
    (hms : ∀ j m, ms[j]? = some m → all[i + j]? = some m ∧ m.version = i + j + 2)
    (hcurrent : (i : Int) + 1 ≤ current) :
    Meets (Ready hasTables all start current) (applyFrom seed ms current) fun o c =>
      Recorded hasTables all start c.disk ∧
        (o = .returned → c.disk.readVersion = max current (i + ms.length + 1)) := by
  induction ms generalizing i current with
  | nil =>
    refine meets_done fun c hc => ⟨hc.2.1, fun _ => ?_⟩
    rw [hc.2.2, List.length_nil]
    omega
  | cons m ms ih =>
    obtain ⟨hm, hversion⟩ := hms 0 m rfl
    have hrest : ∀ j m', ms[j]? = some m' → all[i + 1 + j]? = some m' ∧
        m'.version = (i + 1 : Nat) + j + 2 := by
      intro j m' hm'
      obtain ⟨hall, heq⟩ := hms (j + 1) m' hm'
      refine ⟨by rwa [Nat.add_assoc, Nat.add_comm 1 j], ?_⟩
      push_cast at heq ⊢
      omega
    rw [applyFrom]
    split
    · refine (ih hrest (by push_cast; omega)).weaken (fun _ h => h) ?_
      rintro o c ⟨hrecorded, hreturned⟩
      refine ⟨hrecorded, fun ho => ?_⟩
      rw [hreturned ho, List.length_cons]
      push_cast
      omega
    · -- the first migration above the current version
      rintro ⟨db, txn, fk⟩ fates ⟨rfl, hrecorded, hdb⟩
      have hat : db.readVersion = i + 1 := by
        have : db.readVersion = current := hdb
        omega
      have hnext : ∀ db' : Database δ, m.Effect db.content db'.content ∧
          db'.readVersion = m.version → Recorded hasTables all start db' :=
        fun db' h => recorded_of_effect hrecorded hat hm h.1 (by rw [h.2, hversion]; omega)
      suffices hmeets : Meets (Idle db fk)
          (andThen (m.apply (seed m.version)) (applyFrom seed ms m.version)) fun o c =>
            Recorded hasTables all start c.disk ∧ (o = .returned →
              c.disk.readVersion = max current (i + (m :: ms).length + 1)) from
        hmeets _ fates rfl
      refine meets_andThen (R := Ready hasTables all start m.version) (meets_apply m (seed m.version))
        ((ih (i := i + 1) hrest (by push_cast; omega)).weaken (fun _ h => h)
          ?_) ?_ ?_
      · rintro o c ⟨hsound, hreturned⟩
        refine ⟨hsound, fun ho => ?_⟩
        rw [hreturned ho, List.length_cons]
        push_cast
        omega
      · intro c hc
        obtain ⟨hR, htxn⟩ := hc.2 rfl
        exact ⟨htxn, hnext _ hR, hR.2⟩
      · intro o c hne hc
        refine ⟨?_, fun ho => absurd ho hne⟩
        rcases hc.1 with hsame | hR
        · rw [hsame]
          exact hrecorded
        · exact hnext _ hR

/-- What a start leaves of a database. -/
structure StartupSound (hasTables : δ → Bool) (all : List (Migration ρ δ)) (start : Database δ)
    (code : Code ρ δ) (db : Database δ) (o : Sql.Outcome) (db' : Database δ) : Prop where
  sound : Sound hasTables all start db'
  /-- The service starts with the version of its code. -/
  returned : o = .returned → db'.readVersion = highestRegisteredVersion code.registry
  /-- A database without tables is created as a whole and stamped, or left alone. -/
  fresh : db.hasAnyTables hasTables = false → db' = db ∨
    code.Creates db db' ∧ db'.readVersion = highestRegisteredVersion code.registry
  /-- A newer database is refused. -/
  newer : highestRegisteredVersion code.registry < db.readVersion → db' = db ∧ o ≠ .returned

/-- A start that leaves the database alone. -/
theorem StartupSound.unchanged (h : Sound hasTables all start db) {o : Sql.Outcome} (ho : o ≠ .returned) :
    StartupSound hasTables all start code db o db where
  sound := h
  returned := fun hreturned => absurd hreturned ho
  fresh := fun _ => Or.inl rfl
  newer := fun _ => ⟨rfl, ho⟩

theorem readVersion_of_no_tables (h : db.hasAnyTables hasTables = false) : db.readVersion = 0 := by
  have hnone : db.schemaVersion = none := by
    cases hversion : db.schemaVersion with
    | none => rfl
    | some _ => simp [Database.hasAnyTables, hversion] at h
  rw [Database.readVersion, hnone]
  rfl

theorem meets_applyMigrations (seed : Int → ρ) (hgrows : code.registry <+: all)
    (h : Sound hasTables all start db) :
    Meets (Idle db false) (applyMigrations hasTables code seed) fun o c =>
      StartupSound hasTables all start code db o c.disk := by
  have hrefused : ∀ {fk : Bool} {o : Sql.Outcome} {c : Sql.Conn (Database δ)}, o ≠ .returned →
      Idle db fk c → StartupSound hasTables all start code db o c.disk := by
    rintro fk o c ho rfl
    exact .unchanged h ho
  have hquery : ∀ {s : Script (Database δ)},
      Meets (Idle db false) s (fun o c => StartupSound hasTables all start code db o c.disk) →
      Meets (Idle db false) (andThen query s)
        fun o c => StartupSound hasTables all start code db o c.disk :=
    fun hs => meets_andThen (meets_query (Q := fun _ => Idle db false) fun _ _ h => h) hs
      (fun _ h => h) fun _ _ hne h => hrefused hne h
  have hraise : Meets (Idle db false) (raise : Script (Database δ)) fun o c =>
      StartupSound hasTables all start code db o c.disk :=
    meets_raise fun c hc => hrefused (by decide) hc
  rw [applyMigrations]
  by_cases hvalid : validateRegistry code.registry = false
  · rw [if_pos hvalid]
    exact hraise
  rw [if_neg hvalid]
  refine hquery (hquery (meets_select_idle ?_))
  replace hvalid : validateRegistry code.registry = true := by simpa using hvalid
  split
  · exact hraise
  rename_i hnewer
  refine hquery ?_
  split
  · -- without tables
    rename_i htables
    refine (meets_initFresh code).weaken (fun _ h => h) fun o c hc => ?_
    have hzero := readVersion_of_no_tables htables
    have hstart : db = start := by
      rcases h with ⟨heq, -⟩ | ⟨hpos, -⟩
      · exact heq
      · omega
    have hcreated : ∀ {o : Sql.Outcome}, code.Creates db c.disk ∧
        c.disk.readVersion = highestRegisteredVersion code.registry →
        StartupSound hasTables all start code db o c.disk := by
      rintro o ⟨hcreates, hversion⟩
      refine ⟨Or.inr ⟨?_, ?_⟩, fun _ => hversion, fun _ => Or.inr ⟨hcreates, hversion⟩,
        fun hlt => absurd hlt hnewer⟩
      · rw [hversion, highestRegisteredVersion_eq hvalid]
        omega
      · rw [hversion]
        subst hstart
        exact .fresh hgrows htables hcreates
    by_cases ho : o = .returned
    · exact hcreated (hc.2 ho).1
    · rcases hc.1 with hsame | hR
      · rw [hsame]
        exact .unchanged h ho
      · exact hcreated hR
  · rename_i htables
    split
    · exact hraise
    · rename_i hversion
      have hrecorded : Recorded hasTables all start db := by
        rcases h with ⟨-, hzero⟩ | hrecorded
        · exact absurd hzero hversion
        · exact hrecorded
      have hregistered : ∀ (j : Nat) (m : Migration ρ δ), code.registry[j]? = some m →
          all[0 + j]? = some m ∧ m.version = ((0 : Nat) : Int) + (j : Int) + 2 := by
        intro j m hm
        rw [Nat.zero_add, version_of_validateRegistry hvalid hm]
        refine ⟨?_, by push_cast; omega⟩
        obtain ⟨later, rfl⟩ := hgrows
        rw [List.getElem?_append_left (List.getElem?_eq_some_iff.mp hm).1]
        exact hm
      have hloop : Meets (Ready hasTables all start db.readVersion)
          (applyFrom seed code.registry db.readVersion) _ :=
        meets_applyFrom seed hregistered (by push_cast; exact hrecorded.1)
      refine hloop.weaken ?_ fun o c hc => ?_
      · rintro c rfl
        exact ⟨rfl, hrecorded, rfl⟩
      · refine ⟨Or.inr hc.1, fun ho => ?_, fun hnone => absurd hnone htables,
          fun hlt => absurd hlt hnewer⟩
        rw [hc.2 ho, highestRegisteredVersion_eq hvalid]
        rw [highestRegisteredVersion_eq hvalid] at hnewer
        push_cast
        omega

/-- Any start, with any code that only adds to the registry, of a database that is sound. -/
theorem startup_sound (hgrows : code.registry <+: all) (h : Sound hasTables all start db)
    (seed : Int → ρ) (fates : List Fate) :
    StartupSound hasTables all start code db (startup hasTables code seed fates db).outcome
      (startup hasTables code seed fates db).conn.disk :=
  meets_applyMigrations seed hgrows h ⟨db, none, false⟩ fates rfl

end Startup

/-- One start: the code, what its migrations draw, and how its calls fare. -/
structure Start (ρ δ : Type) where
  code : Code ρ δ
  seed : Int → ρ
  fates : List Fate

/-- One start leaves this database. -/
def startStep (hasTables : δ → Bool) (db : Database δ) (a : Start ρ δ) (db' : Database δ) : Prop :=
  (startup hasTables a.code a.seed a.fates db).conn.disk = db'

/-- After any sequence of starts, each of which may have failed or died anywhere, the database is as
at first or holds what its version stands for, and so it is after the next one. -/
theorem startups_of_reaches {hasTables : δ → Bool} {all : List (Migration ρ δ)} {start db : Database δ}
    (hstart : 0 ≤ start.readVersion)
    (hreach : Reach (startStep hasTables) (fun _ a => a.code.registry <+: all) start db) :
    Sound hasTables all start db ∧
      ∀ (code : Code ρ δ) (seed : Int → ρ) (fates : List Fate), code.registry <+: all →
        StartupSound hasTables all start code db (startup hasTables code seed fates db).outcome
          (startup hasTables code seed fates db).conn.disk := by
  have hsound : Sound hasTables all start db := by
    refine hreach.invariant (Sound hasTables all start) ?_ ?_
    · by_cases hzero : start.readVersion = 0
      · exact Or.inl ⟨rfl, hzero⟩
      · exact Or.inr ⟨by omega, .start hzero⟩
    · rintro db a _ hdb hgrows rfl
      exact (startup_sound hgrows hdb a.seed a.fates).sound
  exact ⟨hsound, fun code seed fates hgrows => startup_sound hgrows hsound seed fates⟩

/-- Add a table. -/
def createTable (name : String) : Statement (List String) := fun _ tables =>
  if name ∈ tables then none else some (tables ++ [name])

/-- A migration to version 2 that adds a table. -/
def addSessions : Migration Unit (List String) := ⟨2, .sqlFile, fun _ _ => [createTable "sessions"]⟩

/-- A first release, whose schema has one table, and a second one with a migration. -/
def releases : List (Start Unit (List String)) :=
  let first : List (SchemaStatement (List String)) :=
    [.otherTables (createTable "apps"), .createSchemaVersion]
  [⟨⟨[], first⟩, fun _ => (), []⟩,
    -- the process dies when the migration commits
    ⟨⟨[addSessions], first⟩, fun _ => (),
      List.replicate 7 .done ++ [.dies false]⟩]

/-- The database after these starts. -/
def migrated : Database (List String) :=
  releases.foldl (fun db a =>
    (startup (fun tables => !tables.isEmpty) a.code a.seed a.fates db).conn.disk) ⟨none, []⟩

theorem startups_of_reaches_migrated :
    Sound (fun tables => !tables.isEmpty) [addSessions] ⟨none, []⟩ migrated ∧
      ∀ (code : Code Unit (List String)) (seed : Int → Unit) (fates : List Fate),
        code.registry <+: [addSessions] →
        StartupSound (fun tables => !tables.isEmpty) [addSessions] ⟨none, []⟩ code migrated
          (startup (fun tables => !tables.isEmpty) code seed fates migrated).outcome
          (startup (fun tables => !tables.isEmpty) code seed fates migrated).conn.disk :=
  startups_of_reaches (by decide)
    (.step (a := releases[1]) (.step (a := releases[0]) .refl (List.nil_prefix) rfl)
      (List.prefix_rfl) rfl)

end OpenHost.Versioned

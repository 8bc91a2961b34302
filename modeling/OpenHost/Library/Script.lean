/-!
# Scripts on one database connection

A connection in autocommit mode, and scripts of calls on it.  A call may raise without an effect, and
the process may die in it; what is on the disk changes by a commit, or by a statement outside a
transaction.

## Reasoning

`Meets P s Q`: from a connection with `P` the script `s` ends, however its calls fare, with an outcome
and a connection that `Q` relates.  The rules follow the ways to build a script.  `meets_transaction`
is the rule for statements between `BEGIN` and `COMMIT`: all of them are on the disk, or none.
-/

namespace OpenHost.Sql

/-- A connection to a database `σ`. -/
structure Conn (σ : Type) where
  disk : σ
  /-- What an open transaction has made of it. -/
  txn : Option σ
  foreignKeys : Bool

/-- What comes of a call. -/
inductive Fate where
  | done
  /-- It raises, without an effect. -/
  | raises
  /-- The process dies, before or after the effect. -/
  | dies (after : Bool)

/-- How a script ends. -/
inductive Outcome where
  | returned
  | raised
  | died
  deriving DecidableEq

/-- Where a script ends, with the fates of the calls to come. -/
structure Result (σ : Type) where
  conn : Conn σ
  outcome : Outcome
  fates : List Fate

/-- A script, which is given the fates of its calls; further ones are done. -/
def Script (σ : Type) : Type := Conn σ → List Fate → Result σ

/-- A statement, which depends on whether foreign keys are enforced, and may be refused. -/
abbrev Statement (σ : Type) : Type := Bool → σ → Option σ

variable {σ : Type}

/-! ## Calls -/

/-- A call with this effect, or refused. -/
def call (effect : Conn σ → Option (Conn σ)) : Script σ := fun c fates =>
  match fates.head?.getD .done with
  | .raises => ⟨c, .raised, fates.tail⟩
  | .dies false => ⟨c, .died, fates.tail⟩
  | .dies true => ⟨(effect c).getD c, .died, fates.tail⟩
  | .done =>
    match effect c with
    | some c' => ⟨c', .returned, fates.tail⟩
    | none => ⟨c, .raised, fates.tail⟩

/-- A call that does not change the database. -/
def query : Script σ := call some

/-- `BEGIN EXCLUSIVE` -/
def begin_ : Script σ := call fun c =>
  match c.txn with
  | some _ => none
  | none => some { c with txn := some c.disk }

def execute (f : Statement σ) : Script σ := call fun c =>
  match c.txn with
  | some v => (f c.foreignKeys v).map fun v' => { c with txn := some v' }
  | none => (f c.foreignKeys c.disk).map fun d => { c with disk := d }

/-- `COMMIT` -/
def commit : Script σ := call fun c => c.txn.map fun v => { c with disk := v, txn := none }

/-- `ROLLBACK` -/
def rollback : Script σ := call fun c => c.txn.map fun _ => { c with txn := none }

/-- `PRAGMA foreign_keys`, without an effect inside a transaction. -/
def pragmaForeignKeys (on : Bool) : Script σ := call fun c =>
  match c.txn with
  | some _ => some c
  | none => some { c with foreignKeys := on }

/-! ## Scripts -/

def done : Script σ := fun c fates => ⟨c, .returned, fates⟩

def raise : Script σ := fun c fates => ⟨c, .raised, fates⟩

/-- One script, and another where it returns. -/
def andThen (s t : Script σ) : Script σ := fun c fates =>
  match (s c fates).outcome with
  | .returned => t (s c fates).conn (s c fates).fates
  | _ => s c fates

/-- Go on with what the connection sees. -/
def select (k : σ → Script σ) : Script σ := fun c fates => k (c.txn.getD c.disk) c fates

/-- Statements one after the other. -/
def executeAll : List (Statement σ) → Script σ
  | [] => done
  | f :: fs => andThen (execute f) (executeAll fs)

/-- Roll back where the script raises; what that raises is passed over. -/
def orRollback (s : Script σ) : Script σ := fun c fates =>
  match (s c fates).outcome with
  | .raised =>
    let r := rollback (s c fates).conn (s c fates).fates
    match r.outcome with
    | .died => r
    | _ => { r with outcome := .raised }
  | _ => s c fates

/-- `finally` -/
def finally_ (s t : Script σ) : Script σ := fun c fates =>
  match (s c fates).outcome with
  | .died => s c fates
  | outcome =>
    let r := t (s c fates).conn (s c fates).fates
    match r.outcome with
    | .returned => { r with outcome := outcome }
    | _ => r

/-- The `COMMIT` that `executescript` issues if a transaction is open. -/
def implicitCommit : Script σ := fun c fates =>
  match c.txn with
  | some _ => commit c fates
  | none => done c fates

/-- What statements make of a database; `none` where one is refused. -/
def runStatements (foreignKeys : Bool) : List (Statement σ) → σ → Option σ
  | [], v => some v
  | f :: fs, v => (f foreignKeys v).bind (runStatements foreignKeys fs)

theorem runStatements_append (foreignKeys : Bool) (fs gs : List (Statement σ)) (v : σ) :
    runStatements foreignKeys (fs ++ gs) v =
      (runStatements foreignKeys fs v).bind (runStatements foreignKeys gs) := by
  induction fs generalizing v with
  | nil => rfl
  | cons f fs ih =>
    simp only [List.cons_append, runStatements]
    cases f foreignKeys v with
    | none => rfl
    | some v' => exact ih v'

/-! ## Pre- and postconditions -/

/-- From a connection with `P` the script ends as `Q` says. -/
def Meets (P : Conn σ → Prop) (s : Script σ) (Q : Outcome → Conn σ → Prop) : Prop :=
  ∀ c fates, P c → Q (s c fates).outcome (s c fates).conn

section Rules

variable {P P' R : Conn σ → Prop} {Q Q' : Outcome → Conn σ → Prop} {s t : Script σ}

theorem Meets.weaken (h : Meets P s Q) (hpre : ∀ c, P' c → P c) (hpost : ∀ o c, Q o c → Q' o c) :
    Meets P' s Q' :=
  fun c fates hc => hpost _ _ (h c fates (hpre c hc))

/-- A call, by what its effect is. -/
theorem meets_call {effect : Conn σ → Option (Conn σ)}
    (hdied : ∀ c, P c → Q .died c) (hraised : ∀ c, P c → Q .raised c)
    (heffect : ∀ c c', P c → effect c = some c' → Q .returned c' ∧ Q .died c') :
    Meets P (call effect) Q := by
  intro c fates hc
  unfold call
  cases fates.head?.getD .done with
  | raises => exact hraised c hc
  | dies after =>
    cases after with
    | false => exact hdied c hc
    | true =>
      cases heq : effect c with
      | none => exact hdied c hc
      | some c' => exact (heffect c c' hc heq).2
  | done =>
    cases heq : effect c with
    | none => exact hraised c hc
    | some c' => exact (heffect c c' hc heq).1

theorem meets_query (h : ∀ o c, P c → Q o c) : Meets P (query : Script σ) Q := by
  refine meets_call (h .died) (h .raised) ?_
  intro c c' hc heffect
  cases heffect
  exact ⟨h _ _ hc, h _ _ hc⟩

theorem meets_done (h : ∀ c, P c → Q .returned c) : Meets P (done : Script σ) Q :=
  fun c _ hc => h c hc

theorem meets_raise (h : ∀ c, P c → Q .raised c) : Meets P (raise : Script σ) Q :=
  fun c _ hc => h c hc

theorem meets_andThen (hs : Meets P s Q') (ht : Meets R t Q) (hreturned : ∀ c, Q' .returned c → R c)
    (hended : ∀ o c, o ≠ .returned → Q' o c → Q o c) : Meets P (andThen s t) Q := by
  intro c fates hc
  have hfirst := hs c fates hc
  unfold andThen
  cases houtcome : (s c fates).outcome with
  | returned =>
    rw [houtcome] at hfirst
    exact ht _ _ (hreturned _ hfirst)
  | raised => exact hended _ _ (by rw [houtcome]; decide) hfirst
  | died => exact hended _ _ (by rw [houtcome]; decide) hfirst

theorem meets_select {k : σ → Script σ}
    (h : ∀ v, Meets (fun c => P c ∧ c.txn.getD c.disk = v) (k v) Q) : Meets P (select k) Q :=
  fun c fates hc => h _ c fates ⟨hc, rfl⟩

/-- A rollback leaves the disk alone. -/
theorem meets_orRollback (hs : Meets P s Q')
    (hraised : ∀ c txn, Q' .raised c → Q .raised { c with txn := txn } ∧ Q .died { c with txn := txn })
    (hended : ∀ o c, o ≠ .raised → Q' o c → Q o c) : Meets P (orRollback s) Q := by
  intro c fates hc
  have hfirst := hs c fates hc
  unfold orRollback
  cases houtcome : (s c fates).outcome with
  | returned => exact hended _ _ (by rw [houtcome]; decide) hfirst
  | died => exact hended _ _ (by rw [houtcome]; decide) hfirst
  | raised =>
    rw [houtcome] at hfirst
    have hkeep : Meets (Q' .raised) rollback fun _ c => Q .raised c ∧ Q .died c := by
      refine meets_call (fun c h => hraised c c.txn h) (fun c h => hraised c c.txn h) ?_
      intro c c' h heffect
      obtain ⟨v, -, rfl⟩ := Option.map_eq_some_iff.mp heffect
      exact ⟨hraised c none h, hraised c none h⟩
    obtain ⟨hafter, hafter'⟩ := hkeep _ (s c fates).fates hfirst
    dsimp only
    cases hroll : (rollback (s c fates).conn (s c fates).fates).outcome with
    | returned => exact hafter
    | raised => exact hafter
    | died =>
      dsimp only
      rw [hroll]
      exact hafter'

/-- What comes last may not spoil the outcome. -/
theorem meets_finally (hs : Meets P s Q') (hdied : ∀ c, Q' .died c → Q .died c)
    (ht : ∀ o, o ≠ .died → Meets (Q' o) t fun o' c => if o' = .returned then Q o c else Q o' c) :
    Meets P (finally_ s t) Q := by
  intro c fates hc
  have hfirst := hs c fates hc
  unfold finally_
  cases houtcome : (s c fates).outcome with
  | died =>
    dsimp only
    rw [houtcome] at hfirst ⊢
    exact hdied _ hfirst
  | returned =>
    rw [houtcome] at hfirst
    have hlast := ht .returned (by decide) _ (s c fates).fates hfirst
    dsimp only
    cases hend : (t (s c fates).conn (s c fates).fates).outcome <;> simp_all
  | raised =>
    rw [houtcome] at hfirst
    have hlast := ht .raised (by decide) _ (s c fates).fates hfirst
    dsimp only
    cases hend : (t (s c fates).conn (s c fates).fates).outcome <;> simp_all

end Rules

/-! ## Transactions -/

section Transaction

variable {d v : σ} {fk : Bool}

/-- No transaction is open. -/
def Idle (d : σ) (fk : Bool) (c : Conn σ) : Prop := c = ⟨d, none, fk⟩

/-- A transaction is open that has made `v` of `d`. -/
def InTxn (d : σ) (fk : Bool) (v : σ) (c : Conn σ) : Prop := c = ⟨d, some v, fk⟩

theorem meets_implicitCommit : Meets (Idle d fk) (implicitCommit : Script σ)
    fun o c => o = .returned ∧ Idle d fk c := by
  rintro c fates rfl
  exact ⟨rfl, rfl⟩

theorem meets_select_idle {k : σ → Script σ} {Q : Outcome → Conn σ → Prop}
    (h : Meets (Idle d fk) (k d) Q) : Meets (Idle d fk) (select k) Q := by
  rintro c fates rfl
  exact h _ fates rfl

theorem meets_begin : Meets (Idle d fk) (begin_ : Script σ)
    fun o c => c.disk = d ∧ (o = .returned → InTxn d fk d c) := by
  refine meets_call ?_ ?_ ?_
  · rintro c rfl
    exact ⟨rfl, fun h => by cases h⟩
  · rintro c rfl
    exact ⟨rfl, fun h => by cases h⟩
  · rintro c c' rfl heffect
    cases heffect
    exact ⟨⟨rfl, fun _ => rfl⟩, rfl, fun _ => rfl⟩

/-- Inside a transaction a statement changes what it sees, and nothing on the disk. -/
theorem meets_execute (f : Statement σ) : Meets (InTxn d fk v) (execute f)
    fun o c => c.disk = d ∧ (o = .returned → ∃ v', f fk v = some v' ∧ InTxn d fk v' c) := by
  refine meets_call ?_ ?_ ?_
  · rintro c rfl
    exact ⟨rfl, fun h => by cases h⟩
  · rintro c rfl
    exact ⟨rfl, fun h => by cases h⟩
  · rintro c c' rfl heffect
    obtain ⟨v', hf, rfl⟩ := Option.map_eq_some_iff.mp heffect
    exact ⟨⟨rfl, fun _ => ⟨v', hf, rfl⟩⟩, rfl, fun h => by cases h⟩

theorem meets_executeAll (fs : List (Statement σ)) : Meets (InTxn d fk v) (executeAll fs)
    fun o c => c.disk = d ∧
      (o = .returned → ∃ v', runStatements fk fs v = some v' ∧ InTxn d fk v' c) := by
  induction fs generalizing v with
  | nil =>
    rintro c fates rfl
    exact ⟨rfl, fun _ => ⟨v, rfl, rfl⟩⟩
  | cons f fs ih =>
    refine meets_andThen (R := fun c => ∃ v', f fk v = some v' ∧ InTxn d fk v' c) (meets_execute f)
      ?_ (fun c h => h.2 rfl) fun o c hne h => ⟨h.1, fun ho => absurd ho hne⟩
    -- the other statements go on from what the first one leaves
    rintro c fates ⟨v', hf, hin⟩
    obtain ⟨hdisk, hreturned⟩ := ih c fates hin
    refine ⟨hdisk, fun ho => ?_⟩
    obtain ⟨v'', hrun, hin'⟩ := hreturned ho
    exact ⟨v'', by rw [runStatements, hf]; exact hrun, hin'⟩

theorem meets_commit : Meets (InTxn d fk v) (commit : Script σ)
    fun o c => (c.disk = d ∨ c.disk = v) ∧ (o = .returned → Idle v fk c) := by
  refine meets_call ?_ ?_ ?_
  · rintro c rfl
    exact ⟨Or.inl rfl, fun h => by cases h⟩
  · rintro c rfl
    exact ⟨Or.inl rfl, fun h => by cases h⟩
  · rintro c c' rfl heffect
    cases heffect
    exact ⟨⟨Or.inr rfl, fun _ => rfl⟩, Or.inr rfl, fun _ => rfl⟩

/-- What a transaction leaves: all of its changes, or none; all where it returns. -/
def Atomic (d : σ) (R : σ → Prop) (o : Outcome) (c : Conn σ) : Prop :=
  (c.disk = d ∨ R c.disk) ∧ (o = .returned → R c.disk ∧ c.txn = none)

theorem Atomic.ended {R : σ → Prop} {o : Outcome} {c : Conn σ} (ho : o ≠ .returned)
    (hdisk : c.disk = d ∨ R c.disk) : Atomic d R o c :=
  ⟨hdisk, fun h => absurd h ho⟩

theorem Atomic.mono {R R' : σ → Prop} {o : Outcome} {c : Conn σ} (h : Atomic d R o c)
    (hR : ∀ d', R d' → R' d') : Atomic d R' o c :=
  ⟨h.1.imp_right (hR _), fun ho => (h.2 ho).imp_left (hR _)⟩

section

variable {P : Conn σ → Prop} {R : σ → Prop} {s : Script σ}

/-- Statements, chosen by what is read at the start, and a commit. -/
theorem meets_statements (fs : σ → List (Statement σ)) :
    Meets (InTxn d fk d) (select fun v => andThen (executeAll (fs v)) commit)
      (Atomic d fun d' => runStatements fk (fs d) d = some d') := by
  refine meets_select fun v => ?_
  rintro c fates ⟨rfl, rfl⟩
  refine meets_andThen (R := fun c => ∃ v', runStatements fk (fs d) d = some v' ∧ InTxn d fk v' c)
    (meets_executeAll (fs d)) ?_ (fun c h => h.2 rfl)
    (fun o c hne h => Atomic.ended hne (Or.inl h.1)) _ fates rfl
  rintro c fates ⟨v', hrun, hin⟩
  obtain ⟨hdisk, hreturned⟩ := meets_commit c fates hin
  refine ⟨?_, fun ho => ?_⟩
  · rcases hdisk with hdisk | hdisk
    · exact Or.inl hdisk
    · exact Or.inr (by rw [hdisk]; exact hrun)
  · have hidle := hreturned ho
    rw [Idle] at hidle
    rw [hidle]
    exact ⟨hrun, rfl⟩

theorem meets_orRollback_atomic (h : Meets P s (Atomic d R)) : Meets P (orRollback s) (Atomic d R) :=
  meets_orRollback h (fun _ _ h => ⟨.ended (by decide) h.1, .ended (by decide) h.1⟩)
    fun _ _ _ h => h

/-- `BEGIN`, and what goes on in the transaction. -/
theorem meets_begin_atomic (h : Meets (InTxn d fk d) s (Atomic d R)) :
    Meets (Idle d fk) (andThen begin_ s) (Atomic d R) :=
  meets_andThen meets_begin h (fun _ h => h.2 rfl) fun _ _ hne h => .ended hne (Or.inl h.1)

/-- A call before that which does not touch the database. -/
theorem meets_query_atomic (h : Meets (Idle d fk) s (Atomic d R)) :
    Meets (Idle d fk) (andThen query s) (Atomic d R) :=
  meets_andThen (meets_query (Q := fun _ => Idle d fk) fun _ _ h => h) h (fun _ h => h)
    fun _ c hne (h : c = _) => .ended hne (Or.inl (by rw [h]))

theorem meets_implicitCommit_atomic (h : Meets (Idle d fk) s (Atomic d R)) :
    Meets (Idle d fk) (andThen implicitCommit s) (Atomic d R) :=
  meets_andThen meets_implicitCommit h (fun _ h => h.2) fun _ _ hne h => absurd h.1 hne

/-- With foreign keys turned off before, and on again in the end. -/
theorem meets_pragma_atomic (h : Meets (InTxn d false d) s (Atomic d R)) :
    Meets (Idle d fk) (andThen (pragmaForeignKeys false)
      (andThen begin_ (finally_ s (pragmaForeignKeys true)))) (Atomic d R) := by
  have hpragma : Meets (Idle d fk) (pragmaForeignKeys false) fun o c =>
      c.disk = d ∧ (o = .returned → Idle d false c) := by
    refine meets_call ?_ ?_ ?_
    · rintro c rfl
      exact ⟨rfl, fun h => by cases h⟩
    · rintro c rfl
      exact ⟨rfl, fun h => by cases h⟩
    · rintro c c' rfl heffect
      cases heffect
      exact ⟨⟨rfl, fun _ => rfl⟩, rfl, fun h => by cases h⟩
  refine meets_andThen hpragma (meets_begin_atomic (meets_finally h (fun _ h => h) ?_))
    (fun _ h => h.2 rfl) fun _ _ hne h => .ended hne (Or.inl h.1)
  -- the pragma keeps the disk, and whether a transaction is open
  intro o _
  refine meets_call (fun c h => .ended (by decide) h.1) (fun c h => .ended (by decide) h.1) ?_
  intro c c' h heffect
  cases htxn : c.txn <;> rw [htxn] at heffect <;> cases heffect
  · exact ⟨⟨h.1, fun ho => ⟨(h.2 ho).1, rfl⟩⟩, .ended (by decide) h.1⟩
  · exact ⟨h, .ended (by decide) h.1⟩

end

end Transaction

end OpenHost.Sql

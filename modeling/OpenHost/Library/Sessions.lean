import OpenHost.Library.Proc

/-!
# Sessions on one connection

Procedures over one connection to a database.  The first statement that changes the database opens
a transaction, which lasts until it is committed or rolled back; an exception ends neither.  Other
connections see what is committed.

## Reasoning

* `execute_ok_iff`, `execute_raised`, `commit_ok_iff`, `commit_raised`: what a statement leaves
  behind when it returns and when it raises.
* `Conn.All P` holds of a connection when `P` holds of what is committed and of what the connection
  sees.  `keeps_execute` and the rules beside it carry it along the text of a session.
-/

namespace OpenHost

/-- One connection: what is committed, and what its open transaction, if any, has made of it. -/
structure Conn (σ : Type) where
  committed : σ
  txn : Option σ
  deriving DecidableEq

namespace Conn

variable {σ : Type}

/-- A connection that has just been opened. -/
def fresh (s : σ) : Conn σ := ⟨s, none⟩

/-- What the connection itself sees. -/
def seen (c : Conn σ) : σ := c.txn.getD c.committed

/-- A transaction is open, with what the connection sees. -/
def opened (c : Conn σ) : Conn σ := { c with txn := some c.seen }

/-- The open transaction is given up. -/
def rolledBack (c : Conn σ) : Conn σ := { c with txn := none }

/-- `P` holds of what is committed and of what the connection sees. -/
def All (P : σ → Prop) (c : Conn σ) : Prop := P c.committed ∧ P c.seen

@[simp] theorem committed_fresh (s : σ) : (fresh s).committed = s := rfl

@[simp] theorem seen_fresh (s : σ) : (fresh s).seen = s := rfl

@[simp] theorem committed_opened (c : Conn σ) : c.opened.committed = c.committed := rfl

@[simp] theorem seen_opened (c : Conn σ) : c.opened.seen = c.seen := rfl

@[simp] theorem committed_rolledBack (c : Conn σ) : c.rolledBack.committed = c.committed := rfl

@[simp] theorem seen_rolledBack (c : Conn σ) : c.rolledBack.seen = c.committed := rfl

@[simp] theorem seen_mk_some (s t : σ) : (Conn.mk s (some t)).seen = t := rfl

@[simp] theorem seen_mk_none (s : σ) : (Conn.mk s none).seen = s := rfl

theorem All.rolledBack {P : σ → Prop} {c : Conn σ} (h : c.All P) : c.rolledBack.All P :=
  ⟨h.1, h.1⟩

theorem All.opened {P : σ → Prop} {c : Conn σ} (h : c.All P) : c.opened.All P := h

end Conn

/-- Procedures over one connection. -/
abbrev Session (ε σ α : Type) : Type := Proc ε (Conn σ) α

/-- The database refuses a statement for reasons of its own, such as a full disk or a lock that is
not given up.  Some of these errors roll back the whole transaction. -/
structure Refusal (ε : Type) where
  error : ε
  rollsBack : Bool
  deriving DecidableEq, Repr

variable {ε σ α : Type}

/-- What a refused statement leaves of a connection. -/
def Refusal.leaves (r : Refusal ε) (c : Conn σ) : Conn σ :=
  if r.rollsBack then c.rolledBack else c

@[simp] theorem Refusal.committed_leaves (r : Refusal ε) (c : Conn σ) :
    (r.leaves c).committed = c.committed := by
  unfold leaves
  split <;> rfl

theorem Refusal.leaves_all {P : σ → Prop} (r : Refusal ε) {c : Conn σ} (h : c.All P) :
    (r.leaves c).All P := by
  unfold leaves
  split
  · exact h.rolledBack
  · exact h

namespace Session

/-- Read what the connection sees. -/
def select : Session ε σ σ := Proc.reads Conn.seen

/-- Read what the connection sees, unless the statement is refused. -/
def look (refused : Option (Refusal ε)) : Session ε σ σ := fun c =>
  match refused with
  | some r => (.raised r.error, r.leaves c)
  | none => (.ok c.seen, c)

/-- A statement that changes the database, unless it is refused or breaks a constraint.  It leaves
its transaction open in both cases. -/
def execute (refused : Option (Refusal ε)) (f : σ → Except ε σ) : Session ε σ Unit := fun c =>
  match refused with
  | some r => (.raised r.error, r.leaves c.opened)
  | none =>
    match f c.seen with
    | .ok s => (.ok (), { c with txn := some s })
    | .error e => (.raised e, c.opened)

/-- Publish what the connection sees. -/
def commit (refused : Option (Refusal ε)) : Session ε σ Unit := fun c =>
  match refused with
  | some r => (.raised r.error, r.leaves c)
  | none => (.ok (), Conn.fresh c.seen)

/-- Give up the open transaction. -/
def rollback : Session ε σ Unit := Proc.modify Conn.rolledBack

/-! ## What a statement leaves behind -/

@[simp] theorem select_apply (c : Conn σ) : (select : Session ε σ σ) c = (.ok c.seen, c) := rfl

theorem look_ok_iff {refused : Option (Refusal ε)} {c c' : Conn σ} {s : σ} :
    look refused c = (.ok s, c') ↔ refused = none ∧ s = c.seen ∧ c' = c := by
  cases refused <;> simp [look, eq_comm]

theorem look_raised {refused : Option (Refusal ε)} {c c' : Conn σ} {e : ε}
    (h : look refused c = (.raised e, c')) :
    ∃ r, refused = some r ∧ e = r.error ∧ c' = r.leaves c := by
  cases refused with
  | none => cases (Prod.mk.inj h).1
  | some r =>
    obtain ⟨he, hc⟩ := Prod.mk.inj h
    exact ⟨r, rfl, (Outcome.raised.inj he).symm, hc.symm⟩

theorem execute_ok_iff {refused : Option (Refusal ε)} {f : σ → Except ε σ} {c c' : Conn σ}
    {u : Unit} :
    execute refused f c = (.ok u, c') ↔
      refused = none ∧ ∃ s, f c.seen = .ok s ∧ c' = { c with txn := some s } := by
  unfold execute
  cases refused with
  | some r => simp
  | none => cases hf : f c.seen <;> simp [eq_comm]

/-- A statement that raises was refused, or broke a constraint. -/
theorem execute_raised {refused : Option (Refusal ε)} {f : σ → Except ε σ} {c c' : Conn σ} {e : ε}
    (h : execute refused f c = (.raised e, c')) :
    (∃ r, refused = some r ∧ e = r.error ∧ c' = r.leaves c.opened) ∨
      (refused = none ∧ f c.seen = .error e ∧ c' = c.opened) := by
  unfold execute at h
  cases refused with
  | some r =>
    obtain ⟨he, hc⟩ := Prod.mk.inj h
    exact Or.inl ⟨r, rfl, (Outcome.raised.inj he).symm, hc.symm⟩
  | none =>
    cases hf : f c.seen with
    | ok s =>
      rw [hf] at h
      cases (Prod.mk.inj h).1
    | error e' =>
      rw [hf] at h
      obtain ⟨he, hc⟩ := Prod.mk.inj h
      exact Or.inr ⟨rfl, by rw [Outcome.raised.inj he], hc.symm⟩

theorem commit_ok_iff {refused : Option (Refusal ε)} {c c' : Conn σ} {u : Unit} :
    commit refused c = (.ok u, c') ↔ refused = none ∧ c' = Conn.fresh c.seen := by
  cases refused <;> simp [commit, eq_comm]

theorem commit_raised {refused : Option (Refusal ε)} {c c' : Conn σ} {e : ε}
    (h : commit refused c = (.raised e, c')) :
    ∃ r, refused = some r ∧ e = r.error ∧ c' = r.leaves c := by
  cases refused with
  | none => cases (Prod.mk.inj h).1
  | some r =>
    obtain ⟨he, hc⟩ := Prod.mk.inj h
    exact ⟨r, rfl, (Outcome.raised.inj he).symm, hc.symm⟩

/-! ## What is committed -/

open Proc (Within Same Keeps)

/-- Until it commits, a session changes nothing of what is committed. -/
theorem same_execute (refused : Option (Refusal ε)) (f : σ → Except ε σ) :
    Within (Same Conn.committed) (execute refused f) := by
  intro c
  unfold execute
  cases refused with
  | some r => exact r.committed_leaves c.opened
  | none => cases f c.seen <;> rfl

theorem keeps_look {P : σ → Prop} (refused : Option (Refusal ε)) :
    Within (Keeps (Conn.All P)) (look refused : Session ε σ σ) := by
  intro c hc
  cases refused with
  | some r => exact r.leaves_all hc
  | none => exact hc

/-- A statement keeps what it keeps of the database. -/
theorem keeps_execute {P : σ → Prop} {f : σ → Except ε σ} (refused : Option (Refusal ε))
    (h : ∀ s s', P s → f s = .ok s' → P s') : Within (Keeps (Conn.All P)) (execute refused f) := by
  intro c hc
  unfold execute
  cases refused with
  | some r => exact r.leaves_all hc.opened
  | none =>
    cases hf : f c.seen with
    | ok s => exact ⟨hc.1, h c.seen s hc.2 hf⟩
    | error e => exact hc.opened

theorem keeps_commit {P : σ → Prop} (refused : Option (Refusal ε)) :
    Within (Keeps (Conn.All P)) (commit refused) := by
  intro c hc
  cases refused with
  | some r => exact r.leaves_all hc
  | none => exact ⟨hc.2, hc.2⟩

theorem keeps_rollback {P : σ → Prop} : Within (Keeps (Conn.All P)) (rollback : Session ε σ Unit) :=
  fun _ hc => hc.rolledBack

theorem keeps_select {P : σ → Prop} : Within (Keeps (Conn.All P)) (select : Session ε σ σ) :=
  Proc.within_reads Conn.seen

end Session

end OpenHost

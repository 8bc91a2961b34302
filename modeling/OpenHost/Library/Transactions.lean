import OpenHost.Library.Runs

/-!
# Transactions with one writer

Programs that run on connections to one database.  A connection reads what is committed until its
first write, or an explicit `begin`, takes the lock; from then on it sees its own changes, and no
other connection writes until it has committed or its transaction was given up.

## Reasoning

`Prog.Publishes R p` says that a run of `p` which returns relates what was committed before to what
is committed after by `R`, and that committing is the last thing it does.  It looks at `p` alone,
statement by statement.  `publishes_of_step` carries it over to any interleaving: the lock keeps
the state in which a transaction began until it is committed.
-/

namespace OpenHost.Tx

/-! ## Programs -/

/-- A program on one connection, over databases `σ`, with errors `ε` and results `α`. -/
inductive Prog (σ ε α : Type) where
  /-- The program has returned. -/
  | ret (a : α)
  /-- The program has failed. -/
  | throw (e : ε)
  /-- Read what the connection sees. -/
  | select (k : σ → Prog σ ε α)
  /-- A statement that changes the database and says how many rows it changed, or is refused. -/
  | execute (f : σ → Except ε (σ × Nat)) (k : Nat → Prog σ ε α)
  /-- Take the lock. -/
  | begin (k : Prog σ ε α)
  /-- Publish the changes. -/
  | commit (k : Prog σ ε α)

namespace Prog

variable {σ ε α : Type}

/-- The program has neither returned nor failed. -/
def running : Prog σ ε α → Bool
  | ret _ | throw _ => false
  | _ => true

/-- What the program has returned. -/
def result? : Prog σ ε α → Option α
  | ret a => some a
  | _ => none

theorem result?_eq_some_iff {p : Prog σ ε α} {a : α} : p.result? = some a ↔ p = ret a := by
  cases p <;> simp [result?]

/-- Execute statements one after the other and go on. -/
def executeAll (fs : List (σ → Except ε (σ × Nat))) (k : Prog σ ε α) : Prog σ ε α :=
  fs.foldr (fun f k => execute f fun _ => k) k

/-- Inside a transaction that began on `c` and sees `v`: the program returns with its commit, and
`R` relates `c` to what it commits. -/
def PublishesFrom (R : α → σ → σ → Prop) (c : σ) : Prog σ ε α → σ → Prop
  | ret a, _ => R a c c
  | throw _, _ | begin _, _ => True
  | select k, v => PublishesFrom R c (k v) v
  | execute f k, v => ∀ v' n, f v = .ok (v', n) → PublishesFrom R c (k n) v'
  | commit k, v => ∃ a, k = ret a ∧ R a c v

/-- Outside a transaction: the program returns without a change, or from a transaction as above. -/
def Publishes (R : α → σ → σ → Prop) : Prog σ ε α → Prop
  | ret a => ∀ c, R a c c
  | throw _ => True
  | select k => ∀ v, Publishes R (k v)
  | execute f k => ∀ c v n, f c = .ok (v, n) → PublishesFrom R c (k n) v
  | begin k => ∀ c, PublishesFrom R c k c
  | commit k => Publishes R k

/-- The first of some statements begins the transaction. -/
theorem publishes_executeAll {R : α → σ → σ → Prop} {k : Prog σ ε α}
    {fs : List (σ → Except ε (σ × Nat))} (hne : fs ≠ [])
    (h : ∀ c, PublishesFrom R c (executeAll fs k) c) : Publishes R (executeAll fs k) := by
  cases fs with
  | nil => exact absurd rfl hne
  | cons f fs => exact h

/-- Statements one after the other: what the last one leaves goes on. -/
theorem publishesFrom_executeAll {R : α → σ → σ → Prop} {c : σ} {k : Prog σ ε α}
    {fs : List (σ → Except ε (σ × Nat))} {v : σ} (Inv : σ → List (σ → Except ε (σ × Nat)) → Prop)
    (hstart : Inv v fs)
    (hstep : ∀ f fs v v' n, Inv v (f :: fs) → f v = .ok (v', n) → Inv v' fs)
    (hend : ∀ v, Inv v [] → PublishesFrom R c k v) :
    PublishesFrom R c (executeAll fs k) v := by
  induction fs generalizing v with
  | nil => exact hend v hstart
  | cons f fs ih =>
    intro v' n hf
    exact ih (hstep f fs v v' n hstart hf)

end Prog

/-! ## Connections to one database -/

variable {ι σ ε α : Type}

/-- What is committed, the one open transaction with the connection it belongs to and what that
connection sees, and the operation and the rest of its program on every connection in use. -/
structure Store (ι σ ε α : Type) where
  committed : σ
  txn : Option (Nat × σ)
  sessions : Nat → Option (ι × Prog σ ε α)

namespace Store

/-- What connection `i` sees. -/
def seen (s : Store ι σ ε α) (i : Nat) : σ :=
  match s.txn with
  | some (j, v) => if j = i then v else s.committed
  | none => s.committed

/-- No other connection has an open transaction. -/
def free (s : Store ι σ ε α) (i : Nat) : Bool := s.txn.all fun t => t.1 = i

/-- Connection `i` goes on with the program `p`. -/
def resume (s : Store ι σ ε α) (i : Nat) (op : ι) (p : Prog σ ε α) : Store ι σ ε α :=
  { s with sessions := fun j => if j = i then some (op, p) else s.sessions j }

end Store

/-- What can happen next. -/
inductive Action (ι ε : Type) where
  /-- A connection that was not in use begins an operation. -/
  | start (i : Nat) (op : ι)
  /-- A connection performs its next statement. -/
  | advance (i : Nat)
  /-- The next statement of a connection fails, or its process dies. -/
  | fail (i : Nat) (e : ε)
  /-- The transaction of a program that has ended is rolled back, by a handler or because its
  connection was closed. -/
  | release (i : Nat)

/-- The next statement of connection `i`, which is at the program `p` of the operation `op`.  A
write waits for the lock. -/
def advance (s : Store ι σ ε α) (i : Nat) (op : ι) : Prog σ ε α → Option (Store ι σ ε α)
  | .ret _ | .throw _ => none
  | .select k => some (s.resume i op (k (s.seen i)))
  | .execute f k =>
      if s.free i then
        match f (s.seen i) with
        | .ok (v, n) => some { s.resume i op (k n) with txn := some (i, v) }
        -- a refused statement leaves the transaction open
        | .error e => some { s.resume i op (.throw e) with txn := some (i, s.seen i) }
      else none
  | .begin k =>
      match s.txn with
      | none => some { s.resume i op k with txn := some (i, s.committed) }
      | some _ => none
  | .commit k =>
      match s.txn with
      | some (j, v) =>
          if j = i then some { s.resume i op k with committed := v, txn := none }
          else some (s.resume i op k)
      | none => some (s.resume i op k)

/-- One step of the connections, each operation being run by its program. -/
def step (program : ι → Prog σ ε α) (s : Store ι σ ε α) : Action ι ε → Option (Store ι σ ε α)
  | .start i op =>
      match s.sessions i with
      | none => some (s.resume i op (program op))
      | some _ => none
  | .advance i =>
      match s.sessions i with
      | some (op, p) => advance s i op p
      | none => none
  | .fail i e =>
      match s.sessions i with
      | some (op, p) => if p.running then some (s.resume i op (.throw e)) else none
      | none => none
  | .release i =>
      match s.sessions i, s.txn with
      | some (_, p), some (j, _) =>
          if j = i ∧ p.running = false then some { s with txn := none } else none
      | _, _ => none

/-! ## What is committed -/

/-- Every connection is at a program that publishes what its operation may, unless it has ended; the
one with the open transaction goes on from what it sees, and that transaction began on what is still
committed. -/
structure Sound (R : ι → α → σ → σ → Prop) (s : Store ι σ ε α) : Prop where
  holder : ∀ i v, s.txn = some (i, v) → (s.sessions i).isSome = true
  outside : ∀ i op p, s.sessions i = some (op, p) → p.running = true →
    (∀ v, s.txn ≠ some (i, v)) → p.Publishes (R op)
  inside : ∀ i op p v, s.sessions i = some (op, p) → p.running = true → s.txn = some (i, v) →
    p.PublishesFrom (R op) s.committed v

variable {R : ι → α → σ → σ → Prop} {program : ι → Prog σ ε α} {s s' : Store ι σ ε α}

/-- One connection goes on, and only its own transaction may begin, change or end. -/
theorem Sound.resume (hs : Sound R s) {i : Nat} {op : ι} {p : Prog σ ε α} {c : σ}
    {txn : Option (Nat × σ)}
    (hother : ∀ j v, j ≠ i → (txn = some (j, v) ↔ s.txn = some (j, v)))
    (hsame : ∀ j v, j ≠ i → s.txn = some (j, v) → c = s.committed)
    (hout : p.running = true → (∀ v, txn ≠ some (i, v)) → p.Publishes (R op))
    (hin : p.running = true → ∀ v, txn = some (i, v) → p.PublishesFrom (R op) c v) :
    Sound R { s.resume i op p with committed := c, txn := txn } := by
  constructor
  · intro j v htxn
    by_cases hj : j = i
    · simp [Store.resume, hj]
    · have hold := hs.holder j v ((hother j v hj).mp htxn)
      simpa [Store.resume, hj] using hold
  · intro j op' p' hsession hrunning htxn
    by_cases hj : j = i
    · subst hj
      obtain ⟨rfl, rfl⟩ : op = op' ∧ p = p' := by simpa [Store.resume] using hsession
      exact hout hrunning htxn
    · have hsession' : s.sessions j = some (op', p') := by
        simpa [Store.resume, hj] using hsession
      exact hs.outside j op' p' hsession' hrunning fun v h => htxn v ((hother j v hj).mpr h)
  · intro j op' p' v hsession hrunning htxn
    by_cases hj : j = i
    · subst hj
      obtain ⟨rfl, rfl⟩ : op = op' ∧ p = p' := by simpa [Store.resume] using hsession
      exact hin hrunning v htxn
    · have hsession' : s.sessions j = some (op', p') := by
        simpa [Store.resume, hj] using hsession
      have htxn' := (hother j v hj).mp htxn
      show p'.PublishesFrom (R op') c v
      rw [hsame j v hj htxn']
      exact hs.inside j op' p' v hsession' hrunning htxn'

/-- What a step of one connection may do: nothing to what is committed, while the connection does
not return, or what its operation may do when it returns. -/
def Published (R : ι → α → σ → σ → Prop) (s s' : Store ι σ ε α) (i : Nat) (op : ι) : Prop :=
  (s'.committed = s.committed ∧ ∀ v, s'.sessions i ≠ some (op, .ret v)) ∨
    ∃ v, s'.sessions i = some (op, .ret v) ∧ R op v s.committed s'.committed

/-- A step without a commit. -/
theorem published_of_same {i : Nat} {op : ι} {q : Prog σ ε α}
    (hcommitted : s'.committed = s.committed) (hsession : s'.sessions i = some (op, q))
    (hret : ∀ v, q = .ret v → R op v s.committed s.committed) : Published R s s' i op := by
  cases q with
  | ret v => exact Or.inr ⟨v, hsession, hcommitted.symm ▸ hret v rfl⟩
  | _ =>
    refine Or.inl ⟨hcommitted, fun v hv => ?_⟩
    rw [hsession] at hv
    cases hv

@[simp] theorem sessions_resume_self (i : Nat) (op : ι) (p : Prog σ ε α) :
    (s.resume i op p).sessions i = some (op, p) := by
  simp [Store.resume]

/-- A connection that has the lock, or could take it, is the only one with a transaction. -/
theorem txn_ne_of_free {i j : Nat} {v : σ} (h : s.free i = true) (hj : j ≠ i) :
    s.txn ≠ some (j, v) := by
  intro htxn
  simp only [Store.free, htxn, Option.all_some, decide_eq_true_eq] at h
  exact hj h

/-- What connection `i` sees is what is committed, or what its transaction sees. -/
theorem seen_of_not_txn {i : Nat} (h : ∀ v, s.txn ≠ some (i, v)) : s.seen i = s.committed := by
  unfold Store.seen
  split
  · rename_i j v htxn
    by_cases hj : j = i
    · exact absurd (hj ▸ htxn) (h v)
    · exact if_neg hj
  · rfl

theorem seen_of_txn {i : Nat} {v : σ} (h : s.txn = some (i, v)) : s.seen i = v := by
  simp [Store.seen, h]

/-- What a write of a connection goes on with. -/
theorem publishesFrom_of_execute (hs : Sound R s) {i : Nat} {op : ι}
    {f : σ → Except ε (σ × Nat)} {k : Nat → Prog σ ε α}
    (hsession : s.sessions i = some (op, .execute f k)) {v : σ} {n : Nat}
    (hf : f (s.seen i) = .ok (v, n)) : (k n).PublishesFrom (R op) s.committed v := by
  by_cases htxn : ∃ w, s.txn = some (i, w)
  · obtain ⟨w, hw⟩ := htxn
    rw [seen_of_txn hw] at hf
    exact hs.inside i op _ w hsession rfl hw v n hf
  · have hno : ∀ w, s.txn ≠ some (i, w) := fun w hw => htxn ⟨w, hw⟩
    rw [seen_of_not_txn hno] at hf
    exact hs.outside i op _ hsession rfl hno s.committed v n hf

theorem sound_of_advance (hs : Sound R s) {i : Nat} {op : ι} {p : Prog σ ε α}
    (hsession : s.sessions i = some (op, p)) (h : advance s i op p = some s') :
    Sound R s' ∧ Published R s s' i op := by
  cases p with
  | ret a => cases h
  | throw e => cases h
  | select k =>
    obtain rfl := Option.some.inj h
    have hout : (∀ v, s.txn ≠ some (i, v)) → (k (s.seen i)).Publishes (R op) := fun hno =>
      hs.outside i op _ hsession rfl hno _
    have hin : ∀ v, s.txn = some (i, v) → (k (s.seen i)).PublishesFrom (R op) s.committed v := by
      intro v htxn
      rw [seen_of_txn htxn]
      have hin := hs.inside i op _ v hsession rfl htxn
      exact hin
    refine ⟨hs.resume (fun j v _ => Iff.rfl) (fun _ _ _ _ => rfl) (fun _ => hout) (fun _ => hin),
      published_of_same rfl (sessions_resume_self i op _) fun v hv => ?_⟩
    by_cases htxn : ∃ w, s.txn = some (i, w)
    · obtain ⟨w, hw⟩ := htxn
      have hR := hin w hw
      rw [hv] at hR
      exact hR
    · have hR := hout fun w hw => htxn ⟨w, hw⟩
      rw [hv] at hR
      exact hR s.committed
  | execute f k =>
    simp only [advance] at h
    split at h
    · rename_i hfree
      have hother : ∀ w j v, j ≠ i → (some (i, w) = some (j, v) ↔ s.txn = some (j, v)) := by
        intro w j v hj
        refine ⟨fun heq => absurd (Prod.mk.inj (Option.some.inj heq)).1.symm hj, fun heq => ?_⟩
        exact absurd heq (txn_ne_of_free hfree hj)
      split at h
      · rename_i v n hf
        obtain rfl := Option.some.inj h
        have hnext := publishesFrom_of_execute hs hsession hf
        refine ⟨hs.resume (hother v) (fun _ _ _ _ => rfl) (fun _ hno => absurd rfl (hno v)) ?_,
          published_of_same rfl (sessions_resume_self i op _) fun a ha => ?_⟩
        · intro _ w htxn
          rw [← (Prod.mk.inj (Option.some.inj htxn)).2]
          exact hnext
        · rw [ha] at hnext
          exact hnext
      · obtain rfl := Option.some.inj h
        exact ⟨hs.resume (hother _) (fun _ _ _ _ => rfl) (fun h => by cases h)
          (fun h => by cases h), published_of_same rfl (sessions_resume_self i op _)
            fun a ha => by cases ha⟩
    · cases h
  | begin k =>
    simp only [advance] at h
    split at h
    · rename_i htxn
      obtain rfl := Option.some.inj h
      have hno : ∀ v, s.txn ≠ some (i, v) := by simp [htxn]
      have hout := hs.outside i op _ hsession rfl hno s.committed
      refine ⟨hs.resume ?_ (fun _ _ _ _ => rfl) (fun _ hno => absurd rfl (hno _)) ?_,
        published_of_same rfl (sessions_resume_self i op _) fun a ha => ?_⟩
      · intro j v hj
        rw [htxn]
        simp [Ne.symm hj]
      · intro _ v heq
        rw [← (Prod.mk.inj (Option.some.inj heq)).2]
        exact hout
      · rw [ha] at hout
        exact hout
    · cases h
  | commit k =>
    simp only [advance] at h
    -- without a transaction there is nothing to publish
    have hquiet : (∀ w, s.txn ≠ some (i, w)) →
        Sound R (s.resume i op k) ∧ Published R s (s.resume i op k) i op := by
      intro hno
      have hout := hs.outside i op _ hsession rfl hno
      refine ⟨hs.resume (fun _ _ _ => Iff.rfl) (fun _ _ _ _ => rfl) (fun _ _ => hout)
        (fun _ w hw => absurd hw (hno w)),
        published_of_same rfl (sessions_resume_self i op _) fun a ha => ?_⟩
      rw [ha] at hout
      exact hout s.committed
    split at h
    · rename_i j v htxn
      split at h
      · rename_i hj
        subst hj
        obtain rfl := Option.some.inj h
        -- the transaction began on what is still committed
        obtain ⟨a, rfl, hR⟩ := hs.inside j op _ v hsession rfl htxn
        refine ⟨hs.resume ?_ ?_ (fun h => by cases h) (fun h => by cases h),
          Or.inr ⟨a, sessions_resume_self j op _, hR⟩⟩
        · intro i w hi
          rw [htxn]
          simp [Ne.symm hi]
        · intro i w hi heq
          rw [htxn] at heq
          exact absurd (Prod.mk.inj (Option.some.inj heq)).1.symm hi
      · rename_i hj
        obtain rfl := Option.some.inj h
        apply hquiet
        intro w hw
        rw [htxn] at hw
        exact hj (Prod.mk.inj (Option.some.inj hw)).1
    · rename_i htxn
      obtain rfl := Option.some.inj h
      exact hquiet (by simp [htxn])

/-- A connection that goes on leaves the others where they are. -/
theorem sessions_of_advance {i : Nat} {op : ι} {p : Prog σ ε α}
    (h : advance s i op p = some s') {j : Nat} (hj : j ≠ i) : s'.sessions j = s.sessions j := by
  have hresume : ∀ q : Prog σ ε α, (s.resume i op q).sessions j = s.sessions j := fun q => by
    simp [Store.resume, hj]
  cases p with
  | ret a => cases h
  | throw e => cases h
  | select k => rw [← Option.some.inj h]; exact hresume _
  | execute f k =>
    simp only [advance] at h
    split at h
    · split at h <;> (rw [← Option.some.inj h]; exact hresume _)
    · cases h
  | begin k =>
    simp only [advance] at h
    split at h
    · rw [← Option.some.inj h]; exact hresume _
    · cases h
  | commit k =>
    simp only [advance] at h
    split at h
    · split at h <;> (rw [← Option.some.inj h]; exact hresume _)
    · rw [← Option.some.inj h]; exact hresume _

/-- A connection that goes on stays with its operation. -/
theorem op_of_advance {i : Nat} {op : ι} {p : Prog σ ε α} (h : advance s i op p = some s') :
    (s'.sessions i).map Prod.fst = some op := by
  have hresume : ∀ q : Prog σ ε α, ((s.resume i op q).sessions i).map Prod.fst = some op :=
    fun q => by rw [sessions_resume_self, Option.map_some]
  cases p with
  | ret a => cases h
  | throw e => cases h
  | select k => rw [← Option.some.inj h]; exact hresume _
  | execute f k =>
    simp only [advance] at h
    split at h
    · split at h <;> (rw [← Option.some.inj h]; exact hresume _)
    · cases h
  | begin k =>
    simp only [advance] at h
    split at h
    · rw [← Option.some.inj h]; exact hresume _
    · cases h
  | commit k =>
    simp only [advance] at h
    split at h
    · split at h <;> (rw [← Option.some.inj h]; exact hresume _)
    · rw [← Option.some.inj h]; exact hresume _

/-- Only a commit changes what is committed. -/
theorem commit_of_advance {i : Nat} {op : ι} {p : Prog σ ε α} (h : advance s i op p = some s')
    (hne : s'.committed ≠ s.committed) : ∃ k, p = .commit k := by
  have hkept : ∀ q : Prog σ ε α, some (s.resume i op q) = some s' → False := by
    rintro q ⟨rfl⟩
    exact hne rfl
  cases p with
  | ret a => cases h
  | throw e => cases h
  | select k => exact (hkept _ h).elim
  | execute f k =>
    simp only [advance] at h
    split at h
    · split at h <;> (cases h; exact absurd rfl hne)
    · cases h
  | begin k =>
    simp only [advance] at h
    split at h
    · cases h
      exact absurd rfl hne
    · cases h
  | commit k => exact ⟨k, rfl⟩

/-- A program that has ended stays as it is. -/
theorem ended_of_step {a : Action ι ε} (h : step program s a = some s') {i : Nat} {op : ι}
    {p : Prog σ ε α} (hsession : s.sessions i = some (op, p)) (hended : p.running = false) :
    s'.sessions i = some (op, p) := by
  cases a with
  | start j op' =>
    simp only [step] at h
    split at h
    · rename_i hnone
      have hij : i ≠ j := by
        rintro rfl
        rw [hsession] at hnone
        cases hnone
      rw [← Option.some.inj h]
      simp [Store.resume, hij, hsession]
    · cases h
  | advance j =>
    simp only [step] at h
    split at h
    · rename_i op' q hj
      by_cases hij : i = j
      · subst hij
        obtain ⟨rfl, rfl⟩ := Prod.mk.inj (Option.some.inj (hsession.symm.trans hj))
        cases p with
        | ret _ => cases h
        | throw _ => cases h
        | _ => cases hended
      · rw [sessions_of_advance h hij, hsession]
    · cases h
  | fail j e =>
    simp only [step] at h
    split at h
    · rename_i op' q hj
      split at h
      · rename_i hrunning
        have hij : i ≠ j := by
          rintro rfl
          obtain ⟨-, rfl⟩ := Prod.mk.inj (Option.some.inj (hsession.symm.trans hj))
          rw [hended] at hrunning
          cases hrunning
        rw [← Option.some.inj h]
        simp [Store.resume, hij, hsession]
      · cases h
    · cases h
  | release j =>
    simp only [step] at h
    split at h
    · split at h
      · rw [← Option.some.inj h]
        exact hsession
      · cases h
    · cases h

/-- A step keeps the connections sound.  Unless an operation returns with it, it changes nothing of
what is committed and no connection has returned that had not before. -/
theorem publishes_of_step (hprogram : ∀ op, (program op).Publishes (R op))
    (hstart : ∀ op, (program op).running = true) (hs : Sound R s) {a : Action ι ε}
    (h : step program s a = some s') :
    Sound R s' ∧ ((s'.committed = s.committed ∧
        ∀ i op v, s'.sessions i = some (op, .ret v) → s.sessions i = some (op, .ret v)) ∨
      ∃ i op v, a = .advance i ∧ s'.sessions i = some (op, .ret v) ∧
        R op v s.committed s'.committed) := by
  -- only the connection that goes on can return
  have hothers : ∀ {i : Nat} {op : ι} {p : Prog σ ε α}, p.running = true ∨ (∃ e, p = .throw e) →
      ∀ j op' v, (s.resume i op p).sessions j = some (op', .ret v) →
        s.sessions j = some (op', .ret v) := by
    intro i op p hp j op' v hj
    by_cases hij : j = i
    · subst hij
      rw [sessions_resume_self] at hj
      obtain ⟨-, rfl⟩ := Prod.mk.inj (Option.some.inj hj)
      rcases hp with hp | ⟨e, hp⟩
      · cases hp
      · cases hp
    · simpa [Store.resume, hij] using hj
  cases a with
  | start i op =>
    simp only [step] at h
    split at h
    · rename_i hsession
      obtain rfl := Option.some.inj h
      refine ⟨hs.resume (fun _ _ _ => Iff.rfl) (fun _ _ _ _ => rfl) (fun _ _ => hprogram op) ?_,
        Or.inl ⟨rfl, hothers (Or.inl (hstart op))⟩⟩
      intro _ v htxn
      have hsome := hs.holder i v htxn
      rw [hsession] at hsome
      cases hsome
    · cases h
  | advance i =>
    simp only [step] at h
    split at h
    · rename_i op p hsession
      obtain ⟨hsound, hpublished⟩ := sound_of_advance hs hsession h
      refine ⟨hsound, ?_⟩
      rcases hpublished with ⟨hcommitted, hret⟩ | ⟨v, hret, hR⟩
      · refine Or.inl ⟨hcommitted, fun j op' v hj => ?_⟩
        by_cases hij : j = i
        · subst hij
          have hop := op_of_advance h
          rw [hj] at hop
          obtain rfl : op' = op := Option.some.inj hop
          exact absurd hj (hret v)
        · rw [← sessions_of_advance h hij]
          exact hj
      · exact Or.inr ⟨i, op, v, rfl, hret, hR⟩
    · cases h
  | fail i e =>
    simp only [step] at h
    split at h
    · rename_i op p hsession
      split at h
      · obtain rfl := Option.some.inj h
        exact ⟨hs.resume (fun _ _ _ => Iff.rfl) (fun _ _ _ _ => rfl) (fun h => by cases h)
          (fun h => by cases h), Or.inl ⟨rfl, hothers (Or.inr ⟨e, rfl⟩)⟩⟩
      · cases h
    · cases h
  | release i =>
    simp only [step] at h
    split at h
    · rename_i op p j v hsession htxn
      split at h
      · rename_i hended
        obtain ⟨rfl, hended⟩ := hended
        obtain rfl := Option.some.inj h
        refine ⟨⟨fun _ _ heq => (by cases heq), ?_, fun _ _ _ _ _ _ heq => (by cases heq)⟩,
          Or.inl ⟨rfl, fun _ _ _ h => h⟩⟩
        intro i op' p' hsession' hrunning _
        apply hs.outside i op' p' hsession' hrunning
        intro w hw
        -- the connection that is released has ended
        rw [htxn] at hw
        obtain ⟨rfl, -⟩ := Prod.mk.inj (Option.some.inj hw)
        obtain ⟨-, rfl⟩ := Prod.mk.inj (Option.some.inj (hsession.symm.trans hsession'))
        rw [hended] at hrunning
        cases hrunning
      · cases h
    · cases h

/-- Connections that are not in use are sound. -/
theorem sound_of_unused (htxn : s.txn = none) (hsessions : ∀ i, s.sessions i = none) :
    Sound R s where
  holder i v h := by rw [htxn] at h; cases h
  outside i op p h := by rw [hsessions i] at h; cases h
  inside i op p v h := by rw [hsessions i] at h; cases h

end OpenHost.Tx

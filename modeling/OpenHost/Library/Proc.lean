import Mathlib.Logic.Basic
import Mathlib.Order.Defs.Unbundled

/-!
# Procedures that may raise or be killed

A `Proc ε σ α` is an imperative procedure over a state `σ`.  It ends with a value, with a raised
exception, or because its process was killed; the state it leaves behind is kept in all three cases,
which is what a `try`/`except` block and a restart after a crash need.

External calls enter through `Proc.call`: the outside world answers with a `Reply`, and a call that
raises, or that the process does not survive, may or may not have taken effect.

## Reasoning

* `Proc.bind_ok_iff`, `Proc.bind_raised_iff`: inversion of a sequence by its outcome.
* `Proc.Within R`: every execution stays inside a preorder `R` of states.  Frame conditions
  ("the row is unchanged", "no object disappears") are instances, and the `within_*` rules prove
  them along the text of a procedure.
-/

namespace OpenHost

/-! ## Outcomes and procedures -/

/-- How a procedure ended. -/
inductive Outcome (ε α : Type) where
  /-- It returned a value. -/
  | ok (a : α)
  /-- It raised an exception. -/
  | raised (e : ε)
  /-- Its process died. -/
  | killed
  deriving DecidableEq, Repr

/-- An imperative procedure: from a state to an outcome and the state it leaves behind. -/
def Proc (ε σ α : Type) : Type := σ → Outcome ε α × σ

namespace Proc

variable {ε σ α β : Type}

instance : Monad (Proc ε σ) where
  pure a := fun s => (.ok a, s)
  bind x f := fun s =>
    match x s with
    | (.ok a, s') => f a s'
    | (.raised e, s') => (.raised e, s')
    | (.killed, s') => (.killed, s')

/-- Raise an exception. -/
def raise (e : ε) : Proc ε σ α := fun s => (.raised e, s)

/-- Read the state through `f`. -/
def reads (f : σ → α) : Proc ε σ α := fun s => (.ok (f s), s)

/-- Update the state. -/
def modify (f : σ → σ) : Proc ε σ Unit := fun s => (.ok (), f s)

/-- Go on with a value that has been computed, or raise. -/
def ofExcept : Except ε α → Proc ε σ α
  | .ok a => pure a
  | .error e => raise e

/-- `for x in xs: f(x)` -/
def forEach {ι : Type} (xs : List ι) (f : ι → Proc ε σ Unit) : Proc ε σ Unit :=
  match xs with
  | [] => pure ()
  | x :: xs => f x >>= fun _ => forEach xs f

/-- The process dies. -/
def die : Proc ε σ α := fun s => (.killed, s)

/-- `try x except E: h`, where `handles` says which exceptions the clause names.  A killed process
runs no handler. -/
def tryExcept (x : Proc ε σ α) (handles : ε → Bool) (h : ε → Proc ε σ α) : Proc ε σ α := fun s =>
  match x s with
  | (.raised e, s') => if handles e then h e s' else (.raised e, s')
  | r => r

/-! ## External calls -/

/-- The answer of the outside world to one call. -/
inductive Reply (ε : Type) where
  /-- The call succeeded. -/
  | ok
  /-- The call raised; `applied` says whether it had taken effect all the same. -/
  | raises (e : ε) (applied : Bool)
  /-- The process died in the call, before or after its effect. -/
  | dies (applied : Bool)
  deriving DecidableEq, Repr

/-- Perform an external call whose effect is `eff`, as the reply says. -/
def call (r : Reply ε) (eff : σ → σ) : Proc ε σ Unit := fun s =>
  match r with
  | .ok => (.ok (), eff s)
  | .raises e applied => (.raised e, if applied then eff s else s)
  | .dies applied => (.killed, if applied then eff s else s)

/-! ## Evaluation rules -/

@[simp] theorem pure_apply (a : α) (s : σ) : (pure a : Proc ε σ α) s = (.ok a, s) := rfl

@[simp] theorem raise_apply (e : ε) (s : σ) : (raise e : Proc ε σ α) s = (.raised e, s) := rfl

@[simp] theorem reads_apply (f : σ → α) (s : σ) : (reads f : Proc ε σ α) s = (.ok (f s), s) := rfl

@[simp] theorem modify_apply (f : σ → σ) (s : σ) :
    (modify f : Proc ε σ Unit) s = (.ok (), f s) := rfl

@[simp] theorem die_apply (s : σ) : (die : Proc ε σ α) s = (.killed, s) := rfl

@[simp] theorem ofExcept_ok (a : α) : (ofExcept (.ok a) : Proc ε σ α) = pure a := rfl

@[simp] theorem ofExcept_error (e : ε) : (ofExcept (.error e) : Proc ε σ α) = raise e := rfl

theorem ofExcept_ok_iff {r : Except ε α} {s s' : σ} {a : α} :
    ofExcept r s = (.ok a, s') ↔ r = .ok a ∧ s' = s := by
  cases r <;> simp [eq_comm]

theorem ofExcept_raised_iff {r : Except ε α} {s s' : σ} {e : ε} :
    ofExcept r s = (.raised e, s') ↔ r = .error e ∧ s' = s := by
  cases r <;> simp [eq_comm]

theorem bind_apply (x : Proc ε σ α) (f : α → Proc ε σ β) (s : σ) :
    (x >>= f) s =
      match x s with
      | (.ok a, s') => f a s'
      | (.raised e, s') => (.raised e, s')
      | (.killed, s') => (.killed, s') := rfl

theorem bind_of_ok {x : Proc ε σ α} {f : α → Proc ε σ β} {s s' : σ} {a : α}
    (h : x s = (.ok a, s')) : (x >>= f) s = f a s' := by
  rw [bind_apply, h]

theorem bind_of_raised {x : Proc ε σ α} {f : α → Proc ε σ β} {s s' : σ} {e : ε}
    (h : x s = (.raised e, s')) : (x >>= f) s = (.raised e, s') := by
  rw [bind_apply, h]

theorem bind_of_killed {x : Proc ε σ α} {f : α → Proc ε σ β} {s s' : σ}
    (h : x s = (.killed, s')) : (x >>= f) s = (.killed, s') := by
  rw [bind_apply, h]

@[simp] theorem call_ok (eff : σ → σ) (s : σ) :
    call (.ok : Reply ε) eff s = (.ok (), eff s) := rfl

@[simp] theorem call_raises (e : ε) (applied : Bool) (eff : σ → σ) (s : σ) :
    call (.raises e applied) eff s = (.raised e, if applied then eff s else s) := rfl

/-- A sequence returns exactly when both parts do. -/
theorem bind_ok_iff {x : Proc ε σ α} {f : α → Proc ε σ β} {s s' : σ} {b : β} :
    (x >>= f) s = (.ok b, s') ↔ ∃ a s₁, x s = (.ok a, s₁) ∧ f a s₁ = (.ok b, s') := by
  rw [bind_apply]
  cases hx : x s with
  | mk r s₁ =>
    cases r with
    | ok a =>
      constructor
      · intro h
        exact ⟨a, s₁, rfl, h⟩
      · rintro ⟨a', s₁', heq, h⟩
        obtain ⟨ha, hs⟩ := Prod.mk.inj heq
        cases ha
        rw [hs]
        exact h
    | raised e => simp
    | killed => simp

/-- A sequence raises when its first part does, or when the first returns and the second raises. -/
theorem bind_raised_iff {x : Proc ε σ α} {f : α → Proc ε σ β} {s s' : σ} {e : ε} :
    (x >>= f) s = (.raised e, s') ↔
      x s = (.raised e, s') ∨ ∃ a s₁, x s = (.ok a, s₁) ∧ f a s₁ = (.raised e, s') := by
  rw [bind_apply]
  cases hx : x s with
  | mk r s₁ =>
    cases r with
    | ok a =>
      constructor
      · intro h
        exact .inr ⟨a, s₁, rfl, h⟩
      · rintro (h | ⟨a', s₁', heq, h⟩)
        · cases (Prod.mk.inj h).1
        · obtain ⟨ha, hs⟩ := Prod.mk.inj heq
          cases ha
          rw [hs]
          exact h
    | raised e' => simp
    | killed => simp

/-- A sequence is killed in its first part, or when the first returns in the second. -/
theorem bind_killed_iff {x : Proc ε σ α} {f : α → Proc ε σ β} {s s' : σ} :
    (x >>= f) s = (.killed, s') ↔
      x s = (.killed, s') ∨ ∃ a s₁, x s = (.ok a, s₁) ∧ f a s₁ = (.killed, s') := by
  rw [bind_apply]
  cases hx : x s with
  | mk r s₁ =>
    cases r with
    | ok a =>
      constructor
      · intro h
        exact .inr ⟨a, s₁, rfl, h⟩
      · rintro (h | ⟨a', s₁', heq, h⟩)
        · cases (Prod.mk.inj h).1
        · obtain ⟨ha, hs⟩ := Prod.mk.inj heq
          cases ha
          rw [hs]
          exact h
    | raised e => simp
    | killed => simp

/-- A call returns only when the world answered `ok`, and then it has taken effect. -/
theorem call_eq_ok_iff {r : Reply ε} {eff : σ → σ} {s s' : σ} {u : Unit} :
    call r eff s = (.ok u, s') ↔ r = .ok ∧ s' = eff s := by
  cases r <;> simp [call, eq_comm]

/-- A `try` block returns through its body or through its handler. -/
theorem tryExcept_ok_iff {x : Proc ε σ α} {handles : ε → Bool} {h : ε → Proc ε σ α} {s s' : σ}
    {a : α} :
    tryExcept x handles h s = (.ok a, s') ↔
      x s = (.ok a, s') ∨
        ∃ e s₁, x s = (.raised e, s₁) ∧ handles e = true ∧ h e s₁ = (.ok a, s') := by
  unfold tryExcept
  cases hx : x s with
  | mk r s₁ =>
    cases r with
    | ok b => simp
    | raised e =>
      by_cases he : handles e = true
      · simp only [he, if_true, reduceCtorEq, Prod.mk.injEq, false_and, false_or]
        constructor
        · intro hok
          exact ⟨e, s₁, ⟨rfl, rfl⟩, he, hok⟩
        · rintro ⟨e', s₁', ⟨he', hs'⟩, -, hok⟩
          cases he'
          rw [hs']
          exact hok
      · simp only [he, reduceCtorEq, Prod.mk.injEq, false_and, false_or, Outcome.raised.injEq]
        constructor
        · intro hbad
          cases (Prod.mk.inj hbad).1
        · rintro ⟨e', s₁', ⟨he', -⟩, hh, -⟩
          exact absurd (he' ▸ hh) he
    | killed => simp

/-- A `try` block with a clause for every exception raises what the handler of the body's exception
raises. -/
theorem tryExcept_raised_of_handles {x : Proc ε σ α} {handles : ε → Bool} {h : ε → Proc ε σ α}
    (hall : ∀ e, handles e = true) {s s' : σ} {e : ε}
    (hrun : tryExcept x handles h s = (.raised e, s')) :
    ∃ e₁ s₁, x s = (.raised e₁, s₁) ∧ h e₁ s₁ = (.raised e, s') := by
  unfold tryExcept at hrun
  split at hrun
  · rename_i e₁ s₁ hx
    rw [if_pos (hall e₁)] at hrun
    exact ⟨e₁, s₁, hx, hrun⟩
  · rename_i hne
    exact absurd hrun (hne e s')

/-! ## Loops -/

section Loop

variable {ι : Type} {f : ι → Proc ε σ Unit}

/-- A loop raises in one of its turns, after those before it have returned. -/
theorem forEach_raised {xs : List ι} {s s' : σ} {e : ε} (h : forEach xs f s = (.raised e, s')) :
    ∃ pre x post s₁, xs = pre ++ x :: post ∧ forEach pre f s = (.ok (), s₁) ∧
      f x s₁ = (.raised e, s') := by
  induction xs generalizing s with
  | nil => cases (Prod.mk.inj h).1
  | cons x xs ih =>
    rcases bind_raised_iff.mp h with hx | ⟨u, s₁, hx, hrest⟩
    · exact ⟨[], x, xs, s, rfl, rfl, hx⟩
    · obtain ⟨pre, y, post, s₂, rfl, hpre, hy⟩ := ih hrest
      exact ⟨x :: pre, y, post, s₂, rfl, bind_ok_iff.mpr ⟨u, s₁, hx, hpre⟩, hy⟩

/-- What holds before the first turn and is carried along by every turn that returns. -/
theorem forEach_ok_inv {xs : List ι} {s s' : σ} {u : Unit} (Inv : List ι → σ → Prop)
    (hstart : Inv [] s)
    (hturn : ∀ pre x s₁ s₂, pre ++ [x] <+: xs → Inv pre s₁ → f x s₁ = (.ok (), s₂) →
      Inv (pre ++ [x]) s₂)
    (h : forEach xs f s = (.ok u, s')) : Inv xs s' := by
  -- the turns that are done, and those to come
  have hall : ∀ (rest pre : List ι) (s₁ : σ), pre ++ rest = xs → Inv pre s₁ →
      forEach rest f s₁ = (.ok u, s') → Inv xs s' := by
    intro rest
    induction rest with
    | nil =>
      intro pre s₁ heq hinv hrun
      obtain rfl : s₁ = s' := (Prod.mk.inj hrun).2
      rw [← heq, List.append_nil]
      exact hinv
    | cons x rest ih =>
      intro pre s₁ heq hinv hrun
      obtain ⟨v, s₂, hx, hrest⟩ := bind_ok_iff.mp hrun
      have hsplit : pre ++ [x] ++ rest = xs := by rw [← heq, List.append_assoc]; rfl
      exact ih (pre ++ [x]) s₂ hsplit
        (hturn pre x s₁ s₂ ⟨rest, hsplit⟩ hinv hx) hrest
  exact hall xs [] s rfl hstart h

end Loop

/-! ## Reasoning about the final state -/

section Post

variable {Q : σ → Prop} {s : σ}

/-- A postcondition of a sequence, by the outcome of its first part. -/
theorem bind_post {x : Proc ε σ α} {f : α → Proc ε σ β}
    (hok : ∀ a s₁, x s = (.ok a, s₁) → Q (f a s₁).2)
    (hraised : ∀ e s₁, x s = (.raised e, s₁) → Q s₁)
    (hkilled : ∀ s₁, x s = (.killed, s₁) → Q s₁) : Q ((x >>= f) s).2 := by
  rw [bind_apply]
  cases hx : x s with
  | mk r s₁ =>
    cases r with
    | ok a => exact hok a s₁ hx
    | raised e => exact hraised e s₁ hx
    | killed => exact hkilled s₁ hx

/-- A postcondition of a `try` block with a clause for every exception. -/
theorem tryExcept_post {x : Proc ε σ α} {handles : ε → Bool} {h : ε → Proc ε σ α}
    (hall : ∀ e, handles e = true) (hok : ∀ a s₁, x s = (.ok a, s₁) → Q s₁)
    (hraised : ∀ e s₁, x s = (.raised e, s₁) → Q (h e s₁).2)
    (hkilled : ∀ s₁, x s = (.killed, s₁) → Q s₁) : Q (tryExcept x handles h s).2 := by
  unfold tryExcept
  cases hx : x s with
  | mk r s₁ =>
    cases r with
    | ok a => exact hok a s₁ hx
    | raised e =>
      dsimp only
      rw [if_pos (hall e)]
      exact hraised e s₁ hx
    | killed => exact hkilled s₁ hx

end Post

/-! ## Staying inside a preorder -/

/-- Every execution of `x` ends in a state related to the one it started from. -/
def Within (R : σ → σ → Prop) (x : Proc ε σ α) : Prop := ∀ s, R s (x s).2

section Rules

variable {R : σ → σ → Prop}

theorem within_pure [Std.Refl R] (a : α) : Within R (pure a : Proc ε σ α) :=
  fun s => refl_of R s

theorem within_raise [Std.Refl R] (e : ε) : Within R (raise e : Proc ε σ α) :=
  fun s => refl_of R s

theorem within_reads [Std.Refl R] (f : σ → α) : Within R (reads f : Proc ε σ α) :=
  fun s => refl_of R s

theorem within_modify {f : σ → σ} (h : ∀ s, R s (f s)) :
    Within R (modify f : Proc ε σ Unit) := h

/-- A call leaves the state as it was or performs its effect. -/
theorem call_rel [Std.Refl R] (r : Reply ε) {eff : σ → σ} {s : σ} (h : R s (eff s)) :
    R s (call r eff s).2 := by
  cases r with
  | ok => exact h
  | raises e applied =>
    cases applied
    · exact refl_of R s
    · exact h
  | dies applied =>
    cases applied
    · exact refl_of R s
    · exact h

theorem within_call [Std.Refl R] (r : Reply ε) {eff : σ → σ} (h : ∀ s, R s (eff s)) :
    Within R (call r eff) :=
  fun s => call_rel r (h s)

theorem within_bind [IsTrans σ R] {x : Proc ε σ α} {f : α → Proc ε σ β}
    (hx : Within R x) (hf : ∀ a, Within R (f a)) : Within R (x >>= f) := by
  intro s
  have h₁ := hx s
  rw [bind_apply]
  cases hxs : x s with
  | mk r s₁ =>
    rw [hxs] at h₁
    cases r with
    | ok a => exact trans_of R h₁ (hf a s₁)
    | raised e => exact h₁
    | killed => exact h₁

theorem within_tryExcept [IsTrans σ R] {x : Proc ε σ α} {handles : ε → Bool}
    {h : ε → Proc ε σ α} (hx : Within R x) (hh : ∀ e, Within R (h e)) :
    Within R (tryExcept x handles h) := by
  intro s
  have h₁ := hx s
  unfold tryExcept
  cases hxs : x s with
  | mk r s₁ =>
    rw [hxs] at h₁
    cases r with
    | ok a => exact h₁
    | raised e =>
      by_cases he : handles e = true
      · simp only [he, if_true]
        exact trans_of R h₁ (hh e s₁)
      · simp only [he]
        exact h₁
    | killed => exact h₁

theorem within_ofExcept [Std.Refl R] (r : Except ε α) : Within R (ofExcept r : Proc ε σ α) := by
  cases r with
  | ok a => exact within_pure a
  | error e => exact within_raise e

theorem within_forEach [Std.Refl R] [IsTrans σ R] {ι : Type} {xs : List ι} {f : ι → Proc ε σ Unit}
    (h : ∀ x ∈ xs, Within R (f x)) : Within R (forEach xs f) := by
  induction xs with
  | nil => exact within_pure ()
  | cons x xs ih =>
    exact within_bind (h x List.mem_cons_self) fun _ =>
      ih fun y hy => h y (List.mem_cons_of_mem x hy)

theorem within_ite {c : Prop} [Decidable c] {x y : Proc ε σ α}
    (hx : c → Within R x) (hy : ¬c → Within R y) : Within R (if c then x else y) := by
  by_cases hc : c
  · simpa [hc] using hx hc
  · simpa [hc] using hy hc

/-- Read a frame condition off an equation for the execution. -/
theorem Within.of_eq {x : Proc ε σ α} (h : Within R x) {s s' : σ} {r : Outcome ε α}
    (heq : x s = (r, s')) : R s s' := by
  have := h s
  rwa [heq] at this

theorem Within.mono {R' : σ → σ → Prop} {x : Proc ε σ α} (h : Within R x)
    (hR : ∀ s s', R s s' → R' s s') : Within R' x :=
  fun s => hR _ _ (h s)

end Rules

/-! ## Never raising -/

/-- No execution of `x` ends with an exception. -/
def NeverRaises (x : Proc ε σ α) : Prop := ∀ s e s', x s ≠ (.raised e, s')

theorem neverRaises_pure (a : α) : NeverRaises (pure a : Proc ε σ α) := by
  intro s e s' h
  cases (Prod.mk.inj h).1

theorem neverRaises_modify (f : σ → σ) : NeverRaises (modify f : Proc ε σ Unit) := by
  intro s e s' h
  cases (Prod.mk.inj h).1

theorem neverRaises_bind {x : Proc ε σ α} {f : α → Proc ε σ β} (hx : NeverRaises x)
    (hf : ∀ a, NeverRaises (f a)) : NeverRaises (x >>= f) := by
  intro s e s' h
  rcases bind_raised_iff.mp h with h₁ | ⟨a, s₁, -, h₂⟩
  · exact hx s e s' h₁
  · exact hf a s₁ e s' h₂

/-- A `try` block with a clause for every exception raises only through its handler. -/
theorem neverRaises_tryExcept {x : Proc ε σ α} {handles : ε → Bool} {h : ε → Proc ε σ α}
    (hall : ∀ e, handles e = true) (hh : ∀ e, NeverRaises (h e)) :
    NeverRaises (tryExcept x handles h) := by
  intro s e s' hrun
  obtain ⟨e₁, s₁, -, hraise⟩ := tryExcept_raised_of_handles hall hrun
  exact hh e₁ s₁ e s' hraise

/-! ## Raising only some exceptions -/

/-- Whatever exception an execution of `x` ends with has the property. -/
def OnlyRaises (Q : ε → Prop) (x : Proc ε σ α) : Prop := ∀ s e s', x s = (.raised e, s') → Q e

section OnlyRaises

variable {Q : ε → Prop}

theorem onlyRaises_pure (a : α) : OnlyRaises Q (pure a : Proc ε σ α) := by
  intro s e s' h
  cases (Prod.mk.inj h).1

theorem onlyRaises_reads (f : σ → α) : OnlyRaises Q (reads f : Proc ε σ α) := by
  intro s e s' h
  cases (Prod.mk.inj h).1

theorem onlyRaises_raise {e : ε} (h : Q e) : OnlyRaises Q (raise e : Proc ε σ α) := by
  intro s e' s' hraise
  cases (Prod.mk.inj hraise).1
  exact h

theorem onlyRaises_ofExcept {r : Except ε α} (h : ∀ e, r = .error e → Q e) :
    OnlyRaises Q (ofExcept r : Proc ε σ α) := by
  intro s e s' hraise
  exact h e (ofExcept_raised_iff.mp hraise).1

theorem onlyRaises_bind {x : Proc ε σ α} {f : α → Proc ε σ β} (hx : OnlyRaises Q x)
    (hf : ∀ a, OnlyRaises Q (f a)) : OnlyRaises Q (x >>= f) := by
  intro s e s' h
  rcases bind_raised_iff.mp h with h₁ | ⟨a, s₁, -, h₂⟩
  · exact hx s e s' h₁
  · exact hf a s₁ e s' h₂

theorem onlyRaises_forEach {ι : Type} {xs : List ι} {f : ι → Proc ε σ Unit}
    (h : ∀ x, OnlyRaises Q (f x)) : OnlyRaises Q (forEach xs f) := by
  induction xs with
  | nil => exact onlyRaises_pure ()
  | cons x xs ih => exact onlyRaises_bind (h x) fun _ => ih

end OnlyRaises

/-! ## Frames: a part of the state stays the same -/

/-- The part `g` of the state is the same. -/
def Same {γ : Type} (g : σ → γ) : σ → σ → Prop := fun s s' => g s' = g s

instance {γ : Type} (g : σ → γ) : Std.Refl (Same g) := ⟨fun _ => rfl⟩

instance {γ : Type} (g : σ → γ) : IsTrans σ (Same g) :=
  ⟨fun _ _ _ h₁ h₂ => h₂.trans h₁⟩

/-- What holds of a state still holds. -/
def Keeps (P : σ → Prop) : σ → σ → Prop := fun s s' => P s → P s'

instance (P : σ → Prop) : Std.Refl (Keeps P) := ⟨fun _ h => h⟩

instance (P : σ → Prop) : IsTrans σ (Keeps P) := ⟨fun _ _ _ h₁ h₂ h => h₂ (h₁ h)⟩

/-- What the first part establishes and the second keeps. -/
theorem bind_keeps {P : σ → Prop} {x : Proc ε σ α} {f : α → Proc ε σ β} {s : σ} (hx : P (x s).2)
    (hf : ∀ a, Within (Keeps P) (f a)) : P ((x >>= f) s).2 := by
  apply bind_post
  · intro a s₁ h
    rw [h] at hx
    exact hf a s₁ hx
  · intro e s₁ h
    rw [h] at hx
    exact hx
  · intro s₁ h
    rw [h] at hx
    exact hx

/-- What the body establishes and the handler keeps. -/
theorem tryExcept_keeps {P : σ → Prop} {x : Proc ε σ α} {handles : ε → Bool}
    {h : ε → Proc ε σ α} {s : σ} (hx : P (x s).2) (hh : ∀ e, Within (Keeps P) (h e)) :
    P (tryExcept x handles h s).2 := by
  unfold tryExcept
  cases hxs : x s with
  | mk r s₁ =>
    rw [hxs] at hx
    cases r with
    | ok a => exact hx
    | killed => exact hx
    | raised e =>
      dsimp only
      split
      · exact hh e s₁ hx
      · exact hx

/-- What the second part of a sequence leaves alone is as the first part left it. -/
theorem bind_same {γ : Type} {g : σ → γ} {x : Proc ε σ α} {f : α → Proc ε σ β}
    (hf : ∀ a, Within (Same g) (f a)) (s : σ) : g ((x >>= f) s).2 = g (x s).2 := by
  rw [bind_apply]
  cases hx : x s with
  | mk r s₁ =>
    cases r with
    | ok a => exact hf a s₁
    | raised e => rfl
    | killed => rfl

/-- What the handler of a `try` block leaves alone is as the body left it. -/
theorem tryExcept_same {γ : Type} {g : σ → γ} {x : Proc ε σ α} {handles : ε → Bool}
    {h : ε → Proc ε σ α} (hh : ∀ e, Within (Same g) (h e)) (s : σ) :
    g (tryExcept x handles h s).2 = g (x s).2 := by
  unfold tryExcept
  cases hx : x s with
  | mk r s₁ =>
    cases r with
    | ok a => rfl
    | killed => rfl
    | raised e =>
      dsimp only
      split
      · exact hh e s₁
      · rfl

/-- What depends only on an unchanged part is unchanged. -/
theorem Within.same_comp {γ δ : Type} {g : σ → γ} {x : Proc ε σ α} (h : Within (Same g) x)
    (f : γ → δ) : Within (Same fun s => f (g s)) x :=
  fun s => congrArg f (h s)

end Proc

end OpenHost

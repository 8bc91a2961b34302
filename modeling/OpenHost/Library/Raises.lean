import Mathlib.Data.Option.Basic

/-!
# Functions that raise

A Python function that has no effect returns a value or raises an exception.  A caller handles some
classes of exceptions; `Meets` says that the others are never raised, and what holds of the value
that is returned.

## Reasoning

* `meets_bind`: the rule for a sequence.  It is an equivalence, so that a function can be rewritten
  step by step into the exact condition under which it meets a specification.
* `meets_require`: the rule for a check.
* `Checks`: nothing but `ValueError` is raised.  `meets_iff_of_checks` turns such a function into a
  condition on what it returns; `checks_mapM`, `checks_forM` and `checks_foldlM` are about loops.
-/

namespace OpenHost.Raises

/-- The exceptions that are told apart. -/
inductive Exc where
  /-- `ValueError` and its subclasses. -/
  | valueError (message : String)
  | attributeError (message : String)
  | typeError (message : String)
  | overflowError (message : String)
  | runtimeError (message : String)
  | recursionError
  /-- What `json.dumps` raises: `TypeError` for a value that JSON does not have, `ValueError` or
  `RecursionError` beyond its limits.  Nothing here catches it. -/
  | encodingError
  /-- `sqlite3.IntegrityError` -/
  | integrityError
  deriving DecidableEq, Repr

/-- `except ValueError` -/
def Exc.isValueError : Exc → Bool
  | valueError _ => true
  | _ => false

/-- What a function returns, or the exception it raises. -/
abbrev Result (α : Type) : Type := Except Exc α

variable {α β : Type}

/-- `if not p: raise ValueError(message)` -/
def require (p : Bool) (message : String) : Result Unit :=
  if p then .ok () else .error (.valueError message)

/-- The function raises nothing but `ValueError`, and what it returns has the property. -/
def Meets (x : Result α) (Q : α → Prop) : Prop :=
  match x with
  | .ok a => Q a
  | .error e => e.isValueError = true

@[simp] theorem meets_ok {a : α} {Q : α → Prop} : Meets (.ok a) Q ↔ Q a := Iff.rfl

@[simp] theorem meets_pure {a : α} {Q : α → Prop} : Meets (pure a : Result α) Q ↔ Q a := Iff.rfl

@[simp] theorem meets_error {e : Exc} {Q : α → Prop} :
    Meets (.error e) Q ↔ e.isValueError = true := Iff.rfl

@[simp] theorem meets_throw {e : Exc} {Q : α → Prop} :
    Meets (throw e : Result α) Q ↔ e.isValueError = true := Iff.rfl

@[simp] theorem isValueError_valueError (message : String) :
    (Exc.valueError message).isValueError = true := rfl

/-- The rule for a sequence. -/
theorem meets_bind {x : Result α} {f : α → Result β} {Q : β → Prop} :
    Meets (x >>= f) Q ↔ Meets x fun a => Meets (f a) Q := by
  cases x with
  | ok a => exact Iff.rfl
  | error e => exact Iff.rfl

theorem meets_map {x : Result α} {f : α → β} {Q : β → Prop} :
    Meets (f <$> x) Q ↔ Meets x fun a => Q (f a) := by
  cases x with
  | ok a => exact Iff.rfl
  | error e => exact Iff.rfl

/-- A check that fails is a `ValueError`: what comes after it matters only when it passes. -/
@[simp] theorem meets_require {p : Bool} {message : String} {Q : Unit → Prop} :
    Meets (require p message) Q ↔ (p = true → Q ()) := by
  cases p with
  | true => simp [require]
  | false => simp [require]

theorem Meets.mono {x : Result α} {Q R : α → Prop} (h : Meets x Q) (hQR : ∀ a, Q a → R a) :
    Meets x R := by
  cases x with
  | ok a => exact hQR a h
  | error e => exact h

/-! ## Functions that only check -/

/-- The function raises nothing but `ValueError`. -/
def Checks (x : Result α) : Prop := Meets x fun _ => True

@[simp] theorem checks_ok {a : α} : Checks (.ok a) := trivial

@[simp] theorem checks_pure {a : α} : Checks (pure a : Result α) := trivial

@[simp] theorem checks_valueError {message : String} :
    Checks (.error (.valueError message) : Result α) := rfl

@[simp] theorem checks_throw_valueError {message : String} :
    Checks (throw (.valueError message) : Result α) := rfl

@[simp] theorem checks_require {p : Bool} {message : String} : Checks (require p message) :=
  meets_require.mpr fun _ => trivial

theorem Checks.bind {x : Result α} {f : α → Result β} (hx : Checks x) (hf : ∀ a, Checks (f a)) :
    Checks (x >>= f) :=
  meets_bind.mpr (Meets.mono hx fun a _ => hf a)

/-- What is raised and what is returned are two conditions. -/
theorem meets_iff {x : Result α} {Q : α → Prop} : Meets x Q ↔ Checks x ∧ ∀ a, x = .ok a → Q a := by
  cases x with
  | ok a => simp
  | error e => simp [Checks]

/-- What a function that only checks meets is a condition on what it returns. -/
theorem meets_iff_of_checks {x : Result α} (hx : Checks x) {Q : α → Prop} :
    Meets x Q ↔ ∀ a, x = .ok a → Q a := by
  rw [meets_iff, and_iff_right hx]

/-- A function that returns nothing. -/
theorem meets_unit_iff_of_checks {x : Result Unit} (hx : Checks x) {P : Prop} :
    (Meets x fun _ => P) ↔ (x = .ok () → P) := by
  rw [meets_iff_of_checks hx]
  exact ⟨fun h => h (), fun h _ => h⟩

theorem meets_and_iff {x : Result α} {Q R : α → Prop} :
    (Meets x fun a => Q a ∧ R a) ↔ Meets x Q ∧ ∀ a, x = .ok a → R a := by
  cases x with
  | ok a => simp
  | error e => simp

theorem checks_mapM {f : α → Result β} (hf : ∀ a, Checks (f a)) (l : List α) :
    Checks (l.mapM f) := by
  induction l with
  | nil => exact checks_pure
  | cons a l ih =>
    rw [List.mapM_cons]
    exact (hf a).bind fun b => ih.bind fun bs => checks_pure

theorem checks_forM {f : α → Result Unit} (hf : ∀ a, Checks (f a)) (l : List α) :
    Checks (l.forM f) := by
  induction l with
  | nil => exact checks_pure
  | cons a l ih =>
    change Checks (f a >>= fun _ => l.forM f)
    exact (hf a).bind fun _ => ih

theorem checks_foldlM {f : β → α → Result β} (hf : ∀ b a, Checks (f b a)) (l : List α) (b : β) :
    Checks (l.foldlM f b) := by
  induction l generalizing b with
  | nil => exact checks_pure
  | cons a l ih =>
    rw [List.foldlM_cons]
    exact (hf b a).bind ih

/-! ## What is returned -/

theorem ok_bind {a : α} {f : α → Result β} : (Except.ok a >>= f) = f a := rfl

theorem bind_eq_ok_iff {x : Result α} {f : α → Result β} {b : β} :
    x >>= f = .ok b ↔ ∃ a, x = .ok a ∧ f a = .ok b := by
  cases x with
  | ok a => simp [bind, Except.bind]
  | error e => simp [bind, Except.bind]

@[simp] theorem require_eq_ok_iff {p : Bool} {message : String} {u : Unit} :
    require p message = .ok u ↔ p = true := by
  cases p with
  | true => simp [require]
  | false => simp [require]

/-- What is collected comes from an element. -/
theorem exists_of_mem_mapM {f : α → Result β} {l : List α} {bs : List β} (h : l.mapM f = .ok bs)
    {b : β} (hb : b ∈ bs) : ∃ a ∈ l, f a = .ok b := by
  induction l generalizing bs with
  | nil =>
    obtain rfl := Except.ok.inj h
    simp at hb
  | cons a l ih =>
    rw [List.mapM_cons] at h
    obtain ⟨c, hc, hrest⟩ := bind_eq_ok_iff.mp h
    obtain ⟨cs, hcs, heq⟩ := bind_eq_ok_iff.mp hrest
    obtain rfl := Except.ok.inj heq
    rcases List.mem_cons.mp hb with rfl | hb
    · exact ⟨a, List.mem_cons_self, hc⟩
    · obtain ⟨a', ha', hfa⟩ := ih hcs hb
      exact ⟨a', List.mem_cons_of_mem a ha', hfa⟩

/-- Every element gives something to what is collected. -/
theorem exists_mem_of_mapM {f : α → Result β} {l : List α} {bs : List β} (h : l.mapM f = .ok bs)
    {a : α} (ha : a ∈ l) : ∃ b ∈ bs, f a = .ok b := by
  induction l generalizing bs with
  | nil => simp at ha
  | cons a' l ih =>
    rw [List.mapM_cons] at h
    obtain ⟨c, hc, hrest⟩ := bind_eq_ok_iff.mp h
    obtain ⟨cs, hcs, heq⟩ := bind_eq_ok_iff.mp hrest
    obtain rfl := Except.ok.inj heq
    rcases List.mem_cons.mp ha with rfl | ha
    · exact ⟨c, List.mem_cons_self, hc⟩
    · obtain ⟨b, hb, hfa⟩ := ih hcs ha
      exact ⟨b, List.mem_cons_of_mem c hb, hfa⟩

/-- A loop that collects ends exactly when each of its steps does. -/
theorem exists_mapM_iff {f : α → Result β} {l : List α} :
    (∃ bs, l.mapM f = .ok bs) ↔ ∀ a ∈ l, ∃ b, f a = .ok b := by
  constructor
  · rintro ⟨bs, hbs⟩ a ha
    obtain ⟨b, -, hb⟩ := exists_mem_of_mapM hbs ha
    exact ⟨b, hb⟩
  · intro h
    induction l with
    | nil => exact ⟨[], rfl⟩
    | cons a l ih =>
      rw [List.forall_mem_cons] at h
      obtain ⟨⟨b, hb⟩, hrest⟩ := h
      obtain ⟨bs, hbs⟩ := ih hrest
      refine ⟨b :: bs, ?_⟩
      rw [List.mapM_cons, hb, hbs]
      rfl

/-- What each step of a loop keeps holds of what the loop returns. -/
theorem foldlM_ok_invariant {f : β → α → Result β} {I : β → Prop} {l : List α} {b b' : β}
    (step : ∀ c a c', a ∈ l → I c → f c a = .ok c' → I c') (hb : I b)
    (h : l.foldlM f b = .ok b') : I b' := by
  induction l generalizing b with
  | nil =>
    obtain rfl := Except.ok.inj h
    exact hb
  | cons a l ih =>
    rw [List.foldlM_cons] at h
    obtain ⟨c, hc, hrest⟩ := bind_eq_ok_iff.mp h
    exact ih (fun c a' c' ha' => step c a' c' (List.mem_cons_of_mem a ha'))
      (step b a c List.mem_cons_self hb hc) hrest

end OpenHost.Raises

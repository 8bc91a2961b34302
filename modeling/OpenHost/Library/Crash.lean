/-!
# Programs that may be cut off

A program over a state: steps that change it, and looks at it that decide how to go on.  A run of it
may end at its end, with an error, or be cut off before any step, and be started again later.

## Reasoning

`Prog.wp p I Q s`: in a run of `p` from `s` every state at which it may be cut off meets `I`, and it
ends, if it does, as `Q` says.  It is computed along the program, so a program is proved step by step;
`wp_andThen` is the rule for one program after another, and `Runs.invariant` the one for run after run.
-/

namespace OpenHost.Crash

/-- A program over the state `σ`. -/
inductive Prog (σ : Type) where
  | done
  | fail (message : String)
  | act (f : σ → σ) (next : Prog σ)
  | look (next : σ → Prog σ)

namespace Prog

variable {σ : Type}

/-- A run that is not cut off, with the error it ends with. -/
def run : Prog σ → σ → σ × Option String
  | done, s => (s, none)
  | fail message, s => (s, some message)
  | act f next, s => run next (f s)
  | look next, s => run (next s) s

/-- A run from the first state may be cut off at the second. -/
inductive Cut : Prog σ → σ → σ → Prop where
  | here {p : Prog σ} {s : σ} : Cut p s s
  | act {f : σ → σ} {next : Prog σ} {s s' : σ} : Cut next (f s) s' → Cut (act f next) s s'
  | look {next : σ → Prog σ} {s s' : σ} : Cut (next s) s s' → Cut (look next) s s'

/-- One program, and another where it is done. -/
def andThen : Prog σ → Prog σ → Prog σ
  | done, q => q
  | fail message, _ => fail message
  | act f next, q => act f (next.andThen q)
  | look next, q => look fun s => (next s).andThen q

/-- One step each. -/
def actAll {β : Type} (f : β → σ → σ) : List β → Prog σ
  | [] => done
  | b :: bs => act (f b) (actAll f bs)

/-- One program each. -/
def forEach {β : Type} (f : β → Prog σ) : List β → Prog σ
  | [] => done
  | b :: bs => (f b).andThen (forEach f bs)

/-- Stop with an error unless the state meets a condition. -/
def check (ok : σ → Bool) (message : String) : Prog σ :=
  look fun s => if ok s then done else fail message

/-! ## Runs -/

/-- Where steps, one for each of a list, are cut off some of the list is done. -/
theorem cut_actAll_iff {β : Type} {f : β → σ → σ} {bs : List β} {s s' : σ} :
    Cut (actAll f bs) s s' ↔ ∃ n ≤ bs.length, s' = (bs.take n).foldl (fun t b => f b t) s := by
  induction bs generalizing s with
  | nil =>
    constructor
    · intro h
      cases h
      exact ⟨0, Nat.le_refl 0, rfl⟩
    · rintro ⟨n, hn, rfl⟩
      rw [List.take_nil]
      exact .here
  | cons b bs ih =>
    constructor
    · intro h
      cases h with
      | here => exact ⟨0, Nat.zero_le _, rfl⟩
      | act h =>
        obtain ⟨n, hn, rfl⟩ := ih.mp h
        exact ⟨n + 1, Nat.succ_le_succ hn, rfl⟩
    · rintro ⟨n, hn, rfl⟩
      cases n with
      | zero => exact .here
      | succ n => exact .act (ih.mpr ⟨n, Nat.le_of_succ_le_succ hn, rfl⟩)

theorem run_actAll {β : Type} (f : β → σ → σ) (bs : List β) (s : σ) :
    (actAll f bs).run s = (bs.foldl (fun t b => f b t) s, none) := by
  induction bs generalizing s with
  | nil => rfl
  | cons b bs ih => exact ih (f b s)

/-- A cut of one program after another is in the first, or in the second from where the first ends. -/
theorem cut_andThen_iff {p q : Prog σ} {s s' : σ} :
    Cut (p.andThen q) s s' ↔ Cut p s s' ∨ ((p.run s).2 = none ∧ Cut q (p.run s).1 s') := by
  induction p generalizing s with
  | done =>
    constructor
    · intro h
      exact Or.inr ⟨rfl, h⟩
    · rintro (h | ⟨-, h⟩)
      · cases h
        exact .here
      · exact h
  | fail message =>
    constructor
    · intro h
      exact Or.inl h
    · rintro (h | ⟨hnone, -⟩)
      · exact h
      · cases hnone
  | act f next ih =>
    constructor
    · intro h
      cases h with
      | here => exact Or.inl .here
      | act h =>
        rcases ih.mp h with h | h
        · exact Or.inl (.act h)
        · exact Or.inr h
    · rintro (h | h)
      · cases h with
        | here => exact .here
        | act h => exact .act (ih.mpr (Or.inl h))
      · exact .act (ih.mpr (Or.inr h))
  | look next ih =>
    constructor
    · intro h
      cases h with
      | here => exact Or.inl .here
      | look h =>
        rcases (ih s).mp h with h | h
        · exact Or.inl (.look h)
        · exact Or.inr h
    · rintro (h | h)
      · cases h with
        | here => exact .here
        | look h => exact .look ((ih s).mpr (Or.inl h))
      · exact .look ((ih s).mpr (Or.inr h))

/-! ## Conditions -/

/-- Every state at which a run may be cut off meets `I`, and its end is as `Q` says. -/
def wp : Prog σ → (σ → Prop) → (Option String → σ → Prop) → σ → Prop
  | done, I, Q, s => I s ∧ Q none s
  | fail message, I, Q, s => I s ∧ Q (some message) s
  | act f next, I, Q, s => I s ∧ wp next I Q (f s)
  | look next, I, Q, s => wp (next s) I Q s

variable {I I' : σ → Prop} {Q Q' : Option String → σ → Prop}

theorem wp_start {p : Prog σ} {s : σ} (h : p.wp I Q s) : I s := by
  induction p generalizing s with
  | done => exact h.1
  | fail message => exact h.1
  | act f next ih => exact h.1
  | look next ih => exact ih s h

theorem wp_iff {p : Prog σ} {s : σ} :
    p.wp I Q s ↔ (∀ s', Cut p s s' → I s') ∧ Q (p.run s).2 (p.run s).1 := by
  constructor
  · intro h
    induction p generalizing s with
    | done =>
      refine ⟨?_, h.2⟩
      intro s' hcut
      cases hcut
      exact h.1
    | fail message =>
      refine ⟨?_, h.2⟩
      intro s' hcut
      cases hcut
      exact h.1
    | act f next ih =>
      refine ⟨?_, (ih h.2).2⟩
      intro s' hcut
      cases hcut with
      | here => exact h.1
      | act hcut => exact (ih h.2).1 s' hcut
    | look next ih =>
      refine ⟨?_, (ih s h).2⟩
      intro s' hcut
      cases hcut with
      | here => exact wp_start (p := next s) h
      | look hcut => exact (ih s h).1 s' hcut
  · intro h
    induction p generalizing s with
    | done => exact ⟨h.1 s .here, h.2⟩
    | fail message => exact ⟨h.1 s .here, h.2⟩
    | act f next ih => exact ⟨h.1 s .here, ih ⟨fun s' hcut => h.1 s' (.act hcut), h.2⟩⟩
    | look next ih => exact ih s ⟨fun s' hcut => h.1 s' (.look hcut), h.2⟩

/-- What the end of a program is to be where another one follows. -/
def followedBy (q : Prog σ) (I : σ → Prop) (Q : Option String → σ → Prop) :
    Option String → σ → Prop
  | none, s => q.wp I Q s
  | some message, s => Q (some message) s

end Prog

/-! ## Run after run -/

section

variable {σ : Type} {p : Prog σ} {crash : σ → σ → Prop} {s₀ s : σ}

/-- What runs of a program lead to, one after the other, each cut off anywhere or not at all; between
runs the state may change as `crash` says. -/
inductive Runs (p : Prog σ) (crash : σ → σ → Prop) (s₀ : σ) : σ → Prop where
  | start : Runs p crash s₀ s₀
  | cut {s s' : σ} : Runs p crash s₀ s → Prog.Cut p s s' → Runs p crash s₀ s'
  | crash {s s' : σ} : Runs p crash s₀ s → crash s s' → Runs p crash s₀ s'

/-- What a run keeps wherever it is cut off, and a crash keeps, holds after any runs. -/
theorem Runs.invariant {I : σ → Prop} (h : Runs p crash s₀ s) (hstart : I s₀)
    (hrun : ∀ s, I s → p.wp I (fun _ _ => True) s) (hcrash : ∀ s s', I s → crash s s' → I s') :
    I s := by
  induction h with
  | start => exact hstart
  | cut _ hcut ih => exact (Prog.wp_iff.mp (hrun _ ih)).1 _ hcut
  | crash _ hs ih => exact hcrash _ _ ih hs

end

end OpenHost.Crash

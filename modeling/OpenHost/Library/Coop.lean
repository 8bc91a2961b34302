import OpenHost.Library.Pool
import OpenHost.Library.Runs

/-!
# Coroutines on one event loop

Programs over one shared memory that give up control only where they wait for an answer from
outside.  Between two waits a program runs alone; while it waits the others run, in any order.

## Reasoning

A `Contract` says what holds of the memory whenever some program waits, how every change of the memory
relates what was to what is, and what a program that is handed to the loop may count on.
`Coop.wp` reads off a program what it needs in order to keep a contract, and `Coop.Spec` puts it as
what a program returns; its rules follow the ways to build a program.  `Contract.keeps_step` is what one step of the loop preserves, and
`Contract.keeps_of_reach` what every run does.
-/

namespace OpenHost

/-! ## Programs -/

/-- A program over the memory `σ` that is answered in `χ`, starts programs named in `ρ`, and
returns an `α` or raises an `ε`. -/
inductive Coop (ρ ε σ χ α : Type) where
  | ret (a : α)
  | raise (e : ε)
  | look (k : σ → Coop ρ ε σ χ α)
  | act (f : σ → σ) (next : Coop ρ ε σ χ α)
  /-- Hand a program to the loop, which begins it later. -/
  | spawn (r : ρ) (next : Coop ρ ε σ χ α)
  /-- Give up control until the answer is there. -/
  | await (k : χ → Coop ρ ε σ χ α)

namespace Coop

variable {ρ ε σ χ α β : Type}

/-- One program, and another with what it returns. -/
def bind : Coop ρ ε σ χ α → (α → Coop ρ ε σ χ β) → Coop ρ ε σ χ β
  | ret a, f => f a
  | raise e, _ => raise e
  | look k, f => look fun s => (k s).bind f
  | act g next, f => act g (next.bind f)
  | spawn r next, f => spawn r (next.bind f)
  | await k, f => await fun c => (k c).bind f

instance : Monad (Coop ρ ε σ χ) where
  pure := ret
  bind := bind

/-- `try: … except` -/
def tryExcept (p : Coop ρ ε σ χ α) (h : ε → Coop ρ ε σ χ α) : Coop ρ ε σ χ α :=
  match p with
  | ret a => ret a
  | raise e => h e
  | look k => look fun s => (k s).tryExcept h
  | act f next => act f (next.tryExcept h)
  | spawn r next => spawn r (next.tryExcept h)
  | await k => await fun c => (k c).tryExcept h

/-- What is read off the memory. -/
def reads (f : σ → α) : Coop ρ ε σ χ α := look fun s => ret (f s)

def modify (f : σ → σ) : Coop ρ ε σ χ Unit := act f (ret ())

def start (r : ρ) : Coop ρ ε σ χ Unit := spawn r (ret ())

/-- The next answer. -/
def answer : Coop ρ ε σ χ χ := await ret

/-! ## The loop -/

variable (ρ ε σ χ) in
/-- What the loop holds: a program that has not begun, or one that waits. -/
inductive Task where
  | ready (r : ρ)
  | waiting (k : χ → Coop ρ ε σ χ Unit)

/-- Run up to the next wait, or to the end. -/
def advance : Coop ρ ε σ χ Unit → σ → σ × List (Task ρ ε σ χ)
  | ret _, s => (s, [])
  | raise _, s => (s, [])
  | look k, s => (k s).advance s
  | act f next, s => next.advance (f s)
  | spawn r next, s => ((next.advance s).1, .ready r :: (next.advance s).2)
  | await k, s => (s, [.waiting k])

/-- A task goes on; one that waits is given its answer. -/
def Task.run (body : ρ → Coop ρ ε σ χ Unit) : Task ρ ε σ χ → χ → σ → σ × List (Task ρ ε σ χ)
  | .ready r, _, s => (body r).advance s
  | .waiting k, c, s => (k c).advance s

/-- What happens to the loop. -/
inductive Action (ρ σ χ : Type) where
  /-- A program is handed to it from outside. -/
  | arrive (r : ρ)
  /-- The memory changes by itself. -/
  | elapse (s : σ)
  /-- The task at a position goes on. -/
  | resume (i : Nat) (c : χ)

/-- The loop, with its memory. -/
abbrev Loop (ρ ε σ χ : Type) := Pool σ (Task ρ ε σ χ)

def step (body : ρ → Coop ρ ε σ χ Unit) (p : Loop ρ ε σ χ) : Action ρ σ χ → Option (Loop ρ ε σ χ)
  | .arrive r => some { p with tasks := p.tasks ++ [.ready r] }
  | .elapse s => some { p with shared := s }
  | .resume i c => p.stepAt (Task.run body) i c

/-- The runs from `p` all of whose steps meet the condition. -/
abbrev Runs (body : ρ → Coop ρ ε σ χ Unit) (ok : Loop ρ ε σ χ → Action ρ σ χ → Prop)
    (p q : Loop ρ ε σ χ) : Prop :=
  Reach (fun p a q => step body p a = some q) ok p q

end Coop

/-! ## Contracts -/

/-- What programs that share a memory rely on and guarantee. -/
structure Contract (ρ σ : Type) where
  /-- What holds whenever a program waits or has ended. -/
  inv : σ → Prop
  /-- How a change relates what was to what is. -/
  rel : σ → σ → Prop
  /-- What a program that has not begun counts on. -/
  pre : ρ → σ → Prop
  refl : ∀ s, rel s s
  trans : ∀ {s s' s''}, rel s s' → rel s' s'' → rel s s''
  stable : ∀ {r s s'}, pre r s → rel s s' → pre r s'

namespace Coop

variable {ρ ε σ χ α β : Type} {C : Contract ρ σ} {Q Q' : Except ε α → σ → Prop}

/-- From `s` the program keeps the contract, and ends, if it does, as `Q` says. -/
def wp (C : Contract ρ σ) : Coop ρ ε σ χ α → (Except ε α → σ → Prop) → σ → Prop
  | ret a, Q, s => Q (.ok a) s
  | raise e, Q, s => Q (.error e) s
  | look k, Q, s => (k s).wp C Q s
  | act f next, Q, s => C.rel s (f s) ∧ next.wp C Q (f s)
  | spawn r next, Q, s => C.pre r s ∧ next.wp C Q s
  -- while the program waits, others change the memory within the contract
  | await k, Q, s => C.inv s ∧ ∀ c s', C.rel s s' → C.inv s' → (k c).wp C Q s'

theorem wp_mono {p : Coop ρ ε σ χ α} {s : σ} (h : p.wp C Q s) (hQ : ∀ r s, Q r s → Q' r s) :
    p.wp C Q' s := by
  induction p generalizing s with
  | ret a => exact hQ _ _ h
  | raise e => exact hQ _ _ h
  | look k ih => exact ih s h
  | act f next ih => exact ⟨h.1, ih h.2⟩
  | spawn r next ih => exact ⟨h.1, ih h.2⟩
  | await k ih => exact ⟨h.1, fun c s' hrel hinv => ih c (h.2 c s' hrel hinv)⟩

/-- What the end of a program is to be where another one follows. -/
def followedBy (C : Contract ρ σ) (f : α → Coop ρ ε σ χ β) (Q : Except ε β → σ → Prop) :
    Except ε α → σ → Prop
  | .ok a, s => (f a).wp C Q s
  | .error e, s => Q (.error e) s

/-- One program after another. -/
theorem wp_bind {p : Coop ρ ε σ χ α} {f : α → Coop ρ ε σ χ β} {Q : Except ε β → σ → Prop} {s : σ}
    (h : p.wp C (followedBy C f Q) s) : (p >>= f).wp C Q s := by
  show (p.bind f).wp C Q s
  induction p generalizing s with
  | ret a => exact h
  | raise e => exact h
  | look k ih => exact ih s h
  | act g next ih => exact ⟨h.1, ih h.2⟩
  | spawn r next ih => exact ⟨h.1, ih h.2⟩
  | await k ih => exact ⟨h.1, fun c s' hrel hinv => ih c (h.2 c s' hrel hinv)⟩

/-- What the end of a program is to be where its exceptions are caught. -/
def caughtBy (C : Contract ρ σ) (h : ε → Coop ρ ε σ χ α) (Q : Except ε α → σ → Prop) :
    Except ε α → σ → Prop
  | .ok a, s => Q (.ok a) s
  | .error e, s => (h e).wp C Q s

theorem wp_tryExcept {p : Coop ρ ε σ χ α} {h : ε → Coop ρ ε σ χ α} {s : σ}
    (hp : p.wp C (caughtBy C h Q) s) : (p.tryExcept h).wp C Q s := by
  induction p generalizing s with
  | ret a => exact hp
  | raise e => exact hp
  | look k ih => exact ih s hp
  | act g next ih => exact ⟨hp.1, ih hp.2⟩
  | spawn r next ih => exact ⟨hp.1, ih hp.2⟩
  | await k ih => exact ⟨hp.1, fun c s' hrel hinv => ih c (hp.2 c s' hrel hinv)⟩

/-! ## Specifications -/

/-- From `s`, where the invariant holds, the program keeps the contract; it returns what `P` allows, or
raises. -/
def Spec (C : Contract ρ σ) (s : σ) (p : Coop ρ ε σ χ α) (P : α → σ → Prop) : Prop :=
  C.inv s → p.wp C (fun r s' => C.inv s' ∧ C.rel s s' ∧ ∀ a, r = .ok a → P a s') s

namespace Spec

variable {s : σ} {p : Coop ρ ε σ χ α} {P P' : α → σ → Prop}

theorem of_inv (h : C.inv s → Spec C s p P) : Spec C s p P := fun hinv => h hinv hinv

theorem weaken (h : Spec C s p P) (hP : ∀ a s', C.rel s s' → C.inv s' → P a s' → P' a s') :
    Spec C s p P' := by
  intro hinv
  apply wp_mono (h hinv)
  intro r s' hr
  exact ⟨hr.1, hr.2.1, fun a ha => hP a s' hr.2.1 hr.1 (hr.2.2 a ha)⟩

theorem pure {a : α} (h : P a s) : Spec C s (Pure.pure a : Coop ρ ε σ χ α) P := by
  intro hinv
  refine ⟨hinv, C.refl s, ?_⟩
  intro b hb
  obtain rfl := Except.ok.inj hb
  exact h

theorem raise {e : ε} : Spec C s (Coop.raise e : Coop ρ ε σ χ α) P := by
  intro hinv
  exact ⟨hinv, C.refl s, fun a ha => by cases ha⟩

theorem reads (f : σ → α) :
    Spec C s (Coop.reads f : Coop ρ ε σ χ α) fun a s' => a = f s ∧ s' = s := by
  intro hinv
  refine ⟨hinv, C.refl s, ?_⟩
  intro b hb
  obtain rfl := Except.ok.inj hb
  exact ⟨rfl, rfl⟩

theorem modify {f : σ → σ} (hinv : C.inv s → C.inv (f s)) (hrel : C.rel s (f s)) :
    Spec C s (Coop.modify f : Coop ρ ε σ χ Unit) fun _ s' => s' = f s := by
  intro hs
  exact ⟨hrel, hinv hs, hrel, fun _ _ => rfl⟩

theorem start {r : ρ} (hpre : C.pre r s) :
    Spec C s (Coop.start r : Coop ρ ε σ χ Unit) fun _ s' => s' = s := by
  intro hs
  exact ⟨hpre, hs, C.refl s, fun _ _ => rfl⟩

theorem answer {P : χ → σ → Prop} (h : ∀ c s', C.rel s s' → C.inv s' → P c s') :
    Spec C s (Coop.answer : Coop ρ ε σ χ χ) P := by
  intro hs
  refine ⟨hs, ?_⟩
  intro c s' hrel hinv
  refine ⟨hinv, hrel, ?_⟩
  intro b hb
  obtain rfl := Except.ok.inj hb
  exact h c s' hrel hinv

theorem bind {f : α → Coop ρ ε σ χ β} {P' : β → σ → Prop} (hp : Spec C s p P)
    (hf : ∀ a s', C.rel s s' → P a s' → Spec C s' (f a) P') : Spec C s (p >>= f) P' := by
  intro hs
  apply wp_bind
  apply wp_mono (hp hs)
  intro r s' hr
  obtain ⟨hinv, hrel, hP⟩ := hr
  cases r with
  | error e => exact ⟨hinv, hrel, fun a ha => by cases ha⟩
  | ok a =>
    apply wp_mono (hf a s' hrel (hP a rfl) hinv)
    intro r s'' hr
    exact ⟨hr.1, C.trans hrel hr.2.1, hr.2.2⟩

theorem tryExcept {h : ε → Coop ρ ε σ χ α} (hp : Spec C s p P)
    (hh : ∀ e s', C.rel s s' → Spec C s' (h e) P) : Spec C s (p.tryExcept h) P := by
  intro hs
  apply wp_tryExcept
  apply wp_mono (hp hs)
  intro r s' hr
  obtain ⟨hinv, hrel, hP⟩ := hr
  cases r with
  | ok a => exact ⟨hinv, hrel, hP⟩
  | error e =>
    apply wp_mono (hh e s' hrel hinv)
    intro r s'' hr
    exact ⟨hr.1, C.trans hrel hr.2.1, hr.2.2⟩

/-- A whole program keeps the contract. -/
theorem keeps {p : Coop ρ ε σ χ Unit} {P : Unit → σ → Prop} (h : Spec C s p P) (hs : C.inv s) :
    p.wp C (fun _ => C.inv) s :=
  wp_mono (h hs) fun _ _ hr => hr.1

end Spec

end Coop

/-! ## What the loop preserves -/

namespace Contract

open Coop

variable {ρ ε σ χ : Type} {C : Contract ρ σ} {body : ρ → Coop ρ ε σ χ Unit}

/-- However the memory has changed by the time a task goes on, it will keep the contract. -/
def Good (C : Contract ρ σ) : Task ρ ε σ χ → σ → Prop
  | .ready r, s => C.pre r s
  | .waiting k, s => ∀ c s', C.rel s s' → C.inv s' → (k c).wp C (fun _ => C.inv) s'

theorem Good.of_rel {t : Task ρ ε σ χ} {s s' : σ} (h : C.Good t s) (hrel : C.rel s s') :
    C.Good t s' := by
  cases t with
  | ready r => exact C.stable h hrel
  | waiting k => exact fun c s'' hrel' hinv => h c s'' (C.trans hrel hrel') hinv

/-- Every program keeps the contract from where it begins. -/
def Kept (C : Contract ρ σ) (body : ρ → Coop ρ ε σ χ Unit) : Prop :=
  ∀ r s, C.inv s → C.pre r s → (body r).wp C (fun _ => C.inv) s

/-- The memory is as it should be, and every task will keep it so. -/
structure Holds (C : Contract ρ σ) (p : Loop ρ ε σ χ) : Prop where
  inv : C.inv p.shared
  good : ∀ t ∈ p.tasks, C.Good t p.shared

/-- Up to the next wait. -/
theorem advance_spec {p : Coop ρ ε σ χ Unit} {s : σ} (h : p.wp C (fun _ => C.inv) s) :
    C.inv (p.advance s).1 ∧ C.rel s (p.advance s).1 ∧
      ∀ t ∈ (p.advance s).2, C.Good t (p.advance s).1 := by
  induction p generalizing s with
  | ret a => exact ⟨h, C.refl s, fun t ht => absurd ht List.not_mem_nil⟩
  | raise e => exact ⟨h, C.refl s, fun t ht => absurd ht List.not_mem_nil⟩
  | look k ih => exact ih s h
  | act f next ih =>
    obtain ⟨hinv, hrel, hgood⟩ := ih h.2
    exact ⟨hinv, C.trans h.1 hrel, hgood⟩
  | spawn r next ih =>
    obtain ⟨hinv, hrel, hgood⟩ := ih h.2
    refine ⟨hinv, hrel, ?_⟩
    intro t ht
    rcases List.mem_cons.mp ht with rfl | ht
    · exact C.stable h.1 hrel
    · exact hgood t ht
  | await k ih =>
    refine ⟨h.1, C.refl s, ?_⟩
    intro t ht
    obtain rfl := List.mem_singleton.mp ht
    exact h.2

theorem run_spec (hbody : C.Kept body) {t : Task ρ ε σ χ} {s : σ} (hinv : C.inv s)
    (hgood : C.Good t s) (c : χ) :
    C.inv (t.run body c s).1 ∧ C.rel s (t.run body c s).1 ∧
      ∀ u ∈ (t.run body c s).2, C.Good u (t.run body c s).1 := by
  cases t with
  | ready r => exact advance_spec (hbody r s hinv hgood)
  | waiting k => exact advance_spec (hgood c s (C.refl s) hinv)

/-- What comes from outside meets the contract. -/
def Admits (C : Contract ρ σ) (p : Loop ρ ε σ χ) : Action ρ σ χ → Prop
  | .arrive r => C.pre r p.shared
  | .elapse s => C.rel p.shared s ∧ (C.inv p.shared → C.inv s)
  | .resume _ _ => True

/-- One step of the loop. -/
theorem keeps_step (hbody : C.Kept body) {p q : Loop ρ ε σ χ} {a : Action ρ σ χ} (hp : C.Holds p)
    (ha : C.Admits p a) (h : step body p a = some q) : C.Holds q ∧ C.rel p.shared q.shared := by
  cases a with
  | arrive r =>
    obtain rfl := Option.some.inj h
    refine ⟨⟨hp.inv, ?_⟩, C.refl _⟩
    intro t ht
    rcases List.mem_append.mp ht with ht | ht
    · exact hp.good t ht
    · obtain rfl := List.mem_singleton.mp ht
      exact ha
  | elapse s =>
    obtain rfl := Option.some.inj h
    exact ⟨⟨ha.2 hp.inv, fun t ht => (hp.good t ht).of_rel ha.1⟩, ha.1⟩
  | resume i c =>
    obtain ⟨before, t, after, htasks, -, rfl⟩ := Pool.stepAt_cases h
    have hmem : t ∈ p.tasks := by rw [htasks]; exact List.mem_append_right _ List.mem_cons_self
    obtain ⟨hinv, hrel, hgood⟩ := run_spec hbody hp.inv (hp.good t hmem) c
    refine ⟨⟨hinv, ?_⟩, hrel⟩
    apply Pool.forall_tasks_of_step
    · intro u hu
      have hu' : u ∈ p.tasks := by rw [htasks]; exact Pool.mem_of_mem_others hu
      exact (hp.good u hu').of_rel hrel
    · exact hgood

/-- Every run. -/
theorem keeps_of_reach (hbody : C.Kept body) {ok : Loop ρ ε σ χ → Action ρ σ χ → Prop}
    (hok : ∀ p a, ok p a → C.Admits p a) {p q : Loop ρ ε σ χ} (hp : C.Holds p)
    (h : Runs body ok p q) : C.Holds q := by
  apply h.invariant
  · exact hp
  · intro p a q hp ha hstep
    exact (keeps_step hbody hp (hok p a ha) hstep).1

end Contract

end OpenHost

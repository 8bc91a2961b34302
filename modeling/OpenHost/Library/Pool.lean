import Mathlib.Data.List.Basic

/-!
# A pool of tasks over shared memory

Several tasks run at once over one shared memory.  Each is a program stopped somewhere, and one of
its steps is atomic: it changes the memory and leaves the tasks that go on from there, itself at the
next place, a task it has started, or nothing when it has ended.  `Pool.stepAt` lets the task at a
given position take its next step; which one does is up to the schedule.
-/

namespace OpenHost

variable {σ τ χ : Type}

/-- Shared memory and the tasks in flight. -/
structure Pool (σ τ : Type) where
  shared : σ
  tasks : List τ
  deriving DecidableEq

namespace Pool

/-- The task at position `i` takes a step; `c` is what the world outside answers. -/
def stepAt (run : τ → χ → σ → σ × List τ) (p : Pool σ τ) (i : Nat) (c : χ) : Option (Pool σ τ) :=
  match p.tasks[i]? with
  | some t =>
    some
      { shared := (run t c p.shared).1
        tasks := p.tasks.take i ++ (run t c p.shared).2 ++ p.tasks.drop (i + 1) }
  | none => none

/-- What a step is: one task is replaced by those that go on from it. -/
theorem stepAt_cases {run : τ → χ → σ → σ × List τ} {p q : Pool σ τ} {i : Nat} {c : χ}
    (h : p.stepAt run i c = some q) :
    ∃ before t after, p.tasks = before ++ t :: after ∧ p.tasks[i]? = some t ∧
      q = { shared := (run t c p.shared).1, tasks := before ++ (run t c p.shared).2 ++ after } := by
  unfold stepAt at h
  cases ht : p.tasks[i]? with
  | none =>
    rw [ht] at h
    cases h
  | some t =>
    rw [ht] at h
    obtain ⟨hi, hget⟩ := List.getElem?_eq_some_iff.mp ht
    refine ⟨p.tasks.take i, t, p.tasks.drop (i + 1), ?_, rfl, (Option.some.inj h).symm⟩
    rw [← hget, List.getElem_cons_drop, List.take_append_drop]

theorem mem_of_mem_others {before after : List τ} {t u : τ} (h : u ∈ before ++ after) :
    u ∈ before ++ t :: after := by
  rcases List.mem_append.mp h with h | h
  · exact List.mem_append_left _ h
  · exact List.mem_append_right _ (List.mem_cons_of_mem _ h)

/-- A step leaves the other tasks, and adds only those that go on from the one that moved. -/
theorem forall_tasks_of_step {P : τ → Prop} {before new after : List τ}
    (hothers : ∀ u ∈ before ++ after, P u) (hnew : ∀ u ∈ new, P u) :
    ∀ u ∈ before ++ new ++ after, P u := by
  intro u hu
  rcases List.mem_append.mp hu with hu | hu
  · rcases List.mem_append.mp hu with hu | hu
    · exact hothers u (List.mem_append_left _ hu)
    · exact hnew u hu
  · exact hothers u (List.mem_append_right _ hu)

end Pool

end OpenHost

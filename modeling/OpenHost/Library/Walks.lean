import Mathlib.Data.List.Nodup
import Mathlib.Logic.Relation

/-!
# Walks to a stopping state

A process moves along a relation `step` until it stands on a state of `done`.  `Walks done step s
path t` says that the walk from `s` visits `path`, in this order, and stops at `t`.

A measure that every step decreases gives both that some walk stops (`exists_walk_of_measure`) and
that no walk visits a state twice (`Walks.nodup`).
-/

namespace OpenHost

variable {σ : Type}

/-- The walk from `s` visits `path` and stops at the last state. -/
inductive Walks (done : σ → Prop) (step : σ → σ → Prop) : σ → List σ → σ → Prop where
  | stop {s : σ} : done s → Walks done step s [s] s
  | step {s t u : σ} {path : List σ} : step s t → Walks done step t path u →
      Walks done step s (s :: path) u

namespace Walks

variable {done : σ → Prop} {step : σ → σ → Prop} {s u v : σ} {path : List σ}

theorem start_mem (h : Walks done step s path u) : s ∈ path := by
  cases h with
  | stop _ => exact List.mem_singleton_self s
  | step _ _ => exact List.mem_cons_self

theorem last_mem (h : Walks done step s path u) : u ∈ path := by
  induction h with
  | stop _ => exact List.mem_singleton_self _
  | step _ _ ih => exact List.mem_cons_of_mem _ ih

theorem done_last (h : Walks done step s path u) : done u := by
  induction h with
  | stop hdone => exact hdone
  | step _ _ ih => exact ih

/-- Every state visited is reached by steps. -/
theorem reachable_of_mem (h : Walks done step s path u) (hv : v ∈ path) :
    Relation.ReflTransGen step s v := by
  induction h with
  | stop _ =>
    rw [List.mem_singleton.mp hv]
  | step hs _ ih =>
    rcases List.mem_cons.mp hv with rfl | hv
    · exact .refl
    · exact .head hs (ih hv)

/-- A walk that a measure descends along visits no state twice. -/
theorem nodup {μ : σ → Nat} (h : Walks done step s path u)
    (hμ : ∀ v w, Relation.ReflTransGen step s v → step v w → μ w < μ v) : path.Nodup := by
  -- a state visited after the first step has a smaller measure, so the start is not met again
  have hdescend : ∀ {v w : σ}, Relation.ReflTransGen step s v → Relation.ReflTransGen step v w →
      μ w ≤ μ v := by
    intro v w hv hw
    induction hw with
    | refl => exact Nat.le_refl _
    | tail hvw hs ih => exact Nat.le_trans (Nat.le_of_lt (hμ _ _ (hv.trans hvw) hs)) ih
  induction h with
  | stop _ => exact List.nodup_singleton _
  | @step s t u path hs hw ih =>
    have hrest : path.Nodup := by
      apply ih
      · intro v w hv hvw
        exact hμ v w (.head hs hv) hvw
      · intro v w hv hvw
        exact hdescend (.head hs hv) hvw
    apply List.nodup_cons.mpr
    refine ⟨fun hmem => ?_, hrest⟩
    have hle := hdescend (.single hs) (hw.reachable_of_mem hmem)
    have hlt := hμ s t .refl hs
    omega

section Deterministic

variable (hdone : ∀ v w, done v → ¬ step v w) (hstep : ∀ v w w', step v w → step v w' → w = w')

include hdone hstep

/-- A deterministic walk visits whatever can be reached. -/
theorem mem_of_reachable (h : Walks done step s path u) (hv : Relation.ReflTransGen step s v) :
    v ∈ path := by
  induction h with
  | stop hs =>
    rcases Relation.ReflTransGen.cases_head hv with rfl | ⟨w, hw, -⟩
    · exact List.mem_singleton_self _
    · exact absurd hw (hdone _ _ hs)
  | step hst _ ih =>
    rcases Relation.ReflTransGen.cases_head hv with rfl | ⟨w, hw, hwv⟩
    · exact List.mem_cons_self
    · obtain rfl := hstep _ _ _ hst hw
      exact List.mem_cons_of_mem _ (ih hwv)

/-- A deterministic walk without repetition has no step that stays in place. -/
theorem not_step_self (h : Walks done step s path u) (hnodup : path.Nodup) (hv : v ∈ path) :
    ¬ step v v := by
  induction h with
  | stop hs =>
    rw [List.mem_singleton.mp hv]
    exact hdone _ _ hs
  | step hst hw ih =>
    rw [List.nodup_cons] at hnodup
    rcases List.mem_cons.mp hv with rfl | hv
    · intro hself
      obtain rfl := hstep _ _ _ hst hself
      exact hnodup.1 hw.start_mem
    · exact ih hnodup.2 hv

end Deterministic

end Walks

/-- Where every reachable state is done or steps to a state of smaller measure, the walk stops. -/
theorem exists_walk_of_measure {done : σ → Prop} {step : σ → σ → Prop} {s : σ} (μ : σ → Nat)
    (h : ∀ v, Relation.ReflTransGen step s v → done v ∨ ∃ w, step v w ∧ μ w < μ v) :
    ∃ path u, Walks done step s path u := by
  induction hn : μ s using Nat.strongRecOn generalizing s with
  | _ n ih =>
    rcases h s .refl with hdone | ⟨t, hs, hlt⟩
    · exact ⟨[s], s, .stop hdone⟩
    · obtain ⟨path, u, hw⟩ := ih (μ t) (hn ▸ hlt) (fun v hv => h v (.head hs hv)) rfl
      exact ⟨s :: path, u, .step hs hw⟩

end OpenHost

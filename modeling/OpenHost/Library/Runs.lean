import Mathlib.Order.Defs.Unbundled

/-!
# Runs of a labelled transition system

A system is a step relation `step s a t`: in the state `s` the action `a` may lead to `t`.  A run is
a sequence of such steps.  `Reach step ok s t` holds when some run leads from `s` to `t` all of whose
steps meet the side condition `ok`, so that "every run whose steps meet a condition" is a statement
about `Reach`.

`Reach.invariant` turns what one step preserves into what every run preserves; `reach_of_run` finds
runs by executing a step function.
-/

namespace OpenHost

variable {σ ι : Type}

/-- `t` is reached from `s` by steps that meet `ok`. -/
inductive Reach (step : σ → ι → σ → Prop) (ok : σ → ι → Prop) (s : σ) : σ → Prop where
  | refl : Reach step ok s s
  | step {t u : σ} {a : ι} : Reach step ok s t → ok t a → step t a u → Reach step ok s u

namespace Reach

variable {step : σ → ι → σ → Prop} {ok ok' : σ → ι → Prop} {s t u : σ}

/-- What holds at the start and across every step that meets the condition holds in every state
reached. -/
theorem invariant (h : Reach step ok s t) (Inv : σ → Prop) (hstart : Inv s)
    (hstep : ∀ t a u, Inv t → ok t a → step t a u → Inv u) : Inv t := by
  induction h with
  | refl => exact hstart
  | step _ hok hs ih => exact hstep _ _ _ ih hok hs

theorem mono (h : Reach step ok s t) (hok : ∀ t a, ok t a → ok' t a) : Reach step ok' s t := by
  induction h with
  | refl => exact .refl
  | step _ ha hs ih => exact .step ih (hok _ _ ha) hs

theorem trans (h : Reach step ok s t) (h' : Reach step ok t u) : Reach step ok s u := by
  induction h' with
  | refl => exact h
  | step _ ha hs ih => exact .step ih ha hs

end Reach

/-! ## Executable runs -/

/-- Take the actions in order, each where it meets the condition. -/
def runAll (next : σ → ι → Option σ) (ok : σ → ι → Prop) [∀ s a, Decidable (ok s a)] :
    σ → List ι → Option σ
  | s, [] => some s
  | s, a :: as => if ok s a then (next s a).bind fun t => runAll next ok t as else none

/-- A run of the step function is a run of the system. -/
theorem reach_of_run {next : σ → ι → Option σ} {ok : σ → ι → Prop} [∀ s a, Decidable (ok s a)]
    {s t : σ} {as : List ι} (h : runAll next ok s as = some t) :
    Reach (fun s a t => next s a = some t) ok s t := by
  induction as generalizing s with
  | nil =>
    cases h
    exact .refl
  | cons a as ih =>
    rw [runAll] at h
    split at h
    · rename_i hok
      obtain ⟨u, hu, hrest⟩ := Option.bind_eq_some_iff.mp h
      have hfirst : Reach (fun s a t => next s a = some t) ok s u := .step .refl hok hu
      exact hfirst.trans (ih hrest)
    · cases h

end OpenHost

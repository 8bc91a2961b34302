import Mathlib.Data.List.Basic

/-!
# Traces

A trace is the list of what a program has done, oldest first.  `Throughout P` says of each event of a
trace what came before it; it is proved along with the trace, an event at a time.
-/

namespace OpenHost

variable {ε : Type}

/-- Each event of the trace meets `P` with what came before it. -/
def Throughout (P : List ε → ε → Prop) (trace : List ε) : Prop :=
  ∀ before event after, trace = before ++ event :: after → P before event

namespace Throughout

variable {P : List ε → ε → Prop}

theorem nil : Throughout P [] := by
  intro before event after h
  simp at h

/-- One more event. -/
theorem concat {trace : List ε} {event : ε} (h : Throughout P trace) (hevent : P trace event) :
    Throughout P (trace ++ [event]) := by
  intro before e after heq
  -- the event is the last one, or it was there before
  rcases List.eq_nil_or_concat after with rfl | ⟨rest, last, rfl⟩
  · obtain ⟨rfl, he⟩ := List.append_inj' heq rfl
    cases he
    exact hevent
  · have hsplit : trace ++ [event] = (before ++ e :: rest) ++ [last] := by simpa using heq
    exact h before e rest (List.append_inj' hsplit rfl).1

end Throughout

/-- An event and, later, another one: what one more event adds. -/
theorem pair_sublist_concat {a b e : ε} {trace : List ε} :
    List.Sublist [a, b] (trace ++ [e]) ↔ List.Sublist [a, b] trace ∨ b = e ∧ a ∈ trace := by
  rw [← List.reverse_sublist, ← @List.reverse_sublist _ [a, b] trace]
  simp [List.cons_sublist_cons']

end OpenHost

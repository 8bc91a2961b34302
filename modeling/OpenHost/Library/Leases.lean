import Mathlib.Data.List.Basic

/-!
# Tables of what is issued and revoked

A table holds what has been issued and not revoked since; entries that have expired may be missing,
because somebody has swept them away.  `Held` says the first of a trace of events, `Tracks` the second
of a table, and `Tracks.step` is what one more event preserves.
-/

namespace OpenHost

variable {ε ρ : Type} {issues revokes : ε → ρ → Prop} {expired : Nat → ρ → Prop}

/-- The entry was issued, and nothing has revoked it since. -/
def Held (issues revokes : ε → ρ → Prop) (trace : List ε) (r : ρ) : Prop :=
  ∃ before e after, trace = before ++ e :: after ∧ issues e r ∧ ∀ e' ∈ after, ¬ revokes e' r

theorem not_held_nil {r : ρ} : ¬ Held issues revokes [] r := by
  intro h
  obtain ⟨before, e, after, htrace, -⟩ := h
  simp at htrace

/-- One more event. -/
theorem held_concat_iff {trace : List ε} {e : ε} {r : ρ} :
    Held issues revokes (trace ++ [e]) r ↔
      issues e r ∨ Held issues revokes trace r ∧ ¬ revokes e r := by
  constructor
  · intro h
    obtain ⟨before, e₀, after, htrace, hissues, hafter⟩ := h
    -- it was issued by the last event, or before it
    rcases List.eq_nil_or_concat after with rfl | ⟨rest, last, rfl⟩
    · obtain ⟨-, he⟩ := List.append_inj' htrace rfl
      obtain rfl := List.singleton_inj.mp he
      exact Or.inl hissues
    · have hsplit : trace ++ [e] = (before ++ e₀ :: rest) ++ [last] := by simpa using htrace
      obtain ⟨rfl, he⟩ := List.append_inj' hsplit rfl
      obtain rfl := List.singleton_inj.mp he
      refine Or.inr ⟨⟨before, e₀, rest, rfl, hissues, ?_⟩, ?_⟩
      · exact fun e' he' => hafter e' (by simp [he'])
      · exact hafter e (by simp)
  · intro h
    rcases h with hissues | ⟨⟨before, e₀, after, rfl, hissues, hafter⟩, hnot⟩
    · exact ⟨trace, e, [], rfl, hissues, fun e' he' => absurd he' List.not_mem_nil⟩
    · refine ⟨before, e₀, after ++ [e], by simp, hissues, ?_⟩
      intro e' he'
      rcases List.mem_append.mp he' with he' | he'
      · exact hafter e' he'
      · obtain rfl := List.mem_singleton.mp he'
        exact hnot

/-- The table holds what is held, except perhaps what has expired. -/
structure Tracks (issues revokes : ε → ρ → Prop) (expired : Nat → ρ → Prop) (trace : List ε)
    (now : Nat) (table : List ρ) : Prop where
  held : ∀ r ∈ table, Held issues revokes trace r
  kept : ∀ r, Held issues revokes trace r → r ∈ table ∨ expired now r

namespace Tracks

variable {trace : List ε} {now : Nat} {table table' : List ρ}

theorem start : Tracks issues revokes expired [] now [] where
  held _ hr := absurd hr List.not_mem_nil
  kept _ hr := absurd hr not_held_nil

/-- An event adds what it issues and takes away what it revokes; besides, expired entries may go. -/
theorem step {e : ε} (h : Tracks issues revokes expired trace now table)
    (hmem : ∀ r ∈ table', issues e r ∨ r ∈ table ∧ ¬ revokes e r)
    (hissues : ∀ r, issues e r → r ∈ table')
    (hkept : ∀ r ∈ table, ¬ revokes e r → r ∈ table' ∨ expired now r) :
    Tracks issues revokes expired (trace ++ [e]) now table' where
  held r hr := by
    rw [held_concat_iff]
    exact (hmem r hr).imp_right fun ⟨hr, hnot⟩ => ⟨h.held r hr, hnot⟩
  kept r hr := by
    rw [held_concat_iff] at hr
    rcases hr with hr | ⟨hr, hnot⟩
    · exact Or.inl (hissues r hr)
    · rcases h.kept r hr with hr | hr
      · exact hkept r hr hnot
      · exact Or.inr hr

/-- An event that has nothing to do with the table. -/
theorem skip {e : ε} (h : Tracks issues revokes expired trace now table) (hissues : ∀ r, ¬ issues e r)
    (hrevokes : ∀ r, ¬ revokes e r) : Tracks issues revokes expired (trace ++ [e]) now table :=
  h.step (fun r hr => Or.inr ⟨hr, hrevokes r⟩) (fun r hr => absurd hr (hissues r))
    fun _ hr _ => Or.inl hr

/-- Time passes; what has expired stays so. -/
theorem elapse {now' : Nat} (h : Tracks issues revokes expired trace now table)
    (hexpired : ∀ r, expired now r → expired now' r) :
    Tracks issues revokes expired trace now' table where
  held := h.held
  kept r hr := (h.kept r hr).imp_right (hexpired r)

/-- An entry that has not expired is in the table exactly if it is held. -/
theorem mem_iff (h : Tracks issues revokes expired trace now table) {r : ρ} (hr : ¬ expired now r) :
    r ∈ table ↔ Held issues revokes trace r :=
  ⟨h.held r, fun hheld => (h.kept r hheld).resolve_right hr⟩

end Tracks

end OpenHost

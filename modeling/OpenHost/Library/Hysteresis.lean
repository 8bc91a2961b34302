import Mathlib.Data.Finset.Insert
import Mathlib.Data.Finset.Basic
import Mathlib.Data.List.Induction

/-!
# Triggers with two thresholds

A trigger watches samples of many keys.  It fires for a key at a high sample, and then not again before
a low one of the same key.  What it holds is the set of the keys it has fired for.
-/

namespace OpenHost.Hysteresis

variable {α K : Type} [DecidableEq K]

/-- What is watched: no sample is both low and high. -/
structure Trigger (α K : Type) where
  key : α → K
  low : α → Bool
  high : α → Bool
  apart : ∀ a, low a = true → high a = false

namespace Trigger

variable (t : Trigger α K)

/-- The keys that are held after a sample. -/
def next (held : Finset K) (a : α) : Finset K :=
  if t.low a = true then held.erase (t.key a)
  else if t.high a = true then insert (t.key a) held
  else held

/-- The trigger fires at a high sample of a key that is not held. -/
def Fires (held : Finset K) (a : α) : Prop := t.high a = true ∧ t.key a ∉ held

instance (held : Finset K) (a : α) : Decidable (t.Fires held a) :=
  inferInstanceAs (Decidable (_ ∧ _))

/-- The keys that are held after a run. -/
def after (samples : List α) : Finset K := samples.foldl t.next ∅

/-- Since its last high sample the key has had a low one. -/
def Armed (samples : List α) (k : K) : Prop :=
  ∀ before a rest, samples = before ++ a :: rest → t.key a = k → t.high a = true →
    ∃ b ∈ rest, t.key b = k ∧ t.low b = true

theorem after_append (samples : List α) (a : α) :
    t.after (samples ++ [a]) = t.next (t.after samples) a := by
  simp [after]

/-- What a sample does to one key. -/
theorem mem_next_iff {held : Finset K} {a : α} {k : K} :
    k ∈ t.next held a ↔
      (t.key a = k ∧ t.high a = true) ∨ (k ∈ held ∧ ¬(t.key a = k ∧ t.low a = true)) := by
  unfold next
  by_cases hlow : t.low a = true
  · simp [hlow, t.apart a hlow, and_comm, eq_comm]
  · by_cases hhigh : t.high a = true
    · simp [hlow, hhigh, eq_comm]
    · simp [hlow, hhigh]

/-- A sample arms its key, or keeps it armed, unless it is high. -/
theorem armed_append_iff {samples : List α} {a : α} {k : K} :
    t.Armed (samples ++ [a]) k ↔
      ¬(t.key a = k ∧ t.high a = true) ∧ (t.Armed samples k ∨ (t.key a = k ∧ t.low a = true)) := by
  constructor
  · intro h
    refine ⟨fun ⟨hkey, hhigh⟩ => ?_, ?_⟩
    · obtain ⟨b, hb, -⟩ := h samples a [] rfl hkey hhigh
      cases hb
    · by_cases hlow : t.key a = k ∧ t.low a = true
      · exact .inr hlow
      · refine .inl fun before b rest heq hkey hhigh => ?_
        obtain ⟨c, hc, hck, hclow⟩ := h before b (rest ++ [a]) (by simp [heq]) hkey hhigh
        rcases List.mem_append.mp hc with hc | hc
        · exact ⟨c, hc, hck, hclow⟩
        · rw [List.mem_singleton.mp hc] at hck hclow
          exact absurd ⟨hck, hclow⟩ hlow
  · rintro ⟨hnot, harmed⟩ before b rest heq hkey hhigh
    -- the sample that is added is the last one of the rest
    rcases List.eq_nil_or_concat rest with rfl | ⟨front, c, rfl⟩
    · have hlast : samples ++ [a] = before ++ [b] := heq
      obtain ⟨-, hab⟩ := List.append_inj' hlast rfl
      rw [List.singleton_inj.mp hab] at hnot
      exact absurd ⟨hkey, hhigh⟩ hnot
    · have hlast : samples ++ [a] = (before ++ b :: front) ++ [c] := by simpa using heq
      obtain ⟨hfront, hac⟩ := List.append_inj' hlast rfl
      obtain rfl := List.singleton_inj.mp hac
      rcases harmed with harmed | hlow
      · obtain ⟨d, hd, hdk⟩ := harmed before b front hfront hkey hhigh
        exact ⟨d, by simp [hd], hdk⟩
      · exact ⟨a, by simp, hlow⟩

/-- A key is held exactly if it is not armed. -/
theorem mem_after_iff (samples : List α) (k : K) : k ∈ t.after samples ↔ ¬t.Armed samples k := by
  induction samples using List.reverseRecOn with
  | nil =>
    have harmed : t.Armed [] k := fun before a rest heq => by simp at heq
    simp [after, harmed]
  | append_singleton samples a ih =>
    rw [after_append, mem_next_iff, armed_append_iff, ih]
    by_cases hhigh : t.key a = k ∧ t.high a = true
    · simp [hhigh]
    · simp only [hhigh, not_false_eq_true, true_and, false_or, not_or]

/-- The trigger fires at the first high sample since its key was armed, and at no other one. -/
theorem fires_iff (samples : List α) (a : α) :
    t.Fires (t.after samples) a ↔ t.high a = true ∧ t.Armed samples (t.key a) := by
  unfold Fires
  rw [mem_after_iff, not_not]

end Trigger

end OpenHost.Hysteresis

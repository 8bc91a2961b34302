import Mathlib.Algebra.Order.Ring.Int
import Mathlib.Tactic.Linarith

/-!
# Serial number arithmetic

Serial numbers are read modulo twice a half, and one is newer than another if it comes less than a half
after it.  The comparison is written with integers as it is defined for DNS, and related to the distance
modulo the whole.
-/

namespace OpenHost.SerialNumber

/-- `s` is less than `t` as serial numbers. -/
def Less (half s t : ℤ) : Prop := s < t ∧ t - s < half ∨ t < s ∧ half < s - t

instance (half s t : ℤ) : Decidable (Less half s t) := inferInstanceAs (Decidable (_ ∨ _))

variable {half s t : ℤ}

/-- A serial number is newer if its distance, modulo the whole, is positive and below the half. -/
theorem less_iff (hs : 0 ≤ s) (hs' : s < 2 * half) (ht : 0 ≤ t) (ht' : t < 2 * half) :
    Less half s t ↔ 0 < (t - s) % (2 * half) ∧ (t - s) % (2 * half) < half := by
  unfold Less
  rcases le_or_gt s t with hle | hgt
  · have hmod : (t - s) % (2 * half) = t - s := Int.emod_eq_of_lt (by linarith) (by linarith)
    rw [hmod]
    constructor
    · rintro (⟨h, h'⟩ | ⟨h, -⟩)
      · exact ⟨by linarith, h'⟩
      · exact absurd hle (not_le.mpr h)
    · rintro ⟨h, h'⟩
      exact .inl ⟨by linarith, h'⟩
  · -- the distance goes once around
    have hmod : (t - s) % (2 * half) = t - s + 2 * half := by
      rw [← Int.add_emod_right]
      exact Int.emod_eq_of_lt (by linarith) (by linarith)
    rw [hmod]
    constructor
    · rintro (⟨h, -⟩ | ⟨-, h⟩)
      · exact absurd h (not_lt.mpr hgt.le)
      · exact ⟨by linarith, by linarith⟩
    · rintro ⟨-, h⟩
      exact .inr ⟨hgt, by linarith⟩

/-- A number that is reduced is newer than `s` if it is, before the reduction, less than a half
ahead. -/
theorem less_emod_iff (hs : 0 ≤ s) (hs' : s < 2 * half) (m : ℤ) :
    Less half s (m % (2 * half)) ↔ 0 < (m - s) % (2 * half) ∧ (m - s) % (2 * half) < half := by
  have hpos : 0 < 2 * half := lt_of_le_of_lt hs hs'
  rw [less_iff hs hs' (Int.emod_nonneg _ hpos.ne') (Int.emod_lt_of_pos _ hpos), Int.emod_sub_emod]

end OpenHost.SerialNumber

import OpenHost.Library.Text

/-!
# Letter case

Python's `str.lower` on the texts that come in with a request: headers are decoded as Latin-1, so
no other character has to be looked at.
-/

namespace OpenHost.Text

/-- `c.lower()` on the characters that a header, decoded as Latin-1, can hold. -/
def lowerChar (c : Char) : Char :=
  if 'A' ≤ c && c ≤ 'Z' then Char.ofNat (c.toNat + 32)
  else if '\u00C0' ≤ c && c ≤ '\u00DE' && c ≠ '\u00D7' then Char.ofNat (c.toNat + 32)
  else c

/-- `s.lower()`. -/
def lower (s : String) : String := String.ofList (s.toList.map lowerChar)

@[simp] theorem toList_lower (s : String) : (lower s).toList = s.toList.map lowerChar := by
  simp [lower]

theorem le_iff_toNat {c d : Char} : c ≤ d ↔ c.toNat ≤ d.toNat := by
  simp [Char.le_def, UInt32.le_iff_toNat_le]

theorem eq_iff_toNat {c d : Char} : c = d ↔ c.toNat = d.toNat :=
  ⟨fun h => h ▸ rfl, fun h => by rw [← Char.ofNat_toNat c, h, Char.ofNat_toNat]⟩

theorem lowerChar_of_le {c : Char} (h : 256 ≤ c.toNat) : lowerChar c = c := by
  have h1 : ¬ c ≤ 'Z' := fun hc => absurd (le_iff_toNat.mp hc) (by simp; omega)
  have h2 : ¬ c ≤ '\u00DE' := fun hc => absurd (le_iff_toNat.mp hc) (by simp; omega)
  simp [lowerChar, h1, h2]

/-- What holds of the first 256 characters and of those that `lower` leaves alone holds of all. -/
theorem forall_char {P : Char → Prop} (hsmall : ∀ n : Fin 256, P (Char.ofNat n))
    (hlarge : ∀ c, lowerChar c = c → P c) (c : Char) : P c := by
  by_cases h : 256 ≤ c.toNat
  · exact hlarge c (lowerChar_of_le h)
  · have hc := hsmall ⟨c.toNat, by omega⟩
    rwa [Char.ofNat_toNat] at hc

theorem lowerChar_lowerChar (c : Char) : lowerChar (lowerChar c) = lowerChar c := by
  apply forall_char (P := fun c => lowerChar (lowerChar c) = lowerChar c)
  · decide +kernel
  · intro c h
    rw [h, h]

theorem lowerChar_eq_colon_iff (c : Char) : lowerChar c = ':' ↔ c = ':' := by
  apply forall_char (P := fun c => lowerChar c = ':' ↔ c = ':')
  · decide +kernel
  · intro c h
    rw [h]

theorem lowerChar_eq_dot_iff (c : Char) : lowerChar c = '.' ↔ c = '.' := by
  apply forall_char (P := fun c => lowerChar c = '.' ↔ c = '.')
  · decide +kernel
  · intro c h
    rw [h]

@[simp] theorem lower_lower (s : String) : lower (lower s) = lower s := by
  simp [lower, Function.comp_def, lowerChar_lowerChar]

/-- Lower case moves no colon. -/
theorem before_lower (s : String) : before ':' (lower s) = lower (before ':' s) := by
  rw [← String.toList_inj]
  simp only [toList_before, toList_lower, List.takeWhile_map]
  congr 2
  funext c
  simp [lowerChar_eq_colon_iff]

end OpenHost.Text

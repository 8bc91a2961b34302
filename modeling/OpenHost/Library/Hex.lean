import Mathlib.Data.List.Basic

/-!
# Hexadecimal digests

A hash function gives a fixed number of bytes; programs print them as two lower-case digits each.
-/

namespace OpenHost.Hex

/-- The lower-case digit of a number below 16. -/
def digit (n : Nat) : Char := if n < 10 then Char.ofNat (48 + n) else Char.ofNat (87 + n)

/-- The two digits of a byte, the high half first. -/
def pair (b : UInt8) : List Char := [digit (b.toNat / 16), digit (b.toNat % 16)]

/-- `digest.hexdigest()` -/
def hexdigest (bs : List UInt8) : String := String.ofList (bs.flatMap pair)

@[simp] theorem length_hexdigest (bs : List UInt8) :
    (hexdigest bs).toList.length = 2 * bs.length := by
  simp [hexdigest, pair, List.length_flatMap, Nat.mul_comm]

/-- A digit is one of `0` to `9` or `a` to `f`. -/
theorem digit_isDigit_or_isLower {n : Nat} (h : n < 16) :
    (digit n).isDigit = true ∨ (digit n).isLower = true := by
  have hall : ∀ i : Fin 16, (digit i).isDigit = true ∨ (digit i).isLower = true := by decide
  exact hall ⟨n, h⟩

theorem isDigit_or_isLower_of_mem_hexdigest {bs : List UInt8} {c : Char}
    (h : c ∈ (hexdigest bs).toList) : c.isDigit = true ∨ c.isLower = true := by
  simp only [hexdigest, String.toList_ofList, List.mem_flatMap, pair, List.mem_cons,
    List.not_mem_nil, or_false] at h
  obtain ⟨b, -, rfl | rfl⟩ := h
  · apply digit_isDigit_or_isLower
    have hb := b.toNat_lt
    omega
  · exact digit_isDigit_or_isLower (Nat.mod_lt _ (by omega))

example : hexdigest [0x0f, 0xa0] = "0fa0" := by decide

end OpenHost.Hex

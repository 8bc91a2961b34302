import OpenHost.Library.Utf8

/-!
# bcrypt

The interface of a bcrypt library, and what its documentation promises.  A call that raises
`ValueError` gives `none`.

bcrypt reads the password with the NUL that ends it, over and over, until it has 72 bytes.  Two
passwords with the same key are the same password to it.
-/

namespace OpenHost

open Utf8 (Bytes)

/-- What a bcrypt library computes. -/
structure Bcrypt (Salt Hash : Type) where
  hashpw : Bytes → Salt → Option Hash
  checkpw : Bytes → Hash → Option Bool

namespace Bcrypt

/-- The bytes that the key is made of. -/
def key (password : Bytes) : Bytes := ((List.replicate 72 (password ++ [0])).flatten).take 72

variable {Salt Hash : Type}

/-- The documented behaviour. -/
structure Documented (B : Bcrypt Salt Hash) : Prop where
  /-- A password of more than 72 bytes is refused. -/
  length_of_hashpw : ∀ {p s h}, B.hashpw p s = some h → p.length ≤ 72
  /-- One of up to 72 bytes is hashed; whether a NUL is allowed is left open. -/
  hashpw_of_length : ∀ {p} s, p.length ≤ 72 → 0 ∉ p → (B.hashpw p s).isSome = true
  /-- Whether a password is refused does not depend on the salt. -/
  isSome_hashpw : ∀ p s s', (B.hashpw p s).isSome = (B.hashpw p s').isSome
  /-- `checkpw` hashes with the salt of the hash, refuses what `hashpw` refuses, and compares. -/
  checkpw_of_hashpw : ∀ {p s h}, B.hashpw p s = some h → ∀ q,
    B.checkpw q h = if (B.hashpw q s).isSome then some (decide (key q = key p)) else none

/-! ## Keys -/

theorem flatten_cycle (p : Bytes) :
    (List.replicate 72 (p ++ [0])).flatten = (p ++ [0]) ++ (List.replicate 71 (p ++ [0])).flatten := by
  rw [List.replicate_succ, List.flatten_cons]

/-- The key begins with the password. -/
theorem starts_key {p : Bytes} (h : p.length ≤ 72) : p <+: key p := by
  rw [key, List.prefix_take_iff, flatten_cycle, List.append_assoc]
  exact ⟨List.prefix_append _ _, h⟩

/-- The key goes on with the NUL, where there is room for it. -/
theorem starts_key_nul {p : Bytes} (h : p.length < 72) : p ++ [0] <+: key p := by
  rw [key, List.prefix_take_iff, flatten_cycle]
  refine ⟨List.prefix_append _ _, ?_⟩
  rw [List.length_append]
  exact h

/-- Of two passwords with the same key, the longer one goes on with a NUL after the shorter one. -/
theorem starts_of_key_eq {p q : Bytes} (h : key q = key p) (hlt : q.length < p.length)
    (hle : p.length ≤ 72) : q ++ [0] <+: p := by
  have hq : q ++ [0] <+: key p := h ▸ starts_key_nul (by omega)
  apply List.prefix_of_prefix_length_le hq (starts_key hle)
  rw [List.length_append]
  exact hlt

/-! ## A library without hashing -/

/-- The library that keeps the key itself. -/
def plain : Bcrypt Unit Bytes where
  hashpw p _ := if p.length ≤ 72 then some (key p) else none
  checkpw q h := if q.length ≤ 72 then some (decide (key q = h)) else none

theorem documented_plain : plain.Documented where
  length_of_hashpw {p s h} hp := by
    rw [plain] at hp
    dsimp only at hp
    split at hp
    · assumption
    · cases hp
  hashpw_of_length {p} s hle _ := by
    rw [plain]
    dsimp only
    rw [if_pos hle]
    rfl
  isSome_hashpw _ _ _ := rfl
  checkpw_of_hashpw {p s h} hp q := by
    rw [plain] at hp ⊢
    dsimp only at hp ⊢
    split at hp
    · cases hp
      by_cases hq : q.length ≤ 72
      · simp [hq]
      · simp [hq]
    · cases hp

end Bcrypt

end OpenHost

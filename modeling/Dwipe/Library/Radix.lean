import Mathlib.Data.Nat.Notation
import Mathlib.Data.Prod.Lex
import Mathlib.Tactic.Ring

/-!
# Three-digit mixed-radix numbers

The number `(c · H + h) · S + s` with `h < H` and `s < S`, and its digits. Only the first digit is
unbounded; bounding it by `C` bounds the number by `C · H · S`.

The digits of a number encode it and, as long as they are digits, encoding loses none of them. A
number is **compared by its first digit that differs** (`encode_lt_encode_iff`).
-/

namespace Radix

/-- The number with digits `c`, `h`, `s` in the radices `H` and `S`. -/
def encode (H S c h s : ℕ) : ℕ := (c * H + h) * S + s

/-- The digits of `v` encode `v`. Stated with the divisions a program makes to get them. -/
theorem encode_digits (H S v : ℕ) : encode H S (v / (S * H)) (v / S % H) (v % S) = v := by
  have hdiv : v / (S * H) = v / S / H := (Nat.div_div_eq_div_mul v S H).symm
  have hhigh : v / S / H * H + v / S % H = v / S := Nat.div_add_mod' (v / S) H
  rw [encode, hdiv, hhigh]
  exact Nat.div_add_mod' v S

/-- The leading digit is below `C` exactly when the number is below `C · H · S`. -/
theorem leading_lt_iff {H S C v : ℕ} (hH : 0 < H) (hS : 0 < S) :
    v / (S * H) < C ↔ v < H * C * S := by
  rw [Nat.div_lt_iff_lt_mul (Nat.mul_pos hS hH)]
  have hprod : C * (S * H) = H * C * S := by ring
  rw [hprod]

/-! ### The digits of an encoded number -/

section digits

variable {H S x s x' s' c h c' h' : ℕ}

theorem mul_add_div_of_lt (hs : s < S) : (x * S + s) / S = x := by
  rw [Nat.mul_comm, Nat.mul_add_div (by omega), Nat.div_eq_of_lt hs, Nat.add_zero]

/-- The last digit and what precedes it are determined by the number. -/
theorem mul_add_eq_mul_add_iff (hs : s < S) (hs' : s' < S) :
    x * S + s = x' * S + s' ↔ x = x' ∧ s = s' := by
  constructor
  · intro heq
    have hdiv := congrArg (· / S) heq
    have hmod := congrArg (· % S) heq
    simp only [mul_add_div_of_lt hs, mul_add_div_of_lt hs'] at hdiv
    simp only [Nat.mul_add_mod_of_lt hs, Nat.mul_add_mod_of_lt hs'] at hmod
    exact ⟨hdiv, hmod⟩
  · rintro ⟨rfl, rfl⟩
    rfl

/-- Two numbers are compared by what precedes the last digit, and only then by the last digit. -/
theorem mul_add_lt_mul_add_iff (hs : s < S) (hs' : s' < S) :
    x * S + s < x' * S + s' ↔ x < x' ∨ x = x' ∧ s < s' := by
  rcases Nat.lt_trichotomy x x' with hlt | rfl | hgt
  · have hle : (x + 1) * S ≤ x' * S := Nat.mul_le_mul_right S hlt
    rw [Nat.succ_mul] at hle
    exact ⟨fun _ ↦ Or.inl hlt, fun _ ↦ by omega⟩
  · simp
  · have hle : (x' + 1) * S ≤ x * S := Nat.mul_le_mul_right S hgt
    rw [Nat.succ_mul] at hle
    constructor <;> intro <;> omega

/-- The last digit. -/
theorem encode_mod (hs : s < S) : encode H S c h s % S = s := Nat.mul_add_mod_of_lt hs

/-- The middle digit. -/
theorem encode_div_mod (hh : h < H) (hs : s < S) : encode H S c h s / S % H = h := by
  rw [encode, mul_add_div_of_lt hs, Nat.mul_add_mod_of_lt hh]

/-- The leading digit. -/
theorem encode_leading (hh : h < H) (hs : s < S) : encode H S c h s / (S * H) = c := by
  rw [← Nat.div_div_eq_div_mul, encode, mul_add_div_of_lt hs, mul_add_div_of_lt hh]

/-- **A leading digit below `C` bounds the number** by the product of all three radices. -/
theorem encode_lt {C : ℕ} (hc : c < C) (hh : h < H) (hs : s < S) :
    encode H S c h s < H * C * S := by
  rw [← leading_lt_iff (Nat.zero_lt_of_lt hh) (Nat.zero_lt_of_lt hs), encode_leading hh hs]
  exact hc

/-- **Numbers are ordered as their digits are, lexicographically.** -/
theorem encode_lt_encode_iff (hh : h < H) (hs : s < S) (hh' : h' < H) (hs' : s' < S) :
    encode H S c h s < encode H S c' h' s' ↔
      toLex (c, toLex (h, s)) < toLex (c', toLex (h', s')) := by
  rw [encode, encode, mul_add_lt_mul_add_iff hs hs', mul_add_lt_mul_add_iff hh hh',
    mul_add_eq_mul_add_iff hh hh', Prod.Lex.toLex_lt_toLex, Prod.Lex.toLex_lt_toLex]
  show _ ↔ c < c' ∨ c = c' ∧ (h < h' ∨ h = h' ∧ s < s')
  omega

end digits

end Radix

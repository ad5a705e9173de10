import Mathlib.Algebra.Group.Nat.Defs
import Mathlib.Algebra.GroupWithZero.Nat
import Mathlib.Data.Nat.Notation
import Mathlib.Logic.Function.Basic
import Mathlib.Tactic.Ring

/-!
# Numbers in a memory of bytes

A memory is a function from addresses to bytes. A number of `n` bytes is kept with its lowest byte
first: `loadLE mem a n` is the number at `a`, and `storeLE mem a n v` is the memory after `v` has
been stored there. What is loaded where something was stored is what was stored, modulo `256 ^ n`
(`loadLE_storeLE`), and a store is not seen from outside its own bytes
(`loadLE_storeLE_of_disjoint`, `storeLE_apply_of_outside`).

A load depends on its own bytes only (`loadLE_congr`); with that, anything that leaves those bytes
alone leaves the number alone. `blit mem a n src` is the memory after `n` bytes have been copied to
`a`, and `fill mem a w k v` the one after a loop has stored the same number `k` times in a row.
-/

namespace Bytes

/-- The number of `n` bytes at `a`, the low byte first. -/
def loadLE (mem : ℕ → UInt8) (a : ℕ) : ℕ → ℕ
  | 0 => 0
  | n + 1 => (mem a).toNat + 256 * loadLE mem (a + 1) n

/-- The memory after the `n` low bytes of `v` have been stored at `a`. -/
def storeLE (mem : ℕ → UInt8) (a n v : ℕ) : ℕ → UInt8 :=
  fun i ↦ if a ≤ i ∧ i < a + n then UInt8.ofNat (v / 256 ^ (i - a)) else mem i

/-- The memory after the first `n` bytes of `src` have been copied to `a`. -/
def blit (mem : ℕ → UInt8) (a n : ℕ) (src : ℕ → UInt8) : ℕ → UInt8 :=
  fun i ↦ if a ≤ i ∧ i < a + n then src (i - a) else mem i

/-- The memory after `k` numbers `v` of `w` bytes have been stored one behind the other from `a`
on. -/
def fill (mem : ℕ → UInt8) (a w k v : ℕ) : ℕ → UInt8 :=
  fun i ↦ if a ≤ i ∧ i < a + w * k then UInt8.ofNat (v / 256 ^ ((i - a) % w)) else mem i

variable {mem mem' src : ℕ → UInt8} {a b n k v w i : ℕ}

theorem loadLE_lt (mem : ℕ → UInt8) (a n : ℕ) : loadLE mem a n < 256 ^ n := by
  induction n generalizing a with
  | zero => exact Nat.one_pos
  | succ n ih =>
    have hbyte := (mem a).toNat_lt
    have hrest := ih (a + 1)
    rw [loadLE, pow_succ]
    omega

/-- **A load depends on its own bytes only**, so a frame result about bytes is one about numbers. -/
theorem loadLE_congr (h : ∀ i, a ≤ i → i < a + n → mem i = mem' i) :
    loadLE mem a n = loadLE mem' a n := by
  induction n generalizing a with
  | zero => rfl
  | succ n ih =>
    rw [loadLE, loadLE, h a (by omega) (by omega),
      ih fun i h1 h2 ↦ h i (by omega) (by omega)]

theorem storeLE_apply_of_outside (h : i < a ∨ a + n ≤ i) : storeLE mem a n v i = mem i :=
  if_neg (by omega)

/-- The bytes of a store, one further up, are those of a store of what is left of the number. -/
theorem storeLE_shift (h1 : a + 1 ≤ i) (h2 : i < a + 1 + n) :
    storeLE mem a (n + 1) v i = storeLE mem' (a + 1) n (v / 256) i := by
  have hi : i - a = i - (a + 1) + 1 := by omega
  rw [storeLE, storeLE, if_pos ⟨by omega, by omega⟩, if_pos ⟨h1, h2⟩, hi, pow_succ',
    Nat.div_div_eq_div_mul]

/-- **What was stored is loaded**, as far as its bytes go. -/
theorem loadLE_storeLE (mem : ℕ → UInt8) (a n v : ℕ) :
    loadLE (storeLE mem a n v) a n = v % 256 ^ n := by
  induction n generalizing a v with
  | zero => exact (Nat.mod_one v).symm
  | succ n ih =>
    have hlow : (storeLE mem a (n + 1) v a).toNat = v % 256 := by
      rw [storeLE, if_pos ⟨Nat.le_refl a, by omega⟩, Nat.sub_self, pow_zero, Nat.div_one,
        UInt8.toNat_ofNat']
    have hrest : loadLE (storeLE mem a (n + 1) v) (a + 1) n = v / 256 % 256 ^ n := by
      rw [← ih (a + 1) (v / 256)]
      exact loadLE_congr fun i h1 h2 ↦ storeLE_shift h1 h2
    rw [loadLE, hlow, hrest, pow_succ', Nat.mod_mul]

/-- **A store elsewhere is not seen.** -/
theorem loadLE_storeLE_of_disjoint (h : b + k ≤ a ∨ a + n ≤ b) :
    loadLE (storeLE mem a n v) b k = loadLE mem b k :=
  loadLE_congr fun i h1 h2 ↦ storeLE_apply_of_outside (by omega)

/-- A load from a memory that has been moved by `d`. -/
theorem loadLE_translate (mem : ℕ → UInt8) (d a n : ℕ) :
    loadLE (fun x ↦ mem (x + d)) a n = loadLE mem (a + d) n := by
  induction n generalizing a with
  | zero => rfl
  | succ n ih => rw [loadLE, loadLE, ih, Nat.add_right_comm]

theorem blit_apply_of_outside (h : i < a ∨ a + n ≤ i) : blit mem a n src i = mem i :=
  if_neg (by omega)

theorem blit_apply_add (h : i < n) : blit mem a n src (a + i) = src i := by
  rw [blit, if_pos (by omega), Nat.add_sub_cancel_left]

/-- A byte of a copy depends on what it was before only where nothing is copied. -/
theorem blit_apply_congr_of_outside (h : i < a ∨ a + n ≤ i → mem i = mem' i) :
    blit mem a n src i = blit mem' a n src i := by
  simp only [blit]
  split_ifs with hi
  · rfl
  · exact h (by omega)

theorem blit_apply_congr (h : mem i = mem' i) : blit mem a n src i = blit mem' a n src i :=
  blit_apply_congr_of_outside fun _ ↦ h

/-- **Two copies, one behind the other**, of what is one behind the other. -/
theorem blit_blit (mem : ℕ → UInt8) (a n m o : ℕ) (f : ℕ → UInt8) :
    blit (blit mem a n fun i ↦ f (o + i)) (a + n) m (fun i ↦ f (o + n + i)) =
      blit mem a (n + m) fun i ↦ f (o + i) := by
  funext i
  simp only [blit]
  split_ifs with h1 h2 h3 h4 h5
  · congr 1
    omega
  · omega
  · rfl
  · omega
  · omega
  · rfl

theorem loadLE_two (mem : ℕ → UInt8) (a : ℕ) :
    loadLE mem a 2 = (mem a).toNat + 256 * (mem (a + 1)).toNat := rfl

@[simp] theorem fill_zero : fill mem a w 0 v = mem := by
  funext i
  exact if_neg (by omega)

/-- The place of a byte in its number, for a byte of the last of several numbers. -/
theorem sub_mod_of_item (h1 : a + w * k ≤ i) (h2 : i < a + w * k + w) :
    (i - a) % w = i - (a + w * k) := by
  have hsub : i - a = k * w + (i - (a + w * k)) := by
    rw [Nat.mul_comm k w]
    omega
  rw [hsub, Nat.mul_add_mod_of_lt (by omega)]

/-- **One more number** behind the others: the step of a loop that fills memory. -/
theorem storeLE_fill (mem : ℕ → UInt8) (a w k v : ℕ) :
    storeLE (fill mem a w k v) (a + w * k) w v = fill mem a w (k + 1) v := by
  funext i
  rw [storeLE, fill, fill, Nat.mul_succ]
  split_ifs with h1 h2 h3 h4
  · rw [sub_mod_of_item h1.1 h1.2]
  · omega
  · rfl
  · omega
  · omega
  · rfl

end Bytes

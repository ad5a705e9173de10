import Dwipe.Library.Loops
import Mathlib.Algebra.Order.Ring.Nat
import Mathlib.Tactic.Ring

/-!
# 64-bit division

`__udivmoddi4`, `__udivdi3` and `__umoddi3` of `lib.c`, which the compiler calls for every `/` and
`%` on `uint64_t`. The division is shift and subtract: a first loop moves the denominator to the
left until its sign bit is set, a second loop moves it back and subtracts it where it fits.

Words are `UInt64` and wrap. The proof goes over their values: after the first loop the denominator
is `den * 2 ^ k` **without overflow** (`Justified`), and the second loop keeps
`quot * den + num` (`Dividing`).
-/

namespace Dwipe

/-- How a call may fail to come back. -/
inductive NoReturn where
  /-- A division by zero was evaluated. The source does this on purpose, for the divide error, but
  C gives it no meaning, and a compiler need not emit a division for it. -/
  | divideError
  /-- A loop was still running after the allotted number of tests. -/
  | running
  deriving DecidableEq

/-- The result of a loop that may still be running. -/
def ended {α : Type} : Option α → Except NoReturn α
  | some a => .ok a
  | none => .error .running

/-- The variables of `__udivmoddi4`, which both of its loops work on. -/
structure DivState where
  num : UInt64
  den : UInt64
  qbit : UInt64
  quot : UInt64
  deriving DecidableEq

/-- The test `(int64_t)den >= 0` of the first loop. -/
def DivState.positive (s : DivState) : Bool := 0 ≤ s.den.toInt64

/-- The body of the first loop: the divisor and the bit that stands for it are doubled. -/
def DivState.justify (s : DivState) : DivState :=
  { s with den := s.den <<< 1, qbit := s.qbit <<< 1 }

/-- The test of the second loop: there is a bit of the quotient left. -/
def DivState.more (s : DivState) : Bool := s.qbit ≠ 0

/-- The conditional subtraction of the second loop, which decides one bit of the quotient. -/
def DivState.restore (s : DivState) : DivState :=
  if s.den ≤ s.num then { s with num := s.num - s.den, quot := s.quot + s.qbit } else s

/-- The body of the second loop: a bit of the quotient, and divisor and bit shifted back. -/
def DivState.divide (s : DivState) : DivState :=
  let s := s.restore
  { s with den := s.den >>> 1, qbit := s.qbit >>> 1 }

/-- `__udivmoddi4(num, den, rem_p)` with `n` tests for each loop. `remP` is the word `rem_p` points
at, or `none` for a null pointer; it is returned as the call leaves it. -/
def udivmoddi4 (n : ℕ) (num den : UInt64) (remP : Option UInt64) :
    Except NoReturn (UInt64 × Option UInt64) := do
  if den = 0 then
    throw .divideError
  let s ← ended (whileLoop DivState.positive DivState.justify n ⟨num, den, 1, 0⟩)
  let s ← ended (whileLoop DivState.more DivState.divide n s)
  return (s.quot, remP.map fun _ ↦ s.num)

/-- `__udivdi3`, which passes no place for the remainder. -/
def udivdi3 (n : ℕ) (num den : UInt64) : Except NoReturn UInt64 := do
  return (← udivmoddi4 n num den none).1

/-- `__umoddi3`; `v` is 0 before the call. -/
def umoddi3 (n : ℕ) (num den : UInt64) : Except NoReturn UInt64 := do
  return (← udivmoddi4 n num den (some 0)).2.getD 0

/-! ### Words and their values -/

theorem toNat_shiftLeft_one {x : UInt64} (h : x.toNat < 2 ^ 63) :
    (x <<< 1).toNat = x.toNat * 2 := by
  have hshift : (x <<< 1).toNat = x.toNat * 2 % 2 ^ 64 := by simp [Nat.shiftLeft_eq]
  rw [hshift]
  exact Nat.mod_eq_of_lt (by omega)

theorem toNat_shiftRight_one (x : UInt64) : (x >>> 1).toNat = x.toNat / 2 := by
  simp [Nat.shiftRight_eq_div_pow]

theorem DivState.positive_eq (s : DivState) : s.positive = decide (s.den.toNat < 2 ^ 63) := by
  have hsign : (0 : Int64) ≤ s.den.toInt64 ↔ 2 * s.den.toNat < 2 ^ 64 := by
    rw [Int64.le_iff_toInt_le]
    exact BitVec.toInt_pos_iff
  rw [DivState.positive]
  exact decide_eq_decide.2 (hsign.trans (by omega))

theorem DivState.more_eq (s : DivState) : s.more = decide (s.qbit.toNat ≠ 0) := by
  rw [DivState.more]
  exact decide_eq_decide.2 (not_congr UInt64.toNat_inj.symm)

/-! ### The first loop -/

/-- **The invariant of the first loop**, `i` shifts after the start. -/
structure Justifying (num den : UInt64) (i : ℕ) (s : DivState) : Prop where
  num : s.num = num
  quot : s.quot = 0
  qbit : s.qbit.toNat = 2 ^ i
  den : s.den.toNat = den.toNat * 2 ^ i

/-- What the first loop leaves: the denominator shifted as far as it goes. -/
structure Justified (num den : UInt64) (i : ℕ) (s : DivState) : Prop
    extends Justifying num den i s where
  sign : 2 ^ 63 ≤ s.den.toNat

theorem justifying_start (num den : UInt64) : Justifying num den 0 ⟨num, den, 1, 0⟩ :=
  ⟨rfl, rfl, rfl, (Nat.mul_one _).symm⟩

section first

variable {num den : UInt64} {i : ℕ} {s : DivState}

/-- A denominator that is not zero reaches the sign bit within 63 shifts. -/
theorem Justifying.lt (h : Justifying num den i s) (hden : den ≠ 0)
    (hpos : s.den.toNat < 2 ^ 63) : i < 63 := by
  have hden' : den.toNat ≠ 0 := fun h0 ↦ hden (UInt64.toNat_inj.1 h0)
  have hle : 2 ^ i ≤ den.toNat * 2 ^ i := Nat.le_mul_of_pos_left _ (by omega)
  have hlt : 2 ^ i < 2 ^ 63 := by
    rw [h.den] at hpos
    omega
  exact (Nat.pow_lt_pow_iff_right (by omega)).1 hlt

theorem Justifying.step (h : Justifying num den i s) (hden : den ≠ 0)
    (hpos : s.den.toNat < 2 ^ 63) : Justifying num den (i + 1) s.justify := by
  have hi : i < 63 := h.lt hden hpos
  have hqbit : s.qbit.toNat < 2 ^ 63 := by
    rw [h.qbit]
    exact Nat.pow_lt_pow_right (by omega) hi
  refine ⟨h.num, h.quot, ?_, ?_⟩
  · show (s.qbit <<< 1).toNat = 2 ^ (i + 1)
    rw [toNat_shiftLeft_one hqbit, h.qbit, pow_succ]
  · show (s.den <<< 1).toNat = den.toNat * 2 ^ (i + 1)
    rw [toNat_shiftLeft_one hpos, h.den, pow_succ, Nat.mul_assoc]

/-- **The first loop ends** within 64 tests and left-justifies the denominator. -/
theorem justify_ends {n : ℕ} (num : UInt64) (hn : 63 < n) (hden : den ≠ 0) :
    ∃ i s, whileLoop DivState.positive DivState.justify n ⟨num, den, 1, 0⟩ = some s ∧
      Justified num den i s := by
  have hlast (s : DivState) (h : ∃ i, i + 0 = 63 ∧ Justifying num den i s) :
      s.positive = false := by
    obtain ⟨i, hi, h⟩ := h
    rw [DivState.positive_eq, decide_eq_false_iff_not]
    intro hpos
    have hlt := h.lt hden hpos
    omega
  have hstep (k : ℕ) (s : DivState) (h : ∃ i, i + (k + 1) = 63 ∧ Justifying num den i s)
      (hc : s.positive = true) : ∃ i, i + k = 63 ∧ Justifying num den i s.justify := by
    obtain ⟨i, hi, h⟩ := h
    rw [DivState.positive_eq, decide_eq_true_eq] at hc
    exact ⟨i + 1, by omega, h.step hden hc⟩
  obtain ⟨k, s, hs, ⟨i, -, hinv⟩, hstop⟩ :=
    whileLoop.of_countdown (P := fun k s ↦ ∃ i, i + k = 63 ∧ Justifying num den i s) hlast hstep
      ⟨0, rfl, justifying_start num den⟩ hn
  rw [DivState.positive_eq, decide_eq_false_iff_not] at hstop
  exact ⟨i, s, hs, hinv, by omega⟩

end first

/-! ### The second loop -/

/-- **The invariant of the second loop** with `k` rounds to come: `quot * den + num` is the
numerator, and what is left of it fits below the denominator's next position. -/
structure Dividing (num den : UInt64) (k : ℕ) (s : DivState) : Prop where
  total : s.quot.toNat * den.toNat + s.num.toNat = num.toNat
  bound : s.num.toNat < den.toNat * 2 ^ k
  qbit : s.qbit.toNat = 2 ^ k / 2
  den : s.qbit ≠ 0 → s.den.toNat = den.toNat * s.qbit.toNat

theorem Justified.dividing {num den : UInt64} {i : ℕ} {s : DivState} (h : Justified num den i s) :
    Dividing num den (i + 1) s := by
  have hlt := s.num.toNat_lt
  have hsign := h.sign
  refine ⟨?_, ?_, ?_, fun _ ↦ ?_⟩
  · rw [h.quot, h.num]
    show 0 * den.toNat + num.toNat = num.toNat
    rw [Nat.zero_mul, Nat.zero_add]
  · rw [pow_succ, ← Nat.mul_assoc, ← h.den]
    omega
  · rw [h.qbit, pow_succ, Nat.mul_div_cancel _ (by omega)]
  · rw [h.den, h.qbit]

section second

variable {num den : UInt64} {k : ℕ} {s : DivState}

theorem Dividing.qbit_eq (h : Dividing num den (k + 1) s) : s.qbit.toNat = 2 ^ k := by
  rw [h.qbit, pow_succ, Nat.mul_div_cancel _ (by omega)]

theorem Dividing.den_eq (h : Dividing num den (k + 1) s) : s.den.toNat = den.toNat * 2 ^ k := by
  have hne : s.qbit ≠ 0 := by
    intro h0
    have hqbit := h.qbit_eq
    rw [h0] at hqbit
    exact absurd hqbit.symm (Nat.two_pow_pos k).ne'
  rw [h.den hne, h.qbit_eq]

/-- A denominator that fits is subtracted, and its bit goes into the quotient without overflow. -/
theorem Dividing.subtract (h : Dividing num den (k + 1) s) (hden : den ≠ 0)
    (hle : s.den.toNat ≤ s.num.toNat) :
    (s.num - s.den).toNat = s.num.toNat - s.den.toNat ∧
      (s.quot + s.qbit).toNat = s.quot.toNat + s.qbit.toNat := by
  have hpos : 0 < den.toNat := Nat.pos_of_ne_zero fun h0 ↦ hden (UInt64.toNat_inj.1 h0)
  have hnum := num.toNat_lt
  refine ⟨UInt64.toNat_sub_of_le _ _ (UInt64.le_iff_toNat_le.2 hle), ?_⟩
  rw [UInt64.toNat_add]
  refine Nat.mod_eq_of_lt ?_
  calc s.quot.toNat + s.qbit.toNat
      ≤ (s.quot.toNat + s.qbit.toNat) * den.toNat := Nat.le_mul_of_pos_right _ hpos
    _ = s.quot.toNat * den.toNat + s.den.toNat := by
        rw [Nat.add_mul, h.den_eq, h.qbit_eq, Nat.mul_comm (2 ^ k)]
    _ ≤ num.toNat := by
        rw [← h.total]
        omega
    _ < 2 ^ 64 := hnum

/-- The conditional subtraction keeps `quot * den + num` and brings what is left below the
denominator. -/
theorem Dividing.restore (h : Dividing num den (k + 1) s) (hden : den ≠ 0) :
    s.restore.quot.toNat * den.toNat + s.restore.num.toNat = num.toNat ∧
      s.restore.num.toNat < den.toNat * 2 ^ k := by
  have htotal := h.total
  have hbound := h.bound
  rw [pow_succ, ← Nat.mul_assoc, ← h.den_eq] at hbound
  rw [← h.den_eq, DivState.restore]
  split
  case isTrue hle =>
    have hle' : s.den.toNat ≤ s.num.toNat := UInt64.le_iff_toNat_le.1 hle
    obtain ⟨hsub, hadd⟩ := h.subtract hden hle'
    have hbit : s.qbit.toNat * den.toNat = s.den.toNat := by
      rw [h.den_eq, h.qbit_eq, Nat.mul_comm]
    show (s.quot + s.qbit).toNat * den.toNat + (s.num - s.den).toNat = num.toNat ∧
      (s.num - s.den).toNat < s.den.toNat
    rw [hsub, hadd, Nat.add_mul, hbit]
    omega
  case isFalse hle =>
    have hlt : s.num.toNat < s.den.toNat :=
      Nat.lt_of_not_le fun h ↦ hle (UInt64.le_iff_toNat_le.2 h)
    exact ⟨htotal, hlt⟩

theorem restore_den (s : DivState) : s.restore.den = s.den ∧ s.restore.qbit = s.qbit := by
  rw [DivState.restore]
  split <;> exact ⟨rfl, rfl⟩

theorem Dividing.step (h : Dividing num den (k + 1) s) (hden : den ≠ 0) :
    Dividing num den k s.divide := by
  obtain ⟨htotal, hbound⟩ := h.restore hden
  obtain ⟨hd, hq⟩ := restore_den s
  have hqbit : s.divide.qbit.toNat = 2 ^ k / 2 := by
    show (s.restore.qbit >>> 1).toNat = 2 ^ k / 2
    rw [hq, toNat_shiftRight_one, h.qbit_eq]
  refine ⟨htotal, hbound, hqbit, fun hne ↦ ?_⟩
  cases k with
  | zero => exact absurd (UInt64.toNat_inj.1 hqbit) hne
  | succ k =>
    show (s.restore.den >>> 1).toNat = den.toNat * s.divide.qbit.toNat
    rw [hqbit, hd, toNat_shiftRight_one, h.den_eq, pow_succ, Nat.mul_div_cancel _ (by omega),
      ← Nat.mul_assoc, Nat.mul_div_cancel _ (by omega)]

/-- **The second loop ends** within 65 tests, with the quotient and the remainder. -/
theorem divide_ends {n : ℕ} (hn : k < n) (hden : den ≠ 0) (h : Dividing num den k s) :
    ∃ s', whileLoop DivState.more DivState.divide n s = some s' ∧
      s'.quot.toNat * den.toNat + s'.num.toNat = num.toNat ∧ s'.num.toNat < den.toNat := by
  have hlast (s : DivState) (h : Dividing num den 0 s) : s.more = false := by
    rw [DivState.more_eq, h.qbit]
    rfl
  obtain ⟨j, s', hs, hinv, hstop⟩ :=
    whileLoop.of_countdown hlast (fun k s h _ ↦ Dividing.step h hden) h hn
  refine ⟨s', hs, hinv.total, ?_⟩
  rw [DivState.more_eq, decide_eq_false_iff_not, not_not] at hstop
  have hbound := hinv.bound
  cases j with
  | zero => simpa using hbound
  | succ j => exact absurd (hinv.qbit_eq.symm.trans hstop) (Nat.two_pow_pos j).ne'

end second

/-! ### The call -/

theorem Justified.lt {num den : UInt64} {i : ℕ} {s : DivState} (h : Justified num den i s) :
    i < 64 := by
  have hqbit := s.qbit.toNat_lt
  rw [h.qbit] at hqbit
  exact (Nat.pow_lt_pow_iff_right (by omega)).1 hqbit

/-- **`__udivmoddi4` divides.** With more than 64 tests for each loop it comes back with the
quotient, and the remainder where `rem_p` points. -/
theorem udivmoddi4_eq {n : ℕ} (hn : 64 < n) (num : UInt64) {den : UInt64} (hden : den ≠ 0)
    (remP : Option UInt64) :
    udivmoddi4 n num den remP = .ok (num / den, remP.map fun _ ↦ num % den) := by
  obtain ⟨i, s, hs, hjust⟩ := justify_ends num (show 63 < n by omega) hden
  have hi := hjust.lt
  obtain ⟨s', hs', htotal, hlt⟩ := divide_ends (show i + 1 < n by omega) hden hjust.dividing
  have hquot : s'.quot = num / den := by
    rw [← UInt64.toNat_inj, UInt64.toNat_div, ← htotal, Nat.mul_comm,
      Nat.mul_add_div (by omega), Nat.div_eq_of_lt hlt, Nat.add_zero]
  have hrem : s'.num = num % den := by
    rw [← UInt64.toNat_inj, UInt64.toNat_mod, ← htotal, Nat.mul_comm, Nat.mul_add_mod,
      Nat.mod_eq_of_lt hlt]
  rw [udivmoddi4, if_neg hden, hs]
  show (do
    let s ← ended (whileLoop DivState.more DivState.divide n s)
    return (s.quot, remP.map fun _ ↦ s.num) : Except NoReturn _) = _
  rw [hs', ← hquot, ← hrem]
  rfl

/-- **64-bit division.** For a denominator other than zero both loops of `__udivmoddi4` end, it
returns the quotient and stores the remainder, and so `__udivdi3` and `__umoddi3` come back with a
quotient and a remainder that give the numerator again. -/
theorem udivdi3_umoddi3 (n : ℕ) (hn : 64 < n) (num den : UInt64) (hden : den ≠ 0) :
    (∀ remP, ∃ quot rem : UInt64,
      udivmoddi4 n num den remP = .ok (quot, remP.map fun _ ↦ rem) ∧
        quot.toNat = num.toNat / den.toNat ∧ rem.toNat = num.toNat % den.toNat) ∧
      ∃ quot rem, udivdi3 n num den = .ok quot ∧ umoddi3 n num den = .ok rem ∧
        quot.toNat * den.toNat + rem.toNat = num.toNat ∧ rem.toNat < den.toNat := by
  have hpos : 0 < den.toNat := Nat.pos_of_ne_zero fun h0 ↦ hden (UInt64.toNat_inj.1 h0)
  refine ⟨fun remP ↦ ⟨num / den, num % den, udivmoddi4_eq hn num hden remP,
    UInt64.toNat_div .., UInt64.toNat_mod ..⟩, num / den, num % den, ?_, ?_, ?_, ?_⟩
  · rw [udivdi3, udivmoddi4_eq hn num hden]
    rfl
  · rw [umoddi3, udivmoddi4_eq hn num hden]
    rfl
  · rw [UInt64.toNat_div, UInt64.toNat_mod, Nat.mul_comm]
    exact Nat.div_add_mod _ _
  · rw [UInt64.toNat_mod]
    exact Nat.mod_lt _ hpos

/-- The division of the sector count of a large disk by a chunk. -/
theorem udivdi3_umoddi3_at : ∃ quot rem, udivdi3 65 0x123456789ABCDEF0 8192 = .ok quot ∧
    umoddi3 65 0x123456789ABCDEF0 8192 = .ok rem ∧
    quot.toNat * 8192 + rem.toNat = 0x123456789ABCDEF0 ∧ rem.toNat < 8192 :=
  (udivdi3_umoddi3 65 (by decide) 0x123456789ABCDEF0 8192 (by decide)).2

end Dwipe

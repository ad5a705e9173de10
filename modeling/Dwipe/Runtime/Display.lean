import Dwipe.CommandLine.Options
import Dwipe.Library.Canvas

/-!
# Text on the display

`cprint`, `hprint2` and `hprint` of `display.c`. The display is memory: a character goes into every
other byte from `b8000h` on, and the bytes between them, which hold the colours, are left alone.

`hprint2` writes all eight hexadecimal digits of a number into a static buffer and counts, in
`flag`, those from the first one on that is not a zero; what it prints is the end of the buffer.
However many digits it is asked for, **the text it prints is read back as the number**
(`readHex_hexText`), and it has as many digits as asked for if the number fits into them
(`length_hexText`).
-/

namespace Dwipe

open Canvas

/-! ### The functions -/

/-- `SCREEN_ADR`: the text memory of the display adapter. -/
def screenAdr : ℕ := 0xb8000

/-- The address of a cell: a character and an attribute each, 80 cells in a row. -/
def cellAdr (y x : ℕ) : ℕ := screenAdr + 160 * y + 2 * x

/-- `cprint`. The attributes stay as they are, and nothing is cut off at the end of a row. -/
def cprint (mem : ℕ → UInt8) (y x : ℕ) (text : List UInt8) : ℕ → UInt8 :=
  put 2 mem (cellAdr y x) text

/-- One round of the loop in `hprint2`: the digits in the buffer, and `flag`. -/
def hexRound (val : UInt32) (s : List UInt8 × ℕ) (i : ℕ) : List UInt8 × ℕ :=
  let j := val >>> UInt32.ofNat (28 - 4 * i) &&& 0xf
  if j < 10 then
    if s.2 ≠ 0 ∨ j ≠ 0 ∨ i = 7 then (s.1 ++ [j.toUInt8 + 0x30], s.2 + 1) else (s.1 ++ [0x30], s.2)
  else (s.1 ++ [j.toUInt8 + 0x61 - 10], s.2 + 1)

/-- The loop in `hprint2`. -/
def hexLoop (val : UInt32) : List UInt8 × ℕ := (List.range 8).foldl (hexRound val) ([], 0)

/-- The string at `buf + (idx - digits)`. -/
def hexText (val : UInt32) (digits : ℤ) : List UInt8 :=
  let (buf, flag) := hexLoop val
  let digits := if digits > 8 then 8 else digits
  let digits := if flag > digits then (flag : ℤ) else digits
  buf.drop (buf.length - digits.toNat)

/-- `hprint2`; the static buffer is at `buf`. -/
def hprint2 (buf : ℕ) (mem : ℕ → UInt8) (y x : ℕ) (val : UInt32) (digits : ℤ) : ℕ → UInt8 :=
  cprint (put 1 mem buf ((hexLoop val).1 ++ [0])) y x (hexText val digits)

/-- `hprint`. -/
def hprint (buf : ℕ) (mem : ℕ → UInt8) (y x : ℕ) (val : UInt32) : ℕ → UInt8 :=
  hprint2 buf mem y x val 8

/-! ### What `cprint` covers -/

/-- The stroke of a text on the display. -/
def cells (y x : ℕ) (text : List UInt8) : Stroke UInt8 := ⟨cellAdr y x, 2, text, by decide⟩

/-- The cells of a text. -/
theorem covers_cells {y x a : ℕ} {t : List UInt8} :
    (cells y x t).Covers a ↔ ∃ i < t.length, a = screenAdr + 2 * (80 * y + x + i) := by
  have hplace (i : ℕ) : cellAdr y x + 2 * i = screenAdr + 2 * (80 * y + x + i) := by
    rw [cellAdr]
    ring
  simp only [Stroke.Covers, cells, hplace]

/-- A text of the same length at the same place covers the same cells. -/
theorem covers_cells_congr {y x a : ℕ} {t t' : List UInt8} (h : t.length = t'.length)
    (ha : (cells y x t).Covers a) : (cells y x t').Covers a := ha.congr rfl rfl h

/-! ### Reading hexadecimal digits -/

/-- The value of a digit, in the characters `hprint2` uses. -/
def hexVal (c : UInt8) : Option ℕ :=
  if 0x30 ≤ c ∧ c ≤ 0x39 then some (c.toNat - 0x30)
  else if 0x61 ≤ c ∧ c ≤ 0x66 then some (c.toNat - 0x61 + 10)
  else none

/-- The number that digits stand for, and none if a character is no digit. -/
def readHex (l : List UInt8) : Option ℕ :=
  l.foldlM (fun n c ↦ (hexVal c).map fun d ↦ n * 16 + d) 0

/-- The character of a digit. -/
def hexChar (j : ℕ) : UInt8 := UInt8.ofNat (if j < 10 then 0x30 + j else 0x61 - 10 + j)

theorem hexVal_hexChar : ∀ j < 16, hexVal (hexChar j) = some j := by decide

theorem readHex_concat {l : List UInt8} {n j : ℕ} (h : readHex l = some n) (hj : j < 16) :
    readHex (l ++ [hexChar j]) = some (n * 16 + j) := by
  rw [readHex] at h ⊢
  rw [List.foldlM_append, h]
  simp [hexVal_hexChar j hj]

/-- Leading zeros do not count, so a field may be wider than its number. -/
theorem readHex_zeros (k : ℕ) (l : List UInt8) :
    readHex (List.replicate k 0x30 ++ l) = readHex l := by
  induction k with
  | zero => rfl
  | succ k ih =>
    rw [List.replicate_succ, List.cons_append, ← ih]
    rfl

/-! ### The digits of `hprint2` -/

/-- The digit of round `i`. -/
theorem toNat_nibble (val : UInt32) {i : ℕ} (hi : i < 8) :
    (val >>> UInt32.ofNat (28 - 4 * i) &&& 0xf).toNat = val.toNat / 16 ^ (7 - i) % 16 := by
  have hpow : 2 ^ (28 - 4 * i) = 16 ^ (7 - i) := by
    rw [show (16 : ℕ) = 2 ^ 4 by rfl, ← Nat.pow_mul]
    congr 1
    omega
  have hshift : (UInt32.ofNat (28 - 4 * i)).toNat % 32 = 28 - 4 * i := by
    rw [UInt32.toNat_ofNat']
    omega
  have hmask : (0xf : UInt32).toNat = 2 ^ 4 - 1 := rfl
  rw [UInt32.toNat_and, UInt32.toNat_shiftRight, hshift, hmask, Nat.and_two_pow_sub_one_eq_mod,
    Nat.shiftRight_eq_div_pow, hpow]

theorem toUInt8_nibble {j : UInt32} (hj : j.toNat < 16) :
    (if j < 10 then j.toUInt8 + 0x30 else j.toUInt8 + 0x61 - 10) = hexChar j.toNat := by
  have hall : ∀ k < 16, (if UInt32.ofNat k < 10 then (UInt32.ofNat k).toUInt8 + 0x30
      else (UInt32.ofNat k).toUInt8 + 0x61 - 10) = hexChar k := by decide
  have h := hall j.toNat hj
  rwa [UInt32.ofNat_toNat] at h

/-- **One round**, with the digit as a number: it is appended, and it counts unless it is a leading
zero other than the last digit. -/
theorem hexRound_eq (val : UInt32) (s : List UInt8 × ℕ) {i j : ℕ} (hi : i < 8)
    (hj : j = val.toNat / 16 ^ (7 - i) % 16) :
    hexRound val s i =
      (s.1 ++ [hexChar j], if s.2 = 0 ∧ j = 0 ∧ i ≠ 7 then s.2 else s.2 + 1) := by
  obtain ⟨d, hd⟩ : ∃ d, d = val >>> UInt32.ofNat (28 - 4 * i) &&& 0xf := ⟨_, rfl⟩
  have hdj : d.toNat = j := by rw [hd, toNat_nibble val hi, hj]
  have hlt : d.toNat < 16 := by rw [hdj, hj]; exact Nat.mod_lt _ (by decide)
  have hchar := toUInt8_nibble hlt
  have hzero : d = 0 ↔ j = 0 := by
    rw [← hdj]
    exact ⟨fun h ↦ by rw [h]; rfl, fun h ↦ UInt32.toNat_inj.1 h⟩
  rw [hdj] at hchar
  simp only [hexRound, ← hd]
  by_cases hten : d < 10
  · rw [if_pos hten] at hchar ⊢
    by_cases hlead : s.2 = 0 ∧ j = 0 ∧ i ≠ 7
    · rw [if_pos hlead, if_neg (by rw [ne_eq, ne_eq, hzero]; tauto)]
      rw [← hchar, hzero.2 hlead.2.1]
      rfl
    · rw [if_neg hlead, if_pos (by rw [ne_eq, ne_eq, hzero]; tauto), hchar]
  · rw [if_neg hten] at hchar ⊢
    have hne : ¬(s.2 = 0 ∧ j = 0 ∧ i ≠ 7) := by
      rintro ⟨-, h0, -⟩
      rw [hzero.2 h0] at hten
      exact hten (by decide)
    rw [if_neg hne, hchar]

/-- **What the loop has done after `k` rounds**: the digits so far, and `flag` of them from the
first one on that counts. -/
structure Numeral (val : UInt32) (k : ℕ) (s : List UInt8 × ℕ) : Prop where
  length : s.1.length = k
  value : readHex s.1 = some (val.toNat / 16 ^ (8 - k))
  flag_le : s.2 ≤ k
  zeros : s.1.take (k - s.2) = List.replicate (k - s.2) 0x30
  /-- A number with that many digits is not smaller, unless it is 0 and has been given one. -/
  large : 0 < s.2 → 16 ^ (s.2 - 1) ≤ val.toNat / 16 ^ (8 - k) ∨ k = 8 ∧ s.2 = 1
  last : k = 8 → 0 < s.2

theorem div_pow_succ (v : ℕ) {k : ℕ} (hk : k < 8) :
    v / 16 ^ (8 - (k + 1)) = v / 16 ^ (8 - k) * 16 + v / 16 ^ (7 - k) % 16 := by
  have hpow : 16 ^ (8 - k) = 16 ^ (7 - k) * 16 := by
    rw [← Nat.pow_succ]
    congr 1
    omega
  rw [hpow, ← Nat.div_div_eq_div_mul, show 8 - (k + 1) = 7 - k by omega]
  exact (Nat.div_add_mod' _ 16).symm

theorem Numeral.round {val : UInt32} {k : ℕ} {s : List UInt8 × ℕ} (h : Numeral val k s)
    (hk : k < 8) : Numeral val (k + 1) (hexRound val s k) := by
  obtain ⟨j, hj⟩ : ∃ j, j = val.toNat / 16 ^ (7 - k) % 16 := ⟨_, rfl⟩
  have hlt : j < 16 := by rw [hj]; exact Nat.mod_lt _ (by decide)
  have hnext := div_pow_succ val.toNat hk
  rw [← hj] at hnext
  have hvalue : readHex (s.1 ++ [hexChar j]) = some (val.toNat / 16 ^ (8 - (k + 1))) := by
    rw [hnext]
    exact readHex_concat h.value hlt
  have hlen : (s.1 ++ [hexChar j]).length = k + 1 := by
    rw [List.length_append, h.length]
    rfl
  have hflag := h.flag_le
  rw [hexRound_eq val s hk hj]
  by_cases hlead : s.2 = 0 ∧ j = 0 ∧ k ≠ 7
  · -- a leading zero
    rw [if_pos hlead]
    obtain ⟨h0, rfl, h7⟩ := hlead
    have hzeros := h.zeros
    rw [h0, Nat.sub_zero, List.take_of_length_le (Nat.le_of_eq h.length)] at hzeros
    refine ⟨hlen, hvalue, by omega, ?_, fun hpos ↦ absurd h0 (by dsimp only at hpos; omega),
      fun h8 ↦ absurd h8 (by omega)⟩
    dsimp only
    rw [h0, Nat.sub_zero, List.take_of_length_le (Nat.le_of_eq hlen), hzeros, List.replicate_succ']
    rfl
  · rw [if_neg hlead]
    refine ⟨hlen, hvalue, by dsimp only; omega, ?_, fun _ ↦ ?_, fun _ ↦ Nat.succ_pos _⟩
    · dsimp only
      rw [show k + 1 - (s.2 + 1) = k - s.2 by omega,
        List.take_append_of_le_length (by rw [h.length]; omega)]
      exact h.zeros
    · dsimp only
      rw [Nat.add_sub_cancel, hnext]
      rcases Nat.eq_zero_or_pos s.2 with h0 | hpos
      · -- the first digit that counts
        by_cases hj0 : j = 0
        · exact Or.inr ⟨by by_contra h8; exact hlead ⟨h0, hj0, by omega⟩, by omega⟩
        · rw [h0, Nat.pow_zero]
          exact Or.inl (by omega)
      · have hlarge : 16 ^ (s.2 - 1) ≤ val.toNat / 16 ^ (8 - k) :=
          (h.large hpos).resolve_right fun h8 ↦ by omega
        have hpow : 16 ^ s.2 = 16 ^ (s.2 - 1) * 16 := by
          rw [← Nat.pow_succ]
          congr 1
          omega
        exact Or.inl (by omega)

theorem numeral_hexLoop (val : UInt32) : Numeral val 8 (hexLoop val) := by
  have hrun (k : ℕ) (hk : k ≤ 8) :
      Numeral val k ((List.range k).foldl (hexRound val) ([], 0)) := by
    induction k with
    | zero =>
      have hdiv : val.toNat / 16 ^ (8 - 0) = 0 := Nat.div_eq_of_lt val.toNat_lt
      exact ⟨rfl, by rw [hdiv]; rfl, Nat.le_refl 0, rfl, fun h ↦ absurd h (Nat.lt_irrefl 0),
        fun h ↦ absurd h (by decide)⟩
    | succ k ih =>
      rw [List.range_succ, List.foldl_append]
      exact (ih (Nat.le_of_succ_le hk)).round (Nat.lt_of_succ_le hk)
  exact hrun 8 (Nat.le_refl 8)

/-! ### What is printed -/

/-- The number of digits `hprint2` prints: those asked for, or more if the number has more. -/
def printed (val : UInt32) (digits : ℤ) : ℕ := (max (min digits 8) (hexLoop val).2).toNat

theorem hexText_eq (val : UInt32) (digits : ℤ) :
    hexText val digits = (hexLoop val).1.drop (8 - printed val digits) := by
  have hlen := (numeral_hexLoop val).length
  simp only [hexText, hlen, printed]
  congr 2
  split_ifs <;> omega

/-- **A printed number is read back**, for every number and every number of digits. -/
theorem readHex_hexText (val : UInt32) (digits : ℤ) :
    readHex (hexText val digits) = some val.toNat := by
  have h := numeral_hexLoop val
  obtain ⟨k, hk, hflag⟩ : ∃ k, k = 8 - printed val digits ∧ k ≤ 8 - (hexLoop val).2 := by
    refine ⟨_, rfl, ?_⟩
    rw [printed]
    omega
  have hzeros : (hexLoop val).1.take k = List.replicate k 0x30 := by
    have hall := congrArg (List.take k) h.zeros
    rwa [List.take_take, List.take_replicate, Nat.min_eq_left hflag] at hall
  have hvalue := h.value
  rw [← List.take_append_drop k (hexLoop val).1, hzeros, readHex_zeros] at hvalue
  rw [hexText_eq, ← hk, hvalue]
  simp

/-- **It has as many digits as asked for**, if it fits into them. -/
theorem length_hexText {val : UInt32} {w : ℕ} (hpos : 1 ≤ w) (hw : w ≤ 8)
    (hval : val.toNat < 16 ^ w) : (hexText val w).length = w := by
  have h := numeral_hexLoop val
  have hflag : (hexLoop val).2 ≤ w := by
    by_contra hlt
    rcases h.large (by omega) with hlarge | ⟨-, h1⟩
    · have hmono : 16 ^ w ≤ 16 ^ ((hexLoop val).2 - 1) :=
        Nat.pow_le_pow_right (by decide) (by omega)
      rw [Nat.sub_self, Nat.pow_zero, Nat.div_one] at hlarge
      omega
    · omega
  rw [hexText_eq, List.length_drop, h.length, printed]
  omega

end Dwipe

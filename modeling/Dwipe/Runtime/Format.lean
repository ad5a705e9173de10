import Dwipe.Runtime.Log
import Dwipe.Runtime.Display
import Mathlib.Data.Nat.Digits.Lemmas

/-!
# Numbers as text

The conversions of `printf` that the program's messages on the display use. An `int` is printed with
its sign, and an `uint32_t` handed to `%d` is printed as an `int`; the padding goes in front of the
digits but, if it is zeros, behind the sign.

What is proved of them is **how long they get** (`length_fmtD_le`, `length_fmtZero`), which decides
whether a message stays in its row of the display, and that a number padded with zeros is **read
back** the way the program's own `atoi` reads digits (`digitsValue_fmtZero_append`).
-/

namespace Dwipe

/-! ### The conversions -/

/-- An `uint32_t` where the format expects an `int`: from 2^31 on it is printed with a sign. -/
def asInt (x : UInt32) : ℤ := wrapInt x.toNat

/-- `%d`, with a sign only if there is one to print. -/
def fmtD (v : ℤ) : List UInt8 := if v < 0 then 0x2d :: decimal v.natAbs else decimal v.toNat

/-- `%` with a width and `d`: spaces in front, and nothing cut off. -/
def fmtPad (width : ℕ) (v : ℤ) : List UInt8 := (fmtD v).leftpad width 0x20

/-- `%0` with a width and `d`. -/
def fmtZero (width : ℕ) (v : ℤ) : List UInt8 :=
  if v < 0 then 0x2d :: (decimal v.natAbs).leftpad (width - 1) 0x30
  else (decimal v.toNat).leftpad width 0x30

/-- `%llu`, which is `PRIu64`. The library the program is linked with is built without `long long`:
it takes the second `l` for another first one and prints **the low word** only. -/
def fmtLlu (n : UInt64) : List UInt8 := decimal n.toUInt32.toNat

/-- `%02x` of a byte. -/
def fmtHex (b : UInt8) : List UInt8 := [hexChar (b.toNat / 16), hexChar (b.toNat % 16)]

/-- `%3.1f` of a whole number. -/
def fmtFixed (n : ℕ) : List UInt8 := (decimal n ++ ascii ".0").leftpad 3 0x20

/-- The string in a buffer of `size` bytes after `snprintf(buffer, size, …)`. -/
def snprinted (size : ℕ) (text : List UInt8) : List UInt8 := text.take (size - 1)

theorem snprinted_of_lt {size : ℕ} {text : List UInt8} (h : text.length < size) :
    snprinted size text = text := List.take_of_length_le (by omega)

theorem length_snprinted_lt {size : ℕ} (h : 0 < size) (text : List UInt8) :
    (snprinted size text).length < size := by
  rw [snprinted, List.length_take]
  omega

/-! ### Their lengths -/

theorem length_decimal_le {n k : ℕ} (hk : 0 < k) (h : n < 10 ^ k) : (decimal n).length ≤ k := by
  rw [decimal]
  split_ifs
  · exact hk
  · rw [List.length_map, List.length_reverse]
    exact (Nat.digits_length_le_iff (by decide) n).2 h

/-- **A number takes its digits and a sign**, so its length is bounded by its size. -/
theorem length_fmtD_le {v : ℤ} {k : ℕ} (hk : 0 < k) (h : v.natAbs < 10 ^ k) :
    (fmtD v).length ≤ k + 1 := by
  rw [fmtD]
  split_ifs with hv
  · exact Nat.succ_le_succ (length_decimal_le hk h)
  · have habs : v.toNat = v.natAbs := by omega
    rw [habs]
    exact (length_decimal_le hk h).trans (Nat.le_succ k)

/-- Without a sign it takes its digits. -/
theorem length_fmtD_le_of_nonneg {v : ℤ} {k : ℕ} (hk : 0 < k) (h0 : 0 ≤ v) (h : v < 10 ^ k) :
    (fmtD v).length ≤ k := by
  rw [fmtD, if_neg (by omega)]
  refine length_decimal_le hk ?_
  have hcast : ((10 ^ k : ℕ) : ℤ) = 10 ^ k := by push_cast; rfl
  omega

/-- **Zeros fill a number up to its width**, and no further. -/
theorem length_fmtZero {v : ℤ} {width k : ℕ} (hk : 0 < k) (hw : width ≤ k) (h0 : 0 ≤ v)
    (h : v < 10 ^ k) : width ≤ (fmtZero width v).length ∧ (fmtZero width v).length ≤ k := by
  have hcast : ((10 ^ k : ℕ) : ℤ) = 10 ^ k := by push_cast; rfl
  have hlen : (decimal v.toNat).length ≤ k := length_decimal_le hk (by omega)
  rw [fmtZero, if_neg (by omega), List.length_leftpad]
  omega

theorem length_fmtZero_le {v : ℤ} {width k : ℕ} (hk : 0 < k) (hw : width ≤ k)
    (h : v.natAbs < 10 ^ k) : (fmtZero width v).length ≤ k + 1 := by
  rw [fmtZero]
  split_ifs with hv
  · have hlen : (decimal v.natAbs).length ≤ k := length_decimal_le hk h
    rw [List.length_cons, List.length_leftpad]
    omega
  · have habs : v.toNat = v.natAbs := by omega
    have hlen : (decimal v.natAbs).length ≤ k := length_decimal_le hk h
    rw [habs, List.length_leftpad]
    omega

/-- An `int` has at most ten digits, whatever word it has been made of. -/
theorem natAbs_asInt_lt (x : UInt32) : (asInt x).natAbs < 10 ^ 10 := by
  have hlt := x.toNat_lt
  rw [asInt, wrapInt, Int.bmod]
  split_ifs <;> omega

/-- A small number is printed as it is. -/
theorem asInt_of_lt {x : UInt32} (h : x.toNat < 2 ^ 31) : asInt x = x.toNat := by
  rw [asInt, wrapInt, Int.bmod]
  split_ifs <;> omega

/-! ### Reading them back -/

/-- The value of digits, most significant first. -/
theorem foldl_digits (l : List ℕ) (hl : ∀ d ∈ l, d < 10) :
    (l.reverse.map fun d ↦ UInt8.ofNat (0x30 + d)).foldl
      (fun acc c ↦ acc * 10 + (c.toNat - 0x30)) 0 = Nat.ofDigits 10 l := by
  induction l with
  | nil => rfl
  | cons d l ih =>
    have hd : d < 10 := hl d List.mem_cons_self
    have hchar : (UInt8.ofNat (0x30 + d)).toNat = 0x30 + d := by
      rw [UInt8.toNat_ofNat', Nat.mod_eq_of_lt (by omega)]
    rw [List.reverse_cons, List.map_append, List.foldl_append,
      ih fun d hd ↦ hl d (List.mem_cons_of_mem _ hd), Nat.ofDigits_cons]
    simp only [List.map_cons, List.map_nil, List.foldl_cons, List.foldl_nil, hchar]
    omega

theorem isdigit_decimal (n : ℕ) : ∀ c ∈ decimal n, isdigit c = true := by
  intro c hc
  rw [decimal] at hc
  split_ifs at hc
  · rw [List.mem_singleton.1 hc]
    rfl
  · obtain ⟨d, hd, rfl⟩ := List.mem_map.1 hc
    have hlt : d < 10 := Nat.digits_lt_base (by decide) (List.mem_reverse.1 hd)
    have hall : ∀ d < 10, isdigit (UInt8.ofNat (0x30 + d)) = true := by decide
    exact hall d hlt

/-- **A number padded with zeros is read back**, up to the first character that is not a digit. -/
theorem digitsValue_fmtZero_append {v : ℤ} (h0 : 0 ≤ v) (width : ℕ) {rest : List UInt8}
    (hrest : ∀ c ∈ rest.head?, isdigit c = false) :
    digitsValue (fmtZero width v ++ rest) = v.toNat := by
  have hstop : rest.takeWhile isdigit = [] := by
    cases rest with
    | nil => rfl
    | cons c rest => rw [List.takeWhile_cons_of_neg (by simpa using hrest c rfl)]
  have hdigits : ∀ c ∈ fmtZero width v, isdigit c = true := by
    rw [fmtZero, if_neg (by omega), List.leftpad]
    intro c hc
    rcases List.mem_append.1 hc with hc | hc
    · rw [List.eq_of_mem_replicate hc]
      rfl
    · exact isdigit_decimal _ c hc
  -- the zeros in front add nothing
  have hzeros (k : ℕ) (l : List UInt8) : (List.replicate k 0x30 ++ l).foldl
      (fun acc (c : UInt8) ↦ acc * 10 + (c.toNat - 0x30)) 0 =
        l.foldl (fun acc c ↦ acc * 10 + (c.toNat - 0x30)) 0 := by
    induction k with
    | zero => rfl
    | succ k ih =>
      rw [List.replicate_succ, List.cons_append, List.foldl_cons]
      exact ih
  rw [digitsValue, List.takeWhile_append_of_pos hdigits, hstop, List.append_nil, fmtZero,
    if_neg (by omega), List.leftpad, hzeros, decimal]
  split_ifs with h
  · rw [h]
    rfl
  · rw [foldl_digits _ fun d hd ↦ Nat.digits_lt_base (by decide) hd, Nat.ofDigits_digits]

end Dwipe

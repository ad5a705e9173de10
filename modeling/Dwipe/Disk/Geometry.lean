import Dwipe.Library.Radix
import Dwipe.Machine.Types
import Mathlib.Data.Nat.Bitwise

/-!
# Cylinder, head and sector addresses

The address arithmetic of `disk.c`: the packing of cylinder and sector into `CX`, the range test
`varify_chs`, and the conversions between a linear sector number and a triple.

Linear numbers and triples are related by three-digit radix arithmetic (`Radix`), except that
sectors count from one. `lba2chs` refuses numbers above `maxLba`, the last one the BIOS can address
this way; the last number of a geometry with at most 255 heads is never above that bound, so nothing
inside such a geometry is refused (`lba2chs_of_lt`). A triple inside the geometry is three digits
(`Digits`), and the facts about it are facts about these.
-/

namespace Dwipe

/-! ### Packing -/

/-- `get_chs_from_pack`: cylinder and sector from a packed word, in which the two high bits of the
cylinder stand above the sector. -/
def getChsFromPack (c_s : UInt16) : ℕ × ℕ :=
  (((c_s.toNat &&& 0xFF00) >>> 8) ||| ((c_s.toNat &&& 0xC0) <<< 2), c_s.toNat &&& 63)

/-- `set_chs_to_pack`. Its callers have checked that neither number is negative. -/
def setChsToPack (cylinder sector : ℕ) : UInt16 :=
  UInt16.ofNat (((cylinder &&& 255) <<< 8) ||| ((cylinder &&& 768) >>> 2) ||| sector)

/-- Masking with a shifted mask masks the shifted number. -/
theorem and_shifted_mask (x m k : ℕ) : x &&& (m <<< k) = ((x >>> k) &&& m) <<< k := by
  apply Nat.eq_of_testBit_eq
  intro i
  simp only [Nat.testBit_and, Nat.testBit_shiftLeft, Nat.testBit_shiftRight]
  by_cases h : k ≤ i
  · simp [h]
  · simp [h]

/-- Or-ing a number into the room below a shifted one adds them. -/
theorem shiftLeft_or_of_lt {a b k : ℕ} (h : b < 2 ^ k) : (a <<< k) ||| b = a * 2 ^ k + b := by
  rw [Nat.shiftLeft_eq, Nat.mul_comm]
  exact (Nat.two_pow_add_eq_or_of_lt h a).symm

/-- The packed word as a number: the low byte of the cylinder, its two high bits, the sector. -/
theorem setChsToPack_toNat {c s : ℕ} (hc : c < 1024) (hs : s < 64) :
    (setChsToPack c s).toNat = c % 256 * 256 + (c / 256 * 64 + s) := by
  have hlow : c &&& 255 = c % 256 := Nat.and_two_pow_sub_one_eq_mod c 8
  have hmask : c &&& 768 = ((c >>> 8) &&& 3) <<< 8 := and_shifted_mask c 3 8
  have hbits : (c >>> 8) &&& 3 = c / 256 := by
    have h : (c >>> 8) &&& 3 = (c >>> 8) % 4 := Nat.and_two_pow_sub_one_eq_mod _ 2
    rw [h, Nat.shiftRight_eq_div_pow, Nat.mod_eq_of_lt (by omega)]
  have hhigh : (c &&& 768) >>> 2 = (c / 256) <<< 6 := by
    rw [hmask, hbits, Nat.shiftLeft_eq, Nat.shiftRight_eq_div_pow, Nat.shiftLeft_eq]
    omega
  rw [setChsToPack, hlow, hhigh, Nat.or_assoc, shiftLeft_or_of_lt (k := 6) hs,
    shiftLeft_or_of_lt (k := 8) (by omega), UInt16.toNat_ofNat']
  exact Nat.mod_eq_of_lt (by omega)

/-- The unpacked pair as numbers, for the linear arithmetic further on. -/
theorem getChsFromPack_eq (w : UInt16) :
    getChsFromPack w = (w.toNat / 64 % 4 * 256 + w.toNat / 256, w.toNat % 64) := by
  have hw := w.toNat_lt
  have hsec : w.toNat &&& 63 = w.toNat % 64 := Nat.and_two_pow_sub_one_eq_mod _ 6
  have hlow : (w.toNat &&& 0xFF00) >>> 8 = w.toNat / 256 := by
    have h : w.toNat &&& 0xFF00 = ((w.toNat >>> 8) &&& 255) <<< 8 := and_shifted_mask _ 255 8
    have h' : (w.toNat >>> 8) &&& 255 = (w.toNat >>> 8) % 256 :=
      Nat.and_two_pow_sub_one_eq_mod _ 8
    rw [h, h', Nat.shiftLeft_eq, Nat.shiftRight_eq_div_pow, Nat.shiftRight_eq_div_pow]
    omega
  have hhigh : (w.toNat &&& 0xC0) <<< 2 = (w.toNat / 64 % 4) <<< 8 := by
    have h : w.toNat &&& 0xC0 = ((w.toNat >>> 6) &&& 3) <<< 6 := and_shifted_mask _ 3 6
    have h' : (w.toNat >>> 6) &&& 3 = (w.toNat >>> 6) % 4 := Nat.and_two_pow_sub_one_eq_mod _ 2
    rw [h, h', Nat.shiftRight_eq_div_pow, Nat.shiftLeft_eq, Nat.shiftLeft_eq, Nat.shiftLeft_eq]
    omega
  rw [getChsFromPack, hsec, hlow, hhigh, Nat.or_comm, shiftLeft_or_of_lt (k := 8) (by omega),
    show (2 : ℕ) ^ 8 = 256 from rfl]

/-- **Packing loses nothing** on ten-bit cylinders and six-bit sectors. -/
theorem getChsFromPack_setChsToPack {c s : ℕ} (hc : c < 1024) (hs : s < 64) :
    getChsFromPack (setChsToPack c s) = (c, s) := by
  have hbyte : (c % 256 * 256 + (c / 256 * 64 + s)) / 256 = c % 256 := by omega
  have hbits : (c % 256 * 256 + (c / 256 * 64 + s)) / 64 = c % 256 * 4 + c / 256 := by omega
  have hsec : (c % 256 * 256 + (c / 256 * 64 + s)) % 64 = s := by omega
  rw [getChsFromPack_eq, setChsToPack_toNat hc hs, hbyte, hbits, hsec, Prod.mk.injEq]
  omega

/-! ### Range tests -/

/-- `varify_chs`: the test against what `INT 13h` can name at all, before the one against the
drive. -/
def varifyChs (a : Chs) : ℤ :=
  if a.cylinder > chsCylinderMax ∨ a.cylinder < 0 ∨ a.head > chsHeadMax ∨ a.head < 0 ∨
      a.sector > chsSectorMax ∨ a.sector ≤ 0 then -1
  else 0

theorem varifyChs_eq_zero_iff {a : Chs} :
    varifyChs a = 0 ↔ 0 ≤ a.cylinder ∧ a.cylinder ≤ 1023 ∧ 0 ≤ a.head ∧ a.head ≤ 254 ∧
      1 ≤ a.sector ∧ a.sector ≤ 63 := by
  have hcond : varifyChs a = 0 ↔ ¬(a.cylinder > 1023 ∨ a.cylinder < 0 ∨ a.head > 254 ∨
      a.head < 0 ∨ a.sector > 63 ∨ a.sector ≤ 0) := by
    rw [varifyChs, chsCylinderMax, chsHeadMax, chsSectorMax]
    split_ifs with h
    · simp [h]
    · simp [h]
  rw [hcond]
  omega

theorem varifyChs_nonneg_iff {a : Chs} : ¬varifyChs a < 0 ↔ varifyChs a = 0 := by
  rw [varifyChs]
  split_ifs <;> simp

/-- **A valid triple, packed into registers, is read back from them.** -/
theorem unpack_pack {a : Chs} (h : varifyChs a = 0) :
    (⟨(getChsFromPack (setChsToPack a.cylinder.toNat a.sector.toNat)).1,
      (UInt8.ofNat a.head.toNat).toNat,
      (getChsFromPack (setChsToPack a.cylinder.toNat a.sector.toNat)).2⟩ : Chs) = a := by
  obtain ⟨hc0, hc1, hh0, hh1, hs0, hs1⟩ := varifyChs_eq_zero_iff.1 h
  have hpack : getChsFromPack (setChsToPack a.cylinder.toNat a.sector.toNat) =
      (a.cylinder.toNat, a.sector.toNat) := getChsFromPack_setChsToPack (by omega) (by omega)
  have hhead : (UInt8.ofNat a.head.toNat).toNat = a.head.toNat := by
    rw [UInt8.toNat_ofNat']
    omega
  rw [hpack, hhead, Int.toNat_of_nonneg hc0, Int.toNat_of_nonneg hh0,
    Int.toNat_of_nonneg (by omega)]

/-- The test of the request layer against the geometry of the drive. -/
def outsideGeometry (param : DiskParam) (a : Chs) : Prop :=
  a.cylinder < 0 ∨ a.cylinder > param.lastCylinders.toNat ∨ a.head < 0 ∨
    a.head > param.lastHeads.toNat ∨ a.sector ≤ 0 ∨ a.sector > param.lastSectorsPerTrack.toNat

instance (param : DiskParam) (a : Chs) : Decidable (outsideGeometry param a) :=
  inferInstanceAs (Decidable (_ ∨ _ ∨ _ ∨ _ ∨ _ ∨ _))

/-! ### Linear numbers -/

/-- The last sector `INT 13h AH=02h` can address. A larger number is refused before the geometry is
looked at. -/
def maxLba : ℕ := (1023 * (254 + 1) + 254) * 63 + 63 - 1

/-- `lba2chs`; `none` is the returned `-1`. -/
def lba2chs (param : DiskParam) (lba : UInt64) : Option Chs :=
  if lba.toNat ≤ maxLba then
    some
      { head := (lba.toNat / param.lastSectorsPerTrack.toNat % (param.lastHeads.toNat + 1) : ℕ)
        cylinder :=
          (lba.toNat / (param.lastSectorsPerTrack.toNat * (param.lastHeads.toNat + 1)) : ℕ)
        sector := (lba.toNat % param.lastSectorsPerTrack.toNat + 1 : ℕ) }
  else none

/-- `chs2lba`; `none` is the returned `-1`. -/
def chs2lba (param : DiskParam) (a : Chs) : Option UInt64 :=
  if varifyChs a < 0 then none
  else some (UInt64.ofInt
    ((a.cylinder * (param.lastHeads.toNat + 1) + a.head) * param.lastSectorsPerTrack.toNat
      + a.sector - 1))

/-- The number of sectors of the geometry. The drive reports the last cylinder and the last head,
which count from 0, and the last sector, which counts from 1. -/
def geometrySectors (param : DiskParam) : ℕ :=
  (param.lastHeads.toNat + 1) * (param.lastCylinders.toNat + 1) * param.lastSectorsPerTrack.toNat

/-- A geometry as the BIOS call decodes it, with at most 255 heads. -/
structure DiskParam.Decoded (param : DiskParam) : Prop where
  cylinders : param.lastCylinders.toNat ≤ 1023
  sectors : param.lastSectorsPerTrack.toNat ≤ 63
  heads : param.lastHeads.toNat ≤ 254

theorem DiskParam.Decoded.geometrySectors_le {param : DiskParam} (h : param.Decoded) :
    geometrySectors param ≤ maxLba + 1 := by
  have hhc : (param.lastHeads.toNat + 1) * (param.lastCylinders.toNat + 1) ≤ 255 * 1024 :=
    Nat.mul_le_mul (by have := h.heads; omega) (by have := h.cylinders; omega)
  calc geometrySectors param
      ≤ 255 * 1024 * 63 := Nat.mul_le_mul hhc h.sectors
    _ = maxLba + 1 := by decide

/-- Such a geometry is sized without a wrap, in `int` arithmetic. -/
theorem DiskParam.Decoded.geometrySectors_lt {param : DiskParam} (h : param.Decoded) :
    geometrySectors param < 2 ^ 31 :=
  h.geometrySectors_le.trans_lt (by decide)

theorem uint64_ofInt_natCast (n : ℕ) : UInt64.ofInt n = UInt64.ofNat n := by
  have hmod : ((n : ℤ) % 2 ^ 64).toNat = n % 2 ^ 64 := by omega
  rw [UInt64.ofInt, hmod]
  exact UInt64.toNat_inj.1 (by simp)

/-- The linear number of a triple of naturals, the sector being counted from zero. -/
theorem chs2lba_natCast {param : DiskParam} {c h s : ℕ}
    (hv : varifyChs ⟨c, h, (s + 1 : ℕ)⟩ = 0) :
    chs2lba param ⟨c, h, (s + 1 : ℕ)⟩ = some (UInt64.ofNat
      (Radix.encode (param.lastHeads.toNat + 1) param.lastSectorsPerTrack.toNat c h s)) := by
  rw [chs2lba, if_neg (varifyChs_nonneg_iff.2 hv), Radix.encode]
  have hlin : ((c : ℤ) * (param.lastHeads.toNat + 1) + h) * param.lastSectorsPerTrack.toNat
      + (s + 1 : ℕ) - 1
      = (((c * (param.lastHeads.toNat + 1) + h) * param.lastSectorsPerTrack.toNat + s : ℕ) : ℤ)
      := by
    push_cast
    ring
  rw [hlin, uint64_ofInt_natCast]

/-- The linear number of a triple the BIOS can address does not wrap. -/
theorem chs2lba_toNat {param : DiskParam} {c h s : ℕ}
    (hv : varifyChs ⟨c, h, (s + 1 : ℕ)⟩ = 0) :
    ∃ lba, chs2lba param ⟨c, h, (s + 1 : ℕ)⟩ = some lba ∧ lba.toNat =
      Radix.encode (param.lastHeads.toNat + 1) param.lastSectorsPerTrack.toNat c h s := by
  refine ⟨_, chs2lba_natCast hv, ?_⟩
  obtain ⟨-, hc, -, hh, -, hs⟩ := varifyChs_eq_zero_iff.1 hv
  simp only [Nat.cast_le_ofNat] at hc hh hs
  have hH := param.lastHeads.toNat_lt
  have hS := param.lastSectorsPerTrack.toNat_lt
  have hcyl : c * (param.lastHeads.toNat + 1) ≤ 1023 * 256 :=
    Nat.mul_le_mul hc (by omega)
  have htrack : (c * (param.lastHeads.toNat + 1) + h) * param.lastSectorsPerTrack.toNat ≤
      (1023 * 256 + 254) * 255 := Nat.mul_le_mul (by omega) (by omega)
  rw [UInt64.toNat_ofNat', Radix.encode]
  exact Nat.mod_eq_of_lt (by omega)

/-! ### Triples as digits -/

section digits

variable {param : DiskParam} {a : Chs} {c h s : ℕ}

/-- The triples of a geometry, for which alone the conversions are inverse to one another. -/
structure Chs.InGeometry (param : DiskParam) (a : Chs) : Prop where
  cylinder : 0 ≤ a.cylinder ∧ a.cylinder ≤ param.lastCylinders.toNat
  head : 0 ≤ a.head ∧ a.head ≤ param.lastHeads.toNat
  sector : 1 ≤ a.sector ∧ a.sector ≤ param.lastSectorsPerTrack.toNat

/-- These are the triples the request layer does not reject. -/
theorem inGeometry_iff : a.InGeometry param ↔ ¬outsideGeometry param a := by
  rw [outsideGeometry]
  constructor
  · rintro ⟨hc, hh, hs⟩
    omega
  · intro h
    exact ⟨by omega, by omega, by omega⟩

/-- **A triple of the geometry, as three digits.** -/
structure Digits (param : DiskParam) (a : Chs) (c h s : ℕ) : Prop where
  eq : a = ⟨c, h, (s + 1 : ℕ)⟩
  cylinder : c < param.lastCylinders.toNat + 1
  head : h < param.lastHeads.toNat + 1
  sector : s < param.lastSectorsPerTrack.toNat

theorem Chs.InGeometry.digits (ha : a.InGeometry param) : ∃ c h s, Digits param a c h s := by
  obtain ⟨hc, hh, hs⟩ := ha
  have hcyl : (a.cylinder.toNat : ℤ) = a.cylinder := Int.toNat_of_nonneg hc.1
  have hhead : (a.head.toNat : ℤ) = a.head := Int.toNat_of_nonneg hh.1
  have hsec : (((a.sector - 1).toNat + 1 : ℕ) : ℤ) = a.sector := by omega
  refine ⟨a.cylinder.toNat, a.head.toNat, (a.sector - 1).toNat, ?_, by omega, by omega, by omega⟩
  rw [hcyl, hhead, hsec]

theorem Digits.inGeometry (ha : Digits param a c h s) : a.InGeometry param := by
  obtain ⟨rfl, hc, hh, hs⟩ := ha
  constructor <;> dsimp only <;> omega

/-- `varify_chs` accepts every triple of the geometry. -/
theorem Digits.valid (hp : param.Decoded) (ha : Digits param a c h s) : varifyChs a = 0 := by
  obtain ⟨rfl, hc, hh, hs⟩ := ha
  obtain ⟨hC, hS, hH⟩ := hp
  rw [varifyChs_eq_zero_iff]
  refine ⟨?_, ?_, ?_, ?_, ?_, ?_⟩ <;> simp only <;> omega

end digits

/-! ### There and back -/

/-- What `lba2chs` answers for a sector of the geometry: a triple inside it that linearises back. -/
structure Addresses (param : DiskParam) (a : Chs) (lba : ℕ) : Prop where
  valid : varifyChs a = 0
  inside : ¬outsideGeometry param a
  linear : chs2lba param a = some (UInt64.ofNat lba)

/-- **Every sector of the geometry has an address.** -/
theorem lba2chs_of_lt {param : DiskParam} (hp : param.Decoded) {lba : UInt64}
    (h : lba.toNat < geometrySectors param) :
    ∃ a, lba2chs param lba = some a ∧ Addresses param a lba.toNat := by
  have hle := hp.geometrySectors_le
  set S := param.lastSectorsPerTrack.toNat with hS
  set H := param.lastHeads.toNat + 1 with hH
  have hSpos : 0 < S := by
    rcases Nat.eq_zero_or_pos S with h0 | h0
    · simp [geometrySectors, ← hS, h0] at h
    · exact h0
  have hcyl : lba.toNat / (S * H) < param.lastCylinders.toNat + 1 :=
    (Radix.leading_lt_iff (by omega) hSpos).2 h
  have hhead : lba.toNat / S % H < H := Nat.mod_lt _ (by omega)
  have hsec : lba.toNat % S < S := Nat.mod_lt _ hSpos
  have henc := Radix.encode_digits H S lba.toNat
  -- the three digits are only known through their bounds from here on
  have hres : lba2chs param lba = some ⟨(lba.toNat / (S * H) : ℕ), (lba.toNat / S % H : ℕ),
      (lba.toNat % S + 1 : ℕ)⟩ := by
    rw [lba2chs, if_pos (by omega)]
  generalize lba.toNat / (S * H) = c at hcyl henc hres
  generalize lba.toNat / S % H = d at hhead henc hres
  generalize lba.toNat % S = e at hsec henc hres
  have hdig : Digits param ⟨c, d, (e + 1 : ℕ)⟩ c d e := ⟨rfl, hcyl, hhead, hsec⟩
  have hvalid := hdig.valid hp
  refine ⟨_, hres, hvalid, inGeometry_iff.1 hdig.inGeometry, ?_⟩
  rw [chs2lba_natCast hvalid, ← hS, ← hH, henc]

end Dwipe

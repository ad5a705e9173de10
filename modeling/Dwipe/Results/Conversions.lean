import Dwipe.Disk.Geometry
import Dwipe.Machine.Scripts

/-!
# Triples and linear numbers

`chs2lba` and `lba2chs` are **mutually inverse** between the triples of a geometry and the numbers
below its product, for every geometry with at most 255 heads, 1024 cylinders and 63 sectors. Both
functions have limits of their own, `varify_chs` and `max_lba`, and neither of them rejects anything
here: at the largest geometry the last triple is the last one `varify_chs` accepts, and its number
is `max_lba`.

The arithmetic is that of `Radix`. A triple is taken to three naturals, the sector counted from
zero, and the digits of its number are the naturals again. As for all such numbers, **the order is
lexicographic**.
-/

namespace Dwipe

variable {param : DiskParam}

/-- Triples compared by the cylinder, then by the head, then by the sector. -/
def Chs.key (a : Chs) : Lex (ℤ × Lex (ℤ × ℤ)) := toLex (a.cylinder, toLex (a.head, a.sector))

section digits

variable {a b : Chs} {c h s c' h' s' : ℕ}

/-- **The linear number of a triple has its digits.** -/
theorem Digits.chs2lba (hp : param.Decoded) (ha : Digits param a c h s) :
    ∃ lba, Dwipe.chs2lba param a = some lba ∧ lba.toNat =
      Radix.encode (param.lastHeads.toNat + 1) param.lastSectorsPerTrack.toNat c h s := by
  have hv := ha.valid hp
  rw [ha.eq] at hv ⊢
  exact chs2lba_toNat hv

/-- **A number with the digits of a triple is converted to it.** The number is at most `max_lba`. -/
theorem Digits.lba2chs (hp : param.Decoded) (ha : Digits param a c h s) {lba : UInt64}
    (hlba : lba.toNat =
      Radix.encode (param.lastHeads.toNat + 1) param.lastSectorsPerTrack.toNat c h s) :
    Dwipe.lba2chs param lba = some a := by
  have hle := hp.geometrySectors_le
  have hlt := Radix.encode_lt ha.cylinder ha.head ha.sector
  rw [geometrySectors] at hle
  rw [Dwipe.lba2chs, if_pos (by omega), hlba, Radix.encode_div_mod ha.head ha.sector,
    Radix.encode_leading ha.head ha.sector, Radix.encode_mod ha.sector, ha.eq]

/-- Triples are ordered as their digits are; that sectors count from 1 does not matter to it. -/
theorem Digits.key_lt_iff (ha : Digits param a c h s) (hb : Digits param b c' h' s') :
    a.key < b.key ↔ toLex (c, toLex (h, s)) < toLex (c', toLex (h', s')) := by
  rw [Chs.key, Chs.key, Prod.Lex.toLex_lt_toLex, Prod.Lex.toLex_lt_toLex,
    Prod.Lex.toLex_lt_toLex, Prod.Lex.toLex_lt_toLex, ha.eq, hb.eq]
  simp only
  omega

end digits

/-- **Triples and linear numbers.** For every geometry of at most 255 heads, 1024 cylinders and 63
sectors, `chs2lba` and `lba2chs` succeed on the triples of the geometry and on the numbers below
its product and are inverse to each other, and `chs2lba` is strictly increasing. -/
theorem chs_lba_bijection (param : DiskParam) (hp : param.Decoded) :
    (∀ a : Chs, a.InGeometry param → ∃ lba, chs2lba param a = some lba ∧
      lba.toNat < (param.lastCylinders.toNat + 1) * (param.lastHeads.toNat + 1) *
        param.lastSectorsPerTrack.toNat ∧ lba2chs param lba = some a) ∧
    (∀ lba : UInt64, lba.toNat < (param.lastCylinders.toNat + 1) * (param.lastHeads.toNat + 1) *
        param.lastSectorsPerTrack.toNat →
      ∃ a, lba2chs param lba = some a ∧ a.InGeometry param ∧ chs2lba param a = some lba) ∧
    ∀ a b : Chs, a.InGeometry param → b.InGeometry param → a.key < b.key →
      ∃ l₁ l₂, chs2lba param a = some l₁ ∧ chs2lba param b = some l₂ ∧ l₁ < l₂ := by
  rw [Nat.mul_comm (param.lastCylinders.toNat + 1)]
  refine ⟨fun a ha ↦ ?_, fun lba hlba ↦ ?_, fun a b ha hb hlt ↦ ?_⟩
  · obtain ⟨c, h, s, hdig⟩ := ha.digits
    obtain ⟨lba, hlba, henc⟩ := hdig.chs2lba hp
    refine ⟨lba, hlba, ?_, hdig.lba2chs hp henc⟩
    rw [henc]
    exact Radix.encode_lt hdig.cylinder hdig.head hdig.sector
  · obtain ⟨a, ha, -, hinside, hlinear⟩ := lba2chs_of_lt hp hlba
    refine ⟨a, ha, inGeometry_iff.2 hinside, ?_⟩
    rw [hlinear, UInt64.ofNat_toNat]
  · obtain ⟨c, h, s, hdig⟩ := ha.digits
    obtain ⟨c', h', s', hdig'⟩ := hb.digits
    obtain ⟨l₁, hl₁, henc⟩ := hdig.chs2lba hp
    obtain ⟨l₂, hl₂, henc'⟩ := hdig'.chs2lba hp
    refine ⟨l₁, l₂, hl₁, hl₂, ?_⟩
    rw [UInt64.lt_iff_toNat_lt, henc, henc',
      Radix.encode_lt_encode_iff hdig.head hdig.sector hdig'.head hdig'.sector]
    exact (hdig.key_lt_iff hdig').1 hlt

/-- The largest geometry of them. -/
def largestGeometry : DiskParam := DiskParam.ofGeometry 254 1023 63

/-- **The extreme corner**: the last triple of the largest geometry and `max_lba`. -/
theorem chs_lba_bijection_largest :
    lba2chs largestGeometry (UInt64.ofNat maxLba) = some ⟨1023, 254, 63⟩ ∧
      chs2lba largestGeometry ⟨1023, 254, 63⟩ = some (UInt64.ofNat maxLba) := by
  have hp : largestGeometry.Decoded := ⟨by decide, by decide, by decide⟩
  have hcorner : Chs.InGeometry largestGeometry ⟨1023, 254, 63⟩ :=
    ⟨by decide, by decide, by decide⟩
  obtain ⟨lba, hlba, -, hback⟩ := (chs_lba_bijection largestGeometry hp).1 _ hcorner
  have hmax : chs2lba largestGeometry ⟨1023, 254, 63⟩ = some (UInt64.ofNat maxLba) := by decide
  obtain rfl : lba = UInt64.ofNat maxLba := Option.some.inj (hlba.symm.trans hmax)
  exact ⟨hback, hmax⟩

end Dwipe

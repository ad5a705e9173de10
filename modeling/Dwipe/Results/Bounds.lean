import Dwipe.Disk.Sizes
import Dwipe.Machine.Scripts

/-!
# Requests and the end of the disk

Where a request may reach. Both transfer functions bound the **start** of a request by the size the
BIOS has reported, and its length by the transfer buffer; neither bounds the end. The extended
transfer has such a bound, commented out, and compares the offset with an unsigned `nsectors - 1`
that is the largest number of all when the BIOS reports no sectors.

A request therefore stays inside a disk, whatever its arguments are, only if the longest request
that is accepted at the last start does. That is a property of the disk (`requests_inside_iff`), and
disks with sectors of 512 bytes do not have it.
-/

namespace Dwipe

variable {param : DiskParam}

/-- **Every extended request stays inside the disk**, by the count the BIOS has reported. -/
def LbaInside (param : DiskParam) : Prop :=
  ∀ (σ : Type) (env : Env σ) isWrite offset n buffer size check m,
    exchanges (sectorsLbaRw env isWrite param offset n buffer size check m).events ≠ [] →
      offset.toNat + n.toNat ≤ param.ext.nsectors.toNat

/-- **Every CHS request stays inside the disk**, by its geometry. -/
def ChsInside (param : DiskParam) : Prop :=
  ∀ (σ : Type) (env : Env σ) isWrite a n buffer size check m,
    exchanges (sectorChsRw env isWrite param a n buffer size check m).events ≠ [] →
      ∃ lba, chs2lba param a = some lba ∧ lba.toNat + n.toNat ≤ geometrySectors param

/-! ### Extended requests -/

theorem pred_toNat {n : UInt64} (h : n ≠ 0) : (n - 1).toNat = n.toNat - 1 := by
  have hpos : n.toNat ≠ 0 := fun h0 ↦ h (UInt64.toNat_inj.1 h0)
  have hle : (1 : UInt64) ≤ n := UInt64.le_iff_toNat_le.2 (by simp; omega)
  rw [UInt64.toNat_sub_of_le _ _ hle]
  rfl

/-- A read into a transfer buffer of full size is refused for its start or its count only. -/
theorem not_lbaRefused {offset : UInt64} {n : UInt32} (hext : param.hasExt ≠ 0)
    (hstart : offset ≤ param.ext.nsectors - 1) (hn : n.toNat ≤ 63)
    (hbytes : n.toNat * param.ext.bytesPerSector.toNat ≤ 32256) :
    ¬lbaRefused false param offset n maxSectorBufferSize := by
  have hprod : ¬n * param.ext.bytesPerSector.toUInt32 > maxSectorBufferSize := by
    rw [gt_iff_lt, UInt32.not_lt, UInt32.le_iff_toNat_le, lbaProduct_toNat hn]
    exact hbytes
  rintro (h | h | h | h | h | h)
  · exact hext h
  · exact absurd hstart (UInt64.not_le.2 h)
  · exact count_le_iff.2 hn h
  · exact hprod h
  · exact hprod h
  · exact Bool.false_ne_true h.1

theorem LbaInside.le_of_not_refused (h : LbaInside param) {offset : UInt64} {n : UInt32}
    (hacc : ¬lbaRefused false param offset n maxSectorBufferSize) :
    offset.toNat + n.toNat ≤ param.ext.nsectors.toNat :=
  h Unit failing false offset n ⟨0, fun _ ↦ 0⟩ maxSectorBufferSize false (Machine.fresh () 1)
    ((sectorsLbaRw_asks_iff _).2 hacc)

theorem lbaInside_iff (param : DiskParam) :
    LbaInside param ↔
      param.hasExt = 0 ∨ (param.ext.nsectors ≠ 0 ∧ 16128 < param.ext.bytesPerSector.toNat) := by
  constructor
  · intro h
    by_contra hcond
    simp only [not_or, not_and, not_lt] at hcond
    obtain ⟨hext, hbytes⟩ := hcond
    by_cases hns : param.ext.nsectors = 0
    · -- no sectors: an empty request behind the start
      have hle : (1 : UInt64).toNat + (0 : UInt32).toNat ≤ param.ext.nsectors.toNat :=
        h.le_of_not_refused
          (not_lbaRefused hext (by rw [hns]; decide) (by decide) (by simp))
      rw [hns] at hle
      exact absurd hle (by decide)
    · -- two sectors at the last one
      have htwo : (2 : UInt32).toNat = 2 := rfl
      have hlen : (2 : UInt32).toNat * param.ext.bytesPerSector.toNat ≤ 32256 := by
        have hsmall := hbytes hns
        rw [htwo]
        omega
      have hle : (param.ext.nsectors - 1).toNat + (2 : UInt32).toNat ≤ param.ext.nsectors.toNat :=
        h.le_of_not_refused (not_lbaRefused hext UInt64.le_rfl (by decide) hlen)
      rw [pred_toNat hns] at hle
      omega
  · rintro hcond σ env isWrite offset n buffer size check m hask
    have hacc := (sectorsLbaRw_asks_iff m).1 hask
    obtain ⟨-, -, hbytes, -⟩ := lba_bounds hacc
    simp only [lbaRefused, not_or] at hacc
    obtain ⟨hext, hstart, -⟩ := hacc
    rcases hcond with h0 | ⟨hns, hbps⟩
    · exact absurd h0 hext
    · have hle := UInt64.le_iff_toNat_le.1 (UInt64.not_lt.1 hstart)
      rw [pred_toNat hns] at hle
      have hpos : param.ext.nsectors.toNat ≠ 0 := fun h0 ↦ hns (UInt64.toNat_inj.1 h0)
      have hone : n.toNat ≤ 1 := by
        by_contra hn
        have hmul := Nat.mul_le_mul_right param.ext.bytesPerSector.toNat
          (show 2 ≤ n.toNat by omega)
        omega
      omega

/-! ### CHS requests -/

/-- The last sector a CHS request may start at. -/
def lastStart (param : DiskParam) : ℕ :=
  (min param.lastCylinders.toNat 1023 * (param.lastHeads.toNat + 1) +
      min param.lastHeads.toNat 254) * param.lastSectorsPerTrack.toNat +
    min param.lastSectorsPerTrack.toNat 63 - 1

/-- The largest count of a CHS request: 63 sectors, and no more bytes than the transfer buffer
holds. -/
def maxCount (param : DiskParam) : ℕ :=
  if (sectorSize param).toNat = 0 then 63 else min 63 (32256 / (sectorSize param).toNat)

theorem le_maxCount_iff {n : ℕ} :
    n ≤ maxCount param ↔ n ≤ 63 ∧ n * (sectorSize param).toNat ≤ 32256 := by
  rw [maxCount]
  split_ifs with h0
  · simp [h0]
  · rw [Nat.le_min, Nat.le_div_iff_mul_le (by omega)]

/-- A read into a transfer buffer of full size is refused for its address or its count only. -/
theorem not_chsRefused {a : Chs} {n : UInt32} (hv : varifyChs a = 0)
    (hin : ¬outsideGeometry param a) (hn : n.toNat ≤ maxCount param) :
    ¬chsRefused false param a n maxSectorBufferSize := by
  obtain ⟨hn, hbytes⟩ := le_maxCount_iff.1 hn
  have hprod : ¬n * sectorSize param > maxSectorBufferSize := by
    rw [gt_iff_lt, UInt32.not_lt, UInt32.le_iff_toNat_le, chsProduct_toNat hn]
    exact hbytes
  rintro (h | h | h | h | h | h)
  · exact varifyChs_nonneg_iff.2 hv h
  · exact count_le_iff.2 hn h
  · exact hprod h
  · exact hprod h
  · exact Bool.false_ne_true h.1
  · exact hin h

/-- An accepted address is a triple of naturals inside the geometry. -/
theorem exists_of_not_chsRefused {isWrite : Bool} {a : Chs} {n size : UInt32}
    (h : ¬chsRefused isWrite param a n size) :
    ∃ c h s : ℕ, a = ⟨c, h, (s + 1 : ℕ)⟩ ∧ varifyChs ⟨c, h, (s + 1 : ℕ)⟩ = 0 ∧
      c ≤ min param.lastCylinders.toNat 1023 ∧ h ≤ min param.lastHeads.toNat 254 ∧
      s + 1 ≤ min param.lastSectorsPerTrack.toNat 63 := by
  simp only [chsRefused, not_or] at h
  obtain ⟨hv, -, -, -, -, hin⟩ := h
  obtain ⟨c, h, s, rfl, hc, hh, hs⟩ := (inGeometry_iff.2 hin).digits
  have hv' := varifyChs_nonneg_iff.1 hv
  obtain ⟨-, hc1, -, hh1, -, hs1⟩ := varifyChs_eq_zero_iff.1 hv'
  dsimp only at hc1 hh1 hs1
  refine ⟨c, h, s, rfl, hv', ?_, ?_, ?_⟩ <;> omega

theorem encode_le_lastStart {c h s : ℕ} (hc : c ≤ min param.lastCylinders.toNat 1023)
    (hh : h ≤ min param.lastHeads.toNat 254) (hs : s + 1 ≤ min param.lastSectorsPerTrack.toNat 63) :
    Radix.encode (param.lastHeads.toNat + 1) param.lastSectorsPerTrack.toNat c h s ≤
      lastStart param := by
  have hcyl := Nat.mul_le_mul_right (param.lastHeads.toNat + 1) hc
  have htrack := Nat.mul_le_mul_right param.lastSectorsPerTrack.toNat (Nat.add_le_add hcyl hh)
  rw [Radix.encode, lastStart]
  omega

theorem chsInside_iff (param : DiskParam) :
    ChsInside param ↔
      param.lastSectorsPerTrack = 0 ∨ lastStart param + maxCount param ≤ geometrySectors param := by
  constructor
  · intro h
    rw [or_iff_not_imp_left]
    intro hS
    have hpos : param.lastSectorsPerTrack.toNat ≠ 0 := fun h0 ↦ hS (UInt8.toNat_inj.1 h0)
    -- the longest request at the last start
    obtain ⟨c, hc⟩ : ∃ c, c = min param.lastCylinders.toNat 1023 := ⟨_, rfl⟩
    obtain ⟨d, hd⟩ : ∃ d, d = min param.lastHeads.toNat 254 := ⟨_, rfl⟩
    obtain ⟨s, hs⟩ : ∃ s, s + 1 = min param.lastSectorsPerTrack.toNat 63 :=
      ⟨min param.lastSectorsPerTrack.toNat 63 - 1, by omega⟩
    obtain ⟨hcount, -⟩ := le_maxCount_iff.1 (Nat.le_refl (maxCount param))
    have hn : (UInt32.ofNat (maxCount param)).toNat = maxCount param := by
      rw [UInt32.toNat_ofNat']
      omega
    have hv : varifyChs ⟨c, d, (s + 1 : ℕ)⟩ = 0 := by
      rw [varifyChs_eq_zero_iff]
      refine ⟨?_, ?_, ?_, ?_, ?_, ?_⟩ <;> simp only <;> omega
    have hin : ¬outsideGeometry param ⟨c, d, (s + 1 : ℕ)⟩ := by
      rintro (h' | h' | h' | h' | h' | h') <;> simp only at h' <;> omega
    obtain ⟨lba, hlba, hle⟩ := h Unit failing false _ _ ⟨0, fun _ ↦ 0⟩ _ false
      (Machine.fresh () 1) ((sectorChsRw_asks_iff _).2 (not_chsRefused hv hin hn.le))
    obtain ⟨lba', hlba', hnat⟩ : ∃ lba, chs2lba param _ = some lba ∧ _ := chs2lba_toNat hv
    obtain rfl : lba = lba' := Option.some.inj (hlba.symm.trans hlba')
    rw [hnat, hn, Radix.encode] at hle
    rw [lastStart, ← hc, ← hd, ← hs]
    omega
  · rintro hcond σ env isWrite a n buffer size check m hask
    have hacc := (sectorChsRw_asks_iff m).1 hask
    obtain ⟨hn, -, hbytes, -⟩ := chs_bounds hacc
    obtain ⟨c, h, s, rfl, hv, hc, hh, hs⟩ := exists_of_not_chsRefused hacc
    obtain ⟨lba, hlba, hnat⟩ : ∃ lba, chs2lba param _ = some lba ∧ _ := chs2lba_toNat hv
    refine ⟨lba, hlba, ?_⟩
    have hstart := encode_le_lastStart hc hh hs
    have hcount := le_maxCount_iff.2 ⟨hn, hbytes⟩
    rcases hcond with h0 | hle
    · rw [h0] at hs
      exact absurd hs (by simp)
    · omega

/-! ### Both -/

/-- **When every request stays inside the disk.** Whatever the arguments and the BIOS are, extended
requests do if there are none, or the BIOS has reported some sectors and sectors so large that a
request moves one of them; CHS requests do if the geometry is empty, or the longest request at the
last start ends inside it. -/
theorem requests_inside_iff (param : DiskParam) :
    (LbaInside param ↔
      param.hasExt = 0 ∨ (param.ext.nsectors ≠ 0 ∧ 16128 < param.ext.bytesPerSector.toNat)) ∧
    (ChsInside param ↔
      param.lastSectorsPerTrack = 0 ∨
        lastStart param + maxCount param ≤ geometrySectors param) :=
  ⟨lbaInside_iff param, chsInside_iff param⟩

/-- Two sectors are read at the only sector of a disk. -/
theorem request_outside :
    ¬(exchanges (sectorsLbaRw failing false (DiskParam.ofSectors 1) 0 2 ⟨1024, fun _ ↦ 0⟩ 1024
        false (Machine.fresh () 1)).events ≠ [] →
      (0 : UInt64).toNat + (2 : UInt32).toNat ≤
        (DiskParam.ofSectors 1).ext.nsectors.toNat) := by
  have hacc : ¬lbaRefused false (DiskParam.ofSectors 1) 0 2 1024 := by decide
  intro h
  exact absurd (h ((sectorsLbaRw_asks_iff _).2 hacc)) (by decide)

end Dwipe

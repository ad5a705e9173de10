import Dwipe.Disk.Transfers

/-!
# Sizes in bytes

The products of the request layer, a count of sectors times the size of a sector, as natural
numbers. They are computed in 32 bits from an 8-bit or 16-bit count and a 16-bit size, so **none of
them wraps**; only the count a caller passes is as wide as the product, and it is compared with
`BIOS_MAX_SECTOR_CNT` before it is multiplied. So the checks hold of the numbers they are meant to
bound, and a transfer that passes them asks the BIOS for no more than `real_buffer` takes
(`wellMade_chsAsk`, `wellMade_lbaAsk`).

The clamps of the two addressings are `min`s of the count the BIOS hands back and the count asked
for (`chsMoved_toNat`, `lbaMoved_toNat`), except for the size an extended transfer reports, where
the comparison looks at another register than the product (`lbaReported_toNat`).
-/

namespace Dwipe

/-! ### Products -/

theorem toNat_mul_of_lt {c b : UInt32} (hc : c.toNat < 65536) (hb : b.toNat < 65536) :
    (c * b).toNat = c.toNat * b.toNat := by
  rw [UInt32.toNat_mul]
  refine Nat.mod_eq_of_lt ?_
  calc c.toNat * b.toNat
      ≤ 65535 * 65535 := Nat.mul_le_mul (by omega) (by omega)
    _ < 2 ^ 32 := by decide

theorem bytesPerSector_toNat (e : DiskParamExt) :
    e.bytesPerSector.toUInt32.toNat = e.bytesPerSector.toNat := UInt16.toNat_toUInt32 _

theorem bytesPerSector_toNat_lt (e : DiskParamExt) :
    e.bytesPerSector.toUInt32.toNat < 65536 := by
  rw [bytesPerSector_toNat]
  exact e.bytesPerSector.toNat_lt

theorem sectorSize_toNat_lt (param : DiskParam) : (sectorSize param).toNat < 65536 := by
  rw [sectorSize]
  split_ifs
  · exact bytesPerSector_toNat_lt param.ext
  · decide

section products

variable {param : DiskParam} {n : UInt32} {r : RealArea}

theorem count_le_iff : ¬n > biosMaxSectorCnt ↔ n.toNat ≤ 63 := by
  rw [gt_iff_lt, UInt32.not_lt, UInt32.le_iff_toNat_le]
  rfl

/-- The bytes asked for, in the CHS addressing. -/
theorem chsProduct_toNat (hn : n.toNat ≤ 63) :
    (n * sectorSize param).toNat = n.toNat * (sectorSize param).toNat :=
  toNat_mul_of_lt (by omega) (sectorSize_toNat_lt param)

/-- The bytes asked for, in the extended addressing. -/
theorem lbaProduct_toNat (hn : n.toNat ≤ 63) :
    (n * param.ext.bytesPerSector.toUInt32).toNat =
      n.toNat * param.ext.bytesPerSector.toNat := by
  rw [toNat_mul_of_lt (by omega) (bytesPerSector_toNat_lt param.ext), bytesPerSector_toNat]

/-- The clamp of a count the BIOS hands back. -/
theorem clamp_toNat (c n : UInt32) : (if c > n then n else c).toNat = min c.toNat n.toNat := by
  split_ifs with h
  · have h' := UInt32.lt_iff_toNat_lt.1 h
    omega
  · have h' := UInt32.le_iff_toNat_le.1 (UInt32.not_lt.1 h)
    omega

theorem chsMoved_toNat :
    (chsMoved param n r).toNat = min r.reg.al.toNat n.toNat * (sectorSize param).toNat := by
  have hal := r.reg.al.toNat_lt
  have hcount := clamp_toNat r.reg.al.toUInt32 n
  rw [UInt8.toNat_toUInt32] at hcount
  rw [chsMoved, toNat_mul_of_lt (by omega) (sectorSize_toNat_lt param), hcount]

theorem lbaMoved_toNat :
    (lbaMoved param n r).toNat =
      min r.dap.nsectors.toNat n.toNat * param.ext.bytesPerSector.toNat := by
  have hdap := r.dap.nsectors.toNat_lt
  have hcount := clamp_toNat r.dap.nsectors.toUInt32 n
  rw [UInt16.toNat_toUInt32] at hcount
  rw [lbaMoved, toNat_mul_of_lt (by omega) (bytesPerSector_toNat_lt param.ext), hcount,
    bytesPerSector_toNat]

/-- The clamp of the reported size compares `AL` with the count, and takes the count from the
packet. -/
theorem lbaReported_toNat :
    (lbaReported param n r).toNat =
      (if n.toNat < r.reg.al.toNat then n.toNat else r.dap.nsectors.toNat) *
        param.ext.bytesPerSector.toNat := by
  have hal := r.reg.al.toNat_lt
  have hdap := r.dap.nsectors.toNat_lt
  have hcond : r.reg.al.toUInt32 > n ↔ n.toNat < r.reg.al.toNat := by
    rw [gt_iff_lt, UInt32.lt_iff_toNat_lt, UInt8.toNat_toUInt32]
  have hcount : (if r.reg.al.toUInt32 > n then n else r.dap.nsectors.toUInt32).toNat =
      if n.toNat < r.reg.al.toNat then n.toNat else r.dap.nsectors.toNat := by
    simp only [hcond]
    split_ifs
    · rfl
    · exact UInt16.toNat_toUInt32 _
  have hlt : (if r.reg.al.toUInt32 > n then n else r.dap.nsectors.toUInt32).toNat < 65536 := by
    rw [hcount]
    split_ifs <;> omega
  rw [lbaReported, toNat_mul_of_lt hlt (bytesPerSector_toNat_lt param.ext), hcount,
    bytesPerSector_toNat]

/-- The sizes an accepted CHS request has to do with. -/
theorem chs_bounds {isWrite : Bool} {a : Chs} {size : UInt32}
    (h : ¬chsRefused isWrite param a n size) :
    n.toNat ≤ 63 ∧ n.toNat * (sectorSize param).toNat ≤ size.toNat ∧
      n.toNat * (sectorSize param).toNat ≤ 32256 ∧ (isWrite = true → size.toNat ≤ 32256) := by
  simp only [chsRefused, not_or] at h
  obtain ⟨-, hn, hs, hmax, hw, -⟩ := h
  have hn' := count_le_iff.1 hn
  have hs' := UInt32.le_iff_toNat_le.1 (UInt32.not_lt.1 hs)
  have hmax' := UInt32.le_iff_toNat_le.1 (UInt32.not_lt.1 hmax)
  rw [chsProduct_toNat hn'] at hs' hmax'
  refine ⟨hn', hs', hmax', fun hwrite ↦ ?_⟩
  exact UInt32.le_iff_toNat_le.1 (UInt32.not_lt.1 fun hgt ↦ hw ⟨hwrite, hgt⟩)

/-- The sizes an accepted extended request has to do with. -/
theorem lba_bounds {isWrite : Bool} {offset : UInt64} {size : UInt32}
    (h : ¬lbaRefused isWrite param offset n size) :
    n.toNat ≤ 63 ∧ n.toNat * param.ext.bytesPerSector.toNat ≤ size.toNat ∧
      n.toNat * param.ext.bytesPerSector.toNat ≤ 32256 ∧
      (isWrite = true → size.toNat ≤ 32256) := by
  simp only [lbaRefused, not_or] at h
  obtain ⟨-, -, hn, hmax, hs, hw⟩ := h
  have hn' := count_le_iff.1 hn
  have hs' := UInt32.le_iff_toNat_le.1 (UInt32.not_lt.1 hs)
  have hmax' := UInt32.le_iff_toNat_le.1 (UInt32.not_lt.1 hmax)
  rw [lbaProduct_toNat hn'] at hs' hmax'
  refine ⟨hn', hs', hmax', fun hwrite ↦ ?_⟩
  exact UInt32.le_iff_toNat_le.1 (UInt32.not_lt.1 fun hgt ↦ hw ⟨hwrite, hgt⟩)

/-- A write falls short by its count, if its sectors have bytes. -/
theorem short_iff (hn : n.toNat ≤ 63) (x : Exchange) :
    x.short param n ↔ x.res.reg.al.toNat < n.toNat ∧ sectorSize param ≠ 0 := by
  have hzero : sectorSize param ≠ 0 ↔ (sectorSize param).toNat ≠ 0 :=
    not_congr UInt32.toNat_inj.symm
  rw [Exchange.short, gt_iff_lt, UInt32.lt_iff_toNat_lt, chsMoved_toNat, chsProduct_toNat hn,
    hzero]
  constructor
  · intro h
    have hpos : (sectorSize param).toNat ≠ 0 := fun h0 ↦ by simp [h0] at h
    have hlt := Nat.lt_of_mul_lt_mul_right h
    omega
  · rintro ⟨hlt, hpos⟩
    exact Nat.mul_lt_mul_of_pos_right (by omega) (by omega)

theorem toUInt8_toNat (hn : n.toNat ≤ 63) : n.toUInt8.toNat = n.toNat := by
  rw [UInt32.toNat_toUInt8]
  omega

theorem toUInt16_toNat (hn : n.toNat ≤ 63) : n.toUInt16.toNat = n.toNat := by
  rw [UInt32.toNat_toUInt16]
  omega

end products

/-! ### Requests -/

section requests

variable {σ : Type} {env : Env σ} {param : DiskParam} {a : Chs} {offset : UInt64}
  {n size : UInt32} {buffer : Buffer} {isWrite check : Bool} {r : RealArea}

/-- **A CHS transfer that passes the checks is well made.** The checks are what keeps the BIOS
inside `real_buffer`: the count it is given is the one they bound. -/
theorem wellMade_chsAsk (h : ¬chsRefused isWrite param a n size) :
    WellMade env (sectorSize param).toNat (chsAsk env isWrite param a n buffer size r) := by
  obtain ⟨hn, -, hmax, -⟩ := chs_bounds h
  have hal : (chsAsk env isWrite param a n buffer size r).reg.al = n.toUInt8 := rfl
  have hah : (chsAsk env isWrite param a n buffer size r).reg.ah =
      if isWrite then 0x03 else 0x02 := rfl
  refine ⟨aimsAtBuffer_chsAsk r, ?_, fun _ ↦ ?_, fun h' ↦ ?_, fun h' ↦ ?_⟩
  · rw [hah]
    cases isWrite <;> decide
  · rw [hal, toUInt8_toNat hn]
    exact hmax
  · rw [hah] at h'
    cases isWrite <;> simp at h'
  · rw [hah] at h'
    cases isWrite <;> simp at h'

/-- The verification behind a checked write names no buffer. -/
theorem wellMade_verify {k : ℕ} : WellMade env k (chsRequest env param a n 0x04 r) := by
  have hah : (chsRequest env param a n 0x04 r).reg.ah = 0x04 := rfl
  refine ⟨aimsAtBuffer_chsRequest env (by decide), ?_, fun h' ↦ ?_, fun h' ↦ ?_, fun h' ↦ ?_⟩
  · rw [hah]
    decide
  all_goals
    rw [hah] at h'
    simp at h'

/-- **An extended transfer that passes the checks is well made.** -/
theorem wellMade_lbaAsk (h : ¬lbaRefused isWrite param offset n size) :
    WellMade env (sectorSize param).toNat
      (lbaAsk env isWrite param offset n buffer size check r) := by
  obtain ⟨hn, -, hmax, -⟩ := lba_bounds h
  have hext : param.hasExt ≠ 0 := fun h0 ↦ h (Or.inl h0)
  have hsize : (sectorSize param).toNat = param.ext.bytesPerSector.toNat := by
    rw [sectorSize, if_pos hext, bytesPerSector_toNat]
  have hah : (lbaAsk env isWrite param offset n buffer size check r).reg.ah =
      if isWrite then 0x43 else 0x42 := rfl
  refine ⟨aimsAtBuffer_lbaAsk r, ?_, fun h' ↦ ?_, fun _ ↦ ?_, fun h' ↦ ?_⟩
  · rw [hah]
    cases isWrite <;> decide
  · rw [hah] at h'
    cases isWrite <;> simp at h'
  · have hcount : (lbaAsk env isWrite param offset n buffer size check r).dap.nsectors =
        n.toUInt16 := rfl
    rw [hcount, toUInt16_toNat hn, hsize]
    exact hmax
  · rw [hah] at h'
    cases isWrite <;> simp at h'

end requests

/-! ### Copies -/

/-- The bytes of a copy. -/
def Event.copy? : Event → Option ℕ
  | .copy n => some n
  | _ => none

/-- The copies between a caller's buffer and `real_buffer`, in order, by the bytes each moved. -/
def copies (l : List Event) : List ℕ := l.filterMap Event.copy?

@[simp] theorem copies_nil : copies [] = [] := rfl

@[simp] theorem copies_copy (n : ℕ) (l : List Event) : copies (.copy n :: l) = n :: copies l := rfl

@[simp] theorem copies_int13 (x : Exchange) (l : List Event) :
    copies (.int13 x :: l) = copies l := rfl

@[simp] theorem copies_transfer (z : UInt32) (k : ℕ) (l : List Event) :
    copies (.transfer z k :: l) = copies l := rfl

section copies

variable {σ : Type} {env : Env σ} {param : DiskParam} {a : Chs} {offset : UInt64}
  {n size : UInt32} {buffer : Buffer}

/-- **What a CHS transfer copies** fits into `real_buffer` and into `*size`. -/
theorem sectorChsRw_copies (isWrite check : Bool) (m : Machine σ) :
    ∀ k ∈ copies (sectorChsRw env isWrite param a n buffer size check m).events,
      k ≤ maxSectorBufferSize.toNat ∧ k ≤ size.toNat := by
  have hmax : maxSectorBufferSize.toNat = 32256 := rfl
  by_cases h : chsRefused isWrite param a n size
  · rw [sectorChsRw_of_refused h]
    simp
  obtain ⟨-, hsize, hbuf, hwrite⟩ := chs_bounds h
  cases isWrite with
  | true =>
    obtain ⟨xs, hevents, -⟩ : ∃ xs : List Exchange,
        (writeSectorsChs env param a n buffer size check m).events = _ ∧ _ :=
      writeSectorsChs_shape h m rfl
    have hcopy : copies (xs.map .int13) = [] := by simp [copies, Event.copy?]
    rw [← writeSectorsChs, hevents, copies_transfer, copies_copy, copies_int13, hcopy,
      hmax]
    simpa using hwrite rfl
  | false =>
    rw [sectorChsRw_read, readSectorsChs_of_not_refused h m rfl, hmax]
    intro k hk
    split_ifs at hk
    · simp at hk
    · obtain rfl : k = _ := by simpa using hk
      rw [chsMoved_toNat]
      have hle := Nat.mul_le_mul_right (sectorSize param).toNat
        (Nat.min_le_right (exchangeAt env m
          (chsAsk env false param a n buffer size m.area)).res.reg.al.toNat n.toNat)
      omega

/-- **What an extended transfer copies** fits into `real_buffer` and into `*size`. -/
theorem sectorsLbaRw_copies (isWrite check : Bool) (m : Machine σ) :
    ∀ k ∈ copies (sectorsLbaRw env isWrite param offset n buffer size check m).events,
      k ≤ maxSectorBufferSize.toNat ∧ k ≤ size.toNat := by
  have hmax : maxSectorBufferSize.toNat = 32256 := rfl
  by_cases h : lbaRefused isWrite param offset n size
  · rw [sectorsLbaRw_of_refused h]
    simp
  obtain ⟨-, hsize, hbuf, hwrite⟩ := lba_bounds h
  cases isWrite with
  | true =>
    rw [← writeSectorsLba, writeSectorsLba_of_not_refused h m rfl, hmax]
    simpa using hwrite rfl
  | false =>
    rw [sectorsLbaRw_read h m rfl, hmax]
    intro k hk
    split_ifs at hk
    · simp at hk
    · obtain rfl : k = _ := by simpa using hk
      rw [lbaMoved_toNat]
      have hle := Nat.mul_le_mul_right param.ext.bytesPerSector.toNat
        (Nat.min_le_right (exchangeAt env m
          (lbaAsk env false param offset n buffer size check m.area)).res.dap.nsectors.toNat
          n.toNat)
      omega

end copies

end Dwipe

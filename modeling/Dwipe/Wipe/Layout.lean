import Dwipe.Library.Tiling
import Dwipe.Wipe.Plan

/-!
# The sectors of a plan

The arithmetic of `wipe_disk`: where its calls begin and how many sectors each has. The trip count
is computed from bytes and the remainder from sectors, and both wrap, so the calls cover the first
`total_sec % 2^55` sectors: **all of them** when there are fewer than `2^55`, in order, sixteen at a
time, with one shorter call at the end (`tiles_spans`).

A step in the addressing the total was computed from is never refused
(`wipePlan_accepted_ext`, `wipePlan_accepted_chs`).
-/

namespace Dwipe

variable (opt : Options) {param : DiskParam}

/-! ### Sizes -/

theorem wipeSectorSize_of_not_cdrom (hp : isCdrom param = 0) : wipeSectorSize opt param = 512 := by
  rw [wipeSectorSize]
  split_ifs with h
  · rw [isCdrom_eq_zero_iff.1 hp h.1]
    rfl
  · rfl

theorem chunkSectors_of_not_cdrom (hp : isCdrom param = 0) : chunkSectors opt param = 16 := by
  rw [chunkSectors, wipeSectorSize_of_not_cdrom opt hp]
  rfl

theorem totalSize_toNat (hp : isCdrom param = 0) :
    (totalSize opt param).toNat = (totalSec opt param).toNat * 512 % 2 ^ 64 := by
  rw [totalSize, wipeSectorSize_of_not_cdrom opt hp, UInt64.toNat_mul]
  rfl

/-- The trip count of the chunk loop: the number of whole blocks of sixteen sectors. The size in
bytes is computed modulo 2^64, so a disk of 2^55 sectors or more has fewer rounds than blocks. -/
theorem chunkCount_eq (hp : isCdrom param = 0) :
    chunkCount opt param = (totalSec opt param).toNat % 2 ^ 55 / 16 := by
  have hsize := totalSize_toNat opt hp
  have hdiv : chunkCount opt param = (totalSize opt param).toNat / 8192 := by
    rw [chunkCount, UInt64.toNat_div]
    rfl
  rw [hdiv, hsize]
  omega

theorem chunkOffset_toNat (hp : isCdrom param = 0) {k : ℕ} (hk : k ≤ chunkCount opt param) :
    (chunkOffset opt param k).toNat = 16 * k := by
  have hcount := chunkCount_eq opt hp
  have hlt := (totalSec opt param).toNat_lt
  rw [chunkOffset, chunkSectors_of_not_cdrom opt hp, UInt64.toNat_ofNat']
  have h16 : (16 : UInt32).toNat = 16 := rfl
  rw [h16]
  omega

/-- What the chunk loop leaves over, as the 64-bit difference. -/
theorem leftSec_toNat (hp : isCdrom param = 0) :
    (leftSec opt param).toNat =
      (totalSec opt param).toNat - 16 * ((totalSec opt param).toNat % 2 ^ 55 / 16) := by
  have hoff := chunkOffset_toNat opt hp le_rfl
  rw [chunkCount_eq opt hp] at hoff
  have hlt := (totalSec opt param).toNat_lt
  rw [leftSec, UInt64.toNat_sub, chunkCount_eq opt hp, hoff]
  omega

/-- What the chunk loop leaves over, as the 32-bit count that is passed on. -/
theorem leftSec_toUInt32_toNat (hp : isCdrom param = 0) :
    (leftSec opt param).toUInt32.toNat = (totalSec opt param).toNat % 16 := by
  have hlt := (totalSec opt param).toNat_lt
  rw [UInt64.toNat_toUInt32, leftSec_toNat opt hp]
  omega

theorem leftSec_eq_zero_iff (hp : isCdrom param = 0) :
    leftSec opt param = 0 ↔
      (totalSec opt param).toNat % 16 = 0 ∧ (totalSec opt param).toNat < 2 ^ 55 := by
  have hlt := (totalSec opt param).toNat_lt
  rw [← UInt64.toNat_inj, leftSec_toNat opt hp]
  have h0 : (0 : UInt64).toNat = 0 := rfl
  rw [h0]
  omega

/-! ### Spans -/

/-- The sectors of the calls, for a total of `T` sectors. -/
def spans (T : ℕ) : List Span :=
  ((List.range (T % 2 ^ 55 / 16)).map fun k ↦ ⟨16 * k, 16⟩) ++
    if T % 16 = 0 ∧ T < 2 ^ 55 then [] else [⟨16 * (T % 2 ^ 55 / 16), T % 16⟩]

/-- **The calls follow each other without gap or overlap.** -/
theorem tiles_spans (T : ℕ) : Tiles 0 (spans T) (T % 2 ^ 55) := by
  have hchunks := Tiles.uniform 16 (T % 2 ^ 55 / 16)
  rw [spans]
  split_ifs with h
  · have hend : 16 * (T % 2 ^ 55 / 16) = T % 2 ^ 55 := by omega
    rw [List.append_nil, ← hend]
    rwa [hend] at hchunks ⊢
  · have hend : T % 2 ^ 55 = 16 * (T % 2 ^ 55 / 16) + T % 16 := by omega
    rw [hend]
    have hdiv : (16 * (T % 2 ^ 55 / 16) + T % 16) / 16 = T % 2 ^ 55 / 16 := by omega
    rw [hdiv]
    exact hchunks.append (Tiles.singleton _ _)

/-- What is known of a single call: at most sixteen sectors, beginning inside the disk. -/
theorem mem_spans {T : ℕ} {p : Span} (h : p ∈ spans T) :
    p.len ≤ 16 ∧ p.start < T ∧ p.start + p.len ≤ T := by
  rw [spans, List.mem_append, List.mem_map] at h
  rcases h with ⟨k, hk, rfl⟩ | h
  · rw [List.mem_range] at hk
    simp only
    omega
  · split_ifs at h with hc
    · simp at h
    · rw [List.mem_singleton] at h
      subst h
      simp only
      omega

/-- **The calls in order**: each starts a multiple of 16 sectors in, behind full chunks. -/
theorem spans_getElem? {T i : ℕ} {p : Span} (h : (spans T)[i]? = some p) :
    p.start = 16 * i ∧ ∀ k < i, (spans T)[k]? = some ⟨16 * k, 16⟩ := by
  have hchunk (k : ℕ) (hk : k < T % 2 ^ 55 / 16) : (spans T)[k]? = some ⟨16 * k, 16⟩ := by
    rw [spans, List.getElem?_append_left (by simpa using hk), List.getElem?_map,
      List.getElem?_range hk]
    rfl
  by_cases hi : i < T % 2 ^ 55 / 16
  · rw [hchunk i hi] at h
    exact ⟨by rw [← Option.some.inj h], fun k hk ↦ hchunk k (by omega)⟩
  · -- the remainder, if there is one
    have hrest := h
    rw [spans, List.getElem?_append_right (by simpa using Nat.le_of_not_lt hi)] at hrest
    split_ifs at hrest
    · simp at hrest
    · obtain ⟨hlast, rfl⟩ : i - T % 2 ^ 55 / 16 = 0 ∧ _ = p := by
        simpa [List.getElem?_singleton] using hrest
      exact ⟨by simp only; omega, fun k hk ↦ hchunk k (by omega)⟩

/-- A call at sector 0 is not empty, unless there is nothing to wipe. -/
theorem len_pos_of_mem_spans {T : ℕ} {p : Span} (h : p ∈ spans T) (hstart : p.start = 0)
    (hT : 0 < T % 2 ^ 55) : 0 < p.len := by
  rw [spans, List.mem_append, List.mem_map] at h
  rcases h with ⟨k, -, rfl⟩ | h
  · exact Nat.zero_lt_succ 15
  · split_ifs at h with hc
    · simp at h
    · rw [List.mem_singleton] at h
      subst h
      simp only at hstart ⊢
      omega

/-- Unless there is nothing to wipe, the first call begins at sector 0. -/
theorem spans_eq_cons {T : ℕ} (hT : T ≠ 0) : ∃ p l, spans T = p :: l ∧ p.start = 0 := by
  have htiles := tiles_spans T
  cases hs : spans T with
  | nil =>
    rw [spans, List.append_eq_nil_iff] at hs
    obtain ⟨h1, h2⟩ := hs
    split_ifs at h2 with hc
    have hzero : T % 2 ^ 55 / 16 = 0 := by simpa using h1
    omega
  | cons p l =>
    rw [hs] at htiles
    exact ⟨p, l, rfl, htiles.1⟩

/-- The call for a span. -/
def spanCall (p : Span) : Call := .wipeSectorsLba (UInt64.ofNat p.start) (UInt32.ofNat p.len)

/-- **The calls of the wipe loop** are those of a tiling of the disk: blocks of one size, and a
shorter one. -/
theorem wipePlan_eq (hp : isCdrom param = 0) :
    wipePlan opt param = (spans (totalSec opt param).toNat).map spanCall := by
  rw [wipePlan, spans, List.map_append]
  congr 1
  · rw [chunkPlan, chunkCount_eq opt hp, List.map_map]
    refine List.map_congr_left fun k hk ↦ ?_
    have h16 : (16 : UInt32).toNat = 16 := rfl
    rw [chunkOffset, chunkSectors_of_not_cdrom opt hp, h16, Nat.mul_comm]
    rfl
  · have hleft := leftSec_eq_zero_iff opt hp
    by_cases h0 : leftSec opt param = 0
    · rw [remainderPlan, if_neg (by simpa using h0), if_pos (hleft.1 h0)]
      rfl
    · rw [remainderPlan, if_pos h0, if_neg (fun h ↦ h0 (hleft.2 h)), List.map_singleton, spanCall]
      have hn : (leftSec opt param).toUInt32 = UInt32.ofNat ((totalSec opt param).toNat % 16) := by
        apply UInt32.toNat_inj.1
        rw [leftSec_toUInt32_toNat opt hp, UInt32.toNat_ofNat']
        omega
      have hoff : chunkOffset opt param (chunkCount opt param) =
          UInt64.ofNat (16 * ((totalSec opt param).toNat % 2 ^ 55 / 16)) := by
        have h16 : (16 : UInt32).toNat = 16 := rfl
        rw [chunkOffset, chunkSectors_of_not_cdrom opt hp, chunkCount_eq opt hp, h16, Nat.mul_comm]
      rw [hn, hoff]

/-! ### Acceptance -/

theorem spanCall_toNat {T : ℕ} (hT : T < 2 ^ 64) {p : Span} (h : p ∈ spans T) :
    (UInt64.ofNat p.start).toNat = p.start ∧ (UInt32.ofNat p.len).toNat = p.len := by
  obtain ⟨hlen, hstart, -⟩ := mem_spans h
  rw [UInt64.toNat_ofNat', UInt32.toNat_ofNat']
  omega

/-- The checks on the count and on the size pass for at most sixteen sectors. -/
theorem count_accepted {n : UInt32} (hn : n.toNat ≤ 16) :
    ¬n > biosMaxSectorCnt ∧ ¬n * 512 > wipeBufferSize ∧ ¬n * 512 > maxSectorBufferSize := by
  have hmul : (n * 512).toNat = n.toNat * 512 := by
    rw [UInt32.toNat_mul]
    exact Nat.mod_eq_of_lt (by simp; omega)
  have h63 : biosMaxSectorCnt.toNat = 63 := rfl
  have h8k : wipeBufferSize.toNat = 8192 := rfl
  have h32k : maxSectorBufferSize.toNat = 32256 := rfl
  simp only [gt_iff_lt, UInt32.lt_iff_toNat_lt, hmul, h63, h8k, h32k]
  omega

theorem lbaRefused_iff (hext : param.hasExt ≠ 0) (hbps : param.ext.bytesPerSector = 512)
    (isWrite : Bool) (offset : UInt64) {n : UInt32} (hn : n.toNat ≤ 16) :
    lbaRefused isWrite param offset n wipeBufferSize ↔ offset > param.ext.nsectors - 1 := by
  obtain ⟨h1, h2, h3⟩ := count_accepted hn
  have hsize : ¬wipeBufferSize > maxSectorBufferSize := by decide
  simp [lbaRefused, hext, hbps, h1, h2, h3, hsize]

/-- **No call in the extended addressing is refused** when the total is the extended count. -/
theorem wipePlan_accepted_ext (hext : param.hasExt ≠ 0) (hbps : param.ext.bytesPerSector = 512)
    (hforce : opt.forceChs = false) : ∀ c ∈ wipePlan opt param, ¬refused opt param c := by
  have hp : isCdrom param = 0 := isCdrom_eq_zero_iff.2 fun _ ↦ hbps
  have htotal : totalSec opt param = param.ext.nsectors := by simp [totalSec, hext, hforce]
  rw [wipePlan_eq opt hp, htotal]
  intro c hc
  obtain ⟨p, hp, rfl⟩ := List.mem_map.1 hc
  have hlt := param.ext.nsectors.toNat_lt
  obtain ⟨hoff, hn⟩ := spanCall_toNat hlt hp
  obtain ⟨hlen, hstart, -⟩ := mem_spans hp
  have h1 : (1 : UInt64).toNat = 1 := rfl
  rw [spanCall, refused, callRefused, if_pos hext, lbaRefused_iff hext hbps _ _ (by omega),
    gt_iff_lt, UInt64.lt_iff_toNat_lt, UInt64.toNat_sub, hoff, h1]
  omega

theorem totalSec_toNat_chs (hext : param.hasExt = 0 ∨ opt.forceChs = true)
    (h : geometrySectors param < 2 ^ 31) :
    (totalSec opt param).toNat = geometrySectors param := by
  have hcond : ¬(param.hasExt ≠ 0 ∧ ¬opt.forceChs) := by
    rintro ⟨h1, h2⟩
    rcases hext with h | h
    · exact h1 h
    · exact h2 h
  have hwrap : wrapInt (geometrySectors param) = (geometrySectors param : ℤ) := by
    rw [wrapInt]
    exact Int.bmod_eq_of_le (by omega) (by omega)
  rw [totalSec, if_neg hcond, hwrap, uint64_ofInt_natCast, UInt64.toNat_ofNat']
  omega

/-- The product of the geometry never wraps to zero: it is zero for a track without sectors only. -/
theorem totalSec_chs_eq_zero_iff (hext : param.hasExt = 0 ∨ opt.forceChs = true) :
    totalSec opt param = 0 ↔ param.lastSectorsPerTrack = 0 := by
  have hcond : ¬(param.hasExt ≠ 0 ∧ ¬opt.forceChs) := by
    rintro ⟨h1, h2⟩
    rcases hext with h | h
    · exact h1 h
    · exact h2 h
  have hlt : geometrySectors param < 2 ^ 32 := by
    have h1 := param.lastHeads.toNat_lt
    have h2 := param.lastCylinders.toNat_lt
    have h3 := param.lastSectorsPerTrack.toNat_lt
    calc geometrySectors param
        ≤ 256 * 65536 * 255 :=
          Nat.mul_le_mul (Nat.mul_le_mul (by omega) (by omega)) (by omega)
      _ < 2 ^ 32 := by decide
  have hgeo : geometrySectors param = 0 ↔ param.lastSectorsPerTrack = 0 := by
    rw [geometrySectors, ← UInt8.toNat_inj]
    simp
  rw [totalSec, if_neg hcond, ← hgeo, ← UInt64.toNat_inj, UInt64.ofInt, wrapInt, Int.bmod_def,
    UInt64.toNat_ofNat']
  have h0 : (0 : UInt64).toNat = 0 := rfl
  rw [h0]
  split_ifs <;> omega

/-- **No call in the CHS addressing is refused** when the total is the product of the geometry. -/
theorem wipePlan_accepted_chs (hext : param.hasExt = 0) (hdec : param.Decoded) :
    ∀ c ∈ wipePlan opt param, ¬refused opt param c := by
  have hp : isCdrom param = 0 := isCdrom_eq_zero_iff.2 fun h ↦ absurd hext h
  have hsmall := hdec.geometrySectors_lt
  have hT := totalSec_toNat_chs opt (Or.inl hext) hsmall
  rw [wipePlan_eq opt hp, hT]
  intro c hc
  obtain ⟨p, hp, rfl⟩ := List.mem_map.1 hc
  obtain ⟨hoff, hn⟩ := spanCall_toNat (by omega) hp
  obtain ⟨hlen, hstart, -⟩ := mem_spans hp
  have hinside : (UInt64.ofNat p.start).toNat < geometrySectors param := by omega
  obtain ⟨a, ha, haddr⟩ := lba2chs_of_lt hdec hinside
  rw [spanCall, refused, callRefused, if_neg (by simpa using hext)]
  intro h
  obtain ⟨h1, h2, h3⟩ := count_accepted (n := UInt32.ofNat p.len) (by omega)
  have hsize : ¬wipeBufferSize > maxSectorBufferSize := by decide
  have hsec : sectorSize param = 512 := by simp [sectorSize, hext]
  rcases h a ha with h | h | h | h | h | h
  · exact varifyChs_nonneg_iff.2 haddr.valid h
  · exact h1 h
  · rw [hsec] at h
    exact h2 h
  · rw [hsec] at h
    exact h3 h
  · exact hsize h.2
  · exact haddr.inside h

end Dwipe

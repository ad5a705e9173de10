import Dwipe.Disk.Served
import Dwipe.Machine.Scripts
import Dwipe.Wipe.Runs

/-!
# The protected volume

A disk with a FAT volume that carries the skip label is to be left alone. The scan finds the volume
when its partition entry leads to it (`followed`), and misses it otherwise, **whatever** the label
says: volumes of type `04h` and `06h` are never looked at, one of type `0Bh` is looked for by CHS
only, and those of type `0Ch` and `0Eh` by linear number only.

`recognised_iff` states when a protected disk is recognised, for every BIOS that satisfies the reads
in range and for every contents of the disk; `ProtectedBy.followed_iff` reads the condition off the
type of the entry and the addressing of the drive.
-/

namespace Dwipe

/-! ### Protected disks -/

/-- The FAT16 and FAT32 partition types, of which the scan knows only some. -/
def fatTypes : List UInt8 := [0x04, 0x06, 0x0B, 0x0C, 0x0E, 0xEF]

/-- The skip string, padded with spaces to the eleven bytes of a label. -/
def padded (skip : CString) : List UInt8 :=
  skip.bytes ++ List.replicate (11 - skip.bytes.length) 0x20

/-- The label field at an offset of a boot sector. -/
def labelField (byte : ℕ → UInt8) (o : ℕ) : List UInt8 := (List.range 11).map fun j ↦ byte (o + j)

/-- The number of sectors of the disk, in the addressing that it has. -/
def diskSectors (param : DiskParam) : ℕ :=
  if param.hasExt ≠ 0 then param.ext.nsectors.toNat else geometrySectors param

/-- Some triple stands for the sector, so that a CHS read can reach it. -/
def ChsAddressable (param : DiskParam) (s : ℕ) : Prop := ∃ a, chsSector param a = some s

/-- The CHS start of a partition that begins beyond the reach of CHS. -/
def saturatedChs : Chs := ⟨1023, 254, 63⟩

/-- **The entry of a protected volume**: of a FAT type, with a boot sector on the disk that carries
the padded skip string at one of the two label offsets, and with the CHS start of that sector, or
the saturated one. -/
structure ProtectedBy (skip : CString) (param : DiskParam) (contents : Contents) (e : MbrEntry) :
    Prop where
  type : e.type ∈ fatTypes
  inside : e.lbaBegin.toNat < diskSectors param
  label : labelField (contents e.lbaBegin.toNat) fat16LabelOffset = padded skip ∨
    labelField (contents e.lbaBegin.toNat) fat32LabelOffset = padded skip
  addressed : ChsAddressable param e.lbaBegin.toNat →
    chsSector param e.chsBegin = some e.lbaBegin.toNat
  saturated : ¬ChsAddressable param e.lbaBegin.toNat → e.chsBegin = saturatedChs

/-- **A protected disk**: the skip string has 1 to 11 characters, none of them a space, and one of
the four entries is that of a protected volume. -/
structure Protected (skip : CString) (param : DiskParam) (contents : Contents) : Prop where
  nonempty : 1 ≤ skip.bytes.length
  short : skip.bytes.length ≤ 11
  noSpace : 0x20 ∉ skip.bytes
  volume : ∃ i < 4, ProtectedBy skip param contents (mbrEntry (contents 0) i)

/-- **The disk is recognised**: `contain_fat_label` returns 1, and `wipe_disk` returns 1 without a
write request. -/
def Recognised {σ : Type} (env : Env σ) (opt : Options) (param : DiskParam) (m : Machine σ) :
    Prop :=
  (containFatLabel env opt param opt.skip m).val = 1 ∧ (wipeDisk env opt param m).val = 1 ∧
    ∀ x ∈ exchanges (wipeDisk env opt param m).events, ¬x.IsWrite

section label

variable {skip : CString} {param : DiskParam} {contents : Contents} {e : MbrEntry}

/-- A padded label is the skip string once its spaces are cut. -/
theorem labelMatches_of_padded {byte : ℕ → UInt8} {o : ℕ} (hspace : 0x20 ∉ skip.bytes)
    (h : labelField byte o = padded skip) : labelMatches skip byte o := by
  refine labelMatches_iff.2 ⟨hspace, _, h, fun b hb ↦ Or.inl ?_⟩
  exact List.eq_of_mem_replicate (List.mem_of_mem_head? hb)

theorem ProtectedBy.carriesLabel (h : ProtectedBy skip param contents e)
    (hspace : 0x20 ∉ skip.bytes) : carriesLabel skip (contents e.lbaBegin.toNat) := by
  rw [Dwipe.carriesLabel, Bool.or_eq_true]
  exact h.label.symm.imp (labelMatches_of_padded hspace) (labelMatches_of_padded hspace)

/-- The scan can reach a volume by the type of its entry and the addressing of the drive. -/
def InReach (param : DiskParam) (e : MbrEntry) : Prop :=
  e.type = 0x0B ∧ ChsAddressable param e.lbaBegin.toNat ∨
  (e.type = 0x0C ∨ e.type = 0x0E) ∧ param.hasExt ≠ 0 ∨
  e.type = 0xEF ∧ (ChsAddressable param e.lbaBegin.toNat ∨
    param.hasExt ≠ 0 ∧ chsSector param saturatedChs = none)

/-- **The entry of a protected volume leads to it just when the volume can be reached.** -/
theorem ProtectedBy.followed_iff (h : ProtectedBy skip param contents e) :
    followed param e = some e.lbaBegin.toNat ↔ InReach param e := by
  have hchs : chsSector param e.chsBegin = some e.lbaBegin.toNat ↔
      ChsAddressable param e.lbaBegin.toNat := ⟨fun hs ↦ ⟨_, hs⟩, h.addressed⟩
  have hlba : lbaSector param e.lbaBegin.toUInt64 = some e.lbaBegin.toNat ↔
      param.hasExt ≠ 0 := by
    rw [lbaSector]
    by_cases hext : param.hasExt = 0
    · simp [hext]
    · have hinside : e.lbaBegin.toUInt64 < param.ext.nsectors := by
        have hlt := h.inside
        rw [diskSectors, if_pos hext] at hlt
        rwa [UInt64.lt_iff_toNat_lt, UInt32.toNat_toUInt64]
      simp [hext, hinside]
  have htype := h.type
  simp only [fatTypes, List.mem_cons, List.not_mem_nil, or_false] at htype
  rcases htype with ht | ht | ht | ht | ht | ht
  · simp [followed, InReach, ht]
  · simp [followed, InReach, ht]
  · simpa [followed, InReach, ht] using hchs
  · simpa [followed, InReach, ht] using hlba
  · simpa [followed, InReach, ht] using hlba
  · have hfollowed : followed param e =
        (chsSector param e.chsBegin).or (lbaSector param e.lbaBegin.toUInt64) := by
      simp [followed, ht]
    have hreach : InReach param e ↔ ChsAddressable param e.lbaBegin.toNat ∨
        param.hasExt ≠ 0 ∧ chsSector param saturatedChs = none := by
      simp [InReach, ht]
    rw [hfollowed, hreach]
    by_cases haddr : ChsAddressable param e.lbaBegin.toNat
    · rw [h.addressed haddr, Option.some_or]
      exact iff_of_true rfl (Or.inl haddr)
    · rw [h.saturated haddr]
      cases hsat : chsSector param saturatedChs with
      | none =>
        rw [Option.none_or, hlba]
        simp [haddr]
      | some s =>
        -- the saturated triple is itself a sector of the geometry, and the scan stops there
        have hne : s ≠ e.lbaBegin.toNat := fun hs ↦ haddr ⟨_, hs ▸ hsat⟩
        simp [haddr, hne]

/-- A protected volume in reach leads to the label. -/
theorem ProtectedBy.leadsToLabel (h : ProtectedBy skip param contents e)
    (hspace : 0x20 ∉ skip.bytes) (hreach : InReach param e) :
    LeadsToLabel skip param contents e :=
  ⟨_, h.followed_iff.2 hreach, h.carriesLabel hspace⟩

/-- A disk with a sector on it reports at least one. -/
theorem Protected.nsectors_pos (h : Protected skip param contents) :
    param.hasExt ≠ 0 → 0 < param.ext.nsectors.toNat := by
  intro hext
  obtain ⟨i, -, hi⟩ := h.volume
  have hinside := hi.inside
  rw [diskSectors, if_pos hext] at hinside
  omega

end label

/-! ### When it is recognised -/

section recognised

variable {σ : Type} {env : Env σ} {opt : Options} {param : DiskParam} {contents : Contents}
  {I : σ → Prop} {m : Machine σ}

/-- A disk with the label is recognised, unless it is skipped as a CD-ROM before the label is looked
for. -/
theorem recognised_of_label (hp : isCdrom param = 0)
    (h : (containFatLabel env opt param opt.skip m).val = 1) : Recognised env opt param m := by
  have hskip : (isSkipedDisk env opt param m).val ≠ 0 := by
    rw [isSkipedDisk, if_neg (not_not.2 hp)]
    simp [h]
  exact ⟨h, wipeDisk_val_of_skiped hskip, not_isWrite_of_skiped hskip⟩

/-- **When a protected disk is recognised.** The BIOS satisfies every read in range. The disk is
recognised exactly if its sectors have 512 bytes, its geometry has a sector to read the partition
table from, and one of the four entries leads the scan to a sector with the label. -/
theorem recognised_iff (hS : Serves env param contents I) (hI : I m.bios)
    (hP : Protected opt.skip param contents) :
    Recognised env opt param m ↔
      sectorSize param = 512 ∧ 1 ≤ param.lastSectorsPerTrack.toNat ∧
        ∃ i < 4, LeadsToLabel opt.skip param contents (mbrEntry (contents 0) i) := by
  rw [← containFatLabel_served hS hP.nsectors_pos opt.skip hI]
  constructor
  · exact fun h ↦ h.1
  · intro h
    have h512 := ((containFatLabel_served hS hP.nsectors_pos opt.skip hI).1 h).1
    have hp : isCdrom param = 0 := by
      refine isCdrom_eq_zero_iff.2 fun hext ↦ ?_
      have hbps := congrArg UInt32.toNat (bytesPerSector_of_ext h512 hext)
      exact UInt16.toNat_inj.1 (by simpa using hbps)
    exact recognised_of_label hp h

end recognised

/-! ### Two disks -/

/-- The BIOS of a disk that cannot be written to: it serves the reads in range, and fails every
other request. -/
def reading (param : DiskParam) (contents : Contents) : Env Unit :=
  Env.ofBios (fun _ q ↦
    match sought param q with
    | some s => ⟨false, { q.withStatus 0 with buffer := contents s }, ()⟩
    | none => ⟨true, q.withStatus 1, ()⟩) fun _ ↦ 0

theorem serves_reading (param : DiskParam) (contents : Contents) :
    Serves (reading param contents) param contents fun _ ↦ True := by
  refine ⟨fun _ _ _ _ ↦ trivial, fun b q s _ _ _ hs ↦ ?_⟩
  have hone : (q.reg.ah = 0x02 → q.reg.al = 1) ∧ (q.reg.ah = 0x42 → q.dap.nsectors = 1) := by
    rw [sought] at hs
    split_ifs at hs with h h' <;> simp_all
  simp only [reading, Env.ofBios, hs]
  exact ⟨rfl, fun _ _ ↦ rfl, hone.1, hone.2⟩

/-- `MINIME`, the skip string of the manual. -/
def minime : CString := ⟨[0x4D, 0x49, 0x4E, 0x49, 0x4D, 0x45], by decide⟩

/-- A disk with one partition of the given type, in sector 1, with the label `MINIME` at the FAT16
offset. -/
def labelledDisk (type : UInt8) : Contents := fun s j ↦
  if s = 0 then
    if j = 448 then 2 else if j = 450 then type else if j = 454 then 1 else 0
  else if s = 1 ∧ 43 ≤ j ∧ j < 54 then (padded minime).getD (j - 43) 0
  else 0

/-- On a drive of one track, that disk is protected. -/
theorem labelledDisk_protectedBy {type : UInt8} (h : type ∈ fatTypes) :
    ProtectedBy minime (DiskParam.ofGeometry 0 0 63) (labelledDisk type)
      ⟨0, 0, 2, type, 0, 0, 1, 0⟩ := by
  have hinside : 1 < diskSectors (DiskParam.ofGeometry 0 0 63) := by decide
  have hpack : getChsFromPack 2 = (0, 2) := by decide
  have haddr : chsSector (DiskParam.ofGeometry 0 0 63) ⟨0, 0, 2⟩ = some 1 := by decide
  refine ⟨h, hinside, Or.inl rfl, fun _ ↦ ?_, fun hn ↦ absurd ⟨_, haddr⟩ hn⟩
  rw [MbrEntry.chsBegin, hpack]
  exact haddr

theorem labelledDisk_protected {type : UInt8} (h : type ∈ fatTypes) :
    Protected minime (DiskParam.ofGeometry 0 0 63) (labelledDisk type) :=
  ⟨by decide, by decide, by decide, 0, by decide, labelledDisk_protectedBy h⟩

/-- The volume is found if its type is `0Bh`. -/
theorem recognised_type0B :
    Recognised (reading (DiskParam.ofGeometry 0 0 63) (labelledDisk 0x0B))
      { Options.plain with skip := minime } (DiskParam.ofGeometry 0 0 63) (Machine.fresh () 1) := by
  have hreach : InReach (DiskParam.ofGeometry 0 0 63) ⟨0, 0, 2, 0x0B, 0, 0, 1, 0⟩ :=
    Or.inl ⟨rfl, ⟨0, 0, 2⟩, by decide⟩
  refine (recognised_iff (serves_reading _ _) trivial (labelledDisk_protected (by decide))).2
    ⟨rfl, by decide, 0, by decide, ?_⟩
  exact (labelledDisk_protectedBy (by decide)).leadsToLabel (by decide) hreach

/-- It is missed if its type is `06h`: the scan has no branch for it, and the label is not looked
at. -/
theorem type06_not_recognised :
    Protected minime (DiskParam.ofGeometry 0 0 63) (labelledDisk 0x06) ∧
    ¬Recognised (reading (DiskParam.ofGeometry 0 0 63) (labelledDisk 0x06))
      { Options.plain with skip := minime } (DiskParam.ofGeometry 0 0 63) (Machine.fresh () 1) := by
  have hP := labelledDisk_protected (show 0x06 ∈ fatTypes by decide)
  refine ⟨hP, fun h ↦ ?_⟩
  obtain ⟨-, -, i, hi, s, hs, -⟩ :=
    (containFatLabel_served (serves_reading _ _) hP.nsectors_pos minime trivial).1 h.1
  have hnone : ∀ i < 4,
      followed (DiskParam.ofGeometry 0 0 63) (mbrEntry (labelledDisk 0x06 0) i) = none := by
    decide
  rw [hnone i hi] at hs
  exact Option.some_ne_none s hs.symm

end Dwipe

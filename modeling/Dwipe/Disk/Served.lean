import Dwipe.Disk.Label

/-!
# Reading a disk with given contents

The label scan against a BIOS that serves every read in range. A CHS read is in range when its
triple lies in the geometry of the drive, an extended read when its sector is below the count the
drive reports; what the BIOS does with any other request is left open, and `Serves` asks for nothing
but that reads do not change the disk.

The checks of the request layer let through just the reads in range (`chsRefused_read_iff`,
`lbaRefused_read_iff`), so the scan is determined by the contents: it answers 1 exactly if one of
the four entries leads it to a sector with the label (`containFatLabel_served`).
-/

namespace Dwipe

/-- What is on a disk: the bytes of each sector. -/
abbrev Contents := ℕ → ℕ → UInt8

/-! ### Reads in range -/

/-- The sector a triple stands for, if it is valid and in the geometry of the drive. -/
def chsSector (param : DiskParam) (a : Chs) : Option ℕ :=
  if outsideGeometry param a then none else (chs2lba param a).map UInt64.toNat

/-- The sector an extended request starts at, if the drive has extensions and is that long. -/
def lbaSector (param : DiskParam) (lba : UInt64) : Option ℕ :=
  if param.hasExt ≠ 0 ∧ lba < param.ext.nsectors then some lba.toNat else none

/-- The triple in the registers of a request, as the BIOS unpacks it from `CX` and `DH`. -/
def RealArea.chs (q : RealArea) : Chs :=
  ⟨(getChsFromPack q.reg.cx).1, q.reg.dh.toNat, (getChsFromPack q.reg.cx).2⟩

/-- The sector a request wants to read, if it is a read of one sector in range. -/
def sought (param : DiskParam) (q : RealArea) : Option ℕ :=
  if q.reg.ah = 0x02 ∧ q.reg.al = 1 then chsSector param q.chs
  else if q.reg.ah = 0x42 ∧ q.dap.nsectors = 1 then lbaSector param q.dap.begin
  else none

variable {σ : Type}

/-- The answer to a read of sector `s`: success, the bytes, and the count where the function number
leaves it. -/
structure Delivers (param : DiskParam) (contents : Contents) (q : RealArea) (s : ℕ)
    (a : Answer σ) : Prop where
  carry : a.carry = false
  bytes : ∀ j < (sectorSize param).toNat, a.area.buffer j = contents s j
  count : q.reg.ah = 0x02 → a.area.reg.al = 1
  packet : q.reg.ah = 0x42 → a.area.dap.nsectors = 1

/-- **The BIOS satisfies every read in range**, in the states where the disk holds `contents`; these
are closed under reading. -/
structure Serves (env : Env σ) (param : DiskParam) (contents : Contents) (I : σ → Prop) :
    Prop where
  keeps : ∀ b q, I b → q.reg.ah = 0x02 ∨ q.reg.ah = 0x42 → I (env.int13 b q).bios
  delivers : ∀ b q s, I b → AimsAtBuffer env q → q.reg.dl = param.diskId →
    sought param q = some s → Delivers param contents q s (env.int13 b q)

section reads

variable {env : Env σ} {param : DiskParam} {contents : Contents} {I : σ → Prop}

theorem chsSector_eq_none_iff {a : Chs} :
    chsSector param a = none ↔ varifyChs a < 0 ∨ outsideGeometry param a := by
  rw [chsSector, chs2lba]
  by_cases hout : outsideGeometry param a
  · simp [hout]
  · by_cases hv : varifyChs a < 0 <;> simp [hout, hv]

/-- The checks of `sector_chs_rw` let through the reads in range. -/
theorem chsRefused_read_iff (h512 : sectorSize param = 512) {a : Chs} :
    chsRefused false param a 1 labelBufferSize ↔ chsSector param a = none := by
  rw [chsSector_eq_none_iff, chsRefused, h512]
  have hcount : ¬(1 : UInt32) > biosMaxSectorCnt := by decide
  have hsize : ¬(1 : UInt32) * 512 > labelBufferSize := by decide
  have hmax : ¬(1 : UInt32) * 512 > maxSectorBufferSize := by decide
  simp only [hcount, hsize, hmax, false_or, Bool.false_eq_true, false_and]

theorem bytesPerSector_of_ext (h512 : sectorSize param = 512) (hext : param.hasExt ≠ 0) :
    param.ext.bytesPerSector.toUInt32 = 512 := by
  rwa [sectorSize, if_pos hext] at h512

/-- The checks of `sectors_lba_rw` let through the reads in range, unless the drive reports no
sectors: the bound `nsectors - 1` is unsigned. -/
theorem lbaRefused_read_iff (h512 : sectorSize param = 512)
    (hpos : param.hasExt ≠ 0 → 0 < param.ext.nsectors.toNat) {lba : UInt64} :
    lbaRefused false param lba 1 labelBufferSize ↔ lbaSector param lba = none := by
  by_cases hext : param.hasExt = 0
  · simp [lbaRefused, lbaSector, hext]
  · have hbps := bytesPerSector_of_ext h512 hext
    have hlt := param.ext.nsectors.toNat_lt
    have hbound : lba > param.ext.nsectors - 1 ↔ ¬lba < param.ext.nsectors := by
      have hone : (1 : UInt64) ≤ param.ext.nsectors := by
        rw [UInt64.le_iff_toNat_le]
        exact hpos hext
      rw [gt_iff_lt, UInt64.lt_iff_toNat_lt, UInt64.lt_iff_toNat_lt,
        UInt64.toNat_sub_of_le _ _ hone]
      have := hpos hext
      have h1 : (1 : UInt64).toNat = 1 := rfl
      omega
    have hcount : ¬(1 : UInt32) > biosMaxSectorCnt := by decide
    have hsize : ¬(1 : UInt32) * 512 > labelBufferSize := by decide
    have hmax : ¬(1 : UInt32) * 512 > maxSectorBufferSize := by decide
    rw [lbaRefused, lbaSector, hbps, hbound]
    simp only [hcount, hsize, hmax, hext, false_or, or_false, Bool.false_eq_true, false_and, ne_eq,
      not_false_eq_true, true_and]
    split_ifs with h <;> simp [h]

/-- A read that came back with sector `s`. -/
structure Got (contents : Contents) (s : ℕ) (x : Xfer) : Prop where
  ret : x.ret = 0
  size : x.size = 512
  bytes : ∀ j < 512, x.buffer.byte j = contents s j

/-- A read that came back with all of sector `s`, whatever the size of a sector. -/
structure Taken (param : DiskParam) (contents : Contents) (s : ℕ) (x : Xfer) : Prop where
  ret : x.ret = 0
  size : x.size = sectorSize param
  bytes : ∀ j < (sectorSize param).toNat, x.buffer.byte j = contents s j

theorem Taken.got (h512 : sectorSize param = 512) {s : ℕ} {x : Xfer}
    (h : Taken param contents s x) : Got contents s x :=
  ⟨h.ret, h.size.trans h512, fun j hj ↦ h.bytes j (by rwa [h512])⟩

/-- A CHS read whose sector the BIOS delivers comes back with it. -/
theorem readSectorsChs_delivered {a : Chs} (h : ¬chsRefused false param a 1 labelBufferSize)
    {buffer : Buffer} {m : Machine σ} {q : RealArea}
    (hq : q = chsAsk env false param a 1 buffer labelBufferSize m.area) {s : ℕ}
    (hd : Delivers param contents q s (env.int13 m.bios q)) :
    Taken param contents s (readSectorsChs env param a 1 buffer labelBufferSize m).val := by
  obtain ⟨hc, hbytes, hcount, -⟩ := hd
  have hmoved : chsMoved param 1 (env.int13 m.bios q).area = sectorSize param := by
    rw [chsMoved, hcount (by rw [hq]; rfl)]
    exact UInt32.one_mul _
  rw [readSectorsChs_of_not_refused h m rfl, ← hq]
  simp only [chsReadResult, exchangeAt, hc, hmoved, Bool.false_eq_true, if_false]
  exact ⟨rfl, rfl, fun j hj ↦ (memcpy_of_lt hj).trans (hbytes j hj)⟩

/-- An extended read whose sector the BIOS delivers comes back with it. -/
theorem readSectorsLba_delivered {lba : UInt64} (h : ¬lbaRefused false param lba 1 labelBufferSize)
    {buffer : Buffer} {m : Machine σ} {q : RealArea}
    (hq : q = lbaAsk env false param lba 1 buffer labelBufferSize false m.area) {s : ℕ}
    (hd : Delivers param contents q s (env.int13 m.bios q)) :
    Taken param contents s (readSectorsLba env param lba 1 buffer labelBufferSize m).val := by
  obtain ⟨hc, hbytes, -, hpacket⟩ := hd
  have hn : (env.int13 m.bios q).area.dap.nsectors = 1 := hpacket (by rw [hq]; rfl)
  have hbps : param.ext.bytesPerSector.toUInt32 = sectorSize param := by
    rw [sectorSize, if_pos fun hext ↦ h (Or.inl hext)]
  have hmoved : lbaMoved param 1 (env.int13 m.bios q).area = sectorSize param := by
    rw [lbaMoved, hn, hbps]
    exact UInt32.one_mul _
  have hreported : lbaReported param 1 (env.int13 m.bios q).area = sectorSize param := by
    rw [lbaReported, hn, hbps]
    split_ifs <;> exact UInt32.one_mul _
  rw [readSectorsLba_of_not_refused h m rfl, ← hq]
  simp only [lbaReadResult, exchangeAt, hc, hmoved, hreported, Bool.false_eq_true, if_false]
  exact ⟨rfl, rfl, fun j hj ↦ (memcpy_of_lt hj).trans (hbytes j hj)⟩

/-- **The outcome of a read** of the sector `o`, or of a read that is not in range. -/
structure ReadOf (contents : Contents) (I : σ → Prop) (o : Option ℕ)
    (t : Traced (Machine σ) Event Xfer) : Prop where
  keeps : I t.state.bios
  got : ∀ s, o = some s → Got contents s t.val
  failed : o = none → t.val.ret ≠ 0

theorem readOf_refused {m : Machine σ} (hI : I m.bios) {buffer : Buffer} {size : UInt32}
    {l : List Event} : ReadOf contents I none ⟨⟨-1, buffer, size⟩, m, l⟩ :=
  ⟨hI, by simp, fun _ ↦ by simp⟩

/-- The request of a CHS read asks for the sector of the triple. -/
theorem sought_chsAsk {a : Chs} (h : varifyChs a = 0) (buffer : Buffer) (r : RealArea) :
    sought param (chsAsk env false param a 1 buffer labelBufferSize r) = chsSector param a := by
  have hchs : (chsAsk env false param a 1 buffer labelBufferSize r).chs = a := by
    simp only [RealArea.chs, chsAsk, chsRequest_cx, chsRequest_dh]
    exact unpack_pack h
  have hah : (chsAsk env false param a 1 buffer labelBufferSize r).reg.ah = 0x02 := rfl
  have hal : (chsAsk env false param a 1 buffer labelBufferSize r).reg.al = 1 := rfl
  rw [sought, if_pos ⟨hah, hal⟩, hchs]

theorem sought_lbaAsk {lba : UInt64} (buffer : Buffer) (r : RealArea) :
    sought param (lbaAsk env false param lba 1 buffer labelBufferSize false r) =
      lbaSector param lba := rfl

theorem readSectorsChs_served (hS : Serves env param contents I) (h512 : sectorSize param = 512)
    (a : Chs) (buffer : Buffer) {m : Machine σ} (hI : I m.bios) :
    ReadOf contents I (chsSector param a)
      (readSectorsChs env param a 1 buffer labelBufferSize m) := by
  by_cases h : chsRefused false param a 1 labelBufferSize
  · rw [(chsRefused_read_iff h512).1 h, readSectorsChs, sectorChsRw_of_refused h]
    exact readOf_refused hI
  · have hvalid : varifyChs a = 0 := varifyChs_nonneg_iff.1 fun hv ↦ h (Or.inl hv)
    obtain ⟨q, hq⟩ : ∃ q, q = chsAsk env false param a 1 buffer labelBufferSize m.area := ⟨_, rfl⟩
    refine ⟨?_, fun s hs ↦ ?_, fun hnone ↦ ?_⟩
    · rw [readSectorsChs_of_not_refused h m rfl, ← hq]
      exact hS.keeps _ q hI (Or.inl (by rw [hq]; rfl))
    · have hsought : sought param q = some s := by rw [hq, sought_chsAsk hvalid, hs]
      have hd := hS.delivers m.bios q s hI (by rw [hq]; exact aimsAtBuffer_chsAsk _)
        (by rw [hq]; rfl) hsought
      exact (readSectorsChs_delivered h hq hd).got h512
    · exact absurd ((chsRefused_read_iff h512).2 hnone) h

theorem readSectorsLba_served (hS : Serves env param contents I) (h512 : sectorSize param = 512)
    (hpos : param.hasExt ≠ 0 → 0 < param.ext.nsectors.toNat) (lba : UInt64) (buffer : Buffer)
    {m : Machine σ} (hI : I m.bios) :
    ReadOf contents I (lbaSector param lba)
      (readSectorsLba env param lba 1 buffer labelBufferSize m) := by
  by_cases h : lbaRefused false param lba 1 labelBufferSize
  · rw [(lbaRefused_read_iff h512 hpos).1 h, readSectorsLba, sectorsLbaRw_of_refused h]
    exact readOf_refused hI
  · obtain ⟨q, hq⟩ : ∃ q, q =
        lbaAsk env false param lba 1 buffer labelBufferSize false m.area := ⟨_, rfl⟩
    refine ⟨?_, fun s hs ↦ ?_, fun hnone ↦ ?_⟩
    · rw [readSectorsLba_of_not_refused h m rfl, ← hq]
      exact hS.keeps _ q hI (Or.inr (by rw [hq]; rfl))
    · have hsought : sought param q = some s := by rw [hq, sought_lbaAsk, hs]
      have hd := hS.delivers m.bios q s hI (by rw [hq]; exact aimsAtBuffer_lbaAsk _)
        (by rw [hq]; rfl) hsought
      exact (readSectorsLba_delivered h hq hd).got h512
    · exact absurd ((lbaRefused_read_iff h512 hpos).2 hnone) h

/-! ### The scan -/

/-- **The sector a partition entry leads the scan to**, if its type is known and its start is in
range: by CHS for type `0Bh`, by its linear number for `0Ch` and `0Eh`, and for `EFh` by CHS, or by
its linear number where CHS cannot be used. -/
def followed (param : DiskParam) (e : MbrEntry) : Option ℕ :=
  if e.type = 0x0B then chsSector param e.chsBegin
  else if e.type = 0x0C ∨ e.type = 0x0E then lbaSector param e.lbaBegin.toUInt64
  else if e.type = 0xEF then (chsSector param e.chsBegin).or (lbaSector param e.lbaBegin.toUInt64)
  else none

/-- The entry leads to a sector with the label. -/
def LeadsToLabel (skip : CString) (param : DiskParam) (contents : Contents) (e : MbrEntry) : Prop :=
  ∃ s, followed param e = some s ∧ carriesLabel skip (contents s)

/-- The outcome of the reads for one entry. -/
structure EntryRead (contents : Contents) (I : σ → Prop) (o : Option ℕ)
    (t : Traced (Machine σ) Event (Option Xfer)) : Prop where
  keeps : I t.state.bios
  got : ∀ s, o = some s → ∃ x, t.val = some x ∧ Got contents s x
  failed : o = none → ∀ x, t.val = some x → x.ret ≠ 0

theorem ReadOf.entry {o : Option ℕ} {x : Prog σ Xfer} {m : Machine σ}
    (h : ReadOf contents I o (x m)) :
    EntryRead contents I o ((do return some (← x) : Prog σ (Option Xfer)) m) := by
  refine ⟨h.keeps, fun s hs ↦ ⟨_, rfl, h.got s hs⟩, fun hnone y hy ↦ ?_⟩
  obtain rfl := Option.some.inj hy
  exact h.failed hnone

theorem readEntry_served (hS : Serves env param contents I) (h512 : sectorSize param = 512)
    (hpos : param.hasExt ≠ 0 → 0 < param.ext.nsectors.toNat) (e : MbrEntry) (buffer : Buffer)
    {m : Machine σ} (hI : I m.bios) :
    EntryRead contents I (followed param e) (readEntry env param e buffer m) := by
  rw [followed, readEntry]
  by_cases hB : e.type = 0x0B
  · rw [if_pos hB, if_pos hB]
    exact (readSectorsChs_served hS h512 e.chsBegin buffer hI).entry
  rw [if_neg hB, if_neg hB]
  by_cases hC : e.type = 0x0C ∨ e.type = 0x0E
  · rw [if_pos hC, if_pos hC]
    exact (readSectorsLba_served hS h512 hpos e.lbaBegin.toUInt64 buffer hI).entry
  rw [if_neg hC, if_neg hC]
  by_cases hEF : e.type = 0xEF
  · rw [if_pos hEF, if_pos hEF]
    obtain ⟨t, ht⟩ : ∃ t, t = readSectorsChs env param e.chsBegin 1 buffer labelBufferSize m :=
      ⟨_, rfl⟩
    have hread := readSectorsChs_served hS h512 e.chsBegin buffer hI
    rw [← ht] at hread
    rw [TraceM.run_bind, ← ht]
    cases hs : chsSector param e.chsBegin with
    | some s =>
      have hgot := hread.got s hs
      rw [if_neg (not_not.2 hgot.ret), Option.some_or]
      refine ⟨hread.keeps, fun s' hs' ↦ ⟨_, rfl, Option.some.inj hs' ▸ hgot⟩, by simp⟩
    | none =>
      -- the second read goes on with the buffer the first one left
      have hlba := readSectorsLba_served hS h512 hpos e.lbaBegin.toUInt64 t.val.buffer hread.keeps
      rw [if_pos (hread.failed hs), Option.none_or]
      exact ⟨hlba.entry.keeps, hlba.entry.got, hlba.entry.failed⟩
  · rw [if_neg hEF, if_neg hEF]
    exact ⟨hI, by simp, by simp⟩

theorem labelMatches_congr {skip : CString} {f g : ℕ → UInt8} {n : ℕ} (h : ∀ j < n, f j = g j)
    {o : ℕ} (ho : o + 11 ≤ n) : labelMatches skip f o = labelMatches skip g o := by
  have hmap : (List.range 11).map (fun j ↦ f (o + j)) = (List.range 11).map fun j ↦ g (o + j) :=
    List.map_congr_left fun j hj ↦ h _ (by have := List.mem_range.1 hj; omega)
  rw [labelMatches, labelMatches, labelArray, labelArray, hmap]

/-- The comparison looks at the bytes before the partition table only. -/
theorem carriesLabel_congr {skip : CString} {f g : ℕ → UInt8} {n : ℕ} (h : ∀ j < n, f j = g j)
    (hn : 446 ≤ n) : carriesLabel skip f = carriesLabel skip g := by
  have h32 : fat32LabelOffset + 11 ≤ 446 := by decide
  have h16 : fat16LabelOffset + 11 ≤ 446 := by decide
  rw [carriesLabel, carriesLabel, labelMatches_congr h (by omega), labelMatches_congr h (by omega)]

theorem mbrEntry_congr {f g : ℕ → UInt8} (h : ∀ j < 512, f j = g j) {i : ℕ} (hi : i < 4) :
    mbrEntry f i = mbrEntry g i := by
  have hb (k : ℕ) (hk : k < 16) : f (446 + 16 * i + k) = g (446 + 16 * i + k) := h _ (by omega)
  have h0 : f (446 + 16 * i) = g (446 + 16 * i) := hb 0 (by omega)
  simp only [mbrEntry, word16, word32, Nat.add_assoc, MbrEntry.mk.injEq]
  simp only [Nat.add_assoc] at hb h0
  simp [h0, hb]

/-- **What one round finds**: the label, exactly if the entry leads to it. -/
theorem found_served (hS : Serves env param contents I) (h512 : sectorSize param = 512)
    (hpos : param.hasExt ≠ 0 → 0 < param.ext.nsectors.toNat) {skip : CString} (e : MbrEntry)
    (buffer : Buffer) {m : Machine σ} (hI : I m.bios) :
    Found skip (readEntry env param e buffer m).val ↔ LeadsToLabel skip param contents e := by
  have hread := readEntry_served hS h512 hpos e buffer hI
  cases hs : followed param e with
  | none =>
    refine iff_of_false ?_ (by simp [LeadsToLabel, hs])
    cases hx : (readEntry env param e buffer m).val with
    | none => exact id
    | some x => exact fun hfound ↦ hread.failed hs x hx hfound.1
  | some s =>
    -- the test of the code looks at what was read, and only at the first 512 bytes of it
    obtain ⟨x, hx, hgot⟩ := hread.got s hs
    rw [hx]
    simp [Found, LeadsToLabel, hs, hgot.ret, hgot.size, carriesLabel_congr hgot.bytes (by decide)]

/-- **The scan of the table** decides by the contents alone: by the four entries, and by the sectors
they lead to. -/
theorem scanTable_served (hS : Serves env param contents I) (h512 : sectorSize param = 512)
    (hpos : param.hasExt ≠ 0 → 0 < param.ext.nsectors.toNat) {opt : Options} {buffer : Buffer}
    (htable : ∀ j < 512, buffer.byte j = contents 0 j) {m : Machine σ} (hI : I m.bios) :
    (scanTable env opt param buffer m).val = 1 ↔
      ∃ i < 4, LeadsToLabel opt.skip param contents (mbrEntry (contents 0) i) := by
  refine scanTable_eq_one_iff opt
    (fun i b m' hI' ↦ (readEntry_served hS h512 hpos _ b hI').keeps) (fun i hi b m' hI' ↦ ?_) hI
  rw [mbrEntry_congr htable hi]
  exact found_served hS h512 hpos _ b hI'

theorem chsSector_first : chsSector param ⟨0, 0, 1⟩ =
    if 1 ≤ param.lastSectorsPerTrack.toNat then some 0 else none := by
  have hvalid : ¬varifyChs ⟨0, 0, 1⟩ < 0 := by decide
  have hout : outsideGeometry param ⟨0, 0, 1⟩ ↔ ¬1 ≤ param.lastSectorsPerTrack.toNat := by
    simp only [outsideGeometry]
    omega
  rw [chsSector, chs2lba, if_neg hvalid]
  by_cases h : 1 ≤ param.lastSectorsPerTrack.toNat
  · rw [if_neg (fun h' ↦ hout.1 h' h), if_pos h]
    have hzero : UInt64.ofInt 0 = 0 := rfl
    simp [hzero]
  · rw [if_pos (hout.2 h), if_neg h]

/-- On a drive with sectors of another size the table is not taken for one. -/
theorem tableRead_of_size (hS : Serves env param contents I) (h512 : sectorSize param ≠ 512)
    {m : Machine σ} (hI : I m.bios) :
    (tableRead env param m).val.ret ≠ 0 ∨ (tableRead env param m).val.size ≠ 512 := by
  rw [tableRead]
  by_cases h : chsRefused false param ⟨0, 0, 1⟩ 1 labelBufferSize
  · rw [readSectorsChs, sectorChsRw_of_refused h]
    exact Or.inl (Int.negSucc_ne_zero 0)
  · have hin : chsSector param ⟨0, 0, 1⟩ = some 0 := by
      rw [chsSector_first, if_pos]
      by_contra hspt
      refine h (Or.inr (Or.inr (Or.inr (Or.inr (Or.inr ?_)))))
      simp only [outsideGeometry]
      omega
    obtain ⟨q, hq⟩ : ∃ q, q = chsAsk env false param ⟨0, 0, 1⟩ 1
      ⟨labelBufferSize.toNat, env.stack m.ticks⟩ labelBufferSize (labelMachine m).area := ⟨_, rfl⟩
    have hsought : sought param q = some 0 := by rw [hq, sought_chsAsk (by decide), hin]
    have hd := hS.delivers m.bios q 0 hI (by rw [hq]; exact aimsAtBuffer_chsAsk _)
      (by rw [hq]; rfl) hsought
    refine Or.inr ?_
    rwa [(readSectorsChs_delivered h hq hd).size]

/-- **What the scan answers**, by the contents of the disk. -/
theorem containFatLabel_served (hS : Serves env param contents I)
    (hpos : param.hasExt ≠ 0 → 0 < param.ext.nsectors.toNat) {opt : Options} (str : CString)
    {m : Machine σ} (hI : I m.bios) :
    (containFatLabel env opt param str m).val = 1 ↔
      sectorSize param = 512 ∧ 1 ≤ param.lastSectorsPerTrack.toNat ∧
        ∃ i < 4, LeadsToLabel opt.skip param contents (mbrEntry (contents 0) i) := by
  rw [containFatLabel_val]
  by_cases h512 : sectorSize param = 512
  · have hread := readSectorsChs_served hS h512 ⟨0, 0, 1⟩
      ⟨labelBufferSize.toNat, env.stack m.ticks⟩ (m := labelMachine m) hI
    rw [← tableRead, chsSector_first] at hread
    by_cases hspt : 1 ≤ param.lastSectorsPerTrack.toNat
    · rw [if_pos hspt] at hread
      have hgot := hread.got 0 rfl
      rw [if_neg (by simp [hgot.ret, hgot.size]),
        scanTable_served hS h512 hpos hgot.bytes hread.keeps]
      simp [h512, hspt]
    · rw [if_neg hspt] at hread
      rw [if_pos (Or.inl (hread.failed rfl))]
      simp [hspt]
  · rw [if_pos (tableRead_of_size hS h512 hI)]
    simp [h512]

end reads

end Dwipe

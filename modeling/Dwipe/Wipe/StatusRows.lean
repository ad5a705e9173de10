import Dwipe.Results.ProgressLine
import Dwipe.Wipe.StatusScreen

/-!
# Where the status screen is drawn

The calls of `cprint` behind each of the drawing functions, and the cells they reach. The lengths of
the messages decide it: all of them fit into their rows but two. The first message about the options
grows with the label, and can reach row 16; the progress line leaves its row **when the time that is
left has more than two digits of hours**, which it has at the start of every large disk, and nothing
blanks the row behind it.

Every line that a run of `wipe_disk` draws is sound (`wipeDisk_soundLines`): a bar of at most 50
characters, a percentage of at most 100, and minutes and seconds below 60.
-/

namespace Dwipe

open Canvas

/-! ### Lengths -/

theorem length_onOff_le (b : Bool) : (onOff b).length ≤ 3 := by
  cases b <;> decide

theorem length_modeText_le (opt : Options) :
    (modeText opt).length ≤ 66 + opt.skip.bytes.length := by
  have h1 := length_onOff_le opt.test
  have h2 := length_onOff_le opt.check
  have h3 := length_onOff_le opt.forceChs
  have hskip : (ascii "| Skip: ").length = 8 := by decide
  have htest : (ascii " | Test ").length = 8 := by decide
  have hdebug : (ascii " | Debug [").length = 10 := by decide
  have hcheck : (ascii "] | Check: ").length = 11 := by decide
  have hforce : (ascii " | Force CHS: ").length = 14 := by decide
  have hend : (ascii " |").length = 2 := by decide
  simp only [modeText, List.length_append, List.length_cons, List.length_nil, hskip, htest, hdebug,
    hcheck, hforce, hend]
  omega

theorem length_wipingText_le (opt : Options) : (wipingText opt).length ≤ 80 := by
  have h1 := length_onOff_le opt.mbr
  have h2 : (modeName opt.mode).length ≤ 4 := by
    cases opt.mode <;> decide
  have hmbr : (ascii "| Write Funny MBR: ").length = 19 := by decide
  have hmode : (ascii " | Wiping Mode: ").length = 16 := by decide
  have hend : (ascii " |").length = 2 := by decide
  simp only [wipingText, List.length_append, hmbr, hmode, hend]
  omega

/-- Up to 999 disks fit into the row of the counters. -/
theorem length_listText_le {total error skiped wiped : UInt32} (h1 : total.toNat < 1000)
    (h2 : error.toNat < 1000) (h3 : skiped.toNat < 1000) (h4 : wiped.toNat < 1000) :
    (listText total error skiped wiped).length ≤ 80 := by
  have hlen {x : UInt32} (hx : x.toNat < 1000) : (fmtZero 2 (asInt x)).length ≤ 3 := by
    rw [asInt_of_lt (by omega)]
    exact (length_fmtZero (k := 3) (by decide) (by decide) (by omega) (by omega)).2
  have hl1 := hlen h1
  have hl2 := hlen h2
  have hl3 := hlen h3
  have hl4 := hlen h4
  have htotal : (ascii "| Total: ").length = 9 := by decide
  have herror : (ascii " | Error: ").length = 10 := by decide
  have hskiped : (ascii " | Skiped: ").length = 11 := by decide
  have hwiped : (ascii " | Wiped: ").length = 10 := by decide
  have hend : (ascii " |").length = 2 := by decide
  simp only [listText, List.length_append, htotal, herror, hskiped, hwiped, hend]
  omega

theorem length_slashed_le {a b c : ℤ} (ha : a.natAbs < 10 ^ 10) (hb : b.natAbs < 10 ^ 10)
    (hc : c.natAbs < 10 ^ 10) : (slashed a b c).length ≤ 35 := by
  have h1 := length_fmtD_le (by decide) ha
  have h2 := length_fmtD_le (by decide) hb
  have h3 := length_fmtD_le (by decide) hc
  have hslash : (ascii "/").length = 1 := by decide
  simp only [slashed, List.length_append, hslash]
  omega

/-! ### The disk -/

/-- The columns and messages of `show_disk_status`, row by row from row 10 on. -/
def diskRows (disk : DiskParam) : List (ℕ × List UInt8) :=
  [(0, ascii "Disk " ++ fmtHex disk.diskId),
    (10, ascii "Drives " ++ fmtD disk.drives.toNat),
    (10, ascii "Legacy C/H/S: " ++ slashed (disk.lastCylinders.toNat + 1)
      (disk.lastHeads.toNat + 1) disk.lastSectorsPerTrack.toNat)] ++
  if disk.hasExt ≠ 0 then
    [(10, ascii "Extent C/H/S: " ++ slashed (asInt disk.ext.ncylinders) (asInt disk.ext.nheads)
        (asInt disk.ext.sectorsPerTrack)),
      (10, ascii "Sector Size: " ++ fmtD disk.ext.bytesPerSector.toNat ++ ascii " B"),
      (10, ascii "Extent Total Sectors: " ++ fmtLlu disk.ext.nsectors)]
  else [(10, ascii "Extent Info: Not Supported"), (10, []), (10, [])]

theorem length_diskRows (disk : DiskParam) : (diskRows disk).length = 6 := by
  rw [diskRows]
  split_ifs <;> rfl

theorem showRow_nil (mem : ℕ → UInt8) (y x : ℕ) : showRow mem y x [] = cleanLine mem y := rfl

theorem showDiskStatus_eq (disk : DiskParam) (mem : ℕ → UInt8) :
    showDiskStatus disk mem = showRows 10 (diskRows disk) mem := by
  rw [showDiskStatus, diskRows]
  split_ifs
  · simp only [List.cons_append, List.nil_append, showRows]
  · simp only [List.cons_append, List.nil_append, showRows, showRow_nil]

/-- **Every message about a disk fits into its row.** -/
theorem diskRows_fit (disk : DiskParam) : ∀ r ∈ diskRows disk, r.1 + r.2.length ≤ 80 := by
  have hdisk : (ascii "Disk ").length = 5 := by decide
  have hdrives : (ascii "Drives ").length = 7 := by decide
  have hlegacy : (ascii "Legacy C/H/S: ").length = 14 := by decide
  have hextent : (ascii "Extent C/H/S: ").length = 14 := by decide
  have hsize : (ascii "Sector Size: ").length = 13 := by decide
  have hunit : (ascii " B").length = 2 := by decide
  have htotal : (ascii "Extent Total Sectors: ").length = 22 := by decide
  have hnone : (ascii "Extent Info: Not Supported").length = 26 := by decide
  have hhex : (fmtHex disk.diskId).length = 2 := rfl
  have h1 : (fmtD disk.drives.toNat).length ≤ 10 + 1 :=
    length_fmtD_le (by decide) (by have := disk.drives.toNat_lt; omega)
  have h2 : (slashed (disk.lastCylinders.toNat + 1) (disk.lastHeads.toNat + 1)
      disk.lastSectorsPerTrack.toNat).length ≤ 35 := by
    have hc := disk.lastCylinders.toNat_lt
    have hh := disk.lastHeads.toNat_lt
    have hs := disk.lastSectorsPerTrack.toNat_lt
    exact length_slashed_le (by omega) (by omega) (by omega)
  have h3 := length_slashed_le (natAbs_asInt_lt disk.ext.ncylinders)
    (natAbs_asInt_lt disk.ext.nheads) (natAbs_asInt_lt disk.ext.sectorsPerTrack)
  have h4 : (fmtD disk.ext.bytesPerSector.toNat).length ≤ 10 + 1 :=
    length_fmtD_le (by decide) (by have := disk.ext.bytesPerSector.toNat_lt; omega)
  have h5 : (fmtLlu disk.ext.nsectors).length ≤ 10 :=
    length_decimal_le (by decide) (by have := disk.ext.nsectors.toUInt32.toNat_lt; omega)
  rw [diskRows]
  split_ifs <;>
    simp only [List.forall_mem_append, List.forall_mem_cons, List.not_mem_nil, false_imp_iff,
      implies_true, and_true, List.length_append, List.length_nil, hdisk, hdrives, hlegacy, hextent,
      hsize, hunit, htotal, hnone, hhex] <;> omega

/-! ### The progress line -/

/-- **The figures of a line that a run draws.** -/
structure ProgressLine.Sound (line : ProgressLine) : Prop where
  width : line.proWidth ≤ 50
  percent : line.percent ≤ 100
  min : line.etaMin < 60
  sec : line.etaSec < 60

/-- A speed below the bound of its unit has three digits. -/
theorem scaledSpeed_lt {bps bound : UInt64} (h : bps < bound) (hb : bound.toNat ≤ 2 ^ 30) :
    (bps * 1000 / bound).toNat < 1000 := by
  have hlt := UInt64.lt_iff_toNat_lt.1 h
  have hmul : (bps * 1000).toNat = bps.toNat * 1000 := by
    rw [UInt64.toNat_mul]
    exact Nat.mod_eq_of_lt (by show bps.toNat * 1000 < 2 ^ 64; omega)
  rw [UInt64.toNat_div, hmul]
  exact Nat.div_lt_of_lt_mul (by omega)

theorem length_fmtFixed_le {n : ℕ} (h : n < 1000) : (fmtFixed n).length ≤ 5 := by
  have hlen : (decimal n).length ≤ 3 := length_decimal_le (by decide) h
  have hpoint : (ascii ".0").length = 2 := by decide
  rw [fmtFixed, List.length_leftpad, List.length_append, hpoint]
  omega

theorem length_speedText_le (bps : UInt64) : (speedText bps).length ≤ 9 := by
  have hunits : (ascii " B/S").length = 4 ∧ (ascii "KB/S").length = 4 ∧
      (ascii "MB/S").length = 4 ∧ (ascii "GB/S").length = 4 := by decide
  obtain ⟨hB, hKB, hMB, hGB⟩ := hunits
  rw [speedText]
  split_ifs with h1 h2 h3 h4
  · rw [List.length_append, hB]
    exact Nat.add_le_add_right (length_fmtFixed_le (scaledSpeed_lt h1 (by decide))) 4
  · rw [List.length_append, hKB]
    exact Nat.add_le_add_right (length_fmtFixed_le (scaledSpeed_lt h2 (by decide))) 4
  · rw [List.length_append, hMB]
    exact Nat.add_le_add_right (length_fmtFixed_le (scaledSpeed_lt h3 (by decide))) 4
  · exact absurd h4 UInt64.not_lt_zero
  · rw [List.length_append, hGB]
    exact Nat.add_le_add_right (length_fmtFixed_le (by decide)) 4

section line

variable {line : ProgressLine} (h : line.Sound)

include h

theorem length_barText : (barText line.proWidth).length = 51 := by
  have hwidth : line.proWidth.toNat ≤ 50 := UInt32.le_iff_toNat_le.1 h.width
  have hbar : (ascii "|").length = 1 := by decide
  have hline : lineWidth.toNat = 50 := by decide
  simp only [barText, List.length_append, List.length_replicate, hbar, hline]
  omega

theorem length_percent : (fmtPad 3 (asInt line.percent.toUInt32)).length = 3 := by
  have hpercent : line.percent.toNat ≤ 100 := UInt64.le_iff_toNat_le.1 h.percent
  have htoNat : line.percent.toUInt32.toNat = line.percent.toNat := by
    rw [UInt64.toNat_toUInt32]
    omega
  have hlen : (fmtD (asInt line.percent.toUInt32)).length ≤ 3 := by
    rw [asInt_of_lt (by omega)]
    exact length_fmtD_le_of_nonneg (by decide) (by omega) (by omega)
  rw [fmtPad, List.length_leftpad]
  omega

/-- The minutes and the seconds have two digits, being remainders; the hours may have more. -/
theorem length_etaText :
    (etaText line).length = (fmtZero 2 (asInt line.etaHour)).length + 6 := by
  have htwo {x : UInt32} (hx : x < 60) : (fmtZero 2 (asInt x)).length = 2 := by
    have hlt : x.toNat < 60 := UInt32.lt_iff_toNat_lt.1 hx
    rw [asInt_of_lt (by omega)]
    have hlen := @length_fmtZero x.toNat 2 2 (by decide) (by decide) (by omega) (by omega)
    omega
  have hcolon : (ascii ":").length = 1 := by decide
  simp only [etaText, List.length_append, hcolon, htwo h.min, htwo h.sec]

/-- **The length of the line** depends on the speed and on the hours. -/
theorem length_progressText : (progressText line).length =
    69 + (speedText line.speedBps).length + (fmtZero 2 (asInt line.etaHour)).length := by
  have hbar : (ascii "|").length = 1 := by decide
  have heta : (ascii "%|ETA ").length = 6 := by decide
  simp only [progressText, List.length_append, length_barText h, length_percent h,
    length_etaText h, hbar, heta]
  omega

theorem length_progressText_le : (progressText line).length ≤ 89 := by
  have hspeed := length_speedText_le line.speedBps
  have hhour : (fmtZero 2 (asInt line.etaHour)).length ≤ 10 + 1 :=
    length_fmtZero_le (by decide) (by decide) (natAbs_asInt_lt _)
  have hlen := length_progressText h
  omega

end line

/-! ### The lines of a run -/

section lines

variable {σ : Type} {env : Env σ} {opt : Options} {param : DiskParam}

/-- Every line of the trace is sound, so its length is known but for the digits of the hours. -/
def SoundLines (l : List Event) : Prop := ∀ e ∈ l, ∀ line, e = .progress line → line.Sound

theorem soundLines_appends : TraceM.Appends SoundLines := TraceM.appends_forall _

/-- The lines `update_progress` draws. -/
theorem updateProgress_line {progress : Progress} {n : UInt64} {m : Machine σ} {line : ProgressLine}
    (h : .progress line ∈ (updateProgress env progress n m).events) :
    ∃ done bps, line = progress.line done bps := by
  by_cases hsame : progress.savedProWidth = progress.width (progress.advanced n) ∧ progress.reset
  · -- nothing is drawn if the bar has not grown
    have hevents : (updateProgress env progress n m).events =
        [.account progress.totalBytes (progress.advanced n),
          .divide progress.totalBytes.toNat] := by
      simp only [Progress.width, Progress.advanced] at hsame
      simp only [updateProgress, TraceM.run_bind, if_pos hsame]
      rfl
    rw [hevents] at h
    simp at h
  · obtain ⟨bps, ds, hevents⟩ : ∃ bps, ∃ ds : List ℕ, (updateProgress env progress n m).events =
        .account progress.totalBytes (progress.advanced n) :: (ds.map Event.divide ++
          [.progress (progress.line (progress.advanced n) bps)]) := by
      simp only [Progress.width, Progress.advanced] at hsame
      simp only [updateProgress, TraceM.run_bind, if_neg hsame]
      exact ⟨_, _ :: _ :: _ :: _ :: speedDivisors _, rfl⟩
    rw [hevents] at h
    simp only [List.mem_cons, List.mem_append, List.mem_map, reduceCtorEq, and_false, exists_false,
      List.not_mem_nil, or_false, false_or, Event.progress.injEq] at h
    exact ⟨_, bps, h⟩

theorem updateProgress_soundLines {progress : Progress} (h : progress.Sound) (n : UInt64) :
    TraceM.Records SoundLines Progress.Sound (updateProgress env progress n) := by
  intro m
  obtain ⟨hlines, hsound⟩ : LinesSound _ ∧ Progress.Sound _ := updateProgress_sound h n m
  refine ⟨?_, hsound⟩
  rintro e he line rfl
  obtain ⟨hwidth, hpercent⟩ := hlines _ he line rfl
  obtain ⟨done, bps, hline⟩ := updateProgress_line he
  obtain ⟨eta, heta⟩ : ∃ eta : UInt64, eta = (progress.totalBytes - done) / bps := ⟨_, rfl⟩
  refine ⟨hwidth, hpercent, ?_, ?_⟩
  · rw [hline, UInt32.lt_iff_toNat_lt]
    show ((progress.totalBytes - done) / bps % 3600 / 60).toUInt32.toNat < 60
    rw [← heta, UInt64.toNat_toUInt32, UInt64.toNat_div, UInt64.toNat_mod]
    show eta.toNat % 3600 / 60 % 2 ^ 32 < 60
    omega
  · rw [hline, UInt32.lt_iff_toNat_lt]
    show ((progress.totalBytes - done) / bps % 3600 % 60).toUInt32.toNat < 60
    rw [← heta, UInt64.toNat_toUInt32, UInt64.toNat_mod, UInt64.toNat_mod]
    show eta.toNat % 3600 % 60 % 2 ^ 32 < 60
    omega

/-- Events that are no lines, about which nothing has to be known. -/
theorem soundLines_of_ne {l : List Event} (h : ∀ e ∈ l, ∀ line, e ≠ .progress line) :
    SoundLines l := fun e he line hline ↦ absurd hline (h e he line)

theorem soundLines_singleton {e : Event} (h : ∀ line, e ≠ .progress line) : SoundLines [e] :=
  soundLines_of_ne fun d hd ↦ by
    rw [List.mem_singleton.1 hd]
    exact h

theorem inside_soundLines : Inside SoundLines where
  toAppends := soundLines_appends
  divide _ _ := soundLines_singleton fun _ h ↦ Event.noConfusion h
  passWrite _ _ := soundLines_singleton fun _ h ↦ Event.noConfusion h

/-- What is not between the transfers is no line. -/
theorem notLine_sound (e : Event) (h : ¬e.Incidental) (line : ProgressLine)
    (hline : e = .progress line) : line.Sound := absurd (by rw [hline]; trivial) h

/-- A transfer draws nothing. -/
theorem callMoves_soundLines {offset : UInt64} {n size : UInt32} (len : ℕ) :
    CallMoves env opt param SoundLines offset n size len := callMoves_forall notLine_sound len

/-- A call of `wipe_sectors_lba` draws nothing. -/
theorem wipeCall_soundLines {offset : UInt64} {n : UInt32} {b : Buffer} {len : ℕ}
    (hb : b.len = len) :
    TraceM.Records SoundLines (fun x ↦ x.buffer.len = len) (wipeCall env opt param offset n b) := by
  have hT := soundLines_appends
  have h : CallMoves env opt param SoundLines offset n wipeBufferSize len :=
    callMoves_soundLines len
  have hcall : TraceM.Records SoundLines (fun x : Xfer ↦ x.buffer.len = len)
      (wipeSectorsLba env opt param offset n b wipeBufferSize) := by
    by_cases hext : param.hasExt ≠ 0
    · exact wipeSectorsLba_records inside_soundLines h (fun h0 ↦ absurd h0 hext) hb
    · rw [wipeSectorsLba, if_neg hext]
      refine (TraceM.records_emitAll ?_).bind hT fun _ _ ↦ ?_
      · refine soundLines_of_ne fun e he line hline ↦ ?_
        obtain ⟨d, -, rfl⟩ := List.mem_map.1 he
        exact Event.noConfusion hline
      · cases ha : lba2chs param offset with
        | none => exact TraceM.records_pure hT hb
        | some a =>
          show TraceM.Records SoundLines _ (wipeSectorsChs env opt param a n b wipeBufferSize)
          rw [wipeSectorsChs_eq]
          refine branch_records inside_soundLines (fun htest ↦ ?_) (fun htest b hb ↦ ?_) hb hb
          · exact ((h.readChs (not_not.1 hext) htest a ha b hb).val fun m ↦
              (readSectorsChs_len m).trans hb).mono fun _ h ↦ h.2
          · exact ((h.writeChs (not_not.1 hext) htest a ha b hb).val fun m ↦
              (writeSectorsChs_len m).trans hb).mono fun _ h ↦ h.2
  rw [wipeCall]
  refine hcall.bind hT fun x hx ↦ ?_
  exact (TraceM.records_emit (soundLines_singleton fun _ h ↦ Event.noConfusion h)).bind hT
    fun _ _ ↦ TraceM.records_pure hT hx

/-- The loop variables of a run whose lines are sound. -/
structure SoundState (s : WipeState) : Prop where
  len : s.buffer.len = wipeBufferSize.toNat
  progress : s.progress.Sound

theorem wipeChunks_soundLines {s : WipeState} (hs : SoundState s) :
    TraceM.Records SoundLines (TraceM.Either SoundState fun _ ↦ True)
      (wipeChunks env opt param s) := by
  have hT := soundLines_appends
  rw [wipeChunks_eq]
  refine TraceM.Records.forExit (P := fun _ ↦ SoundState) hT (fun k _ s hs ↦ ?_) hs
  refine (TraceM.records_emit (soundLines_singleton fun _ h ↦ Event.noConfusion h)).bind hT
    fun _ _ ↦ ?_
  refine (wipeCall_soundLines hs.len).bind hT fun x hx ↦ ?_
  refine (updateProgress_soundLines hs.progress _).bind hT fun p hp ↦ ?_
  exact TraceM.Records.ite (fun _ ↦ TraceM.records_pure hT trivial) fun _ ↦
    TraceM.records_pure hT ⟨hx, hp⟩

theorem wipeRemainder_soundLines {s : WipeState} (hs : SoundState s) :
    TraceM.Records SoundLines (TraceM.Either SoundState fun _ ↦ True)
      (wipeRemainder env opt param s) := by
  have hT := soundLines_appends
  rw [wipeRemainder]
  refine TraceM.Records.ite (fun _ ↦ ?_) fun _ ↦ ?_
  · refine (wipeCall_soundLines hs.len).bind hT fun x hx ↦ ?_
    refine TraceM.Records.ite (fun _ ↦ TraceM.records_pure hT trivial) fun _ ↦ ?_
    exact (updateProgress_soundLines hs.progress _).bind hT fun p hp ↦
      TraceM.records_pure hT ⟨hx, hp⟩
  · exact (updateProgress_soundLines hs.progress _).bind hT fun p hp ↦
      TraceM.records_pure hT ⟨hs.len, hp⟩

theorem wipeBuffer_soundLines {b : Buffer} (hb : b.len = wipeBufferSize.toNat) :
    TraceM.Records SoundLines (fun _ ↦ True) (wipeBuffer env opt param b) := by
  have hT := soundLines_appends
  have hreset : TraceM.Records SoundLines Progress.Sound
      (resetProgress env (totalSize opt param)) := by
    refine (gettimeofday_records hT).bind hT fun tv _ ↦ TraceM.records_pure hT ?_
    exact ⟨guarded_ne_zero _, UInt64.zero_le, UInt32.zero_le⟩
  rw [wipeBuffer]
  refine hreset.bind hT fun p hp ↦ ?_
  refine (updateProgress_soundLines hp 0).bind hT fun p hp ↦ ?_
  have hstart : SoundState ⟨-1, b, 0, p⟩ := ⟨hb, hp⟩
  refine (wipeChunks_soundLines hstart).bind hT fun v hv ↦ ?_
  cases v with
  | error ret => exact TraceM.records_pure hT trivial
  | ok s =>
    refine (wipeRemainder_soundLines hv).bind hT fun v hv ↦ ?_
    cases v with
    | error ret => exact TraceM.records_pure hT trivial
    | ok s =>
      show TraceM.Records SoundLines _ (wipeMbr env opt param s)
      rw [wipeMbr]
      refine TraceM.Records.ite (fun _ ↦ ?_) fun _ ↦ TraceM.records_pure hT trivial
      refine (TraceM.records_update hT _).bind hT fun _ _ ↦ ?_
      refine TraceM.Records.bind hT (sectorChsRw_forall notLine_sound _ _) fun x _ ↦ ?_
      exact (TraceM.records_emit (soundLines_singleton fun _ h ↦ Event.noConfusion h)).bind hT
        fun _ _ ↦ TraceM.records_pure hT trivial

/-- **Every line a run of `wipe_disk` draws is sound**, whatever the drive is and does. -/
theorem wipeDisk_soundLines (m : Machine σ) : SoundLines (wipeDisk env opt param m).events := by
  have hT := soundLines_appends
  have hskip : TraceM.Records SoundLines (fun _ ↦ True) (isSkipedDisk env opt param) :=
    isSkipedDisk_records hT fun _ ↦ labelReads_forall notLine_sound
  have hmalloc : TraceM.Records SoundLines (fun v ↦ ∀ b : Buffer, v = some b →
      b.len = wipeBufferSize.toNat) (malloc env wipeBufferSize.toNat) := by
    refine (TraceM.records_read hT).bind hT fun m _ ↦ (TraceM.records_update hT _).bind hT
      fun _ _ ↦ TraceM.records_pure hT ?_
    intro b hb
    obtain ⟨byte, -, rfl⟩ := Option.map_eq_some_iff.1 hb
    rfl
  have hrun : TraceM.Records SoundLines (fun _ ↦ True) (wipeDisk env opt param) := by
    rw [wipeDisk]
    refine hskip.bind hT fun v _ ↦ ?_
    refine (TraceM.records_emit (soundLines_singleton fun _ h ↦ Event.noConfusion h)).bind hT
      fun _ _ ↦ ?_
    refine TraceM.Records.ite (fun _ ↦ TraceM.records_pure hT trivial) fun _ ↦ ?_
    refine hmalloc.bind hT fun w hw ↦ ?_
    cases w with
    | none => exact TraceM.records_pure hT trivial
    | some b => exact wipeBuffer_soundLines (hw b rfl)
  exact (hrun m).1

/-- And so is every line of a round of the wipe loop. -/
theorem wipeListed_soundLines (i : ℕ) (m : Machine σ) :
    SoundLines (wipeListed env opt i m).events := by
  rw [run_wipeListed i rfl]
  exact soundLines_appends.append (wipeDisk_soundLines m)
    (soundLines_singleton fun _ h ↦ Event.noConfusion h)

end lines

end Dwipe

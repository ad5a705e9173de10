import Dwipe.Disk.Sizes
import Dwipe.Machine.Scripts
import Dwipe.Wipe.Walk

/-!
# What is copied and what is reported

The two uses a transfer makes of a size. `*size` comes back as what the caller is told was moved;
the copy is what was moved.

A CHS read tells the truth: it copies what it reports. An extended read clamps the two separately,
the copy by the count in the packet and the report by `AL`, so the two agree **only** when `AL` and
the packet lie on the same side of the count asked for (`reported_size_iff`).
-/

namespace Dwipe

variable {σ : Type} {env : Env σ} {param : DiskParam} {offset : UInt64} {a : Chs}
  {n size : UInt32} {buffer : Buffer} {check : Bool} {m : Machine σ}

/-- **A read reports what it copied**: it has made one copy, of `k` bytes, and `*size` is `k`. -/
structure Reports (k : ℕ) (t : Traced (Machine σ) Event Xfer) : Prop where
  copied : copies t.events = [k]
  size : t.val.size.toNat = k

/-- `AL` and the packet lie on the same side of the count asked for. -/
def Exchange.CountsAgree (n : UInt32) (x : Exchange) : Prop :=
  if n.toNat < x.res.reg.al.toNat then n.toNat ≤ x.res.dap.nsectors.toNat
  else x.res.dap.nsectors.toNat ≤ n.toNat

/-! ### The one exchange of a transfer -/

theorem readSectorsChs_run {x : Exchange}
    (hx : x ∈ exchanges (readSectorsChs env param a n buffer size m).events)
    (hc : x.carry = false) :
    (readSectorsChs env param a n buffer size m).val.size = chsMoved param n x.res ∧
      copies (readSectorsChs env param a n buffer size m).events =
        [(chsMoved param n x.res).toNat] := by
  obtain ⟨h, hx⟩ := eq_of_mem_readSectorsChs hx
  rw [readSectorsChs_of_not_refused h m hx]
  simp [chsReadResult, hc]

theorem readSectorsLba_run {x : Exchange}
    (hx : x ∈ exchanges (readSectorsLba env param offset n buffer size m).events)
    (hc : x.carry = false) :
    (readSectorsLba env param offset n buffer size m).val.size = lbaReported param n x.res ∧
      copies (readSectorsLba env param offset n buffer size m).events =
        [(lbaMoved param n x.res).toNat] := by
  obtain ⟨h, hx⟩ := eq_of_mem_readSectorsLba hx
  rw [readSectorsLba_of_not_refused h m hx]
  simp [lbaReadResult, hc]

theorem writeSectorsLba_run {x : Exchange}
    (hx : x ∈ exchanges (writeSectorsLba env param offset n buffer size check m).events)
    (hc : x.carry = false) :
    (writeSectorsLba env param offset n buffer size check m).val.size =
      lbaReported param n x.res := by
  obtain ⟨h, hx⟩ := eq_of_mem_writeSectorsLba hx
  rw [writeSectorsLba_of_not_refused h m hx]
  simp [hc]

/-! ### Reported sizes -/

/-- **When the reported size is the size moved.** Whatever a BIOS that clears the carry flag puts
into `AL` and into the packet: a CHS read reports the bytes it copied; an extended read does if its
sectors have no bytes or the two counts agree; and an extended write reports no more than it was
asked for if its sectors have no bytes, if `AL` exceeds the count, or if the packet does not. -/
theorem reported_size_iff (env : Env σ) (param : DiskParam) (n size : UInt32) (buffer : Buffer)
    (m : Machine σ) :
    (∀ a, ∀ x ∈ exchanges (readSectorsChs env param a n buffer size m).events, x.carry = false →
      Reports (min x.res.reg.al.toNat n.toNat * (sectorSize param).toNat)
        (readSectorsChs env param a n buffer size m)) ∧
    (∀ offset, ∀ x ∈ exchanges (readSectorsLba env param offset n buffer size m).events,
      x.carry = false →
      (Reports (min x.res.dap.nsectors.toNat n.toNat * param.ext.bytesPerSector.toNat)
          (readSectorsLba env param offset n buffer size m) ↔
        param.ext.bytesPerSector = 0 ∨ x.CountsAgree n)) ∧
    (∀ offset check,
      ∀ x ∈ exchanges (writeSectorsLba env param offset n buffer size check m).events,
      x.carry = false →
      ((writeSectorsLba env param offset n buffer size check m).val.size.toNat ≤
          n.toNat * param.ext.bytesPerSector.toNat ↔
        param.ext.bytesPerSector = 0 ∨ n.toNat < x.res.reg.al.toNat ∨
          x.res.dap.nsectors.toNat ≤ n.toNat)) := by
  have hzero : param.ext.bytesPerSector = 0 ↔ param.ext.bytesPerSector.toNat = 0 :=
    UInt16.toNat_inj.symm
  refine ⟨fun a x hx hc ↦ ?_, fun offset x hx hc ↦ ?_, fun offset check x hx hc ↦ ?_⟩
  · obtain ⟨hsize, hcopies⟩ := readSectorsChs_run hx hc
    exact ⟨by rw [hcopies, chsMoved_toNat], by rw [hsize, chsMoved_toNat]⟩
  · obtain ⟨hsize, hcopies⟩ := readSectorsLba_run hx hc
    have hreports : Reports (min x.res.dap.nsectors.toNat n.toNat *
        param.ext.bytesPerSector.toNat) (readSectorsLba env param offset n buffer size m) ↔
        (if n.toNat < x.res.reg.al.toNat then n.toNat else x.res.dap.nsectors.toNat) *
            param.ext.bytesPerSector.toNat =
          min x.res.dap.nsectors.toNat n.toNat * param.ext.bytesPerSector.toNat := by
      rw [← lbaReported_toNat, ← hsize]
      exact ⟨fun h ↦ h.size, fun h ↦ ⟨by rw [hcopies, lbaMoved_toNat], h⟩⟩
    rw [hreports, hzero, Exchange.CountsAgree]
    by_cases hbps : param.ext.bytesPerSector.toNat = 0
    · simp [hbps]
    · rw [Nat.mul_right_cancel_iff (by omega)]
      split_ifs <;> omega
  · rw [writeSectorsLba_run hx hc, lbaReported_toNat, hzero]
    by_cases hbps : param.ext.bytesPerSector.toNat = 0
    · simp [hbps]
    · rw [Nat.mul_le_mul_right_iff (by omega)]
      split_ifs <;> omega

/-- A BIOS that reads as it is told, and leaves `2` in `AL` and no sectors in the packet. -/
def boasting : Env Unit :=
  Env.ofBios (fun _ q ↦ ⟨false, { q.withStatus 0 with
    reg := { (q.withStatus 0).reg with al := 2 }, dap := { q.dap with nsectors := 0 } }, ()⟩)
    fun _ ↦ 0

/-- An extended read of one sector that reports 512 bytes, though it has copied none. -/
theorem boasting_read :
    ¬∀ x ∈ exchanges (readSectorsLba boasting (DiskParam.ofSectors 1) 0 1 ⟨1024, fun _ ↦ 0⟩ 1024
        (Machine.fresh () 1)).events, x.carry = false →
      Reports (min x.res.dap.nsectors.toNat 1 *
          (DiskParam.ofSectors 1).ext.bytesPerSector.toNat)
        (readSectorsLba boasting (DiskParam.ofSectors 1) 0 1 ⟨1024, fun _ ↦ 0⟩ 1024
          (Machine.fresh () 1)) := by
  intro h
  have hacc : ¬lbaRefused false (DiskParam.ofSectors 1) 0 1 1024 := by decide
  rw [readSectorsLba_of_not_refused hacc _ rfl] at h
  have hsize := (h _ List.mem_cons_self rfl).size
  exact absurd hsize (by decide)

/-! ### Every transfer of a run -/

/-- In every transfer of the trace, `*size` is at most the length of the buffer. -/
def SizesFit (l : List Event) : Prop := ∀ z k, .transfer z k ∈ l → z.toNat ≤ k

theorem sizesFit_framed : Framed SizesFit where
  nil := fun _ _ h ↦ absurd h List.not_mem_nil
  append h h' z k hmem := (List.mem_append.1 hmem).elim (h z k) (h' z k)
  incidental e he z k hmem := by
    obtain rfl := List.mem_singleton.1 hmem
    exact he.elim

/-- A trace that enters one transfer. -/
theorem sizesFit_of_fit {size : UInt32} {len : ℕ} {l : List Event} (h : size.toNat ≤ len)
    (hl : ∀ z k, .transfer z k ∉ l) : SizesFit (.transfer size len :: l) := by
  intro z k hmem
  rcases List.mem_cons.1 hmem with heq | hmem
  · obtain ⟨rfl, rfl⟩ := Event.transfer.inj heq
    exact h
  · exact absurd hmem (hl z k)

theorem sectorChsRw_sizesFit (h : size.toNat ≤ buffer.len) (isWrite check : Bool) :
    TraceM.Records SizesFit (fun _ ↦ True)
      (sectorChsRw env isWrite param a n buffer size check) := by
  refine fun m ↦ ⟨?_, trivial⟩
  by_cases hr : chsRefused isWrite param a n size
  · rw [sectorChsRw_of_refused hr]
    exact sizesFit_of_fit h (by simp)
  cases isWrite with
  | true =>
    obtain ⟨xs, hevents, -⟩ : ∃ xs : List Exchange,
        (writeSectorsChs env param a n buffer size check m).events = _ ∧ _ :=
      writeSectorsChs_shape hr m rfl
    rw [← writeSectorsChs, hevents]
    exact sizesFit_of_fit h (by simp)
  | false =>
    rw [sectorChsRw_read, readSectorsChs_of_not_refused hr m rfl]
    refine sizesFit_of_fit h fun z k ↦ ?_
    split_ifs <;> simp

theorem sectorsLbaRw_sizesFit (h : size.toNat ≤ buffer.len) (isWrite check : Bool) :
    TraceM.Records SizesFit (fun _ ↦ True)
      (sectorsLbaRw env isWrite param offset n buffer size check) := by
  refine fun m ↦ ⟨?_, trivial⟩
  by_cases hr : lbaRefused isWrite param offset n size
  · rw [sectorsLbaRw_of_refused hr]
    exact sizesFit_of_fit h (by simp)
  cases isWrite with
  | true =>
    rw [← writeSectorsLba, writeSectorsLba_of_not_refused hr m rfl]
    exact sizesFit_of_fit h (by simp)
  | false =>
    rw [sectorsLbaRw_read hr m rfl]
    refine sizesFit_of_fit h fun z k ↦ ?_
    split_ifs <;> simp

/-- **In every transfer of a run of `do_main`** the size fits the buffer. -/
theorem doMain_sizesFit (opt : Options) (uninit : Extensions) :
    TraceM.Records SizesFit (fun _ ↦ True) (doMain env opt uninit) := by
  have hcall (param : DiskParam) (offset : UInt64) (n : UInt32) :
      CallMoves env opt param SizesFit offset n wipeBufferSize wipeBufferSize.toNat :=
    { readLba := fun _ _ b hb ↦ sectorsLbaRw_sizesFit hb.ge _ _
      writeLba := fun _ _ b hb ↦ sectorsLbaRw_sizesFit hb.ge _ _
      readChs := fun _ _ a _ b hb ↦ sectorChsRw_sizesFit hb.ge _ _
      writeChs := fun _ _ a _ b hb ↦ sectorChsRw_sizesFit hb.ge _ _ }
  refine doMain_records sizesFit_framed (fun x z k h ↦ ?_) (fun param ↦ ?_) (fun param ↦ ?_) uninit
  · exact absurd (List.mem_singleton.1 h) (by simp)
  · exact ⟨fun a b hb ↦ sectorChsRw_sizesFit hb.ge _ _,
      fun offset b hb ↦ sectorsLbaRw_sizesFit hb.ge _ _⟩
  · exact ⟨fun offset n _ ↦ hcall param offset n,
      fun _ b hb ↦ sectorChsRw_sizesFit (by rw [hb]; decide) _ _⟩

/-- **No transfer overruns a buffer.** Whatever the disk, the arguments and the BIOS are, a copy of
either transfer function fits into `real_buffer` and into `*size` as it was given, and no size is
the remainder of a product that did not fit 32 bits; and in every transfer of a run of `do_main`,
`*size` is at most the length of the buffer it stands for. -/
theorem transfers_fit (env : Env σ) :
    (∀ isWrite param a n buffer size check m,
      ∀ k ∈ copies (sectorChsRw env isWrite param a n buffer size check m).events,
        k ≤ maxSectorBufferSize.toNat ∧ k ≤ size.toNat) ∧
    (∀ isWrite param offset n buffer size check m,
      ∀ k ∈ copies (sectorsLbaRw env isWrite param offset n buffer size check m).events,
        k ≤ maxSectorBufferSize.toNat ∧ k ≤ size.toNat) ∧
    (∀ (param : DiskParam) (n : UInt32), ¬n > biosMaxSectorCnt →
      (n * sectorSize param).toNat = n.toNat * (sectorSize param).toNat ∧
      (n * param.ext.bytesPerSector.toUInt32).toNat =
        n.toNat * param.ext.bytesPerSector.toNat) ∧
    (∀ param n (r : RealArea),
      (chsMoved param n r).toNat = min r.reg.al.toNat n.toNat * (sectorSize param).toNat ∧
      (lbaMoved param n r).toNat =
        min r.dap.nsectors.toNat n.toNat * param.ext.bytesPerSector.toNat ∧
      (lbaReported param n r).toNat =
        (if n.toNat < r.reg.al.toNat then n.toNat else r.dap.nsectors.toNat) *
          param.ext.bytesPerSector.toNat) ∧
    (∀ opt uninit m size len, .transfer size len ∈ (doMain env opt uninit m).events →
      size.toNat ≤ len) := by
  refine ⟨fun isWrite param a n buffer size check m ↦ sectorChsRw_copies isWrite check m,
    fun isWrite param offset n buffer size check m ↦ sectorsLbaRw_copies isWrite check m,
    fun param n hn ↦ ?_, fun param n r ↦ ?_, fun opt uninit m size len h ↦ ?_⟩
  · have hn' := count_le_iff.1 hn
    exact ⟨chsProduct_toNat hn', lbaProduct_toNat hn'⟩
  · exact ⟨chsMoved_toNat, lbaMoved_toNat, lbaReported_toNat⟩
  · exact (doMain_sizesFit opt uninit m).1 size len h

end Dwipe

import Dwipe.Disk.Requests

/-!
# What a transfer does

The request layer, function by function: what is refused, what is asked of the BIOS when nothing
is, and what comes back. Everything above this module uses these lemmas and never unfolds a
transfer.

The checks at the head of `sector_chs_rw` and `sectors_lba_rw` have no effect between them and all
answer `-1`, so each list of checks is one predicate, `chsRefused` and `lbaRefused`. A refused
request changes nothing and asks nothing; any other request asks the BIOS, and its returned value is
the `Exchange.status` of its **last** exchange — for a checked CHS write that may be the write, when
it failed or fell short, or the verification.
-/

namespace Dwipe

variable {σ : Type} (env : Env σ)

/-! ### One exchange -/

/-- The exchange that `req` gives rise to in `m`. -/
def exchangeAt (m : Machine σ) (req : RealArea) : Exchange :=
  ⟨m.site, req, (env.int13 m.bios req).carry, (env.int13 m.bios req).area⟩

/-- The machine after that exchange: the BIOS has answered in the area, and nothing else has
moved. -/
def Machine.ask (m : Machine σ) (req : RealArea) : Machine σ :=
  { m with area := (env.int13 m.bios req).area, bios := (env.int13 m.bios req).bios }

/-- The status byte of a failed exchange, and 0 for one that succeeded. With `check`, a write that
is the last exchange of its call has not been verified, and counts as failed. -/
def Exchange.status (check : Bool) (x : Exchange) : ℤ :=
  if x.carry ∨ (check ∧ x.req.reg.ah = 0x03) then x.res.reg.ah.toNat else 0

theorem Exchange.status_nonneg (check : Bool) (x : Exchange) : 0 ≤ x.status check := by
  rw [Exchange.status]
  split_ifs <;> omega

/-! ### The requests -/

/-- The area with the payload of a write copied in. -/
def RealArea.withPayload (r : RealArea) (buffer : Buffer) (n : ℕ) : RealArea :=
  { r with buffer := memcpy r.buffer buffer.byte n }

/-- The area as a CHS request passes it to the BIOS. -/
def chsRequest (param : DiskParam) (a : Chs) (nsector : UInt32) (ah : UInt8) (r : RealArea) :
    RealArea :=
  { r with reg := { r.reg.setCx (setChsToPack a.cylinder.toNat a.sector.toNat) with
      dh := UInt8.ofNat a.head.toNat
      al := nsector.toUInt8
      ah := ah
      bl := UInt8.ofNat (env.bufferOffset.toNat % 256)
      bh := UInt8.ofNat (env.bufferOffset.toNat / 256)
      dl := param.diskId
      es := 0x1000
      si := 0 } }

/-- The area as an extended request passes it to the BIOS. -/
def lbaRequest (param : DiskParam) (offset : UInt64) (nsector : UInt32) (al ah : UInt8)
    (r : RealArea) : RealArea :=
  { r with
    dap := { size := 0x10, unused := 0, nsectors := nsector.toUInt16,
             offset := env.bufferOffset, base := 0x1000, begin := offset }
    reg := { r.reg with
      al := al, ah := ah, bl := 0, bh := 0, ch := 0, cl := 0, dh := 0
      dl := param.diskId
      si := env.dapOffset } }

section fields

variable {param : DiskParam} {a : Chs} {offset : UInt64} {n : UInt32} {al ah : UInt8}
  {r : RealArea}

@[simp] theorem chsRequest_ah : (chsRequest env param a n ah r).reg.ah = ah := rfl

@[simp] theorem chsRequest_al : (chsRequest env param a n ah r).reg.al = n.toUInt8 := rfl

@[simp] theorem chsRequest_dl : (chsRequest env param a n ah r).reg.dl = param.diskId := rfl

@[simp] theorem chsRequest_dh :
    (chsRequest env param a n ah r).reg.dh = UInt8.ofNat a.head.toNat := rfl

@[simp] theorem chsRequest_cx : (chsRequest env param a n ah r).reg.cx =
    setChsToPack a.cylinder.toNat a.sector.toNat :=
  RegReq.cx_setCx r.reg _

@[simp] theorem chsRequest_buffer : (chsRequest env param a n ah r).buffer = r.buffer := rfl

@[simp] theorem lbaRequest_ah : (lbaRequest env param offset n al ah r).reg.ah = ah := rfl

@[simp] theorem lbaRequest_al : (lbaRequest env param offset n al ah r).reg.al = al := rfl

@[simp] theorem lbaRequest_dl :
    (lbaRequest env param offset n al ah r).reg.dl = param.diskId := rfl

@[simp] theorem lbaRequest_begin :
    (lbaRequest env param offset n al ah r).dap.begin = offset := rfl

@[simp] theorem lbaRequest_nsectors :
    (lbaRequest env param offset n al ah r).dap.nsectors = n.toUInt16 := rfl

@[simp] theorem lbaRequest_buffer :
    (lbaRequest env param offset n al ah r).buffer = r.buffer := rfl

end fields

section aims

variable {param : DiskParam} {a : Chs} {offset : UInt64} {n : UInt32} {al ah : UInt8}
  {r : RealArea}

theorem aimsAtBuffer_chsRequest (h : ah ≠ 0x42 ∧ ah ≠ 0x43) :
    AimsAtBuffer env (chsRequest env param a n ah r) :=
  ⟨fun _ ↦ ⟨rfl, rfl, rfl⟩, fun hah ↦ (hah.elim h.1 h.2).elim⟩

theorem aimsAtBuffer_lbaRequest (h : ah ≠ 0x02 ∧ ah ≠ 0x03) :
    AimsAtBuffer env (lbaRequest env param offset n al ah r) :=
  ⟨fun hah ↦ (hah.elim h.1 h.2).elim, fun _ ↦ ⟨rfl, rfl, rfl, rfl, rfl⟩⟩

end aims

/-! ### Refusals -/

/-- The checks of `sector_chs_rw` as one condition on the arguments: with it no request is
issued. -/
def chsRefused (isWrite : Bool) (param : DiskParam) (a : Chs) (nsector size : UInt32) : Prop :=
  varifyChs a < 0 ∨ nsector > biosMaxSectorCnt ∨ nsector * sectorSize param > size ∨
    nsector * sectorSize param > maxSectorBufferSize ∨ (isWrite ∧ size > maxSectorBufferSize) ∨
    outsideGeometry param a

instance (isWrite : Bool) (param : DiskParam) (a : Chs) (nsector size : UInt32) :
    Decidable (chsRefused isWrite param a nsector size) :=
  inferInstanceAs (Decidable (_ ∨ _ ∨ _ ∨ _ ∨ _ ∨ _))

/-- The checks of `sectors_lba_rw` as one condition on the arguments: with it no request is
issued. -/
def lbaRefused (isWrite : Bool) (param : DiskParam) (offset : UInt64) (nsector size : UInt32) :
    Prop :=
  param.hasExt = 0 ∨ offset > param.ext.nsectors - 1 ∨ nsector > biosMaxSectorCnt ∨
    nsector * param.ext.bytesPerSector.toUInt32 > maxSectorBufferSize ∨
    nsector * param.ext.bytesPerSector.toUInt32 > size ∨ (isWrite ∧ size > maxSectorBufferSize)

instance (isWrite : Bool) (param : DiskParam) (offset : UInt64) (nsector size : UInt32) :
    Decidable (lbaRefused isWrite param offset nsector size) :=
  inferInstanceAs (Decidable (_ ∨ _ ∨ _ ∨ _ ∨ _ ∨ _))

variable {env} {isWrite check : Bool} {param : DiskParam} {a : Chs} {offset : UInt64}
  {nsector size : UInt32} {buffer : Buffer}

theorem sectorChsRw_of_refused (h : chsRefused isWrite param a nsector size) (m : Machine σ) :
    sectorChsRw env isWrite param a nsector buffer size check m =
      ⟨⟨-1, buffer, size⟩, m, [.transfer size buffer.len]⟩ := by
  simp only [sectorChsRw, TraceM.run_bind, TraceM.run_emit, TraceM.run_ite, TraceM.run_pure]
  split_ifs <;> first | rfl | (exfalso; simp_all [chsRefused])

theorem sectorChsRw_of_not_refused (h : ¬chsRefused isWrite param a nsector size) :
    sectorChsRw env isWrite param a nsector buffer size check = (do
      TraceM.emit (.transfer size buffer.len)
      chsTransfer env isWrite param a nsector buffer size check) := by
  simp only [chsRefused, not_or] at h
  obtain ⟨h1, h2, h3, h4, h5, h6⟩ := h
  simp only [sectorChsRw, h1, h2, h3, h4, h5, h6, if_false]

theorem sectorsLbaRw_of_refused (h : lbaRefused isWrite param offset nsector size)
    (m : Machine σ) :
    sectorsLbaRw env isWrite param offset nsector buffer size check m =
      ⟨⟨-1, buffer, size⟩, m, [.transfer size buffer.len]⟩ := by
  simp only [sectorsLbaRw, TraceM.run_bind, TraceM.run_emit, TraceM.run_ite, TraceM.run_pure]
  split_ifs <;> first | rfl | (exfalso; simp_all [lbaRefused])

theorem sectorsLbaRw_of_not_refused (h : ¬lbaRefused isWrite param offset nsector size) :
    sectorsLbaRw env isWrite param offset nsector buffer size check = (do
      TraceM.emit (.transfer size buffer.len)
      lbaTransfer env isWrite param offset nsector buffer size check) := by
  simp only [lbaRefused, not_or] at h
  obtain ⟨h1, h2, h3, h4, h5, h6⟩ := h
  simp only [sectorsLbaRw, h1, h2, h3, h4, h5, h6, or_self, if_false]

/-! ### Extended transfers -/

/-- The request of an extended transfer, as `int13_3` completes it. -/
def lbaAsk (env : Env σ) (isWrite : Bool) (param : DiskParam) (offset : UInt64)
    (nsector : UInt32) (buffer : Buffer) (size : UInt32) (check : Bool) (r : RealArea) :
    RealArea :=
  lbaRequest env param offset nsector (if check then 1 else 0) (if isWrite then 0x43 else 0x42)
    (if isWrite then r.withPayload buffer size.toNat else r)

theorem aimsAtBuffer_lbaAsk (r : RealArea) :
    AimsAtBuffer env (lbaAsk env isWrite param offset nsector buffer size check r) :=
  aimsAtBuffer_lbaRequest env (by cases isWrite <;> decide)

theorem run_lbaIssue (m : Machine σ) {x : Exchange}
    (hx : x = exchangeAt env m
      (lbaAsk env isWrite param offset nsector buffer size check m.area)) :
    lbaIssue env isWrite param offset nsector buffer size check m =
      ⟨if x.carry then 1 else 0, m.ask env x.req,
        (if isWrite then [.copy size.toNat] else []) ++ [.int13 x]⟩ := by
  subst hx
  cases isWrite <;> rfl

theorem exchangeAt_area {m : Machine σ} {x : Exchange} {req : RealArea}
    (hx : x = exchangeAt env m req) : (m.ask env x.req).area = x.res := by
  subst hx
  rfl

/-- **An extended write that is not refused** is one exchange. -/
theorem writeSectorsLba_of_not_refused (h : ¬lbaRefused true param offset nsector size)
    (m : Machine σ) {x : Exchange}
    (hx : x = exchangeAt env m (lbaAsk env true param offset nsector buffer size check m.area)) :
    writeSectorsLba env param offset nsector buffer size check m =
      ⟨⟨x.status check, buffer, if x.carry then size else lbaReported param nsector x.res⟩,
        m.ask env x.req, [.transfer size buffer.len, .copy size.toNat, .int13 x]⟩ := by
  have hah : x.req.reg.ah = 0x43 := by rw [hx]; rfl
  rw [writeSectorsLba, sectorsLbaRw_of_not_refused h]
  rcases hc : x.carry with - | -
  · simp [TraceM.run_bind, lbaTransfer, run_lbaIssue m hx, hc, readArea, Exchange.status, hah,
      exchangeAt_area hx]
  · simp [TraceM.run_bind, lbaTransfer, run_lbaIssue m hx, hc, readArea, Exchange.status,
      exchangeAt_area hx]

/-- What an extended read answers, by its exchange: status, buffer and count, as functions of the
answer of the BIOS. -/
def lbaReadResult (param : DiskParam) (nsector : UInt32) (buffer : Buffer) (size : UInt32)
    (x : Exchange) : Xfer :=
  if x.carry then ⟨x.res.reg.ah.toNat, buffer, size⟩
  else
    ⟨0, ⟨buffer.len, memcpy buffer.byte x.res.buffer (lbaMoved param nsector x.res).toNat⟩,
      lbaReported param nsector x.res⟩

/-- **An extended read that is not refused** is one exchange; the buffer changes only on success. -/
theorem sectorsLbaRw_read (h : ¬lbaRefused false param offset nsector size)
    (m : Machine σ) {x : Exchange}
    (hx : x = exchangeAt env m (lbaAsk env false param offset nsector buffer size check m.area)) :
    sectorsLbaRw env false param offset nsector buffer size check m =
      ⟨lbaReadResult param nsector buffer size x, m.ask env x.req,
        .transfer size buffer.len :: .int13 x ::
          if x.carry then [] else [.copy (lbaMoved param nsector x.res).toNat]⟩ := by
  rw [sectorsLbaRw_of_not_refused h]
  rcases hc : x.carry with - | -
  · simp [TraceM.run_bind, lbaTransfer, run_lbaIssue m hx, hc, readArea, lbaReadResult,
      exchangeAt_area hx, copyFromReal]
  · simp [TraceM.run_bind, lbaTransfer, run_lbaIssue m hx, hc, readArea, lbaReadResult,
      exchangeAt_area hx]

theorem readSectorsLba_of_not_refused (h : ¬lbaRefused false param offset nsector size)
    (m : Machine σ) {x : Exchange}
    (hx : x = exchangeAt env m (lbaAsk env false param offset nsector buffer size false m.area)) :
    readSectorsLba env param offset nsector buffer size m =
      ⟨lbaReadResult param nsector buffer size x, m.ask env x.req,
        .transfer size buffer.len :: .int13 x ::
          if x.carry then [] else [.copy (lbaMoved param nsector x.res).toNat]⟩ :=
  sectorsLbaRw_read h m hx

/-! ### CHS transfers -/

/-- The request of a CHS read or write, as `int13_2` completes it. -/
def chsAsk (env : Env σ) (isWrite : Bool) (param : DiskParam) (a : Chs) (nsector : UInt32)
    (buffer : Buffer) (size : UInt32) (r : RealArea) : RealArea :=
  chsRequest env param a nsector (if isWrite then 0x03 else 0x02)
    (if isWrite then r.withPayload buffer size.toNat else r)

theorem aimsAtBuffer_chsAsk (r : RealArea) :
    AimsAtBuffer env (chsAsk env isWrite param a nsector buffer size r) :=
  aimsAtBuffer_chsRequest env (by cases isWrite <;> decide)

theorem run_chsIssue (m : Machine σ) {x : Exchange}
    (hx : x = exchangeAt env m (chsAsk env isWrite param a nsector buffer size m.area)) :
    chsIssue env isWrite param a nsector buffer size m =
      ⟨if x.carry then 1 else 0, m.ask env x.req,
        (if isWrite then [.copy size.toNat] else []) ++ [.int13 x]⟩ := by
  subst hx
  cases isWrite <;> rfl

/-- What a CHS read answers, by its exchange: status, buffer and count, as functions of the answer
of the BIOS. -/
def chsReadResult (param : DiskParam) (nsector : UInt32) (buffer : Buffer) (size : UInt32)
    (x : Exchange) : Xfer :=
  if x.carry then ⟨x.res.reg.ah.toNat, buffer, size⟩
  else
    ⟨0, ⟨buffer.len, memcpy buffer.byte x.res.buffer (chsMoved param nsector x.res).toNat⟩,
      chsMoved param nsector x.res⟩

/-- A read is not checked, whatever it is told. -/
theorem sectorChsRw_read (check : Bool) :
    sectorChsRw env false param a nsector buffer size check =
      readSectorsChs env param a nsector buffer size := by
  simp only [readSectorsChs, sectorChsRw, chsTransfer, Bool.false_eq_true, and_false, if_false]

/-- **A CHS read that is not refused** is one exchange. -/
theorem readSectorsChs_of_not_refused (h : ¬chsRefused false param a nsector size)
    (m : Machine σ) {x : Exchange}
    (hx : x = exchangeAt env m (chsAsk env false param a nsector buffer size m.area)) :
    readSectorsChs env param a nsector buffer size m =
      ⟨chsReadResult param nsector buffer size x, m.ask env x.req,
        .transfer size buffer.len :: .int13 x ::
          if x.carry then [] else [.copy (chsMoved param nsector x.res).toNat]⟩ := by
  rw [readSectorsChs, sectorChsRw_of_not_refused h]
  rcases hc : x.carry with - | -
  · simp [TraceM.run_bind, chsTransfer, run_chsIssue m hx, hc, readArea, chsReadResult,
      exchangeAt_area hx, copyFromReal]
  · simp [TraceM.run_bind, chsTransfer, run_chsIssue m hx, hc, readArea, chsReadResult,
      exchangeAt_area hx]

/-- The verification of an accepted write is refused exactly when the write fell short. -/
theorem sectorChsVerify_of_short (h : ¬chsRefused isWrite param a nsector size) {moved : UInt32}
    (hshort : nsector * sectorSize param > moved) (m : Machine σ) :
    sectorChsVerify env param a nsector moved m = ⟨-1, m, []⟩ := by
  simp only [chsRefused, not_or] at h
  simp [sectorChsVerify, h.1, h.2.1, hshort]

theorem run_verifyIssue (m : Machine σ) {y : Exchange}
    (hy : y = exchangeAt env m (chsRequest env param a nsector 0x04 m.area)) :
    verifyIssue env param a nsector m =
      ⟨if y.carry then 1 else 0, m.ask env y.req, [.int13 y]⟩ := by
  subst hy
  rfl

theorem sectorChsVerify_of_full (h : ¬chsRefused isWrite param a nsector size) {moved : UInt32}
    (hfull : ¬nsector * sectorSize param > moved) (m : Machine σ) {y : Exchange}
    (hy : y = exchangeAt env m (chsRequest env param a nsector 0x04 m.area)) :
    sectorChsVerify env param a nsector moved m =
      ⟨y.status false, m.ask env y.req, [.int13 y]⟩ := by
  simp only [chsRefused, not_or] at h
  obtain ⟨h1, h2, -, h4, -, h6⟩ := h
  simp only [sectorChsVerify, h1, h2, h4, h6, hfull, if_false]
  rcases hc : y.carry with - | -
  · simp [TraceM.run_bind, run_verifyIssue m hy, hc, readArea, Exchange.status,
      exchangeAt_area hy]
  · simp [TraceM.run_bind, run_verifyIssue m hy, hc, readArea, Exchange.status,
      exchangeAt_area hy]

/-- The write reported fewer sectors than it was asked for. -/
def Exchange.short (param : DiskParam) (nsector : UInt32) (x : Exchange) : Prop :=
  nsector * sectorSize param > chsMoved param nsector x.res

/-- **A CHS write that is not verified** is one exchange: verification is off, the write failed, or
it fell short and the verification was refused. -/
theorem writeSectorsChs_of_unverified (h : ¬chsRefused true param a nsector size)
    (m : Machine σ) {x : Exchange}
    (hx : x = exchangeAt env m (chsAsk env true param a nsector buffer size m.area))
    (hv : check = false ∨ x.carry = true ∨ x.short param nsector) :
    writeSectorsChs env param a nsector buffer size check m =
      ⟨⟨x.status check, buffer, if x.carry then size else chsMoved param nsector x.res⟩,
        m.ask env x.req, [.transfer size buffer.len, .copy size.toNat, .int13 x]⟩ := by
  have hah : x.req.reg.ah = 0x03 := by rw [hx]; rfl
  rw [writeSectorsChs, sectorChsRw_of_not_refused h]
  rcases hc : x.carry with - | -
  · cases check with
    | false =>
      simp [TraceM.run_bind, chsTransfer, run_chsIssue m hx, hc, readArea, Exchange.status,
        exchangeAt_area hx]
    | true =>
      have hshort : x.short param nsector := by simpa [hc] using hv
      simp [TraceM.run_bind, chsTransfer, run_chsIssue m hx, hc, readArea, Exchange.status, hah,
        exchangeAt_area hx, sectorChsVerify_of_short h hshort]
  · simp [TraceM.run_bind, chsTransfer, run_chsIssue m hx, hc, readArea, Exchange.status,
      exchangeAt_area hx]

/-- **A verified CHS write** is two exchanges, the write and the verification of the same sectors,
and its returned value is the verification's. -/
theorem writeSectorsChs_of_verified (h : ¬chsRefused true param a nsector size)
    (m : Machine σ) {x y : Exchange}
    (hx : x = exchangeAt env m (chsAsk env true param a nsector buffer size m.area))
    (hc : x.carry = false) (hfull : ¬x.short param nsector)
    (hy : y = exchangeAt env (m.ask env x.req) (chsRequest env param a nsector 0x04 x.res)) :
    writeSectorsChs env param a nsector buffer size true m =
      ⟨⟨y.status true, buffer, chsMoved param nsector x.res⟩, (m.ask env x.req).ask env y.req,
        [.transfer size buffer.len, .copy size.toNat, .int13 x, .int13 y]⟩ := by
  have hah : y.req.reg.ah = 0x04 := by rw [hy]; rfl
  have hy' : y = exchangeAt env (m.ask env x.req)
      (chsRequest env param a nsector 0x04 (m.ask env x.req).area) := by
    rw [exchangeAt_area hx]
    exact hy
  have hstatus : y.status true = y.status false := by simp [Exchange.status, hah]
  have hres : (if y.status false = 0 then y.status false else (y.res.reg.ah.toNat : ℤ)) =
      y.status false := by
    rw [Exchange.status]
    split_ifs <;> simp_all
  rw [writeSectorsChs, sectorChsRw_of_not_refused h, hstatus]
  simp [TraceM.run_bind, chsTransfer, run_chsIssue m hx, hc, readArea, exchangeAt_area hx,
    exchangeAt_area hy', sectorChsVerify_of_full h hfull (m.ask env x.req) hy', hres]

/-- **A CHS write that is not refused**, verified or not: one copy of the payload, the write, and
then at most the verification of the same sectors, with the buffer as it was. -/
theorem writeSectorsChs_shape (h : ¬chsRefused true param a nsector size) (m : Machine σ)
    {x : Exchange}
    (hx : x = exchangeAt env m (chsAsk env true param a nsector buffer size m.area)) :
    ∃ ys : List Exchange,
      (writeSectorsChs env param a nsector buffer size check m).events =
        .transfer size buffer.len :: .copy size.toNat :: .int13 x :: ys.map .int13 ∧
      (∀ y ∈ ys, y.req = chsRequest env param a nsector 0x04 x.res) ∧
      (writeSectorsChs env param a nsector buffer size check m).val.buffer = buffer := by
  by_cases hv : check = false ∨ x.carry = true ∨ x.short param nsector
  · rw [writeSectorsChs_of_unverified h m hx hv]
    exact ⟨[], rfl, by simp, rfl⟩
  · simp only [not_or, Bool.not_eq_false, Bool.not_eq_true] at hv
    obtain ⟨rfl, hc, hfull⟩ := hv
    rw [writeSectorsChs_of_verified h m hx hc hfull rfl]
    exact ⟨[_], rfl, by simp [exchangeAt], rfl⟩

/-! ### Who asks -/

/-- The one question of a CHS read. -/
theorem eq_of_mem_readSectorsChs {m : Machine σ} {x : Exchange}
    (hx : x ∈ exchanges (readSectorsChs env param a nsector buffer size m).events) :
    ¬chsRefused false param a nsector size ∧
      x = exchangeAt env m (chsAsk env false param a nsector buffer size m.area) := by
  by_cases h : chsRefused false param a nsector size
  · rw [readSectorsChs, sectorChsRw_of_refused h] at hx
    exact absurd hx (by simp)
  · rw [readSectorsChs_of_not_refused h m rfl] at hx
    exact ⟨h, by split_ifs at hx <;> simpa using hx⟩

/-- The one question of an extended read. -/
theorem eq_of_mem_readSectorsLba {m : Machine σ} {x : Exchange}
    (hx : x ∈ exchanges (readSectorsLba env param offset nsector buffer size m).events) :
    ¬lbaRefused false param offset nsector size ∧
      x = exchangeAt env m (lbaAsk env false param offset nsector buffer size false m.area) := by
  by_cases h : lbaRefused false param offset nsector size
  · rw [readSectorsLba, sectorsLbaRw_of_refused h] at hx
    exact absurd hx (by simp)
  · rw [readSectorsLba_of_not_refused h m rfl] at hx
    exact ⟨h, by split_ifs at hx <;> simpa using hx⟩

/-- The one question of an extended write. -/
theorem eq_of_mem_writeSectorsLba {m : Machine σ} {x : Exchange}
    (hx : x ∈ exchanges (writeSectorsLba env param offset nsector buffer size check m).events) :
    ¬lbaRefused true param offset nsector size ∧
      x = exchangeAt env m (lbaAsk env true param offset nsector buffer size check m.area) := by
  by_cases h : lbaRefused true param offset nsector size
  · rw [writeSectorsLba, sectorsLbaRw_of_refused h] at hx
    exact absurd hx (by simp)
  · rw [writeSectorsLba_of_not_refused h m rfl] at hx
    exact ⟨h, by simpa using hx⟩

/-- **A CHS transfer asks the BIOS** exactly when it is not refused. -/
theorem sectorChsRw_asks_iff (m : Machine σ) :
    exchanges (sectorChsRw env isWrite param a nsector buffer size check m).events ≠ [] ↔
      ¬chsRefused isWrite param a nsector size := by
  refine ⟨fun hask h ↦ hask ?_, fun h ↦ ?_⟩
  · rw [sectorChsRw_of_refused h]
    rfl
  cases isWrite with
  | true =>
    obtain ⟨ys, hevents, -⟩ : ∃ ys : List Exchange,
        (writeSectorsChs env param a nsector buffer size check m).events = _ ∧ _ :=
      writeSectorsChs_shape h m rfl
    rw [← writeSectorsChs, hevents]
    simp
  | false =>
    rw [sectorChsRw_read, readSectorsChs_of_not_refused h m rfl]
    simp

/-- **An extended transfer asks the BIOS** exactly when it is not refused. -/
theorem sectorsLbaRw_asks_iff (m : Machine σ) :
    exchanges (sectorsLbaRw env isWrite param offset nsector buffer size check m).events ≠ [] ↔
      ¬lbaRefused isWrite param offset nsector size := by
  refine ⟨fun hask h ↦ hask ?_, fun h ↦ ?_⟩
  · rw [sectorsLbaRw_of_refused h]
    rfl
  cases isWrite with
  | true =>
    rw [← writeSectorsLba, writeSectorsLba_of_not_refused h m rfl]
    simp
  | false =>
    rw [sectorsLbaRw_read h m rfl]
    simp

end Dwipe

import Dwipe.Disk.Geometry
import Dwipe.Machine.Bios

/-!
# The request layer

The `INT 13h` requests of `disk.c`: drive parameters, the extension check, and the sector transfers
in both addressings.

A C function with out-parameters returns them here. The transfers return an `Xfer`: the `int` the C
function returns, the caller's buffer, and the in-out `*size`. Rejected parameters give `-1` and
touch nothing; a request that was issued returns 0 or the status byte `AH`.
-/

namespace Dwipe

variable {σ : Type} (env : Env σ)

/-! ### Drive parameters -/

/-- `get_disk_param`: `AH=08h`. The record is zeroed first and filled only on success. -/
def getDiskParam (diskId : UInt8) : Prog σ (ℤ × DiskParam) := do
  loadRegs 0 0x08 0 0 0 0 0 diskId
  let ret ← int13_1 env
  let a ← readArea
  if ret = 0 then
    let c_s := getChsFromPack a.reg.cx
    return (ret,
      { diskId := diskId
        drives := a.reg.dl
        lastHeads := a.reg.dh
        lastSectorsPerTrack := UInt8.ofNat c_s.2
        lastCylinders := UInt16.ofNat c_s.1
        driveType := a.reg.bl
        hasExt := 0
        ext := DiskParamExt.zero })
  else
    return (a.reg.ah.toNat, DiskParam.zero)

/-- `get_disk_param_ext`: `AH=48h`. Nothing of the record changes if the question fails, so
`has_ext` stays 0. -/
def getDiskParamExt (param : DiskParam) : Prog σ (ℤ × DiskParam) := do
  loadRegs 0 0x48 0 0 0 0 0 param.diskId
  let ret ← int13_4 env
  let a ← readArea
  if ret = 0 then
    return (ret, { param with hasExt := 1, ext := a.paramExt })
  else
    return (a.reg.ah.toNat, param)

/-- What `check_extensions_present` writes through its two pointers. -/
structure Extensions where
  ext : ℤ
  version : ℤ

/-- `check_extensions_present`: `AH=41h`. On failure `*ext` and `*version` keep their old values. -/
def checkExtensionsPresent (diskId : UInt8) (old : Extensions) : Prog σ (ℤ × Extensions) := do
  loadRegs 0 0x41 0xaa 0x55 0 0 0 diskId
  let ret ← int13_1 env
  let a ← readArea
  if ret = 0 then
    return (ret, ⟨a.reg.cl.toNat, a.reg.ah.toNat⟩)
  else
    return (a.reg.ah.toNat, old)

/-! ### Sector transfers -/

/-- What a sector transfer hands back to its caller. -/
structure Xfer where
  /-- The returned `int`. -/
  ret : ℤ
  /-- The caller's buffer. -/
  buffer : Buffer
  /-- `*size`. -/
  size : UInt32

/-- `sector_size` of the CHS transfers: 512 unless the drive reports another size. -/
def sectorSize (param : DiskParam) : UInt32 :=
  if param.hasExt ≠ 0 then param.ext.bytesPerSector.toUInt32 else 512

/-- The register stores of the CHS requests. The 0 in `bx` does not stay: `int13_2` points `es:bx`
at the buffer. -/
def loadChs (param : DiskParam) (a : Chs) (nsector : UInt32) (ah : UInt8) : Prog σ Unit :=
  modifyArea fun r ↦
    { r with reg := { r.reg.setCx (setChsToPack a.cylinder.toNat a.sector.toNat) with
        dh := UInt8.ofNat a.head.toNat
        al := nsector.toUInt8
        ah := ah
        bl := 0
        bh := 0
        dl := param.diskId } }

/-- The stores and the call of `sector_chs_verify`: `AH=04h`. -/
def verifyIssue (param : DiskParam) (a : Chs) (nsector : UInt32) : Prog σ ℤ := do
  loadChs param a nsector 0x04
  int13_2 env

/-- `sector_chs_verify`. A refusal returns -1 **without a request**; the `AH` its caller then
reports is that of the request before. -/
def sectorChsVerify (param : DiskParam) (a : Chs) (nsector size : UInt32) : Prog σ ℤ := do
  if varifyChs a < 0 then
    return -1
  if nsector > biosMaxSectorCnt then
    return -1
  if nsector * sectorSize param > size then
    return -1
  if nsector * sectorSize param > maxSectorBufferSize then
    return -1
  if outsideGeometry param a then
    return -1
  let ret ← verifyIssue env param a nsector
  let r ← readArea
  return if ret = 0 then ret else r.reg.ah.toNat

/-- `memcpy(p_real_buffer, buffer, n)`: the BIOS only reaches what lies below 1 MiB. -/
def copyToReal (buffer : Buffer) (n : ℕ) : Prog σ Unit := do
  TraceM.emit (.copy n)
  modifyArea fun r ↦ { r with buffer := memcpy r.buffer buffer.byte n }

/-- `memcpy(buffer, p_real_buffer, n)`, after a read that succeeded; behind the `n` bytes the buffer
keeps what it had. -/
def copyFromReal (buffer : Buffer) (n : ℕ) : Prog σ Buffer := do
  TraceM.emit (.copy n)
  let r ← readArea
  return { buffer with byte := memcpy buffer.byte r.buffer n }

/-- The stores and the call of `sector_chs_rw`: `AH=02h` or `AH=03h`. -/
def chsIssue (isWrite : Bool) (param : DiskParam) (a : Chs) (nsector : UInt32)
    (buffer : Buffer) (size : UInt32) : Prog σ ℤ := do
  if isWrite then
    copyToReal buffer size.toNat
  loadChs param a nsector (if isWrite then 0x03 else 0x02)
  int13_2 env

/-- The bytes a CHS transfer reports: the sectors in `AL`, at most the number asked for. -/
def chsMoved (param : DiskParam) (nsector : UInt32) (r : RealArea) : UInt32 :=
  (if r.reg.al.toUInt32 > nsector then nsector else r.reg.al.toUInt32) * sectorSize param

/-- `sector_chs_rw` after its checks; a write is followed by a verification when `check`. -/
def chsTransfer (isWrite : Bool) (param : DiskParam) (a : Chs) (nsector : UInt32)
    (buffer : Buffer) (size : UInt32) (check : Bool) : Prog σ Xfer := do
  let ret ← chsIssue env isWrite param a nsector buffer size
  let r ← readArea
  if ret = 0 then
    let moved := chsMoved param nsector r
    let buffer ← if isWrite then pure buffer else copyFromReal buffer moved.toNat
    let ret ← if check ∧ isWrite then sectorChsVerify env param a nsector moved else pure ret
    let r ← readArea
    return ⟨if ret = 0 then ret else r.reg.ah.toNat, buffer, moved⟩
  else
    return ⟨r.reg.ah.toNat, buffer, size⟩

/-- `sector_chs_rw`. Each check is a refusal of its own, in the order of the source, before anything
is stored or asked. -/
def sectorChsRw (isWrite : Bool) (param : DiskParam) (a : Chs) (nsector : UInt32)
    (buffer : Buffer) (size : UInt32) (check : Bool) : Prog σ Xfer := do
  TraceM.emit (.transfer size buffer.len)
  if varifyChs a < 0 then
    return ⟨-1, buffer, size⟩
  if nsector > biosMaxSectorCnt then
    return ⟨-1, buffer, size⟩
  if nsector * sectorSize param > size then
    return ⟨-1, buffer, size⟩
  if nsector * sectorSize param > maxSectorBufferSize then
    return ⟨-1, buffer, size⟩
  if isWrite ∧ size > maxSectorBufferSize then
    return ⟨-1, buffer, size⟩
  if outsideGeometry param a then
    return ⟨-1, buffer, size⟩
  chsTransfer env isWrite param a nsector buffer size check

/-- `read_sectors_chs`: a read is never verified. -/
def readSectorsChs (param : DiskParam) (a : Chs) (nsector : UInt32) (buffer : Buffer)
    (size : UInt32) : Prog σ Xfer :=
  sectorChsRw env false param a nsector buffer size false

/-- `write_sectors_chs`. -/
def writeSectorsChs (param : DiskParam) (a : Chs) (nsector : UInt32) (buffer : Buffer)
    (size : UInt32) (check : Bool) : Prog σ Xfer :=
  sectorChsRw env true param a nsector buffer size check

/-- The stores and the call of `sectors_lba_rw`: `AH=42h` or `AH=43h`. -/
def lbaIssue (isWrite : Bool) (param : DiskParam) (offset : UInt64) (nsector : UInt32)
    (buffer : Buffer) (size : UInt32) (check : Bool) : Prog σ ℤ := do
  if isWrite then
    copyToReal buffer size.toNat
  modifyArea fun r ↦ { r with dap := { r.dap with nsectors := nsector.toUInt16, begin := offset } }
  loadRegs (if check then 1 else 0) (if isWrite then 0x43 else 0x42) 0 0 0 0 0 param.diskId
  int13_3 env

/-- The bytes an extended read copies: the sectors in the packet, at most the number asked for. -/
def lbaMoved (param : DiskParam) (nsector : UInt32) (r : RealArea) : UInt32 :=
  (if r.dap.nsectors.toUInt32 > nsector then nsector else r.dap.nsectors.toUInt32)
    * param.ext.bytesPerSector.toUInt32

/-- The bytes an extended transfer reports in `*size`. The clamp looks at `AL`, not at the packet
the count is taken from. -/
def lbaReported (param : DiskParam) (nsector : UInt32) (r : RealArea) : UInt32 :=
  (if r.reg.al.toUInt32 > nsector then nsector else r.dap.nsectors.toUInt32)
    * param.ext.bytesPerSector.toUInt32

/-- `sectors_lba_rw` after its checks. The verification of a write is left to the BIOS, by the 1 in
`AL`. -/
def lbaTransfer (isWrite : Bool) (param : DiskParam) (offset : UInt64) (nsector : UInt32)
    (buffer : Buffer) (size : UInt32) (check : Bool) : Prog σ Xfer := do
  let ret ← lbaIssue env isWrite param offset nsector buffer size check
  let r ← readArea
  if ret = 0 then
    let buffer ← if isWrite then pure buffer
      else copyFromReal buffer (lbaMoved param nsector r).toNat
    return ⟨ret, buffer, lbaReported param nsector r⟩
  else
    return ⟨r.reg.ah.toNat, buffer, size⟩

/-- `sectors_lba_rw`. The bound on `offset` is the code's, with the unsigned `nsectors - 1` and
without the commented-out bound on the end of the request. -/
def sectorsLbaRw (isWrite : Bool) (param : DiskParam) (offset : UInt64) (nsector : UInt32)
    (buffer : Buffer) (size : UInt32) (check : Bool) : Prog σ Xfer := do
  TraceM.emit (.transfer size buffer.len)
  if param.hasExt = 0 ∨ offset > param.ext.nsectors - 1 then
    return ⟨-1, buffer, size⟩
  if nsector > biosMaxSectorCnt then
    return ⟨-1, buffer, size⟩
  if nsector * param.ext.bytesPerSector.toUInt32 > maxSectorBufferSize then
    return ⟨-1, buffer, size⟩
  if nsector * param.ext.bytesPerSector.toUInt32 > size then
    return ⟨-1, buffer, size⟩
  if isWrite ∧ size > maxSectorBufferSize then
    return ⟨-1, buffer, size⟩
  lbaTransfer env isWrite param offset nsector buffer size check

/-- `read_sectors_lba`: a read is never verified. -/
def readSectorsLba (param : DiskParam) (offset : UInt64) (nsector : UInt32) (buffer : Buffer)
    (size : UInt32) : Prog σ Xfer :=
  sectorsLbaRw env false param offset nsector buffer size false

/-- `write_sectors_lba`. -/
def writeSectorsLba (param : DiskParam) (offset : UInt64) (nsector : UInt32) (buffer : Buffer)
    (size : UInt32) (check : Bool) : Prog σ Xfer :=
  sectorsLbaRw env true param offset nsector buffer size check

end Dwipe

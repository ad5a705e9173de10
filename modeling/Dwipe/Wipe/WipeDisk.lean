import Dwipe.Disk.Fat
import Dwipe.Wipe.Progress

/-!
# Wiping one disk

`wipe_sectors_lba` and `wipe_disk` of `dwipe.c`, with the skip test in front of them.

`wipe_disk` is cut where the source has its paragraphs: the skip test and the allocation
(`wipeDisk`), the chunk loop (`wipeChunks`), the remainder (`wipeRemainder`) and the MBR
(`wipeMbr`). A `goto fail` is the exit of the loop with the current `ret`, or an early `return` of
it; what `fail:` does is free the buffer.
-/

namespace Dwipe

variable {σ : Type} (env : Env σ) (opt : Options)

/-! ### One request's worth of sectors -/

/-- `fill_rand`: the low byte of one value of `rand` for each byte of the buffer. -/
def fillRand (buffer : Buffer) (n : ℕ) : Prog σ Buffer :=
  TraceM.forRange n buffer fun i b ↦ do
    let r ← rand
    return { b with byte := Function.update b.byte i (UInt8.ofNat r) }

/-- What a pass of a multi-pass mode puts into the buffer before writing it. -/
def fillPass (i : ℕ) (buffer : Buffer) (n : ℕ) : Prog σ Buffer :=
  if opt.mode = .dod ∧ i % 2 = 0 then
    pure { buffer with byte := memset buffer.byte 0 n }
  else if opt.mode = .dod then
    pure { buffer with byte := memset buffer.byte 0xFF n }
  else
    fillRand buffer n

/-- `pass`, the number of rounds of the multi-pass loops. -/
def passCount : ℕ := if opt.mode = .dod then 3 else 4

/-- The multi-pass loop, of which `wipe_sectors_lba` has one copy for each addressing. `*size` is
reset to its entry value before each write, and each write overwrites `ret`. -/
def passLoop (write : Buffer → UInt32 → Bool → Prog σ Xfer) (buffer : Buffer) (size : UInt32) :
    Prog σ Xfer :=
  TraceM.forRange (passCount opt) ⟨-1, buffer, size⟩ fun i x ↦ do
    let buffer ← fillPass opt i x.buffer size.toNat
    enter (.pass i)
    let r ← write buffer size (opt.check || opt.mode = .ocd)
    TraceM.emit (.returned (.passWrite i) r.ret)
    return r

/-- The single write of the fast mode. Unlike the passes of the four-pass mode, it is verified only
if `check` asks for it. -/
def fastPass (write : Buffer → UInt32 → Bool → Prog σ Xfer) (buffer : Buffer) (size : UInt32) :
    Prog σ Xfer := do
  enter (.pass 0)
  let r ← write buffer size opt.check
  TraceM.emit (.returned (.passWrite 0) r.ret)
  return r

/-- The `has_ext` branch of `wipe_sectors_lba`: extended requests, also when `force_chs` is set. The
fast mode fills the buffer with zeros here. -/
def wipeSectorsExt (param : DiskParam) (offset : UInt64) (nsectors : UInt32) (buffer : Buffer)
    (size : UInt32) : Prog σ Xfer := do
  if opt.test then
    enter .test
    readSectorsLba env param offset nsectors buffer size
  else if opt.mode = .fast then
    fastPass opt (writeSectorsLba env param offset nsectors)
      { buffer with byte := memset buffer.byte 0 size.toNat } size
  else
    passLoop opt (writeSectorsLba env param offset nsectors) buffer size

/-- The CHS branch of `wipe_sectors_lba`, after the address has been converted. The fast mode of
this branch does not fill the buffer. -/
def wipeSectorsChs (param : DiskParam) (a : Chs) (nsectors : UInt32) (buffer : Buffer)
    (size : UInt32) : Prog σ Xfer := do
  if opt.test then
    enter .test
    readSectorsChs env param a nsectors buffer size
  else if opt.mode = .fast then
    fastPass opt (writeSectorsChs env param a nsectors) buffer size
  else
    passLoop opt (writeSectorsChs env param a nsectors) buffer size

/-- The divisors `lba2chs` evaluates: none if the number is refused, else the sectors of a track,
the heads, and their product. -/
def lba2chsDivisors (param : DiskParam) (lba : UInt64) : List ℕ :=
  if lba.toNat ≤ maxLba then
    [param.lastSectorsPerTrack.toNat, param.lastHeads.toNat + 1,
      param.lastSectorsPerTrack.toNat * (param.lastHeads.toNat + 1)]
  else []

/-- `wipe_sectors_lba`. The addressing is chosen by `has_ext` alone, and an address that cannot be
converted fails the call without a request. -/
def wipeSectorsLba (param : DiskParam) (offset : UInt64) (nsectors : UInt32) (buffer : Buffer)
    (size : UInt32) : Prog σ Xfer := do
  if param.hasExt ≠ 0 then
    wipeSectorsExt env opt param offset nsectors buffer size
  else
    TraceM.emitAll ((lba2chsDivisors param offset).map .divide)
    match lba2chs param offset with
    | some a => wipeSectorsChs env opt param a nsectors buffer size
    | none => return ⟨-1, buffer, size⟩

/-! ### The skip test -/

/-- `is_cdrom`: a drive whose sectors are not of 512 bytes. One without extensions is none, since it
reports no sector size. -/
def isCdrom (param : DiskParam) : ℤ :=
  if param.hasExt ≠ 0 ∧ param.ext.bytesPerSector ≠ 512 then 1 else 0

/-- `is_skiped_disk`; the label is looked for only when the first test fails. -/
def isSkipedDisk (param : DiskParam) : Prog σ ℤ := do
  if isCdrom param ≠ 0 then
    return 1
  let found ← containFatLabel env opt param opt.skip
  return if found ≠ 0 then 1 else 0

/-! ### The whole disk -/

/-- `sector_size` of `wipe_disk`, for which `force_chs` counts; in `wipe_sectors_lba` it does
not. -/
def wipeSectorSize (param : DiskParam) : UInt32 :=
  if param.hasExt ≠ 0 ∧ ¬opt.forceChs then param.ext.bytesPerSector.toUInt32 else 512

/-- `total_sec`: the extended count, or the product of the geometry computed in `int`. -/
def totalSec (param : DiskParam) : UInt64 :=
  if param.hasExt ≠ 0 ∧ ¬opt.forceChs then param.ext.nsectors
  else UInt64.ofInt (wrapInt (geometrySectors param))

/-- `total_size`, in bytes and modulo 2^64. -/
def totalSize (param : DiskParam) : UInt64 :=
  totalSec opt param * (wipeSectorSize opt param).toUInt64

/-- `WIPE_BUFFER_SIZE / sector_size`. -/
def chunkSectors (param : DiskParam) : UInt32 := wipeBufferSize / wipeSectorSize opt param

/-- The variables the chunk loop changes. The buffer is one of them: each call finds in it what the
one before has left. -/
structure WipeState where
  ret : ℤ
  buffer : Buffer
  offsetLba : UInt64
  progress : Progress

/-- A call of `wipe_sectors_lba` from `wipe_disk`. `size` is always that of the whole buffer, also
for the remainder. -/
def wipeCall (param : DiskParam) (offset : UInt64) (nsectors : UInt32) (buffer : Buffer) :
    Prog σ Xfer := do
  let x ← wipeSectorsLba env opt param offset nsectors buffer wipeBufferSize
  TraceM.emit (.returned (.wipeSectorsLba offset nsectors) x.ret)
  return x

/-- The chunk loop of `wipe_disk`. -/
def wipeChunks (param : DiskParam) (s : WipeState) : Prog σ (Except ℤ WipeState) :=
  TraceM.forExit (totalSize opt param / wipeBufferSize.toUInt64).toNat s fun _ s ↦ do
    TraceM.emit (.divide (wipeSectorSize opt param).toNat)
    let x ← wipeCall env opt param s.offsetLba (chunkSectors opt param) s.buffer
    let progress ← updateProgress env s.progress wipeBufferSize.toUInt64
    if x.ret < 0 then
      return .error x.ret
    return .ok ⟨x.ret, x.buffer, s.offsetLba + (chunkSectors opt param).toUInt64, progress⟩

/-- The sectors the chunk loop leaves over; `left_sec` is passed as a 32-bit count. -/
def wipeRemainder (param : DiskParam) (s : WipeState) : Prog σ (Except ℤ WipeState) := do
  let leftSec := totalSec opt param - s.offsetLba
  if leftSec ≠ 0 then
    let x ← wipeCall env opt param s.offsetLba leftSec.toUInt32 s.buffer
    if x.ret < 0 then
      return .error x.ret
    let progress ← updateProgress env s.progress (leftSec * (wipeSectorSize opt param).toUInt64)
    return .ok { s with ret := x.ret, buffer := x.buffer, progress := progress }
  else
    let progress ← updateProgress env s.progress (leftSec * (wipeSectorSize opt param).toUInt64)
    return .ok { s with progress := progress }

/-- `mbr_bin_len`: one sector, as the build makes it. -/
def mbrBinLen : UInt32 := 512

/-- The MBR write. -/
def wipeMbr (param : DiskParam) (s : WipeState) : Prog σ ℤ := do
  if opt.mbr ∧ ¬opt.test then
    enter .mbr
    let x ← writeSectorsChs env param ⟨0, 0, 1⟩ 1
      { s.buffer with byte := memcpy s.buffer.byte env.mbrBin mbrBinLen.toNat } mbrBinLen opt.check
    TraceM.emit (.returned .mbrWrite x.ret)
    return x.ret
  else
    return s.ret

/-- `wipe_disk` from the allocated buffer on: the whole blocks, the sectors behind the last one,
and the MBR. The first call that returns a **negative** number ends it; a status of the BIOS does
not. -/
def wipeBuffer (param : DiskParam) (buffer : Buffer) : Prog σ ℤ := do
  let progress ← resetProgress env (totalSize opt param)
  let progress ← updateProgress env progress 0
  match ← wipeChunks env opt param ⟨-1, buffer, 0, progress⟩ with
  | .error ret => return ret
  | .ok s =>
    match ← wipeRemainder env opt param s with
    | .error ret => return ret
    | .ok s => wipeMbr env opt param s

/-- `wipe_disk`. A skipped disk returns 1, and a heap that has no block for the buffer makes it fail
before anything is written. -/
def wipeDisk (param : DiskParam) : Prog σ ℤ := do
  let skiped ← isSkipedDisk env opt param
  TraceM.emit (.returned (.isSkipedDisk param.diskId) skiped)
  if skiped ≠ 0 then
    return 1
  match ← malloc env wipeBufferSize.toNat with
  | none => return -1
  | some buffer => wipeBuffer env opt param buffer

end Dwipe

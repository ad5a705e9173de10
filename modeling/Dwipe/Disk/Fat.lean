import Dwipe.Disk.Requests

/-!
# The skip label

`contain_fat_label` of `fat.c`: read the partition table, read the boot sector of each partition of
a known type, and compare its label, at the FAT32 and at the FAT16 position, with `opt.skip`.

One buffer serves the table and every boot sector, and a failed read leaves in it what was there
before; the loop therefore carries it from entry to entry.
-/

namespace Dwipe

variable {σ : Type} (env : Env σ) (opt : Options)

/-- `struct mbr_entry`, all of its fields, of which the scan reads the type and the two
beginnings. -/
structure MbrEntry where
  status : UInt8
  chsBeginHead : UInt8
  chsBeginCylinderSector : UInt16
  type : UInt8
  chsEndHead : UInt8
  chsEndCylinderSector : UInt16
  lbaBegin : UInt32
  lbaSize : UInt32
  deriving DecidableEq

/-- A little-endian 16-bit word, as the packed C structures lay it over the buffer. -/
def word16 (byte : ℕ → UInt8) (o : ℕ) : UInt16 :=
  UInt16.ofNat ((byte o).toNat + 256 * (byte (o + 1)).toNat)

/-- A little-endian 32-bit word. -/
def word32 (byte : ℕ → UInt8) (o : ℕ) : UInt32 :=
  UInt32.ofNat ((byte o).toNat + 256 * ((byte (o + 1)).toNat + 256 * ((byte (o + 2)).toNat
    + 256 * (byte (o + 3)).toNat)))

/-- Entry `i` of the partition table at byte 446 of a sector. -/
def mbrEntry (byte : ℕ → UInt8) (i : ℕ) : MbrEntry :=
  let o := 446 + 16 * i
  { status := byte o
    chsBeginHead := byte (o + 1)
    chsBeginCylinderSector := word16 byte (o + 2)
    type := byte (o + 4)
    chsEndHead := byte (o + 5)
    chsEndCylinderSector := word16 byte (o + 6)
    lbaBegin := word32 byte (o + 8)
    lbaSize := word32 byte (o + 12) }

/-- The start of a partition as its CHS field gives it. -/
def MbrEntry.chsBegin (e : MbrEntry) : Chs :=
  ⟨(getChsFromPack e.chsBeginCylinderSector).1, e.chsBeginHead.toNat,
    (getChsFromPack e.chsBeginCylinderSector).2⟩

/-! ### Labels -/

/-- Offset of `label` in `struct fat_boot_sector_32`. -/
def fat32LabelOffset : ℕ := 71

/-- Offset of `label` in `struct fat_boot_sector_16`. -/
def fat16LabelOffset : ℕ := 43

/-- The local `label[12]`: the eleven bytes of the field and a terminator, with every space
replaced by NUL. -/
def labelArray (byte : ℕ → UInt8) (o : ℕ) : List UInt8 :=
  ((List.range 11).map (fun j ↦ byte (o + j)) ++ [0]).map fun b ↦ if b = 0x20 then 0 else b

/-- The C string at the start of an array. -/
def cString (l : List UInt8) : List UInt8 := l.takeWhile (· ≠ 0)

/-- `strcmp(opt.skip, label) == 0` for the label field at offset `o`. -/
def labelMatches (skip : CString) (byte : ℕ → UInt8) (o : ℕ) : Bool :=
  skip.bytes = cString (labelArray byte o)

/-- Either of the two comparisons of `contain_fat_label`. Both are made on every boot sector that
was read, whatever the type of its partition is. -/
def carriesLabel (skip : CString) (byte : ℕ → UInt8) : Bool :=
  labelMatches skip byte fat32LabelOffset || labelMatches skip byte fat16LabelOffset

/-! ### The scan -/

/-- `sizeof(buffer)` of `contain_fat_label`: two sectors, of which one is asked for. -/
def labelBufferSize : UInt32 := 1024

/-- The reads for one partition entry; `none` is the `continue` on an unknown type. -/
def readEntry (param : DiskParam) (e : MbrEntry) (buffer : Buffer) : Prog σ (Option Xfer) := do
  if e.type = 0x0B then
    return some (← readSectorsChs env param e.chsBegin 1 buffer labelBufferSize)
  else if e.type = 0x0C ∨ e.type = 0x0E then
    return some (← readSectorsLba env param e.lbaBegin.toUInt64 1 buffer labelBufferSize)
  else if e.type = 0xEF then
    let x ← readSectorsChs env param e.chsBegin 1 buffer labelBufferSize
    if x.ret ≠ 0 then
      return some (← readSectorsLba env param e.lbaBegin.toUInt64 1 x.buffer labelBufferSize)
    else
      return some x
  else
    return none

/-- One round of the loop over the partition entries; leaving it is `return 1`. -/
def scanEntry (param : DiskParam) (e : MbrEntry) (buffer : Buffer) :
    Prog σ (Except ℤ Buffer) := do
  match ← readEntry env param e buffer with
  | none => return .ok buffer
  | some x =>
    if x.ret = 0 ∧ x.size = 512 ∧ carriesLabel opt.skip x.buffer.byte then
      return .error 1
    else
      return .ok x.buffer

/-- `contain_fat_label`. The argument `str` is not used by the code, which reads `opt.skip`. -/
def containFatLabel (param : DiskParam) (_str : CString) : Prog σ ℤ := do
  enter .label
  let buffer ← stackArray env labelBufferSize.toNat
  let x ← readSectorsChs env param ⟨0, 0, 1⟩ 1 buffer labelBufferSize
  if x.ret ≠ 0 ∨ x.size ≠ 512 then
    return 0
  match ← TraceM.forExit 4 x.buffer fun i buffer ↦
      scanEntry env opt param (mbrEntry x.buffer.byte i) buffer with
  | .ok _ => return 0
  | .error ret => return ret

end Dwipe

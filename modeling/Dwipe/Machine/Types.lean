import Mathlib.Algebra.Group.Int.Defs
import Mathlib.Algebra.Group.Nat.Defs

/-!
# Data types

The records of `disk.h`, `defs.h` and `option.h`, field for field, and the memory blocks the C code
passes around.

Fields keep the width the C declaration gives them. `int` variables are `ℤ`: the ones that occur
hold disk addresses, status codes and array indices and stay far inside 32 bits, except in the one
product `last_heads × last_cylinders × sectors` of `wipe_disk`, where the conversion is written out
(`wrapInt`).
-/

namespace Dwipe

/-! ### Constants -/

/-- `BIOS_MAX_SECTOR_CNT`: the largest sector count of one request, which is what a track can
hold. -/
def biosMaxSectorCnt : UInt32 := 63

/-- `MAX_SECTOR_BUFFER_SIZE`: the size of the real-mode transfer buffer, 63 sectors of 512 bytes. -/
def maxSectorBufferSize : UInt32 := 63 * 512

/-- `CHS_HEAD_MAX`: the largest head number, `254` because of the 256-head bug of old systems. -/
def chsHeadMax : ℤ := 254

/-- `CHS_CYLINDER_MAX`. -/
def chsCylinderMax : ℤ := 1023

/-- `CHS_SECTOR_MAX`. -/
def chsSectorMax : ℤ := 63

/-- `WIPE_BUFFER_SIZE`: bytes handed to one wipe request. -/
def wipeBufferSize : UInt32 := 8192

/-! ### Memory blocks -/

/-- A block of memory a pointer refers to: its allocated length and its contents. Offsets at or
beyond `len` carry no meaning. -/
structure Buffer where
  /-- The allocated length in bytes. -/
  len : ℕ
  /-- The byte at an offset. -/
  byte : ℕ → UInt8

/-- `memcpy(dst, src, n)` on contents; the two never overlap here. -/
def memcpy (dst src : ℕ → UInt8) (n : ℕ) : ℕ → UInt8 :=
  fun i ↦ if i < n then src i else dst i

/-- `memset(dst, v, n)` on contents. -/
def memset (dst : ℕ → UInt8) (v : UInt8) (n : ℕ) : ℕ → UInt8 :=
  fun i ↦ if i < n then v else dst i

theorem memcpy_of_lt {dst src : ℕ → UInt8} {n i : ℕ} (h : i < n) :
    memcpy dst src n i = src i := by
  simp [memcpy, h]

@[simp] theorem memcpy_zero (dst src : ℕ → UInt8) : memcpy dst src 0 = dst := by
  funext i
  simp [memcpy]

theorem memset_of_lt {dst : ℕ → UInt8} {v : UInt8} {n i : ℕ} (h : i < n) :
    memset dst v n i = v := by
  simp [memset, h]

/-- A C string: the bytes before the terminating NUL. -/
structure CString where
  /-- The bytes, without the terminator. -/
  bytes : List UInt8
  /-- No byte is the terminator. -/
  noNul : 0 ∉ bytes
  deriving DecidableEq

/-! ### `disk.h` -/

/-- `union reg_req`: the registers loaded before and stored after `INT 13h`, in the byte view
`h`; the word view is `RegReq.cx`. -/
structure RegReq where
  al : UInt8
  ah : UInt8
  bl : UInt8
  bh : UInt8
  cl : UInt8
  ch : UInt8
  dl : UInt8
  dh : UInt8
  es : UInt16
  si : UInt16
  deriving DecidableEq

/-- `w.cx`, the word view of `ch:cl`: the same two bytes of the union. -/
def RegReq.cx (r : RegReq) : UInt16 := UInt16.ofNat (r.ch.toNat * 256 + r.cl.toNat)

/-- A store through `&w.cx`. -/
def RegReq.setCx (r : RegReq) (c : UInt16) : RegReq :=
  { r with ch := UInt8.ofNat (c.toNat / 256), cl := UInt8.ofNat (c.toNat % 256) }

@[simp] theorem RegReq.cx_setCx (r : RegReq) (c : UInt16) : (r.setCx c).cx = c := by
  have hc := c.toNat_lt
  have hdiv : c.toNat / 256 < 256 := by omega
  have hmod : c.toNat % 256 < 256 := Nat.mod_lt _ (by omega)
  apply UInt16.toNat_inj.1
  simp only [RegReq.cx, RegReq.setCx, UInt8.toNat_ofNat', UInt16.toNat_ofNat',
    Nat.mod_eq_of_lt hdiv, Nat.mod_eq_of_lt hmod]
  omega

/-- `struct disk_dap`: the disk address packet of the extended read and write. -/
structure DiskDap where
  size : UInt8
  unused : UInt8
  nsectors : UInt16
  offset : UInt16
  base : UInt16
  begin : UInt64
  deriving DecidableEq

/-- `struct disk_param_ext`: the result buffer of the extended drive parameters. -/
structure DiskParamExt where
  size : UInt16
  flags : UInt16
  ncylinders : UInt32
  nheads : UInt32
  sectorsPerTrack : UInt32
  nsectors : UInt64
  bytesPerSector : UInt16
  edd : UInt32
  deriving DecidableEq

/-- `memset(&param->ext, 0, sizeof(param->ext))`. -/
def DiskParamExt.zero : DiskParamExt := ⟨0, 0, 0, 0, 0, 0, 0, 0⟩

/-- `struct disk_param`: what is known about a drive once it is listed, and all that the wiping
decides by. -/
structure DiskParam where
  diskId : UInt8
  drives : UInt8
  lastHeads : UInt8
  lastCylinders : UInt16
  lastSectorsPerTrack : UInt8
  driveType : UInt8
  hasExt : UInt8
  ext : DiskParamExt
  deriving DecidableEq

/-- `memset(param, 0, sizeof(struct disk_param))`. -/
def DiskParam.zero : DiskParam := ⟨0, 0, 0, 0, 0, 0, 0, DiskParamExt.zero⟩

/-- A cylinder, head and sector triple, as the three `int` variables hold it. -/
structure Chs where
  cylinder : ℤ
  head : ℤ
  sector : ℤ
  deriving DecidableEq

/-- The value of an `int` expression whose mathematical value is `n`. -/
def wrapInt (n : ℤ) : ℤ := Int.bmod n (2 ^ 32)

/-! ### `option.h` -/

/-- `WIPE_MODE_FAST`, `WIPE_MODE_DOD` and `WIPE_MODE_OCD`; `parse_cmdline` stores no other value. -/
inductive WipeMode where
  | fast
  | dod
  | ocd
  deriving DecidableEq

/-- `struct options_t`. The four switches are only ever stored as 0 and 1. -/
structure Options where
  skip : CString
  test : Bool
  debug : ℤ
  check : Bool
  forceChs : Bool
  mbr : Bool
  mode : WipeMode
  deriving DecidableEq

end Dwipe

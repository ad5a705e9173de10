import Dwipe.Machine.Bios

/-!
# Environments to run against

Concrete machines and environments. They serve where a statement about **every** BIOS has to be
shown false, or not to be void: a machine whose memory is all zeros, the environment built around a
given `INT 13h`, and the BIOS that fails every request.
-/

namespace Dwipe

/-- An all-zero real-mode area, as it is assembled. -/
def RealArea.zero : RealArea :=
  ⟨⟨0, 0, 0, 0, 0, 0, 0, 0, 0, 0⟩, ⟨0, 0, 0, 0, 0, 0⟩, DiskParamExt.zero, fun _ ↦ 0⟩

/-- A machine with nothing in its memory, the BIOS in state `b` and `_rand_next` at `r`. -/
def Machine.fresh {σ : Type} (b : σ) (r : UInt64) : Machine σ :=
  { area := RealArea.zero
    bios := b
    randNext := r
    ticks := 0
    site := .probe
    diskList := fun _ ↦ DiskParam.zero
    totalDiskCnt := 0
    skipedDiskCnt := 0
    doneDiskCnt := 0
    errorDiskCnt := 0 }

/-- A machine that has found the given disks, and has not wiped any yet. -/
def Machine.ofDisks {σ : Type} (b : σ) (r : UInt64) (disks : List DiskParam) : Machine σ :=
  { Machine.fresh b r with
    diskList := fun i ↦ disks.getD i DiskParam.zero
    totalDiskCnt := UInt32.ofNat disks.length }

/-- The environment around an `INT 13h`, with a heap of blocks that hold `heap`. -/
def Env.ofBios {σ : Type} (int13 : σ → RealArea → Answer σ) (heap : ℕ → UInt8) : Env σ :=
  { int13 := int13
    malloc := fun _ ↦ some heap
    stack := fun _ _ ↦ 0
    clock := fun _ ↦ ⟨0, 0⟩
    mbrBin := fun _ ↦ 0
    bufferOffset := 0
    dapOffset := 0
    paramExtOffset := 0 }

/-- The options of a plain fast wipe. -/
def Options.plain : Options :=
  { skip := ⟨[], List.not_mem_nil⟩
    test := false
    debug := 0
    check := false
    forceChs := false
    mbr := false
    mode := .fast }

/-- The first hard disk, with extensions and `n` sectors of 512 bytes, and a geometry of one
sector. -/
def DiskParam.ofSectors (n : UInt64) : DiskParam :=
  { diskId := 0x80
    drives := 1
    lastHeads := 0
    lastCylinders := 0
    lastSectorsPerTrack := 1
    driveType := 0
    hasExt := 1
    ext := { DiskParamExt.zero with nsectors := n, bytesPerSector := 512 } }

/-- The first hard disk, without extensions, of the given last head, last cylinder and track. -/
def DiskParam.ofGeometry (heads : UInt8) (cylinders : UInt16) (spt : UInt8) : DiskParam :=
  { DiskParam.zero with
    diskId := 0x80
    drives := 1
    lastHeads := heads
    lastCylinders := cylinders
    lastSectorsPerTrack := spt }

/-- The area with a status byte stored in `AH`. -/
def RealArea.withStatus (r : RealArea) (ah : UInt8) : RealArea :=
  { r with reg := { r.reg with ah := ah } }

/-- The BIOS that fails every request with status `01h`. -/
def failing : Env Unit := Env.ofBios (fun _ q ↦ ⟨true, q.withStatus 1, ()⟩) fun _ ↦ 0

/-- The BIOS that fails the first `k` write requests and whatever is asked before the next one, and
accepts everything from there on. Its state is the number of write requests it has seen. -/
def failingFirst (k : ℕ) : Env ℕ :=
  Env.ofBios (fun b q ↦
    let seen := if q.reg.ah = 0x03 ∨ q.reg.ah = 0x43 then b + 1 else b
    if seen ≤ k then ⟨true, q.withStatus 1, seen⟩ else ⟨false, q.withStatus 0, seen⟩) fun _ ↦ 0

/-- The BIOS that accepts every request, and leaves the transfer buffer as it is. -/
def obliging (heap : ℕ → UInt8) : Env Unit :=
  Env.ofBios (fun _ q ↦ ⟨false, q.withStatus 0, ()⟩) heap

/-- The BIOS of a disk that takes extended writes, wherever they point, and fails every other
request. Its state is the contents of the disk, sector by sector. -/
def writing : Env (ℕ → Fin 512 → UInt8) :=
  Env.ofBios (fun d q ↦
    if q.reg.ah = 0x43 then
      ⟨false, q.withStatus 0, fun s j ↦
        if q.dap.begin.toNat ≤ s ∧ s < q.dap.begin.toNat + q.dap.nsectors.toNat then
          q.buffer (512 * (s - q.dap.begin.toNat) + j)
        else d s j⟩
    else ⟨true, q.withStatus 1, d⟩) fun _ ↦ 0x55

end Dwipe

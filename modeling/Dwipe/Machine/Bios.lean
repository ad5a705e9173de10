import Dwipe.Library.Traced
import Dwipe.Machine.Types

/-!
# The machine and the BIOS

Everything the program shares with the outside: the real-mode area of `head.S` through which
`INT 13h` is called, the four call stubs of `int13.S`, the heap, the clock and newlib's `rand`.

The BIOS is a parameter. `Env.int13` is an arbitrary function of a hidden state `σ` and of the
contents of the real-mode area, and it answers with a carry flag, a new area and a new hidden
state; since `σ` is arbitrary, a script of answers, a BIOS with a disk behind it, and a BIOS that
answers at random are all instances. What the program may rely on is stated by the theorems that
use it, as a hypothesis on `Env`.

The trace of a run records each exchange with the BIOS, and the value returned by each call that
the results below speak of. It is ghost data: nothing in the program reads it.
-/

namespace Dwipe

/-- The real-mode data of `head.S`: `real_reg`, `real_dap`, `real_disk_param_ext` and
`real_buffer`. -/
structure RealArea where
  reg : RegReq
  dap : DiskDap
  paramExt : DiskParamExt
  buffer : ℕ → UInt8

/-- The answer of the BIOS to one `INT 13h`. -/
structure Answer (σ : Type) where
  /-- The carry flag on return. -/
  carry : Bool
  /-- The real-mode area on return. -/
  area : RealArea
  /-- What became of the BIOS and the drives behind it. -/
  bios : σ

/-- `struct timeval`, whose two members are signed. -/
structure Timeval where
  tvSec : ℤ
  tvUsec : ℤ
  deriving DecidableEq

/-- What the program is run in: all that it reads and does not compute. The three offsets are the
linker's, in the segment the real-mode code has been copied to. -/
structure Env (σ : Type) where
  /-- `INT 13h`. -/
  int13 : σ → RealArea → Answer σ
  /-- The outcome of `malloc`: no block, or the bytes the block happens to hold. -/
  malloc : ℕ → Option (ℕ → UInt8)
  /-- The bytes an uninitialised local array happens to hold. -/
  stack : ℕ → ℕ → UInt8
  /-- The readings of `gettimeofday`. -/
  clock : ℕ → Timeval
  /-- `mbr_bin`, generated by the build from `mbr.S`. -/
  mbrBin : ℕ → UInt8
  /-- The offset of `real_buffer` in the real-mode segment. -/
  bufferOffset : UInt16
  /-- The offset of `real_dap`. -/
  dapOffset : UInt16
  /-- The offset of `real_disk_param_ext`. -/
  paramExtOffset : UInt16

/-- The BIOS stores a status in `AH` whenever it sets the carry flag. -/
def Env.ReportsErrors {σ : Type} (env : Env σ) : Prop :=
  ∀ b q, (env.int13 b q).carry = true → (env.int13 b q).area.reg.ah ≠ 0

/-! ### The trace -/

/-- The place in the program a request is issued from. -/
inductive Site where
  /-- `enum_disk`. -/
  | probe
  /-- `contain_fat_label`. -/
  | label
  /-- The read of `wipe_sectors_lba` in test mode. -/
  | test
  /-- The write of pass `i` of `wipe_sectors_lba`, and its verification. -/
  | pass (i : ℕ)
  /-- The MBR write of `wipe_disk`, and its verification. -/
  | mbr
  deriving DecidableEq

/-- One exchange with the BIOS, whole: a statement may look at any register or byte of it. -/
structure Exchange where
  /-- Who asked. -/
  site : Site
  /-- The real-mode area at the call. -/
  req : RealArea
  /-- The carry flag on return. -/
  carry : Bool
  /-- The real-mode area on return. -/
  res : RealArea

/-- The calls whose returned values are recorded, because a result speaks of them. -/
inductive Call where
  | isSkipedDisk (diskId : UInt8)
  | wipeSectorsLba (offset : UInt64) (nsectors : UInt32)
  /-- The write of pass `i` inside `wipe_sectors_lba`. -/
  | passWrite (i : ℕ)
  /-- The MBR write inside `wipe_disk`. -/
  | mbrWrite
  /-- `wipe_disk` on `disk_list[index]`. -/
  | wipeDisk (index : ℕ)
  deriving DecidableEq

/-- The figures `update_progress` displays, as it has computed them. -/
structure ProgressLine where
  proWidth : UInt32
  percent : UInt64
  speedBps : UInt64
  etaHour : UInt32
  etaMin : UInt32
  etaSec : UInt32
  deriving DecidableEq

/-- One entry of the trace. Besides the exchanges there is what the bounds are about: stores into
the list, sizes of transfers and copies, divisors, and the books of the progress. -/
inductive Event where
  /-- An exchange with the BIOS. -/
  | int13 (x : Exchange)
  /-- A call returned. -/
  | returned (call : Call) (ret : ℤ)
  /-- `disk_list[slot]` was stored to. -/
  | store (slot : ℕ)
  /-- A sector transfer was entered with `*size` and a buffer of `len` bytes. -/
  | transfer (size : UInt32) (len : ℕ)
  /-- Between a buffer and `real_buffer`, `n` bytes were copied. -/
  | copy (n : ℕ)
  /-- A division by `d` was evaluated. -/
  | divide (d : ℕ)
  /-- `update_progress` has brought `done_bytes` up to date. -/
  | account (total done : UInt64)
  /-- The progress line was drawn. -/
  | progress (line : ProgressLine)

/-- The exchange of an event. -/
def Event.exchange? : Event → Option Exchange
  | .int13 x => some x
  | _ => none

/-- The exchanges of a trace, in order: all that the outside can see of a run. -/
def exchanges (l : List Event) : List Exchange := l.filterMap Event.exchange?

/-- The recorded return of an event. -/
def Event.return? : Event → Option (Call × ℤ)
  | .returned c r => some (c, r)
  | _ => none

/-- The recorded returns of a trace, in order. -/
def returns (l : List Event) : List (Call × ℤ) := l.filterMap Event.return?

@[simp] theorem exchanges_nil : exchanges [] = [] := rfl

@[simp] theorem exchanges_append (l l' : List Event) :
    exchanges (l ++ l') = exchanges l ++ exchanges l' := List.filterMap_append

@[simp] theorem exchanges_int13 (x : Exchange) (l : List Event) :
    exchanges (.int13 x :: l) = x :: exchanges l := rfl

@[simp] theorem exchanges_returned (c : Call) (r : ℤ) (l : List Event) :
    exchanges (.returned c r :: l) = exchanges l := rfl

@[simp] theorem exchanges_store (k : ℕ) (l : List Event) :
    exchanges (.store k :: l) = exchanges l := rfl

@[simp] theorem exchanges_transfer (z : UInt32) (k : ℕ) (l : List Event) :
    exchanges (.transfer z k :: l) = exchanges l := rfl

@[simp] theorem exchanges_copy (k : ℕ) (l : List Event) :
    exchanges (.copy k :: l) = exchanges l := rfl

@[simp] theorem exchanges_divide (k : ℕ) (l : List Event) :
    exchanges (.divide k :: l) = exchanges l := rfl

@[simp] theorem exchanges_account (t d : UInt64) (l : List Event) :
    exchanges (.account t d :: l) = exchanges l := rfl

@[simp] theorem exchanges_progress (p : ProgressLine) (l : List Event) :
    exchanges (.progress p :: l) = exchanges l := rfl

@[simp] theorem exchanges_map_int13 (xs : List Exchange) : exchanges (xs.map .int13) = xs := by
  induction xs with
  | nil => rfl
  | cons x xs ih => rw [List.map_cons, exchanges_int13, ih]

theorem mem_exchanges {l : List Event} {x : Exchange} : x ∈ exchanges l ↔ .int13 x ∈ l := by
  simp only [exchanges, List.mem_filterMap]
  constructor
  · rintro ⟨e, he, hx⟩
    cases e <;> simp [Event.exchange?] at hx
    exact hx ▸ he
  · intro h
    exact ⟨_, h, rfl⟩

@[simp] theorem returns_nil : returns [] = [] := rfl

@[simp] theorem returns_append (l l' : List Event) :
    returns (l ++ l') = returns l ++ returns l' := List.filterMap_append

@[simp] theorem returns_int13 (x : Exchange) (l : List Event) :
    returns (.int13 x :: l) = returns l := rfl

@[simp] theorem returns_returned (c : Call) (r : ℤ) (l : List Event) :
    returns (.returned c r :: l) = (c, r) :: returns l := rfl

@[simp] theorem returns_store (k : ℕ) (l : List Event) :
    returns (.store k :: l) = returns l := rfl

@[simp] theorem returns_transfer (z : UInt32) (k : ℕ) (l : List Event) :
    returns (.transfer z k :: l) = returns l := rfl

@[simp] theorem returns_copy (k : ℕ) (l : List Event) : returns (.copy k :: l) = returns l := rfl

@[simp] theorem returns_divide (k : ℕ) (l : List Event) :
    returns (.divide k :: l) = returns l := rfl

@[simp] theorem returns_account (t d : UInt64) (l : List Event) :
    returns (.account t d :: l) = returns l := rfl

@[simp] theorem returns_progress (p : ProgressLine) (l : List Event) :
    returns (.progress p :: l) = returns l := rfl

theorem mem_returns {l : List Event} {c : Call} {r : ℤ} :
    (c, r) ∈ returns l ↔ .returned c r ∈ l := by
  simp only [returns, List.mem_filterMap]
  constructor
  · rintro ⟨e, he, hx⟩
    cases e <;> simp [Event.return?] at hx
    exact hx.1 ▸ hx.2 ▸ he
  · intro h
    exact ⟨_, h, rfl⟩

/-! ### The machine -/

/-- The state of a run: the real-mode area, the world outside, and the globals of `dwipe.c`. -/
structure Machine (σ : Type) where
  area : RealArea
  bios : σ
  /-- newlib's `_rand_next`. -/
  randNext : UInt64
  /-- How often the heap, the stack and the clock have been asked. -/
  ticks : ℕ
  /-- Where in the program the run is; ghost data for the trace. -/
  site : Site
  diskList : ℕ → DiskParam
  totalDiskCnt : UInt32
  skipedDiskCnt : UInt32
  doneDiskCnt : UInt32
  errorDiskCnt : UInt32

/-- A piece of the program. -/
abbrev Prog (σ α : Type) := TraceM (Machine σ) Event α

variable {σ : Type} (env : Env σ)

/-- Change the real-mode area. -/
def modifyArea (f : RealArea → RealArea) : Prog σ Unit :=
  TraceM.update fun m ↦ { m with area := f m.area }

/-- Read the real-mode area. -/
def readArea : Prog σ RealArea := do return (← TraceM.read).area

/-- Set the ghost position, under which the exchanges that follow are recorded. -/
def enter (site : Site) : Prog σ Unit := TraceM.update fun m ↦ { m with site := site }

/-- The eight register stores that precede a call. `es` and `si` are not among them: what a stub
does not set stays from the call before. -/
def loadRegs (al ah bl bh ch cl dh dl : UInt8) : Prog σ Unit :=
  modifyArea fun a ↦
    { a with reg := { a.reg with
        al := al, ah := ah, bl := bl, bh := bh, ch := ch, cl := cl, dh := dh, dl := dl } }

/-- `query_pcbios`: the switch to real mode, `int $0x13`, and the way back. The returned value is
`real_ret`, 1 when the carry flag was set. -/
def queryPcbios : Prog σ ℤ := do
  let m ← TraceM.read
  let a := env.int13 m.bios m.area
  TraceM.update fun m ↦ { m with area := a.area, bios := a.bios }
  TraceM.emit (.int13 ⟨m.site, m.area, a.carry, a.area⟩)
  return if a.carry then 1 else 0

/-- `int13_1`: no memory operand, and null pointers in `es` and `si`. -/
def int13_1 : Prog σ ℤ := do
  modifyArea fun a ↦ { a with reg := { a.reg with es := 0, si := 0 } }
  queryPcbios env

/-- `int13_2`: `es:bx` points at `real_buffer`. -/
def int13_2 : Prog σ ℤ := do
  modifyArea fun a ↦
    { a with reg := { a.reg with
        es := 0x1000
        si := 0
        bl := UInt8.ofNat (env.bufferOffset.toNat % 256)
        bh := UInt8.ofNat (env.bufferOffset.toNat / 256) } }
  queryPcbios env

/-- `int13_3`: `ds:si` points at `real_dap`, and the packet at `real_buffer`. -/
def int13_3 : Prog σ ℤ := do
  modifyArea fun a ↦
    { a with
      dap := { a.dap with size := 0x10, unused := 0, offset := env.bufferOffset, base := 0x1000 }
      reg := { a.reg with si := env.dapOffset } }
  queryPcbios env

/-- `int13_4`: `ds:si` points at `real_disk_param_ext`, in which the BIOS is told how much room
there is. -/
def int13_4 : Prog σ ℤ := do
  modifyArea fun a ↦
    { a with
      paramExt := { a.paramExt with size := 0x1e }
      reg := { a.reg with si := env.paramExtOffset } }
  queryPcbios env

/-! ### What a request points at -/

/-- **A transfer request points at `real_buffer`**, the way `int13_2` and `int13_3` make it: through
`es:bx`, or through a packet of 16 bytes at `ds:si`. -/
structure AimsAtBuffer (q : RealArea) : Prop where
  chs : q.reg.ah = 0x02 ∨ q.reg.ah = 0x03 → q.reg.es = 0x1000 ∧
    q.reg.bl = UInt8.ofNat (env.bufferOffset.toNat % 256) ∧
    q.reg.bh = UInt8.ofNat (env.bufferOffset.toNat / 256)
  packet : q.reg.ah = 0x42 ∨ q.reg.ah = 0x43 → q.reg.si = env.dapOffset ∧ q.dap.size = 0x10 ∧
    q.dap.unused = 0 ∧ q.dap.offset = env.bufferOffset ∧ q.dap.base = 0x1000

/-- **A request as the program makes them**, to a drive with sectors of `size` bytes: one of the
functions it uses, a transfer out of `real_buffer` or into it that **fits**, and the extended
parameters in `real_disk_param_ext`. With any other request the BIOS may reach memory that is no
part of the area. -/
structure WellMade (size : ℕ) (q : RealArea) : Prop extends AimsAtBuffer env q where
  function : q.reg.ah ∈ [0x00, 0x01, 0x02, 0x03, 0x04, 0x08, 0x41, 0x42, 0x43, 0x48]
  chsFits : q.reg.ah = 0x02 ∨ q.reg.ah = 0x03 →
    q.reg.al.toNat * size ≤ maxSectorBufferSize.toNat
  packetFits : q.reg.ah = 0x42 ∨ q.reg.ah = 0x43 →
    q.dap.nsectors.toNat * size ≤ maxSectorBufferSize.toNat
  params : q.reg.ah = 0x48 → q.reg.si = env.paramExtOffset ∧ q.paramExt.size = 0x1e

/-- `malloc(n)`: no block, or one with whatever it happens to hold. -/
def malloc (n : ℕ) : Prog σ (Option Buffer) := do
  let m ← TraceM.read
  TraceM.update fun m ↦ { m with ticks := m.ticks + 1 }
  return (env.malloc m.ticks).map fun b ↦ ⟨n, b⟩

/-- An uninitialised local array of `n` bytes. What it holds is the environment's, and may be
different each time. -/
def stackArray (n : ℕ) : Prog σ Buffer := do
  let m ← TraceM.read
  TraceM.update fun m ↦ { m with ticks := m.ticks + 1 }
  return ⟨n, env.stack m.ticks⟩

/-- `gettimeofday(&tv, NULL)`. -/
def gettimeofday : Prog σ Timeval := do
  let m ← TraceM.read
  TraceM.update fun m ↦ { m with ticks := m.ticks + 1 }
  return env.clock m.ticks

/-! ### newlib's `rand` -/

/-- The step of `_rand_next`, modulo 2^64. -/
def randStep (x : UInt64) : UInt64 := x * 6364136223846793005 + 1

/-- The value read off `_rand_next`: 31 of its high bits, since `RAND_MAX` is `0x7fffffff`. -/
def randOut (x : UInt64) : ℕ := (x >>> 32).toNat &&& 0x7fffffff

/-- `srand(seed)`, whose argument is an `unsigned int`. -/
def srand (seed : ℤ) : Prog σ Unit :=
  TraceM.update fun m ↦ { m with randNext := UInt64.ofInt (seed % 2 ^ 32) }

/-- `rand()`. -/
def rand : Prog σ ℕ := do
  TraceM.update fun m ↦ { m with randNext := randStep m.randNext }
  return randOut (← TraceM.read).randNext

end Dwipe

import Dwipe.Library.Bytes
import Dwipe.Machine.Bios
import Dwipe.Runtime.Exceptions

/-!
# The way to real mode and back

The four stubs of `int13.S` and `query_pcbios` of `head.S`, as the instructions they consist of,
over a processor with 32-bit registers and a memory of bytes. A stub saves registers, stores the
addresses of the transfer buffer or of a packet where the BIOS looks for them, and calls
`query_pcbios`; that saves the caller's registers on the protected-mode stack and the stack pointer
on the real-mode stack, loads the 16-bit registers from `real_reg`, issues `INT 13h`, stores them
back with the carry flag behind them, and returns.

The real-mode data are addressed in two ways: in protected mode through the pointers `p_real_reg`,
`p_real_buffer`, `p_real_dap` and `p_real_disk_param_ext`, and in real mode by offsets in the
segment `REAL_CODE_SEG`, at linear address `0x10000`. The loads of segment registers and descriptor
tables and the jumps between the modes have no effect on this state and are left out.
-/

namespace Dwipe

open Bytes

/-! ### The processor -/

/-- The pointer variables of `disk.c`, one for each of the records, through which the C code and the
stubs reach the real-mode data. -/
inductive RealPtr where
  | reg
  | buffer
  | dap
  | paramExt
  deriving DecidableEq

/-- The values of `p_real_reg`, `p_real_buffer`, `p_real_dap` and `p_real_disk_param_ext`. -/
abbrev Pointers := RealPtr → UInt32

/-- The processor, its memory, and what is behind `INT 13h`. -/
structure Pc (σ : Type) where
  regs : Reg → UInt32
  esp : UInt32
  es : UInt16
  /-- The carry flag, as `INT 13h` left it. -/
  carry : Bool
  mem : ℕ → UInt8
  bios : σ

/-- The 16-bit registers passed to `INT 13h` and returned by it. -/
structure RealRegs where
  ax : UInt16
  bx : UInt16
  cx : UInt16
  dx : UInt16
  es : UInt16
  si : UInt16
  di : UInt16
  deriving DecidableEq

/-- What `INT 13h` returns with. It may have changed all of memory; what it leaves alone is a
hypothesis of the results. -/
structure RealReturn (σ : Type) where
  carry : Bool
  regs : RealRegs
  mem : ℕ → UInt8
  bios : σ

/-- `INT 13h`, in real mode. -/
abbrev RealBios (σ : Type) := σ → RealRegs → (ℕ → UInt8) → RealReturn σ

/-- A store to the low half of a register. -/
def setLow (r : UInt32) (w : UInt16) : UInt32 :=
  UInt32.ofNat (r.toNat / 2 ^ 16 * 2 ^ 16 + w.toNat)

/-- The linear address of an offset in `REAL_CODE_SEG`, where all real-mode segment registers
point. -/
def realAddr (off : UInt16) : ℕ := 0x10000 + off.toNat

variable {σ : Type}

/-- Store a general register. -/
def Pc.setReg (c : Pc σ) (r : Reg) (w : UInt32) : Pc σ :=
  { c with regs := Function.update c.regs r w }

/-- Store the low half of a general register. -/
def Pc.setLowReg (c : Pc σ) (r : Reg) (w : UInt16) : Pc σ := c.setReg r (setLow (c.regs r) w)

/-- Store `n` bytes. -/
def Pc.store (c : Pc σ) (a n v : ℕ) : Pc σ := { c with mem := storeLE c.mem a n v }

/-- The offset in `%di`, `d` bytes further on; it wraps at the end of the segment. -/
def Pc.diPlus (c : Pc σ) (d : UInt16) : UInt16 := (c.regs .edi).toUInt16 + d

/-- `pushl` of a word, onto the protected-mode stack. -/
def Pc.push (c : Pc σ) (w : UInt32) : Pc σ :=
  { c.store (c.esp - 4).toNat 4 w.toNat with esp := c.esp - 4 }

/-- The instructions of the stubs and of `query_pcbios`, in the order operand, destination. -/
inductive Op where
  | pushl (r : Reg)
  | popl (r : Reg)
  /-- The push of a constant, such as the return address of `call`. -/
  | pushImm (w : UInt32)
  | addEsp (n : UInt32)
  | subEsp (n : UInt32)
  /-- `movl p_real_…, %r`. -/
  | movPtr (p : RealPtr) (r : Reg)
  | movImm (w : UInt32) (r : Reg)
  | movl (s r : Reg)
  | shll (n : UInt32) (r : Reg)
  | shrl (n : UInt32) (r : Reg)
  | xorl (s r : Reg)
  | andl (w : UInt32) (r : Reg)
  /-- `movb $v, d(%r)`. -/
  | movbTo (v : UInt8) (d : UInt32) (r : Reg)
  /-- `movw $v, d(%r)`. -/
  | movwTo (v : UInt16) (d : UInt32) (r : Reg)
  /-- `movw` of the low half of `%s` to `d(%r)`. -/
  | storew (s : Reg) (d : UInt32) (r : Reg)
  /-- `movl d(%s), %r`. -/
  | loadl (d : UInt32) (s r : Reg)
  /-- `movl %esp, %r`. -/
  | saveEsp (r : Reg)
  /-- `movl %r, %esp`. -/
  | restoreEsp (r : Reg)
  /-- `xorl %esp, %esp`. -/
  | zeroEsp
  /-- `pushl %r` in real mode. -/
  | realPushl (r : Reg)
  /-- `popl %r` in real mode. -/
  | realPopl (r : Reg)
  /-- `pushw` of the low half of `%r` in real mode. -/
  | realPushw (r : Reg)
  /-- `popw` to the low half of `%r` in real mode. -/
  | realPopw (r : Reg)
  /-- `movw %ds:d(%di), %r`. -/
  | realLoadw (d : UInt16) (r : Reg)
  /-- `movw %ds:d(%di), %es`. -/
  | realLoadEs (d : UInt16)
  /-- `movw %r, %ds:d(%di)`. -/
  | realStorew (r : Reg) (d : UInt16)
  /-- `movw %es, %ds:d(%di)`. -/
  | realStoreEs (d : UInt16)
  /-- `movl $v, %ds:d(%di)`. -/
  | realMovlTo (v : UInt32) (d : UInt16)
  deriving DecidableEq

/-- One instruction. In protected mode addresses are linear; in real mode they are offsets of 16
bits, and so is the stack pointer. -/
def Op.step (p : Pointers) (c : Pc σ) : Op → Pc σ
  | .pushl r => c.push (c.regs r)
  | .popl r =>
    { c.setReg r (UInt32.ofNat (loadLE c.mem c.esp.toNat 4)) with esp := c.esp + 4 }
  | .pushImm w => c.push w
  | .addEsp n => { c with esp := c.esp + n }
  | .subEsp n => { c with esp := c.esp - n }
  | .movPtr x r => c.setReg r (p x)
  | .movImm w r => c.setReg r w
  | .movl s r => c.setReg r (c.regs s)
  | .shll n r => c.setReg r (c.regs r <<< n)
  | .shrl n r => c.setReg r (c.regs r >>> n)
  | .xorl s r => c.setReg r (c.regs r ^^^ c.regs s)
  | .andl w r => c.setReg r (c.regs r &&& w)
  | .movbTo v d r => c.store (c.regs r + d).toNat 1 v.toNat
  | .movwTo v d r => c.store (c.regs r + d).toNat 2 v.toNat
  | .storew s d r => c.store (c.regs r + d).toNat 2 (c.regs s).toUInt16.toNat
  | .loadl d s r => c.setReg r (UInt32.ofNat (loadLE c.mem (c.regs s + d).toNat 4))
  | .saveEsp r => c.setReg r c.esp
  | .restoreEsp r => { c with esp := c.regs r }
  | .zeroEsp => { c with esp := 0 }
  | .realPushl r =>
    { c.store (realAddr (c.esp.toUInt16 - 4)) 4 (c.regs r).toNat with
      esp := setLow c.esp (c.esp.toUInt16 - 4) }
  | .realPopl r =>
    { c.setReg r (UInt32.ofNat (loadLE c.mem (realAddr c.esp.toUInt16) 4)) with
      esp := setLow c.esp (c.esp.toUInt16 + 4) }
  | .realPushw r =>
    { c.store (realAddr (c.esp.toUInt16 - 2)) 2 (c.regs r).toUInt16.toNat with
      esp := setLow c.esp (c.esp.toUInt16 - 2) }
  | .realPopw r =>
    { c.setLowReg r (UInt16.ofNat (loadLE c.mem (realAddr c.esp.toUInt16) 2)) with
      esp := setLow c.esp (c.esp.toUInt16 + 2) }
  | .realLoadw d r => c.setLowReg r (UInt16.ofNat (loadLE c.mem (realAddr (c.diPlus d)) 2))
  | .realLoadEs d => { c with es := UInt16.ofNat (loadLE c.mem (realAddr (c.diPlus d)) 2) }
  | .realStorew r d => c.store (realAddr (c.diPlus d)) 2 (c.regs r).toUInt16.toNat
  | .realStoreEs d => c.store (realAddr (c.diPlus d)) 2 c.es.toNat
  | .realMovlTo v d => c.store (realAddr (c.diPlus d)) 4 v.toNat

/-- A straight run of instructions. -/
def Op.run (p : Pointers) (is : List Op) (c : Pc σ) : Pc σ := is.foldl (Op.step p) c

/-- `int $0x13`. Only the low halves of the registers are passed and returned, so what the high
halves hold survives the BIOS. -/
def Pc.int13 (bios : RealBios σ) (c : Pc σ) : Pc σ :=
  let r := bios c.bios
    ⟨(c.regs .eax).toUInt16, (c.regs .ebx).toUInt16, (c.regs .ecx).toUInt16,
      (c.regs .edx).toUInt16, c.es, (c.regs .esi).toUInt16, (c.regs .edi).toUInt16⟩ c.mem
  { ((((((c.setLowReg .eax r.regs.ax).setLowReg .ebx r.regs.bx).setLowReg .ecx r.regs.cx).setLowReg
      .edx r.regs.dx).setLowReg .esi r.regs.si).setLowReg .edi r.regs.di) with
    es := r.regs.es
    carry := r.carry
    mem := r.mem
    bios := r.bios }

/-! ### `query_pcbios` -/

/-- `query_pcbios` up to the jump to real mode: the registers a C function has to keep, and the
stack pointer in `%ebx`. -/
def queryEntry : List Op :=
  [.pushl .ebx, .pushl .esi, .pushl .edi, .pushl .ebp, .movImm 0x28 .eax, .saveEsp .ebx]

/-- The real-mode code up to the interrupt: a stack of its own, with the protected-mode stack
pointer at its bottom, and the registers out of the record. `%di` is loaded last, since the record
is found through it. -/
def realEntry : List Op :=
  [.zeroEsp, .movImm 0x1000 .eax, .shll 4 .eax, .xorl .eax .edi, .realPushl .ebx,
    .realLoadw 0 .eax, .realLoadw 2 .ebx, .realLoadw 4 .ecx, .realLoadw 6 .edx, .realLoadEs 8,
    .realLoadw 10 .esi, .realPushw .edi, .realLoadw 12 .edi]

/-- The two branches behind the interrupt: the flag is stored as a long word. -/
def storeFlag (carry : Bool) : List Op :=
  if carry then [.realPopw .edi, .realMovlTo 1 14] else [.realPopw .edi, .realMovlTo 0 14]

/-- The real-mode code from the stores on: the registers into the record, and back to the
protected-mode stack. -/
def realExit : List Op :=
  [.realStorew .eax 0, .realStorew .ebx 2, .realStorew .ecx 4, .realStorew .edx 6, .realStoreEs 8,
    .realStorew .esi 10, .realPopl .ebx, .restoreEsp .ebx]

/-- The addresses of code that end up on the stack. -/
structure Labels where
  /-- The return address of `call query_pcbios`. -/
  back : UInt32
  /-- Where the `lret` behind `prot` goes. -/
  reload : UInt32

/-- `query_pcbios` from `prot` on: the `lret` that reloads `%cs`, the caller's registers, and
`ret`. -/
def queryExit (reload : UInt32) : List Op :=
  [.movImm reload .eax, .pushImm 0x10, .pushl .eax, .addEsp 8, .movImm 0x18 .eax, .popl .ebp,
    .popl .edi, .popl .esi, .popl .ebx, .movImm 1 .eax, .addEsp 4]

/-- `call query_pcbios`: there, the interrupt, and back. -/
def callQuery (bios : RealBios σ) (p : Pointers) (lab : Labels) (c : Pc σ) : Pc σ :=
  let c := Op.run p (.pushImm lab.back :: queryEntry ++ realEntry) c
  let c := c.int13 bios
  Op.run p (storeFlag c.carry ++ (realExit ++ queryExit lab.reload)) c

/-! ### The stubs -/

/-- A stub of `int13.S`: the registers it saves, what it stores, the call, and the way out with the
flag in `%eax`. -/
def stub (saves : List Reg) (body : List Op) (bios : RealBios σ) (p : Pointers) (lab : Labels)
    (c : Pc σ) : Pc σ :=
  Op.run p ([.movPtr .reg .edi, .loadl 14 .edi .eax, .addEsp 8] ++ saves.reverse.map .popl)
    (callQuery bios p lab (Op.run p (saves.map .pushl ++ .subEsp 8 :: body) c))

/-- The stores of `int13_1`, which passes no pointer. -/
def body1 : List Op :=
  [.movPtr .reg .edi, .movwTo 0 8 .edi, .movwTo 0 10 .edi, .movwTo 0 12 .edi]

/-- The stores of `int13_2`: `es:bx` at the transfer buffer. -/
def body2 : List Op :=
  [.movPtr .reg .edi, .movPtr .buffer .esi, .movImm 0x1000 .eax, .shll 4 .eax, .xorl .eax .esi,
    .movwTo 0x1000 8 .edi, .movwTo 0 10 .edi, .movwTo 0 12 .edi, .storew .esi 2 .edi]

/-- The stores of `int13_3`: the buffer into the packet, and the packet at `ds:si`. -/
def body3 : List Op :=
  [.movPtr .reg .edi, .movPtr .buffer .esi, .movPtr .dap .ecx, .movl .esi .eax, .andl 0xffff .eax,
    .andl 0xf0000 .esi, .shrl 4 .esi, .movbTo 0x10 0 .ecx, .movbTo 0 1 .ecx, .storew .eax 4 .ecx,
    .storew .esi 6 .ecx, .movl .ecx .eax, .andl 0xffff .eax, .storew .eax 10 .edi,
    .movwTo 0 12 .edi]

/-- The stores of `int13_4`: the size into the result buffer, and the buffer at `ds:si`. -/
def body4 : List Op :=
  [.movPtr .reg .edi, .movPtr .paramExt .esi, .movwTo 0x1e 0 .esi, .movl .esi .eax,
    .andl 0xffff .eax, .andl 0xf0000 .esi, .shrl 16 .esi, .storew .eax 10 .edi, .movwTo 0 12 .edi]

/-- `int13_1`. -/
def int13Stub1 : RealBios σ → Pointers → Labels → Pc σ → Pc σ := stub [.edi, .ebx] body1

/-- `int13_2`. -/
def int13Stub2 : RealBios σ → Pointers → Labels → Pc σ → Pc σ := stub [.esi, .edi, .ebx] body2

/-- `int13_3`. -/
def int13Stub3 : RealBios σ → Pointers → Labels → Pc σ → Pc σ :=
  stub [.esi, .edi, .ecx, .ebx] body3

/-- `int13_4`. -/
def int13Stub4 : RealBios σ → Pointers → Labels → Pc σ → Pc σ := stub [.esi, .edi, .ebx] body4

end Dwipe

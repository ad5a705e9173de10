import Dwipe.Library.Loops
import Dwipe.Runtime.Processor

/-!
# From the entry point to `do_main`

What `startup_32` of `head.S` does to memory until it calls `do_main`: it enters the address of the
descriptor tables into their registers' images, stores the command line pointer, clears the
uninitialised data and the display, writes its own address into the two real-mode segment
descriptors, fills the interrupt descriptor table with the gates of the twenty handlers, and enters
into `cpu_id` what it finds out about the processor (`Runtime.Processor`). On the way it pushes: the
far return that reloads `%cs`, the flags of the identification, and the return address of the call.

`Linked` is what the linker decides, with the order of the sections as `head.S` and
`minios_shared.lds` have it: the tables are in the text, before the data, before the uninitialised
data, all of it above the first megabyte. The stack and `cpu_id` are **part of** the uninitialised
data, so what is stored there behind the clearing is what `do_main` finds there instead of zeros.
-/

namespace Dwipe

open Bytes

/-- The addresses of the labels of `head.S`. The fields that are no addresses say what the order of
the sections makes of them, so a program that is linked in another order cannot be written down. -/
structure Linked where
  /-- `startup_32`. -/
  startup32 : UInt32
  /-- `flush`. -/
  flush : UInt32
  /-- The instruction behind `call do_main`. -/
  back : UInt32
  /-- `vec0` … `vec19`. -/
  vecAddr : Fin 20 → UInt32
  /-- `idt_descr`; `idt` is right behind it. -/
  idtDescr : ℕ
  /-- `gdt_descr`. -/
  gdtDescr : ℕ
  gdt : ℕ
  /-- `zerobss`, with `clear_display` and `cmd_line_ptr` behind it. -/
  zerobss : ℕ
  /-- `_bss`. -/
  bss : ℕ
  /-- `_end`. -/
  bssEnd : ℕ
  /-- `cpu_id`. -/
  cpuId : ℕ
  /-- `stack_top`, with `PROT_STACK_SIZE` bytes below it. -/
  stackTop : ℕ
  linked : 0x100000 ≤ idtDescr
  idt_gdtDescr : idtDescr + 6 + 160 ≤ gdtDescr
  gdtDescr_gdt : gdtDescr + 6 ≤ gdt
  gdt_zerobss : gdt + 48 ≤ zerobss
  zerobss_bss : zerobss + 12 ≤ bss
  bss_aligned : bss % 4 = 0
  bssEnd_aligned : bssEnd % 256 = 0
  bss_stack : bss + 0x100000 ≤ stackTop
  stack_bssEnd : stackTop ≤ bssEnd
  bss_cpuId : bss ≤ cpuId
  cpuId_bssEnd : cpuId + 116 ≤ bssEnd
  cpuId_apart : cpuId + 116 + 0x100000 ≤ stackTop ∨ stackTop ≤ cpuId
  below : bssEnd < 2 ^ 32

namespace Linked

variable (L : Linked)

/-- `idt`, right behind its descriptor. -/
def idt : ℕ := L.idtDescr + 6

/-- `clear_display`. -/
def clearDisplay : ℕ := L.zerobss + 4

/-- `cmd_line_ptr`. -/
def cmdLinePtr : ℕ := L.zerobss + 8

end Linked

/-! ### The loops -/

/-- One round of the loop that clears the uninitialised data: the memory, `%edi` and `%ecx`. -/
def zeroRound (s : (ℕ → UInt8) × UInt32 × UInt32) : (ℕ → UInt8) × UInt32 × UInt32 :=
  (storeLE s.1 s.2.1.toNat 4 0, s.2.1 + 4, s.2.2 - 4)

/-- The loop, entered without a test; at most `n` tests are made. -/
def zeroBss (n : ℕ) (bss bssEnd : UInt32) (mem : ℕ → UInt8) : Option (ℕ → UInt8) :=
  (whileLoop (fun s ↦ s.2.2 != 0) zeroRound n (zeroRound (mem, bss, bssEnd - bss))).map Prod.fst

/-- One round of the loop that clears the display: the memory and `%edi`. -/
def blankRound (s : (ℕ → UInt8) × UInt32) : (ℕ → UInt8) × UInt32 :=
  (storeLE s.1 s.2.toNat 2 0x0720, s.2 + 2)

/-- The loop over the text memory, entered without a test; at most `n` tests are made. -/
def blankDisplay (n : ℕ) (mem : ℕ → UInt8) : Option (ℕ → UInt8) :=
  (whileLoop (fun s ↦ s.2 != 0xc0000) blankRound n (blankRound (mem, 0xb8000))).map Prod.fst

/-! ### The descriptors -/

/-- The low word of a descriptor with its base stored. -/
def fixLow (base low : UInt32) : UInt32 := (low &&& 0x0000ffff) ||| base <<< (16 : UInt32)

/-- The high word, with the upper parts of the base around the limit and the rights. -/
def fixHigh (base high : UInt32) : UInt32 :=
  (high &&& 0x00ffff00) ||| ((base >>> (16 : UInt32) &&& 0xff) ||| (base &&& 0xff000000))

/-- The fix-up of the descriptor at an address: its base is the address of the program. -/
def fixup (base : UInt32) (mem : ℕ → UInt8) (a : ℕ) : ℕ → UInt8 :=
  let mem := storeLE mem a 4 (fixLow base (UInt32.ofNat (loadLE mem a 4))).toNat
  storeLE mem (a + 4) 4 (fixHigh base (UInt32.ofNat (loadLE mem (a + 4) 4))).toNat

/-- The gate of a handler, with the selector `KERNEL_CS`. -/
def storeGate (v : UInt32) (mem : ℕ → UInt8) (a : ℕ) : ℕ → UInt8 :=
  storeLE (storeLE mem a 4 (setLow 0x100000 v.toUInt16).toNat) (a + 4) 4 (setLow v 0x8E00).toNat

/-- The gates of a list of handlers, one behind the other. -/
def storeGates : List UInt32 → (ℕ → UInt8) → ℕ → ℕ → UInt8
  | [], mem, _ => mem
  | v :: vs, mem, a => storeGates vs (storeGate v mem a) (a + 8)

/-! ### `startup_32` -/

/-- `startup_32` on the processor `p` until `do_main` is entered, with `%ebx` at the command line
pointer. Each loop may make `n` tests. -/
def startup32 (L : Linked) (p : Processor) (n : ℕ) (ebx : UInt32) (mem : ℕ → UInt8) :
    Option (ℕ → UInt8) := do
  let mem := storeLE mem (L.gdtDescr + 2) 4 L.gdt
  let mem := pushl (L.stackTop - 4) L.flush (pushl L.stackTop 0x10 mem)
  let mem := storeLE mem L.cmdLinePtr 4 (loadLE mem ebx.toNat 4)
  let mem ← if loadLE mem L.zerobss 4 = 1 then do
      let mem ← zeroBss n (UInt32.ofNat L.bss) (UInt32.ofNat L.bssEnd) mem
      pure (storeLE mem L.zerobss 4 0)
    else pure mem
  let mem := fixup L.startup32 (fixup L.startup32 mem (L.gdt + 0x20)) (L.gdt + 0x28)
  let mem ← if loadLE mem L.clearDisplay 4 = 1 then do
      let mem ← blankDisplay n mem
      pure (storeLE mem L.clearDisplay 4 0)
    else pure mem
  let mem := storeGates (List.ofFn L.vecAddr) mem L.idt
  let mem := storeLE mem (L.idtDescr + 2) 4 L.idt
  return pushl L.stackTop L.back (findCpu p L.cpuId L.stackTop mem)

/-! ### What the processor reads -/

/-- `k` rounds of the loop over `N` long words are still to come: the words of the rounds so far are
zeros, `%edi` is behind them, and `%ecx` counts the bytes that are left. -/
structure ZeroLoop (mem : ℕ → UInt8) (bss N k : ℕ) (s : (ℕ → UInt8) × UInt32 × UInt32) : Prop where
  left : k ≤ N
  cleared : s.1 = fill mem bss 4 (N - k) 0
  edi : s.2.1.toNat = bss + 4 * (N - k)
  ecx : s.2.2.toNat = 4 * k

theorem ZeroLoop.round {mem : ℕ → UInt8} {bss N k : ℕ} {s : (ℕ → UInt8) × UInt32 × UInt32}
    (h : ZeroLoop mem bss N (k + 1) s) (hmax : bss + 4 * N < 2 ^ 32) :
    ZeroLoop mem bss N k (zeroRound s) := by
  have h4 : (4 : UInt32).toNat = 4 := rfl
  obtain ⟨hk, hmem, hedi, hecx⟩ := h
  have hcount : N - k = N - (k + 1) + 1 := by omega
  refine ⟨by omega, ?_, ?_, ?_⟩
  · show storeLE s.1 s.2.1.toNat 4 0 = _
    rw [hmem, hedi, storeLE_fill, hcount]
  · show (s.2.1 + 4).toNat = _
    rw [UInt32.toNat_add, hedi, h4]
    omega
  · show (s.2.2 - 4).toNat = _
    rw [UInt32.toNat_sub, hecx, h4]
    omega

/-- `k` cells of the display are still to come. -/
structure BlankLoop (mem : ℕ → UInt8) (k : ℕ) (s : (ℕ → UInt8) × UInt32) : Prop where
  left : k ≤ 0x4000
  blank : s.1 = fill mem 0xb8000 2 (0x4000 - k) 0x0720
  edi : s.2.toNat = 0xb8000 + 2 * (0x4000 - k)

theorem BlankLoop.round {mem : ℕ → UInt8} {k : ℕ} {s : (ℕ → UInt8) × UInt32}
    (h : BlankLoop mem (k + 1) s) : BlankLoop mem k (blankRound s) := by
  have h2 : (2 : UInt32).toNat = 2 := rfl
  obtain ⟨hk, hmem, hedi⟩ := h
  have hcount : 0x4000 - k = 0x4000 - (k + 1) + 1 := by omega
  refine ⟨by omega, ?_, ?_⟩
  · show storeLE s.1 s.2.toNat 2 0x0720 = _
    rw [hmem, hedi, storeLE_fill, hcount]
  · show (s.2 + 2).toNat = _
    rw [UInt32.toNat_add, hedi, h2]
    omega

section tables

variable {mem mem' : ℕ → UInt8} {a i : ℕ}

end tables

end Dwipe

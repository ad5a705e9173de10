import Dwipe.Runtime.Clock

/-!
# The processor

`cpu_type` of `timer.c`, which `timer_init` calls to find out what the processor is and, at its
end, how fast the time-stamp counter runs. The case tree follows the source by vendor: the branches
that leave `cpu_type` **before the calibration** answer `.error`, the others `.ok`.

A branch only writes `CpuInfo`, the names and the cache sizes it finds, and `tsc_invariable`, which
decides whether the calibration is corrected. The rate is set in `setSpeed` alone, after the tree.
`off`, a screen column that is stored and never read, is left out.
-/

namespace Dwipe

/-- `struct cpu_ident`, as far as it is read. The members are signed in C, and some comparisons
depend on it. -/
structure CpuIdent where
  type : Int8
  model : Int8
  step : Int8
  cpuid : Int32
  capability : Int32
  vendId : Fin 12 → UInt8
  cacheInfo : Fin 16 → UInt8
  pwrcap : Int32
  ext : Int32
  /-- `dcache0_eax` … `dcache3_ecx`, by cache and register. -/
  dcache : Fin 4 → Fin 3 → Int32

/-- What the case tree finds out, all of it in globals that later code reads. -/
structure CpuInfo where
  cpuTypeStr : String
  l1Cache : Int32
  l2Cache : Int32
  l3Cache : Int32
  pae : Bool
  tscInvariable : Bool
  imcType : UInt32
  deriving DecidableEq

/-- The initial values, which a branch that finds out nothing leaves. -/
def CpuInfo.start : CpuInfo := ⟨"UNKNOWN", 0, 0, 0, false, false, 0⟩

/-! ### Fields of the identification -/

section fields

variable (id : CpuIdent)

/-- `cpu_id.cache_info[i]` in an `int` expression. -/
def CpuIdent.cache (i : Fin 16) : Int32 := (id.cacheInfo i).toUInt32.toInt32

/-- `cache_info[3] + cache_info[7]`. -/
def CpuIdent.l1 : Int32 := id.cache 3 + id.cache 7

/-- `(cache_info[11] << 8) + cache_info[10]`. -/
def CpuIdent.l2 : Int32 := (id.cache 11 <<< 8) + id.cache 10

/-- `(cpu_id.ext >> 16) & 0xF`. -/
def CpuIdent.extModel : Int32 := (id.ext >>> 16) &&& 0xF

/-- `(cpu_id.ext >> 16) & 0xFF`. -/
def CpuIdent.extFamily : Int32 := (id.ext >>> 16) &&& 0xFF

end fields

/-! ### Processors without `cpuid` -/

/-- The name of a Cyrix processor without `cpuid`, by the high half of its register `0xfe`. -/
def cyrixName (i : UInt8) : String :=
  match ((i &&& (0xf0 : UInt8)) >>> (4 : UInt8)).toNat with
  | 0 | 1 => "Cyrix Cx486"
  | 2 => "Cyrix 5x86"
  | 3 => "Cyrix 6x86"
  | 4 => "Cyrix MediaGX"
  | 5 => "Cyrix 6x86MX"
  | 6 => "Cyrix MII"
  | _ => "Cyrix ???"

/-- The branch `cpu_id.cpuid < 1`; `cx86` is what `getCx86(0xfe)` reads. -/
def withoutCpuid (id : CpuIdent) (cx86 : UInt8) (g : CpuInfo) : CpuInfo :=
  match id.type.toInt with
  | 2 => { g with cpuTypeStr := cyrixName cx86 }
  | 3 => { g with cpuTypeStr := "386" }
  | 4 => { g with cpuTypeStr := "486", l1Cache := 8 }
  | _ => g

/-! ### AMD -/

/-- AMD, type 4. -/
def amd486 (id : CpuIdent) (g : CpuInfo) : CpuInfo :=
  match id.model.toInt with
  | 3 => { g with cpuTypeStr := "AMD 486DX2" }
  | 7 => { g with cpuTypeStr := "AMD 486DX2-WB" }
  | 8 => { g with cpuTypeStr := "AMD 486DX4" }
  | 9 => { g with cpuTypeStr := "AMD 486DX4-WB" }
  | 14 => { g with cpuTypeStr := "AMD 5x86-WT" }
  | _ => g

/-- AMD, type 5. -/
def amdK5 (id : CpuIdent) (g : CpuInfo) : CpuInfo :=
  match id.model.toInt with
  | 0 | 1 | 2 | 3 => { g with cpuTypeStr := "AMD K5", l1Cache := 8 }
  | 6 | 7 => { g with cpuTypeStr := "AMD K6", l1Cache := id.l1 }
  | 8 => { g with cpuTypeStr := "AMD K6-2", l1Cache := id.l1 }
  | 9 => { g with cpuTypeStr := "AMD K6-III", l1Cache := id.l1, l2Cache := id.l2 }
  | 10 => { g with cpuTypeStr := "AMD Geode LX", l1Cache := id.l1, l2Cache := id.l2 }
  | 13 => { g with cpuTypeStr := "AMD K6-III+", l1Cache := id.l1, l2Cache := id.l2 }
  | _ => g

/-- AMD, type 6. -/
def amdK7 (id : CpuIdent) (g : CpuInfo) : CpuInfo :=
  let g :=
    match id.model.toInt with
    | 1 => { g with cpuTypeStr := "AMD Athlon (0.25)", l2Cache := id.l2 }
    | 2 | 4 => { g with cpuTypeStr := "AMD Athlon (0.18)", l2Cache := id.l2 }
    | 6 =>
      { g with
        cpuTypeStr := if id.l2 = 64 then "AMD Duron (0.18)" else "Athlon XP (0.18)"
        l2Cache := id.l2 }
    | 8 | 10 =>
      { g with
        cpuTypeStr := if id.l2 = 64 then "AMD Duron (0.13)" else "Athlon XP (0.13)"
        l2Cache := id.l2 }
    | 3 | 7 =>
      -- the size stepping 0 reports is wrong
      { g with cpuTypeStr := "AMD Duron", l2Cache := if id.step.toInt = 0 then 64 else id.l2 }
    | _ => g
  { g with l1Cache := id.l1 }

/-- The name of an AMD processor of type 15 with an extended family below `0x10`. -/
def amdK8Name (id : CpuIdent) : String :=
  match id.model.toInt with
  | 1 | 5 => if id.extModel ≠ 0 then "AMD Opteron (0.09)" else "AMD Opteron (0.13)"
  | 3 | 11 => "Athlon 64 X2"
  | 8 => "Turion 64 X2"
  | 4 | 7 | 12 | 14 | 15 =>
    if id.extModel ≠ 0 then
      if 256 < id.l2 then "Athlon 64 (0.09)" else "Sempron (0.09)"
    else
      if 256 < id.l2 then "Athlon 64 (0.13)" else "Sempron (0.13)"
  | _ => "AMD K8"

/-- AMD, type 15. -/
def amdK8 (id : CpuIdent) (g : CpuInfo) : CpuInfo :=
  let g := { g with l1Cache := id.cache 3, l2Cache := id.l2, imcType := 0x0100 }
  if id.extFamily < 0x10 then
    { g with cpuTypeStr := amdK8Name id }
  else
    let g := { g with l3Cache := ((id.cache 15 <<< 8) + (id.cache 14 >>> 2)) * 512 }
    match id.model.toInt with
    | 1 => { g with imcType := 0x0102, cpuTypeStr := "AMD Fusion @" }
    | 4 => { g with imcType := 0x0101, cpuTypeStr := "AMD K10 (45nm) @" }
    | 9 => { g with imcType := 0x0101, cpuTypeStr := "AMD Magny-Cours" }
    | _ => { g with imcType := 0x0101, cpuTypeStr := "AMD K10 (65nm) @" }

/-- The branch `'A'`. -/
def amd (id : CpuIdent) (g : CpuInfo) : Except CpuInfo CpuInfo :=
  match id.type.toInt with
  | 4 => .error (amd486 id g)
  | 5 => .ok (amdK5 id g)
  | 6 => .ok (amdK7 id g)
  | 15 => .ok (amdK8 id g)
  | _ => .ok g

/-! ### Intel and Transmeta -/

/-- Transmeta. -/
def transmeta (id : CpuIdent) (g : CpuInfo) : CpuInfo :=
  let g :=
    match id.type.toInt with
    | 5 => { g with cpuTypeStr := "TM 5x00" }
    | 15 => { g with cpuTypeStr := "TM 8x00" }
    | _ => g
  { g with l1Cache := id.l1, l2Cache := id.cache 11 * 256 + id.cache 10 }

/-- Intel, type 4. -/
def intel486 (id : CpuIdent) (g : CpuInfo) : CpuInfo :=
  match id.model.toInt with
  | 0 | 1 => { g with cpuTypeStr := "Intel 486DX" }
  | 2 => { g with cpuTypeStr := "Intel 486SX" }
  | 3 => { g with cpuTypeStr := "Intel 486DX2" }
  | 4 => { g with cpuTypeStr := "Intel 486SL" }
  | 5 => { g with cpuTypeStr := "Intel 486SX2" }
  | 7 => { g with cpuTypeStr := "Intel 486DX2-WB" }
  | 8 => { g with cpuTypeStr := "Intel 486DX4" }
  | 9 => { g with cpuTypeStr := "Intel 486DX4-WB" }
  | _ => g

/-- The sizes the descriptors of `cpuid` stand for: the codes, and what they set. The codes `0x22`
and `0xd0` set 512 and fall through to 1024. -/
def cacheCodes : List (List UInt8 × (CpuInfo → CpuInfo)) :=
  [([0x06, 0x0a, 0x66], fun g ↦ { g with l1Cache := 8 }),
    ([0x08, 0x0c, 0x67, 0x60], fun g ↦ { g with l1Cache := 16 }),
    ([0x09, 0x0d, 0x68, 0x2c, 0x30], fun g ↦ { g with l1Cache := 32 }),
    ([0x40], fun g ↦ { g with l2Cache := 0 }),
    ([0x41, 0x79, 0x39, 0x3b], fun g ↦ { g with l2Cache := 128 }),
    ([0x3a], fun g ↦ { g with l2Cache := 192 }),
    ([0x21, 0x42, 0x7a, 0x82, 0x3c, 0x3f], fun g ↦ { g with l2Cache := 256 }),
    ([0x3d], fun g ↦ { g with l2Cache := 384 }),
    ([0x43, 0x7b, 0x83, 0x86, 0x3e, 0x7f, 0x80], fun g ↦ { g with l2Cache := 512 }),
    ([0x44, 0x7c, 0x84, 0x87, 0x78], fun g ↦ { g with l2Cache := 1024 }),
    ([0x45, 0x7d, 0x85], fun g ↦ { g with l2Cache := 2048 }),
    ([0x48], fun g ↦ { g with l2Cache := 3072 }),
    ([0x49], fun g ↦ { g with l2Cache := 4096 }),
    ([0x4e], fun g ↦ { g with l2Cache := 6144 }),
    ([0x22, 0xd0, 0x23, 0xd1, 0xd6], fun g ↦ { g with l3Cache := 1024 }),
    ([0xdc], fun g ↦ { g with l3Cache := 1536 }),
    ([0x25, 0xd2, 0xd7, 0xe2], fun g ↦ { g with l3Cache := 2048 }),
    ([0xdd], fun g ↦ { g with l3Cache := 3072 }),
    ([0x29, 0x46, 0xd8, 0xe3], fun g ↦ { g with l3Cache := 4096 }),
    ([0x4a, 0xde], fun g ↦ { g with l3Cache := 6144 }),
    ([0x47, 0x4b, 0xe4], fun g ↦ { g with l3Cache := 8192 }),
    ([0x4c, 0xea], fun g ↦ { g with l3Cache := 12288 }),
    ([0x4d], fun g ↦ { g with l3Cache := 16374 }),
    ([0xeb], fun g ↦ { g with l3Cache := 18432 }),
    ([0xec], fun g ↦ { g with l3Cache := 24576 })]

/-- One descriptor of the list that `cpuid` answers to 2: a code from a table, for a cache of a
certain size. -/
def cacheCode (g : CpuInfo) (c : UInt8) : CpuInfo :=
  match cacheCodes.find? fun row ↦ c ∈ row.1 with
  | some row => row.2 g
  | none => g

/-- The size of a cache by its deterministic parameters, in `long` arithmetic. -/
def dcacheSize (ebx ecx : Int32) : Int32 :=
  let bits (shift mask : Int32) : Int32 := (ebx >>> shift) &&& mask
  (bits 22 0x3FF + 1) * (bits 12 0x3FF + 1) * ((bits 0 0xFFF + 1) * (ecx + 1) / 1024)

/-- One cache of the deterministic parameters; an instruction cache does not count. -/
def dcacheLevel (id : CpuIdent) (g : CpuInfo) (i : Fin 4) : CpuInfo :=
  let size := dcacheSize (id.dcache i 1) (id.dcache i 2)
  match ((id.dcache i 0 >>> 5) &&& 7).toInt with
  | 1 => if (id.dcache i 0 &&& 3) ≠ 2 then { g with l1Cache := size } else g
  | 2 => { g with l2Cache := size }
  | 3 => { g with l3Cache := size }
  | _ => g

/-- The cache sizes of an Intel processor: by the descriptors, or by the deterministic parameters if
these have given none for the first level. -/
def intelCaches (id : CpuIdent) (g : CpuInfo) : CpuInfo :=
  let g := ((List.finRange 16).map id.cacheInfo).foldl cacheCode g
  if g.l1Cache = 0 ∧ ((id.dcache 0 0 >>> 5) &&& 7) = 1 then
    (List.finRange 4).foldl (dcacheLevel id) g
  else g

/-- Intel, type 5. -/
def pentium (id : CpuIdent) (g : CpuInfo) : CpuInfo :=
  match id.model.toInt with
  | 0 | 1 | 2 | 3 | 7 =>
    { g with cpuTypeStr := "Pentium", l1Cache := if g.l1Cache = 0 then 8 else g.l1Cache }
  | 4 | 8 =>
    { g with cpuTypeStr := "Pentium-MMX", l1Cache := if g.l1Cache = 0 then 16 else g.l1Cache }
  | _ => g

/-- Intel, type 6. -/
def p6 (id : CpuIdent) (g : CpuInfo) : CpuInfo :=
  match id.model.toInt with
  | 0 | 1 => { g with cpuTypeStr := "Pentium Pro" }
  | 3 => { g with cpuTypeStr := "Pentium II" }
  | 5 =>
    if id.extModel ≠ 0 then
      if 1 < id.extModel then
        { g with cpuTypeStr := "Intel Core i3/i5", tscInvariable := true, imcType := 0x0003 }
      else
        { g with
          cpuTypeStr := "Intel EP80579"
          l2Cache := if g.l2Cache = 0 then 256 else g.l2Cache }
    else
      { g with cpuTypeStr := if g.l2Cache = 0 then "Celeron" else "Pentium II" }
  | 6 => { g with cpuTypeStr := if g.l2Cache = 128 then "Celeron" else "Pentium II" }
  | 7 | 8 | 11 =>
    if id.extModel ≠ 0 then
      { g with
        cpuTypeStr := if g.l2Cache < 1024 then "Celeron" else "Intel Core 2"
        tscInvariable := true }
    else
      { g with cpuTypeStr := if g.l2Cache = 128 then "Celeron" else "Pentium III" }
  | 9 =>
    { g with cpuTypeStr := if g.l2Cache = 512 then "Celeron M (0.13)" else "Pentium M (0.13)" }
  | 10 =>
    if id.extModel ≠ 0 then
      if 1 < id.extModel then
        { g with cpuTypeStr := "Intel Core Gen2", tscInvariable := true, imcType := 0x0004 }
      else
        { g with cpuTypeStr := "Intel Core i7", tscInvariable := true, imcType := 0x0001 }
    else
      { g with cpuTypeStr := "Pentium III Xeon" }
  | 12 =>
    if 1 < id.extModel then
      { g with cpuTypeStr := "Core i7 (32nm)", tscInvariable := true, imcType := 0x0002 }
    else
      { g with cpuTypeStr := "Atom (0.045)", l1Cache := 24 }
  | 13 =>
    { g with cpuTypeStr := if g.l2Cache = 1024 then "Celeron M (0.09)" else "Pentium M (0.09)" }
  | 14 =>
    -- the name of this one is only printed
    if id.extModel ≠ 0 then
      { g with tscInvariable := true, imcType := 0x0001 }
    else
      { g with cpuTypeStr := "Intel Core" }
  | 15 =>
    { g with
      cpuTypeStr := if g.l2Cache = 1024 then "Pentium E" else "Intel Core 2"
      tscInvariable := true }
  | _ => g

/-- The names of the models of a NetBurst process: the Celeron, the two Xeons, and the rest. -/
def netburstName (id : CpuIdent) (g : CpuInfo) (celeron : Int32) (process rest : String) : String :=
  if g.l2Cache = celeron then "Celeron " ++ process
  else if id.pwrcap = 0x0B then "Xeon DP " ++ process
  else if id.pwrcap = 0x0C then "Xeon MP " ++ process
  else rest

/-- Intel, type 15. -/
def netburst (id : CpuIdent) (g : CpuInfo) : CpuInfo :=
  match id.model.toInt with
  | 0 | 1 => { g with cpuTypeStr := netburstName id g 128 "(0.18)" "Pentium 4 (0.18)" }
  | 2 => { g with cpuTypeStr := netburstName id g 128 "(0.13)" "Pentium 4 (0.13)" }
  | 3 => { g with cpuTypeStr := netburstName id g 256 "(0.09)" "Pentium 4 (0.09)" }
  | 4 =>
    { g with
      cpuTypeStr := netburstName id g 256 "(0.09)"
        (if id.step.toInt = 0x4 ∨ id.step.toInt = 0x7 then "Pentium D (0.09)"
          else "Pentium 4 (0.09)") }
  | 6 => { g with cpuTypeStr := "Pentium D (65nm)" }
  | _ => { g with cpuTypeStr := "Unknown Intel" }

/-- The branch `'G'`. -/
def intelOrTransmeta (id : CpuIdent) (g : CpuInfo) : Except CpuInfo CpuInfo :=
  if id.vendId 7 = 0x54 then
    .ok (transmeta id g)
  else if id.type.toInt = 4 then
    .error (intel486 id g)
  else
    let g := intelCaches id g
    match id.type.toInt with
    | 5 => .ok (pentium id g)
    | 6 => .ok (p6 id g)
    | 15 => .ok (netburst id g)
    | _ => .ok g

/-! ### VIA, Cyrix and Centaur -/

/-- Centaur. -/
def centaur (id : CpuIdent) (g : CpuInfo) : CpuInfo :=
  let g := { g with l1Cache := id.l1, l2Cache := id.cache 11 }
  match id.type.toInt with
  | 5 => { g with cpuTypeStr := "Centaur 5x86" }
  | 6 =>
    match id.model.toInt with
    | 10 => { g with cpuTypeStr := "VIA C7 (C5J)", l1Cache := 64, l2Cache := 128 }
    | 13 => { g with cpuTypeStr := "VIA C7 (C5R)", l1Cache := 64, l2Cache := 128 }
    | 15 => { g with cpuTypeStr := "VIA Isaiah (CN)", l1Cache := 64, l2Cache := 1024 }
    | _ => { g with cpuTypeStr := if id.step.toInt < 8 then "VIA C3 Samuel2" else "VIA C3 Eden" }
  | _ => g

/-- Cyrix, type 5. -/
def cyrix5 (id : CpuIdent) (g : CpuInfo) : CpuInfo :=
  match id.model.toInt with
  | 0 => { g with cpuTypeStr := "Cyrix 6x86MX/MII" }
  | 4 => { g with cpuTypeStr := "Cyrix GXm" }
  | _ => g

/-- Cyrix, type 6. -/
def cyrix6 (id : CpuIdent) (g : CpuInfo) : CpuInfo :=
  let g :=
    match id.model.toInt with
    | 6 => { g with cpuTypeStr := "Cyrix III" }
    | 7 => { g with cpuTypeStr := if id.step.toInt < 8 then "VIA C3 Samuel2" else "VIA C3 Ezra-T" }
    | 8 => { g with cpuTypeStr := "VIA C3 Ezra-T" }
    | 9 => { g with cpuTypeStr := "VIA C3 Nehemiah" }
    | _ => g
  { g with l1Cache := 64, l2Cache := 64 }

/-- The branch `'C'`. -/
def viaOrCyrix (id : CpuIdent) (g : CpuInfo) : Except CpuInfo CpuInfo :=
  if id.vendId 1 = 0x65 then
    .ok (centaur id g)
  else
    match id.type.toInt with
    | 5 => .error (cyrix5 id g)
    | 6 => .ok (cyrix6 id g)
    | _ => .ok g

/-! ### The whole tree -/

/-- The branch of an unknown vendor, whose processor is named by its family alone. -/
def unknownVendor (id : CpuIdent) (g : CpuInfo) : Except CpuInfo CpuInfo :=
  match id.type.toInt with
  | 5 => .error { g with cpuTypeStr := "586" }
  | 6 => .error { g with cpuTypeStr := "686" }
  | _ => .ok g

/-- `cpu_type` up to the calibration: `.error` where it returns before. -/
def identify (id : CpuIdent) (cx86 : UInt8) (g : CpuInfo) : Except CpuInfo CpuInfo :=
  if id.cpuid < 1 then
    .error (withoutCpuid id cx86 g)
  else
    let g := if id.capability &&& (0x40 : Int32) ≠ 0 then { g with pae := true } else g
    match (id.vendId 0).toNat with
    | 0x41 => amd id g
    | 0x47 => intelOrTransmeta id g
    | 0x43 => viaOrCyrix id g
    | _ => unknownVendor id g

/-! ### What the tree decides -/

section leaves

variable (id : CpuIdent)

/-- **The processors whose rate is measured**: they have `cpuid`, and they are not 486 processors
of AMD or Intel, Cyrix processors of type 5, or processors of type 5 or 6 of an unknown vendor. -/
def ReachesCalibration : Prop :=
  1 ≤ id.cpuid ∧
    (id.vendId 0 = 0x41 → id.type.toInt ≠ 4) ∧
    (id.vendId 0 = 0x47 → id.vendId 7 ≠ 0x54 → id.type.toInt ≠ 4) ∧
    (id.vendId 0 = 0x43 → id.vendId 1 ≠ 0x65 → id.type.toInt ≠ 5) ∧
    (id.vendId 0 ≠ 0x41 → id.vendId 0 ≠ 0x47 → id.vendId 0 ≠ 0x43 →
      id.type.toInt ≠ 5 ∧ id.type.toInt ≠ 6)

instance : Decidable (ReachesCalibration id) := inferInstanceAs (Decidable (_ ∧ _))

/-- The models of Intel's type 6 with a counter that keeps its rate. -/
def InvariableModel : Prop :=
  (id.model.toInt = 5 ∨ id.model.toInt = 12) ∧ 1 < id.extModel ∨
    (id.model.toInt = 7 ∨ id.model.toInt = 8 ∨ id.model.toInt = 10 ∨ id.model.toInt = 11 ∨
      id.model.toInt = 14) ∧ id.extModel ≠ 0 ∨
    id.model.toInt = 15

instance : Decidable (InvariableModel id) := inferInstanceAs (Decidable (_ ∨ _))

/-- The processors whose counter keeps its rate, so that the calibration is corrected. -/
def InvariableTsc : Prop :=
  id.vendId 0 = 0x47 ∧ id.vendId 7 ≠ 0x54 ∧ id.type.toInt = 6 ∧ InvariableModel id

instance : Decidable (InvariableTsc id) := inferInstanceAs (Decidable (_ ∧ _))

end leaves

/-! ### The calibration -/

/-- What `cpuspeed` meets: the counter before and after the 50 ms, how often the port was read in
between, and what `correct_tsc` makes of a count. The factors `correct_tsc` reads from the model
specific registers are floating-point numbers, so it is a parameter. -/
structure Calibration where
  start : Tsc
  stop : Tsc
  loops : Int32
  correctTsc : UInt32 → UInt32

/-- `end_low` after the subtraction. -/
def Calibration.endLow (c : Calibration) : UInt32 := c.stop.low - c.start.low

/-- `cpuspeed`: kHz, or -1 if the result is not credible. -/
def cpuspeed (c : Calibration) (tscInvariable : Bool) : Int32 :=
  if c.loops < 4 ∨ c.endLow < 50000 then -1
  else
    let endLow := if tscInvariable then c.correctTsc c.endLow else c.endLow
    (endLow / 50).toInt32

/-- The rate that is set from what `cpuspeed` returns. `speed` is unsigned. -/
def setSpeed (extclock : UInt32) (khz : Int32) : UInt32 :=
  let speed := khz.toUInt32
  if 0 < speed then
    if speed < 1000000 - 50 then speed + 50 else speed + 500
  else extclock

/-- The globals of `timer.c` after `cpu_type`, and what `cpuspeed` returned if it was called. -/
structure CpuState where
  info : CpuInfo
  extclock : UInt32
  rdtsc : Bool
  measured : Option Int32

/-- The sizes that stand for none found; the second test sets `l1_cache` again. -/
def defaultCaches (g : CpuInfo) : CpuInfo :=
  let g := if g.l1Cache = 0 then { g with l1Cache := 66 } else g
  if g.l2Cache = 0 then { g with l1Cache := 666 } else g

/-- `cpu_type`, from the globals as they are at the start. -/
def cpuType (id : CpuIdent) (cx86 : UInt8) (c : Calibration) : CpuState :=
  match identify id cx86 .start with
  | .error g => ⟨g, 0, false, none⟩
  | .ok g =>
    let khz := cpuspeed c g.tscInvariable
    ⟨defaultCaches g, setSpeed 0 khz, true, some khz⟩

/-- `timer_init`: the rate, the date, the counter at the start, and the first time of day. -/
def timerInit (n : ℕ) (id : CpuIdent) (cx86 : UInt8) (c : Calibration)
    (cmosRead : RtcRegister → UInt8) (base now : Tsc) : Except NoReturn TvWords :=
  doGettimeofday n ⟨(cpuType id cx86 c).extclock, base.count, rtcGetRtcTime cmosRead⟩ now

end Dwipe

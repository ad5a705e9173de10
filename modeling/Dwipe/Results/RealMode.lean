import Dwipe.Disk.Served
import Dwipe.Machine.Scripts
import Dwipe.Runtime.Relocation

/-!
# The abstract machine is what the assembler implements

Everything proved of the program rests on `int13_1` to `int13_4` of `Machine.Bios`: one access to
the real-mode area, one answer of the BIOS, and the carry flag as the returned value. Here the
instructions of `int13.S` and `head.S` are shown to do that. `Represents p m c` relates a machine to
a processor; a stub takes related states to related states (`stub_refines`), and so does every run
in which the C code stores into the records, calls stubs and does whatever it likes elsewhere, from
`relocate_real` on (`relocated_runs_refine`).

**The requests have to be well made.** The stores of a stub aim the request at `real_buffer`, but
what is in `AH` and how many sectors are asked for is up to the C code, and a BIOS that is told to
move more than the buffer takes writes over the stack it returns by. That the checks of `disk.c`
exclude this is the matter of `wipeDisk_wellMade`.

The C code relies on more than the answer: the stub must hand back its registers, its stack pointer,
its stack and its data (`stub_transparent`).

The BIOS both results are tried with moves sectors: `driveBios` reads the packet at `ds:si` and
transfers between the blocks of a drive and the address the packet names.
-/

namespace Dwipe

open Bytes

variable {σ : Type} {env : Env σ} {p : Pointers} {size : UInt8 → ℕ} {bios : RealBios σ}
  {m : Machine σ} {c c' : Pc σ}

/-! ### One call -/

/-- The entries of `int13.S`, by the pointer they pass. -/
inductive Int13 where
  | one
  | two
  | three
  | four
  deriving DecidableEq

/-- The instructions behind an entry, up to its `ret`. -/
def Int13.code : Int13 → RealBios σ → Pointers → Labels → Pc σ → Pc σ
  | .one => int13Stub1
  | .two => int13Stub2
  | .three => int13Stub3
  | .four => int13Stub4

/-- The program that stands for them. -/
def Int13.prog (env : Env σ) : Int13 → Prog σ ℤ
  | .one => int13_1 env
  | .two => int13_2 env
  | .three => int13_3 env
  | .four => int13_4 env

/-- **The processor is in the state of the machine**, with its stack pointer where `head.S` puts the
stack: above what real mode reaches. -/
structure Represents (p : Pointers) (m : Machine σ) (c : Pc σ) : Prop where
  mirrors : Mirrors p m.area c.mem
  bios : c.bios = m.bios
  esp : 0x110000 + 64 ≤ c.esp.toNat

/-- The area each stub asks the BIOS with: that of the call, with the pointers the stub has
stored. -/
def Int13.area (env : Env σ) (q : RealArea) : Int13 → RealArea
  | .one => { q with reg := { q.reg with es := 0, si := 0 } }
  | .two => { q with reg := { q.reg with
      es := 0x1000
      si := 0
      bl := UInt8.ofNat (env.bufferOffset.toNat % 256)
      bh := UInt8.ofNat (env.bufferOffset.toNat / 256) } }
  | .three => { q with
      dap := { q.dap with size := 0x10, unused := 0, offset := env.bufferOffset, base := 0x1000 }
      reg := { q.reg with si := env.dapOffset } }
  | .four => { q with
      paramExt := { q.paramExt with size := 0x1e }
      reg := { q.reg with si := env.paramExtOffset } }

theorem Int13.prog_val (k : Int13) (m : Machine σ) :
    (k.prog env m).val = if (env.int13 m.bios (k.area env m.area)).carry then 1 else 0 := by
  cases k <;> rfl

theorem Int13.prog_area (k : Int13) (m : Machine σ) :
    (k.prog env m).state.area = (env.int13 m.bios (k.area env m.area)).area := by
  cases k <;> rfl

theorem Int13.prog_bios (k : Int13) (m : Machine σ) :
    (k.prog env m).state.bios = (env.int13 m.bios (k.area env m.area)).bios := by
  cases k <;> rfl

theorem Int13.prog_events (k : Int13) (m : Machine σ) :
    (k.prog env m).events = [.int13 ⟨m.site, k.area env m.area,
      (env.int13 m.bios (k.area env m.area)).carry,
      (env.int13 m.bios (k.area env m.area)).area⟩] := by
  cases k <;> rfl

/-- What is on the processor after a stub, from what was before it. -/
theorem Int13.code_spec (hb : Implements env p size bios) (hp : Placed p) {q : RealArea}
    {f : Frame} (k : Int13) (lab : Labels)
    (hq : WellMade env (size (k.area env q).reg.dl) (k.area env q)) (hf : f.Roomy)
    (h : Kept p q f [] c.mem c.esp)
    (hc : c' = k.code bios p lab c) :
    Kept p (env.int13 c.bios (k.area env q)).area f [] c'.mem c'.esp ∧
      c'.bios = (env.int13 c.bios (k.area env q)).bios ∧
      c'.regs .eax = flagWord (env.int13 c.bios (k.area env q)).carry ∧
      ∀ r ∈ [Reg.ebx, .esi, .edi, .ebp], c'.regs r = c.regs r := by
  cases k with
  | one =>
    exact stub_spec hb hp (prepares_body1 hp) hq (by decide) (by decide) (by decide) hf h lab hc
  | two =>
    exact stub_spec hb hp (prepares_body2 hp hb.bufferOffset) hq (by decide) (by decide)
      (by decide) hf h lab hc
  | three =>
    exact stub_spec hb hp (prepares_body3 hp hb.bufferOffset hb.dapOffset) hq (by decide)
      (by decide) (by decide) hf h lab hc
  | four =>
    exact stub_spec hb hp (prepares_body4 hp hb.paramExtOffset) hq (by decide) (by decide)
      (by decide) hf h lab hc

/-- The frame of a caller: its memory, and its stack from the stack pointer on. -/
def Pc.frame (c : Pc σ) : Frame := ⟨c.esp.toNat, c.mem⟩

theorem Represents.roomy (h : Represents p m c) : c.frame.Roomy := ⟨h.esp, c.esp.toNat_lt⟩

theorem Represents.kept (h : Represents p m c) : Kept p m.area c.frame [] c.mem c.esp :=
  ⟨h.mirrors, fun i hi ↦ absurd hi (Nat.not_lt_zero i), rfl, fun _ _ _ ↦ rfl⟩

theorem flagWord_toNat (b : Bool) : ((flagWord b).toNat : ℤ) = if b then 1 else 0 := by
  cases b <;> rfl

/-- **A stub is the program that stands for it.** -/
theorem stub_refines (hb : Implements env p size bios) (hp : Placed p) (h : Represents p m c)
    (k : Int13) (lab : Labels)
    (hq : WellMade env (size (k.area env m.area).reg.dl) (k.area env m.area))
    (hc : c' = k.code bios p lab c) :
    Represents p (k.prog env m).state c' ∧ ((c'.regs .eax).toNat : ℤ) = (k.prog env m).val := by
  obtain ⟨hkept, hbios, heax, -⟩ := k.code_spec hb hp lab hq h.roomy h.kept hc
  rw [h.bios] at hkept hbios heax
  have htop : c'.esp.toNat = c.esp.toNat := hkept.top
  refine ⟨⟨?_, ?_, ?_⟩, ?_⟩
  · rw [k.prog_area]
    exact hkept.mirrors
  · rw [k.prog_bios, hbios]
  · rw [htop]
    exact h.esp
  · rw [heax, flagWord_toNat, k.prog_val]

/-! ### Runs -/

/-- What the C code does with the real-mode data. -/
inductive Act where
  | access (a : Access)
  | call (k : Int13)

/-- One act of the machine, and the values its calls return. -/
def Act.prog (env : Env σ) : Act → Prog σ (List ℤ)
  | .access a => do
    modifyArea a.onArea
    return []
  | .call k => do return [← k.prog env]

/-- A sequence of acts, with the values the calls in it return. -/
def runActs (env : Env σ) : List Act → Prog σ (List ℤ)
  | [] => return []
  | a :: l => do return (← a.prog env) ++ (← runActs env l)

/-- **A run of the processor** that performs a list of acts. Between them the program may do
anything that leaves the segment of the real-mode data and the BIOS alone and keeps the stack where
it is: `own` changes registers, stack and memory at will. -/
inductive Executes (bios : RealBios σ) (p : Pointers) :
    Pc σ → List Act → List UInt32 → Pc σ → Prop
  | done (c : Pc σ) : Executes bios p c [] [] c
  | own {c c₁ c' : Pc σ} {l : List Act} {rs : List UInt32}
      (hmem : ∀ a, 0x10000 ≤ a → a < 0x20000 → c₁.mem a = c.mem a) (hbios : c₁.bios = c.bios)
      (hesp : 0x110000 + 64 ≤ c₁.esp.toNat) (h : Executes bios p c₁ l rs c') :
      Executes bios p c l rs c'
  | access {c c' : Pc σ} {l : List Act} {rs : List UInt32} (a : Access)
      (h : Executes bios p { c with mem := a.onMem p c.mem } l rs c') :
      Executes bios p c (.access a :: l) rs c'
  | call {c c' : Pc σ} {l : List Act} {rs : List UInt32} (k : Int13) (lab : Labels)
      (h : Executes bios p (k.code bios p lab c) l rs c') :
      Executes bios p c (.call k :: l) ((k.code bios p lab c).regs .eax :: rs) c'

/-- What the program does outside the segment is not seen in the area. -/
theorem Mirrors.of_segment {q : RealArea} {mem mem' : ℕ → UInt8} (h : Mirrors p q mem)
    (hp : Placed p) (hsame : ∀ a, 0x10000 ≤ a → a < 0x20000 → mem' a = mem a) :
    Mirrors p q mem' := by
  have h1 := hp.low
  have h2 := hp.reg
  have h3 := hp.dap
  have h4 := hp.paramExt
  have h5 := hp.buffer
  have hsize := maxSectorBufferSize_toNat
  refine ⟨?_, ?_, ?_, fun j hj ↦ ?_⟩
  · rw [← h.reg]
    exact regAt_congr fun i _ _ ↦ hsame i (by omega) (by omega)
  · rw [← h.dap]
    exact dapAt_congr fun i _ _ ↦ hsame i (by omega) (by omega)
  · rw [← h.paramExt]
    exact paramExtAt_congr fun i _ _ ↦ hsame i (by omega) (by omega)
  · rw [← h.buffer j hj]
    exact hsame _ (by omega) (by omega)

/-- The requests a list of acts makes are well made. -/
def MakesWell (env : Env σ) (size : UInt8 → ℕ) (l : List Act) (m : Machine σ) : Prop :=
  ∀ x ∈ exchanges (runActs env l m).events, WellMade env (size x.req.reg.dl) x.req

theorem MakesWell.access {a : Access} {l : List Act} (h : MakesWell env size (.access a :: l) m) :
    MakesWell env size l { m with area := a.onArea m.area } := fun x hx ↦
  h x (by simpa [runActs, Act.prog, TraceM.run_bind, modifyArea] using hx)

theorem MakesWell.call {k : Int13} {l : List Act} (h : MakesWell env size (.call k :: l) m) :
    WellMade env (size (k.area env m.area).reg.dl) (k.area env m.area) ∧
      MakesWell env size l (k.prog env m).state := by
  have hevents : exchanges (runActs env (.call k :: l) m).events =
      exchanges (k.prog env m).events ++ exchanges (runActs env l (k.prog env m).state).events := by
    simp [runActs, Act.prog, TraceM.run_bind]
  rw [MakesWell, hevents, k.prog_events] at h
  exact ⟨h _ (List.mem_append_left _ List.mem_cons_self),
    fun x hx ↦ h x (List.mem_append_right _ hx)⟩

/-- **Every run of the processor is a run of the machine.** -/
theorem Executes.refines (hb : Implements env p size bios) (hp : Placed p) {l : List Act}
    {rs : List UInt32} (hrun : Executes bios p c l rs c') (h : Represents p m c)
    (hmade : MakesWell env size l m) :
    Represents p (runActs env l m).state c' ∧
      rs.map (fun w ↦ (w.toNat : ℤ)) = (runActs env l m).val := by
  induction hrun generalizing m with
  | done c => exact ⟨h, rfl⟩
  | own hmem hbios hesp _ ih =>
    exact ih ⟨h.mirrors.of_segment hp hmem, hbios.trans h.bios, hesp⟩ hmade
  | access a _ ih =>
    exact ih (m := { m with area := a.onArea m.area }) ⟨h.mirrors.access hp a, h.bios, h.esp⟩
      hmade.access
  | call k lab _ ih =>
    obtain ⟨hq, hrest⟩ := hmade.call
    obtain ⟨hrep, heax⟩ := stub_refines hb hp h k lab hq rfl
    obtain ⟨hrep', hvals⟩ := ih hrep hrest
    refine ⟨hrep', ?_⟩
    rw [List.map_cons, heax, hvals]
    rfl

/-! ### A drive behind the interrupt -/

/-- The bytes of the blocks of a drive, from a block on. -/
def Contents.bytesFrom (d : Contents) (first : ℕ) : ℕ → UInt8 :=
  fun j ↦ d (first + j / 512) (j % 512)

/-- The drive after a transfer of `n` blocks to it. -/
def Contents.put (d : Contents) (first n : ℕ) (src : ℕ → UInt8) : Contents := fun s j ↦
  if first ≤ s ∧ s < first + n ∧ j < 512 then src (512 * (s - first) + j) else d s j

/-- `INT 13h` of a BIOS with one drive of blocks of 512 bytes, which does the extended transfers and
nothing else. It takes everything from the packet at `ds:si`: how many blocks, which, and where in
memory they go or come from. -/
def driveBios : RealBios Contents := fun d r mem ↦
  let packet := dapAt mem (realAddr r.si)
  let place := 16 * packet.base.toNat + packet.offset.toNat
  let status (ah : ℕ) : RealRegs := { r with ax := UInt16.ofNat (r.ax.toNat % 256 + 256 * ah) }
  if r.ax.toNat / 256 = 0x42 then
    ⟨false, status 0,
      blit mem place (512 * packet.nsectors.toNat) (d.bytesFrom packet.begin.toNat), d⟩
  else if r.ax.toNat / 256 = 0x43 then
    ⟨false, status 0, mem,
      d.put packet.begin.toNat packet.nsectors.toNat fun j ↦ mem (place + j)⟩
  else ⟨true, status 1, mem, d⟩

/-- A program linked with its real-mode code at `0x100800`. -/
def exampleImage : RealImage := ⟨0x100800, 0x100, by decide, by decide, by decide⟩

/-- The same drive, seen through the records. -/
def driveEnv : Env Contents :=
  { Env.ofBios (fun d q ↦
      if q.reg.ah = 0x42 then
        ⟨false, { q.withStatus 0 with
          buffer := memcpy q.buffer (d.bytesFrom q.dap.begin.toNat)
            (512 * q.dap.nsectors.toNat) }, d⟩
      else if q.reg.ah = 0x43 then
        ⟨false, q.withStatus 0, d.put q.dap.begin.toNat q.dap.nsectors.toNat q.buffer⟩
      else ⟨true, q.withStatus 1, d⟩) fun _ ↦ 0 with
    bufferOffset := (exampleImage.pointers .buffer).toUInt16
    dapOffset := (exampleImage.pointers .dap).toUInt16
    paramExtOffset := (exampleImage.pointers .paramExt).toUInt16 }

theorem toNat_pair (l h : UInt8) :
    (UInt16.ofNat (l.toNat + 256 * h.toNat)).toNat = l.toNat + 256 * h.toNat := by
  have hl := l.toNat_lt
  have hh := h.toNat_lt
  have hlt : l.toNat + 256 * h.toNat < 2 ^ 16 := by omega
  rw [UInt16.toNat_ofNat', Nat.mod_eq_of_lt hlt]

/-- The two bytes of a register, taken out of it again. -/
theorem bytes_of_pair (l h : UInt8) :
    UInt8.ofNat ((l.toNat + 256 * h.toNat) % 256) = l ∧
      UInt8.ofNat ((l.toNat + 256 * h.toNat) / 256) = h := by
  have hl := l.toNat_lt
  have hh := h.toNat_lt
  have hlow : (l.toNat + 256 * h.toNat) % 256 = l.toNat := by omega
  have hhigh : (l.toNat + 256 * h.toNat) / 256 = h.toNat := by omega
  rw [hlow, hhigh]
  exact ⟨UInt8.ofNat_toNat, UInt8.ofNat_toNat⟩

/-- The registers that were loaded, with a status stored in `AH`. -/
theorem regOf_status (r : RegReq) (ah : UInt8) :
    regOf { regsOf r with ax := UInt16.ofNat ((regsOf r).ax.toNat % 256 + 256 * ah.toNat) } =
      { r with ah := ah } := by
  have hlt := r.al.toNat_lt
  have hal : (r.al.toNat + 256 * r.ah.toNat) % 256 = r.al.toNat := by omega
  simp only [regsOf, regOf, toNat_pair, hal, (bytes_of_pair _ _).1, (bytes_of_pair _ _).2]

/-- The function number `query_pcbios` loads. -/
theorem regsOf_function (r : RegReq) (k : ℕ) (hk : k < 256) :
    (regsOf r).ax.toNat / 256 = k ↔ r.ah = UInt8.ofNat k := by
  have hlt := r.al.toNat_lt
  have hah := r.ah.toNat_lt
  have hdiv : (regsOf r).ax.toNat / 256 = r.ah.toNat := by
    simp only [regsOf, toNat_pair]
    omega
  rw [hdiv, ← UInt8.toNat_inj, UInt8.toNat_ofNat', Nat.mod_eq_of_lt hk]

/-- A transfer to the drive looks at the bytes it moves and at no others. -/
theorem Contents.put_congr (d : Contents) (first n : ℕ) {src src' : ℕ → UInt8}
    (h : ∀ j < 512 * n, src j = src' j) : d.put first n src = d.put first n src' := by
  funext s j
  rw [put, put]
  split_ifs with hin
  · exact h _ (by omega)
  · rfl

/-- **The packet the BIOS finds** through `%si` is the one of the area, and the place it names is
the transfer buffer. -/
theorem packet_drive {size : ℕ} {q : RealArea} {mem : ℕ → UInt8} (hq : WellMade driveEnv size q)
    (h : Mirrors exampleImage.pointers q mem) (hah : q.reg.ah = 0x42 ∨ q.reg.ah = 0x43) :
    dapAt mem (realAddr (regsOf q.reg).si) = q.dap ∧
      16 * q.dap.base.toNat + q.dap.offset.toNat = (exampleImage.pointers .buffer).toNat := by
  obtain ⟨hsi, -, -, hoffset, hbase⟩ := hq.packet hah
  have hpacket : realAddr driveEnv.dapOffset = (exampleImage.pointers .dap).toNat := by decide
  have hplace : 16 * (0x1000 : UInt16).toNat + driveEnv.bufferOffset.toNat =
      (exampleImage.pointers .buffer).toNat := by decide
  have hfound : (regsOf q.reg).si = driveEnv.dapOffset := hsi
  constructor
  · rw [hfound, hpacket, h.dap]
  · rw [hbase, hoffset, hplace]

/-- **`driveBios` is `driveEnv`** on the requests the program makes: a packet that is aimed at the
buffer and does not ask for more than it takes moves bytes of the buffer only. -/
theorem implements_drive :
    Implements driveEnv exampleImage.pointers (fun _ ↦ 512) driveBios := by
  have hplaced := exampleImage.placed
  have hsize := maxSectorBufferSize_toNat
  refine ⟨rfl, rfl, rfl, fun d q mem hq h ↦ ?_⟩
  have h1 := hplaced.reg
  have h2 := hplaced.dap
  have h3 := hplaced.paramExt
  have h4 := hplaced.buffer
  have hread := regsOf_function q.reg 0x42 (by decide)
  have hwrite := regsOf_function q.reg 0x43 (by decide)
  by_cases hah : q.reg.ah = 0x42 ∨ q.reg.ah = 0x43
  · obtain ⟨hdap, haddr⟩ := packet_drive hq h hah
    have hfits := hq.packetFits hah
    by_cases hr : q.reg.ah = 0x42
    · have hbios : driveBios d (regsOf q.reg) mem = ⟨false,
          { regsOf q.reg with ax := UInt16.ofNat ((regsOf q.reg).ax.toNat % 256 + 256 * 0) },
          blit mem (exampleImage.pointers .buffer).toNat (512 * q.dap.nsectors.toNat)
            (d.bytesFrom q.dap.begin.toNat), d⟩ := by
        simp only [driveBios, hdap, haddr, hread.2 hr, if_true]
      have henv : driveEnv.int13 d q = ⟨false, { q.withStatus 0 with
          buffer := memcpy q.buffer (d.bytesFrom q.dap.begin.toNat)
            (512 * q.dap.nsectors.toNat) }, d⟩ := if_pos hr
      have hmoved := h.blit_buffer hplaced (d.bytesFrom q.dap.begin.toNat)
        (512 * q.dap.nsectors.toNat)
      rw [hbios, henv]
      refine ⟨rfl, rfl, regOf_status q.reg 0, hmoved.dap, hmoved.paramExt, hmoved.buffer,
        fun i hi ↦ blit_apply_of_outside (by omega)⟩
    · have hw : q.reg.ah = 0x43 := hah.resolve_left hr
      have hbios : driveBios d (regsOf q.reg) mem = ⟨false,
          { regsOf q.reg with ax := UInt16.ofNat ((regsOf q.reg).ax.toNat % 256 + 256 * 0) }, mem,
          d.put q.dap.begin.toNat q.dap.nsectors.toNat
            fun j ↦ mem ((exampleImage.pointers .buffer).toNat + j)⟩ := by
        simp only [driveBios, hdap, haddr, hwrite.2 hw, show ¬(0x43 : ℕ) = 0x42 by decide, if_false,
          if_true]
      have henv : driveEnv.int13 d q = ⟨false, q.withStatus 0,
          d.put q.dap.begin.toNat q.dap.nsectors.toNat q.buffer⟩ := by
        show (if _ then _ else _) = _
        rw [if_neg hr, if_pos hw]
      rw [hbios, henv]
      refine ⟨rfl, d.put_congr _ _ fun j hj ↦ h.buffer j (by omega), regOf_status q.reg 0, h.dap,
        h.paramExt, h.buffer, fun _ _ ↦ rfl⟩
  · -- any other function fails
    obtain ⟨hr, hw⟩ := not_or.1 hah
    have hbios : driveBios d (regsOf q.reg) mem = ⟨true,
        { regsOf q.reg with ax := UInt16.ofNat ((regsOf q.reg).ax.toNat % 256 + 256 * 1) }, mem,
        d⟩ := by
      have hr' : ¬(regsOf q.reg).ax.toNat / 256 = 0x42 := fun h' ↦ hr (hread.1 h')
      have hw' : ¬(regsOf q.reg).ax.toNat / 256 = 0x43 := fun h' ↦ hw (hwrite.1 h')
      simp only [driveBios, hr', hw', if_false]
    have henv : driveEnv.int13 d q = ⟨true, q.withStatus 1, d⟩ := by
      show (if _ then _ else _) = _
      rw [if_neg hr, if_neg hw]
    rw [hbios, henv]
    exact ⟨rfl, rfl, regOf_status q.reg 1, h.dap, h.paramExt, h.buffer, fun _ _ ↦ rfl⟩

/-- A drive on which every block holds its own number. -/
def numberedDrive : Contents := fun s _ ↦ UInt8.ofNat s

/-- The processor behind `relocate_real`, with its stack at `0x200000`. -/
def relocated : Pc Contents where
  regs := fun _ ↦ 0
  esp := 0x200000
  es := 0
  carry := false
  mem := exampleImage.relocateReal fun _ ↦ 0
  bios := numberedDrive

theorem holds_zero : exampleImage.Holds RealArea.zero fun _ ↦ 0 := ⟨rfl, rfl, rfl, fun _ _ ↦ rfl⟩

/-- Addresses for the two labels. -/
def exampleLabels : Labels := ⟨0x104000, 0x104100⟩

/-! ### What the C code relies on -/

/-- **A stub is transparent to its caller**, when what it asks is well made: `%ebx`, `%esi`, `%edi`,
`%ebp` and `%esp` are back, and above what real mode reaches no byte has changed but the sixteen
words below the stack pointer. -/
theorem stub_transparent (hb : Implements env p size bios) (hp : Placed p) (h : Represents p m c)
    (k : Int13) (lab : Labels)
    (hq : WellMade env (size (k.area env m.area).reg.dl) (k.area env m.area)) :
    (k.code bios p lab c).esp = c.esp ∧
      (∀ r ∈ [Reg.ebx, .esi, .edi, .ebp], (k.code bios p lab c).regs r = c.regs r) ∧
      ∀ a, 0x110000 ≤ a → a + 64 < c.esp.toNat ∨ c.esp.toNat ≤ a →
        (k.code bios p lab c).mem a = c.mem a := by
  obtain ⟨hkept, -, -, hregs⟩ := k.code_spec hb hp lab hq h.roomy h.kept rfl
  exact ⟨UInt32.toNat_inj.1 hkept.top, hregs, hkept.same⟩

/-- What the C code stores before an extended read of block 5 of the first hard disk. -/
def readFive : List Access := [.reg .ah 0x42, .reg .dl 0x80, .nsectors 1, .begin 5]

/-- The machine once `readFive` is stored. -/
def askedFive : Machine Contents :=
  { Machine.fresh numberedDrive 0 with area := readFive.foldl Access.onArea RealArea.zero }

/-- The processor once `readFive` is stored. -/
def storedFive : Pc Contents :=
  { relocated with mem := readFive.foldl (Access.onMem exampleImage.pointers) relocated.mem }

theorem wellMade_five : WellMade driveEnv 512 (Int13.three.area driveEnv askedFive.area) :=
  ⟨⟨fun h ↦ by revert h; decide, fun _ ↦ ⟨rfl, rfl, rfl, rfl, rfl⟩⟩, by decide,
    fun h ↦ by revert h; decide, fun _ ↦ by decide, fun h ↦ by revert h; decide⟩

/-- An extended read of block 5, seen by its caller. -/
theorem stub_transparent_read :
    (Int13.three.code driveBios exampleImage.pointers exampleLabels storedFive).esp = 0x200000 ∧
      (Int13.three.code driveBios exampleImage.pointers exampleLabels storedFive).regs .esi =
        0 := by
  have hp := exampleImage.placed
  have hbytes := (holds_zero.mirrors.access hp (.reg .ah 0x42)).access hp (.reg .dl 0x80)
  have hpacket := (hbytes.access hp (.nsectors 1)).access hp (.begin 5)
  have hstart : Represents exampleImage.pointers askedFive storedFive :=
    ⟨hpacket, rfl, by decide⟩
  obtain ⟨hesp, hregs, -⟩ :=
    stub_transparent implements_drive hp hstart .three exampleLabels wellMade_five
  exact ⟨hesp, hregs .esi (by decide)⟩

/-- **From `relocate_real` on, the assembler implements the machine.** Wherever the program was
linked, a run that stores into the records, calls stubs and does anything elsewhere gets from each
call what the abstract machine returns, and ends with the area of that machine in memory; the calls
have to ask for what the buffer takes. -/
theorem relocated_runs_refine (i : RealImage) (hb : Implements env i.pointers size bios)
    {mem : ℕ → UInt8} (hlink : i.Holds m.area mem) (hmem : c.mem = i.relocateReal mem)
    (hbios : c.bios = m.bios) (hesp : 0x110000 + 64 ≤ c.esp.toNat) {l : List Act}
    {rs : List UInt32} (hrun : Executes bios i.pointers c l rs c')
    (hmade : MakesWell env size l m) :
    rs.map (fun w ↦ (w.toNat : ℤ)) = (runActs env l m).val ∧
      Mirrors i.pointers (runActs env l m).state.area c'.mem ∧
      c'.bios = (runActs env l m).state.bios := by
  have hstart : Represents i.pointers m c := by
    refine ⟨?_, hbios, hesp⟩
    rw [hmem]
    exact hlink.mirrors
  obtain ⟨hrep, hvals⟩ := hrun.refines hb i.placed hstart hmade
  exact ⟨hvals, hrep.mirrors, hrep.bios⟩

/-- Block 5 read through the packet: the call returns 0, and the buffer holds the block. -/
theorem relocated_runs_refine_read : ∃ rs c',
    Executes driveBios exampleImage.pointers relocated
        (readFive.map .access ++ [.call .three]) rs c' ∧
      rs.map (fun w ↦ (w.toNat : ℤ)) = [0] ∧
      ∀ j < 512, c'.mem ((exampleImage.pointers .buffer).toNat + j) = 5 := by
  have hrun : Executes driveBios exampleImage.pointers relocated
      (readFive.map .access ++ [.call .three]) _ _ :=
    .access _ (.access _ (.access _ (.access _ (.call .three exampleLabels (.done _)))))
  have hmade : MakesWell driveEnv (fun _ ↦ 512) (readFive.map .access ++ [.call .three])
      (Machine.fresh numberedDrive 0) := by
    intro x hx
    obtain rfl := List.mem_singleton.1 hx
    exact wellMade_five
  obtain ⟨hvals, hmirrors, -⟩ := relocated_runs_refine exampleImage implements_drive
    (m := Machine.fresh numberedDrive 0) holds_zero rfl rfl (by decide) hrun hmade
  refine ⟨_, _, hrun, hvals, fun j hj ↦ ?_⟩
  rw [hmirrors.buffer j (by rw [maxSectorBufferSize_toNat]; omega)]
  show memcpy _ (numberedDrive.bytesFrom 5) (512 * 1) j = 5
  rw [memcpy_of_lt (by omega), Contents.bytesFrom, numberedDrive, Nat.div_eq_of_lt hj]
  rfl

end Dwipe

import Dwipe.Runtime.RealMode

/-!
# What the stubs do to the real-mode data

The memory of `Runtime.RealMode` against the `RealArea` of `Machine.Bios`. `Mirrors p q mem` says
that the bytes at the four pointers are the records of `q`: it is the abstraction from bytes to
fields. `Kept` adds the words the program has on its protected-mode stack; together they are carried
through every instruction.

The main lemmas are `callQuery_spec`, for `query_pcbios`, and one lemma for each stub's stores. They
rest on `Placed`, which says where the four records lie, and on `Implements`, which relates the BIOS
in real mode to the one of the abstract machine.

**The BIOS is trusted with the requests of the program only.** `INT 13h` can be told to read a
sector to any address, the stack it returns by included; so `Implements` says nothing of a request
that is not `WellMade`, and what a stub asks has to be shown well made before its answer is used.
-/

namespace Dwipe

open Bytes

variable {σ : Type} {p : Pointers} {q : RealArea} {mem mem' : ℕ → UInt8}

/-! ### Bytes and fields -/

/-- The `reg_req_t` at an address, up to its word `si`. -/
def regAt (mem : ℕ → UInt8) (a : ℕ) : RegReq where
  al := mem a
  ah := mem (a + 1)
  bl := mem (a + 2)
  bh := mem (a + 3)
  cl := mem (a + 4)
  ch := mem (a + 5)
  dl := mem (a + 6)
  dh := mem (a + 7)
  es := UInt16.ofNat (loadLE mem (a + 8) 2)
  si := UInt16.ofNat (loadLE mem (a + 10) 2)

/-- The `struct disk_dap` at an address. -/
def dapAt (mem : ℕ → UInt8) (a : ℕ) : DiskDap where
  size := mem a
  unused := mem (a + 1)
  nsectors := UInt16.ofNat (loadLE mem (a + 2) 2)
  offset := UInt16.ofNat (loadLE mem (a + 4) 2)
  base := UInt16.ofNat (loadLE mem (a + 6) 2)
  begin := UInt64.ofNat (loadLE mem (a + 8) 8)

/-- The `struct disk_param_ext` at an address. -/
def paramExtAt (mem : ℕ → UInt8) (a : ℕ) : DiskParamExt where
  size := UInt16.ofNat (loadLE mem a 2)
  flags := UInt16.ofNat (loadLE mem (a + 2) 2)
  ncylinders := UInt32.ofNat (loadLE mem (a + 4) 4)
  nheads := UInt32.ofNat (loadLE mem (a + 8) 4)
  sectorsPerTrack := UInt32.ofNat (loadLE mem (a + 12) 4)
  nsectors := UInt64.ofNat (loadLE mem (a + 16) 8)
  bytesPerSector := UInt16.ofNat (loadLE mem (a + 24) 2)
  edd := UInt32.ofNat (loadLE mem (a + 26) 4)

/-- **The memory holds the area**: each record is found where its pointer says, field by field. -/
structure Mirrors (p : Pointers) (q : RealArea) (mem : ℕ → UInt8) : Prop where
  reg : regAt mem (p .reg).toNat = q.reg
  dap : dapAt mem (p .dap).toNat = q.dap
  paramExt : paramExtAt mem (p .paramExt).toNat = q.paramExt
  buffer : ∀ j < maxSectorBufferSize.toNat, mem ((p .buffer).toNat + j) = q.buffer j

/-- Where the records lie: in the segment of the real-mode code, in the order of `head.S`, and clear
of the six bytes that `query_pcbios` itself puts on the real-mode stack. -/
structure Placed (p : Pointers) : Prop where
  low : 0x10000 ≤ (p .reg).toNat
  reg : (p .reg).toNat + 18 ≤ (p .dap).toNat
  dap : (p .dap).toNat + 16 ≤ (p .paramExt).toNat
  paramExt : (p .paramExt).toNat + 30 ≤ (p .buffer).toNat
  buffer : (p .buffer).toNat + maxSectorBufferSize.toNat ≤ 0x1FFFA

theorem maxSectorBufferSize_toNat : maxSectorBufferSize.toNat = 32256 := rfl

theorem regAt_congr {a : ℕ} (h : ∀ i, a ≤ i → i < a + 12 → mem i = mem' i) :
    regAt mem a = regAt mem' a := by
  have hes : loadLE mem (a + 8) 2 = loadLE mem' (a + 8) 2 :=
    loadLE_congr fun i h1 h2 ↦ h i (by omega) (by omega)
  have hsi : loadLE mem (a + 10) 2 = loadLE mem' (a + 10) 2 :=
    loadLE_congr fun i h1 h2 ↦ h i (by omega) (by omega)
  simp only [regAt, hes, hsi, h a (by omega) (by omega), h (a + 1) (by omega) (by omega),
    h (a + 2) (by omega) (by omega), h (a + 3) (by omega) (by omega),
    h (a + 4) (by omega) (by omega), h (a + 5) (by omega) (by omega),
    h (a + 6) (by omega) (by omega), h (a + 7) (by omega) (by omega)]

theorem dapAt_congr {a : ℕ} (h : ∀ i, a ≤ i → i < a + 16 → mem i = mem' i) :
    dapAt mem a = dapAt mem' a := by
  have hload {k n : ℕ} (hk : k + n ≤ 16) : loadLE mem (a + k) n = loadLE mem' (a + k) n :=
    loadLE_congr fun i h1 h2 ↦ h i (by omega) (by omega)
  simp only [dapAt, h a (by omega) (by omega), h (a + 1) (by omega) (by omega),
    hload (show 2 + 2 ≤ 16 by omega), hload (show 4 + 2 ≤ 16 by omega),
    hload (show 6 + 2 ≤ 16 by omega), hload (show 8 + 8 ≤ 16 by omega)]

theorem paramExtAt_congr {a : ℕ} (h : ∀ i, a ≤ i → i < a + 30 → mem i = mem' i) :
    paramExtAt mem a = paramExtAt mem' a := by
  have hload {k n : ℕ} (hk : k + n ≤ 30) : loadLE mem (a + k) n = loadLE mem' (a + k) n :=
    loadLE_congr fun i h1 h2 ↦ h i (by omega) (by omega)
  have h0 : loadLE mem a 2 = loadLE mem' a 2 := hload (show 0 + 2 ≤ 30 by omega)
  simp only [paramExtAt, h0, hload (show 2 + 2 ≤ 30 by omega), hload (show 4 + 4 ≤ 30 by omega),
    hload (show 8 + 4 ≤ 30 by omega), hload (show 12 + 4 ≤ 30 by omega),
    hload (show 16 + 8 ≤ 30 by omega), hload (show 24 + 2 ≤ 30 by omega),
    hload (show 26 + 4 ≤ 30 by omega)]

theorem regAt_storeLE_of_outside {a b n v : ℕ} (h : b + n ≤ a ∨ a + 12 ≤ b) :
    regAt (storeLE mem b n v) a = regAt mem a :=
  regAt_congr fun _ _ _ ↦ storeLE_apply_of_outside (by omega)

theorem dapAt_storeLE_of_outside {a b n v : ℕ} (h : b + n ≤ a ∨ a + 16 ≤ b) :
    dapAt (storeLE mem b n v) a = dapAt mem a :=
  dapAt_congr fun _ _ _ ↦ storeLE_apply_of_outside (by omega)

theorem paramExtAt_storeLE_of_outside {a b n v : ℕ} (h : b + n ≤ a ∨ a + 30 ≤ b) :
    paramExtAt (storeLE mem b n v) a = paramExtAt mem a :=
  paramExtAt_congr fun _ _ _ ↦ storeLE_apply_of_outside (by omega)

/-- **A store outside the records** is not seen in the area. The six bytes behind `si` belong to the
assembler only. -/
theorem Mirrors.store_outside (h : Mirrors p q mem) (hp : Placed p) {a n v : ℕ}
    (hout : a + n ≤ (p .reg).toNat ∨ (p .reg).toNat + 12 ≤ a ∧ a + n ≤ (p .dap).toNat ∨
      (p .buffer).toNat + maxSectorBufferSize.toNat ≤ a) :
    Mirrors p q (storeLE mem a n v) := by
  have h1 := hp.reg
  have h2 := hp.dap
  have h3 := hp.paramExt
  refine ⟨?_, ?_, ?_, fun j hj ↦ ?_⟩
  · rw [regAt_storeLE_of_outside (by omega)]
    exact h.reg
  · rw [dapAt_storeLE_of_outside (by omega)]
    exact h.dap
  · rw [paramExtAt_storeLE_of_outside (by omega)]
    exact h.paramExt
  · rw [storeLE_apply_of_outside (by omega)]
    exact h.buffer j hj

/-- **A store into `real_reg`** changes the register record only. -/
theorem Mirrors.store_reg (h : Mirrors p q mem) (hp : Placed p) {k n v : ℕ} (hk : k + n ≤ 12)
    {r : RegReq} (hr : regAt (storeLE mem ((p .reg).toNat + k) n v) (p .reg).toNat = r) :
    Mirrors p { q with reg := r } (storeLE mem ((p .reg).toNat + k) n v) := by
  have h1 := hp.reg
  have h2 := hp.dap
  have h3 := hp.paramExt
  refine ⟨hr, ?_, ?_, fun j hj ↦ ?_⟩
  · rw [dapAt_storeLE_of_outside (by omega)]
    exact h.dap
  · rw [paramExtAt_storeLE_of_outside (by omega)]
    exact h.paramExt
  · rw [storeLE_apply_of_outside (by omega)]
    exact h.buffer j hj

/-- **A store into `real_dap`** changes the packet only. -/
theorem Mirrors.store_dap (h : Mirrors p q mem) (hp : Placed p) {k n v : ℕ} (hk : k + n ≤ 16)
    {d : DiskDap} (hd : dapAt (storeLE mem ((p .dap).toNat + k) n v) (p .dap).toNat = d) :
    Mirrors p { q with dap := d } (storeLE mem ((p .dap).toNat + k) n v) := by
  have h1 := hp.reg
  have h2 := hp.dap
  have h3 := hp.paramExt
  refine ⟨?_, hd, ?_, fun j hj ↦ ?_⟩
  · rw [regAt_storeLE_of_outside (by omega)]
    exact h.reg
  · rw [paramExtAt_storeLE_of_outside (by omega)]
    exact h.paramExt
  · rw [storeLE_apply_of_outside (by omega)]
    exact h.buffer j hj

/-- **A store into `real_disk_param_ext`** changes the result buffer only. -/
theorem Mirrors.store_paramExt (h : Mirrors p q mem) (hp : Placed p) {k n v : ℕ} (hk : k + n ≤ 30)
    {e : DiskParamExt}
    (he : paramExtAt (storeLE mem ((p .paramExt).toNat + k) n v) (p .paramExt).toNat = e) :
    Mirrors p { q with paramExt := e } (storeLE mem ((p .paramExt).toNat + k) n v) := by
  have h1 := hp.reg
  have h2 := hp.dap
  have h3 := hp.paramExt
  refine ⟨?_, ?_, he, fun j hj ↦ ?_⟩
  · rw [regAt_storeLE_of_outside (by omega)]
    exact h.reg
  · rw [dapAt_storeLE_of_outside (by omega)]
    exact h.dap
  · rw [storeLE_apply_of_outside (by omega)]
    exact h.buffer j hj

/-! ### Single words of the records -/

theorem ofNat_mod_word (v : UInt16) : UInt16.ofNat (v.toNat % 256 ^ 2) = v := by
  have hv := v.toNat_lt
  rw [Nat.mod_eq_of_lt (by omega)]
  exact UInt16.ofNat_toNat

/-- The low and the high byte of a stored word. -/
theorem storeLE_word (mem : ℕ → UInt8) (a : ℕ) (v : UInt16) :
    storeLE mem a 2 v.toNat a = UInt8.ofNat (v.toNat % 256) ∧
      storeLE mem a 2 v.toNat (a + 1) = UInt8.ofNat (v.toNat / 256) := by
  constructor
  · rw [storeLE, if_pos (by omega), Nat.sub_self, pow_zero, Nat.div_one]
    apply UInt8.toNat_inj.1
    simp
  · rw [storeLE, if_pos (by omega), Nat.add_sub_cancel_left, pow_one]

theorem regAt_store_es (mem : ℕ → UInt8) (a : ℕ) (v : UInt16) :
    regAt (storeLE mem (a + 8) 2 v.toNat) a = { regAt mem a with es := v } := by
  simp (disch := omega) only [regAt, storeLE_apply_of_outside, loadLE_storeLE,
    loadLE_storeLE_of_disjoint, ofNat_mod_word]

theorem regAt_store_si (mem : ℕ → UInt8) (a : ℕ) (v : UInt16) :
    regAt (storeLE mem (a + 10) 2 v.toNat) a = { regAt mem a with si := v } := by
  simp (disch := omega) only [regAt, storeLE_apply_of_outside, loadLE_storeLE,
    loadLE_storeLE_of_disjoint, ofNat_mod_word]

theorem regAt_store_bx (mem : ℕ → UInt8) (a : ℕ) (v : UInt16) :
    regAt (storeLE mem (a + 2) 2 v.toNat) a =
      { regAt mem a with
        bl := UInt8.ofNat (v.toNat % 256)
        bh := UInt8.ofNat (v.toNat / 256) } := by
  obtain ⟨hlow, hhigh⟩ := storeLE_word mem (a + 2) v
  simp (disch := omega) only [regAt, storeLE_apply_of_outside, loadLE_storeLE_of_disjoint, hlow,
    hhigh]

/-- The registers `query_pcbios` loads, as the words the bytes of the record make up. -/
def regsOf (r : RegReq) : RealRegs where
  ax := UInt16.ofNat (r.al.toNat + 256 * r.ah.toNat)
  bx := UInt16.ofNat (r.bl.toNat + 256 * r.bh.toNat)
  cx := UInt16.ofNat (r.cl.toNat + 256 * r.ch.toNat)
  dx := UInt16.ofNat (r.dl.toNat + 256 * r.dh.toNat)
  es := r.es
  si := r.si
  di := 0

/-- The record `query_pcbios` stores, as the bytes of the words. -/
def regOf (r : RealRegs) : RegReq where
  al := UInt8.ofNat (r.ax.toNat % 256)
  ah := UInt8.ofNat (r.ax.toNat / 256)
  bl := UInt8.ofNat (r.bx.toNat % 256)
  bh := UInt8.ofNat (r.bx.toNat / 256)
  cl := UInt8.ofNat (r.cx.toNat % 256)
  ch := UInt8.ofNat (r.cx.toNat / 256)
  dl := UInt8.ofNat (r.dx.toNat % 256)
  dh := UInt8.ofNat (r.dx.toNat / 256)
  es := r.es
  si := r.si

/-- The memory after the six stores; `%di` is not stored back. -/
def storeRegs (mem : ℕ → UInt8) (a : ℕ) (r : RealRegs) : ℕ → UInt8 :=
  storeLE (storeLE (storeLE (storeLE (storeLE (storeLE mem a 2 r.ax.toNat) (a + 2) 2 r.bx.toNat)
    (a + 4) 2 r.cx.toNat) (a + 6) 2 r.dx.toNat) (a + 8) 2 r.es.toNat) (a + 10) 2 r.si.toNat

theorem regAt_storeRegs (mem : ℕ → UInt8) (a : ℕ) (r : RealRegs) :
    regAt (storeRegs mem a r) a = regOf r := by
  have hax := storeLE_word mem a r.ax
  have hbx := fun m ↦ storeLE_word m (a + 2) r.bx
  have hcx := fun m ↦ storeLE_word m (a + 4) r.cx
  have hdx := fun m ↦ storeLE_word m (a + 6) r.dx
  simp (disch := omega) only [regAt, storeRegs, regOf, storeLE_apply_of_outside, loadLE_storeLE,
    loadLE_storeLE_of_disjoint, ofNat_mod_word, hax.1, hax.2, (hbx _).1, (hbx _).2, (hcx _).1,
    (hcx _).2, (hdx _).1, (hdx _).2]

theorem storeRegs_apply_of_outside {a i : ℕ} {r : RealRegs} (h : i < a ∨ a + 12 ≤ i) :
    storeRegs mem a r i = mem i := by
  simp (disch := omega) only [storeRegs, storeLE_apply_of_outside]

/-! ### The two BIOSes -/

/-- **What `INT 13h` came back with is the answer** of the abstract machine, seen through the four
pointers. The stack of the caller and the memory that real mode does not reach are as they were. -/
structure ComesBack (p : Pointers) (mem : ℕ → UInt8) (r : RealReturn σ) (a : Answer σ) : Prop where
  carry : r.carry = a.carry
  bios : r.bios = a.bios
  regs : regOf r.regs = a.area.reg
  dap : dapAt r.mem (p .dap).toNat = a.area.dap
  paramExt : paramExtAt r.mem (p .paramExt).toNat = a.area.paramExt
  buffer : ∀ j < maxSectorBufferSize.toNat, r.mem ((p .buffer).toNat + j) = a.area.buffer j
  stack : ∀ i, 0x1FFFA ≤ i ∧ i < 0x20000 ∨ 0x110000 ≤ i → r.mem i = mem i

/-- **The BIOS in real mode is the one of the abstract machine**, on the requests that the program
makes: it answers registers and memory that mirror a well-made area as `env.int13` answers the area.
Of other requests nothing is said, since a BIOS told to read to the stack of its caller, or to write
sectors out of memory that is no part of the area, does so. What it remembers is its state `b`,
apart from the memory, so that the rest of the memory does not matter to it. `size` is the sector
size of each drive. -/
structure Implements (env : Env σ) (p : Pointers) (size : UInt8 → ℕ) (bios : RealBios σ) :
    Prop where
  bufferOffset : env.bufferOffset = (p .buffer).toUInt16
  dapOffset : env.dapOffset = (p .dap).toUInt16
  paramExtOffset : env.paramExtOffset = (p .paramExt).toUInt16
  answers : ∀ b q mem, WellMade env (size q.reg.dl) q → Mirrors p q mem →
    ComesBack p mem (bios b (regsOf q.reg) mem) (env.int13 b q)

/-! ### The protected-mode stack -/

/-- What the program has in memory when it calls a stub, and where its stack ends. -/
structure Frame where
  top : ℕ
  mem : ℕ → UInt8

/-- The stack lies above what real mode reaches, with room for sixteen words. -/
def Frame.Roomy (f : Frame) : Prop := 0x110000 + 64 ≤ f.top ∧ f.top < 2 ^ 32

/-- The memory holds the area `q`, and the words `ws` from the stack pointer up to the frame; above
what real mode reaches, nothing but these sixteen words differs from the frame. -/
structure Kept (p : Pointers) (q : RealArea) (f : Frame) (ws : List UInt32) (mem : ℕ → UInt8)
    (esp : UInt32) : Prop where
  mirrors : Mirrors p q mem
  words : ∀ i (hi : i < ws.length), loadLE mem (esp.toNat + 4 * i) 4 = ws[i].toNat
  top : esp.toNat + 4 * ws.length = f.top
  same : ∀ a, 0x110000 ≤ a → a + 64 < f.top ∨ f.top ≤ a → mem a = f.mem a

section kept

variable {f : Frame} {ws : List UInt32} {esp w : UInt32}

theorem toNat_sub_four (h : 4 ≤ esp.toNat) : (esp - 4).toNat = esp.toNat - 4 := by
  rw [UInt32.toNat_sub_of_le]
  · rfl
  · rw [UInt32.le_iff_toNat_le]
    exact h

theorem toNat_add_small {n : UInt32} (h : esp.toNat + n.toNat < 2 ^ 32) :
    (esp + n).toNat = esp.toNat + n.toNat := by
  rw [UInt32.toNat_add, Nat.mod_eq_of_lt h]

/-- **A push** stays below what has been kept so far, and above what real mode reaches. -/
theorem Kept.push (h : Kept p q f ws mem esp) (hp : Placed p) (hf : f.Roomy)
    (hlen : ws.length < 16) (w : UInt32) :
    Kept p q f (w :: ws) (storeLE mem (esp - 4).toNat 4 w.toNat) (esp - 4) := by
  have htop := h.top
  have hbuffer := hp.buffer
  obtain ⟨hlow, hhigh⟩ := hf
  have hesp : (esp - 4).toNat = esp.toNat - 4 := toNat_sub_four (by omega)
  refine ⟨h.mirrors.store_outside hp (by omega), fun i hi ↦ ?_, ?_, fun a ha hout ↦ ?_⟩
  · cases i with
    | zero =>
      have hw := w.toNat_lt
      rw [Nat.mul_zero, Nat.add_zero, loadLE_storeLE, Nat.mod_eq_of_lt (by omega)]
      rfl
    | succ i =>
      have hi' : i < ws.length := by simpa using hi
      have haddr : (esp - 4).toNat + 4 * (i + 1) = esp.toNat + 4 * i := by omega
      rw [haddr, loadLE_storeLE_of_disjoint (by omega), h.words i hi']
      rfl
  · rw [List.length_cons]
    omega
  · rw [storeLE_apply_of_outside (by omega), h.same a ha hout]

/-- **A pop**: the word on top, and the stack without it. -/
theorem Kept.pop (h : Kept p q f (w :: ws) mem esp) (hf : f.Roomy) :
    UInt32.ofNat (loadLE mem esp.toNat 4) = w ∧ Kept p q f ws mem (esp + 4) := by
  have htop := h.top
  rw [List.length_cons] at htop
  obtain ⟨hlow, hhigh⟩ := hf
  have h4 : (4 : UInt32).toNat = 4 := rfl
  have hesp : (esp + 4).toNat = esp.toNat + 4 := toNat_add_small (by omega)
  refine ⟨?_, h.mirrors, fun i hi ↦ ?_, by omega, h.same⟩
  · have h0 := h.words 0 (by simp)
    rw [Nat.mul_zero, Nat.add_zero] at h0
    rw [h0]
    exact UInt32.ofNat_toNat
  · have hi' := h.words (i + 1) (by simpa using hi)
    have haddr : (esp + 4).toNat + 4 * i = esp.toNat + 4 * (i + 1) := by omega
    rw [haddr, hi']
    rfl

/-- **A memory that agrees above `0x110000`** keeps the stack, with whatever area it mirrors. -/
theorem Kept.of_low (h : Kept p q f ws mem esp) (hf : f.Roomy) (hlen : ws.length ≤ 16)
    {q' : RealArea} (hq : Mirrors p q' mem') (hsame : ∀ a, 0x110000 ≤ a → mem' a = mem a) :
    Kept p q' f ws mem' esp := by
  have htop := h.top
  obtain ⟨hlow, -⟩ := hf
  refine ⟨hq, fun i hi ↦ ?_, h.top, fun a ha hout ↦ ?_⟩
  · rw [← h.words i hi]
    exact loadLE_congr fun a _ _ ↦ hsame a (by omega)
  · rw [hsame a ha, h.same a ha hout]

/-- Words skipped below the stack pointer are on the stack, whatever they are. -/
theorem Kept.skip (h : Kept p q f ws mem esp) (hf : f.Roomy) (hlen : ws.length < 16) :
    ∃ w, Kept p q f (w :: ws) mem (esp - 4) := by
  have htop := h.top
  obtain ⟨hlow, hhigh⟩ := hf
  have hesp : (esp - 4).toNat = esp.toNat - 4 := toNat_sub_four (by omega)
  refine ⟨UInt32.ofNat (loadLE mem (esp - 4).toNat 4), h.mirrors, fun i hi ↦ ?_, ?_, h.same⟩
  · cases i with
    | zero =>
      have hlt := loadLE_lt mem (esp - 4).toNat 4
      rw [Nat.mul_zero, Nat.add_zero, List.getElem_cons_zero, UInt32.toNat_ofNat',
        Nat.mod_eq_of_lt (by omega)]
    | succ i =>
      have hi' : i < ws.length := by simpa using hi
      have haddr : (esp - 4).toNat + 4 * (i + 1) = esp.toNat + 4 * i := by omega
      rw [haddr, h.words i hi']
      rfl
  · rw [List.length_cons]
    omega

end kept

/-! ### One instruction after the other -/

section run

variable {c : Pc σ} {is is' : List Op} {i : Op}

@[simp] theorem run_nil : Op.run p [] c = c := rfl

@[simp] theorem run_cons : Op.run p (i :: is) c = Op.run p is (i.step p c) := rfl

theorem run_append : Op.run p (is ++ is') c = Op.run p is' (Op.run p is c) := List.foldl_append

@[simp] theorem store_esp (a n v : ℕ) : (c.store a n v).esp = c.esp := rfl

@[simp] theorem store_bios (a n v : ℕ) : (c.store a n v).bios = c.bios := rfl

@[simp] theorem store_regs (a n v : ℕ) : (c.store a n v).regs = c.regs := rfl

@[simp] theorem store_mem (a n v : ℕ) : (c.store a n v).mem = storeLE c.mem a n v := rfl

@[simp] theorem setReg_regs (r r' : Reg) (w : UInt32) :
    (c.setReg r w).regs r' = if r' = r then w else c.regs r' := by
  simp [Pc.setReg, Function.update_apply]

@[simp] theorem setLowReg_regs (r r' : Reg) (w : UInt16) :
    (c.setLowReg r w).regs r' = if r' = r then setLow (c.regs r) w else c.regs r' :=
  setReg_regs ..

end run

theorem toUInt16_setLow (r : UInt32) (w : UInt16) : (setLow r w).toUInt16 = w := by
  apply UInt16.toNat_inj.1
  have hw := w.toNat_lt
  have hr := r.toNat_lt
  rw [setLow, UInt32.toNat_toUInt16, UInt32.toNat_ofNat']
  omega

/-- The offset of `real_reg` in the real-mode segment leads back to its address. -/
theorem realAddr_reg (hp : Placed p) {d : UInt16} (hd : d.toNat ≤ 14) :
    realAddr ((p .reg).toUInt16 + d) = (p .reg).toNat + d.toNat := by
  have h1 := hp.low
  have h2 := hp.reg
  have h3 := hp.dap
  have h4 := hp.paramExt
  have h5 := hp.buffer
  rw [realAddr, UInt16.toNat_add, UInt32.toNat_toUInt16]
  omega

/-- The exclusive or with the linear address of the segment does not touch the low half. -/
theorem toUInt16_xor_segment (w : UInt32) :
    (w ^^^ (0x1000 : UInt32) <<< (4 : UInt32)).toUInt16 = w.toUInt16 := by
  have hseg : ((0x1000 : UInt32) <<< (4 : UInt32)).toUInt16 = 0 := by decide
  rw [UInt32.toUInt16_xor, hseg, UInt16.xor_zero]

section query

variable {c : Pc σ} {f : Frame} {ws : List UInt32}

/-- A push does not touch what real mode reaches. -/
theorem Kept.push_low {esp : UInt32} (h : Kept p q f ws mem esp) (hf : f.Roomy)
    (hlen : ws.length < 16) (w : UInt32) {a : ℕ} (ha : a < 0x110000) :
    storeLE mem (esp - 4).toNat 4 w.toNat a = mem a := by
  have htop := h.top
  obtain ⟨hlow, hhigh⟩ := hf
  have hesp : (esp - 4).toNat = esp.toNat - 4 := toNat_sub_four (by omega)
  exact storeLE_apply_of_outside (by omega)

/-- `query_pcbios` up to the jump: the caller's registers are on the stack, and the stack pointer is
in `%ebx`. -/
theorem queryEntry_spec (h : Kept p q f ws c.mem c.esp) (hp : Placed p) (hf : f.Roomy)
    (hlen : ws.length + 5 ≤ 16) (back : UInt32) {c' : Pc σ}
    (hc : c' = Op.run p (.pushImm back :: queryEntry) c) :
    Kept p q f (c.regs .ebp :: c.regs .edi :: c.regs .esi :: c.regs .ebx :: back :: ws)
        c'.mem c'.esp ∧
      c'.regs .ebx = c'.esp ∧ c'.regs .edi = c.regs .edi ∧ c'.bios = c.bios ∧
      ∀ a < 0x110000, c'.mem a = c.mem a := by
  have hlen1 : ws.length < 16 := by omega
  have h1 := h.push hp hf hlen1 back
  have hlen2 : (back :: ws).length < 16 := by rw [List.length_cons]; omega
  have h2 := h1.push hp hf hlen2 (c.regs .ebx)
  have hlen3 : (c.regs .ebx :: back :: ws).length < 16 := by simp only [List.length_cons]; omega
  have h3 := h2.push hp hf hlen3 (c.regs .esi)
  have hlen4 : (c.regs .esi :: c.regs .ebx :: back :: ws).length < 16 := by
    simp only [List.length_cons]; omega
  have h4 := h3.push hp hf hlen4 (c.regs .edi)
  have hlen5 : (c.regs .edi :: c.regs .esi :: c.regs .ebx :: back :: ws).length < 16 := by
    simp only [List.length_cons]; omega
  have h5 := h4.push hp hf hlen5 (c.regs .ebp)
  subst hc
  refine ⟨h5, rfl, rfl, rfl, fun a ha ↦ ?_⟩
  exact (h4.push_low hf hlen5 _ ha).trans ((h3.push_low hf hlen4 _ ha).trans
    ((h2.push_low hf hlen3 _ ha).trans ((h1.push_low hf hlen2 _ ha).trans
      (h.push_low hf hlen1 _ ha))))

/-- The memory at the interrupt: the stack pointer of the caller and the offset of `real_reg` are on
the real-mode stack. -/
def realStack (p : Pointers) (mem : ℕ → UInt8) (esp : UInt32) : ℕ → UInt8 :=
  storeLE (storeLE mem 0x1FFFC 4 esp.toNat) 0x1FFFA 2 (p .reg).toUInt16.toNat

/-- The first instructions in real mode: `%di` points at the record, and the caller's stack pointer
is on the new stack. -/
theorem realPush_spec (hedi : c.regs .edi = p .reg) {c' : Pc σ}
    (hc : c' = Op.run p (realEntry.take 5) c) :
    c'.mem = storeLE c.mem 0x1FFFC 4 (c.regs .ebx).toNat ∧ c'.esp = 0xFFFC ∧ c'.bios = c.bios ∧
      (c'.regs .edi).toUInt16 = (p .reg).toUInt16 := by
  have hedi' : c'.regs .edi = p .reg ^^^ (0x1000 : UInt32) <<< (4 : UInt32) := by
    rw [hc, ← hedi]
    rfl
  have hmem : c'.mem = storeLE c.mem (realAddr (UInt32.toUInt16 0 - 4)) 4 (c.regs .ebx).toNat := by
    rw [hc]
    rfl
  have hesp : c'.esp = setLow 0 (UInt32.toUInt16 0 - 4) := by
    rw [hc]
    rfl
  have hbottom : realAddr (UInt32.toUInt16 0 - 4) = 0x1FFFC := by decide
  refine ⟨?_, ?_, ?_, by rw [hedi', toUInt16_xor_segment]⟩
  · rw [hmem, hbottom]
  · rw [hesp]
    decide
  · rw [hc]
    rfl

/-- The low halves of the registers, which is all that real mode sees of them. -/
def Pc.real (c : Pc σ) : RealRegs :=
  ⟨(c.regs .eax).toUInt16, (c.regs .ebx).toUInt16, (c.regs .ecx).toUInt16,
    (c.regs .edx).toUInt16, c.es, (c.regs .esi).toUInt16, (c.regs .edi).toUInt16⟩

/-- **The real-mode code up to the interrupt** has loaded the registers from the record. -/
theorem realEntry_spec (h : Mirrors p q c.mem) (hp : Placed p) (hedi : c.regs .edi = p .reg)
    (hdi : loadLE c.mem ((p .reg).toNat + 12) 2 = 0) {c' : Pc σ}
    (hc : c' = Op.run p realEntry c) :
    c'.mem = realStack p c.mem (c.regs .ebx) ∧ c'.esp = 0xFFFA ∧ c'.bios = c.bios ∧
      c'.real = regsOf q.reg := by
  have h1 := hp.low
  have h2 := hp.reg
  have h3 := hp.dap
  have h4 := hp.paramExt
  have h5 := hp.buffer
  obtain ⟨c₁, hc₁⟩ : ∃ c₁, c₁ = Op.run p (realEntry.take 5) c := ⟨_, rfl⟩
  obtain ⟨hmem₁, hesp₁, hbios₁, hedi₁⟩ := realPush_spec hedi hc₁
  have hrun : c' = Op.run p (realEntry.drop 5) c₁ := by
    rw [hc, hc₁, ← run_append, List.take_append_drop]
  have hbelow : realAddr (UInt32.toUInt16 0xFFFC - 2) = 0x1FFFA := by decide
  have hesp : setLow 0xFFFC (UInt32.toUInt16 0xFFFC - 2) = 0xFFFA := by decide
  -- a word of the record, seen through the words on the real-mode stack
  have hload (d : UInt16) {k : ℕ} (hd : d.toNat = k) (hk : k ≤ 10) :
      loadLE c₁.mem (realAddr ((p .reg).toUInt16 + d)) 2 =
        loadLE c.mem ((p .reg).toNat + k) 2 := by
    rw [hmem₁, realAddr_reg hp (by omega), hd, loadLE_storeLE_of_disjoint (by omega)]
  have hlast : loadLE (realStack p c.mem (c.regs .ebx)) (realAddr ((p .reg).toUInt16 + 12)) 2 =
      0 := by
    have h12 : (12 : UInt16).toNat = 12 := rfl
    rw [realStack, realAddr_reg hp (by decide), h12, loadLE_storeLE_of_disjoint (by omega),
      loadLE_storeLE_of_disjoint (by omega), hdi]
  have hmem : c'.mem = storeLE c₁.mem (realAddr (c₁.esp.toUInt16 - 2)) 2
      (c₁.regs .edi).toUInt16.toNat := by
    rw [hrun]
    rfl
  have hesp' : c'.esp = setLow c₁.esp (c₁.esp.toUInt16 - 2) := by
    rw [hrun]
    rfl
  have hbios : c'.bios = c₁.bios := by
    rw [hrun]
    rfl
  have hes : c'.es = UInt16.ofNat (loadLE c₁.mem (realAddr ((c₁.regs .edi).toUInt16 + 8)) 2) := by
    rw [hrun]
    rfl
  have hreg {r : Reg} {d : UInt16} (hr : (r, d) ∈ [(Reg.eax, (0 : UInt16)), (.ebx, 2), (.ecx, 4),
      (.edx, 6), (.esi, 10)]) : (c'.regs r).toUInt16 =
        UInt16.ofNat (loadLE c₁.mem (realAddr ((c₁.regs .edi).toUInt16 + d)) 2) := by
    rw [hrun]
    simp only [List.mem_cons, List.not_mem_nil, or_false, Prod.mk.injEq] at hr
    rcases hr with ⟨rfl, rfl⟩ | ⟨rfl, rfl⟩ | ⟨rfl, rfl⟩ | ⟨rfl, rfl⟩ | ⟨rfl, rfl⟩ <;>
      exact toUInt16_setLow _ _
  have hlastReg : (c'.regs .edi).toUInt16 =
      UInt16.ofNat (loadLE c'.mem (realAddr ((c₁.regs .edi).toUInt16 + 12)) 2) := by
    rw [hmem, hrun]
    exact toUInt16_setLow _ _
  rw [hesp₁, hbelow, hedi₁, hmem₁, ← realStack] at hmem
  refine ⟨hmem, by rw [hesp', hesp₁, hesp], by rw [hbios, hbios₁], ?_⟩
  rw [Pc.real, hreg (r := .eax) (d := 0) (by decide), hreg (r := .ebx) (d := 2) (by decide),
    hreg (r := .ecx) (d := 4) (by decide), hreg (r := .edx) (d := 6) (by decide),
    hreg (r := .esi) (d := 10) (by decide), hlastReg, hes, hmem, hedi₁, hlast,
    hload 0 rfl (by decide), hload 2 rfl (by decide), hload 4 rfl (by decide),
    hload 6 rfl (by decide), hload 8 rfl (by decide), hload 10 rfl (by decide), ← h.reg]
  simp only [regsOf, regAt, loadLE_two, Nat.add_assoc, Nat.reduceAdd]
  trivial

/-- The long word behind the record, in which the stubs find the carry flag. -/
def flagWord (carry : Bool) : UInt32 := if carry then 1 else 0

/-- **The branches behind the interrupt**: `%di` is back, and the flag is behind the record. -/
theorem storeFlag_spec (hp : Placed p) (hesp : c.esp = 0xFFFA)
    (hdi : loadLE c.mem 0x1FFFA 2 = (p .reg).toUInt16.toNat) {c' : Pc σ}
    (hc : c' = Op.run p (storeFlag c.carry) c) :
    c'.mem = storeLE c.mem ((p .reg).toNat + 14) 4 (flagWord c.carry).toNat ∧
      c'.esp = 0xFFFC ∧ c'.bios = c.bios ∧ (c'.regs .edi).toUInt16 = (p .reg).toUInt16 ∧
      c'.es = c.es ∧ ∀ r, r ≠ .edi → c'.regs r = c.regs r := by
  have hlist : storeFlag c.carry = [.realPopw .edi, .realMovlTo (flagWord c.carry) 14] := by
    rw [storeFlag, flagWord]
    split_ifs <;> rfl
  have htop : realAddr (UInt32.toUInt16 0xFFFA) = 0x1FFFA := by decide
  have hdown : setLow 0xFFFA (UInt32.toUInt16 0xFFFA + 2) = 0xFFFC := by decide
  have hedi' : (c'.regs .edi).toUInt16 =
      UInt16.ofNat (loadLE c.mem (realAddr c.esp.toUInt16) 2) := by
    rw [hc, hlist]
    exact toUInt16_setLow _ _
  have hedi : (c'.regs .edi).toUInt16 = (p .reg).toUInt16 := by
    rw [hedi', hesp, htop, hdi]
    exact UInt16.ofNat_toNat
  have hmem : c'.mem = storeLE c.mem (realAddr ((c'.regs .edi).toUInt16 + 14)) 4
      (flagWord c.carry).toNat := by
    rw [hc, hlist]
    rfl
  have hesp' : c'.esp = setLow c.esp (c.esp.toUInt16 + 2) := by
    rw [hc, hlist]
    rfl
  have h14 : (14 : UInt16).toNat = 14 := rfl
  refine ⟨?_, by rw [hesp', hesp, hdown], ?_, hedi, ?_, fun r hr ↦ ?_⟩
  · rw [hmem, hedi, realAddr_reg hp (by decide), h14]
  · rw [hc, hlist]
    rfl
  · rw [hc, hlist]
    rfl
  · rw [hc, hlist]
    exact Function.update_of_ne hr _ _

/-- **The stores of the registers**, and the old stack pointer. -/
theorem realExit_spec (hp : Placed p) (hesp : c.esp = 0xFFFC)
    (hedi : (c.regs .edi).toUInt16 = (p .reg).toUInt16) {old : UInt32}
    (hold : loadLE c.mem 0x1FFFC 4 = old.toNat) {c' : Pc σ} (hc : c' = Op.run p realExit c) :
    c'.mem = storeRegs c.mem (p .reg).toNat c.real ∧ c'.esp = old ∧ c'.bios = c.bios := by
  have h2 := hp.reg
  have h3 := hp.dap
  have h4 := hp.paramExt
  have h5 := hp.buffer
  have htop : realAddr (UInt32.toUInt16 0xFFFC) = 0x1FFFC := by decide
  have haddr (d : UInt16) (k : ℕ) (hd : d.toNat = k) (hk : k ≤ 10) :
      realAddr ((c.regs .edi).toUInt16 + d) = (p .reg).toNat + k := by
    rw [hedi, realAddr_reg hp (by omega), hd]
  obtain ⟨c₁, hc₁⟩ : ∃ c₁, c₁ = Op.run p (realExit.take 6) c := ⟨_, rfl⟩
  have hrun : c' = Op.run p [.realPopl .ebx, .restoreEsp .ebx] c₁ := by
    rw [hc, hc₁, ← run_append]
    rfl
  have hmem : c₁.mem = storeLE (storeLE (storeLE (storeLE (storeLE (storeLE c.mem
      (realAddr ((c.regs .edi).toUInt16 + 0)) 2 c.real.ax.toNat)
      (realAddr ((c.regs .edi).toUInt16 + 2)) 2 c.real.bx.toNat)
      (realAddr ((c.regs .edi).toUInt16 + 4)) 2 c.real.cx.toNat)
      (realAddr ((c.regs .edi).toUInt16 + 6)) 2 c.real.dx.toNat)
      (realAddr ((c.regs .edi).toUInt16 + 8)) 2 c.real.es.toNat)
      (realAddr ((c.regs .edi).toUInt16 + 10)) 2 c.real.si.toNat := by
    rw [hc₁]
    rfl
  rw [haddr 0 0 rfl (by decide), haddr 2 2 rfl (by decide), haddr 4 4 rfl (by decide),
    haddr 6 6 rfl (by decide), haddr 8 8 rfl (by decide), haddr 10 10 rfl (by decide),
    Nat.add_zero, ← storeRegs] at hmem
  have htake : realExit.take 6 = [.realStorew .eax 0, .realStorew .ebx 2, .realStorew .ecx 4,
      .realStorew .edx 6, .realStoreEs 8, .realStorew .esi 10] := rfl
  have hesp₁ : c₁.esp = c.esp := by
    simp only [hc₁, htake, run_cons, run_nil, Op.step, store_esp]
  have hbios₁ : c₁.bios = c.bios := by
    simp only [hc₁, htake, run_cons, run_nil, Op.step, store_bios]
  have hesp' : c'.esp = UInt32.ofNat (loadLE c₁.mem (realAddr c₁.esp.toUInt16) 4) := by
    rw [hrun]
    rfl
  refine ⟨?_, ?_, ?_⟩
  · rw [hrun, ← hmem]
    rfl
  · have hload : loadLE c₁.mem 0x1FFFC 4 = loadLE c.mem 0x1FFFC 4 := by
      rw [hmem]
      exact loadLE_congr fun i _ _ ↦ storeRegs_apply_of_outside (by omega)
    rw [hesp', hesp₁, hesp, htop, hload, hold]
    exact UInt32.ofNat_toNat
  · rw [hrun, ← hbios₁]
    rfl

/-- The `lret` behind `prot` leaves two words below the stack pointer. -/
theorem reload_spec (h : Kept p q f ws c.mem c.esp) (hp : Placed p) (hf : f.Roomy)
    (hlen : ws.length + 2 ≤ 16) (reload : UInt32) {c' : Pc σ}
    (hc : c' = Op.run p ((queryExit reload).take 4) c) :
    Kept p q f ws c'.mem c'.esp ∧ c'.bios = c.bios ∧ ∀ a < 0x110000, c'.mem a = c.mem a := by
  have hlen1 : ws.length < 16 := by omega
  have h1 := h.push hp hf hlen1 0x10
  have hlen2 : ((0x10 : UInt32) :: ws).length < 16 := by rw [List.length_cons]; omega
  have h2 := h1.push hp hf hlen2 reload
  obtain ⟨-, h3⟩ := h2.pop hf
  obtain ⟨-, h4⟩ := h3.pop hf
  have hesp : c.esp - 4 - 4 + 8 = c.esp - 4 - 4 + 4 + 4 := by rw [UInt32.add_assoc]; rfl
  subst hc
  refine ⟨?_, rfl, fun a ha ↦ ?_⟩
  · show Kept p q f ws _ (c.esp - 4 - 4 + 8)
    rw [hesp]
    exact h4
  · exact (h1.push_low hf hlen2 _ ha).trans (h.push_low hf hlen1 _ ha)

/-- The way back in protected mode: the caller's registers and its stack. -/
theorem queryExit_spec {ebp edi esi ebx back : UInt32} (hp : Placed p) (hf : f.Roomy)
    (h : Kept p q f (ebp :: edi :: esi :: ebx :: back :: ws) c.mem c.esp)
    (hlen : ws.length + 7 ≤ 16) (reload : UInt32) {c' : Pc σ}
    (hc : c' = Op.run p (queryExit reload) c) :
    Kept p q f ws c'.mem c'.esp ∧ (∀ a < 0x110000, c'.mem a = c.mem a) ∧ c'.bios = c.bios ∧
      c'.regs .ebp = ebp ∧ c'.regs .edi = edi ∧ c'.regs .esi = esi ∧ c'.regs .ebx = ebx := by
  obtain ⟨c₁, hc₁⟩ : ∃ c₁, c₁ = Op.run p ((queryExit reload).take 4) c := ⟨_, rfl⟩
  have hrun : c' = Op.run p ((queryExit reload).drop 4) c₁ := by
    rw [hc, hc₁, ← run_append, List.take_append_drop]
  obtain ⟨h0, hbios, hlow⟩ :=
    reload_spec h hp hf (by simp only [List.length_cons]; omega) reload hc₁
  obtain ⟨hebp, h1⟩ := h0.pop hf
  obtain ⟨hedi, h2⟩ := h1.pop hf
  obtain ⟨hesi, h3⟩ := h2.pop hf
  obtain ⟨hebx, h4⟩ := h3.pop hf
  obtain ⟨-, h5⟩ := h4.pop hf
  subst hrun
  exact ⟨h5, hlow, hbios, hebp, hedi, hesi, hebx⟩

/-- After the interrupt the registers are the ones it returned with. -/
theorem Pc.int13_real (bios : RealBios σ) (c : Pc σ) :
    (c.int13 bios).real = (bios c.bios c.real c.mem).regs := by
  have hlow {r : Reg} {w : UInt16} {x : UInt32} (h : (c.int13 bios).regs r = setLow x w) :
      ((c.int13 bios).regs r).toUInt16 = w := by
    rw [h, toUInt16_setLow]
  rw [Pc.real, hlow (r := .eax) rfl, hlow (r := .ebx) rfl, hlow (r := .ecx) rfl,
    hlow (r := .edx) rfl, hlow (r := .esi) rfl, hlow (r := .edi) rfl]
  rfl

/-- What `query_pcbios` leaves in memory, from what the interrupt left there. -/
theorem ComesBack.mirrors {t : RealReturn σ} {a : Answer σ} (h : ComesBack p mem t a)
    (hp : Placed p) {r : RealRegs} (v : ℕ) (hr : regOf r = regOf t.regs) :
    Mirrors p a.area (storeRegs (storeLE t.mem ((p .reg).toNat + 14) 4 v) (p .reg).toNat r) := by
  have h1 := hp.reg
  have h2 := hp.dap
  have h3 := hp.paramExt
  have hout {i : ℕ} (hi : (p .reg).toNat + 18 ≤ i) :
      storeRegs (storeLE t.mem ((p .reg).toNat + 14) 4 v) (p .reg).toNat r i = t.mem i := by
    rw [storeRegs_apply_of_outside (by omega), storeLE_apply_of_outside (by omega)]
  refine ⟨?_, ?_, ?_, fun j hj ↦ ?_⟩
  · rw [regAt_storeRegs, hr, h.regs]
  · rw [← h.dap]
    exact dapAt_congr fun i _ _ ↦ hout (by omega)
  · rw [← h.paramExt]
    exact paramExtAt_congr fun i _ _ ↦ hout (by omega)
  · rw [hout (by omega), h.buffer j hj]

/-- The records do not see the real-mode stack of `query_pcbios`. -/
theorem Mirrors.realStack (h : Mirrors p q mem) (hp : Placed p) (esp : UInt32) :
    Mirrors p q (realStack p mem esp) := by
  have hbuffer := hp.buffer
  have hupper : Mirrors p q (storeLE mem 0x1FFFC 4 esp.toNat) := h.store_outside hp (by omega)
  exact hupper.store_outside hp (by omega)

/-- **The part in real mode is one `INT 13h` on the area**, which has to be well made by then. The
area is as the BIOS left it, with the carry flag behind the record; above what real mode reaches no
byte has changed, and the stack pointer is the one that was in `%ebx`. -/
theorem realMode_spec {env : Env σ} {size : UInt8 → ℕ} {bios : RealBios σ}
    (hb : Implements env p size bios) (hp : Placed p) (hq : WellMade env (size q.reg.dl) q)
    (h : Mirrors p q c.mem) (hedi : c.regs .edi = p .reg)
    (hdi : loadLE c.mem ((p .reg).toNat + 12) 2 = 0) {c₁ c' : Pc σ}
    (hc₁ : c₁ = (Op.run p realEntry c).int13 bios)
    (hc : c' = Op.run p (storeFlag c₁.carry ++ realExit) c₁) :
    Mirrors p (env.int13 c.bios q).area c'.mem ∧
      c'.bios = (env.int13 c.bios q).bios ∧
      loadLE c'.mem ((p .reg).toNat + 14) 4 = (flagWord (env.int13 c.bios q).carry).toNat ∧
      c'.esp = c.regs .ebx ∧ ∀ a, 0x110000 ≤ a → c'.mem a = c.mem a := by
  have hreg := hp.reg
  have hdap := hp.dap
  have hparamExt := hp.paramExt
  have hbuffer := hp.buffer
  -- up to the interrupt
  obtain ⟨c₀, hc₀⟩ : ∃ c₀, c₀ = Op.run p realEntry c := ⟨_, rfl⟩
  obtain ⟨hmem₀, hesp₀, hbios₀, hreal₀⟩ := realEntry_spec h hp hedi hdi hc₀
  rw [← hc₀] at hc₁
  have hmirrors₀ : Mirrors p q c₀.mem := by
    rw [hmem₀]
    exact h.realStack hp _
  have hback := hb.answers c.bios q c₀.mem hq hmirrors₀
  -- the interrupt
  have hmem₁ : c₁.mem = (bios c.bios (regsOf q.reg) c₀.mem).mem := by
    rw [hc₁, ← hbios₀, ← hreal₀]
    rfl
  have hbios₁ : c₁.bios = (env.int13 c.bios q).bios := by
    rw [← hback.bios, ← hbios₀, ← hreal₀, hc₁]
    rfl
  have hcarry₁ : c₁.carry = (env.int13 c.bios q).carry := by
    rw [← hback.carry, ← hbios₀, ← hreal₀, hc₁]
    rfl
  have hesp₁ : c₁.esp = 0xFFFA := by
    rw [← hesp₀, hc₁]
    rfl
  have hreal₁ : c₁.real = (bios c.bios (regsOf q.reg) c₀.mem).regs := by
    rw [hc₁, Pc.int13_real, hbios₀, hreal₀]
  have hstack₁ {a : ℕ} (ha : 0x1FFFA ≤ a ∧ a < 0x20000 ∨ 0x110000 ≤ a) :
      c₁.mem a = c₀.mem a := by
    rw [hmem₁]
    exact hback.stack a ha
  have hword : loadLE c₁.mem 0x1FFFA 2 = (p .reg).toUInt16.toNat := by
    have hlt := (p .reg).toUInt16.toNat_lt
    rw [loadLE_congr fun i _ _ ↦ hstack₁ (a := i) (by omega), hmem₀, realStack, loadLE_storeLE,
      Nat.mod_eq_of_lt (by omega)]
  have hold : loadLE c₁.mem 0x1FFFC 4 = (c.regs .ebx).toNat := by
    have hlt := (c.regs .ebx).toNat_lt
    rw [loadLE_congr fun i _ _ ↦ hstack₁ (a := i) (by omega), hmem₀, realStack,
      loadLE_storeLE_of_disjoint (by omega), loadLE_storeLE, Nat.mod_eq_of_lt (by omega)]
  -- the way back
  obtain ⟨c₂, hc₂⟩ : ∃ c₂, c₂ = Op.run p (storeFlag c₁.carry) c₁ := ⟨_, rfl⟩
  obtain ⟨hmem₂, hesp₂, hbios₂, hedi₂, hes₂, hregs₂⟩ := storeFlag_spec hp hesp₁ hword hc₂
  have hold₂ : loadLE c₂.mem 0x1FFFC 4 = (c.regs .ebx).toNat := by
    rw [hmem₂, loadLE_storeLE_of_disjoint (by omega), hold]
  have hrun : c' = Op.run p realExit c₂ := by rw [hc, run_append, ← hc₂]
  obtain ⟨hmem, hesp, hbios⟩ := realExit_spec hp hesp₂ hedi₂ hold₂ hrun
  have hregOf : regOf c₂.real = regOf (bios c.bios (regsOf q.reg) c₀.mem).regs := by
    rw [← hreal₁]
    simp only [regOf, Pc.real, hes₂, hregs₂ .eax (by decide), hregs₂ .ebx (by decide),
      hregs₂ .ecx (by decide), hregs₂ .edx (by decide), hregs₂ .esi (by decide)]
  refine ⟨?_, by rw [hbios, hbios₂, hbios₁], ?_, hesp, fun a ha ↦ ?_⟩
  · rw [hmem, hmem₂, hmem₁]
    exact hback.mirrors hp _ hregOf
  · have hlt := (flagWord (env.int13 c.bios q).carry).toNat_lt
    rw [hmem, loadLE_congr fun i _ _ ↦ storeRegs_apply_of_outside (i := i) (by omega), hmem₂,
      loadLE_storeLE, hcarry₁, Nat.mod_eq_of_lt (by omega)]
  · rw [hmem, storeRegs_apply_of_outside (by omega), hmem₂, storeLE_apply_of_outside (by omega),
      hstack₁ (Or.inr ha), hmem₀, realStack, storeLE_apply_of_outside (by omega),
      storeLE_apply_of_outside (by omega)]

/-- **`query_pcbios` is one `INT 13h` on the area.** The caller finds its registers, its stack and
its stack pointer as they were, the area as the BIOS left it, and the carry flag behind the
record. -/
theorem callQuery_spec {env : Env σ} {size : UInt8 → ℕ} {bios : RealBios σ}
    (hb : Implements env p size bios) (hp : Placed p) (hf : f.Roomy)
    (hq : WellMade env (size q.reg.dl) q) (h : Kept p q f ws c.mem c.esp)
    (hlen : ws.length + 7 ≤ 16) (hedi : c.regs .edi = p .reg)
    (hdi : loadLE c.mem ((p .reg).toNat + 12) 2 = 0) (lab : Labels) {c' : Pc σ}
    (hc : c' = callQuery bios p lab c) :
    Kept p (env.int13 c.bios q).area f ws c'.mem c'.esp ∧
      c'.bios = (env.int13 c.bios q).bios ∧
      loadLE c'.mem ((p .reg).toNat + 14) 4 = (flagWord (env.int13 c.bios q).carry).toNat ∧
      c'.regs .ebp = c.regs .ebp ∧ c'.regs .edi = c.regs .edi ∧ c'.regs .esi = c.regs .esi ∧
      c'.regs .ebx = c.regs .ebx := by
  have hreg := hp.reg
  have hdap := hp.dap
  have hparamExt := hp.paramExt
  have hbuffer := hp.buffer
  obtain ⟨c₁, hc₁⟩ : ∃ c₁, c₁ = Op.run p (.pushImm lab.back :: queryEntry) c := ⟨_, rfl⟩
  obtain ⟨hkept₁, hebx₁, hedi₁, hbios₁, hlow₁⟩ := queryEntry_spec h hp hf (by omega) lab.back hc₁
  have hdi₁ : loadLE c₁.mem ((p .reg).toNat + 12) 2 = 0 := by
    rw [← hdi]
    exact loadLE_congr fun i _ _ ↦ hlow₁ i (by omega)
  obtain ⟨c₂, hc₂⟩ : ∃ c₂, c₂ = (Op.run p realEntry c₁).int13 bios := ⟨_, rfl⟩
  obtain ⟨c₃, hc₃⟩ : ∃ c₃, c₃ = Op.run p (storeFlag c₂.carry ++ realExit) c₂ := ⟨_, rfl⟩
  obtain ⟨hmirrors₃, hbios₃, hflag₃, hesp₃, hhigh₃⟩ :=
    realMode_spec hb hp hq hkept₁.mirrors (hedi₁.trans hedi) hdi₁ hc₂ hc₃
  rw [hbios₁] at hmirrors₃ hbios₃ hflag₃
  have hkept₃ := hkept₁.of_low hf (by simp only [List.length_cons]; omega) hmirrors₃ hhigh₃
  rw [← hebx₁, ← hesp₃] at hkept₃
  have hrun : c' = Op.run p (queryExit lab.reload) c₃ := by
    rw [hc, hc₃, hc₂, hc₁, ← run_append, ← run_append, List.append_assoc]
    rfl
  obtain ⟨hkept, hlow, hbios, hebp, hedi', hesi, hebx⟩ :=
    queryExit_spec hp hf hkept₃ hlen lab.reload hrun
  refine ⟨hkept, hbios.trans hbios₃, ?_, hebp, hedi', hesi, hebx⟩
  rw [loadLE_congr fun i _ _ ↦ hlow i (by omega), hflag₃]

end query

end Dwipe

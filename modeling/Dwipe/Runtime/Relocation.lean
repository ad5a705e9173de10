import Dwipe.Runtime.Int13

/-!
# The real-mode data as the C code sees it

`relocate_real` of `disk.c` copies the real-mode code and its data from where the linker put them to
`REAL_CODE_ADDR`, and moves the four pointers by the same distance. From then on the C code reads
and writes the copies: single registers of `*p_real_reg`, two fields of `*p_real_dap`, and blocks of
bytes at `p_real_buffer`.

`RealImage` is what the linker decides: where the real-mode code is and how long it is. The
addresses of the records follow from it by the directives of `head.S`, so an image whose records
overlap cannot be written down.
-/

namespace Dwipe

open Bytes

/-! ### `relocate_real` -/

/-- `.balign 16`: the next multiple of 16, or the address itself. -/
def balign (a : ℕ) : ℕ := (a + 15) / 16 * 16

/-- The real-mode code in the linked program: its address, and its length up to the records. The
program is linked above the first megabyte, and code and records fit into one segment. -/
structure RealImage where
  /-- `real_code_begin`. -/
  codeBegin : ℕ
  /-- The bytes from `real_code_begin` to `real_data`. -/
  codeSize : ℕ
  linked : 0x100000 ≤ codeBegin
  below : codeBegin + 0x10000 ≤ 2 ^ 32
  short : codeSize ≤ 0x8000

namespace RealImage

variable (i : RealImage)

/-- The label `real_reg`: seven words and a long word. -/
def realReg : ℕ := balign (i.codeBegin + i.codeSize)

/-- The label `real_dap`: a packet of 16 bytes. -/
def realDap : ℕ := balign (i.realReg + 18)

/-- The label `real_disk_param_ext`: a result buffer of 30 bytes. -/
def realDiskParamExt : ℕ := balign (i.realDap + 16)

/-- The label `real_buffer`, the last of the records and by far the largest. -/
def realBuffer : ℕ := balign (i.realDiskParamExt + 30)

/-- The label `real_code_end`, up to which the code and its data are copied. -/
def realCodeEnd : ℕ := i.realBuffer + maxSectorBufferSize.toNat

/-- The label a pointer starts from. -/
def symbol : RealPtr → ℕ
  | .reg => i.realReg
  | .dap => i.realDap
  | .paramExt => i.realDiskParamExt
  | .buffer => i.realBuffer

/-- `real_code_begin - REAL_CODE_ADDR`. -/
def offset : UInt32 := UInt32.ofNat i.codeBegin - 0x10000

/-- The pointers `relocate_real` leaves: each is moved by the same distance, modulo 2^32. -/
def pointers : Pointers := fun x ↦ UInt32.ofNat (i.symbol x) - i.offset

/-- The memory `relocate_real` leaves: a copy, so the records the linker has placed are still there,
but no longer used. -/
def relocateReal (mem : ℕ → UInt8) : ℕ → UInt8 :=
  blit mem 0x10000 (i.realCodeEnd - i.codeBegin) fun k ↦ mem (i.codeBegin + k)

theorem le_balign (a : ℕ) : a ≤ balign a ∧ balign a ≤ a + 15 := by
  rw [balign]
  omega

/-- The records lie behind the code, in order, and end in the segment. -/
theorem symbol_bounds :
    i.codeBegin ≤ i.realReg ∧ i.realReg + 18 ≤ i.realDap ∧ i.realDap + 16 ≤ i.realDiskParamExt ∧
      i.realDiskParamExt + 30 ≤ i.realBuffer ∧
      i.realBuffer ≤ i.codeBegin + i.codeSize + 124 := by
  have h1 : _ ≤ i.realReg ∧ i.realReg ≤ _ := le_balign (i.codeBegin + i.codeSize)
  have h2 : _ ≤ i.realDap ∧ i.realDap ≤ _ := le_balign (i.realReg + 18)
  have h3 : _ ≤ i.realDiskParamExt ∧ i.realDiskParamExt ≤ _ := le_balign (i.realDap + 16)
  have h4 : _ ≤ i.realBuffer ∧ i.realBuffer ≤ _ := le_balign (i.realDiskParamExt + 30)
  omega

/-- **A pointer is at its label's distance from the beginning**, for every address the linker may
have chosen. -/
theorem pointers_toNat (x : RealPtr) :
    (i.pointers x).toNat = 0x10000 + (i.symbol x - i.codeBegin) := by
  have hlinked := i.linked
  have hbelow := i.below
  have hshort := i.short
  obtain ⟨h1, h2, h3, h4, h5⟩ := i.symbol_bounds
  have hx : i.codeBegin ≤ i.symbol x ∧ i.symbol x < 2 ^ 32 := by
    cases x <;> simp only [symbol] <;> omega
  have hword : (0x10000 : UInt32).toNat = 0x10000 := rfl
  have hoffset : i.offset.toNat = i.codeBegin - 0x10000 := by
    have hb : (UInt32.ofNat i.codeBegin).toNat = i.codeBegin := by
      rw [UInt32.toNat_ofNat', Nat.mod_eq_of_lt (by omega)]
    rw [offset, UInt32.toNat_sub_of_le, hb, hword]
    rw [UInt32.le_iff_toNat_le, hb, hword]
    omega
  have hs : (UInt32.ofNat (i.symbol x)).toNat = i.symbol x := by
    rw [UInt32.toNat_ofNat', Nat.mod_eq_of_lt hx.2]
  rw [pointers, UInt32.toNat_sub_of_le, hs, hoffset]
  · omega
  · rw [UInt32.le_iff_toNat_le, hs, hoffset]
    omega

/-- **The relocated records lie where the stubs need them.** -/
theorem placed : Placed i.pointers := by
  have hlinked := i.linked
  have hshort := i.short
  have hsize := maxSectorBufferSize_toNat
  obtain ⟨h1, h2, h3, h4, h5⟩ := i.symbol_bounds
  constructor <;> simp only [pointers_toNat, symbol] <;> omega

/-- **The copy of a record is the record**: up to the end of the buffer, an address in the segment
has what was at the same distance from the beginning. -/
theorem relocateReal_apply (mem : ℕ → UInt8) {a : ℕ} (h1 : 0x10000 ≤ a)
    (h2 : a < 0x10000 + (i.realCodeEnd - i.codeBegin)) :
    i.relocateReal mem a = mem (a + (i.codeBegin - 0x10000)) := by
  have hlinked := i.linked
  have haddr : i.codeBegin + (a - 0x10000) = a + (i.codeBegin - 0x10000) := by omega
  rw [relocateReal, blit, if_pos ⟨h1, h2⟩, haddr]

end RealImage

theorem regAt_translate (mem : ℕ → UInt8) (d a : ℕ) :
    regAt (fun x ↦ mem (x + d)) a = regAt mem (a + d) := by
  simp only [regAt, loadLE_translate, Nat.add_right_comm _ d]

theorem dapAt_translate (mem : ℕ → UInt8) (d a : ℕ) :
    dapAt (fun x ↦ mem (x + d)) a = dapAt mem (a + d) := by
  simp only [dapAt, loadLE_translate, Nat.add_right_comm _ d]

theorem paramExtAt_translate (mem : ℕ → UInt8) (d a : ℕ) :
    paramExtAt (fun x ↦ mem (x + d)) a = paramExtAt mem (a + d) := by
  simp only [paramExtAt, loadLE_translate, Nat.add_right_comm _ d]

/-- The linked program holds the area `q` under its labels. -/
structure RealImage.Holds (i : RealImage) (q : RealArea) (mem : ℕ → UInt8) : Prop where
  reg : regAt mem i.realReg = q.reg
  dap : dapAt mem i.realDap = q.dap
  paramExt : paramExtAt mem i.realDiskParamExt = q.paramExt
  buffer : ∀ j < maxSectorBufferSize.toNat, mem (i.realBuffer + j) = q.buffer j

/-- **After `relocate_real` the pointers lead to the area of the linked program.** -/
theorem RealImage.Holds.mirrors {i : RealImage} {q : RealArea} {mem : ℕ → UInt8}
    (h : i.Holds q mem) :
    Mirrors i.pointers q (i.relocateReal mem) := by
  have hlinked := i.linked
  obtain ⟨h1, h2, h3, h4, h5⟩ := i.symbol_bounds
  have hend : i.realCodeEnd = i.realBuffer + maxSectorBufferSize.toNat := rfl
  have hback (x : RealPtr) (hx : i.codeBegin ≤ i.symbol x) :
      (i.pointers x).toNat + (i.codeBegin - 0x10000) = i.symbol x := by
    rw [i.pointers_toNat]
    omega
  refine ⟨?_, ?_, ?_, fun j hj ↦ ?_⟩
  · rw [← h.reg, ← show _ = i.realReg from hback .reg h1, ← regAt_translate]
    have hp : (i.pointers .reg).toNat = 0x10000 + (i.realReg - i.codeBegin) := i.pointers_toNat .reg
    exact regAt_congr fun a _ _ ↦ i.relocateReal_apply mem (by omega) (by omega)
  · rw [← h.dap, ← show _ = i.realDap from hback .dap (by simp only [symbol]; omega),
      ← dapAt_translate]
    have hp : (i.pointers .dap).toNat = 0x10000 + (i.realDap - i.codeBegin) := i.pointers_toNat .dap
    exact dapAt_congr fun a _ _ ↦ i.relocateReal_apply mem (by omega) (by omega)
  · rw [← h.paramExt,
      ← show _ = i.realDiskParamExt from hback .paramExt (by simp only [symbol]; omega),
      ← paramExtAt_translate]
    have hp : (i.pointers .paramExt).toNat = 0x10000 + (i.realDiskParamExt - i.codeBegin) :=
      i.pointers_toNat .paramExt
    exact paramExtAt_congr fun a _ _ ↦ i.relocateReal_apply mem (by omega) (by omega)
  · have hp : (i.pointers .buffer).toNat = 0x10000 + (i.realBuffer - i.codeBegin) :=
      i.pointers_toNat .buffer
    have haddr : (i.pointers .buffer).toNat + j + (i.codeBegin - 0x10000) = i.realBuffer + j := by
      omega
    rw [← h.buffer j hj, i.relocateReal_apply mem (by omega) (by omega), haddr]

/-! ### Accesses -/

/-- The byte registers of `reg_req_t`, in the order of the record. -/
inductive RegByte where
  | al | ah | bl | bh | cl | ch | dl | dh
  deriving DecidableEq

/-- Where a byte register is in the record. -/
def RegByte.index : RegByte → ℕ
  | .al => 0
  | .ah => 1
  | .bl => 2
  | .bh => 3
  | .cl => 4
  | .ch => 5
  | .dl => 6
  | .dh => 7

/-- A store to one byte register. -/
def RegReq.setByte (r : RegReq) (v : UInt8) : RegByte → RegReq
  | .al => { r with al := v }
  | .ah => { r with ah := v }
  | .bl => { r with bl := v }
  | .bh => { r with bh := v }
  | .cl => { r with cl := v }
  | .ch => { r with ch := v }
  | .dl => { r with dl := v }
  | .dh => { r with dh := v }

/-- What the functions of `disk.c` store into the real-mode data. -/
inductive Access where
  /-- `p_real_reg->h.… = v`. -/
  | reg (b : RegByte) (v : UInt8)
  /-- `p_real_dap->nsectors = v`. -/
  | nsectors (v : UInt16)
  /-- `p_real_dap->begin = v`. -/
  | begin (v : UInt64)
  /-- `memcpy(p_real_buffer, src, n)`. -/
  | buffer (src : ℕ → UInt8) (n : ℕ)

/-- An access, on the records, as the program on the abstract machine makes it. -/
def Access.onArea (q : RealArea) : Access → RealArea
  | .reg b v => { q with reg := q.reg.setByte v b }
  | .nsectors v => { q with dap := { q.dap with nsectors := v } }
  | .begin v => { q with dap := { q.dap with begin := v } }
  | .buffer src n => { q with buffer := memcpy q.buffer src n }

/-- An access, on the bytes, as the compiled program makes it through the pointers. -/
def Access.onMem (p : Pointers) (mem : ℕ → UInt8) : Access → ℕ → UInt8
  | .reg b v => storeLE mem ((p .reg).toNat + b.index) 1 v.toNat
  | .nsectors v => storeLE mem ((p .dap).toNat + 2) 2 v.toNat
  | .begin v => storeLE mem ((p .dap).toNat + 8) 8 v.toNat
  | .buffer src n => blit mem (p .buffer).toNat n src

section accesses

variable {p : Pointers} {q : RealArea} {mem : ℕ → UInt8}

theorem regAt_store_byte (mem : ℕ → UInt8) (a : ℕ) (b : RegByte) (v : UInt8) :
    regAt (storeLE mem (a + b.index) 1 v.toNat) a = (regAt mem a).setByte v b := by
  cases b <;> simp (disch := omega) only [regAt, RegByte.index, RegReq.setByte, Nat.add_zero,
    storeLE_byte, storeLE_apply_of_outside, loadLE_storeLE_of_disjoint]

theorem dapAt_store_nsectors (mem : ℕ → UInt8) (a : ℕ) (v : UInt16) :
    dapAt (storeLE mem (a + 2) 2 v.toNat) a = { dapAt mem a with nsectors := v } := by
  simp (disch := omega) only [dapAt, storeLE_apply_of_outside, loadLE_storeLE,
    loadLE_storeLE_of_disjoint, ofNat_mod_word]

theorem dapAt_store_begin (mem : ℕ → UInt8) (a : ℕ) (v : UInt64) :
    dapAt (storeLE mem (a + 8) 8 v.toNat) a = { dapAt mem a with begin := v } := by
  have hv : UInt64.ofNat (v.toNat % 256 ^ 8) = v := by
    have hlt := v.toNat_lt
    rw [Nat.mod_eq_of_lt (by omega)]
    exact UInt64.ofNat_toNat
  simp (disch := omega) only [dapAt, storeLE_apply_of_outside, loadLE_storeLE,
    loadLE_storeLE_of_disjoint, hv]

/-- A copy into the buffer changes the buffer only. -/
theorem Mirrors.blit_buffer (h : Mirrors p q mem) (hp : Placed p) (src : ℕ → UInt8) (n : ℕ) :
    Mirrors p { q with buffer := memcpy q.buffer src n } (blit mem (p .buffer).toNat n src) := by
  have h1 := hp.reg
  have h2 := hp.dap
  have h3 := hp.paramExt
  refine ⟨?_, ?_, ?_, fun j hj ↦ ?_⟩
  · rw [← h.reg]
    exact regAt_congr fun i _ _ ↦ blit_apply_of_outside (by omega)
  · rw [← h.dap]
    exact dapAt_congr fun i _ _ ↦ blit_apply_of_outside (by omega)
  · rw [← h.paramExt]
    exact paramExtAt_congr fun i _ _ ↦ blit_apply_of_outside (by omega)
  · rcases Nat.lt_or_ge j n with hjn | hjn
    · rw [blit_apply_add hjn]
      exact (memcpy_of_lt hjn).symm
    · rw [blit_apply_of_outside (by omega), h.buffer j hj]
      exact (if_neg (by omega)).symm

/-- **An access to the bytes is the access to the record.** -/
theorem Mirrors.access (h : Mirrors p q mem) (hp : Placed p) (a : Access) :
    Mirrors p (a.onArea q) (a.onMem p mem) := by
  cases a with
  | reg b v =>
    have hb : b.index + 1 ≤ 12 := by cases b <;> decide
    exact h.store_reg hp hb (by rw [regAt_store_byte, h.reg])
  | nsectors v => exact h.store_dap hp (by omega) (by rw [dapAt_store_nsectors, h.dap])
  | begin v => exact h.store_dap hp (by omega) (by rw [dapAt_store_begin, h.dap])
  | buffer src n => exact h.blit_buffer hp src n

end accesses

end Dwipe

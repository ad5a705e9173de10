import Dwipe.Runtime.RealStubs

/-!
# The stubs of `int13.S`

Each stub saves registers, stores into the records what the BIOS expects there, calls
`query_pcbios` and takes the flag from behind the record. The frame around the stores is the same
for all four (`stub_spec`); what the stores of one stub do to the area is the matter of
`prepares_body1` to `prepares_body4`.

A stub is entered with nothing of its own on the stack. It uses six words, `query_pcbios` seven
more.
-/

namespace Dwipe

open Bytes

variable {σ : Type} {p : Pointers} {q : RealArea} {mem : ℕ → UInt8} {f : Frame} {ws : List UInt32}
  {c : Pc σ}

/-! ### Saving and restoring registers -/

/-- **Registers pushed** lie on the stack, the last one on top. -/
theorem pushes_spec (rs : List Reg) (h : Kept p q f ws c.mem c.esp) (hp : Placed p) (hf : f.Roomy)
    (hlen : ws.length + rs.length ≤ 16) {c' : Pc σ} (hc : c' = Op.run p (rs.map .pushl) c) :
    Kept p q f ((rs.map c.regs).reverse ++ ws) c'.mem c'.esp ∧ c'.regs = c.regs ∧
      c'.bios = c.bios := by
  induction rs generalizing c ws with
  | nil =>
    subst hc
    exact ⟨h, rfl, rfl⟩
  | cons r rs ih =>
    rw [List.length_cons] at hlen
    have hpush := h.push hp hf (by omega) (c.regs r)
    obtain ⟨hkept, hregs, hbios⟩ := ih (c := c.push (c.regs r)) hpush
      (by rw [List.length_cons]; omega) hc
    refine ⟨?_, hregs, hbios⟩
    rw [List.map_cons, List.reverse_cons, List.append_assoc]
    exact hkept

/-- **Registers popped** have what was on the stack for them. -/
theorem pops_spec (rs : List Reg) {v : Reg → UInt32} (h : Kept p q f (rs.map v ++ ws) c.mem c.esp)
    (hf : f.Roomy) {c' : Pc σ} (hc : c' = Op.run p (rs.map .popl) c) :
    Kept p q f ws c'.mem c'.esp ∧ c'.bios = c.bios ∧
      ∀ r, c'.regs r = if r ∈ rs then v r else c.regs r := by
  induction rs generalizing c with
  | nil =>
    subst hc
    exact ⟨h, rfl, fun r ↦ (if_neg (List.not_mem_nil)).symm⟩
  | cons s rs ih =>
    obtain ⟨hs, hpop⟩ := h.pop hf
    obtain ⟨hkept, hbios, hregs⟩ := ih (c := (Op.popl s).step p c) hpop hc
    have hstep (r : Reg) : ((Op.popl s).step p c).regs r = if r = s then v s else c.regs r := by
      rw [← hs]
      exact setReg_regs s r _
    refine ⟨hkept, hbios, fun r ↦ ?_⟩
    rw [hregs, hstep]
    split_ifs with h1 h2 h3 h4 h5 <;> simp_all

/-- The two words of `subl $0x8, %esp`, which nothing is stored to. -/
theorem Kept.sub_eight {esp : UInt32} (h : Kept p q f ws mem esp) (hf : f.Roomy)
    (hlen : ws.length + 2 ≤ 16) : ∃ w w', Kept p q f (w :: w' :: ws) mem (esp - 8) := by
  obtain ⟨w', h1⟩ := h.skip hf (by omega)
  obtain ⟨w, h2⟩ := h1.skip hf (by rw [List.length_cons]; omega)
  have hesp : esp - 4 - 4 = esp - 8 := by
    apply UInt32.toBitVec_inj.1
    simp only [UInt32.toBitVec_sub, UInt32.toBitVec_ofNat]
    bv_omega
  rw [hesp] at h2
  exact ⟨w, w', h2⟩

/-- The two words given back. -/
theorem Kept.add_eight {esp w w' : UInt32} (h : Kept p q f (w :: w' :: ws) mem esp) (hf : f.Roomy) :
    Kept p q f ws mem (esp + 8) := by
  obtain ⟨-, h1⟩ := h.pop hf
  obtain ⟨-, h2⟩ := h1.pop hf
  have hesp : esp + 4 + 4 = esp + 8 := by rw [UInt32.add_assoc]; rfl
  rw [hesp] at h2
  exact h2

/-! ### The frame of a stub -/

/-- **The stores of a stub** turn the area `q` into `q'`, whatever is on the stack, and leave `%edi`
at the record with a zero for `%di` in it. -/
structure Prepares (p : Pointers) (q q' : RealArea) (saves : List Reg) (body : List Op) : Prop where
  kept : ∀ {σ : Type} (c : Pc σ) (f : Frame) (ws : List UInt32), Kept p q f ws c.mem c.esp →
    f.Roomy → ws.length ≤ 16 →
      Kept p q' f ws (Op.run p body c).mem (Op.run p body c).esp
  edi : ∀ {σ : Type} (c : Pc σ), (Op.run p body c).regs .edi = p .reg
  di : ∀ {σ : Type} (c : Pc σ), loadLE (Op.run p body c).mem ((p .reg).toNat + 12) 2 = 0
  bios : ∀ {σ : Type} (c : Pc σ), (Op.run p body c).bios = c.bios
  regs : ∀ {σ : Type} (c : Pc σ), ∀ r ∈ [Reg.ebx, .esi, .ebp], r ∉ saves →
    (Op.run p body c).regs r = c.regs r

/-- **A stub is one `INT 13h` on the area its stores prepared.** The flag is in `%eax`; the
registers a caller relies on, the stack and the rest of the memory are as they were. -/
theorem stub_spec {env : Env σ} {size : UInt8 → ℕ} {bios : RealBios σ}
    (hb : Implements env p size bios) (hp : Placed p) {q' : RealArea} {saves : List Reg}
    {body : List Op} (hbody : Prepares p q q' saves body) (hq : WellMade env (size q'.reg.dl) q')
    (hsaves : saves.length ≤ 4) (hedi : .edi ∈ saves) (heax : .eax ∉ saves) (hf : f.Roomy)
    (h : Kept p q f [] c.mem c.esp) (lab : Labels) {c' : Pc σ}
    (hc : c' = stub saves body bios p lab c) :
    Kept p (env.int13 c.bios q').area f [] c'.mem c'.esp ∧
      c'.bios = (env.int13 c.bios q').bios ∧
      c'.regs .eax = flagWord (env.int13 c.bios q').carry ∧
      ∀ r ∈ [Reg.ebx, .esi, .edi, .ebp], c'.regs r = c.regs r := by
  have hreg := hp.reg
  have hdap := hp.dap
  have hparamExt := hp.paramExt
  have hbuffer := hp.buffer
  -- the registers saved, the two words, and the stores
  obtain ⟨c₁, hc₁⟩ : ∃ c₁, c₁ = Op.run p (saves.map .pushl) c := ⟨_, rfl⟩
  obtain ⟨hkept₁, hregs₁, hbios₁⟩ :=
    pushes_spec saves h hp hf (by rw [List.length_nil]; omega) hc₁
  rw [List.append_nil, ← List.map_reverse] at hkept₁
  obtain ⟨w, w', hkept₂⟩ :=
    hkept₁.sub_eight hf (by rw [List.length_map, List.length_reverse]; omega)
  obtain ⟨c₂, hc₂⟩ : ∃ c₂ : Pc σ, c₂ = { c₁ with esp := c₁.esp - 8 } := ⟨_, rfl⟩
  obtain ⟨c₃, hc₃⟩ : ∃ c₃, c₃ = Op.run p body c₂ := ⟨_, rfl⟩
  have hlen : (w :: w' :: saves.reverse.map c.regs).length + 7 ≤ 16 := by
    simp only [List.length_cons, List.length_map, List.length_reverse]
    omega
  have hkept₃ : Kept p q' f (w :: w' :: saves.reverse.map c.regs) c₃.mem c₃.esp := by
    rw [hc₃]
    refine hbody.kept c₂ f _ ?_ hf (by omega)
    rw [hc₂]
    exact hkept₂
  have hbios₃ : c₃.bios = c.bios := by
    rw [hc₃, hbody.bios, ← hbios₁, hc₂]
  have hregs₃ : ∀ r ∈ [Reg.ebx, .esi, .ebp], r ∉ saves → c₃.regs r = c.regs r := by
    intro r hr hr'
    rw [hc₃, hbody.regs c₂ r hr hr', ← hregs₁, hc₂]
  -- the call
  obtain ⟨c₄, hc₄⟩ : ∃ c₄, c₄ = callQuery bios p lab c₃ := ⟨_, rfl⟩
  obtain ⟨hkept₄, hbios₄, hflag₄, hebp₄, -, hesi₄, hebx₄⟩ :=
    callQuery_spec hb hp hf hq hkept₃ hlen (by rw [hc₃, hbody.edi]) (by rw [hc₃, hbody.di]) lab hc₄
  rw [hbios₃] at hkept₄ hbios₄ hflag₄
  -- the flag, and the way out
  obtain ⟨c₅, hc₅⟩ : ∃ c₅, c₅ = Op.run p [.movPtr .reg .edi, .loadl 14 .edi .eax, .addEsp 8] c₄ :=
    ⟨_, rfl⟩
  have hesp₅ : c₅.esp = c₄.esp + 8 := by rw [hc₅]; rfl
  have hmem₅ : c₅.mem = c₄.mem := by rw [hc₅]; rfl
  have heax₅ : c₅.regs .eax = UInt32.ofNat (loadLE c₄.mem (p .reg + 14).toNat 4) := by
    rw [hc₅]
    rfl
  have hregs₅ {r : Reg} (hr : r ∈ [Reg.ebx, .esi, .ebp]) : c₅.regs r = c₃.regs r := by
    have hback : c₅.regs r = c₄.regs r := by
      rw [hc₅]
      fin_cases hr <;> rfl
    rw [hback]
    fin_cases hr
    · exact hebx₄
    · exact hesi₄
    · exact hebp₄
  have hkept₅ : Kept p (env.int13 c.bios q').area f (saves.reverse.map c.regs ++ []) c₅.mem
      c₅.esp := by
    rw [hmem₅, hesp₅, List.append_nil]
    exact hkept₄.add_eight hf
  have hrun : c' = Op.run p (saves.reverse.map .popl) c₅ := by
    have hstores : Op.run p (saves.map .pushl ++ .subEsp 8 :: body) c = c₃ := by
      rw [run_append, ← hc₁, hc₃, hc₂]
      rfl
    rw [hc, stub, hstores, ← hc₄, run_append, ← hc₅]
  obtain ⟨hkept, hbios, hregs⟩ := pops_spec saves.reverse hkept₅ hf hrun
  refine ⟨hkept, ?_, ?_, fun r hr ↦ ?_⟩
  · rw [hbios, ← hbios₄, hc₅]
    rfl
  · have h14 : (14 : UInt32).toNat = 14 := rfl
    rw [hregs, if_neg (by rwa [List.mem_reverse]), heax₅, toNat_add_small (by omega), h14, hflag₄]
    exact UInt32.ofNat_toNat
  · rw [hregs]
    split_ifs with hr'
    · rfl
    · rw [List.mem_reverse] at hr'
      have hr'' : r ∈ [Reg.ebx, .esi, .ebp] := by
        fin_cases hr
        · decide
        · decide
        · exact absurd hedi hr'
        · decide
      rw [hregs₅ hr'', hregs₃ r hr'' hr']

/-! ### Fields stored one by one -/

theorem storeLE_byte (mem : ℕ → UInt8) (a : ℕ) (v : UInt8) : storeLE mem a 1 v.toNat a = v := by
  rw [storeLE, if_pos (by omega), Nat.sub_self, pow_zero, Nat.div_one]
  exact UInt8.ofNat_toNat

theorem dapAt_store_size (mem : ℕ → UInt8) (a : ℕ) (v : UInt8) :
    dapAt (storeLE mem a 1 v.toNat) a = { dapAt mem a with size := v } := by
  simp (disch := omega) only [dapAt, storeLE_byte, storeLE_apply_of_outside,
    loadLE_storeLE_of_disjoint]

theorem dapAt_store_unused (mem : ℕ → UInt8) (a : ℕ) (v : UInt8) :
    dapAt (storeLE mem (a + 1) 1 v.toNat) a = { dapAt mem a with unused := v } := by
  simp (disch := omega) only [dapAt, storeLE_byte, storeLE_apply_of_outside,
    loadLE_storeLE_of_disjoint]

theorem dapAt_store_offset (mem : ℕ → UInt8) (a : ℕ) (v : UInt16) :
    dapAt (storeLE mem (a + 4) 2 v.toNat) a = { dapAt mem a with offset := v } := by
  simp (disch := omega) only [dapAt, storeLE_apply_of_outside, loadLE_storeLE,
    loadLE_storeLE_of_disjoint, ofNat_mod_word]

theorem dapAt_store_base (mem : ℕ → UInt8) (a : ℕ) (v : UInt16) :
    dapAt (storeLE mem (a + 6) 2 v.toNat) a = { dapAt mem a with base := v } := by
  simp (disch := omega) only [dapAt, storeLE_apply_of_outside, loadLE_storeLE,
    loadLE_storeLE_of_disjoint, ofNat_mod_word]

theorem paramExtAt_store_size (mem : ℕ → UInt8) (a : ℕ) (v : UInt16) :
    paramExtAt (storeLE mem a 2 v.toNat) a = { paramExtAt mem a with size := v } := by
  simp (disch := omega) only [paramExtAt, loadLE_storeLE, loadLE_storeLE_of_disjoint,
    ofNat_mod_word]

section fields

variable (h : Mirrors p q mem) (hp : Placed p)
include h hp

theorem Mirrors.store_es (v : UInt16) :
    Mirrors p { q with reg := { q.reg with es := v } }
      (storeLE mem ((p .reg).toNat + 8) 2 v.toNat) :=
  h.store_reg hp (by omega) (by rw [regAt_store_es, h.reg])

theorem Mirrors.store_si (v : UInt16) :
    Mirrors p { q with reg := { q.reg with si := v } }
      (storeLE mem ((p .reg).toNat + 10) 2 v.toNat) :=
  h.store_reg hp (by omega) (by rw [regAt_store_si, h.reg])

/-- The word `di` is no field of `reg_req_t`, so a store to it is not seen in the area. -/
theorem Mirrors.store_di (v : UInt16) :
    Mirrors p q (storeLE mem ((p .reg).toNat + 12) 2 v.toNat) := by
  have hreg := hp.reg
  exact h.store_outside hp (by omega)

theorem Mirrors.store_bx (v : UInt16) :
    Mirrors p { q with reg := { q.reg with
        bl := UInt8.ofNat (v.toNat % 256)
        bh := UInt8.ofNat (v.toNat / 256) } }
      (storeLE mem ((p .reg).toNat + 2) 2 v.toNat) :=
  h.store_reg hp (by omega) (by rw [regAt_store_bx, h.reg])

theorem Mirrors.store_dapSize (v : UInt8) :
    Mirrors p { q with dap := { q.dap with size := v } }
      (storeLE mem ((p .dap).toNat + 0) 1 v.toNat) :=
  h.store_dap hp (by omega) (by rw [Nat.add_zero, dapAt_store_size, h.dap])

theorem Mirrors.store_dapUnused (v : UInt8) :
    Mirrors p { q with dap := { q.dap with unused := v } }
      (storeLE mem ((p .dap).toNat + 1) 1 v.toNat) :=
  h.store_dap hp (by omega) (by rw [dapAt_store_unused, h.dap])

theorem Mirrors.store_dapOffset (v : UInt16) :
    Mirrors p { q with dap := { q.dap with offset := v } }
      (storeLE mem ((p .dap).toNat + 4) 2 v.toNat) :=
  h.store_dap hp (by omega) (by rw [dapAt_store_offset, h.dap])

theorem Mirrors.store_dapBase (v : UInt16) :
    Mirrors p { q with dap := { q.dap with base := v } }
      (storeLE mem ((p .dap).toNat + 6) 2 v.toNat) :=
  h.store_dap hp (by omega) (by rw [dapAt_store_base, h.dap])

theorem Mirrors.store_extSize (v : UInt16) :
    Mirrors p { q with paramExt := { q.paramExt with size := v } }
      (storeLE mem ((p .paramExt).toNat + 0) 2 v.toNat) :=
  h.store_paramExt hp (by omega) (by rw [Nat.add_zero, paramExtAt_store_size, h.paramExt])

end fields

/-! ### The stores of each stub -/

/-- The addresses the stubs store to do not wrap around. -/
theorem ptr_add (hp : Placed p) (x : RealPtr) (d : UInt32) (k : ℕ) (hd : d.toNat = k)
    (hk : k ≤ 14) : (p x + d).toNat = (p x).toNat + k := by
  have hreg := hp.reg
  have hdap := hp.dap
  have hparamExt := hp.paramExt
  have hbuffer := hp.buffer
  have hx : (p x).toNat < 0x20000 := by cases x <;> omega
  rw [toNat_add_small (by omega), hd]

/-- Stores into the records are not seen on the stack. -/
theorem Kept.of_stores {mem' : ℕ → UInt8} {q' : RealArea} {esp : UInt32}
    (h : Kept p q f ws mem esp) (hf : f.Roomy) (hlen : ws.length ≤ 16) (hq : Mirrors p q' mem')
    (hsame : ∀ a, 0x20000 ≤ a → mem' a = mem a) : Kept p q' f ws mem' esp :=
  h.of_low hf hlen hq fun a ha ↦ hsame a (by omega)

/-- The low half of an address is its offset in the segment. -/
theorem toUInt16_and_low (w : UInt32) : (w &&& 0xffff).toUInt16 = w.toUInt16 := by
  have hmask : (0xffff : UInt32).toUInt16 = -1 := by decide
  rw [UInt32.toUInt16_and, hmask, UInt16.and_neg_one]

/-- The fifth digit of an address in the segment is the segment. -/
theorem toUInt16_segment {w : UInt32} (h1 : 0x10000 ≤ w.toNat) (h2 : w.toNat < 0x20000) :
    ((w &&& 0xf0000) >>> 4).toUInt16 = 0x1000 := by
  apply UInt16.toNat_inj.1
  have hmask : w.toNat &&& 0xf0000 = 0x10000 := by
    have hsplit : w.toNat = 2 ^ 16 * 1 + w.toNat % 2 ^ 16 := by omega
    have hlt : w.toNat % 2 ^ 16 < 2 ^ 16 := Nat.mod_lt _ (by decide)
    rw [hsplit, Nat.two_pow_add_eq_or_of_lt hlt, Nat.and_or_distrib_right]
    have hlow : w.toNat % 2 ^ 16 &&& 0xf0000 = 0 := by
      rw [← Nat.and_two_pow_sub_one_eq_mod, Nat.and_assoc]
      exact Nat.and_zero _
    rw [hlow]
    rfl
  rw [UInt32.toNat_toUInt16, UInt32.toNat_shiftRight, UInt32.toNat_and]
  show (w.toNat &&& 0xf0000) >>> 4 % 2 ^ 16 = 0x1000
  rw [hmask]
  rfl

section prepares

variable (hp : Placed p)
include hp

/-- **`int13_1`** passes no pointer. -/
theorem prepares_body1 :
    Prepares p q { q with reg := { q.reg with es := 0, si := 0 } } [.edi, .ebx] body1 := by
  have hreg := hp.reg
  have hdap := hp.dap
  have hparamExt := hp.paramExt
  have hbuffer := hp.buffer
  have hmem {σ : Type} (c : Pc σ) : (Op.run p body1 c).mem =
      storeLE (storeLE (storeLE c.mem ((p .reg).toNat + 8) 2 (0 : UInt16).toNat)
        ((p .reg).toNat + 10) 2 (0 : UInt16).toNat) ((p .reg).toNat + 12) 2 (0 : UInt16).toNat := by
    rw [← ptr_add hp .reg 8 8 rfl (by decide), ← ptr_add hp .reg 10 10 rfl (by decide),
      ← ptr_add hp .reg 12 12 rfl (by decide)]
    rfl
  refine ⟨fun c f ws h hf hlen ↦ ?_, fun _ ↦ rfl, fun c ↦ ?_, fun _ ↦ rfl, fun c r hr hr' ↦ ?_⟩
  · have hq := ((h.mirrors.store_es hp 0).store_si hp 0).store_di hp 0
    rw [hmem c]
    refine h.of_stores hf hlen hq fun a ha ↦ ?_
    simp (disch := omega) only [storeLE_apply_of_outside]
  · rw [hmem c, loadLE_storeLE]
    rfl
  · fin_cases hr
    · exact absurd hr' (by decide)
    · rfl
    · rfl

/-- **`int13_2`** points `es:bx` at the buffer. -/
theorem prepares_body2 {off : UInt16} (hoff : off = (p .buffer).toUInt16) :
    Prepares p q { q with reg := { q.reg with
        es := 0x1000
        si := 0
        bl := UInt8.ofNat (off.toNat % 256)
        bh := UInt8.ofNat (off.toNat / 256) } } [.esi, .edi, .ebx] body2 := by
  have hreg := hp.reg
  have hdap := hp.dap
  have hparamExt := hp.paramExt
  have hbuffer := hp.buffer
  have hmem {σ : Type} (c : Pc σ) : (Op.run p body2 c).mem =
      storeLE (storeLE (storeLE (storeLE c.mem ((p .reg).toNat + 8) 2 (0x1000 : UInt16).toNat)
        ((p .reg).toNat + 10) 2 (0 : UInt16).toNat) ((p .reg).toNat + 12) 2 (0 : UInt16).toNat)
        ((p .reg).toNat + 2) 2 off.toNat := by
    rw [hoff, ← toUInt16_xor_segment (p .buffer), ← ptr_add hp .reg 8 8 rfl (by decide),
      ← ptr_add hp .reg 10 10 rfl (by decide), ← ptr_add hp .reg 12 12 rfl (by decide),
      ← ptr_add hp .reg 2 2 rfl (by decide)]
    rfl
  refine ⟨fun c f ws h hf hlen ↦ ?_, fun _ ↦ rfl, fun c ↦ ?_, fun _ ↦ rfl, fun c r hr hr' ↦ ?_⟩
  · have hq := (((h.mirrors.store_es hp 0x1000).store_si hp 0).store_di hp 0).store_bx hp off
    rw [hmem c]
    refine h.of_stores hf hlen hq fun a ha ↦ ?_
    simp (disch := omega) only [storeLE_apply_of_outside]
  · rw [hmem c, loadLE_storeLE_of_disjoint (by omega), loadLE_storeLE]
    rfl
  · fin_cases hr
    · exact absurd hr' (by decide)
    · exact absurd hr' (by decide)
    · rfl

/-- **`int13_3`** points `ds:si` at the packet, and the packet at the buffer. -/
theorem prepares_body3 {off doff : UInt16} (hoff : off = (p .buffer).toUInt16)
    (hdoff : doff = (p .dap).toUInt16) :
    Prepares p q { q with
      dap := { q.dap with size := 0x10, unused := 0, offset := off, base := 0x1000 }
      reg := { q.reg with si := doff } } [.esi, .edi, .ecx, .ebx] body3 := by
  have hlow := hp.low
  have hreg := hp.reg
  have hdap := hp.dap
  have hparamExt := hp.paramExt
  have hbuffer := hp.buffer
  have hsegment : ((p .buffer &&& 0xf0000) >>> 4).toUInt16 = 0x1000 :=
    toUInt16_segment (by omega) (by omega)
  have hmem {σ : Type} (c : Pc σ) : (Op.run p body3 c).mem =
      storeLE (storeLE (storeLE (storeLE (storeLE (storeLE c.mem
        ((p .dap).toNat + 0) 1 (0x10 : UInt8).toNat) ((p .dap).toNat + 1) 1 (0 : UInt8).toNat)
        ((p .dap).toNat + 4) 2 off.toNat) ((p .dap).toNat + 6) 2 (0x1000 : UInt16).toNat)
        ((p .reg).toNat + 10) 2 doff.toNat) ((p .reg).toNat + 12) 2 (0 : UInt16).toNat := by
    rw [hoff, hdoff, ← hsegment, ← toUInt16_and_low (p .buffer), ← toUInt16_and_low (p .dap),
      ← ptr_add hp .dap 0 0 rfl (by decide), ← ptr_add hp .dap 1 1 rfl (by decide),
      ← ptr_add hp .dap 4 4 rfl (by decide), ← ptr_add hp .dap 6 6 rfl (by decide),
      ← ptr_add hp .reg 10 10 rfl (by decide), ← ptr_add hp .reg 12 12 rfl (by decide)]
    rfl
  refine ⟨fun c f ws h hf hlen ↦ ?_, fun _ ↦ rfl, fun c ↦ ?_, fun _ ↦ rfl, fun c r hr hr' ↦ ?_⟩
  · have hq := (((((h.mirrors.store_dapSize hp 0x10).store_dapUnused hp 0).store_dapOffset hp
      off).store_dapBase hp 0x1000).store_si hp doff).store_di hp 0
    rw [hmem c]
    refine h.of_stores hf hlen hq fun a ha ↦ ?_
    simp (disch := omega) only [storeLE_apply_of_outside]
  · rw [hmem c, loadLE_storeLE]
    rfl
  · fin_cases hr
    · exact absurd hr' (by decide)
    · exact absurd hr' (by decide)
    · rfl

/-- **`int13_4`** points `ds:si` at the result buffer. -/
theorem prepares_body4 {eoff : UInt16} (heoff : eoff = (p .paramExt).toUInt16) :
    Prepares p q { q with
      paramExt := { q.paramExt with size := 0x1e }
      reg := { q.reg with si := eoff } } [.esi, .edi, .ebx] body4 := by
  have hreg := hp.reg
  have hdap := hp.dap
  have hparamExt := hp.paramExt
  have hbuffer := hp.buffer
  have hmem {σ : Type} (c : Pc σ) : (Op.run p body4 c).mem =
      storeLE (storeLE (storeLE c.mem ((p .paramExt).toNat + 0) 2 (0x1e : UInt16).toNat)
        ((p .reg).toNat + 10) 2 eoff.toNat) ((p .reg).toNat + 12) 2 (0 : UInt16).toNat := by
    rw [heoff, ← toUInt16_and_low (p .paramExt), ← ptr_add hp .paramExt 0 0 rfl (by decide),
      ← ptr_add hp .reg 10 10 rfl (by decide), ← ptr_add hp .reg 12 12 rfl (by decide)]
    rfl
  refine ⟨fun c f ws h hf hlen ↦ ?_, fun _ ↦ rfl, fun c ↦ ?_, fun _ ↦ rfl, fun c r hr hr' ↦ ?_⟩
  · have hq := ((h.mirrors.store_extSize hp 0x1e).store_si hp eoff).store_di hp 0
    rw [hmem c]
    refine h.of_stores hf hlen hq fun a ha ↦ ?_
    simp (disch := omega) only [storeLE_apply_of_outside]
  · rw [hmem c, loadLE_storeLE]
    rfl
  · fin_cases hr
    · exact absurd hr' (by decide)
    · exact absurd hr' (by decide)
    · rfl

end prepares

end Dwipe

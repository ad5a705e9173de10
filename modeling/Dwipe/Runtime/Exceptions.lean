import Dwipe.Library.Stack
import Mathlib.Data.Fin.VecNotation
import Mathlib.Data.Fintype.Basic
import Mathlib.Tactic.FinCases

/-!
# Exception entry and exit

The stubs `vec0` … `vec19` and `int_hand` of `head.S`, and `inter` of `inter.c`, which they call
with a pointer to the words they have pushed. The stubs are **instruction lists** over a processor
with seven general registers, a stack pointer and a memory.

`inter` reads the pushed words as a `struct eregs`. The struct has two fields in front, `ss` and
`ds`, for which nothing is pushed, so every field is the word two further up than the one it is
named for. And `int_hand` ends with `iret` while the vector and the error code are still on the
stack. What `inter` receives and where the processor goes on is computed by `handler_eq`.
-/

namespace Dwipe

/-! ### The processor -/

/-- The general registers other than `%esp`, which has a part of its own in all that follows. -/
inductive Reg where
  | eax
  | ebx
  | ecx
  | edx
  | esi
  | edi
  | ebp
  deriving DecidableEq

/-- The processor and its memory, in protected mode with flat segments. -/
structure Cpu where
  regs : Reg → UInt32
  esp : UInt32
  eip : UInt32
  /-- The selector, as the word that is pushed for it. -/
  cs : UInt32
  eflags : UInt32
  mem : Memory

/-- Push a word. -/
def Cpu.push (c : Cpu) (w : UInt32) : Cpu :=
  { c with esp := c.esp - 4, mem := Function.update c.mem (c.esp - 4) w }

/-- Store a general register. -/
def Cpu.setReg (c : Cpu) (r : Reg) (w : UInt32) : Cpu :=
  { c with regs := Function.update c.regs r w }

/-- The instructions of the stubs and of `int_hand`, other than `call` and the `jmp` between
them. -/
inductive Instr where
  /-- `pushl $w`. -/
  | pushImm (w : UInt32)
  /-- `pushl %r`. -/
  | push (r : Reg)
  /-- `leal d(%esp), %r`. -/
  | leaEsp (d : UInt32) (r : Reg)
  /-- `pushl %esp`, which pushes the value before the push. -/
  | pushEsp
  /-- `addl $d, %esp`. -/
  | addEsp (d : UInt32)
  /-- `popl %r`. -/
  | pop (r : Reg)
  /-- `iret` to the same privilege level. -/
  | iret
  deriving DecidableEq

/-- One instruction. `%eip` is not kept up to date: the code of the stubs is a straight run, and
only `iret` sets it. -/
def Instr.step (c : Cpu) : Instr → Cpu
  | .pushImm w => c.push w
  | .push r => c.push (c.regs r)
  | .leaEsp d r => c.setReg r (c.esp + d)
  | .pushEsp => c.push c.esp
  | .addEsp d => { c with esp := c.esp + d }
  | .pop r => { c.setReg r (c.mem c.esp) with esp := c.esp + 4 }
  | .iret =>
    { c with
      eip := c.mem c.esp
      cs := c.mem (c.esp + 4)
      eflags := c.mem (c.esp + 4 + 4)
      esp := c.esp + 4 + 4 + 4 }

/-- A straight run of instructions. -/
def exec (is : List Instr) (c : Cpu) : Cpu := is.foldl Instr.step c

/-! ### The handlers -/

/-- The vectors for which the processor pushes an error code. -/
def pushesCode (v : Fin 20) : Bool := v ∈ ([8, 10, 11, 12, 13, 14, 17] : List (Fin 20))

/-- A stub that stands in for the missing error code. -/
def vecPlain (v : UInt32) : List Instr := [.pushImm 0, .pushImm v]

/-- A stub for a vector with an error code. -/
def vecCode (v : UInt32) : List Instr := [.pushImm v]

/-- `vec0` … `vec19`, up to the `jmp int_hand`: behind each of them there are an error code and a
vector on the stack. -/
def vec : Fin 20 → List Instr :=
  ![vecPlain 0, vecPlain 1, vecPlain 2, vecPlain 3, vecPlain 4, vecPlain 5, vecPlain 6,
    vecPlain 7, vecCode 8, vecPlain 9, vecCode 10, vecCode 11, vecCode 12, vecCode 13, vecCode 14,
    vecPlain 15, vecPlain 16, vecCode 17, vecPlain 18, vecPlain 19]

/-- `int_hand` up to the call: the registers, a stack pointer, and a pointer to all of this as the
argument. -/
def intHandEntry : List Instr :=
  [.push .eax, .push .ebx, .push .ecx, .push .edx, .push .edi, .push .esi, .push .ebp,
    .leaEsp 20 .eax, .push .eax, .pushEsp]

/-- `int_hand` from the call on. The vector and the error code are not taken off the stack, so
`iret` pops them. -/
def intHandExit : List Instr :=
  [.addEsp 8, .pop .ebp, .pop .esi, .pop .edi, .pop .edx, .pop .ecx, .pop .ebx, .pop .eax, .iret]

/-- `struct eregs`. -/
structure Eregs where
  ss : UInt32
  ds : UInt32
  esp : UInt32
  ebp : UInt32
  esi : UInt32
  edi : UInt32
  edx : UInt32
  ecx : UInt32
  ebx : UInt32
  eax : UInt32
  vect : UInt32
  code : UInt32
  eip : UInt32
  cs : UInt32
  eflag : UInt32
  deriving DecidableEq

/-- The struct at an address, word by word, in the order of its fields. -/
def Eregs.load (mem : Memory) (p : UInt32) : Eregs where
  ss := mem (wordAbove p 0)
  ds := mem (wordAbove p 1)
  esp := mem (wordAbove p 2)
  ebp := mem (wordAbove p 3)
  esi := mem (wordAbove p 4)
  edi := mem (wordAbove p 5)
  edx := mem (wordAbove p 6)
  ecx := mem (wordAbove p 7)
  ebx := mem (wordAbove p 8)
  eax := mem (wordAbove p 9)
  vect := mem (wordAbove p 10)
  code := mem (wordAbove p 11)
  eip := mem (wordAbove p 12)
  cs := mem (wordAbove p 13)
  eflag := mem (wordAbove p 14)

/-- `inter` comes back, for the non-maskable interrupt only; otherwise it shows the registers and
stays in its last loop. -/
def interReturns (r : Eregs) : Bool := r.vect = 2

/-- What a C function may leave behind in the registers and in its argument's slot. -/
structure Clobber where
  eax : UInt32
  ecx : UInt32
  edx : UInt32
  arg : UInt32

/-- The processor after `call inter` has come back. The words below the stack pointer were the
callee's and are not read again. -/
def Cpu.returned (c : Cpu) (k : Clobber) : Cpu :=
  { ((c.setReg .eax k.eax).setReg .ecx k.ecx).setReg .edx k.edx with
    mem := Function.update c.mem c.esp k.arg }

/-- What became of an exception: the struct `inter` was handed, and the processor after `iret` if
`inter` came back. -/
structure Handled where
  eregs : Eregs
  resumed : Option Cpu

/-- `int_hand`. `inter` gets the pointer that was pushed last. -/
def intHand (k : Clobber) (c : Cpu) : Handled :=
  let c := exec intHandEntry c
  let r := Eregs.load c.mem (c.mem c.esp)
  ⟨r, if interReturns r then some (exec intHandExit (c.returned k)) else none⟩

/-- The frame the processor pushes for the vector `v`, with the error code `e` if it has one. -/
def Cpu.fault (c : Cpu) (v : Fin 20) (e : UInt32) : Cpu :=
  let c := ((c.push c.eflags).push c.cs).push c.eip
  if pushesCode v then c.push e else c

/-- **An exception**: the processor's frame, the stub of the vector, and `int_hand`. -/
def handler (k : Clobber) (c : Cpu) (v : Fin 20) (e : UInt32) : Handled :=
  intHand k (exec (vec v) (c.fault v e))

/-! ### The words on the stack -/

/-- The error code of an exception: the processor's, or 0. -/
def errorCode (v : Fin 20) (e : UInt32) : UInt32 := if pushesCode v then e else 0

/-- **The two hardware frames become one**: with or without an error code, the stub leaves the
vector and the error code on top of the processor's frame. -/
theorem exec_vec (c : Cpu) (v : Fin 20) (e : UInt32) :
    exec (vec v) (c.fault v e) =
      ((((c.push c.eflags).push c.cs).push c.eip).push (errorCode v e)).push
        (UInt32.ofNat v) := by
  fin_cases v <;> rfl

/-- The words `int_hand` has pushed when it calls `inter`, down to the two words that were on top of
the interrupted stack. -/
def pushed (c : Cpu) (v : Fin 20) (e : UInt32) : List UInt32 :=
  [c.regs .ebp, c.regs .esi, c.regs .edi, c.regs .edx, c.regs .ecx, c.regs .ebx, c.regs .eax,
    UInt32.ofNat v, errorCode v e, c.eip, c.cs, c.eflags, c.mem c.esp, c.mem (wordAbove c.esp 1)]

theorem stacked_two (c : Cpu) :
    Stacked c.mem c.esp [c.mem c.esp, c.mem (wordAbove c.esp 1)] := by
  intro i hi
  match i with
  | 0 => exact congrArg c.mem (wordAbove_zero _)
  | 1 => rfl

/-- The processor with another stack: what a run of pushes changes. -/
def Cpu.withStack (c : Cpu) (s : Memory × UInt32) : Cpu := { c with mem := s.1, esp := s.2 }

/-- Pushes change the stack only, so they can be counted without being stepped through. -/
theorem foldl_push (us : List UInt32) (c : Cpu) :
    us.foldl Cpu.push c = c.withStack (us.foldl pushWord (c.mem, c.esp)) := by
  induction us generalizing c with
  | nil => rfl
  | cons u us ih =>
    rw [List.foldl_cons, ih, List.foldl_cons]
    rfl

/-- **A row of register pushes** puts the registers on the stack, the last one on top. -/
theorem exec_pushes (rs : List Reg) (c : Cpu) :
    exec (rs.map .push) c = (rs.map c.regs).foldl Cpu.push c := by
  induction rs generalizing c with
  | nil => rfl
  | cons r rs ih => exact ih (c.push (c.regs r))

/-- The words of the frame, the stub and the registers, in the order in which they are pushed. -/
def pushes (c : Cpu) (v : Fin 20) (e : UInt32) : List UInt32 :=
  [c.eflags, c.cs, c.eip, errorCode v e, UInt32.ofNat v] ++
    [.eax, .ebx, .ecx, .edx, .edi, .esi, .ebp].map c.regs

/-- Up to the call, `int_hand` has pushed these words, and then two addresses. -/
theorem exec_intHandEntry (c : Cpu) (v : Fin 20) (e : UInt32) :
    exec intHandEntry (exec (vec v) (c.fault v e)) =
      exec [.leaEsp 20 .eax, .push .eax, .pushEsp]
        (c.withStack ((pushes c v e).foldl pushWord (c.mem, c.esp))) := by
  have hframe : exec (vec v) (c.fault v e) =
      [c.eflags, c.cs, c.eip, errorCode v e, UInt32.ofNat v].foldl Cpu.push c := exec_vec c v e
  have hregs : (exec (vec v) (c.fault v e)).regs = c.regs := by
    rw [hframe, foldl_push]
    rfl
  have hentry : intHandEntry = [.eax, .ebx, .ecx, .edx, .edi, .esi, .ebp].map .push ++
      [.leaEsp 20 .eax, .push .eax, .pushEsp] := rfl
  rw [hentry, exec, List.foldl_append]
  show exec _ (exec _ _) = _
  rw [exec_pushes, hregs, hframe, ← List.foldl_append, foldl_push]
  rfl

/-- **The stack at the call**: the pointer, the stack pointer that was saved, and the pushed
words. The pointer is the address of the word under it. -/
theorem stacked_intHandEntry (c : Cpu) (v : Fin 20) (e : UInt32) {c' : Cpu}
    (hc' : c' = exec intHandEntry (exec (vec v) (c.fault v e))) :
    ∃ esp, Stacked c'.mem c'.esp ((c'.esp + 4) :: esp :: pushed c v e) := by
  obtain ⟨t, ht⟩ : ∃ t, t = (pushes c v e).foldl pushWord (c.mem, c.esp) := ⟨_, rfl⟩
  rw [exec_intHandEntry, ← ht] at hc'
  have hwords : Stacked t.1 t.2 (pushed c v e) := by
    have hlt : (pushes c v e).length + 2 < 2 ^ 30 := Nat.le_of_ble_eq_true rfl
    rw [ht]
    exact (stacked_two c).pushAll (pushes c v e) hlt
  -- the two addresses are pushed last
  have hadd : t.2 - 4 - 4 + 4 = t.2 - 4 := UInt32.sub_add_cancel _ _
  have hlen : (pushed c v e).length = 14 := rfl
  have hlast := (hwords.push (by omega) (t.2 + 20)).push (by rw [List.length_cons]; omega) (t.2 - 4)
  refine ⟨t.2 + 20, ?_⟩
  rw [hc']
  show Stacked _ (t.2 - 4 - 4) ((t.2 - 4 - 4 + 4) :: _)
  rw [hadd]
  exact hlast

/-- **What `inter` is handed**: two words further up than the fields are named for. -/
def shifted (c : Cpu) (v : Fin 20) (e esp : UInt32) : Eregs where
  ss := esp
  ds := c.regs .ebp
  esp := c.regs .esi
  ebp := c.regs .edi
  esi := c.regs .edx
  edi := c.regs .ecx
  edx := c.regs .ebx
  ecx := c.regs .eax
  ebx := UInt32.ofNat v
  eax := errorCode v e
  vect := c.eip
  code := c.cs
  eip := c.eflags
  cs := c.mem c.esp
  eflag := c.mem (wordAbove c.esp 1)

theorem load_eq {c c' : Cpu} {v : Fin 20} {e esp : UInt32}
    (h : Stacked c'.mem c'.esp ((c'.esp + 4) :: esp :: pushed c v e)) :
    Eregs.load c'.mem (c'.mem c'.esp) = shifted c v e esp := by
  have hlen : (esp :: pushed c v e).length = 15 := rfl
  have hread (i : Fin 15) : c'.mem (wordAbove (c'.esp + 4) i) = (esp :: pushed c v e).get i :=
    h.pop i (by rw [hlen]; exact i.isLt)
  rw [h.top, Eregs.load, shifted, Eregs.mk.injEq]
  exact ⟨hread 0, hread 1, hread 2, hread 3, hread 4, hread 5, hread 6,
    hread 7, hread 8, hread 9, hread 10, hread 11, hread 12, hread 13, hread 14⟩

/-! ### The way out -/

/-- **A row of pops** loads the stacked words, and moves the stack pointer behind them. -/
theorem exec_pops (rs : List (Reg × UInt32)) {ws : List UInt32} :
    ∀ {c : Cpu}, Stacked c.mem c.esp (rs.map Prod.snd ++ ws) →
      ∃ sp, Stacked c.mem sp ws ∧ exec (rs.map fun r ↦ .pop r.1) c =
        { c with regs := rs.foldl (fun f r ↦ Function.update f r.1 r.2) c.regs, esp := sp } := by
  induction rs with
  | nil =>
    intro c h
    exact ⟨c.esp, h, rfl⟩
  | cons r rs ih =>
    intro c h
    have hrest : Stacked c.mem (c.esp + 4) (rs.map Prod.snd ++ ws) := h.pop
    have hstep : Instr.step c (.pop r.1) =
        { c with regs := Function.update c.regs r.1 r.2, esp := c.esp + 4 } := by
      rw [Instr.step, Cpu.setReg, h.top]
    obtain ⟨sp, hsp, hrun⟩ :=
      @ih { c with regs := Function.update c.regs r.1 r.2, esp := c.esp + 4 } hrest
    refine ⟨sp, hsp, ?_⟩
    rw [List.map_cons, exec, List.foldl_cons, hstep]
    exact hrun

/-- `iret` takes the three words on top, whatever they are. -/
theorem step_iret {c : Cpu} {eip cs eflags : UInt32} {ws : List UInt32}
    (h : Stacked c.mem c.esp (eip :: cs :: eflags :: ws)) :
    Instr.step c .iret =
      { c with eip := eip, cs := cs, eflags := eflags, esp := c.esp + 4 + 4 + 4 } := by
  rw [Instr.step, h.top, h.pop.top, h.pop.pop.top]

/-- The registers in the order in which `int_hand` pops them. -/
def popped (c : Cpu) : List (Reg × UInt32) :=
  [.ebp, .esi, .edi, .edx, .ecx, .ebx, .eax].map fun r ↦ (r, c.regs r)

/-- All of the registers are popped, so none of them keeps what the handler has left in it. -/
theorem foldl_popped (c : Cpu) (f : Reg → UInt32) :
    (popped c).foldl (fun f r ↦ Function.update f r.1 r.2) f = c.regs := by
  funext r
  cases r <;> rfl

/-- **Where the processor goes on** when `inter` comes back: the general registers are the
interrupted ones, but `iret` takes the vector for `%eip`, the error code for `%cs` and the
interrupted `%eip` for the flags. -/
structure Resumed (c : Cpu) (v : Fin 20) (e : UInt32) (c' : Cpu) : Prop where
  regs : c'.regs = c.regs
  eip : c'.eip = UInt32.ofNat v
  cs : c'.cs = errorCode v e
  eflags : c'.eflags = c.eip

theorem resumed_intHandExit {c c' : Cpu} {v : Fin 20} {e p esp : UInt32} (k : Clobber)
    (h : Stacked c'.mem c'.esp (p :: esp :: pushed c v e)) :
    Resumed c v e (exec intHandExit (c'.returned k)) := by
  obtain ⟨d, hd⟩ : ∃ d, d = Instr.step (c'.returned k) (.addEsp 8) := ⟨_, rfl⟩
  -- the callee may have changed its argument, which is dropped
  have hstack : Stacked d.mem d.esp (pushed c v e) := by
    have hesp : d.esp = c'.esp + 4 + 4 := by
      rw [hd, UInt32.add_assoc]
      rfl
    have hlen : (pushed c v e).length = 14 := rfl
    have hmem : d.mem = Function.update c'.mem c'.esp k.arg := by
      rw [hd]
      rfl
    have hpush := h.pop.push (by rw [List.length_cons]; omega) k.arg
    rw [UInt32.add_sub_cancel] at hpush
    rw [hmem, hesp]
    exact hpush.pop.pop
  obtain ⟨sp, hsp, hrun⟩ := exec_pops (popped c) hstack
  have hexit : exec intHandExit (c'.returned k) =
      Instr.step (exec ((popped c).map fun r ↦ .pop r.1) d) .iret := by
    rw [hd]
    rfl
  rw [hexit, hrun, foldl_popped, step_iret hsp]
  exact ⟨rfl, rfl, rfl, rfl⟩

/-! ### What the handler does -/

/-- **The handler**, for every processor, vector and error code. `inter` comes back exactly if the
interrupted `%eip` is 2, the word it takes for the vector. -/
theorem handler_eq (k : Clobber) (c : Cpu) (v : Fin 20) (e : UInt32) :
    ∃ esp, (handler k c v e).eregs = shifted c v e esp ∧
      ((handler k c v e).resumed.isSome ↔ c.eip = 2) ∧
      ∀ c', (handler k c v e).resumed = some c' → Resumed c v e c' := by
  obtain ⟨c', hc'⟩ : ∃ c', c' = exec intHandEntry (exec (vec v) (c.fault v e)) := ⟨_, rfl⟩
  obtain ⟨esp, hstack⟩ := stacked_intHandEntry c v e hc'
  have hload := load_eq hstack
  have hrun : handler k c v e = ⟨shifted c v e esp,
      if interReturns (shifted c v e esp) then some (exec intHandExit (c'.returned k))
      else none⟩ := by
    rw [handler, intHand, ← hc', hload]
  refine ⟨esp, by rw [hrun], ?_, ?_⟩
  · rw [hrun, interReturns]
    show (Option.isSome (if decide (c.eip = 2) then _ else _)) = true ↔ _
    split <;> simp_all
  · intro c'' hc''
    rw [hrun] at hc''
    simp only [Option.ite_none_right_eq_some, Option.some.injEq] at hc''
    exact hc''.2 ▸ resumed_intHandExit k hstack

/-- **The entry is faithful**: the struct shows the vector, the error code and the registers of the
interrupted program. -/
structure Eregs.Shows (r : Eregs) (c : Cpu) (v : Fin 20) (e : UInt32) : Prop where
  vect : r.vect = UInt32.ofNat v
  code : r.code = errorCode v e
  eip : r.eip = c.eip
  cs : r.cs = c.cs
  eflag : r.eflag = c.eflags
  eax : r.eax = c.regs .eax
  ebx : r.ebx = c.regs .ebx
  ecx : r.ecx = c.regs .ecx
  edx : r.edx = c.regs .edx
  edi : r.edi = c.regs .edi
  esi : r.esi = c.regs .esi
  ebp : r.ebp = c.regs .ebp

/-- **The exit is faithful**: the processor is back in the interrupted program. -/
structure BackIn (c c' : Cpu) : Prop where
  eip : c'.eip = c.eip
  cs : c'.cs = c.cs
  eflags : c'.eflags = c.eflags
  regs : ∀ r, c'.regs r = c.regs r

/-- **Entry and exit are faithful.** -/
def FaithfulHandler (k : Clobber) (c : Cpu) (v : Fin 20) (e : UInt32) : Prop :=
  (handler k c v e).eregs.Shows c v e ∧
    ∀ c', (handler k c v e).resumed = some c' → BackIn c c'

/-- **The coincidence** under which words two places apart are the same: every other one of them is
the vector, the others are the error code, the two words on the interrupted stack included. -/
structure Coincides (c : Cpu) (v : Fin 20) (e : UInt32) : Prop where
  eip : c.eip = UInt32.ofNat v
  eflags : c.eflags = UInt32.ofNat v
  ebx : c.regs .ebx = UInt32.ofNat v
  edx : c.regs .edx = UInt32.ofNat v
  esi : c.regs .esi = UInt32.ofNat v
  second : c.mem (wordAbove c.esp 1) = UInt32.ofNat v
  cs : c.cs = errorCode v e
  eax : c.regs .eax = errorCode v e
  ecx : c.regs .ecx = errorCode v e
  edi : c.regs .edi = errorCode v e
  ebp : c.regs .ebp = errorCode v e
  first : c.mem c.esp = errorCode v e

theorem shows_shifted_iff {c : Cpu} {v : Fin 20} {e esp : UInt32} :
    (shifted c v e esp).Shows c v e ↔ Coincides c v e := by
  constructor
  · rintro ⟨hvect, hcode, heip, hcs, heflag, heax, hebx, hecx, hedx, hedi, hesi, hebp⟩
    have heflags : c.eflags = UInt32.ofNat v := heip.trans hvect
    have hedx' : c.regs .edx = UInt32.ofNat v := hedx.symm.trans hebx.symm
    have hecx' : c.regs .ecx = errorCode v e := hecx.symm.trans heax.symm
    have hedi' : c.regs .edi = errorCode v e := hedi.symm.trans hecx'
    exact ⟨hvect, heflags, hebx.symm, hedx', hesi.symm.trans hedx', heflag.trans heflags, hcode,
      heax.symm, hecx', hedi', hebp.symm.trans hedi', hcs.trans hcode⟩
  · intro h
    exact ⟨h.eip, h.cs, h.eflags.trans h.eip.symm, h.first.trans h.cs.symm,
      h.second.trans h.eflags.symm, h.eax.symm, h.ebx.symm, h.eax.trans h.ecx.symm,
      h.ebx.trans h.edx.symm, h.ecx.trans h.edi.symm, h.edx.trans h.esi.symm,
      h.edi.trans h.ebp.symm⟩

theorem Coincides.backIn {c c' : Cpu} {v : Fin 20} {e : UInt32} (h : Coincides c v e)
    (hc' : Resumed c v e c') : BackIn c c' :=
  ⟨hc'.eip.trans h.eip.symm, hc'.cs.trans h.cs.symm,
    hc'.eflags.trans (h.eip.trans h.eflags.symm), fun r ↦ congrFun hc'.regs r⟩

theorem faithfulHandler_iff {k : Clobber} {c : Cpu} {v : Fin 20} {e : UInt32} :
    FaithfulHandler k c v e ↔ Coincides c v e := by
  obtain ⟨esp, heregs, -, hresumed⟩ := handler_eq k c v e
  rw [FaithfulHandler, heregs, shows_shifted_iff]
  exact ⟨fun h ↦ h.1, fun h ↦ ⟨h, fun c' hc' ↦ h.backIn (hresumed c' hc')⟩⟩

/-- **Exception entry and exit** are faithful only by coincidence: for every register state, stack,
vector and error code, the struct shows the interrupted registers and the way back leads to the
interrupted program exactly if the registers and the stack happen to alternate between the vector
and the error code. -/
theorem exception_faithful_iff (k : Clobber) (c : Cpu) (v : Fin 20) (e : UInt32) :
    FaithfulHandler k c v e ↔ Coincides c v e :=
  faithfulHandler_iff

/-- A program at `0x101234`, with the code segment of `head.S` and registers told apart. -/
def someCpu : Cpu where
  regs
    | .eax => 0xa
    | .ebx => 0xb
    | .ecx => 0xc
    | .edx => 0xd
    | .esi => 0x51
    | .edi => 0xd1
    | .ebp => 0xb9
  esp := 0x180000
  eip := 0x101234
  cs := 0x10
  eflags := 0x202
  mem := fun _ ↦ 0

/-- **The non-maskable interrupt is not recognised**: the struct shows the interrupted `%eip` for
the vector, and `inter` does not come back. -/
theorem exception_not_faithful :
    (handler ⟨0, 0, 0, 0⟩ someCpu 2 0).eregs.vect = 0x101234 ∧
      (handler ⟨0, 0, 0, 0⟩ someCpu 2 0).eregs.eip = 0x202 ∧
      (handler ⟨0, 0, 0, 0⟩ someCpu 2 0).resumed = none ∧
      ¬FaithfulHandler ⟨0, 0, 0, 0⟩ someCpu 2 0 := by
  obtain ⟨esp, heregs, hback, -⟩ := handler_eq ⟨0, 0, 0, 0⟩ someCpu 2 0
  refine ⟨by rw [heregs]; rfl, by rw [heregs]; rfl, ?_, fun h ↦ ?_⟩
  · rw [← Option.not_isSome_iff_eq_none, hback]
    decide
  · exact absurd (faithfulHandler_iff.1 h).eip (by decide)

end Dwipe

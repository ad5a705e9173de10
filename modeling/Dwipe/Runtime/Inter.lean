import Dwipe.Library.Bytes
import Dwipe.Runtime.Display
import Dwipe.Runtime.Exceptions
import Mathlib.Tactic.Ring

/-!
# The screen of an exception

`inter` of `inter.c`, up to the loop in which it stays: what it draws for a trap frame. It blanks
the lower part of the display, and draws the registers, 24 words of the stack and ten bytes of code,
which it reads from memory while it draws.

The function is modelled as it goes, on the memory that holds the display, the static buffer of
`hprint2`, the words it shows, and **the stack below the trap frame**, on which `inter` and the
functions it calls work. What they leave there is the compiler's business, so it is a parameter
(`Frames`): it may be anything, and be different behind every call, and a word of the stack that is
shown while it lies there is whatever has been left. The trap frame itself is above that part of the
stack; `inter` only reads it, so it is passed by its value, and is taken not to be on the display
or in the buffer.

`headDraws` and `laterDraws` list what is drawn, call by call. **Off the frames, `inter` draws these
lists** (`same_inter`): the words of the stack and the bytes of the code are those it finds when it
gets there. The page-fault address is in neither list, since what is drawn for it is drawn over
(`drawAll_faultDraws`).

A call is **legible** at the end if the later ones stay off its cells (`shown_drawAll`), and a group
of calls if they stay off one another too (`shown_group`); where a call draws does not depend on the
frame, but for the type.
-/

namespace Dwipe

open Bytes Canvas

/-! ### The function -/

/-- `codes`: the names of the vectors, some of them with spaces in front. -/
def codes : List (List UInt8) :=
  ["  Divide", "   Debug", "     NMI", "  Brkpnt", "Overflow", "   Bound", "  Inv_Op", " No_Math",
    "Double_Fault", "Seg_Over", " Inv_TSS", "  Seg_NP", "Stack_Fault", "Gen_Prot", "Page_Fault",
    "   Resvd", "     FPE", "Alignment", " Mch_Chk", "SIMD FPE"].map ascii

/-- The loop that blanks the cells from row 13 on: `2*80*(24-LINE_SCROLL-2)` of them. -/
def clearScroll (mem : ℕ → UInt8) : ℕ → UInt8 :=
  put 2 mem (screenAdr + 2 * 80 * 13) (List.replicate (2 * 80 * 7) 0x20)

/-- **The stack below the trap frame**, with what is left there: by `inter` when it is entered, and
by each of its calls, which is known by the place where it draws, up to the next one. It is neither
on the display nor in the static buffer, which is at `buf`. -/
structure Frames (buf : ℕ) where
  lo : ℕ
  hi : ℕ
  entry : (ℕ → UInt8) → ℕ → UInt8
  left : ℕ → ℕ → (ℕ → UInt8) → ℕ → UInt8
  off_display : hi ≤ screenAdr ∨ screenAdr + 0x8000 ≤ lo
  off_buffer : hi ≤ buf ∨ buf + 9 ≤ lo

namespace Frames

variable {buf : ℕ} (k : Frames buf)

/-- The byte is in the frames: nothing is said about it once `inter` is entered. -/
def Holds (a : ℕ) : Prop := k.lo ≤ a ∧ a < k.hi

instance (a : ℕ) : Decidable (k.Holds a) := inferInstanceAs (Decidable (_ ∧ _))

/-- The memory with these bytes in the frames, and its own everywhere else. -/
def overlay (b mem : ℕ → UInt8) : ℕ → UInt8 := fun a ↦ if k.Holds a then b a else mem a

/-- A call of `cprint`, with what is left in the frames until the next one. -/
def cprint (mem : ℕ → UInt8) (y x : ℕ) (text : List UInt8) : ℕ → UInt8 :=
  k.overlay (k.left y x mem) (Dwipe.cprint mem y x text)

/-- A call of `hprint2`, with what is left in the frames until the next one. -/
def hprint2 (mem : ℕ → UInt8) (y x : ℕ) (val : UInt32) (digits : ℕ) : ℕ → UInt8 :=
  k.overlay (k.left y x mem) (Dwipe.hprint2 buf mem y x val digits)

/-- A call of `hprint`: all eight digits. -/
def hprint (mem : ℕ → UInt8) (y x : ℕ) (val : UInt32) : ℕ → UInt8 := k.hprint2 mem y x val 8

end Frames

section inter

variable {buf : ℕ} (k : Frames buf) (cr2 : UInt32) (r : Eregs)

/-- The title and the type: a name, if the vector has one, else a number. -/
def interHead (mem : ℕ → UInt8) : ℕ → UInt8 :=
  let mem := clearScroll mem
  let mem := k.cprint mem 13 0 (ascii "Unexpected Interrupt - Halting")
  let mem := k.cprint mem 15 0 (ascii " Type: ")
  if r.vect ≤ 19 then k.cprint mem 15 7 (codes.getD r.vect.toNat [])
  else k.hprint mem 15 7 r.vect

/-- The registers, with `line` for the row 13. -/
def interRegs (mem : ℕ → UInt8) : ℕ → UInt8 :=
  let mem := k.cprint mem 16 0 (ascii "   PC: ")
  let mem := k.hprint mem 16 7 r.eip
  let mem := k.cprint mem 17 0 (ascii "   CS: ")
  let mem := k.hprint mem 17 7 r.cs
  let mem := k.cprint mem 18 0 (ascii "Eflag: ")
  let mem := k.hprint mem 18 7 r.eflag
  let mem := k.cprint mem 19 0 (ascii " Code: ")
  let mem := k.hprint mem 19 7 r.code
  let mem := if r.vect = 14 then
      k.hprint (k.cprint mem 20 0 (ascii " Addr: ")) 20 7 cr2
    else mem
  let mem := k.cprint mem 15 20 (ascii "eax: ")
  let mem := k.hprint mem 15 25 r.eax
  let mem := k.cprint mem 16 20 (ascii "ebx: ")
  let mem := k.hprint mem 16 25 r.ebx
  let mem := k.cprint mem 17 20 (ascii "ecx: ")
  let mem := k.hprint mem 17 25 r.ecx
  let mem := k.cprint mem 18 20 (ascii "edx: ")
  let mem := k.hprint mem 18 25 r.edx
  let mem := k.cprint mem 19 20 (ascii "edi: ")
  let mem := k.hprint mem 19 25 r.edi
  let mem := k.cprint mem 20 20 (ascii "esi: ")
  let mem := k.hprint mem 20 25 r.esi
  let mem := k.cprint mem 21 20 (ascii "ebp: ")
  let mem := k.hprint mem 21 25 r.ebp
  let mem := k.cprint mem 22 20 (ascii "esp: ")
  let mem := k.hprint mem 22 25 r.esp
  let mem := k.cprint mem 20 0 (ascii "   DS: ")
  let mem := k.hprint mem 20 7 r.ds
  let mem := k.cprint mem 21 0 (ascii "   SS: ")
  let mem := k.hprint mem 21 7 r.ss
  k.cprint mem 14 38 (ascii "Stack:")

/-- `*(uint32_t*)p`. -/
def word (mem : ℕ → UInt8) (p : UInt32) : UInt32 := UInt32.ofNat (loadLE mem p.toNat 4)

/-- A word depends on its four bytes only. -/
theorem word_congr {mem mem' : ℕ → UInt8} {p : UInt32}
    (h : ∀ j < 4, mem (p.toNat + j) = mem' (p.toNat + j)) : word mem p = word mem' p := by
  rw [word, word]
  refine congrArg UInt32.ofNat (loadLE_congr fun a hlo hhi ↦ ?_)
  obtain ⟨j, rfl⟩ := Nat.exists_eq_add_of_le hlo
  exact h j (by omega)

/-- One row of the stack: two words, twelve words apart, each behind its address. **Each is read
when it is drawn**, not before. -/
def stackRow (i : ℕ) (mem : ℕ → UInt8) : ℕ → UInt8 :=
  let p := r.esp + UInt32.ofNat (4 * i)
  let q := r.esp + UInt32.ofNat (4 * (i + 12))
  let mem := k.hprint mem (15 + i) 38 p
  let mem := k.hprint mem (15 + i) 47 (word mem p)
  let mem := k.hprint mem (15 + i) 57 q
  k.hprint mem (15 + i) 66 (word mem q)

/-- `pp[i]`. -/
def codeByte (mem : ℕ → UInt8) (i : ℕ) : UInt32 := (mem (r.eip + UInt32.ofNat i).toNat).toUInt32

/-- One byte of the code, which is also read when it is drawn. -/
def codeCell (i : ℕ) (mem : ℕ → UInt8) : ℕ → UInt8 :=
  k.hprint2 mem 24 (8 + 3 * i) (codeByte r mem i) 2

/-- `inter` up to its last loop, for a processor with this page-fault address. -/
def inter (mem : ℕ → UInt8) : ℕ → UInt8 :=
  let mem := k.overlay (k.entry mem) mem
  if r.vect = 2 then mem
  else
    let mem := interHead k r mem
    let mem := interRegs k cr2 r mem
    let mem := (List.range 12).foldl (fun mem i ↦ stackRow k r i mem) mem
    let mem := k.cprint mem 24 0 (ascii "CS:EIP:                          ")
    (List.range 10).foldl (fun mem i ↦ codeCell k r i mem) mem

end inter

/-! ### What is drawn -/

/-- One call that draws: a text, or a number in a field of `w` digits. -/
inductive Draw where
  | text (y x : ℕ) (t : List UInt8)
  | hex (y x w : ℕ) (val : UInt32)

namespace Draw

/-- The stroke that leaves the digits in the static buffer. -/
def scratch (buf : ℕ) (val : UInt32) : Stroke UInt8 :=
  ⟨buf, 1, (hexLoop val).1 ++ [0], by decide⟩

/-- The strokes of a call. A number is put together in the static buffer before it is drawn, so it
has two. -/
def strokes (buf : ℕ) : Draw → List (Stroke UInt8)
  | .text y x t => [cells y x t]
  | .hex y x w val => [scratch buf val, cells y x (hexText val w)]

/-- The text that is drawn, which is what a legible call shows at the end. -/
def shows : Draw → List UInt8
  | .text _ _ t => t
  | .hex _ _ w val => hexText val w

/-- The first cell and the number of cells: all that decides whether two calls are in each other's
way. -/
def span : Draw → ℕ × ℕ
  | .text y x t => (80 * y + x, t.length)
  | .hex y x w _ => (80 * y + x, w)

/-- The number fits into its field; a longer one would be drawn beyond it. -/
def Fits : Draw → Prop
  | .text _ _ _ => True
  | .hex _ _ w val => 1 ≤ w ∧ w ≤ 8 ∧ val.toNat < 16 ^ w

end Draw

/-- The spans have no cell in common. -/
def Apart (p q : ℕ × ℕ) : Prop := p.1 + p.2 ≤ q.1 ∨ q.1 + q.2 ≤ p.1

instance (p q : ℕ × ℕ) : Decidable (Apart p q) := inferInstanceAs (Decidable (_ ∨ _))

/-- All calls, one after the other. -/
def drawAll (buf : ℕ) (mem : ℕ → UInt8) (l : List Draw) : ℕ → UInt8 :=
  paintAll mem (l.flatMap (Draw.strokes buf))

theorem drawAll_append (buf : ℕ) (mem : ℕ → UInt8) (l l' : List Draw) :
    drawAll buf mem (l ++ l') = drawAll buf (drawAll buf mem l) l' := by
  rw [drawAll, List.flatMap_append, paintAll_append]
  rfl

theorem drawAll_text (buf : ℕ) (mem : ℕ → UInt8) (y x : ℕ) (t : List UInt8) :
    drawAll buf mem [.text y x t] = cprint mem y x t := rfl

/-- The digits fill nine bytes of the static buffer, with the NUL. -/
theorem covers_scratch {buf a : ℕ} {val : UInt32} :
    (Draw.scratch buf val).Covers a ↔ buf ≤ a ∧ a < buf + 9 := by
  have hlen : ((hexLoop val).1 ++ [0]).length = 9 := by
    rw [List.length_append, (numeral_hexLoop val).length]
    rfl
  simp only [Stroke.Covers, Draw.scratch, hlen, Nat.one_mul]
  constructor
  · rintro ⟨i, hi, rfl⟩
    exact ⟨Nat.le_add_right _ _, by omega⟩
  · rintro ⟨hlo, hhi⟩
    exact ⟨a - buf, by omega, by omega⟩

/-! ### The frames -/

namespace Frames

variable {buf : ℕ} (k k' : Frames buf)

/-- One call, with what it leaves in the frames. -/
def draw (d : Draw) (mem : ℕ → UInt8) : ℕ → UInt8 :=
  match d with
  | .text y x t => k.cprint mem y x t
  | .hex y x w val => k.hprint2 mem y x val w

/-- All calls, one after the other. -/
def drawAll (mem : ℕ → UInt8) (l : List Draw) : ℕ → UInt8 := l.foldl (fun mem d ↦ k.draw d mem) mem

/-- The memories agree off the frames: the relation between the machine and the list of what is
drawn. -/
def Same (mem mem' : ℕ → UInt8) : Prop := ∀ a, ¬k.Holds a → mem a = mem' a

variable {k k'} {mem mem' mem'' : ℕ → UInt8}

theorem Same.refl (mem : ℕ → UInt8) : k.Same mem mem := fun _ _ ↦ rfl

theorem Same.trans (h : k.Same mem mem') (h' : k.Same mem' mem'') : k.Same mem mem'' :=
  fun a ha ↦ (h a ha).trans (h' a ha)

theorem same_overlay (b mem : ℕ → UInt8) : k.Same (k.overlay b mem) mem := fun _ ha ↦ if_neg ha

/-- **A call does off the frames what it draws**, whatever it leaves in them. -/
theorem Same.draw (h : k.Same mem mem') (d : Draw) :
    k.Same (k.draw d mem) (Dwipe.drawAll buf mem' [d]) := by
  have hdraw : k.Same (k.draw d mem) (Dwipe.drawAll buf mem [d]) := by
    cases d with
    | text y x t => exact same_overlay _ _
    | hex y x w val => exact same_overlay _ _
  exact hdraw.trans fun a ha ↦ paintAll_congr_apply (h a ha)

/-- And so do all calls, whatever each of them leaves for the next. -/
theorem Same.drawAll (h : k.Same mem mem') (l : List Draw) :
    k.Same (k.drawAll mem l) (Dwipe.drawAll buf mem' l) := by
  induction l generalizing mem mem' with
  | nil => exact h
  | cons d l ih =>
    rw [← List.singleton_append, Dwipe.drawAll_append]
    exact ih (h.draw d)

/-- What the memories hold where they agree: a word that lies off the frames. -/
theorem Same.word (h : k.Same mem mem') {p : UInt32} (hp : ∀ j < 4, ¬k.Holds (p.toNat + j)) :
    Dwipe.word mem p = Dwipe.word mem' p :=
  word_congr fun j hj ↦ h _ (hp j hj)

/-- What the display shows is not in the frames. -/
theorem Same.shown (h : k.Same mem mem') {c n : ℕ} (hc : c + n ≤ 0x4000) :
    Canvas.shown 2 mem (screenAdr + 2 * c) n = Canvas.shown 2 mem' (screenAdr + 2 * c) n := by
  refine shown_congr fun i hi ↦ h _ fun ⟨hlo, hhi⟩ ↦ ?_
  rcases k.off_display with hoff | hoff <;> omega

end Frames

/-! ### The list of the calls -/

section calls

variable (cr2 : UInt32) (r : Eregs)

/-- The call that draws the type, the one place where what is drawn depends on the frame in more
than its digits. -/
def typeDraw : Draw :=
  if r.vect ≤ 19 then .text 15 7 (codes.getD r.vect.toNat []) else .hex 15 7 8 r.vect

/-- The calls of `interHead`; the first one blanks the cells. -/
def headDraws : List Draw :=
  [.text 13 0 (List.replicate 1120 0x20), .text 13 0 (ascii "Unexpected Interrupt - Halting"),
    .text 15 0 (ascii " Type: "), typeDraw r]

/-- The calls of `interRegs` before the page-fault address: the left column. -/
def leftDraws : List Draw :=
  [.text 16 0 (ascii "   PC: "), .hex 16 7 8 r.eip, .text 17 0 (ascii "   CS: "), .hex 17 7 8 r.cs,
    .text 18 0 (ascii "Eflag: "), .hex 18 7 8 r.eflag, .text 19 0 (ascii " Code: "),
    .hex 19 7 8 r.code]

/-- The calls for the page-fault address, at the place that the DS field gets later. -/
def faultDraws : List Draw :=
  if r.vect = 14 then [.text 20 0 (ascii " Addr: "), .hex 20 7 8 cr2] else []

/-- The calls of `interRegs` behind the page-fault address: the right column, and the two segments
of the left one. -/
def rightDraws : List Draw :=
  [.text 15 20 (ascii "eax: "), .hex 15 25 8 r.eax, .text 16 20 (ascii "ebx: "), .hex 16 25 8 r.ebx,
    .text 17 20 (ascii "ecx: "), .hex 17 25 8 r.ecx, .text 18 20 (ascii "edx: "),
    .hex 18 25 8 r.edx, .text 19 20 (ascii "edi: "), .hex 19 25 8 r.edi,
    .text 20 20 (ascii "esi: "), .hex 20 25 8 r.esi, .text 21 20 (ascii "ebp: "),
    .hex 21 25 8 r.ebp, .text 22 20 (ascii "esp: "), .hex 22 25 8 r.esp,
    .text 20 0 (ascii "   DS: "), .hex 20 7 8 r.ds, .text 21 0 (ascii "   SS: "), .hex 21 7 8 r.ss,
    .text 14 38 (ascii "Stack:")]

/-- The addresses in row `i` of the stack. -/
def stackPtrs (i : ℕ) : UInt32 × UInt32 :=
  (r.esp + UInt32.ofNat (4 * i), r.esp + UInt32.ofNat (4 * (i + 12)))

/-- The calls for row `i` of the stack, with the words they show. -/
def stackDraws (i : ℕ) (ws : UInt32 × UInt32) : List Draw :=
  [.hex (15 + i) 38 8 (stackPtrs r i).1, .hex (15 + i) 47 8 ws.1,
    .hex (15 + i) 57 8 (stackPtrs r i).2, .hex (15 + i) 66 8 ws.2]

/-- The label in front of the code. -/
def codeLabel : Draw := .text 24 0 (ascii "CS:EIP:                          ")

/-- The call for byte `i` of the code. -/
def codeDraw (i : ℕ) (b : UInt8) : Draw := .hex 24 (8 + 3 * i) 2 b.toUInt32

/-- The rows of the stack. -/
def rowDraws (ws : ℕ → UInt32 × UInt32) : List Draw :=
  (List.range 12).flatMap fun i ↦ stackDraws r i (ws i)

/-- The label and the bytes of the code. -/
def codeDraws (bs : ℕ → UInt8) : List Draw :=
  codeLabel :: (List.range 10).map fun i ↦ codeDraw i (bs i)

/-- **What `inter` draws behind the type**, with the words of the stack and the bytes of the code
that are shown. The page-fault address is left out. -/
def laterDraws (ws : ℕ → UInt32 × UInt32) (bs : ℕ → UInt8) : List Draw :=
  leftDraws r ++ rightDraws r ++ rowDraws r ws ++ codeDraws bs

variable {buf : ℕ} (k : Frames buf)

theorem same_interHead (mem : ℕ → UInt8) :
    k.Same (interHead k r mem) (drawAll buf mem (headDraws r)) := by
  have hhead : interHead k r mem = k.drawAll (clearScroll mem)
      [.text 13 0 (ascii "Unexpected Interrupt - Halting"), .text 15 0 (ascii " Type: "),
        typeDraw r] := by
    rw [interHead, typeDraw]
    split_ifs <;> rfl
  have hclear : clearScroll mem = drawAll buf mem [.text 13 0 (List.replicate 1120 0x20)] := by
    have hcount : 2 * 80 * 7 = 1120 := rfl
    have hplace : screenAdr + 2 * 80 * 13 = cellAdr 13 0 := rfl
    rw [clearScroll, hcount, hplace, drawAll_text, cprint]
  have hlist : headDraws r = [.text 13 0 (List.replicate 1120 0x20)] ++
      [.text 13 0 (ascii "Unexpected Interrupt - Halting"), .text 15 0 (ascii " Type: "),
        typeDraw r] := rfl
  rw [hhead, hlist, drawAll_append, ← hclear]
  exact (Frames.Same.refl _).drawAll _

/-- **The page-fault address is drawn over**: the data segment gets its place. -/
theorem drawAll_faultDraws (buf : ℕ) (mem : ℕ → UInt8) :
    drawAll buf mem (leftDraws r ++ faultDraws cr2 r ++ rightDraws r) =
      drawAll buf mem (leftDraws r ++ rightDraws r) := by
  rw [faultDraws]
  split_ifs
  · have htext (v : UInt32) : (hexText v 8).length = 8 :=
      length_hexText (by decide) (by decide) v.toNat_lt
    obtain ⟨l, hl⟩ : ∃ l, l = (leftDraws r).flatMap (Draw.strokes buf) := ⟨_, rfl⟩
    obtain ⟨l', hl'⟩ : ∃ l', l' = (rightDraws r).flatMap (Draw.strokes buf) := ⟨_, rfl⟩
    have hstrokes : drawAll buf mem (leftDraws r ++
        [.text 20 0 (ascii " Addr: "), .hex 20 7 8 cr2] ++ rightDraws r) =
        paintAll mem (l ++ cells 20 0 (ascii " Addr: ") :: Draw.scratch buf cr2 ::
          cells 20 7 (hexText cr2 8) :: l') := by
      rw [drawAll, List.flatMap_append, List.flatMap_append, ← hl, ← hl', List.append_assoc]
      rfl
    -- the label, the digits in the buffer and the digits on the display are written again
    have hlabel : cells 20 0 (ascii "   DS: ") ∈ l' := by
      simp [hl', rightDraws, Draw.strokes]
    have hscratch : Draw.scratch buf r.ds ∈ l' := by simp [hl', rightDraws, Draw.strokes]
    have hhex : cells 20 7 (hexText r.ds 8) ∈ l' := by simp [hl', rightDraws, Draw.strokes]
    have hover₁ (b : ℕ) (hb : (cells 20 0 (ascii " Addr: ")).Covers b) :
        (cells 20 0 (ascii "   DS: ")).Covers b := covers_cells_congr (by decide) hb
    have hover₂ (b : ℕ) (hb : (Draw.scratch buf cr2).Covers b) :
        (Draw.scratch buf r.ds).Covers b := by
      rw [covers_scratch] at hb ⊢
      exact hb
    have hover₃ (b : ℕ) (hb : (cells 20 7 (hexText cr2 8)).Covers b) :
        (cells 20 7 (hexText r.ds 8)).Covers b :=
      covers_cells_congr (by rw [htext, htext]) hb
    rw [hstrokes, paintAll_drop ⟨_, List.mem_cons_of_mem _ (List.mem_cons_of_mem _ hlabel), hover₁⟩,
      paintAll_drop ⟨_, List.mem_cons_of_mem _ hscratch, hover₂⟩,
      paintAll_drop ⟨_, hhex, hover₃⟩, drawAll, List.flatMap_append, hl, hl']
  · rw [List.append_nil]

theorem same_interRegs {mem mem' : ℕ → UInt8} (h : k.Same mem mem') :
    k.Same (interRegs k cr2 r mem) (drawAll buf mem' (leftDraws r ++ rightDraws r)) := by
  have hregs : interRegs k cr2 r mem =
      k.drawAll mem (leftDraws r ++ faultDraws cr2 r ++ rightDraws r) := by
    rw [interRegs, faultDraws]
    split_ifs <;> rfl
  rw [hregs, ← drawAll_faultDraws cr2 r]
  exact h.drawAll _

end calls

/-! ### Where the calls draw -/

/-- The byte is the character of a cell from row 13 to row 26, or in the static buffer. -/
def Drawn (buf a : ℕ) : Prop :=
  (∃ c, 80 * 13 ≤ c ∧ c < 80 * 27 ∧ a = screenAdr + 2 * c) ∨ buf ≤ a ∧ a < buf + 9

/-- The static buffer is not on the display, so drawing changes no digit that is still to be
drawn. -/
def BufferOff (buf : ℕ) : Prop := buf + 9 ≤ screenAdr ∨ screenAdr + 0x8000 ≤ buf

/-- The calls draw numbers that fit, and on the lower part of the display. -/
def Proper (l : List Draw) : Prop :=
  ∀ d ∈ l, d.Fits ∧ 80 * 13 ≤ d.span.1 ∧ d.span.1 + d.span.2 ≤ 80 * 27

section places

variable {buf : ℕ} {mem : ℕ → UInt8} {d : Draw} {l : List Draw} {a : ℕ}

theorem length_shows (h : d.Fits) : d.shows.length = d.span.2 := by
  cases d with
  | text y x t => rfl
  | hex y x w val => exact length_hexText h.1 h.2.1 h.2.2

/-- The places of a call: its cells on the display, or the static buffer. -/
theorem covers_strokes (hd : d.Fits) {s : Stroke UInt8} (hs : s ∈ d.strokes buf)
    (ha : s.Covers a) :
    (∃ i < d.span.2, a = screenAdr + 2 * (d.span.1 + i)) ∨ buf ≤ a ∧ a < buf + 9 := by
  have hlen := length_shows hd
  cases d with
  | text y x t =>
    rw [List.mem_singleton.1 hs, covers_cells] at ha
    exact Or.inl ha
  | hex y x w val =>
    rcases List.mem_cons.1 hs with rfl | hs
    · exact Or.inr (covers_scratch.1 ha)
    · rw [List.mem_singleton.1 hs, covers_cells] at ha
      obtain ⟨i, hi, ha⟩ := ha
      exact Or.inl ⟨i, hlen ▸ hi, ha⟩

/-- **What the calls do not touch** is as it was. -/
theorem drawAll_of_not_drawn (hl : Proper l) (ha : ¬Drawn buf a) :
    drawAll buf mem l a = mem a := by
  refine paintAll_of_off fun s hs hcov ↦ ha ?_
  obtain ⟨d, hd, hsd⟩ := List.mem_flatMap.1 hs
  obtain ⟨hfits, hlo, hhi⟩ := hl d hd
  rcases covers_strokes hfits hsd hcov with ⟨i, hi, rfl⟩ | hbuf
  · exact Or.inl ⟨d.span.1 + i, by omega, by omega, rfl⟩
  · exact Or.inr hbuf

/-- **A call is legible** at the end if the later ones stay off its cells. -/
theorem shown_drawAll {pre post : List Draw} (hbuf : BufferOff buf) (hd : d.Fits)
    (hsmall : d.span.1 + d.span.2 ≤ 0x4000) (hpost : ∀ e ∈ post, e.Fits ∧ Apart d.span e.span) :
    shown 2 (drawAll buf mem (pre ++ d :: post)) (screenAdr + 2 * d.span.1) d.span.2 = d.shows := by
  have hlen := length_shows hd
  obtain ⟨l₁, s, hs, htext, hstart, hw⟩ : ∃ l₁ s, d.strokes buf = l₁ ++ [s] ∧ s.text = d.shows ∧
      s.start = screenAdr + 2 * d.span.1 ∧ s.stride = 2 := by
    cases d with
    | text y x t => exact ⟨[], _, rfl, rfl, by simp [cells, cellAdr, Draw.span]; ring, rfl⟩
    | hex y x w val =>
      exact ⟨[_], _, rfl, rfl, by simp [cells, cellAdr, Draw.span]; ring, rfl⟩
  have hsplit : (pre ++ d :: post).flatMap (Draw.strokes buf) =
      (pre.flatMap (Draw.strokes buf) ++ l₁) ++ s :: post.flatMap (Draw.strokes buf) := by
    rw [List.flatMap_append, List.flatMap_cons, hs]
    simp
  have hoff : ∀ t ∈ post.flatMap (Draw.strokes buf), ∀ b, s.Covers b → ¬t.Covers b := by
    rintro t ht b ⟨i, hi, rfl⟩ hcov
    obtain ⟨e, he, hte⟩ := List.mem_flatMap.1 ht
    obtain ⟨hfits, hapart⟩ := hpost e he
    rw [htext, hlen] at hi
    rw [hstart, hw] at hcov
    rcases covers_strokes hfits hte hcov with ⟨j, hj, hij⟩ | ⟨hb1, hb2⟩
    · rcases hapart with h | h <;> omega
    · rcases hbuf with h | h
      · rw [screenAdr] at hb2 h
        omega
      · rw [screenAdr] at hb1 h
        omega
  have hlast :
      s.legible (paintAll mem ((pre ++ d :: post).flatMap (Draw.strokes buf))) = s.text := by
    rw [hsplit]
    exact shown_last hoff
  rw [Stroke.legible, htext, hlen, hstart, hw] at hlast
  exact hlast

/-- **A group of calls is legible**, if they stay off one another and the later ones off them. -/
theorem shown_group {pre post : List Draw} (hbuf : BufferOff buf) (hl : Proper l)
    (hpost : Proper post) (happart : (l.map Draw.span).Pairwise Apart)
    (hlater : ∀ p ∈ l.map Draw.span, ∀ q ∈ post.map Draw.span, Apart p q) (hd : d ∈ l) :
    shown 2 (drawAll buf mem (pre ++ l ++ post)) (screenAdr + 2 * d.span.1) d.span.2 =
      d.shows := by
  obtain ⟨l₁, l₂, rfl⟩ := List.append_of_mem hd
  obtain ⟨hfits, -, hhi⟩ := hl d hd
  rw [List.map_append, List.pairwise_append, List.map_cons, List.pairwise_cons] at happart
  have hsplit : pre ++ (l₁ ++ d :: l₂) ++ post = (pre ++ l₁) ++ d :: (l₂ ++ post) := by simp
  rw [hsplit]
  refine shown_drawAll hbuf hfits (by omega) fun e he ↦ ?_
  rcases List.mem_append.1 he with he | he
  · exact ⟨(hl e (by simp [he])).1, happart.2.1.1 _ (List.mem_map_of_mem he)⟩
  · exact ⟨(hpost e he).1, hlater _ (List.mem_map_of_mem hd) _ (List.mem_map_of_mem he)⟩

end places

/-! ### The whole function -/

section whole

variable {buf : ℕ} (k : Frames buf) (cr2 : UInt32) (r : Eregs)

/-- The words a row of the stack shows, when it is drawn in this memory. -/
def stackWords (i : ℕ) (mem : ℕ → UInt8) : UInt32 × UInt32 :=
  let w := word (k.drawAll mem [.hex (15 + i) 38 8 (stackPtrs r i).1]) (stackPtrs r i).1
  (w, word (k.drawAll mem [.hex (15 + i) 38 8 (stackPtrs r i).1, .hex (15 + i) 47 8 w,
    .hex (15 + i) 57 8 (stackPtrs r i).2]) (stackPtrs r i).2)

theorem stackRow_eq (i : ℕ) (mem : ℕ → UInt8) :
    stackRow k r i mem = k.drawAll mem (stackDraws r i (stackWords k r i mem)) := rfl

theorem codeCell_eq (i : ℕ) (mem : ℕ → UInt8) :
    codeCell k r i mem = k.drawAll mem [codeDraw i (mem (r.eip + UInt32.ofNat i).toNat)] := rfl

/-- **A loop of calls**: off the frames it draws what its rounds draw, in the memories they find. -/
theorem same_foldl {body : ℕ → (ℕ → UInt8) → ℕ → UInt8} {rows : ℕ → (ℕ → UInt8) → List Draw}
    (hbody : ∀ i mem, body i mem = k.drawAll mem (rows i mem)) {mem mem' : ℕ → UInt8}
    (h : k.Same mem mem') (n : ℕ) :
    k.Same ((List.range n).foldl (fun mem i ↦ body i mem) mem)
      (drawAll buf mem' ((List.range n).flatMap fun i ↦
        rows i ((List.range i).foldl (fun mem i ↦ body i mem) mem))) := by
  induction n with
  | zero => exact h
  | succ n ih =>
    rw [List.range_succ, List.foldl_append, List.flatMap_append, drawAll_append]
    simp only [List.foldl_cons, List.foldl_nil, List.flatMap_cons, List.flatMap_nil,
      List.append_nil, hbody n]
    exact ih.drawAll _

/-- The memory before row `i` of the stack, when its first word is about to be read. -/
def beforeRow (mem : ℕ → UInt8) (i : ℕ) : ℕ → UInt8 :=
  (List.range i).foldl (fun mem i ↦ stackRow k r i mem)
    (interRegs k cr2 r (interHead k r (k.overlay (k.entry mem) mem)))

/-- The memory before byte `i` of the code, when it is about to be read. -/
def beforeCode (mem : ℕ → UInt8) (i : ℕ) : ℕ → UInt8 :=
  (List.range i).foldl (fun mem i ↦ codeCell k r i mem)
    (k.drawAll (beforeRow k cr2 r mem 12) [codeLabel])

theorem beforeRow_succ (mem : ℕ → UInt8) (i : ℕ) :
    beforeRow k cr2 r mem (i + 1) = stackRow k r i (beforeRow k cr2 r mem i) := by
  rw [beforeRow, List.range_succ, List.foldl_append]
  rfl

theorem beforeCode_succ (mem : ℕ → UInt8) (i : ℕ) :
    beforeCode k cr2 r mem (i + 1) = codeCell k r i (beforeCode k cr2 r mem i) := by
  rw [beforeCode, List.range_succ, List.foldl_append]
  rfl

theorem inter_eq_beforeCode (hvect : r.vect ≠ 2) (mem : ℕ → UInt8) :
    inter k cr2 r mem = beforeCode k cr2 r mem 10 := by
  rw [inter, if_neg hvect]
  rfl

/-- The memory before the first row of the stack, off the frames. -/
theorem same_beforeRow_zero (mem : ℕ → UInt8) :
    k.Same (beforeRow k cr2 r mem 0)
      (drawAll buf mem (headDraws r ++ (leftDraws r ++ rightDraws r))) := by
  have hentry : k.Same (interHead k r (k.overlay (k.entry mem) mem))
      (drawAll buf mem (headDraws r)) :=
    (same_interHead r k _).trans fun a ha ↦ paintAll_congr_apply (Frames.same_overlay _ _ a ha)
  rw [drawAll_append]
  exact same_interRegs cr2 r k hentry

/-- The memory before row `i` of the stack, off the frames. -/
theorem same_beforeRow (mem : ℕ → UInt8) (i : ℕ) :
    k.Same (beforeRow k cr2 r mem i) (drawAll buf mem (headDraws r ++ (leftDraws r ++
      rightDraws r) ++ (List.range i).flatMap fun i ↦
        stackDraws r i (stackWords k r i (beforeRow k cr2 r mem i)))) := by
  rw [drawAll_append]
  exact same_foldl k (stackRow_eq k r) (same_beforeRow_zero k cr2 r mem) i

/-- The memory before byte `i` of the code, off the frames. -/
theorem same_beforeCode (mem : ℕ → UInt8) (i : ℕ) :
    k.Same (beforeCode k cr2 r mem i) (drawAll buf mem (headDraws r ++ (leftDraws r ++
      rightDraws r) ++ rowDraws r (fun i ↦ stackWords k r i (beforeRow k cr2 r mem i)) ++
        [codeLabel] ++ (List.range i).map fun i ↦
          codeDraw i (beforeCode k cr2 r mem i (r.eip + UInt32.ofNat i).toNat))) := by
  have hlabel := (same_beforeRow k cr2 r mem 12).drawAll [codeLabel]
  rw [← drawAll_append] at hlabel
  rw [drawAll_append, List.map_eq_flatMap]
  exact same_foldl k (codeCell_eq k r) hlabel i

/-- **What `inter` draws**, off the frames, whatever the page-fault address is: the words of the
stack and the bytes of the code are those it finds when it gets there. -/
theorem same_inter (hvect : r.vect ≠ 2) (mem : ℕ → UInt8) :
    k.Same (inter k cr2 r mem) (drawAll buf mem (headDraws r ++
      laterDraws r (fun i ↦ stackWords k r i (beforeRow k cr2 r mem i))
        fun i ↦ beforeCode k cr2 r mem i (r.eip + UInt32.ofNat i).toNat)) := by
  have hcode := same_beforeCode k cr2 r mem 10
  simp only [List.append_assoc, List.singleton_append] at hcode
  rw [inter_eq_beforeCode k cr2 r hvect, laterDraws, codeDraws]
  simp only [List.append_assoc]
  exact hcode

end whole

/-! ### The calls are proper -/

theorem fits_text (y x : ℕ) (t : List UInt8) : (Draw.text y x t).Fits := trivial

theorem fits_hex (y x : ℕ) (val : UInt32) : (Draw.hex y x 8 val).Fits :=
  ⟨by decide, by decide, val.toNat_lt⟩

theorem fits_codeDraw (i : ℕ) (b : UInt8) : (codeDraw i b).Fits := by
  refine ⟨by decide, by decide, ?_⟩
  rw [UInt8.toNat_toUInt32]
  exact b.toNat_lt

section proper

variable (r : Eregs) (ws : ℕ → UInt32 × UInt32) (bs : ℕ → UInt8)

/-- The frame of zeros, which has its calls in the same places as any other. -/
def Eregs.zero : Eregs := ⟨0, 0, 0, 0, 0, 0, 0, 0, 0, 0, 0, 0, 0, 0, 0⟩

theorem span_leftDraws : (leftDraws r).map Draw.span = (leftDraws Eregs.zero).map Draw.span := rfl

theorem span_rightDraws :
    (rightDraws r).map Draw.span = (rightDraws Eregs.zero).map Draw.span := rfl

theorem span_rowDraws : (rowDraws r ws).map Draw.span =
    (rowDraws Eregs.zero fun _ ↦ (0, 0)).map Draw.span := by
  rw [rowDraws, rowDraws, List.map_flatMap, List.map_flatMap]
  rfl

theorem span_codeDraws : (codeDraws bs).map Draw.span = (codeDraws fun _ ↦ 0).map Draw.span := rfl

theorem proper_of {l : List Draw} (hfits : ∀ d ∈ l, d.Fits)
    (hspan : ∀ p ∈ l.map Draw.span, 80 * 13 ≤ p.1 ∧ p.1 + p.2 ≤ 80 * 27) : Proper l :=
  fun d hd ↦ ⟨hfits d hd, hspan _ (List.mem_map_of_mem hd)⟩

theorem proper_leftDraws : Proper (leftDraws r) := by
  refine proper_of ?_ (by rw [span_leftDraws]; decide +kernel)
  simp only [leftDraws, List.forall_mem_cons, fits_text, fits_hex, List.not_mem_nil, false_imp_iff,
    implies_true, and_self]

theorem proper_rightDraws : Proper (rightDraws r) := by
  refine proper_of ?_ (by rw [span_rightDraws]; decide +kernel)
  simp only [rightDraws, List.forall_mem_cons, fits_text, fits_hex, List.not_mem_nil,
    false_imp_iff, implies_true, and_self]

theorem proper_rowDraws : Proper (rowDraws r ws) := by
  refine proper_of (fun d hd ↦ ?_) (by rw [span_rowDraws]; decide +kernel)
  obtain ⟨i, -, hd⟩ := List.mem_flatMap.1 hd
  have hall : ∀ d ∈ stackDraws r i (ws i), d.Fits := by
    simp only [stackDraws, List.forall_mem_cons, fits_hex, List.not_mem_nil, false_imp_iff,
      implies_true, and_self]
  exact hall d hd

theorem proper_codeDraws : Proper (codeDraws bs) := by
  refine proper_of (fun d hd ↦ ?_) (by rw [span_codeDraws]; decide +kernel)
  rcases List.mem_cons.1 hd with rfl | hd
  · exact fits_text ..
  · obtain ⟨i, -, rfl⟩ := List.mem_map.1 hd
    exact fits_codeDraw i _

theorem length_codes : ∀ i < 20, 8 ≤ (codes.getD i []).length ∧ (codes.getD i []).length ≤ 12 := by
  decide

theorem typeDraw_spec : (typeDraw r).Fits ∧ (typeDraw r).span.1 = 80 * 15 + 7 ∧
    8 ≤ (typeDraw r).span.2 ∧ (typeDraw r).span.2 ≤ 12 := by
  rw [typeDraw]
  split_ifs with h
  · have hlt : r.vect.toNat < 20 := Nat.lt_succ_of_le (UInt32.le_iff_toNat_le.1 h)
    exact ⟨trivial, rfl, length_codes _ hlt⟩
  · exact ⟨fits_hex .., rfl, Nat.le_refl 8, Nat.le_add_right 8 4⟩

theorem headDraws_eq : headDraws r = [.text 13 0 (List.replicate 1120 0x20),
    .text 13 0 (ascii "Unexpected Interrupt - Halting"), .text 15 0 (ascii " Type: ")] ++
      [typeDraw r] := rfl

theorem proper_headDraws : Proper (headDraws r) := by
  obtain ⟨hfits, hstart, -, hlen⟩ := typeDraw_spec r
  intro d hd
  rw [headDraws_eq, List.mem_append] at hd
  rcases hd with hd | hd
  · refine proper_of ?_ (by decide +kernel) d hd
    simp only [List.forall_mem_cons, fits_text, List.not_mem_nil, false_imp_iff, implies_true,
      and_self]
  · rw [List.mem_singleton.1 hd]
    exact ⟨hfits, by omega, by omega⟩

theorem Proper.append {l l' : List Draw} (h : Proper l) (h' : Proper l') : Proper (l ++ l') :=
  fun d hd ↦ (List.mem_append.1 hd).elim (h d) (h' d)

theorem proper_laterDraws : Proper (laterDraws r ws bs) :=
  (((proper_leftDraws r).append (proper_rightDraws r)).append (proper_rowDraws r ws)).append
    (proper_codeDraws bs)

end proper

end Dwipe

import Dwipe.Runtime.Inter

/-!
# What can be read off the screen of an exception

The screen of `inter` is all that is left of a program that has failed: `inter` does not return.
Three results say what a reader can make of it. The reader is `readField`, which takes a number of
hexadecimal digits off the display, and `readType`, which also knows the names of the exceptions.

* **The whole trap frame can be read off the screen** (`screen_registers`), for every frame but that
  of the vector 2, whatever memory holds, and whatever the calls leave on the stack below the frame.
  But the page-fault address can not, unless a word that is shown is one that `inter` has itself put
  on the stack: the screen is the same for each of them.
* **So can 24 words of the stack and ten bytes of the code** (`screen_dump`), as they were before
  `inter` began to draw, if they are not on the display themselves, not in the buffer of `hprint2`
  and not on the stack below the frame. The last two rows of the stack are below the 25 rows a
  display shows.
* What `int_hand` passes is shifted by two words, so the fields are not what their labels say.
  Still, **the vector, the error code and the interrupted state of the processor can be read off the
  screen** by one who knows where they are (`screen_exception`).
-/

namespace Dwipe

open Bytes Canvas

/-! ### The reader -/

/-- The number in a field of `w` digits. -/
def readField (mem : ℕ → UInt8) (y x w : ℕ) : Option UInt32 :=
  (readHex (shown 2 mem (cellAdr y x) w)).map UInt32.ofNat

/-- The vector: the exception with that name, or the number. -/
def readType (mem : ℕ → UInt8) : Option UInt32 :=
  match codes.findIdx? fun c ↦ c.take 8 = shown 2 mem (cellAdr 15 7) 8 with
  | some i => some (UInt32.ofNat i)
  | none => readField mem 15 7 8

/-- **The trap frame**, read off the screen. -/
def readRegs (mem : ℕ → UInt8) : Option Eregs := do
  let vect ← readType mem
  let eip ← readField mem 16 7 8
  let cs ← readField mem 17 7 8
  let eflag ← readField mem 18 7 8
  let code ← readField mem 19 7 8
  let ds ← readField mem 20 7 8
  let ss ← readField mem 21 7 8
  let eax ← readField mem 15 25 8
  let ebx ← readField mem 16 25 8
  let ecx ← readField mem 17 25 8
  let edx ← readField mem 18 25 8
  let edi ← readField mem 19 25 8
  let esi ← readField mem 20 25 8
  let ebp ← readField mem 21 25 8
  let esp ← readField mem 22 25 8
  return { ss, ds, esp, ebp, esi, edi, edx, ecx, ebx, eax, vect, code, eip, cs, eflag }

theorem cellAdr_eq (y x : ℕ) : cellAdr y x = screenAdr + 2 * (80 * y + x) := by
  rw [cellAdr]
  ring

/-- A number that is legible is read, with all of its digits. -/
theorem readField_of_shown {mem : ℕ → UInt8} {y x w : ℕ} {val : UInt32}
    (h : shown 2 mem (screenAdr + 2 * (Draw.hex y x w val).span.1) (Draw.hex y x w val).span.2 =
      (Draw.hex y x w val).shows) : readField mem y x w = some val := by
  have hcells : shown 2 mem (cellAdr y x) w = hexText val w := by
    rw [cellAdr_eq]
    exact h
  rw [readField, hcells, readHex_hexText, Option.map_some, UInt32.ofNat_toNat]

/-! ### The groups of calls are legible -/

section groups

variable {buf : ℕ} (hbuf : BufferOff buf) (mem : ℕ → UInt8) (r : Eregs)
  (ws : ℕ → UInt32 × UInt32) (bs : ℕ → UInt8)

include hbuf

theorem shown_leftDraws {d : Draw} (hd : d ∈ leftDraws r) :
    shown 2 (drawAll buf mem (headDraws r ++ laterDraws r ws bs)) (screenAdr + 2 * d.span.1)
      d.span.2 = d.shows := by
  have hsplit : headDraws r ++ laterDraws r ws bs =
      headDraws r ++ leftDraws r ++ (rightDraws r ++ (rowDraws r ws ++ codeDraws bs)) := by
    simp only [laterDraws, List.append_assoc]
  rw [hsplit]
  refine shown_group hbuf (proper_leftDraws r) ((proper_rightDraws r).append
    ((proper_rowDraws r ws).append (proper_codeDraws bs))) ?_ ?_ hd
  · rw [span_leftDraws]
    decide +kernel
  · rw [span_leftDraws, List.map_append, List.map_append, span_rightDraws, span_rowDraws,
      span_codeDraws]
    decide +kernel

theorem shown_rightDraws {d : Draw} (hd : d ∈ rightDraws r) :
    shown 2 (drawAll buf mem (headDraws r ++ laterDraws r ws bs)) (screenAdr + 2 * d.span.1)
      d.span.2 = d.shows := by
  have hsplit : headDraws r ++ laterDraws r ws bs =
      headDraws r ++ leftDraws r ++ rightDraws r ++ (rowDraws r ws ++ codeDraws bs) := by
    simp only [laterDraws, List.append_assoc]
  rw [hsplit]
  refine shown_group hbuf (proper_rightDraws r)
    ((proper_rowDraws r ws).append (proper_codeDraws bs)) ?_ ?_ hd
  · rw [span_rightDraws]
    decide +kernel
  · rw [span_rightDraws, List.map_append, span_rowDraws, span_codeDraws]
    decide +kernel

theorem shown_rowDraws {d : Draw} (hd : d ∈ rowDraws r ws) :
    shown 2 (drawAll buf mem (headDraws r ++ laterDraws r ws bs)) (screenAdr + 2 * d.span.1)
      d.span.2 = d.shows := by
  have hsplit : headDraws r ++ laterDraws r ws bs =
      headDraws r ++ leftDraws r ++ rightDraws r ++ rowDraws r ws ++ codeDraws bs := by
    simp only [laterDraws, List.append_assoc]
  rw [hsplit]
  refine shown_group hbuf (proper_rowDraws r ws) (proper_codeDraws bs) ?_ ?_ hd
  · rw [span_rowDraws]
    decide +kernel
  · rw [span_rowDraws, span_codeDraws]
    decide +kernel

theorem shown_codeDraw {i : ℕ} (hi : i < 10) :
    shown 2 (drawAll buf mem (headDraws r ++ laterDraws r ws bs))
      (screenAdr + 2 * (codeDraw i (bs i)).span.1) (codeDraw i (bs i)).span.2 =
        (codeDraw i (bs i)).shows := by
  have hsplit : headDraws r ++ laterDraws r ws bs =
      headDraws r ++ leftDraws r ++ rightDraws r ++ rowDraws r ws ++ [codeLabel] ++
        ((List.range 10).map fun i ↦ codeDraw i (bs i)) ++ [] := by
    simp only [laterDraws, codeDraws, List.append_assoc, List.singleton_append, List.append_nil]
  have hspan : ((List.range 10).map fun i ↦ codeDraw i (bs i)).map Draw.span =
      ((List.range 10).map fun i ↦ codeDraw i 0).map Draw.span := rfl
  have hproper : Proper ((List.range 10).map fun i ↦ codeDraw i (bs i)) := fun d hd ↦
    proper_codeDraws bs d (List.mem_cons_of_mem _ hd)
  rw [hsplit]
  refine shown_group hbuf hproper (fun d hd ↦ absurd hd List.not_mem_nil) ?_
    (fun p _ q hq ↦ absurd hq List.not_mem_nil)
    (List.mem_map.2 ⟨i, List.mem_range.2 hi, rfl⟩)
  rw [hspan]
  decide +kernel

theorem shown_typeDraw :
    shown 2 (drawAll buf mem (headDraws r ++ laterDraws r ws bs)) (cellAdr 15 7) 8 =
      (typeDraw r).shows.take 8 := by
  obtain ⟨hfits, hstart, hlo, hhi⟩ := typeDraw_spec r
  have hlater : ∀ q ∈ (laterDraws r ws bs).map Draw.span, Apart (80 * 15 + 7, 12) q := by
    rw [laterDraws, List.map_append, List.map_append, List.map_append, span_leftDraws,
      span_rightDraws, span_rowDraws, span_codeDraws]
    decide +kernel
  have hsplit : headDraws r ++ laterDraws r ws bs =
      [.text 13 0 (List.replicate 1120 0x20),
        .text 13 0 (ascii "Unexpected Interrupt - Halting"), .text 15 0 (ascii " Type: ")] ++
        typeDraw r :: laterDraws r ws bs := by
    rw [headDraws_eq, List.append_assoc, List.singleton_append]
  have hall : shown 2 (drawAll buf mem (headDraws r ++ laterDraws r ws bs))
      (screenAdr + 2 * (typeDraw r).span.1) (typeDraw r).span.2 = (typeDraw r).shows := by
    rw [hsplit]
    refine shown_drawAll hbuf hfits (by omega) fun e he ↦ ⟨(proper_laterDraws r ws bs e he).1, ?_⟩
    rw [Apart, hstart]
    exact (hlater _ (List.mem_map_of_mem he)).imp (fun h ↦ by omega) id
  rw [hstart] at hall
  rw [← hall, ← shown_take hlo]
  rfl

end groups

/-! ### The registers -/

/-- No name of an exception begins with eight hexadecimal digits. -/
theorem readHex_codes : ∀ c ∈ codes, readHex (c.take 8) = none := by decide

/-- The names differ in their first eight characters, which is what a field of eight cells shows of
them. -/
theorem findIdx?_codes :
    ∀ i < 20, codes.findIdx? (fun c ↦ c.take 8 = (codes.getD i []).take 8) = some i := by
  decide +kernel

theorem readType_eq {mem : ℕ → UInt8} {r : Eregs}
    (h : shown 2 mem (cellAdr 15 7) 8 = (typeDraw r).shows.take 8) :
    readType mem = some r.vect := by
  rw [readType, readField, h, typeDraw]
  split_ifs with hle
  · have hlt : r.vect.toNat < 20 := Nat.lt_succ_of_le (UInt32.le_iff_toNat_le.1 hle)
    rw [Draw.shows, findIdx?_codes _ hlt]
    exact congrArg some UInt32.ofNat_toNat
  · have hlen : (hexText r.vect 8).length = 8 :=
      length_hexText (by decide) (by decide) r.vect.toNat_lt
    have htake : (Draw.hex 15 7 8 r.vect).shows.take 8 = hexText r.vect 8 :=
      List.take_of_length_le (Nat.le_of_eq hlen)
    have hnone : (codes.findIdx? fun c ↦ c.take 8 = hexText r.vect 8) = none := by
      refine List.findIdx?_eq_none_iff.2 fun c hc ↦ decide_eq_false fun heq ↦ ?_
      have hread := readHex_codes c hc
      rw [heq, readHex_hexText] at hread
      exact Option.some_ne_none _ hread
    rw [htake, hnone, readHex_hexText, Option.map_some, UInt32.ofNat_toNat]

/-- Memories that agree off the frames show the same fields, -/
theorem Frames.Same.readField {buf : ℕ} {k : Frames buf} {mem mem' : ℕ → UInt8}
    (h : k.Same mem mem') {y x w : ℕ} (hcells : 80 * y + x + w ≤ 0x4000) :
    Dwipe.readField mem y x w = Dwipe.readField mem' y x w := by
  rw [Dwipe.readField, Dwipe.readField, cellAdr_eq, h.shown hcells]

/-- and the same registers, field by field. -/
theorem Frames.Same.readRegs {buf : ℕ} {k : Frames buf} {mem mem' : ℕ → UInt8}
    (h : k.Same mem mem') : Dwipe.readRegs mem = Dwipe.readRegs mem' := by
  have htype : readType mem = readType mem' := by
    rw [readType, readType, cellAdr_eq, h.shown (by decide), h.readField (by decide)]
  simp (disch := decide) only [Dwipe.readRegs, htype, h.readField]

/-- The reader reads the registers off what has been drawn. -/
theorem readRegs_drawAll {buf : ℕ} (hbuf : BufferOff buf) (mem : ℕ → UInt8) (r : Eregs)
    (ws : ℕ → UInt32 × UInt32) (bs : ℕ → UInt8) :
    readRegs (drawAll buf mem (headDraws r ++ laterDraws r ws bs)) = some r := by
  have hleft {y x : ℕ} {val : UInt32} (hd : Draw.hex y x 8 val ∈ leftDraws r) :=
    readField_of_shown (shown_leftDraws hbuf mem r ws bs hd)
  have hright {y x : ℕ} {val : UInt32} (hd : Draw.hex y x 8 val ∈ rightDraws r) :=
    readField_of_shown (shown_rightDraws hbuf mem r ws bs hd)
  have hvect := readType_eq (shown_typeDraw hbuf mem r ws bs)
  have heip := @hleft 16 7 r.eip (by simp [leftDraws])
  have hcs := @hleft 17 7 r.cs (by simp [leftDraws])
  have heflag := @hleft 18 7 r.eflag (by simp [leftDraws])
  have hcode := @hleft 19 7 r.code (by simp [leftDraws])
  have hds := @hright 20 7 r.ds (by simp [rightDraws])
  have hss := @hright 21 7 r.ss (by simp [rightDraws])
  have heax := @hright 15 25 r.eax (by simp [rightDraws])
  have hebx := @hright 16 25 r.ebx (by simp [rightDraws])
  have hecx := @hright 17 25 r.ecx (by simp [rightDraws])
  have hedx := @hright 18 25 r.edx (by simp [rightDraws])
  have hedi := @hright 19 25 r.edi (by simp [rightDraws])
  have hesi := @hright 20 25 r.esi (by simp [rightDraws])
  have hebp := @hright 21 25 r.ebp (by simp [rightDraws])
  have hesp := @hright 22 25 r.esp (by simp [rightDraws])
  simp only [readRegs, hvect, heip, hcs, heflag, hcode, hds, hss, heax, hebx, hecx, hedx, hedi,
    hesi, hebp, hesp, Option.bind_eq_bind, Option.bind_some, Option.pure_def]

/-! ### The page-fault address -/

/-- The byte belongs to one of the 24 words of the stack or the ten bytes of the code. -/
def Dumped (r : Eregs) (a : ℕ) : Prop :=
  (∃ i < 24, ∃ j < 4, a = (r.esp + UInt32.ofNat (4 * i)).toNat + j) ∨
    ∃ i < 10, a = (r.eip + UInt32.ofNat i).toNat

section fault

variable {buf : ℕ} {k k' : Frames buf} {cr2 cr2' : UInt32} {r : Eregs} {mem mem' : ℕ → UInt8}

/-- Two lists of calls that draw the same, on memories that agree off the frames. -/
theorem Frames.Same.drawAll₂ (h : k.Same mem mem') (heq : ∀ a, k'.Holds a ↔ k.Holds a)
    (l : List Draw) : k.Same (k.drawAll mem l) (k'.drawAll mem' l) := by
  have h' : k'.Same mem' mem' := Frames.Same.refl mem'
  exact (h.drawAll l).trans fun a ha ↦ ((h'.drawAll l) a fun hk ↦ ha ((heq a).1 hk)).symm

/-- **A row shows the same words** in memories that agree off the frames, if they are off them. -/
theorem stackWords_congr (h : k.Same mem mem') (heq : ∀ a, k'.Holds a ↔ k.Holds a)
    (hoff : ∀ a, Dumped r a → ¬k.Holds a) {i : ℕ} (hi : i < 12) :
    stackWords k r i mem = stackWords k' r i mem' := by
  have hfst : (stackWords k r i mem).1 = (stackWords k' r i mem').1 :=
    (h.drawAll₂ heq _).word fun j hj ↦ hoff _ (Or.inl ⟨i, by omega, j, hj, rfl⟩)
  have hsnd : (stackWords k r i mem).2 = (stackWords k' r i mem').2 := by
    simp only [stackWords] at hfst ⊢
    rw [← hfst]
    exact (h.drawAll₂ heq _).word fun j hj ↦ hoff _ (Or.inl ⟨i + 12, by omega, j, hj, rfl⟩)
  exact Prod.ext hfst hsnd

/-- **The rows are drawn in step**, whatever the page-fault address is and the calls leave. -/
theorem beforeRow_congr (heq : ∀ a, k'.Holds a ↔ k.Holds a)
    (hoff : ∀ a, Dumped r a → ¬k.Holds a) {i : ℕ} (hi : i ≤ 12) :
    k.Same (beforeRow k cr2 r mem i) (beforeRow k' cr2' r mem i) := by
  induction i with
  | zero =>
    refine (same_beforeRow_zero k cr2 r mem).trans fun a ha ↦ ?_
    exact (same_beforeRow_zero k' cr2' r mem a fun hk ↦ ha ((heq a).1 hk)).symm
  | succ i ih =>
    have hrow := ih (Nat.le_of_succ_le hi)
    rw [beforeRow_succ, beforeRow_succ, stackRow_eq, stackRow_eq,
      stackWords_congr hrow heq hoff (Nat.lt_of_succ_le hi)]
    exact hrow.drawAll₂ heq _

/-- And so are the bytes of the code. -/
theorem beforeCode_congr (heq : ∀ a, k'.Holds a ↔ k.Holds a)
    (hoff : ∀ a, Dumped r a → ¬k.Holds a) {i : ℕ} (hi : i ≤ 10) :
    k.Same (beforeCode k cr2 r mem i) (beforeCode k' cr2' r mem i) := by
  induction i with
  | zero => exact (beforeRow_congr heq hoff (Nat.le_refl 12)).drawAll₂ heq _
  | succ i ih =>
    have hbefore := ih (Nat.le_of_succ_le hi)
    have hbyte := hbefore (r.eip + UInt32.ofNat i).toNat (hoff _ (Or.inr ⟨i, by omega, rfl⟩))
    rw [beforeCode_succ, beforeCode_succ, codeCell_eq, codeCell_eq, hbyte]
    exact hbefore.drawAll₂ heq _

end fault

/-- **The registers on the screen.** For every trap frame but that of the vector 2, every memory,
every page-fault address and whatever the calls leave on the stack below the trap frame:

* the frame is read off the screen;
* if none of the words and bytes that are shown is on that part of the stack, the memory off it is
  the same for every other page-fault address, and for whatever else the calls may leave there;
* no byte has changed but characters from row 13 to row 26, nine bytes of the static buffer, and
  bytes of the stack below the trap frame. -/
theorem screen_registers (buf : ℕ) (hbuf : BufferOff buf) (k : Frames buf) (cr2 : UInt32)
    (r : Eregs) (hvect : r.vect ≠ 2) (mem : ℕ → UInt8) :
    readRegs (inter k cr2 r mem) = some r ∧
      ((∀ a, Dumped r a → ¬k.Holds a) → ∀ cr2' (k' : Frames buf), k'.lo = k.lo → k'.hi = k.hi →
        ∀ a, ¬k.Holds a → inter k' cr2' r mem a = inter k cr2 r mem a) ∧
      ∀ a, ¬Drawn buf a → ¬k.Holds a → inter k cr2 r mem a = mem a := by
  have hsame := same_inter k cr2 r hvect mem
  refine ⟨?_, fun hoff cr2' k' hlo hhi a ha ↦ ?_, fun a ha hk ↦ ?_⟩
  · rw [hsame.readRegs]
    exact readRegs_drawAll hbuf mem r _ _
  · have heq (a : ℕ) : k'.Holds a ↔ k.Holds a := by rw [Frames.Holds, Frames.Holds, hlo, hhi]
    rw [inter_eq_beforeCode k' cr2' r hvect, inter_eq_beforeCode k cr2 r hvect]
    exact (beforeCode_congr heq hoff (Nat.le_refl 10) a ha).symm
  · rw [hsame a hk]
    exact drawAll_of_not_drawn ((proper_headDraws r).append (proper_laterDraws r _ _)) ha

/-- The frames are 4 KiB below `300000h`, and each call leaves its place there. -/
def someFrames : Frames 0x200000 where
  lo := 0x2ff000
  hi := 0x300000
  entry := fun _ _ ↦ 0xaa
  left := fun y x _ _ ↦ UInt8.ofNat (80 * y + x)
  off_display := by decide
  off_buffer := by decide

/-- A page fault at `00ab1234h`, in a memory of zeros. -/
theorem screen_registers_pageFault :
    readRegs (inter someFrames 0xab1234 { Eregs.zero with vect := 14, eip := 0x101234 } fun _ ↦ 0) =
      some { Eregs.zero with vect := 14, eip := 0x101234 } :=
  (screen_registers 0x200000 (by right; decide) someFrames 0xab1234
    { Eregs.zero with vect := 14, eip := 0x101234 } (by decide) fun _ ↦ 0).1

/-! ### The stack and the code -/

/-- The four bytes of a word are not on the display, in the buffer or in the frames. -/
def WordOff {buf : ℕ} (k : Frames buf) (p : UInt32) : Prop :=
  ∀ j < 4, ¬Drawn buf (p.toNat + j) ∧ ¬k.Holds (p.toNat + j)

/-- The memories agree off the display, the buffer and the frames. -/
def Agrees {buf : ℕ} (k : Frames buf) (mem mem' : ℕ → UInt8) : Prop :=
  ∀ a, ¬Drawn buf a → ¬k.Holds a → mem' a = mem a

section dump

variable {buf : ℕ} {k : Frames buf} {mem mem' : ℕ → UInt8} {l : List Draw}

theorem Agrees.of_same (h : k.Same mem' (drawAll buf mem l)) (hl : Proper l) :
    Agrees k mem mem' :=
  fun a ha hk ↦ (h a hk).trans (drawAll_of_not_drawn hl ha)

theorem Agrees.drawAll (h : Agrees k mem mem') (hl : Proper l) :
    Agrees k mem (k.drawAll mem' l) := by
  have hsame : k.Same (k.drawAll mem' l) (Dwipe.drawAll buf mem' l) :=
    (Frames.Same.refl mem').drawAll l
  exact fun a ha hk ↦ (hsame a hk).trans ((drawAll_of_not_drawn hl ha).trans (h a ha hk))

theorem Agrees.word (h : Agrees k mem mem') {p : UInt32} (hp : WordOff k p) :
    Dwipe.word mem' p = Dwipe.word mem p :=
  word_congr fun j hj ↦ h _ (hp j hj).1 (hp j hj).2

variable {r : Eregs} {i : ℕ}

theorem proper_stackDraws (hi : i < 12) (ws : UInt32 × UInt32) : Proper (stackDraws r i ws) :=
  fun d hd ↦ proper_rowDraws r (fun _ ↦ ws) d (List.mem_flatMap.2 ⟨i, List.mem_range.2 hi, hd⟩)

/-- A row shows its first word as it is off the display. -/
theorem Agrees.stackWords_fst (h : Agrees k mem mem') (hi : i < 12)
    (hp : WordOff k (stackPtrs r i).1) :
    (stackWords k r i mem').1 = Dwipe.word mem (stackPtrs r i).1 := by
  have hproper : Proper ((stackDraws r i (0, 0)).take 1) :=
    fun d hd ↦ proper_stackDraws hi _ d (List.mem_of_mem_take hd)
  exact (h.drawAll hproper).word hp

/-- And its second one. -/
theorem Agrees.stackWords_snd (h : Agrees k mem mem') (hi : i < 12)
    (hq : WordOff k (stackPtrs r i).2) :
    (stackWords k r i mem').2 = Dwipe.word mem (stackPtrs r i).2 := by
  have hproper : Proper ((stackDraws r i ((stackWords k r i mem').1, 0)).take 3) :=
    fun d hd ↦ proper_stackDraws hi _ d (List.mem_of_mem_take hd)
  exact (h.drawAll hproper).word hq

/-- What has been drawn before a row leaves the rest of memory alone. -/
theorem agrees_beforeRow (cr2 : UInt32) (r : Eregs) (mem : ℕ → UInt8) (hi : i ≤ 12) :
    Agrees k mem (beforeRow k cr2 r mem i) := by
  refine Agrees.of_same (same_beforeRow k cr2 r mem i) ?_
  refine ((proper_headDraws r).append ((proper_leftDraws r).append (proper_rightDraws r))).append ?_
  intro d hd
  obtain ⟨n, hn, hd⟩ := List.mem_flatMap.1 hd
  exact proper_stackDraws (Nat.lt_of_lt_of_le (List.mem_range.1 hn) hi) _ d hd

/-- And so does what has been drawn before a byte of the code. -/
theorem agrees_beforeCode (cr2 : UInt32) (r : Eregs) (mem : ℕ → UInt8) (hi : i ≤ 10) :
    Agrees k mem (beforeCode k cr2 r mem i) := by
  have hregs := (proper_headDraws r).append ((proper_leftDraws r).append (proper_rightDraws r))
  have hcode := proper_codeDraws fun i ↦ beforeCode k cr2 r mem i (r.eip + UInt32.ofNat i).toNat
  refine Agrees.of_same (same_beforeCode k cr2 r mem i) ?_
  refine ((hregs.append (proper_rowDraws r _)).append fun d hd ↦ ?_).append fun d hd ↦ ?_
  · rw [List.mem_singleton.1 hd]
    exact hcode _ List.mem_cons_self
  · obtain ⟨n, hn, rfl⟩ := List.mem_map.1 hd
    have hlt : n < 10 := Nat.lt_of_lt_of_le (List.mem_range.1 hn) hi
    exact hcode _ (List.mem_cons_of_mem _ (List.mem_map.2 ⟨n, List.mem_range.2 hlt, rfl⟩))

end dump

/-- **The dump on the screen.** For every trap frame but that of the vector 2, and whatever the
calls leave on the stack below it, the screen shows the addresses of 24 words from `esp` on, twelve
in each of two columns, and each of the words, as it was before the screen was drawn, if it is not
on the display, in the static buffer or on that part of the stack; and so it is with ten bytes from
`eip` on. -/
theorem screen_dump (buf : ℕ) (hbuf : BufferOff buf) (k : Frames buf) (cr2 : UInt32) (r : Eregs)
    (hvect : r.vect ≠ 2) (mem : ℕ → UInt8) :
    (∀ n < 24, ∀ p, p = r.esp + UInt32.ofNat (4 * n) →
      readField (inter k cr2 r mem) (15 + n % 12) (if n < 12 then 38 else 57) 8 = some p ∧
      (WordOff k p →
        readField (inter k cr2 r mem) (15 + n % 12) (if n < 12 then 47 else 66) 8 =
          some (word mem p))) ∧
    ∀ i < 10, ∀ p, p = r.eip + UInt32.ofNat i → ¬Drawn buf p.toNat → ¬k.Holds p.toNat →
      readField (inter k cr2 r mem) 24 (8 + 3 * i) 2 = some (mem p.toNat).toUInt32 := by
  have hsame := same_inter k cr2 r hvect mem
  obtain ⟨ws, hws⟩ : ∃ ws, ws = fun i ↦ stackWords k r i (beforeRow k cr2 r mem i) := ⟨_, rfl⟩
  obtain ⟨bs, hbs⟩ : ∃ bs : ℕ → UInt8, bs = fun i ↦
    beforeCode k cr2 r mem i (r.eip + UInt32.ofNat i).toNat := ⟨_, rfl⟩
  rw [← hws, ← hbs] at hsame
  have hrow {i x : ℕ} {val : UInt32} (hi : i < 12) (hx : x < 80)
      (hd : Draw.hex (15 + i) x 8 val ∈ stackDraws r i (ws i)) :
      readField (inter k cr2 r mem) (15 + i) x 8 = some val := by
    rw [hsame.readField (by omega)]
    exact readField_of_shown (shown_rowDraws hbuf mem r ws bs
      (List.mem_flatMap.2 ⟨i, List.mem_range.2 hi, hd⟩))
  refine ⟨fun n hn p hp ↦ ?_, fun i hi p hp hoff hk ↦ ?_⟩
  · rcases Nat.lt_or_ge n 12 with hlt | hge
    · rw [Nat.mod_eq_of_lt hlt, if_pos hlt, if_pos hlt]
      subst hp
      refine ⟨hrow hlt (by decide) List.mem_cons_self, fun hoff ↦ ?_⟩
      have hword : (ws n).1 = word mem (stackPtrs r n).1 := by
        rw [hws]
        exact (agrees_beforeRow cr2 r mem (Nat.le_of_lt hlt)).stackWords_fst hlt hoff
      rw [hrow hlt (by decide) (List.mem_cons_of_mem _ List.mem_cons_self), hword]
      rfl
    · obtain ⟨i, rfl⟩ := Nat.exists_eq_add_of_le hge
      have hi : i < 12 := by omega
      have hmod : (12 + i) % 12 = i := by omega
      have hq : p = (stackPtrs r i).2 := by rw [hp, stackPtrs, Nat.add_comm 12 i]
      rw [hmod, if_neg (by omega), if_neg (by omega), hq]
      refine ⟨hrow hi (by decide) (by simp [stackDraws]), fun hoff ↦ ?_⟩
      have hword : (ws i).2 = word mem (stackPtrs r i).2 := by
        rw [hws]
        exact (agrees_beforeRow cr2 r mem (Nat.le_of_lt hi)).stackWords_snd hi hoff
      rw [@hrow i 66 (ws i).2 hi (by decide) (by simp [stackDraws]), hword]
  · have hbyte : bs i = mem p.toNat := by
      rw [hbs, hp]
      exact agrees_beforeCode cr2 r mem (Nat.le_of_lt hi) _ (hp ▸ hoff) (hp ▸ hk)
    rw [hsame.readField (by omega),
      readField_of_shown (shown_codeDraw hbuf mem r ws bs hi), hbyte]

/-- A general protection fault with the stack at `300000h`: the fourteenth word of the stack is in
the second row of the second column. -/
theorem screen_dump_word :
    readField (inter someFrames 0 { Eregs.zero with vect := 13, esp := 0x300000 } fun a ↦
      UInt8.ofNat (a + 1)) 16 66 8 = some 0x38373635 := by
  have hword : (0x300000 + UInt32.ofNat (4 * 13)).toNat = 0x300034 := rfl
  have hoff : WordOff someFrames (0x300000 + UInt32.ofNat (4 * 13)) := by
    rw [WordOff, hword]
    refine fun j hj ↦ ⟨?_, fun ⟨_, hhi⟩ ↦ ?_⟩
    · rintro (⟨c, hlo, hhi, heq⟩ | ⟨hlo, hhi⟩)
      · rw [screenAdr] at heq
        omega
      · omega
    · have htop : someFrames.hi = 0x300000 := rfl
      omega
  have h := ((screen_dump 0x200000 (by right; decide) someFrames 0
    { Eregs.zero with vect := 13, esp := 0x300000 } (by decide) fun a ↦ UInt8.ofNat (a + 1)).1
      13 (by decide) _ rfl).2 hoff
  exact h.trans (by decide)

/-! ### The interrupted program -/

/-- What a reader wants to know of an exception. -/
structure Interrupted where
  vector : UInt32
  code : UInt32
  eip : UInt32
  cs : UInt32
  eflags : UInt32
  regs : Reg → UInt32

/-- **Where it stands on the screen**: each of them two fields away from its label. -/
def Interrupted.ofEregs (r : Eregs) : Interrupted where
  vector := r.ebx
  code := r.eax
  eip := r.vect
  cs := r.code
  eflags := r.eip
  regs
    | .eax => r.ecx
    | .ebx => r.edx
    | .ecx => r.edi
    | .edx => r.esi
    | .esi => r.esp
    | .edi => r.ebp
    | .ebp => r.ds

/-- **The screen of an exception.** For every processor, vector and error code, unless the
interrupted instruction is at address 2: the vector, the error code, the address and the segment of
the instruction, the flags and the seven registers are read off what `inter` draws, under the labels
of other fields, whatever it and its calls leave on the stack below the trap frame. -/
theorem screen_exception (buf : ℕ) (hbuf : BufferOff buf) (f : Frames buf) (cr2 : UInt32)
    (k : Clobber) (c : Cpu) (v : Fin 20) (e : UInt32) (heip : c.eip ≠ 2) (mem : ℕ → UInt8) :
    (readRegs (inter f cr2 (handler k c v e).eregs mem)).map Interrupted.ofEregs =
      some ⟨UInt32.ofNat v, errorCode v e, c.eip, c.cs, c.eflags, c.regs⟩ := by
  obtain ⟨esp, hregs, -⟩ := handler_eq k c v e
  rw [hregs, (same_inter f cr2 _ heip mem).readRegs, readRegs_drawAll hbuf, Option.map_some]
  refine congrArg some ((Interrupted.mk.injEq ..).mpr ⟨rfl, rfl, rfl, rfl, rfl, funext fun r ↦ ?_⟩)
  cases r <;> rfl

/-- A processor that is about to fail. -/
def faulty : Cpu where
  regs := fun _ ↦ 7
  esp := 0x300000
  eip := 0x101234
  cs := 0x10
  eflags := 0x202
  mem := fun _ ↦ 0

/-- A general protection fault: its vector is read off the screen next to `ebx:`. -/
theorem screen_exception_protection :
    ∃ i, (readRegs (inter someFrames 0 (handler ⟨0, 0, 0, 0⟩ faulty 13 0x18).eregs fun _ ↦ 0)).map
      Interrupted.ofEregs = some i ∧ i.vector = 13 ∧ i.code = 0x18 ∧ i.eip = 0x101234 :=
  ⟨_, screen_exception 0x200000 (by right; decide) someFrames 0 ⟨0, 0, 0, 0⟩ faulty 13 0x18
    (by decide) fun _ ↦ 0, rfl, rfl, rfl⟩

end Dwipe

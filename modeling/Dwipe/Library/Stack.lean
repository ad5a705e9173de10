import Mathlib.Algebra.Group.Nat.Defs
import Mathlib.Data.List.Basic
import Mathlib.Logic.Function.Basic
import Mathlib.Data.Nat.Notation

/-!
# Words on a descending stack

A 32-bit memory read by words, and a stack in it that grows towards lower addresses. `Stacked mem sp
ws` says that `ws` are the words from the stack pointer on, the top first. Only these are
**specified**: what lies below the stack pointer is free, so that a word popped is forgotten.

Addresses wrap, as they do on the machine. A list shorter than `2 ^ 30` words does not meet itself,
and that is the only side condition.
-/

/-- A memory, by the address of a word. -/
abbrev Memory := UInt32 → UInt32

/-- The address `i` words above `sp`, modulo the size of the address space. -/
def wordAbove (sp : UInt32) (i : ℕ) : UInt32 := sp + UInt32.ofNat (4 * i)

theorem wordAbove_zero (sp : UInt32) : wordAbove sp 0 = sp := UInt32.add_zero sp

theorem wordAbove_add (sp : UInt32) (i j : ℕ) :
    wordAbove (wordAbove sp i) j = wordAbove sp (i + j) := by
  rw [wordAbove, wordAbove, wordAbove, UInt32.add_assoc, ← UInt32.ofNat_add, Nat.mul_add]

/-- One word up and one word down again, also across the end of the address space. -/
theorem wordAbove_sub (sp : UInt32) : wordAbove (sp - 4) 1 = sp := UInt32.sub_add_cancel sp 4

/-- Fewer than `2 ^ 30` words above `sp` there is no way back to it. -/
theorem wordAbove_ne (sp : UInt32) {i : ℕ} (hi : i + 1 < 2 ^ 30) : wordAbove sp (i + 1) ≠ sp := by
  intro h
  have hval := congrArg UInt32.toNat h
  have hsp := sp.toNat_lt
  rw [wordAbove, UInt32.toNat_add, UInt32.toNat_ofNat'] at hval
  omega

/-- The words from the stack pointer on, the top first. -/
def Stacked (mem : Memory) (sp : UInt32) (ws : List UInt32) : Prop :=
  ∀ i (hi : i < ws.length), mem (wordAbove sp i) = ws[i]

/-- Push a word: the memory and the stack pointer after it. -/
def pushWord (s : Memory × UInt32) (w : UInt32) : Memory × UInt32 :=
  (Function.update s.1 (s.2 - 4) w, s.2 - 4)

namespace Stacked

variable {mem : Memory} {sp w : UInt32} {ws : List UInt32}

/-- The word on top, which is what a pop loads. -/
theorem top (h : Stacked mem sp (w :: ws)) : mem sp = w := by
  have h0 := h 0 (by simp)
  rwa [wordAbove_zero] at h0

/-- **A push** keeps what is stacked, unless the stack fills the whole address space. -/
theorem push (h : Stacked mem sp ws) (hlen : ws.length + 1 < 2 ^ 30) (w : UInt32) :
    Stacked (Function.update mem (sp - 4) w) (sp - 4) (w :: ws) := by
  intro i hi
  cases i with
  | zero =>
    rw [wordAbove_zero]
    exact Function.update_self ..
  | succ i =>
    have hi' : i < ws.length := Nat.lt_of_succ_lt_succ hi
    have haddr : wordAbove (sp - 4) (i + 1) = wordAbove sp i := by
      rw [Nat.add_comm, ← wordAbove_add, wordAbove_sub]
    rw [Function.update_of_ne (wordAbove_ne _ (by omega)), haddr]
    exact h i hi'

/-- **Several pushes**, one after the other; the last one is on top. -/
theorem pushAll (us : List UInt32) (h : Stacked mem sp ws) (hlen : us.length + ws.length < 2 ^ 30) :
    Stacked (us.foldl pushWord (mem, sp)).1 (us.foldl pushWord (mem, sp)).2
      (us.reverse ++ ws) := by
  induction us generalizing mem sp ws with
  | nil => exact h
  | cons u us ih =>
    rw [List.length_cons] at hlen
    have hrest := ih (h.push (by omega) u) (by rw [List.length_cons]; omega)
    rw [List.reverse_cons, List.append_assoc]
    exact hrest

/-- **A pop** moves the stack pointer only. -/
theorem pop (h : Stacked mem sp (w :: ws)) : Stacked mem (sp + 4) ws := by
  intro i hi
  have haddr : wordAbove (sp + 4) i = wordAbove sp (i + 1) := by
    rw [Nat.add_comm, ← wordAbove_add]
    rfl
  rw [haddr]
  exact h (i + 1) (Nat.succ_lt_succ hi)

end Stacked

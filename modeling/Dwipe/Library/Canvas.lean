import Mathlib.Data.List.Basic
import Mathlib.Data.Nat.Notation
import Mathlib.Logic.Function.Basic

/-!
# Strokes on a memory

A **stroke** puts a text into cells that are a fixed number of places apart, one character after the
other. Strokes are laid one over the other, and **what is shown at the end is the last stroke over a
place**: a stroke is legible as long as the later ones stay off its cells (`shown_last`), a place
off all of them is as it was (`paintAll_of_off`), and a stroke under a later one of the same place
might as well not have been made (`paintAll_drop`).

The alphabet is arbitrary.
-/

namespace Canvas

variable {β : Type*}

/-- A text, the place of its first character, and the distance of its characters. -/
structure Stroke (β : Type*) where
  start : ℕ
  stride : ℕ
  text : List β
  stride_pos : 0 < stride

/-- The text is put into memory, one character after the other. -/
def put (w : ℕ) : (ℕ → β) → ℕ → List β → ℕ → β
  | mem, _, [] => mem
  | mem, a, c :: cs => put w (Function.update mem a c) (a + w) cs

/-- What `n` cells from `a` on show; between two cells lie the bytes that are no character. -/
def shown (w : ℕ) (mem : ℕ → β) (a n : ℕ) : List β := (List.range n).map fun i ↦ mem (a + w * i)

section put

variable {w : ℕ} {mem mem' : ℕ → β} {a b : ℕ} {text : List β}

/-- A place that is no cell of the text is left alone. -/
theorem put_of_ne (h : ∀ i < text.length, b ≠ a + w * i) : put w mem a text b = mem b := by
  induction text generalizing mem a with
  | nil => rfl
  | cons c cs ih =>
    have hfirst : b ≠ a := by simpa using h 0 (Nat.succ_pos _)
    rw [put, ih fun i hi ↦ ?_, Function.update_of_ne hfirst]
    have hnext := h (i + 1) (Nat.succ_lt_succ hi)
    rwa [Nat.mul_succ, Nat.add_comm (w * i), ← Nat.add_assoc] at hnext

/-- **A cell holds its character**, since cells of one text are apart from each other. -/
theorem put_cell (hw : 0 < w) {i : ℕ} (hi : i < text.length) :
    put w mem a text (a + w * i) = text[i] := by
  induction text generalizing mem a i with
  | nil => exact absurd hi (Nat.not_lt_zero i)
  | cons c cs ih =>
    cases i with
    | zero =>
      have hlater : ∀ j < cs.length, a + w * 0 ≠ a + w + w * j := fun j _ ↦ by omega
      rw [put, put_of_ne hlater]
      exact Function.update_self _ _ _
    | succ i =>
      have hplace : a + w * (i + 1) = a + w + w * i := by rw [Nat.mul_succ]; omega
      rw [put, hplace]
      exact ih (Nat.lt_of_succ_lt_succ hi)

/-- **A text is legible** where it has been put. -/
theorem shown_put (hw : 0 < w) : shown w (put w mem a text) a text.length = text := by
  apply List.ext_getElem
  · rw [shown, List.length_map, List.length_range]
  · intro i h1 h2
    simp only [shown, List.getElem_map, List.getElem_range]
    exact put_cell hw h2

theorem shown_congr {n : ℕ} (h : ∀ i < n, mem (a + w * i) = mem' (a + w * i)) :
    shown w mem a n = shown w mem' a n :=
  List.map_congr_left fun i hi ↦ h i (List.mem_range.1 hi)

/-- The first cells of a longer row, for reading a part of it. -/
theorem shown_take {n k : ℕ} (hk : k ≤ n) : shown w mem a k = (shown w mem a n).take k := by
  rw [shown, shown, ← List.map_take, List.take_range, Nat.min_eq_left hk]

end put

/-! ### One stroke -/

namespace Stroke

variable (s : Stroke β)

/-- The place is a cell of the stroke. The bytes between its cells are not covered. -/
def Covers (b : ℕ) : Prop := ∃ i < s.text.length, b = s.start + s.stride * i

/-- The memory with the stroke on it. -/
def paint (mem : ℕ → β) : ℕ → β := put s.stride mem s.start s.text

/-- The cells of the stroke, as they are now. -/
def legible (mem : ℕ → β) : List β := shown s.stride mem s.start s.text.length

variable {s}

/-- A stroke of the same shape covers the same places. -/
theorem Covers.congr {t : Stroke β} {b : ℕ} (h : s.Covers b) (hstart : s.start = t.start)
    (hstride : s.stride = t.stride) (hlen : s.text.length = t.text.length) : t.Covers b := by
  obtain ⟨i, hi, rfl⟩ := h
  exact ⟨i, hlen ▸ hi, by rw [hstart, hstride]⟩

theorem paint_of_off {mem : ℕ → β} {b : ℕ} (h : ¬s.Covers b) : s.paint mem b = mem b :=
  put_of_ne fun i hi hb ↦ h ⟨i, hi, hb⟩

/-- **A stroke decides its own cells**, whatever was there. -/
theorem paint_of_covers {b : ℕ} (h : s.Covers b) (mem mem' : ℕ → β) :
    s.paint mem b = s.paint mem' b := by
  obtain ⟨i, hi, rfl⟩ := h
  rw [paint, paint, put_cell s.stride_pos hi, put_cell s.stride_pos hi]

end Stroke

/-! ### Strokes over strokes -/

/-- The memory with all the strokes on it, the last one on top. -/
def paintAll (mem : ℕ → β) (l : List (Stroke β)) : ℕ → β := l.foldl (fun mem s ↦ s.paint mem) mem

section paintAll

variable {mem : ℕ → β} {l l' : List (Stroke β)} {s t : Stroke β} {b : ℕ}

theorem paintAll_append : paintAll mem (l ++ l') = paintAll (paintAll mem l) l' :=
  List.foldl_append

/-- **A place off all the strokes** is as it was. -/
theorem paintAll_of_off (h : ∀ s ∈ l, ¬s.Covers b) : paintAll mem l b = mem b := by
  induction l generalizing mem with
  | nil => rfl
  | cons s l ih =>
    rw [paintAll, List.foldl_cons, ← paintAll, ih fun t ht ↦ h t (List.mem_cons_of_mem s ht)]
    exact Stroke.paint_of_off (h s List.mem_cons_self)

/-- Two memories that agree at a place agree there behind any strokes. -/
theorem paintAll_congr_apply {mem' : ℕ → β} (h : mem b = mem' b) :
    paintAll mem l b = paintAll mem' l b := by
  induction l generalizing mem mem' with
  | nil => exact h
  | cons s l ih =>
    refine ih ?_
    by_cases hb : s.Covers b
    · exact Stroke.paint_of_covers hb mem mem'
    · show s.paint mem b = s.paint mem' b
      rw [Stroke.paint_of_off hb, Stroke.paint_of_off hb, h]

/-- **The last stroke over a place is legible**: what has been drawn before it does not matter, nor
what is drawn elsewhere after it. -/
theorem shown_last (h : ∀ t ∈ l', ∀ b, s.Covers b → ¬t.Covers b) :
    s.legible (paintAll mem (l ++ s :: l')) = s.text := by
  have hkept : s.legible (paintAll mem (l ++ s :: l')) = s.legible (s.paint (paintAll mem l)) := by
    refine shown_congr fun i hi ↦ ?_
    rw [paintAll_append]
    exact paintAll_of_off fun t ht ↦ h t ht _ ⟨i, hi, rfl⟩
  rw [hkept]
  exact shown_put s.stride_pos

/-- **A stroke under a later one** that covers all of its cells might as well not have been
made. -/
theorem paintAll_drop (h : ∃ t ∈ l', ∀ b, s.Covers b → t.Covers b) :
    paintAll mem (l ++ s :: l') = paintAll mem (l ++ l') := by
  obtain ⟨t, ht, hcovers⟩ := h
  obtain ⟨l₁, l₂, rfl⟩ := List.append_of_mem ht
  rw [paintAll_append, paintAll_append]
  funext b
  show paintAll (s.paint (paintAll mem l)) (l₁ ++ t :: l₂) b = _
  by_cases hb : s.Covers b
  · rw [paintAll_append, paintAll_append]
    exact paintAll_congr_apply (l := l₂) (Stroke.paint_of_covers (hcovers b hb) _ _)
  · exact paintAll_congr_apply (Stroke.paint_of_off hb)

end paintAll

end Canvas

import Mathlib.Data.List.Basic
import Mathlib.Data.Nat.Notation
import Mathlib.Tactic.Ring

/-!
# Consecutive spans, and stores written span by span

A list of spans `Tiles a l b` when each begins where the one before it ended, the first at `a`, the
last one ending at `b`. Such a list covers every point of `[a, b)` **exactly once** and no other
point (`Tiles.split`, `Tiles.not_covers`); empty spans are allowed and cover nothing.

A store is a function from points to contents. Writing a list of blocks to it leaves at each point
what the **last** block covering the point brought (`overwrite_apply`), so for a list of blocks
along a tiling it is enough to know, point by point, which blocks cover it.
-/

/-- A run of consecutive points, which may be empty. -/
structure Span where
  /-- The first point. -/
  start : ℕ
  /-- The number of points. -/
  len : ℕ
  deriving DecidableEq

namespace Span

/-- The point lies in the span. -/
def Covers (p : Span) (s : ℕ) : Prop := p.start ≤ s ∧ s < p.start + p.len

instance (p : Span) (s : ℕ) : Decidable (p.Covers s) :=
  inferInstanceAs (Decidable (p.start ≤ s ∧ s < p.start + p.len))

end Span

/-- The spans follow each other without gap or overlap, from `a` to `b`. -/
def Tiles : ℕ → List Span → ℕ → Prop
  | a, [], b => a = b
  | a, p :: l, b => p.start = a ∧ Tiles (a + p.len) l b

namespace Tiles

theorem le : ∀ {a b : ℕ} {l : List Span}, Tiles a l b → a ≤ b
  | _, _, [], h => Nat.le_of_eq h
  | _, _, _ :: _, h => Nat.le_trans (Nat.le_add_right _ _) (le h.2)

theorem append : ∀ {a b c : ℕ} {l l' : List Span}, Tiles a l b → Tiles b l' c →
    Tiles a (l ++ l') c
  | _, _, _, [], _, h, h' => by
    obtain rfl := h
    exact h'
  | _, _, _, _ :: _, _, h, h' => ⟨h.1, append h.2 h'⟩

/-- A tiling cut in two is two tilings. -/
theorem of_append : ∀ {a b : ℕ} {l l' : List Span}, Tiles a (l ++ l') b →
    ∃ c, Tiles a l c ∧ Tiles c l' b
  | a, _, [], _, h => ⟨a, rfl, h⟩
  | _, _, _ :: _, _, h => by
    obtain ⟨c, h1, h2⟩ := of_append h.2
    exact ⟨c, ⟨h.1, h1⟩, h2⟩

theorem singleton (a n : ℕ) : Tiles a [⟨a, n⟩] (a + n) := ⟨rfl, rfl⟩

/-- `k` spans of length `n`, as a loop with a fixed step makes them. -/
theorem uniform (n k : ℕ) : Tiles 0 ((List.range k).map fun i ↦ ⟨n * i, n⟩) (n * k) := by
  induction k with
  | zero => rfl
  | succ k ih =>
    rw [List.range_succ, List.map_append, Nat.mul_succ]
    exact ih.append (singleton (n * k) n)

/-- **Nothing outside is covered**, by any of the spans. -/
theorem not_covers : ∀ {a b s : ℕ} {l : List Span}, Tiles a l b → s < a ∨ b ≤ s →
    ∀ p ∈ l, ¬p.Covers s
  | _, _, _, [], _, _, p, hp => absurd hp List.not_mem_nil
  | a, b, s, q :: l, h, hs, p, hp => by
    have hle := le h.2
    rcases List.mem_cons.1 hp with rfl | hp
    · rintro ⟨h1, h2⟩
      have := h.1
      omega
    · refine not_covers h.2 ?_ p hp
      omega

/-- **Everything inside is covered exactly once**: the list falls apart at the one span that covers
the point. -/
theorem split : ∀ {a b s : ℕ} {l : List Span}, Tiles a l b → a ≤ s → s < b →
    ∃ l₁ p l₂, l = l₁ ++ p :: l₂ ∧ p.Covers s ∧ (∀ q ∈ l₁, ¬q.Covers s) ∧ ∀ q ∈ l₂, ¬q.Covers s
  | _, _, _, [], h, ha, hb => absurd h (by simp only [Tiles]; omega)
  | a, b, s, q :: l, h, ha, hb => by
    obtain ⟨hstart, htail⟩ := h
    by_cases hq : s < a + q.len
    · refine ⟨[], q, l, rfl, ⟨by omega, by omega⟩, by simp, ?_⟩
      exact not_covers htail (Or.inl hq)
    · obtain ⟨l₁, p, l₂, rfl, hp, h1, h2⟩ := split htail (by omega) hb
      refine ⟨q :: l₁, p, l₂, rfl, hp, ?_, h2⟩
      intro r hr
      rcases List.mem_cons.1 hr with rfl | hr
      · rintro ⟨-, h'⟩
        omega
      · exact h1 r hr

end Tiles

/-! ### Stores -/

section overwrite

variable {ρ β : Type*}

/-- The store after the blocks `ws`, one after the other. -/
def overwrite (covers : ρ → ℕ → Prop) [∀ w s, Decidable (covers w s)] (data : ρ → ℕ → β)
    (d : ℕ → β) (ws : List ρ) : ℕ → β :=
  ws.foldl (fun d w s ↦ if covers w s then data w s else d s) d

/-- **The last block wins**: a point has what the last block over it has left there, or what it
had. -/
theorem overwrite_apply (covers : ρ → ℕ → Prop) [∀ w s, Decidable (covers w s)]
    (data : ρ → ℕ → β) (d : ℕ → β) (ws : List ρ) (s : ℕ) :
    overwrite covers data d ws s =
      ((ws.filter fun w ↦ covers w s).getLast?.map fun w ↦ data w s).getD (d s) := by
  induction ws generalizing d with
  | nil => rfl
  | cons w ws ih =>
    have hstep : overwrite covers data d (w :: ws) =
        overwrite covers data (fun s ↦ if covers w s then data w s else d s) ws := rfl
    rw [hstep, ih]
    by_cases hw : covers w s
    · cases hlast : (ws.filter fun w ↦ covers w s).getLast? with
      | none => simp [hw, List.getLast?_cons, hlast]
      | some v => simp [hw, List.getLast?_cons, hlast]
    · simp [hw]

end overwrite

import Mathlib.Data.Nat.Notation
import Mathlib.Order.Basic

/-!
# Loops that run until a test fails

`while (c) s = f(s)` as a function of a number of tests it may make: `whileLoop c f n s` is the
state in which the test fails, or `none` if `n` tests were not enough to get there.

The one rule, `whileLoop.of_countdown`, is **total**. Its invariant is indexed by a bound on the
rounds still to come, a round lowers the bound, and so more tests than the bound are enough. It
does not say only what holds if the loop ends.
-/

/-- `while (c(s)) s = f(s)`, with at most `n` tests. -/
def whileLoop {α : Type*} (c : α → Bool) (f : α → α) : ℕ → α → Option α
  | 0, _ => none
  | n + 1, s => if c s then whileLoop c f n (f s) else some s

namespace whileLoop

variable {α : Type*} {c : α → Bool} {f : α → α}

theorem succ_of_true {s : α} (h : c s = true) (n : ℕ) :
    whileLoop c f (n + 1) s = whileLoop c f n (f s) := by
  rw [whileLoop, if_pos h]

theorem succ_of_false {s : α} (h : c s = false) (n : ℕ) :
    whileLoop c f (n + 1) s = some s := by
  rw [whileLoop, h]
  rfl

/-- **Total correctness.** `P k s` says that the loop is in state `s` with at most `k` rounds to
come. If a round takes `P (k + 1)` to `P k` and the test fails once no round is left, the loop ends
within any `n > k` tests, in a state where the invariant holds and the test fails. -/
theorem of_countdown {P : ℕ → α → Prop} (last : ∀ s, P 0 s → c s = false)
    (step : ∀ k s, P (k + 1) s → c s = true → P k (f s)) :
    ∀ {n k : ℕ} {s : α}, P k s → k < n →
      ∃ j s', whileLoop c f n s = some s' ∧ P j s' ∧ c s' = false := by
  intro n
  induction n with
  | zero =>
    intro k s _ hk
    omega
  | succ n ih =>
    intro k s hs hk
    cases hc : c s with
    | false => exact ⟨k, s, succ_of_false hc n, hs, hc⟩
    | true =>
      rw [succ_of_true hc]
      cases k with
      | zero =>
        rw [last s hs] at hc
        exact absurd hc Bool.false_ne_true
      | succ k => exact ih (step k s hs hc) (by omega)

end whileLoop

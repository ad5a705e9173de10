import Mathlib.Data.Nat.Notation
import Mathlib.Logic.Function.Iterate
import Mathlib.Order.Basic

/-!
# Waiting for a device

A device that works on its own: `advance` is what becomes of it in one unit of time. A program looks
at it now and then, and before look number `k` some `sched k` units of time pass, possibly none.
`poll` is the busy wait, with a bound on the number of looks: it goes on until the device is ready.

Two facts are all a driver needs. A property that time does not destroy holds when the wait is over
(`poll_invariant`). And **the wait ends**: if `load`, the work the device still has, goes down in
every unit of time, and time does not stop for good, some number of looks is enough, and any larger
one gives the same result (`exists_poll`). Nothing is assumed about how long a unit of work takes.
-/

namespace Polling

variable {S : Type*} {advance : S → S} {ready : S → Bool} {sched : ℕ → ℕ}

/-- Time does not stop: behind every look there is one before which some time has passed. -/
def Fair (sched : ℕ → ℕ) : Prop := ∀ k, ∃ d, 0 < sched (k + d)

/-- Every unit of time takes something off the load. -/
def Drains (advance : S → S) (load : S → ℕ) : Prop := ∀ s, load (advance s) ≤ load s - 1

/-- Look at the device until it is ready, at most `n` times, the next look being number `k`. -/
def poll (advance : S → S) (ready : S → Bool) (sched : ℕ → ℕ) : ℕ → ℕ → S → Option (ℕ × S)
  | 0, _, _ => none
  | n + 1, k, s =>
    if ready (advance^[sched k] s) then some (k + 1, advance^[sched k] s)
    else poll advance ready sched n (k + 1) (advance^[sched k] s)

/-- What time keeps, any amount of time keeps; how long a wait is does not matter to it. -/
theorem iterate_invariant {P : S → Prop} (hP : ∀ s, P s → P (advance s)) (n : ℕ) {s : S}
    (hs : P s) : P (advance^[n] s) := by
  induction n with
  | zero => exact hs
  | succ n ih =>
    rw [Function.iterate_succ_apply']
    exact hP _ ih

theorem Drains.iterate {load : S → ℕ} (h : Drains advance load) (n : ℕ) (s : S) :
    load (advance^[n] s) ≤ load s - n := by
  induction n with
  | zero => exact Nat.le_refl _
  | succ n ih =>
    rw [Function.iterate_succ_apply']
    have hstep := h (advance^[n] s)
    omega

/-- **When the wait is over**, the device is ready, and what time keeps still holds. -/
theorem poll_invariant {P : S → Prop} (hP : ∀ s, P s → P (advance s)) {n k : ℕ} {s : S} (hs : P s)
    {r : ℕ × S} (h : poll advance ready sched n k s = some r) : P r.2 ∧ ready r.2 = true := by
  induction n generalizing k s with
  | zero => exact absurd h (Option.some_ne_none r).symm
  | succ n ih =>
    have hs' := iterate_invariant hP (sched k) hs
    rw [poll] at h
    split at h
    · next hready =>
      obtain rfl := Option.some.inj h
      exact ⟨hs', hready⟩
    · exact ih hs' h

theorem poll_mono {n n' k : ℕ} {s : S} {r : ℕ × S} (h : poll advance ready sched n k s = some r)
    (hn : n ≤ n') : poll advance ready sched n' k s = some r := by
  induction n generalizing n' k s with
  | zero => exact absurd h (Option.some_ne_none r).symm
  | succ n ih =>
    obtain ⟨n', rfl⟩ : ∃ i, n' = i + 1 := ⟨n' - 1, by omega⟩
    rw [poll] at h ⊢
    split at h
    · next hready => rw [if_pos hready, h]
    · next hready =>
      rw [if_neg hready]
      exact ih h (by omega)

/-- **The wait ends**: there is a number of polls that is enough, and every larger one is. -/
theorem exists_poll {load : S → ℕ} (hdrain : Drains advance load)
    (hready : ∀ s, load s = 0 → ready s = true) (hfair : Fair sched) (k : ℕ) (s : S) :
    ∃ n r, poll advance ready sched n k s = some r := by
  -- outer induction: the load; inner induction: the looks until time passes
  obtain ⟨l, hl⟩ : ∃ l, load s ≤ l := ⟨_, Nat.le_refl _⟩
  obtain ⟨d, hd⟩ := hfair k
  induction l generalizing k s d with
  | zero =>
    have hempty := hdrain.iterate (sched k) s
    refine ⟨1, (k + 1, advance^[sched k] s), ?_⟩
    rw [poll, if_pos (hready _ (by omega))]
  | succ l ihl =>
    induction d generalizing k s with
    | zero =>
      have hless := hdrain.iterate (sched k) s
      obtain ⟨d', hd'⟩ := hfair (k + 1)
      rw [Nat.add_zero] at hd
      obtain ⟨n, r, hr⟩ := ihl (k + 1) (advance^[sched k] s) (by omega) d' hd'
      cases h : ready (advance^[sched k] s) with
      | true => exact ⟨1, (k + 1, advance^[sched k] s), by rw [poll, if_pos h]⟩
      | false =>
        refine ⟨n + 1, r, ?_⟩
        rw [poll, h, if_neg Bool.false_ne_true, hr]
    | succ d ihd =>
      have hless := hdrain.iterate (sched k) s
      have hshift : k + 1 + d = k + (d + 1) := by omega
      obtain ⟨n, r, hr⟩ :=
        ihd (k + 1) (advance^[sched k] s) (by omega) (by rw [hshift]; exact hd)
      cases h : ready (advance^[sched k] s) with
      | true => exact ⟨1, (k + 1, advance^[sched k] s), by rw [poll, if_pos h]⟩
      | false =>
        refine ⟨n + 1, r, ?_⟩
        rw [poll, h, if_neg Bool.false_ne_true, hr]

end Polling

import Mathlib.Algebra.BigOperators.Group.List.Basic
import Mathlib.Algebra.GroupWithZero.Nat

/-!
# Ledgers

A list of entries, some of which add to a credit and some of which claim a balance. The list is
*covered* if **no entry claims more than the credit in front of it**.

Nothing here knows what the entries are: the credit of an entry and the balance it claims, if it
claims one, are two functions. The rules put a covered list together from its parts.
-/

namespace Ledger

variable {ε : Type*} {credit : ε → ℕ} {claim : ε → Option ℕ} {n : ℕ} {l l' : List ε}

/-- The credit of all entries, whatever their order. -/
def total (credit : ε → ℕ) (l : List ε) : ℕ := (l.map credit).sum

/-- No entry claims more than the credit in front of it, with `n` to begin with. -/
def Covered (credit : ε → ℕ) (claim : ε → Option ℕ) (n : ℕ) (l : List ε) : Prop :=
  ∀ l₁ e l₂ d, l = l₁ ++ e :: l₂ → claim e = some d → d ≤ n + total credit l₁

@[simp] theorem total_nil : total credit [] = 0 := rfl

@[simp] theorem total_cons (e : ε) : total credit (e :: l) = credit e + total credit l := by
  simp [total]

@[simp] theorem total_append : total credit (l ++ l') = total credit l + total credit l' := by
  simp [total]

theorem total_eq_zero (h : ∀ e ∈ l, credit e = 0) : total credit l = 0 := by
  induction l with
  | nil => rfl
  | cons e l ih =>
    rw [total_cons, h e List.mem_cons_self, ih fun d hd ↦ h d (List.mem_cons_of_mem _ hd)]

theorem covered_of_no_claim (h : ∀ e ∈ l, claim e = none) : Covered credit claim n l := by
  rintro l₁ e l₂ d rfl hd
  rw [h e (List.mem_append_right _ List.mem_cons_self)] at hd
  exact absurd hd (by simp)

theorem covered_singleton {e : ε} (h : ∀ d, claim e = some d → d ≤ n) :
    Covered credit claim n [e] := by
  intro l₁ e' l₂ d hl hd
  obtain ⟨rfl, heq⟩ : l₁ = [] ∧ [e] = e' :: l₂ := by
    cases l₁ with
    | nil => exact ⟨rfl, hl⟩
    | cons b l₁ => simp at hl
  obtain rfl : e = e' := (List.cons.inj heq).1
  exact h d hd

/-- **A covered list and one that is covered by what it leaves**, the one after the other. -/
theorem Covered.append (h : Covered credit claim n l)
    (h' : Covered credit claim (n + total credit l) l') : Covered credit claim n (l ++ l') := by
  intro l₁ e l₂ d hl hd
  rcases List.append_eq_append_iff.1 hl with ⟨as, rfl, has⟩ | ⟨bs, hbs, htail⟩
  · have hle := h' as e l₂ d has hd
    rw [total_append]
    omega
  · cases bs with
    | nil =>
      -- the entry is the first one of the second list
      have hle := h' [] e l₂ d htail.symm hd
      rw [List.append_nil] at hbs
      rw [total_nil] at hle
      rw [← hbs]
      exact hle
    | cons b bs =>
      obtain ⟨rfl, -⟩ := List.cons.inj htail
      exact h l₁ e bs d hbs hd

end Ledger

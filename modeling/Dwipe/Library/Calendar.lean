import Mathlib.Algebra.BigOperators.Intervals
import Mathlib.Tactic.IntervalCases

/-!
# The Gregorian calendar

Dates by the leap-year rule, and the number of days between the first day of an epoch's year and a
date, **by definition a sum of month lengths**. `Date.next` is the following day, and the number of
days goes up by one with it.

Programs do not add up months. They shift the year so that it begins in March and the leap day comes
last; the days before a month are then `367 · m / 12` up to a constant, and the leap days up to a
year are three quotients. `Date.serial` is that closed form. It rises by the length of the month
from one month to the next, and by the length of the year from one new year to the next, so it is
the sum up to the value at the epoch (`Date.serial_eq`), whatever the epoch is.
-/

namespace Gregorian

/-! ### Dates -/

/-- The leap years, by the rule of the centuries. -/
def IsLeap (y : ℕ) : Prop := y % 4 = 0 ∧ (y % 100 ≠ 0 ∨ y % 400 = 0)

instance (y : ℕ) : Decidable (IsLeap y) := inferInstanceAs (Decidable (_ ∧ _))

/-- The days of a month; months are counted from 1. -/
def monthLength (y m : ℕ) : ℕ :=
  if m = 2 then if IsLeap y then 29 else 28
  else if m = 4 ∨ m = 6 ∨ m = 9 ∨ m = 11 then 30
  else 31

/-- **A date**: a month of the year and a day of the month. -/
structure Date where
  year : ℕ
  month : ℕ
  day : ℕ
  month_mem : 1 ≤ month ∧ month ≤ 12
  day_mem : 1 ≤ day ∧ day ≤ monthLength year month

theorem monthLength_pos (y m : ℕ) : 1 ≤ monthLength y m := by
  rw [monthLength]
  split_ifs <;> decide

theorem monthLength_le (y m : ℕ) : monthLength y m ≤ 31 := by
  rw [monthLength]
  split_ifs <;> decide

/-- **The following day**: in the month, in the next month, or in the next year. -/
def Date.next (d : Date) : Date :=
  if hday : d.day < monthLength d.year d.month then
    ⟨d.year, d.month, d.day + 1, d.month_mem, Nat.succ_pos _, hday⟩
  else if hmonth : d.month < 12 then
    ⟨d.year, d.month + 1, 1, ⟨Nat.succ_pos _, hmonth⟩, le_rfl, monthLength_pos _ _⟩
  else
    ⟨d.year + 1, 1, 1, by decide, le_rfl, monthLength_pos _ _⟩

theorem Date.year_le_next (d : Date) : d.year ≤ d.next.year := by
  rw [next]
  split_ifs
  · exact le_rfl
  · exact le_rfl
  · exact Nat.le_succ _

/-! ### Counting days -/

/-- The days of a year, as the sum of its months, so that no number of days is assumed. -/
def yearLength (y : ℕ) : ℕ := ∑ m ∈ Finset.Ico 1 13, monthLength y m

/-- December comes last, so the first of the next month is that of the next year. -/
theorem yearLength_eq (y : ℕ) :
    yearLength y = ∑ m ∈ Finset.Ico 1 12, monthLength y m + monthLength y 12 :=
  Finset.sum_Ico_succ_top (by decide) _

/-- **The days from 1 January of the epoch's year to the date**: whole years, whole months, and days
of the month. -/
def Date.dayNumber (epoch : ℕ) (d : Date) : ℕ :=
  ∑ y ∈ Finset.Ico epoch d.year, yearLength y +
    ∑ m ∈ Finset.Ico 1 d.month, monthLength d.year m + (d.day - 1)

/-- The seconds from the epoch to a time of the day. -/
def Date.seconds (epoch : ℕ) (d : Date) (hour min sec : ℕ) : ℕ :=
  ((d.dayNumber epoch * 24 + hour) * 60 + min) * 60 + sec

/-- **The following day is one day later**, which pins the numbering down up to where it begins. -/
theorem Date.dayNumber_next {epoch : ℕ} {d : Date} (h : epoch ≤ d.year) :
    d.next.dayNumber epoch = d.dayNumber epoch + 1 := by
  obtain ⟨hm, hm'⟩ := d.month_mem
  obtain ⟨hd, hd'⟩ := d.day_mem
  rw [next, dayNumber]
  split_ifs with hday hmonth
  · rw [dayNumber]
    dsimp only
    omega
  · rw [dayNumber]
    dsimp only
    rw [Finset.sum_Ico_succ_top hm]
    omega
  · have hdec : d.month = 12 := by omega
    rw [hdec] at hday hd'
    rw [dayNumber]
    dsimp only
    rw [Finset.sum_Ico_succ_top h, yearLength_eq, hdec, Finset.Ico_self, Finset.sum_empty]
    omega

theorem Date.seconds_next {epoch : ℕ} {d : Date} (h : epoch ≤ d.year) (hour min sec : ℕ) :
    d.next.seconds epoch hour min sec = d.seconds epoch hour min sec + 86400 := by
  rw [seconds, seconds, dayNumber_next h]
  omega

/-! ### The closed form -/

/-- The leap days up to and including a year. -/
def leapDays (y : ℕ) : ℕ := y / 4 - y / 100 + y / 400

theorem isLeap_iff {y : ℕ} : IsLeap y ↔ 4 ∣ y ∧ (¬100 ∣ y ∨ 400 ∣ y) := by
  rw [IsLeap, Nat.dvd_iff_mod_eq_zero, Nat.dvd_iff_mod_eq_zero, Nat.dvd_iff_mod_eq_zero]

/-- **The rule of the centuries**: each quotient goes up where its divisor divides the year. -/
theorem leapDays_succ (y : ℕ) :
    leapDays (y + 1) = leapDays y + if IsLeap (y + 1) then 1 else 0 := by
  have hle : y / 100 ≤ y / 4 := Nat.div_le_div_left (by decide) (by decide)
  have h100 : 100 ∣ y + 1 → 4 ∣ y + 1 := (by decide : 4 ∣ 100).trans
  have h400 : 400 ∣ y + 1 → 100 ∣ y + 1 := (by decide : 100 ∣ 400).trans
  rw [leapDays, leapDays, Nat.succ_div, Nat.succ_div, Nat.succ_div, if_congr isLeap_iff rfl rfl]
  -- the divisors divide each other, so there are four kinds of years
  generalize y / 4 = a, y / 100 = b, y / 400 = c at hle ⊢
  by_cases hquad : 400 ∣ y + 1
  · rw [if_pos (h100 (h400 hquad)), if_pos (h400 hquad), if_pos hquad,
      if_pos ⟨h100 (h400 hquad), Or.inr hquad⟩]
    omega
  by_cases hcent : 100 ∣ y + 1
  · rw [if_pos (h100 hcent), if_pos hcent, if_neg hquad,
      if_neg fun h ↦ h.2.elim (· hcent) hquad]
    omega
  by_cases hfour : 4 ∣ y + 1
  · rw [if_pos hfour, if_neg hcent, if_neg hquad, if_pos ⟨hfour, Or.inl hcent⟩]
    omega
  · rw [if_neg hfour, if_neg hcent, if_neg hquad, if_neg fun h ↦ hfour h.1]
    rfl

/-- The year that a month lies in when years begin in March. -/
def marchYear (y m : ℕ) : ℕ := if m ≤ 2 then y - 1 else y

/-- The number of the month when years begin in March: 1 for March, 12 for February. -/
def marchMonth (m : ℕ) : ℕ := if m ≤ 2 then m + 10 else m - 2

theorem marchYear_le (y m : ℕ) : marchYear y m ≤ y := by
  rw [marchYear]
  split
  · exact Nat.sub_le _ _
  · exact le_rfl

theorem marchMonth_le {m : ℕ} (h : m ≤ 12) : marchMonth m ≤ 12 := by
  rw [marchMonth]
  split <;> omega

/-- **The closed form**, with years that begin in March: the leap day is then the last day of its
year, and needs no case of its own. -/
def serial (y m d : ℕ) : ℕ :=
  leapDays (marchYear y m) + 367 * marchMonth m / 12 + d + marchYear y m * 365

/-- A function that rises by `f` at each step has risen by the sum. -/
theorem eq_add_sum_Ico {f g : ℕ → ℕ} {a b : ℕ} (hab : a ≤ b)
    (h : ∀ k, a ≤ k → k < b → g (k + 1) = g k + f k) : g b = g a + ∑ k ∈ Finset.Ico a b, f k := by
  induction b, hab using Nat.le_induction with
  | base => simp
  | succ b hab ih =>
    rw [h b hab (Nat.lt_succ_self b), ih fun k hk hk' ↦ h k hk (Nat.lt_succ_of_lt hk'),
      Finset.sum_Ico_succ_top hab, Nat.add_assoc]

/-- The leap day is the last day of a year that begins in March. -/
theorem serial_march {y : ℕ} (hy : 1 ≤ y) (d : ℕ) :
    serial y 3 d = serial y 2 d + monthLength y 2 := by
  obtain ⟨y, rfl⟩ := Nat.exists_eq_add_of_le' hy
  have hfeb : monthLength (y + 1) 2 = 28 + if IsLeap (y + 1) then 1 else 0 := by
    rw [monthLength, if_pos rfl]
    split_ifs <;> rfl
  have hleap := leapDays_succ y
  show leapDays (y + 1) + 367 * 1 / 12 + d + (y + 1) * 365 =
    leapDays y + 367 * 12 / 12 + d + y * 365 + _
  omega

/-- **From month to month** the closed form rises by the length of the month. -/
theorem serial_month_succ {y m : ℕ} (hy : 1 ≤ y) (hm : 1 ≤ m) (hm' : m < 12) (d : ℕ) :
    serial y (m + 1) d = serial y m d + monthLength y m := by
  rcases eq_or_ne m 2 with rfl | hne
  · exact serial_march hy d
  · -- the year is the same in both months, and only `367 · m / 12` changes
    interval_cases m <;> simp [serial, marchYear, marchMonth, monthLength] at hne ⊢ <;> omega

theorem serial_month_eq {y m : ℕ} (hy : 1 ≤ y) (hm : 1 ≤ m) (hm' : m ≤ 12) (d : ℕ) :
    serial y m d = serial y 1 d + ∑ k ∈ Finset.Ico 1 m, monthLength y k :=
  eq_add_sum_Ico (g := fun k ↦ serial y k d) hm fun _ hk hk' ↦
    serial_month_succ hy hk (hk'.trans_le hm') d

/-- **And from new year to new year** by the length of the year. -/
theorem serial_year_succ {y : ℕ} (hy : 1 ≤ y) (d : ℕ) :
    serial (y + 1) 1 d = serial y 1 d + yearLength y := by
  have hdec : serial (y + 1) 1 d = serial y 12 d + monthLength y 12 := by
    show leapDays y + 367 * 11 / 12 + d + y * 365 = leapDays y + 367 * 10 / 12 + d + y * 365 + 31
    omega
  rw [hdec, serial_month_eq hy (by decide) le_rfl, yearLength_eq, Nat.add_assoc]

/-- **The closed form counts days**, from its value at the epoch on. -/
theorem Date.serial_eq {epoch : ℕ} (hepoch : 1 ≤ epoch) {d : Date} (h : epoch ≤ d.year) :
    serial d.year d.month d.day = serial epoch 1 1 + d.dayNumber epoch := by
  obtain ⟨hm, hm'⟩ := d.month_mem
  have hday := d.day_mem.1
  have hyear : serial d.year 1 1 = serial epoch 1 1 + ∑ y ∈ Finset.Ico epoch d.year, yearLength y :=
    eq_add_sum_Ico (g := fun y ↦ serial y 1 1) h fun _ hy _ ↦ serial_year_succ (hepoch.trans hy) 1
  have hmonth := serial_month_eq (hepoch.trans h) hm hm' 1
  have hshift : serial d.year d.month d.day = serial d.year d.month 1 + (d.day - 1) := by
    rw [serial, serial]
    omega
  rw [hshift, hmonth, hyear, dayNumber, Nat.add_assoc, Nat.add_assoc, Nat.add_assoc]

end Gregorian

import Dwipe.Library.Calendar
import Dwipe.Runtime.Clock

/-!
# The date at the start

`my_mktime` is the closed form of the calendar, computed in 32-bit words. The year may be as large
as a word, and then the days alone do not fit one; but sums, differences and products of words are
those of the numbers modulo `2 ^ 32`, and the quotients are taken of the arguments, before anything
has wrapped. So the result is **the number of seconds since 1970, modulo `2 ^ 32`**, for every date
(`mktime_counts_seconds`).

The real-time clock gives the years 1970 to 2069, in which nothing wraps. The clock therefore starts
at the number of seconds itself (`getTimerBaseSec_toNat`).
-/

namespace Dwipe

open Gregorian

/-- The date, as the first three arguments of `my_mktime`. -/
structure PassedAs (d : Date) (year mon day : UInt32) : Prop where
  year : year.toNat = d.year
  mon : mon.toNat = d.month
  day : day.toNat = d.day

/-! ### The arithmetic -/

/-- The months are renumbered as in a year that begins in March. -/
theorem mktime_month {m : ℕ} (h : 1 ≤ m) (h' : m ≤ 12) :
    ((UInt32.ofNat m - 2).toInt32 ≤ 0 ↔ m ≤ 2) ∧
      (if (UInt32.ofNat m - 2).toInt32 ≤ 0 then UInt32.ofNat m - 2 + 12 else UInt32.ofNat m - 2) =
        UInt32.ofNat (marchMonth m) := by
  interval_cases m <;> decide

/-- And so are the years. -/
theorem mktime_year {y m : ℕ} (hy : 1 ≤ y) (h : 1 ≤ m) (h' : m ≤ 12) :
    (if (UInt32.ofNat m - 2).toInt32 ≤ 0 then UInt32.ofNat y - 1 else UInt32.ofNat y) =
      UInt32.ofNat (marchYear y m) := by
  rw [marchYear, if_congr (mktime_month h h').1 rfl rfl]
  split
  · rw [UInt32.ofNat_sub hy]
    rfl
  · rfl

/-- **Days modulo `2 ^ 32`**: only the quotients need their arguments not to have wrapped. -/
theorem mktime_days {y m : ℕ} (hy : y < 2 ^ 32) (hm : m ≤ 12) (d : ℕ) :
    UInt32.ofNat y / 4 - UInt32.ofNat y / 100 + UInt32.ofNat y / 400 + 367 * UInt32.ofNat m / 12 +
        UInt32.ofNat d + UInt32.ofNat y * 365 =
      UInt32.ofNat (leapDays y + 367 * m / 12 + d + y * 365) := by
  have hle : y / 100 ≤ y / 4 := Nat.div_le_div_left (by decide) (by decide)
  rw [UInt32.ofNat_add, UInt32.ofNat_add, UInt32.ofNat_add, leapDays, UInt32.ofNat_add,
    UInt32.ofNat_sub hle, UInt32.ofNat_div hy (by decide), UInt32.ofNat_div hy (by decide),
    UInt32.ofNat_div hy (by decide), UInt32.ofNat_div (by omega) (by decide), UInt32.ofNat_mul,
    UInt32.ofNat_mul]
  rfl

/-- **`my_mktime` is the closed form.** -/
theorem myMktime_eq {d : Date} (hy : 1 ≤ d.year) {year mon day : UInt32}
    (hd : PassedAs d year mon day) (hour min sec : UInt32) :
    myMktime year mon day hour min sec =
      (((UInt32.ofNat (serial d.year d.month d.day) - 719499) * 24 + hour) * 60 + min) * 60 +
        sec := by
  obtain ⟨hm, hm'⟩ := d.month_mem
  have hyear : year = UInt32.ofNat d.year := by rw [← hd.year, UInt32.ofNat_toNat]
  have hmon : mon = UInt32.ofNat d.month := by rw [← hd.mon, UInt32.ofNat_toNat]
  have hday : day = UInt32.ofNat d.day := by rw [← hd.day, UInt32.ofNat_toNat]
  have hfit : marchYear d.year d.month < 2 ^ 32 :=
    (marchYear_le _ _).trans_lt (hd.year ▸ year.toNat_lt)
  rw [serial, ← mktime_days hfit (marchMonth_le hm'), ← mktime_year hy hm hm',
    ← (mktime_month hm hm').2, hyear, hmon, hday]
  rfl

/-- The constant is the closed form of 1 January 1970. -/
theorem serial_eq_add {d : Date} (h1970 : 1970 ≤ d.year) :
    serial d.year d.month d.day = d.dayNumber 1970 + 719499 := by
  have hepoch : serial 1970 1 1 = 719499 := rfl
  rw [Date.serial_eq (by decide) h1970, hepoch, Nat.add_comm]

/-- **`my_mktime` counts seconds**, as a word. -/
theorem myMktime_ofNat {d : Date} (h1970 : 1970 ≤ d.year) {year mon day : UInt32}
    (hd : PassedAs d year mon day) (hour min sec : ℕ) :
    myMktime year mon day (UInt32.ofNat hour) (UInt32.ofNat min) (UInt32.ofNat sec) =
      UInt32.ofNat (d.seconds 1970 hour min sec) := by
  have hdays : UInt32.ofNat (serial d.year d.month d.day) - 719499 =
      UInt32.ofNat (d.dayNumber 1970) := by
    rw [serial_eq_add h1970, UInt32.ofNat_add]
    exact UInt32.add_sub_cancel _ _
  rw [myMktime_eq ((by decide : 1 ≤ 1970).trans h1970) hd, hdays, Date.seconds]
  simp only [UInt32.ofNat_add, UInt32.ofNat_mul]
  rfl

/-- **The calendar conversion.** For every date from 1970 on and every time of the day, `my_mktime`
returns the number of seconds since 1970-01-01 00:00:00, modulo `2 ^ 32`; from one day to the next
it rises by 86400. -/
theorem mktime_counts_seconds (d : Date) (h1970 : 1970 ≤ d.year) (year mon day : UInt32)
    (hd : PassedAs d year mon day) (hour min sec : UInt32) :
    (myMktime year mon day hour min sec).toNat =
        d.seconds 1970 hour.toNat min.toNat sec.toNat % 2 ^ 32 ∧
      ∀ year' mon' day', PassedAs d.next year' mon' day' →
        myMktime year' mon' day' hour min sec = myMktime year mon day hour min sec + 86400 := by
  have heq {d : Date} {year mon day : UInt32} (h : 1970 ≤ d.year) (hd : PassedAs d year mon day) :
      myMktime year mon day hour min sec =
        UInt32.ofNat (d.seconds 1970 hour.toNat min.toNat sec.toNat) := by
    rw [← myMktime_ofNat h hd, UInt32.ofNat_toNat, UInt32.ofNat_toNat, UInt32.ofNat_toNat]
  rw [heq h1970 hd]
  refine ⟨UInt32.toNat_ofNat', fun year' mon' day' hd' ↦ ?_⟩
  rw [heq (h1970.trans d.year_le_next) hd', Date.seconds_next h1970, UInt32.ofNat_add]
  rfl

/-- 29 February 2000. -/
def leapDay : Date := ⟨2000, 2, 29, by decide, by decide⟩

/-- The last second of a leap day, and of the day after it. -/
theorem mktime_counts_seconds_leap :
    (myMktime 2000 2 29 23 59 59).toNat = 951868799 ∧
      myMktime 2000 3 1 23 59 59 = myMktime 2000 2 29 23 59 59 + 86400 := by
  have h := mktime_counts_seconds leapDay (by decide) 2000 2 29 ⟨rfl, rfl, rfl⟩ 23 59 59
  exact ⟨h.1.trans (by decide), h.2 2000 3 1 ⟨rfl, rfl, rfl⟩⟩

/-! ### The real-time clock -/

/-- The record of the real-time clock holds a date and a time of the day. -/
structure RtcTime.Holds (t : RtcTime) (d : Date) (hour min sec : ℕ) : Prop where
  year : t.tmYear + 1900 = d.year
  mon : t.tmMon + 1 = d.month
  mday : t.tmMday = d.day
  hour : t.tmHour = hour
  min : t.tmMin = min
  sec : t.tmSec = sec

theorem uint32_ofInt_natCast (n : ℕ) : UInt32.ofInt n = UInt32.ofNat n := by
  have hmod : ((n : ℤ) % 2 ^ 32).toNat = n % 2 ^ 32 := by omega
  rw [UInt32.ofInt, hmod]
  exact UInt32.toNat_inj.1 (by simp)

theorem RtcTime.Holds.passedAs {t : RtcTime} {d : Date} {hour min sec : ℕ}
    (h : t.Holds d hour min sec) (hfit : d.year < 2 ^ 32) :
    PassedAs d (UInt32.ofInt t.tmYear + 1900) (UInt32.ofInt (t.tmMon + 1))
      (UInt32.ofInt t.tmMday) := by
  have hmonth := d.month_mem.2
  have hday := d.day_mem.2.trans (monthLength_le d.year d.month)
  have hyear : UInt32.ofInt t.tmYear + 1900 = UInt32.ofNat d.year := by
    rw [← uint32_ofInt_natCast, ← h.year, UInt32.ofInt_add]
    rfl
  rw [hyear, h.mon, h.mday, uint32_ofInt_natCast, uint32_ofInt_natCast]
  exact ⟨UInt32.toNat_ofNat_of_lt' hfit, UInt32.toNat_ofNat_of_lt' (hmonth.trans_lt (by decide)),
    UInt32.toNat_ofNat_of_lt' (hday.trans_lt (by decide))⟩

/-- **The clock starts at the date of the real-time clock.** The years `rtc_get_rtc_time` guesses
from two digits, 1970 to 2069, do not wrap. -/
theorem getTimerBaseSec_toNat {clk : Clock} {d : Date} {hour min sec : ℕ}
    (h : clk.globalRtcTm.Holds d hour min sec) (hyear : 1970 ≤ d.year ∧ d.year < 2070)
    (hhour : hour < 24) (hmin : min < 60) (hsec : sec < 60) :
    (getTimerBaseSec clk).toNat = d.seconds 1970 hour min sec := by
  obtain ⟨h1970, h2070⟩ := hyear
  have hbase : getTimerBaseSec clk = UInt32.ofNat (d.seconds 1970 hour min sec) := by
    rw [← myMktime_ofNat h1970 (h.passedAs (by omega)), getTimerBaseSec, h.hour, h.min, h.sec,
      uint32_ofInt_natCast, uint32_ofInt_natCast, uint32_ofInt_natCast]
  have hdays : d.dayNumber 1970 < 40000 := by
    have heq := serial_eq_add h1970
    have hmarch := marchYear_le d.year d.month
    have hmonth := marchMonth_le d.month_mem.2
    have hday := d.day_mem.2.trans (monthLength_le d.year d.month)
    rw [serial, leapDays] at heq
    omega
  rw [hbase]
  refine UInt32.toNat_ofNat_of_lt' ?_
  show d.seconds 1970 hour min sec < 2 ^ 32
  rw [Date.seconds]
  omega

end Dwipe

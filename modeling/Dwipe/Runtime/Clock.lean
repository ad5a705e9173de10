import Dwipe.Runtime.Division
import Mathlib.Data.Prod.Lex

/-!
# The clock

`do_gettimeofday` of `timer.c` and what it calls: `my_mktime` on the date the real-time clock gave
at the start, and `get_timer_offset_usec`, which turns the distance of two readings of the
time-stamp counter into microseconds.

`unsigned long` is 32 bits wide. The quotient `cur / extclock` is a 64-bit one, the milliseconds
since the start; it is multiplied by 1000 and **returned through 32 bits**. What the program reads
is therefore the elapsed time modulo `2 ^ 32` microseconds (`doGettimeofday_eq`), and the clock is
right for as long as that is the elapsed time (`runsForward_iff`).
-/

namespace Dwipe

/-! ### The date at the start -/

/-- `struct rtc_time`, as far as it is read; months count from 0, and years from 1900. -/
structure RtcTime where
  tmSec : ℤ
  tmMin : ℤ
  tmHour : ℤ
  tmMday : ℤ
  tmMon : ℤ
  tmYear : ℤ
  deriving DecidableEq

/-- `bcd2bin`: the registers of the real-time clock hold two decimal digits each, unless it says
otherwise. -/
def bcd2bin (val : UInt8) : UInt8 := (val &&& (0x0f : UInt8)) + (val >>> (4 : UInt8)) * 10

/-- The registers of the real-time clock that hold the date, and `RTC_CONTROL`. -/
inductive RtcRegister where
  | seconds
  | minutes
  | hours
  | dayOfMonth
  | month
  | year
  | control
  deriving DecidableEq

/-- `rtc_get_rtc_time`, once no update is in progress. `epoch` is 1900, so the year is not moved
before the century is guessed. -/
def rtcGetRtcTime (cmosRead : RtcRegister → UInt8) : RtcTime :=
  let binary := cmosRead .control &&& (0x04 : UInt8) ≠ 0
  let field (r : RtcRegister) : ℤ :=
    if binary then (cmosRead r).toNat else (bcd2bin (cmosRead r)).toNat
  { tmSec := field .seconds
    tmMin := field .minutes
    tmHour := field .hours
    tmMday := field .dayOfMonth
    tmMon := field .month - 1
    tmYear := if field .year ≤ 69 then field .year + 100 else field .year }

/-- `my_mktime`: seconds since 1970 of a date. The arithmetic is that of `unsigned long`. -/
def myMktime (year0 mon0 day hour min sec : UInt32) : UInt32 :=
  -- 1..12 becomes 11, 12, 1..10, so that the leap day comes last
  let early := (mon0 - 2).toInt32 ≤ 0
  let mon := if early then mon0 - 2 + 12 else mon0 - 2
  let year := if early then year0 - 1 else year0
  (((year / 4 - year / 100 + year / 400 + 367 * mon / 12 + day + year * 365 - 719499) * 24
    + hour) * 60 + min) * 60 + sec

/-! ### The time of day -/

/-- A reading of the time-stamp counter: `%eax` and `%edx` after `rdtsc`. -/
structure Tsc where
  low : UInt32
  high : UInt32
  deriving DecidableEq

/-- `cur = curh; cur <<= 32; cur += curl`. -/
def Tsc.count (t : Tsc) : UInt64 := (t.high.toUInt64 <<< 32) + t.low.toUInt64

/-- The globals of `timer.c` the time of day depends on. -/
structure Clock where
  /-- The rate of the counter, in kHz. -/
  extclock : UInt32
  /-- The counter at the start. -/
  tmBaseClk : UInt64
  globalRtcTm : RtcTime
  deriving DecidableEq

/-- The words `do_gettimeofday` stores in `tv_sec` and `tv_usec`, before they are read as signed
numbers. -/
structure TvWords where
  tvSec : UInt32
  tvUsec : UInt32
  deriving DecidableEq

/-- `get_timer_base_usec`: the real-time clock has whole seconds. -/
def getTimerBaseUsec : UInt32 := 0

/-- `get_timer_base_sec`: the date at the start, as it was read once. -/
def getTimerBaseSec (clk : Clock) : UInt32 :=
  myMktime (UInt32.ofInt clk.globalRtcTm.tmYear + 1900) (UInt32.ofInt (clk.globalRtcTm.tmMon + 1))
    (UInt32.ofInt clk.globalRtcTm.tmMday) (UInt32.ofInt clk.globalRtcTm.tmHour)
    (UInt32.ofInt clk.globalRtcTm.tmMin) (UInt32.ofInt clk.globalRtcTm.tmSec)

/-- `get_timer_offset_usec` at the reading `t`. The 64-bit product is cut to an `unsigned long` on
return. -/
def getTimerOffsetUsec (n : ℕ) (clk : Clock) (t : Tsc) : Except NoReturn UInt32 := do
  let msec ← udivdi3 n (t.count - clk.tmBaseClk) clk.extclock.toUInt64
  return (msec * 1000).toUInt32

/-- The carry loop's test: there is a second in the microseconds. -/
def TvWords.over (tv : TvWords) : Bool := 1000000 ≤ tv.tvUsec

/-- The carry loop's body: one second at a time. -/
def TvWords.carry (tv : TvWords) : TvWords := ⟨tv.tvSec + 1, tv.tvUsec - 1000000⟩

/-- `do_gettimeofday` at the reading `t`, with `n` tests for each loop on the way. -/
def doGettimeofday (n : ℕ) (clk : Clock) (t : Tsc) : Except NoReturn TvWords := do
  let offset ← getTimerOffsetUsec n clk t
  ended (whileLoop TvWords.over TvWords.carry n
    ⟨getTimerBaseSec clk, getTimerBaseUsec + offset⟩)

/-! ### What it computes -/

/-- The microseconds from the start to the reading `t`, in whole milliseconds. -/
def elapsedUsec (clk : Clock) (t : Tsc) : ℕ :=
  1000 * ((t.count.toNat - clk.tmBaseClk.toNat) / clk.extclock.toNat)

theorem elapsedUsec_mono (clk : Clock) {t₁ t₂ : Tsc} (h : t₁.count ≤ t₂.count) :
    elapsedUsec clk t₁ ≤ elapsedUsec clk t₂ :=
  Nat.mul_le_mul_left _ (Nat.div_le_div_right
    (Nat.sub_le_sub_right (UInt64.le_iff_toNat_le.1 h) _))

theorem getTimerOffsetUsec_eq {n : ℕ} (hn : 64 < n) {clk : Clock} (hclk : clk.extclock ≠ 0)
    {t : Tsc} (ht : clk.tmBaseClk ≤ t.count) :
    getTimerOffsetUsec n clk t = .ok (UInt32.ofNat (elapsedUsec clk t)) := by
  have hne : clk.extclock.toUInt64 ≠ 0 := by
    intro h0
    refine hclk (UInt32.toNat_inj.1 ?_)
    exact congrArg UInt64.toNat h0
  rw [getTimerOffsetUsec, udivdi3, udivmoddi4_eq hn _ hne]
  refine congrArg Except.ok (UInt32.toNat_inj.1 ?_)
  show (((t.count - clk.tmBaseClk) / clk.extclock.toUInt64 * 1000).toUInt32).toNat = _
  rw [UInt64.toNat_toUInt32, UInt64.toNat_mul, UInt64.toNat_div, UInt64.toNat_sub_of_le _ _ ht,
    UInt32.toNat_ofNat', elapsedUsec, UInt32.toNat_toUInt64]
  rw [Nat.mod_mod_of_dvd _ (by decide), Nat.mul_comm]
  rfl

theorem TvWords.over_eq (tv : TvWords) : tv.over = decide (1000000 ≤ tv.tvUsec.toNat) := by
  rw [TvWords.over]
  exact decide_eq_decide.2 UInt32.le_iff_toNat_le

/-- **The invariant of the carry loop** with `k` rounds to come, started from `s` seconds and `u`
microseconds. -/
structure Carrying (s u k : ℕ) (tv : TvWords) : Prop where
  le : k ≤ u / 1000000
  usec : tv.tvUsec.toNat = u - (u / 1000000 - k) * 1000000
  sec : tv.tvSec.toNat = (s + (u / 1000000 - k)) % 2 ^ 32

theorem Carrying.step {s u k : ℕ} {tv : TvWords} (h : Carrying s u (k + 1) tv) :
    Carrying s u k tv.carry := by
  have hle := h.le
  have husec := h.usec
  have hsec := h.sec
  have hover : (1000000 : UInt32) ≤ tv.tvUsec := by
    refine UInt32.le_iff_toNat_le.2 ?_
    show 1000000 ≤ tv.tvUsec.toNat
    omega
  refine ⟨by omega, ?_, ?_⟩
  · show (tv.tvUsec - 1000000).toNat = _
    rw [UInt32.toNat_sub_of_le _ _ hover, husec]
    show _ - 1000000 = _
    omega
  · show (tv.tvSec + 1).toNat = _
    rw [UInt32.toNat_add, hsec]
    show (_ % 2 ^ 32 + 1) % 2 ^ 32 = _
    omega

/-- **The carry loop ends** and splits the microseconds, whatever they are. -/
theorem carry_ends {n : ℕ} (hn : 4294 < n) (sec usec : UInt32) :
    whileLoop TvWords.over TvWords.carry n ⟨sec, usec⟩ =
      some ⟨sec + usec / 1000000, usec % 1000000⟩ := by
  have husec := usec.toNat_lt
  have hsec := sec.toNat_lt
  have hstart : Carrying sec.toNat usec.toNat (usec.toNat / 1000000) ⟨sec, usec⟩ :=
    ⟨le_rfl, by simp, by simp [Nat.mod_eq_of_lt hsec]⟩
  have hlast (tv : TvWords) (h : Carrying sec.toNat usec.toNat 0 tv) : tv.over = false := by
    have hu := h.usec
    rw [TvWords.over_eq, decide_eq_false_iff_not]
    omega
  obtain ⟨j, tv, htv, hinv, hstop⟩ :=
    whileLoop.of_countdown hlast (fun k tv h _ ↦ Carrying.step h) hstart
      (show usec.toNat / 1000000 < n by omega)
  rw [TvWords.over_eq, decide_eq_false_iff_not] at hstop
  have hu := hinv.usec
  have hs := hinv.sec
  have hle := hinv.le
  obtain rfl : j = 0 := by omega
  have hsec' : tv.tvSec = sec + usec / 1000000 := by
    rw [← UInt32.toNat_inj, hs, UInt32.toNat_add, UInt32.toNat_div]
    rfl
  have husec' : tv.tvUsec = usec % 1000000 := by
    rw [← UInt32.toNat_inj, hu, UInt32.toNat_mod]
    show _ = usec.toNat % 1000000
    omega
  rw [htv, ← hsec', ← husec']

/-- **What `do_gettimeofday` computes** once the rate is set: the start plus the elapsed
microseconds, modulo `2 ^ 32`. -/
theorem doGettimeofday_eq {n : ℕ} (hn : 4294 < n) {clk : Clock} (hclk : clk.extclock ≠ 0)
    {t : Tsc} (ht : clk.tmBaseClk ≤ t.count) :
    doGettimeofday n clk t = .ok
      ⟨getTimerBaseSec clk + UInt32.ofNat (elapsedUsec clk t) / 1000000,
        UInt32.ofNat (elapsedUsec clk t) % 1000000⟩ := by
  have hbase : getTimerBaseUsec + UInt32.ofNat (elapsedUsec clk t) =
      UInt32.ofNat (elapsedUsec clk t) := UInt32.zero_add _
  rw [doGettimeofday, getTimerOffsetUsec_eq (by omega) hclk ht]
  show ended (whileLoop TvWords.over TvWords.carry n
    ⟨getTimerBaseSec clk, getTimerBaseUsec + _⟩) = _
  rw [hbase, carry_ends hn]
  rfl

/-! ### The clock against the elapsed time -/

/-- The microseconds a pair of words stands for, the seconds read as an unsigned count. -/
def TvWords.usec (tv : TvWords) : ℕ := tv.tvSec.toNat * 1000000 + tv.tvUsec.toNat

/-- **The clock is right at a reading**: it comes back with less than a second of microseconds, at
the elapsed time after the start. -/
def ReadsRight (n : ℕ) (clk : Clock) (t : Tsc) (tv : TvWords) : Prop :=
  doGettimeofday n clk t = .ok tv ∧ tv.tvUsec.toNat < 1000000 ∧
    tv.usec = (getTimerBaseSec clk).toNat * 1000000 + elapsedUsec clk t

/-- **The clock runs forward** from one reading to another: it is right at both, and the pairs are
in the lexicographic order. -/
def RunsForward (n : ℕ) (clk : Clock) (t₁ t₂ : Tsc) : Prop :=
  ∃ tv₁ tv₂, ReadsRight n clk t₁ tv₁ ∧ ReadsRight n clk t₂ tv₂ ∧
    toLex (tv₁.tvSec.toNat, tv₁.tvUsec.toNat) ≤ toLex (tv₂.tvSec.toNat, tv₂.tvUsec.toNat)

/-- The second count at the reading `t` fits its word. -/
def SecondsFit (clk : Clock) (t : Tsc) : Prop :=
  (getTimerBaseSec clk).toNat + elapsedUsec clk t / 1000000 < 2 ^ 32

instance (clk : Clock) (t : Tsc) : Decidable (SecondsFit clk t) :=
  inferInstanceAs (Decidable (_ < _))

section right

variable {n : ℕ} {clk : Clock} {t : Tsc}

/-- **A reading is right** exactly while fewer than `2 ^ 32` microseconds have elapsed. -/
theorem readsRight_iff (hn : 4294 < n) (hclk : clk.extclock ≠ 0) (ht : clk.tmBaseClk ≤ t.count)
    (hfit : SecondsFit clk t) :
    (∃ tv, ReadsRight n clk t tv) ↔ elapsedUsec clk t < 2 ^ 32 := by
  rw [SecondsFit] at hfit
  have hsec : (getTimerBaseSec clk + UInt32.ofNat (elapsedUsec clk t) / 1000000).toNat =
      (getTimerBaseSec clk).toNat + elapsedUsec clk t % 2 ^ 32 / 1000000 := by
    rw [UInt32.toNat_add, UInt32.toNat_div, UInt32.toNat_ofNat']
    show (_ + _ % 2 ^ 32 / 1000000) % 2 ^ 32 = _
    omega
  have husec : (UInt32.ofNat (elapsedUsec clk t) % 1000000).toNat =
      elapsedUsec clk t % 2 ^ 32 % 1000000 := by
    rw [UInt32.toNat_mod, UInt32.toNat_ofNat']
    rfl
  have hrun := doGettimeofday_eq hn hclk ht
  constructor
  · rintro ⟨tv, htv, -, hval⟩
    rw [hrun] at htv
    obtain rfl := Except.ok.inj htv
    simp only [TvWords.usec, hsec, husec] at hval
    omega
  · intro hlt
    refine ⟨_, hrun, ?_, ?_⟩
    · show (UInt32.ofNat (elapsedUsec clk t) % 1000000).toNat < 1000000
      rw [husec]
      exact Nat.mod_lt _ (by omega)
    · simp only [TvWords.usec, hsec, husec]
      omega

end right

/-- Pairs with less than a second of microseconds are ordered as the times they stand for. -/
theorem toLex_le_iff {tv₁ tv₂ : TvWords} (h₁ : tv₁.tvUsec.toNat < 1000000)
    (h₂ : tv₂.tvUsec.toNat < 1000000) :
    toLex (tv₁.tvSec.toNat, tv₁.tvUsec.toNat) ≤ toLex (tv₂.tvSec.toNat, tv₂.tvUsec.toNat) ↔
      tv₁.usec ≤ tv₂.usec := by
  rw [Prod.Lex.toLex_le_toLex, TvWords.usec, TvWords.usec]
  omega

theorem runsForward_iff {n : ℕ} (hn : 4294 < n) {clk : Clock} (hclk : clk.extclock ≠ 0)
    {t₁ t₂ : Tsc} (ht₁ : clk.tmBaseClk ≤ t₁.count) (ht : t₁.count ≤ t₂.count)
    (hfit : SecondsFit clk t₂) :
    RunsForward n clk t₁ t₂ ↔ elapsedUsec clk t₂ < 2 ^ 32 := by
  have hmono := elapsedUsec_mono clk ht
  have ht₂ : clk.tmBaseClk ≤ t₂.count := UInt64.le_trans ht₁ ht
  have hfit₁ : SecondsFit clk t₁ := by
    rw [SecondsFit] at hfit ⊢
    omega
  have hright₁ := readsRight_iff hn hclk ht₁ hfit₁
  have hright₂ := readsRight_iff hn hclk ht₂ hfit
  constructor
  · rintro ⟨-, tv₂, -, htv₂, -⟩
    exact hright₂.1 ⟨tv₂, htv₂⟩
  · intro hlt
    obtain ⟨tv₁, htv₁⟩ := hright₁.2 (by omega)
    obtain ⟨tv₂, htv₂⟩ := hright₂.2 hlt
    refine ⟨tv₁, tv₂, htv₁, htv₂, (toLex_le_iff htv₁.2.1 htv₂.2.1).2 ?_⟩
    rw [htv₁.2.2, htv₂.2.2]
    omega

/-- **The clock runs forward for as long as the elapsed microseconds fit 32 bits**, and no longer:
for every start, every rate and every two readings in order, with a second count that fits. -/
theorem clock_runs_forward_iff (n : ℕ) (hn : 4294 < n) (clk : Clock) (hclk : 0 < clk.extclock)
    (t₁ t₂ : Tsc) (ht₁ : clk.tmBaseClk ≤ t₁.count) (ht : t₁.count ≤ t₂.count)
    (hfit : SecondsFit clk t₂) :
    RunsForward n clk t₁ t₂ ↔
      1000 * ((t₂.count.toNat - clk.tmBaseClk.toNat) / clk.extclock.toNat) < 2 ^ 32 :=
  runsForward_iff hn (UInt32.pos_iff_ne_zero.1 hclk) ht₁ ht hfit

/-- A counter of 1 GHz started at midnight of 1 January 2012. -/
def gigahertzClock : Clock := ⟨1000000, 0, ⟨0, 0, 0, 1, 0, 112⟩⟩

/-- The clock still runs forward up to the last millisecond it can count. -/
theorem clock_runs_forward_at : RunsForward 4295 gigahertzClock ⟨0, 0⟩ ⟨4294671296, 999⟩ :=
  (clock_runs_forward_iff 4295 (by decide) gigahertzClock (by decide) ⟨0, 0⟩ ⟨4294671296, 999⟩
    (by decide) (by decide) (by decide)).2 (by decide)

/-- **The clock runs backwards** after 71 minutes and 35 seconds: two readings a millisecond apart
are 4294 seconds apart in the wrong direction. -/
theorem clock_runs_backwards :
    doGettimeofday 4295 gigahertzClock ⟨4294671296, 999⟩ = .ok ⟨1325376000 + 4294, 967000⟩ ∧
      doGettimeofday 4295 gigahertzClock ⟨704000, 1000⟩ = .ok ⟨1325376000, 704⟩ ∧
      SecondsFit gigahertzClock ⟨704000, 1000⟩ ∧
      ¬RunsForward 4295 gigahertzClock ⟨4294671296, 999⟩ ⟨704000, 1000⟩ := by
  have hfit : SecondsFit gigahertzClock ⟨704000, 1000⟩ := by decide
  refine ⟨?_, ?_, hfit, ?_⟩
  · rw [doGettimeofday_eq (by decide) (by decide) (by decide)]
    decide
  · rw [doGettimeofday_eq (by decide) (by decide) (by decide)]
    decide
  · rw [runsForward_iff (by decide) (by decide) (by decide) (by decide) hfit]
    decide

end Dwipe

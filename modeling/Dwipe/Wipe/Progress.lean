import Dwipe.Machine.Bios

/-!
# The progress line

`reset_progress` and `update_progress` of `dwipe.c`. The 64-bit products wrap as in the source. The
clock readings are the environment's. The figures of the line are recorded in the trace, and the
display renders them from there (`Dwipe.Wipe.StatusScreen`); so is every divisor that is not a
literal. The divisor of the displayed speed is recorded too: the last of its bounds is a product of
literals that **wraps to 0**.
-/

namespace Dwipe

variable {σ : Type} (env : Env σ)

/-- `struct progress_t`: what the line of a disk is computed from. -/
structure Progress where
  totalBytes : UInt64
  doneBytes : UInt64
  tvStart : Timeval
  savedProWidth : UInt32
  reset : Bool

/-- `reset_progress`, with the time at which the disk is begun. -/
def resetProgress (totalBytes : UInt64) : Prog σ Progress := do
  let tv ← gettimeofday env
  return ⟨if totalBytes = 0 then 1 else totalBytes, 0, tv, 0, false⟩

/-- `time_diff_msec`, with the guard against 0, since the speed is computed by dividing by it. -/
def timeDiffMsec (start cur : Timeval) : UInt64 :=
  let d := UInt64.ofInt (wrapInt ((cur.tvSec - start.tvSec) * 1000
    + (cur.tvUsec - start.tvUsec).tdiv 1000))
  if d = 0 then 1 else d

/-- `line_width` of the progress bar. -/
def lineWidth : UInt64 := 80 - 30

/-- `1024`, `1024 * 1024`, …, computed in `int` and compared with a `uint64_t`. -/
def speedBound (k : ℕ) : UInt64 := UInt64.ofInt (wrapInt (1024 ^ k))

/-- The divisor of the displayed speed, which depends on its unit: bytes, kilobytes, megabytes or
gigabytes. Above the last bound the display shows a constant. -/
def speedDivisors (bps : UInt64) : List ℕ :=
  if bps < speedBound 1 then [(speedBound 1).toNat]
  else if bps < speedBound 2 then [(speedBound 2).toNat]
  else if bps < speedBound 3 then [(speedBound 3).toNat]
  else if bps < speedBound 4 then [(speedBound 4).toNat]
  else []

/-- `update_progress`. After the first time, the line is drawn only when the bar gets another width:
drawing it in each call makes it blink. -/
def updateProgress (progress : Progress) (writeBytes : UInt64) : Prog σ Progress := do
  let cur ← gettimeofday env
  let msec := timeDiffMsec progress.tvStart cur
  let sum := progress.doneBytes + writeBytes
  let done := if sum > progress.totalBytes then progress.totalBytes else sum
  TraceM.emit (.account progress.totalBytes done)
  TraceM.emit (.divide progress.totalBytes.toNat)
  let proWidth := (done * lineWidth / progress.totalBytes).toUInt32
  if progress.savedProWidth = proWidth ∧ progress.reset then
    return { progress with doneBytes := done }
  TraceM.emit (.divide progress.totalBytes.toNat)
  let percent := done * 100 / progress.totalBytes
  TraceM.emit (.divide msec.toNat)
  let bps := if done * 1000 / msec = 0 then 1 else done * 1000 / msec
  TraceM.emit (.divide bps.toNat)
  let eta := (progress.totalBytes - done) / bps
  TraceM.emitAll ((speedDivisors bps).map .divide)
  TraceM.emit (.progress
    { proWidth := proWidth
      percent := percent
      speedBps := bps
      etaHour := (eta / 3600).toUInt32
      etaMin := (eta % 3600 / 60).toUInt32
      etaSec := (eta % 3600 % 60).toUInt32 })
  return { progress with doneBytes := done, savedProWidth := proWidth, reset := true }

/-! ### What it does -/

/-- The guard against 0 the code uses for each of its computed divisors. -/
theorem guarded_ne_zero (x : UInt64) : (if x = 0 then 1 else x) ≠ 0 := by
  split
  · decide
  · next h => exact h

theorem guarded_toNat_ne_zero {x y : UInt64} (h : y = if x = 0 then 1 else x) : y.toNat ≠ 0 :=
  fun h0 ↦ guarded_ne_zero x (h ▸ UInt64.toNat_inj.1 h0)

/-- **The displayed speed is not divided by the bound that wraps to 0**: no speed is below it. -/
theorem speedDivisors_ne_zero (bps : UInt64) : ∀ d ∈ speedDivisors bps, d ≠ 0 := by
  intro d hd
  rw [speedDivisors] at hd
  split_ifs at hd with h1 h2 h3 h4
  · rw [List.mem_singleton.1 hd]
    decide
  · rw [List.mem_singleton.1 hd]
    decide
  · rw [List.mem_singleton.1 hd]
    decide
  · exact absurd h4 UInt64.not_lt_zero
  · exact absurd hd List.not_mem_nil

/-- `done_bytes` after `write_bytes` more. -/
def Progress.advanced (progress : Progress) (writeBytes : UInt64) : UInt64 :=
  let sum := progress.doneBytes + writeBytes
  if sum > progress.totalBytes then progress.totalBytes else sum

theorem Progress.advanced_le (progress : Progress) (n : UInt64) :
    progress.advanced n ≤ progress.totalBytes := by
  rw [Progress.advanced]
  split
  · exact UInt64.le_refl _
  · next h => exact UInt64.not_lt.1 h

/-- The count is exact as long as it stays below `total_bytes`. -/
theorem Progress.advanced_toNat {progress : Progress} {n : UInt64}
    (h : progress.doneBytes.toNat + n.toNat ≤ progress.totalBytes.toNat) :
    (progress.advanced n).toNat = progress.doneBytes.toNat + n.toNat := by
  have hlt := progress.totalBytes.toNat_lt
  have hsum : (progress.doneBytes + n).toNat = progress.doneBytes.toNat + n.toNat := by
    rw [UInt64.toNat_add]
    exact Nat.mod_eq_of_lt (by omega)
  have hle : ¬progress.doneBytes + n > progress.totalBytes := by
    rw [gt_iff_lt, UInt64.lt_iff_toNat_lt, hsum]
    omega
  rw [Progress.advanced, if_neg hle, hsum]

/-- The width of the bar for `done` bytes. -/
def Progress.width (progress : Progress) (done : UInt64) : UInt32 :=
  (done * lineWidth / progress.totalBytes).toUInt32

/-- The line for `done` bytes at a speed of `bps`. -/
def Progress.line (progress : Progress) (done bps : UInt64) : ProgressLine :=
  let eta := (progress.totalBytes - done) / bps
  { proWidth := progress.width done
    percent := done * 100 / progress.totalBytes
    speedBps := bps
    etaHour := (eta / 3600).toUInt32
    etaMin := (eta % 3600 / 60).toUInt32
    etaSec := (eta % 3600 % 60).toUInt32 }

/-- **What `update_progress` does**: it counts the bytes, evaluates divisions, none of them by zero
unless `total_bytes` is 0, and may draw the line. -/
structure Updated (progress : Progress) (n : UInt64) (m : Machine σ)
    (t : Traced (Machine σ) Event Progress) : Prop where
  state : t.state = { m with ticks := m.ticks + 1 }
  total : t.val.totalBytes = progress.totalBytes
  done : t.val.doneBytes = progress.advanced n
  width : t.val.savedProWidth = progress.width (progress.advanced n)
  events : ∃ (ds : List ℕ) (lines : List ProgressLine),
    t.events = .account progress.totalBytes (progress.advanced n) ::
      (ds.map .divide ++ lines.map .progress) ∧
    (progress.totalBytes ≠ 0 → ∀ d ∈ ds, d ≠ 0) ∧
    ∀ line ∈ lines, line.proWidth = progress.width (progress.advanced n) ∧
      line.percent = progress.advanced n * 100 / progress.totalBytes

theorem updateProgress_updated (progress : Progress) (n : UInt64) (m : Machine σ) :
    Updated progress n m (updateProgress env progress n m) := by
  have htotal (h : progress.totalBytes ≠ 0) : progress.totalBytes.toNat ≠ 0 := fun h0 ↦
    h (UInt64.toNat_inj.1 h0)
  obtain ⟨msec, hmsec⟩ : ∃ msec, msec = timeDiffMsec progress.tvStart (env.clock m.ticks) :=
    ⟨_, rfl⟩
  have hmsec' : msec.toNat ≠ 0 := guarded_toNat_ne_zero hmsec
  obtain ⟨bps, hbps⟩ : ∃ bps, bps = (if progress.advanced n * 1000 / msec = 0 then 1
    else progress.advanced n * 1000 / msec) := ⟨_, rfl⟩
  have hbps' : bps.toNat ≠ 0 := guarded_toNat_ne_zero hbps
  by_cases hsame : progress.savedProWidth = progress.width (progress.advanced n) ∧ progress.reset
  · have hrun : updateProgress env progress n m =
        ⟨{ progress with doneBytes := progress.advanced n }, { m with ticks := m.ticks + 1 },
          [.account progress.totalBytes (progress.advanced n),
            .divide progress.totalBytes.toNat]⟩ := by
      simp only [Progress.width, Progress.advanced] at hsame
      simp only [updateProgress, TraceM.run_bind, if_pos hsame]
      rfl
    rw [hrun]
    refine ⟨rfl, rfl, rfl, hsame.1, [progress.totalBytes.toNat], [], rfl, ?_, ?_⟩
    · simpa using htotal
    · exact fun _ h ↦ absurd h List.not_mem_nil
  · have hrun : updateProgress env progress n m =
        ⟨{ progress with
            doneBytes := progress.advanced n
            savedProWidth := progress.width (progress.advanced n)
            reset := true },
          { m with ticks := m.ticks + 1 },
          .account progress.totalBytes (progress.advanced n) ::
            (([progress.totalBytes.toNat, progress.totalBytes.toNat, msec.toNat, bps.toNat] ++
              speedDivisors bps).map .divide ++
              [progress.line (progress.advanced n) bps].map .progress)⟩ := by
      simp only [Progress.width, Progress.advanced] at hsame
      simp only [updateProgress, TraceM.run_bind, if_neg hsame]
      subst hbps hmsec
      rfl
    rw [hrun]
    refine ⟨rfl, rfl, rfl, rfl, _, _, rfl, fun h0 d hd ↦ ?_, fun line hline ↦ ?_⟩
    · rw [List.mem_append] at hd
      rcases hd with hd | hd
      · simp only [List.mem_cons, List.not_mem_nil, or_false] at hd
        rcases hd with rfl | rfl | rfl | rfl
        · exact htotal h0
        · exact htotal h0
        · exact hmsec'
        · exact hbps'
      · exact speedDivisors_ne_zero bps d hd
    · rw [List.mem_singleton.1 hline]
      exact ⟨rfl, rfl⟩

end Dwipe

import Dwipe.Wipe.Accounts
import Dwipe.Wipe.Runs

/-!
# The progress of a wipe

Two results about the progress record, put together in `progress_invariant`.

For every sequence of updates, whatever they are told was written, `done_bytes` stays at most
`total_bytes`. The products `done_bytes * 50` and `done_bytes * 100` may wrap, but a wrapped product
is **smaller** than the true one, so the bar still has at most 50 columns and the percentage is at
most 100.

In a run of `wipe_disk` the count is also right: it is never ahead of the bytes issued so far, and a
run that leaves the wipe loop and the remainder without a failed call has `done_bytes` at
`total_bytes`.
-/

namespace Dwipe

variable {σ : Type} {env : Env σ} {opt : Options} {param : DiskParam}

/-! ### Sequences of updates -/

/-- `reset_progress`, and an update for each number of the list. -/
def progressRun (env : Env σ) (totalBytes : UInt64) (writes : List UInt64) : Prog σ Progress := do
  let progress ← resetProgress env totalBytes
  writes.foldlM (updateProgress env) progress

/-- **The invariant of the record.** -/
structure Progress.Sound (progress : Progress) : Prop where
  total : progress.totalBytes ≠ 0
  done : progress.doneBytes ≤ progress.totalBytes
  width : progress.savedProWidth ≤ 50

/-- The figures of every line that is drawn: the bar is not longer than its room, and the share not
above 100. -/
def LinesSound (l : List Event) : Prop :=
  ∀ e ∈ l, ∀ line, e = .progress line → line.proWidth ≤ 50 ∧ line.percent ≤ 100

/-- **A part of `total`, scaled by `k` with wrap-around, is at most `k`.** -/
theorem scaled_le {done total : UInt64} (h0 : total ≠ 0) (hle : done ≤ total) (k : UInt64) :
    done * k / total ≤ k := by
  have hpos : 0 < total.toNat := Nat.pos_of_ne_zero fun h ↦ h0 (UInt64.toNat_inj.1 h)
  rw [UInt64.le_iff_toNat_le, UInt64.toNat_div, UInt64.toNat_mul]
  calc done.toNat * k.toNat % 2 ^ 64 / total.toNat
      ≤ done.toNat * k.toNat / total.toNat := Nat.div_le_div_right (Nat.mod_le _ _)
    _ ≤ total.toNat * k.toNat / total.toNat :=
      Nat.div_le_div_right (Nat.mul_le_mul_right _ (UInt64.le_iff_toNat_le.1 hle))
    _ = k.toNat := Nat.mul_div_cancel_left _ hpos

theorem Progress.width_le {progress : Progress} (h0 : progress.totalBytes ≠ 0) {done : UInt64}
    (hle : done ≤ progress.totalBytes) : progress.width done ≤ 50 := by
  have hscaled := UInt64.le_iff_toNat_le.1 (scaled_le h0 hle lineWidth)
  rw [Progress.width, UInt32.le_iff_toNat_le, UInt64.toNat_toUInt32]
  exact (Nat.mod_le _ _).trans hscaled

theorem updateProgress_sound {progress : Progress} (h : progress.Sound) (n : UInt64) :
    TraceM.Records LinesSound Progress.Sound (updateProgress env progress n) := by
  intro m
  have hup := updateProgress_updated env progress n m
  have hle := progress.advanced_le n
  obtain ⟨ds, lines, hevents, -, hlines⟩ := hup.events
  constructor
  · rintro e he line rfl
    have hmem : line ∈ lines := by
      rw [hevents] at he
      simpa using he
    obtain ⟨hwidth, hpercent⟩ := hlines line hmem
    rw [hwidth, hpercent]
    exact ⟨Progress.width_le h.total hle, scaled_le h.total hle 100⟩
  · refine ⟨?_, ?_, ?_⟩
    · rw [hup.total]
      exact h.total
    · rw [hup.total, hup.done]
      exact hle
    · rw [hup.width]
      exact Progress.width_le h.total hle

/-- **Every sequence of updates keeps the record sound**, and so is every line it draws. -/
theorem updates_sound (writes : List UInt64) {progress : Progress} (h : progress.Sound) :
    TraceM.Records LinesSound Progress.Sound
      (writes.foldlM (updateProgress env) progress : Prog σ Progress) := by
  have hT : TraceM.Appends LinesSound := TraceM.appends_forall _
  induction writes generalizing progress with
  | nil => exact TraceM.records_pure hT h
  | cons n writes ih =>
    rw [List.foldlM_cons]
    exact (updateProgress_sound h n).bind hT fun p hp ↦ ih hp

theorem progressRun_sound (totalBytes : UInt64) (writes : List UInt64) :
    TraceM.Records LinesSound Progress.Sound (progressRun env totalBytes writes) := by
  have hT : TraceM.Appends LinesSound := TraceM.appends_forall _
  have hreset : TraceM.Records LinesSound Progress.Sound (resetProgress env totalBytes) := by
    refine (gettimeofday_records hT).bind hT fun tv _ ↦ TraceM.records_pure hT ?_
    exact ⟨guarded_ne_zero totalBytes, UInt64.zero_le, UInt32.zero_le⟩
  exact hreset.bind hT fun p hp ↦ updates_sound writes hp

/-! ### Runs of `wipe_disk` -/

/-- The events in front of the wipe enter nothing into the books. -/
theorem skipTest_unbooked {m : Machine σ} {t : Traced (Machine σ) Event ℤ}
    (ht : t = isSkipedDisk env opt param m) :
    ∀ e ∈ t.events ++ [.returned (.isSkipedDisk param.diskId) t.val], e.Unbooked := by
  intro e he
  rw [List.mem_append, List.mem_singleton] at he
  rcases he with he | rfl
  · rw [ht] at he
    exact isSkipedDisk_unbooked m e he
  · exact ⟨rfl, fun _ ↦ rfl⟩

section runs

variable {m : Machine σ} {byte : ℕ → UInt8} (hpos : 1 ≤ (totalSec opt param).toNat)
  (hfit : (totalSec opt param).toNat * 512 < 2 ^ 64)

include hpos hfit

/-- A run that starts has honest books, with everything done at the end unless a call has failed. -/
theorem Starts.closed (h : Starts env opt param m byte) :
    Closed opt param (wipeDisk env opt param m).events := by
  obtain ⟨t, ht⟩ : ∃ t, t = isSkipedDisk env opt param m := ⟨_, rfl⟩
  obtain ⟨u, hu⟩ : ∃ u, u = wipeBuffer env opt param ⟨wipeBufferSize.toNat, byte⟩
      { t.state with ticks := t.state.ticks + 1 } := ⟨_, rfl⟩
  have hclosed : Closed opt param u.events := hu ▸ wipeBuffer_closed h.not_cdrom hpos hfit _ _
  have hrun := hclosed.prepend (skipTest_unbooked ht)
  rw [List.append_assoc] at hrun
  rw [wipeDisk_of_memory ht (ht ▸ h.kept) (ht ▸ h.memory) hu]
  exact hrun

/-- **A run of `wipe_disk` keeps honest books.** -/
theorem wipeDisk_neverAhead :
    NeverAhead (wipeSectorSize opt param).toNat 0 (wipeDisk env opt param m).events := by
  obtain ⟨t, ht⟩ : ∃ t, t = isSkipedDisk env opt param m := ⟨_, rfl⟩
  -- a run that does not start makes no claim
  have hhonest : NeverAhead (wipeSectorSize opt param).toNat 0
      (t.events ++ [.returned (.isSkipedDisk param.diskId) t.val]) :=
    (books_of_unbooked (skipTest_unbooked ht)).honest
  by_cases hkept : t.val = 0
  · cases hmem : env.malloc t.state.ticks with
    | none =>
      rw [wipeDisk_of_no_memory ht hkept hmem]
      exact hhonest
    | some byte =>
      have hstart : Starts env opt param m byte := ⟨ht ▸ hkept, ht ▸ hmem⟩
      rw [wipeSectorSize_of_not_cdrom opt hstart.not_cdrom]
      exact (hstart.closed hpos hfit).1
  · rw [wipeDisk_of_skiped ht hkept]
    exact hhonest

end runs

/-- **The progress invariant.** For every total and every sequence of updates the record and the
lines drawn from it are in their bounds. And in every run of `wipe_disk` with at least one sector
and a size that fits 64 bits, `done_bytes` is never ahead of the bytes issued so far; if the run
starts and no call of the wipe loop or of the remainder fails, `done_bytes` ends at
`total_bytes`. -/
theorem progress_invariant (env : Env σ) :
    (∀ totalBytes writes m,
      (progressRun env totalBytes writes m).val.doneBytes ≤
        (progressRun env totalBytes writes m).val.totalBytes ∧
      (progressRun env totalBytes writes m).val.savedProWidth ≤ 50 ∧
      ∀ line, .progress line ∈ (progressRun env totalBytes writes m).events →
        line.proWidth ≤ 50 ∧ line.percent ≤ 100) ∧
    ∀ opt param m, 1 ≤ (totalSec opt param).toNat → (totalSec opt param).toNat * 512 < 2 ^ 64 →
      NeverAhead (wipeSectorSize opt param).toNat 0 (wipeDisk env opt param m).events ∧
      ∀ byte, Starts env opt param m byte → ¬CallFailed (wipeDisk env opt param m).events →
        (accounts (wipeDisk env opt param m).events).getLast? =
          some (totalSize opt param, totalSize opt param) := by
  refine ⟨fun totalBytes writes m ↦ ?_, fun opt param m hpos hfit ↦ ⟨?_, ?_⟩⟩
  · obtain ⟨hlines, hsound⟩ : LinesSound _ ∧ Progress.Sound _ :=
      progressRun_sound totalBytes writes m
    exact ⟨hsound.done, hsound.width, fun line h ↦ hlines _ h line rfl⟩
  · exact wipeDisk_neverAhead hpos hfit
  · exact fun byte hstart ↦ (hstart.closed hpos hfit).2

/-- Seventeen sectors are wiped in a chunk and a remainder, and all 8704 bytes are done. -/
theorem progress_invariant_seventeen :
    (accounts (wipeDisk (obliging fun _ ↦ 0) Options.plain (DiskParam.ofSectors 17)
      (Machine.fresh () 1)).events).getLast? = some (8704, 8704) := by
  have hreturns : ∀ p ∈ returns (wipeDisk (obliging fun _ ↦ 0) Options.plain
      (DiskParam.ofSectors 17) (Machine.fresh () 1)).events, 0 ≤ p.2 := by decide +kernel
  have hstart : Starts (obliging fun _ ↦ 0) Options.plain (DiskParam.ofSectors 17)
      (Machine.fresh () 1) fun _ ↦ 0 := starts_obliging rfl (by decide) rfl
  refine ((progress_invariant (obliging fun _ ↦ 0)).2 Options.plain (DiskParam.ofSectors 17)
    (Machine.fresh () 1) (by decide) (by decide)).2 _ hstart ?_
  rintro ⟨offset, n, ret, hmem, hret⟩
  exact absurd (hreturns _ (mem_returns.2 hmem)) (not_le.2 hret)

end Dwipe

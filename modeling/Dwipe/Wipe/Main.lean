import Dwipe.Wipe.WipeDisk

/-!
# Enumeration and the main loop

`enum_disk` and `do_main` of `dwipe.c`. `do_main` is modelled from the point where the options are
known: the setup before it does not touch a disk, and the options are a parameter.

`disk_list` is kept as a function on all slot numbers, so that a store beyond its 128 elements would
be visible; every store is recorded with its slot.
-/

namespace Dwipe

variable {σ : Type} (env : Env σ) (opt : Options)

/-- A store through `param = &disk_list[index]`, recorded with its slot; nothing here compares it
with the length of the list. -/
def setSlot (index : ℕ) (param : DiskParam) : Prog σ Unit := do
  TraceM.emit (.store index)
  TraceM.update fun m ↦ { m with diskList := Function.update m.diskList index param }

/-- The loop variables of `enum_disk`: the next free slot, and the last extension answer. -/
structure EnumState where
  index : ℕ
  ext : Extensions

/-- One round of `enum_disk`, for drive `id`. The slot is stored to before it is known whether there
is a drive; if there is none, the next round stores to it again. -/
def probeDrive (id : UInt8) (s : EnumState) : Prog σ EnumState := do
  let (ret, param) ← getDiskParam env id
  setSlot s.index param
  if ret = 0 then
    let (ret, ext) ← checkExtensionsPresent env id s.ext
    if ret = 0 ∧ ext.ext % 2 = 1 then
      let (_, param) ← getDiskParamExt env param
      setSlot s.index param
      return ⟨s.index + 1, ext⟩
    else
      return ⟨s.index + 1, ext⟩
  else
    return s

/-- `enum_disk`: the drive ids `80h` to `FFh` in order. -/
def enumDisk (uninit : Extensions) : Prog σ Unit := do
  enter .probe
  let s ← TraceM.forRange 128 ⟨0, uninit⟩ fun i s ↦ probeDrive env (UInt8.ofNat (0x80 + i)) s
  TraceM.update fun m ↦ { m with totalDiskCnt := UInt32.ofNat s.index }

/-- The counter a returned value of `wipe_disk` is booked in. -/
def book (ret : ℤ) : Prog σ Unit :=
  TraceM.update fun m ↦
    if ret = 0 then { m with doneDiskCnt := m.doneDiskCnt + 1 }
    else if ret < 0 then { m with errorDiskCnt := m.errorDiskCnt + 1 }
    else { m with skipedDiskCnt := m.skipedDiskCnt + 1 }

/-- One round of the wipe loop of `do_main`: a disk that fails is booked, and the loop goes on. -/
def wipeListed (i : ℕ) : Prog σ Unit := do
  let m ← TraceM.read
  let ret ← wipeDisk env opt (m.diskList i)
  TraceM.emit (.returned (.wipeDisk i) ret)
  book ret

/-- `book`, counter by counter: exactly one of the three goes up. -/
theorem book_state (ret : ℤ) (m : Machine σ) :
    (book ret m).state =
      { m with
        doneDiskCnt := m.doneDiskCnt + if ret = 0 then 1 else 0
        errorDiskCnt := m.errorDiskCnt + if ret < 0 then 1 else 0
        skipedDiskCnt := m.skipedDiskCnt + if 0 < ret then 1 else 0 } := by
  simp only [book, TraceM.run_update]
  rcases Int.lt_trichotomy ret 0 with h | h | h
  · simp [h, Int.ne_of_lt h, Int.not_lt.2 (Int.le_of_lt h)]
  · simp [h]
  · simp [h, Int.ne_of_gt h, Int.not_lt.2 (Int.le_of_lt h)]

theorem run_wipeListed {env : Env σ} {opt : Options} (i : ℕ) {m : Machine σ}
    {t : Traced (Machine σ) Event ℤ} (ht : t = wipeDisk env opt (m.diskList i) m) :
    wipeListed env opt i m =
      ⟨(), (book t.val t.state).state, t.events ++ [.returned (.wipeDisk i) t.val]⟩ := by
  simp only [wipeListed, TraceM.run_bind, TraceM.run_read, TraceM.run_emit, ← ht]
  rfl

/-- The first `n` rounds of the wipe loop of `do_main`. -/
def wipeFirst (n : ℕ) : Prog σ Unit := TraceM.forRange n () fun i _ ↦ wipeListed env opt i

/-- The wipe loop of `do_main`, over the drives that `enum_disk` has counted. -/
def wipeAll : Prog σ Unit := do
  let m ← TraceM.read
  wipeFirst env opt m.totalDiskCnt.toNat

/-- `do_main` from `gettimeofday` on. The seed of `rand` is the only use of the time besides the
progress line. -/
def doMain (uninit : Extensions) : Prog σ Unit := do
  let cur ← gettimeofday env
  srand cur.tvSec
  enumDisk env uninit
  wipeAll env opt

end Dwipe

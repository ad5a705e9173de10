import Mathlib.Algebra.Group.Int.Defs
import Mathlib.Data.List.Infix
import Mathlib.Tactic.Linarith

/-!
# The heap break

`_sbrk` of `libgloss/minios/sbrk.c`, from which newlib's `malloc` takes its memory. The break starts
at `_end`, the end of the program's own data, and may grow by `MAX_HEAP_SIZE`.

The one guard compares `heap_ptr - _end + nbytes` with the size. It is an `int` expression: the sum
is taken modulo `2 ^ 32`, and **nothing bounds it from below**. A call is harmless exactly if the
mathematical sum is neither negative nor past `2 ^ 31` (`callKept_iff`), and a run keeps the break
in its arena exactly if every one of its calls is.
-/

namespace Dwipe

/-- `MAX_HEAP_SIZE`: ten megabytes behind the end of the program. -/
def maxHeapSize : ℕ := 10485760

/-- Where the linker puts the end of the program. `minios_shared.lds` starts it at `0x100000`, and
the arena behind it lies below the last address, which `_sbrk` uses for failure. -/
structure Image where
  /-- `_end`. -/
  endAddr : UInt32
  above : 0x100000 ≤ endAddr.toNat
  room : endAddr.toNat + maxHeapSize < 2 ^ 32

/-- The globals of `sbrk.c`: the break, null before the first call, and `errno`. -/
structure Heap where
  heapPtr : UInt32
  errno : ℤ
  deriving DecidableEq

/-- The globals at the start. -/
def Heap.start : Heap := ⟨0, 0⟩

/-- `ENOMEM`. -/
def enomem : ℤ := 12

/-- `(void *) -1`, which is no address of the arena. -/
def sbrkFailure : UInt32 := 0xFFFFFFFF

variable (img : Image)

/-- The break: `heap_ptr`, or `_end` before the first call has set it. -/
def Heap.brk (s : Heap) : UInt32 := if s.heapPtr = 0 then img.endAddr else s.heapPtr

/-- The guard of `_sbrk`, an `int` comparison of an `int` sum. -/
def sbrkGuard (s : Heap) (nbytes : Int32) : Bool :=
  (s.brk img - img.endAddr).toInt32 + nbytes < (10485760 : Int32)

/-- `_sbrk(nbytes)`: the returned pointer, and the globals after the call. -/
def sbrk (s : Heap) (nbytes : Int32) : UInt32 × Heap :=
  if sbrkGuard img s nbytes then
    (s.brk img, { s with heapPtr := s.brk img + nbytes.toUInt32 })
  else
    (sbrkFailure, { heapPtr := s.brk img, errno := enomem })

/-- The globals after a sequence of calls, from the start on. -/
def runSbrk (calls : List Int32) : Heap :=
  calls.foldl (fun s nbytes ↦ (sbrk img s nbytes).2) .start

theorem sbrk_of_guard {s : Heap} {nbytes : Int32} (h : sbrkGuard img s nbytes = true) :
    sbrk img s nbytes = (s.brk img, ⟨s.brk img + nbytes.toUInt32, s.errno⟩) :=
  if_pos h

theorem sbrk_of_not_guard {s : Heap} {nbytes : Int32} (h : sbrkGuard img s nbytes = false) :
    sbrk img s nbytes = (sbrkFailure, ⟨s.brk img, enomem⟩) :=
  if_neg (Bool.eq_false_iff.1 h)

/-! ### One call -/

/-- The break lies in `[_end, _end + MAX_HEAP_SIZE)`: the invariant the guard is there for. -/
def InArena (s : Heap) : Prop :=
  img.endAddr.toNat ≤ (s.brk img).toNat ∧ (s.brk img).toNat < img.endAddr.toNat + maxHeapSize

/-- The bytes between `_end` and the break. -/
def Heap.used (s : Heap) : ℤ := (s.brk img).toNat - img.endAddr.toNat

/-- **What a call is to keep**: the break stays in the arena, a failed call does not move it, and a
call that succeeds returns the old break and moves it by `nbytes`. -/
structure CallKept (s : Heap) (nbytes : Int32) : Prop where
  inArena : InArena img (sbrk img s nbytes).2
  failed : (sbrk img s nbytes).1 = sbrkFailure → (sbrk img s nbytes).2.brk img = s.brk img
  succeeded : (sbrk img s nbytes).1 ≠ sbrkFailure →
    (sbrk img s nbytes).1 = s.brk img ∧
      ((sbrk img s nbytes).2.brk img).toNat = ((s.brk img).toNat : ℤ) + nbytes.toInt

/-- **The call stays in `int`**: the new size, as a number, is neither negative nor past
`2 ^ 31`. -/
def Fits (s : Heap) (nbytes : Int32) : Prop :=
  0 ≤ s.used img + nbytes.toInt ∧ s.used img + nbytes.toInt < 2 ^ 31

section call

variable {img} {s : Heap} {nbytes : Int32}

theorem toNat_toUInt32 (n : Int32) : (n.toUInt32.toNat : ℤ) = n.toInt % 2 ^ 32 := by
  have h : n.toInt = (n.toUInt32.toNat : ℤ).bmod (2 ^ 32) := BitVec.toInt_eq_toNat_bmod _
  have hmod : (n.toUInt32.toNat : ℤ).bmod (2 ^ 32) % (2 ^ 32 : ℕ) =
      n.toUInt32.toNat % (2 ^ 32 : ℕ) := Int.bmod_emod
  have hlt := n.toUInt32.toNat_lt
  omega

/-- The difference of the guard is the used size. -/
theorem InArena.toInt_sub (h : InArena img s) :
    (s.brk img - img.endAddr).toInt32.toInt = s.used img := by
  obtain ⟨hle, hlt⟩ := h
  have hsub : (s.brk img - img.endAddr).toNat = (s.brk img).toNat - img.endAddr.toNat :=
    UInt32.toNat_sub_of_le _ _ (UInt32.le_iff_toNat_le.2 hle)
  have hval : (s.brk img - img.endAddr).toInt32.toInt = (s.brk img - img.endAddr).toNat :=
    BitVec.toInt_eq_toNat_of_lt (by
      show 2 * (s.brk img - img.endAddr).toNat < 2 ^ 32
      rw [hsub]
      rw [maxHeapSize] at hlt
      omega)
  rw [hval, hsub, Heap.used]
  omega

/-- The guard compares the sum taken modulo `2 ^ 32`. -/
theorem InArena.guard_iff (h : InArena img s) (nbytes : Int32) :
    sbrkGuard img s nbytes = true ↔ (s.used img + nbytes.toInt).bmod (2 ^ 32) < maxHeapSize := by
  rw [sbrkGuard, decide_eq_true_eq, Int32.lt_iff_toInt_lt, Int32.toInt_add, h.toInt_sub]
  rfl

/-- A sum that stays in `int` is not changed by the guard's arithmetic. -/
theorem Fits.bmod (h : Fits img s nbytes) :
    (s.used img + nbytes.toInt).bmod (2 ^ 32) = s.used img + nbytes.toInt := by
  obtain ⟨hge, hlt⟩ := h
  rw [Int.bmod]
  omega

/-- A sum that does not is negative after it, and so is accepted. -/
theorem InArena.bmod_neg (h : InArena img s) (hfits : ¬Fits img s nbytes) :
    (s.used img + nbytes.toInt).bmod (2 ^ 32) < 0 := by
  have hlow := nbytes.le_toInt
  have hhigh := nbytes.toInt_lt
  obtain ⟨hle, hlt⟩ := h
  have hused : 0 ≤ s.used img ∧ s.used img < 10485760 := by
    rw [maxHeapSize] at hlt
    rw [Heap.used]
    omega
  rw [Fits] at hfits
  rw [Int.bmod]
  omega

/-- An address in the arena is not the failure value. -/
theorem InArena.brk_ne_failure (h : InArena img s) : s.brk img ≠ sbrkFailure := by
  intro heq
  have hlt := h.2
  have hroom := img.room
  have hval : (s.brk img).toNat = 0xFFFFFFFF := congrArg UInt32.toNat heq
  omega

/-- A break that was stored is the break, unless it is the null pointer, which stands for none. -/
theorem brk_stored {p : UInt32} (h : 0 < p.toNat) (e : ℤ) : (Heap.mk p e).brk img = p :=
  if_neg (UInt32.pos_iff_ne_zero.1 (UInt32.lt_iff_toNat_lt.2 h))

theorem InArena.brk_pos (h : InArena img s) : 0 < (s.brk img).toNat := by
  have habove := img.above
  have hle := h.1
  omega

/-- **An accepted call that fits** moves the break by `nbytes`. -/
theorem Fits.moved (h : Fits img s nbytes) (hlt : s.used img + nbytes.toInt < maxHeapSize)
    (e : ℤ) :
    ((Heap.mk (s.brk img + nbytes.toUInt32) e).brk img).toNat =
      ((s.brk img).toNat : ℤ) + nbytes.toInt := by
  have hroom := img.room
  have habove := img.above
  have hword := toNat_toUInt32 nbytes
  have hadd := UInt32.toNat_add (s.brk img) nbytes.toUInt32
  have hge := h.1
  rw [Heap.used] at hge hlt
  have hsum : ((s.brk img + nbytes.toUInt32).toNat : ℤ) = (s.brk img).toNat + nbytes.toInt := by
    omega
  rw [brk_stored (by omega)]
  exact hsum

/-- **A call that fits keeps what it is to keep.** -/
theorem InArena.callKept (h : InArena img s) (hfits : Fits img s nbytes) :
    CallKept img s nbytes := by
  have hguard := h.guard_iff nbytes
  rw [hfits.bmod] at hguard
  cases hacc : sbrkGuard img s nbytes with
  | true =>
    have hlt := hguard.1 hacc
    have hmoved := hfits.moved hlt s.errno
    have hge := hfits.1
    rw [Heap.used] at hlt hge
    refine ⟨?_, ?_, ?_⟩ <;> rw [sbrk_of_guard img hacc]
    · show _ ≤ (Heap.brk img ⟨_, _⟩).toNat ∧ (Heap.brk img ⟨_, _⟩).toNat < _
      omega
    · exact fun hfail ↦ absurd hfail h.brk_ne_failure
    · exact fun _ ↦ ⟨rfl, hmoved⟩
  | false =>
    have hbrk : (Heap.mk (s.brk img) enomem).brk img = s.brk img := brk_stored h.brk_pos _
    refine ⟨?_, ?_, ?_⟩ <;> rw [sbrk_of_not_guard img hacc]
    · rw [InArena, hbrk]
      exact h
    · exact fun _ ↦ hbrk
    · exact fun hne ↦ absurd rfl hne

/-- **A call that does not fit is accepted**, and takes the break out of the arena or to a place
`nbytes` does not lead to. -/
theorem InArena.fits (h : InArena img s) (hkept : CallKept img s nbytes) : Fits img s nbytes := by
  by_contra hfits
  have hneg := h.bmod_neg hfits
  have hacc : sbrkGuard img s nbytes = true := (h.guard_iff nbytes).2 (by omega)
  obtain ⟨⟨hle, hlt⟩, -, hsucc⟩ := hkept
  rw [sbrk_of_guard img hacc] at hle hlt hsucc
  obtain ⟨-, hmove⟩ := hsucc h.brk_ne_failure
  rw [maxHeapSize] at hlt
  refine hfits ?_
  rw [Fits, Heap.used]
  omega

end call

/-! ### Runs -/

theorem inArena_start : InArena img .start := by
  have hbrk : Heap.start.brk img = img.endAddr := if_pos rfl
  rw [InArena, hbrk, maxHeapSize]
  omega

theorem runSbrk_append (calls : List Int32) (nbytes : Int32) :
    runSbrk img (calls ++ [nbytes]) = (sbrk img (runSbrk img calls) nbytes).2 := by
  rw [runSbrk, List.foldl_append]
  rfl

/-- A property of every call of a run holds of every call of its beginning. -/
theorem calls_of_append {P : List Int32 → Int32 → Prop} {calls : List Int32} {n : Int32}
    (h : ∀ pre k, pre ++ [k] <+: calls ++ [n] → P pre k) :
    ∀ pre k, pre ++ [k] <+: calls → P pre k :=
  fun pre k hpre ↦ h pre k (hpre.trans (List.prefix_append _ _))

/-- **The step lemma carried along a run**: calls that fit leave the break in the arena. -/
theorem inArena_of_fits {calls : List Int32}
    (h : ∀ pre n, pre ++ [n] <+: calls → Fits img (runSbrk img pre) n) :
    InArena img (runSbrk img calls) := by
  induction calls using List.reverseRecOn with
  | nil => exact inArena_start img
  | append_singleton calls n ih =>
    rw [runSbrk_append]
    exact ((ih (calls_of_append h)).callKept (h calls n (List.prefix_refl _))).inArena

theorem inArena_of_kept {calls : List Int32}
    (h : ∀ pre n, pre ++ [n] <+: calls → CallKept img (runSbrk img pre) n) :
    InArena img (runSbrk img calls) := by
  induction calls using List.reverseRecOn with
  | nil => exact inArena_start img
  | append_singleton calls n _ =>
    rw [runSbrk_append]
    exact (h calls n (List.prefix_refl _)).inArena

/-- The calls in front of one of the calls of a run. -/
theorem calls_before {P : List Int32 → Int32 → Prop} {calls pre : List Int32} {n : Int32}
    (h : ∀ pre k, pre ++ [k] <+: calls → P pre k) (hpre : pre ++ [n] <+: calls) :
    ∀ pre' k, pre' ++ [k] <+: pre → P pre' k :=
  fun pre' k hpre' ↦ h pre' k (hpre'.trans ((List.prefix_append _ _).trans hpre))

/-- **The heap break over a run.** For every sequence of calls, each call keeps the break in its
arena, leaves it alone on failure and moves it by `nbytes` on success, if and only if for each call
the size it asks for is neither negative nor past `2 ^ 31`. -/
theorem sbrk_run_iff (img : Image) (calls : List Int32) :
    (∀ pre n, pre ++ [n] <+: calls → CallKept img (runSbrk img pre) n) ↔
      ∀ pre n, pre ++ [n] <+: calls → Fits img (runSbrk img pre) n := by
  constructor
  · intro h pre n hpre
    exact (inArena_of_kept img (calls_before h hpre)).fits (h pre n hpre)
  · intro h pre n hpre
    exact (inArena_of_fits img (calls_before h hpre)).callKept (h pre n hpre)

/-- A program that ends two megabytes in. -/
def smallImage : Image := ⟨0x200000, by decide, by decide⟩

/-- **The break leaves the arena** on a single negative call, and on a call near `INT_MAX` once a
byte is in use: both return the old break as if all were well. -/
theorem sbrk_leaves_arena :
    (sbrk smallImage (runSbrk smallImage []) (-4096)).1 = 0x200000 ∧
      (runSbrk smallImage [-4096]).brk smallImage = 0x1ff000 ∧
      ¬InArena smallImage (runSbrk smallImage [-4096]) ∧
      (sbrk smallImage (runSbrk smallImage [1]) 0x7fffffff).1 = 0x200001 ∧
      (runSbrk smallImage [1, 0x7fffffff]).brk smallImage = 0x80200000 ∧
      ¬∀ pre n, pre ++ [n] <+: [-4096] → CallKept smallImage (runSbrk smallImage pre) n := by
  have hout : ¬InArena smallImage (runSbrk smallImage [-4096]) := by
    rw [InArena]
    decide
  refine ⟨by decide, by decide, hout, by decide, by decide, fun h ↦ hout ?_⟩
  exact (h [] (-4096) (List.prefix_refl _)).inArena

end Dwipe

import Dwipe.Library.Bytes
import Dwipe.Library.Tiling
import Mathlib.Tactic.Ring

/-!
# The boot sector

`bootsect.S` from `load_setup` to the end of `read_it`: it reads the eight setup sectors behind
itself, guesses the number of sectors on a track by trying to read the last one, and loads the
program, track by track and without ever crossing a boundary of 64 kilobytes in one read. The
arithmetic is that of the 16-bit registers, with the carries it tests.

The boot sector runs at `9000h:0000h`, and its words at `sread`, `head`, `track` and `sectors` are
**bytes of itself, in the memory it loads the program to**; so is its stack, below `9000h:3ff4h`. A
round loads the words from memory, again after each read, and stores them back (`Loader.load`,
`Loader.store`). Where the words are, and what is pushed on the stack, are parameters (`Workspace`).

The BIOS is a parameter too: `read` is `int 13h` with `%ah = 2`, `reset` the same with `%ah = 0`. It
is asked to work (`Loads`) as long as nobody else stores in the bytes it keeps for itself, the
interrupt vectors and its data. A read that fails is repeated with the same registers after a reset,
without end, so the loops have a bound on the number of rounds. What is printed on the way is left
out: it is on the display, which counts as the BIOS's.

**After `c` sectors the loader is where it should be** (`Loader.after`): the registers and the three
counters are a function of `c`, and a round takes the state after `c` sectors to the one after `c`
and as many more as it has read (`advance_after`). For this a track must hold more sectors than the
nine in front of the program; with the guess of nine sectors the first read asks for none
(`chunk_nine`).

The segment the program is loaded to is a parameter of the results. The source has `10000h` for it,
of which the assembler keeps the low word (`tstload`): the interrupt vectors, where a BIOS that
needs them does not survive the first read.
-/

namespace Dwipe

open Bytes

/-! ### The BIOS -/

/-- The registers of a read: where to, how many sectors, and from which cylinder, sector and head.
The drive is always the first one. -/
structure ReadReq where
  es : UInt16
  bx : UInt16
  al : UInt8
  ch : UInt8
  cl : UInt8
  dh : UInt8
  deriving DecidableEq

/-- `int 13h` for the first floppy drive: the carry flag of a read, and the state of the BIOS and
the memory after it. -/
structure FloppyBios (σ : Type) where
  read : σ → (ℕ → UInt8) → ReadReq → Bool × σ × (ℕ → UInt8)
  reset : σ → (ℕ → UInt8) → σ × (ℕ → UInt8)

/-! ### The memory of the boot sector -/

/-- **Where the boot sector works**: its words at `sread`, `head` and `track`, which follow each
other, and at `sectors`, and its stack below `9000h:3ff4h`, which goes down to `bottom`, with what
is pushed on it before a read. Some bytes the BIOS keeps for itself; they are not in between. -/
structure Workspace where
  sread : ℕ
  sectors : ℕ
  bottom : ℕ
  pushed : ReadReq → (ℕ → UInt8) → ℕ → UInt8
  bios : ℕ → Prop
  words : 0x90000 ≤ sread ∧ sread + 6 ≤ sectors ∧ sectors + 2 ≤ 0x901f1
  stack : 0x91400 ≤ bottom ∧ bottom ≤ 0x93ff4
  apart : ∀ a, bios a → a < 0x90000 ∨ 0x93ff4 ≤ a

namespace Workspace

variable (W : Workspace)

/-- `head`, the word behind `sread`. -/
def head : ℕ := W.sread + 2

/-- `track`, the word behind `head`. -/
def track : ℕ := W.sread + 4

/-- The byte is on the stack, or will be before the loading ends. -/
def Stack (a : ℕ) : Prop := W.bottom ≤ a ∧ a < 0x93ff4

/-- The memory with the registers of a read on the stack, and whatever else is there. -/
def push (q : ReadReq) (mem : ℕ → UInt8) : ℕ → UInt8 :=
  blit mem W.bottom (0x93ff4 - W.bottom) fun i ↦ W.pushed q mem (W.bottom + i)

/-- What changes beside the buffers: the stack, the words, and the bytes of the BIOS. -/
def Own (a : ℕ) : Prop :=
  W.bios a ∨ W.Stack a ∨ (W.sread ≤ a ∧ a < W.sread + 6) ∨ (W.sectors ≤ a ∧ a < W.sectors + 2)

end Workspace

/-- A word of memory, as a 16-bit register loads it. -/
def loadWord (mem : ℕ → UInt8) (a : ℕ) : UInt16 := UInt16.ofNat (loadLE mem a 2)

/-- The word at `syssize`, which is the last but five of the boot sector. -/
def syssize (mem : ℕ → UInt8) : UInt16 := loadWord mem (0x90000 + 500)

/-- A read that is repeated, after a reset, until it succeeds, at most `n` times. -/
def FloppyBios.retry {σ : Type} (F : FloppyBios σ) (W : Workspace) :
    ℕ → ReadReq → σ → (ℕ → UInt8) → Option (σ × (ℕ → UInt8))
  | 0, _, _, _ => none
  | n + 1, q, b, mem =>
    match F.read b (W.push q mem) q with
    | (false, r) => some r
    | (true, r) => F.retry W n q (F.reset r.1 r.2).1 (F.reset r.1 r.2).2

/-! ### `read_it` -/

/-- What a round works on: `%es`, `%bx`, and the words at `sread`, `head` and `track`, as they have
been loaded from memory. -/
structure Loader where
  es : UInt16
  bx : UInt16
  sread : UInt16
  head : UInt16
  track : UInt16
  deriving DecidableEq

namespace Loader

/-- From memory, as a round begins and as it goes on behind its read. -/
def load (W : Workspace) (mem : ℕ → UInt8) (es bx : UInt16) : Loader :=
  ⟨es, bx, loadWord mem W.sread, loadWord mem W.head, loadWord mem W.track⟩

/-- And back. A word that the round has left alone is stored as it was loaded. -/
def store (W : Workspace) (s : Loader) (mem : ℕ → UInt8) : ℕ → UInt8 :=
  storeLE (storeLE (storeLE mem W.sread 2 s.sread.toNat) W.head 2 s.head.toNat) W.track 2
    s.track.toNat

/-- The state in which `read_it` starts, with the words as they are assembled; `SETUPSECS` is 8. -/
def start (seg : UInt16) : Loader := ⟨seg, 0, 1 + 8, 0, 0⟩

/-- From `ok1_read` to `ok2_read`: the sectors to the end of the track or, if these go over the
boundary, those to the boundary. -/
def chunk (sectors : UInt16) (s : Loader) : UInt16 :=
  let ax := sectors - s.sread
  let cx := ax <<< 9
  if cx.toNat + s.bx.toNat < 2 ^ 16 ∨ cx + s.bx = 0 then ax else (0 - s.bx) >>> 9

/-- The counters behind `read_track`, up to `ok3_read`: the other side after a side that is done,
and the next track after both. -/
def count (sectors : UInt16) (s : Loader) (ax : UInt16) : Loader :=
  if ax + s.sread = sectors then
    if 1 - s.head ≠ 0 then { s with head := 1 - s.head, sread := 0 }
    else { s with track := s.track + 1, head := 1 - s.head, sread := 0 }
  else { s with sread := ax + s.sread }

/-- The address, from `ok3_read` to the jump back: behind the sectors, or at the beginning of the
next 64 kilobytes. -/
def move (s : Loader) (ax : UInt16) : Loader :=
  let cx := ax <<< 9
  if s.bx.toNat + cx.toNat < 2 ^ 16 then { s with bx := s.bx + cx }
  else { s with es := s.es + 0x1000, bx := 0 }

/-- All that follows `read_track` in a round, in one piece for the step lemma. -/
def advance (sectors : UInt16) (s : Loader) (ax : UInt16) : Loader := (s.count sectors ax).move ax

end Loader

section loader

variable {σ : Type} (F : FloppyBios σ) (W : Workspace)

/-- A trial read of one sector of the first track, to the place behind the setup sectors. -/
def trialReq (cl : UInt8) : ReadReq := ⟨0x9000, 0x200 + 8 * 0x200, 1, 0, cl, 0⟩

/-- The value for `sectors`: 18 or 15, if that sector can be read, and 9 otherwise. -/
def probeSectors (b : σ) (mem : ℕ → UInt8) : UInt16 × σ × (ℕ → UInt8) :=
  match F.read b (W.push (trialReq 0x12) mem) (trialReq 0x12) with
  | (false, r) => (0x12, r)
  | (true, r) =>
    match F.read r.1 (W.push (trialReq 0x0f) r.2) (trialReq 0x0f) with
    | (false, r') => (0x0f, r')
    | (true, r') => (0x09, r')

end loader

/-! ### Where the loader is after `c` sectors -/

section counting

variable {K c n : ℕ}

/-- A step inside a block of `K`, after which the block is the same. -/
theorem div_mod_inside (h : c % K + n < K) : (c + n) / K = c / K ∧ (c + n) % K = c % K + n := by
  have hsplit : c + n = c % K + n + K * (c / K) := by
    have := Nat.mod_add_div c K
    omega
  constructor
  · rw [hsplit, Nat.add_mul_div_left _ _ (by omega), Nat.div_eq_of_lt h, Nat.zero_add]
  · rw [hsplit, Nat.add_mul_mod_self_left, Nat.mod_eq_of_lt h]

/-- A step to the end of a block of `K`. -/
theorem div_mod_end (hK : 0 < K) (h : c % K + n = K) :
    (c + n) / K = c / K + 1 ∧ (c + n) % K = 0 := by
  have hsplit : c + n = K * (c / K + 1) := by
    have := Nat.mod_add_div c K
    rw [Nat.mul_succ]
    omega
  rw [hsplit, Nat.mul_div_cancel_left _ hK, Nat.mul_mod_right]
  exact ⟨rfl, rfl⟩

end counting

/-- The sectors of the round that begins after `c` sectors: to the end of the track or of the 64
kilobytes, whichever comes first. -/
def piece (S c : ℕ) : ℕ := min (S - (9 + c) % S) (128 - c % 128)

namespace Loader

/-- **The state after `c` sectors** of the program: the counters are the place of the next sector on
the disk, and the address is its place in memory. -/
def after (seg : UInt16) (S c : ℕ) : Loader where
  es := seg + UInt16.ofNat (0x1000 * (c / 128))
  bx := UInt16.ofNat (512 * (c % 128))
  sread := UInt16.ofNat ((9 + c) % S)
  head := UInt16.ofNat ((9 + c) / S % 2)
  track := UInt16.ofNat ((9 + c) / S / 2)

theorem start_eq (seg : UInt16) {S : ℕ} (hS : 9 < S) : start seg = after seg S 0 := by
  rw [after, Nat.add_zero, Nat.mod_eq_of_lt hS, Nat.div_eq_of_lt hS]
  simp [start]

section round

variable (seg : UInt16) {S : UInt16} (hlo : 9 < S.toNat) (hhi : S.toNat ≤ 63) (c : ℕ)

theorem toNat_ofNat_of_lt {n : ℕ} (h : n < 2 ^ 16) : (UInt16.ofNat n).toNat = n := by
  rw [UInt16.toNat_ofNat', Nat.mod_eq_of_lt h]

theorem toNat_shift {n : ℕ} (h : n < 128) :
    ((UInt16.ofNat n) <<< (9 : UInt16)).toNat = 512 * n := by
  have h9 : (9 : UInt16).toNat % 16 = 9 := rfl
  rw [UInt16.toNat_shiftLeft, toNat_ofNat_of_lt (by omega), h9, Nat.shiftLeft_eq]
  omega

theorem toNat_bx : (after seg S.toNat c).bx.toNat = 512 * (c % 128) := by
  have hlt := Nat.mod_lt c (show 0 < 128 by decide)
  exact toNat_ofNat_of_lt (by omega)

include hlo hhi

theorem toNat_sread : (after seg S.toNat c).sread.toNat = (9 + c) % S.toNat := by
  have hlt := Nat.mod_lt (9 + c) (show 0 < S.toNat by omega)
  exact toNat_ofNat_of_lt (by omega)

/-- The counters after a round. -/
theorem count_after : (after seg S.toNat c).count S (UInt16.ofNat (piece S.toNat c)) =
    { after seg S.toNat (c + piece S.toNat c) with
      es := (after seg S.toNat c).es, bx := (after seg S.toNat c).bx } := by
  have hr := Nat.mod_lt (9 + c) (show 0 < S.toNat by omega)
  have hn : piece S.toNat c ≤ S.toNat - (9 + c) % S.toNat := Nat.min_le_left _ _
  obtain ⟨n, hpiece⟩ : ∃ n, n = piece S.toNat c := ⟨_, rfl⟩
  obtain ⟨q, hq⟩ : ∃ q, q = (9 + c) / S.toNat := ⟨_, rfl⟩
  rw [← hpiece] at hn ⊢
  have hsum : UInt16.ofNat n + (after seg S.toNat c).sread = S ↔
      (9 + c) % S.toNat + n = S.toNat := by
    rw [← UInt16.toNat_inj, UInt16.toNat_add, toNat_sread seg hlo hhi c,
      toNat_ofNat_of_lt (by omega)]
    show _ % 2 ^ 16 = _ ↔ _
    omega
  simp only [count, hsum]
  split_ifs with hend hhead
  · -- the first side of the track is read
    obtain ⟨hdiv, hmod⟩ := div_mod_end (by omega) hend
    have hzero : q % 2 = 0 := by
      rcases Nat.mod_two_eq_zero_or_one q with h | h
      · exact h
      · exact absurd (show (1 : UInt16) - UInt16.ofNat ((9 + c) / S.toNat % 2) = 0 by
          rw [← hq, h]; rfl) hhead
    rw [after, after, ← Nat.add_assoc, hdiv, hmod, ← hq, hzero,
      show (q + 1) % 2 = 1 by omega, show (q + 1) / 2 = q / 2 by omega]
    have hflip : (1 : UInt16) - UInt16.ofNat 0 = UInt16.ofNat 1 := by decide
    exact (Loader.mk.injEq ..).mpr ⟨rfl, rfl, rfl, hflip, rfl⟩
  · -- and the second one
    obtain ⟨hdiv, hmod⟩ := div_mod_end (by omega) hend
    have hone : q % 2 = 1 := by
      rcases Nat.mod_two_eq_zero_or_one q with h | h
      · exact absurd (show (1 : UInt16) - UInt16.ofNat ((9 + c) / S.toNat % 2) ≠ 0 by
          rw [← hq, h]; decide) hhead
      · exact h
    rw [after, after, ← Nat.add_assoc, hdiv, hmod, ← hq, hone,
      show (q + 1) % 2 = 0 by omega, show (q + 1) / 2 = q / 2 + 1 by omega, UInt16.ofNat_add]
    have hflip : (1 : UInt16) - UInt16.ofNat 1 = UInt16.ofNat 0 := by decide
    exact (Loader.mk.injEq ..).mpr ⟨rfl, rfl, rfl, hflip, rfl⟩
  · obtain ⟨hdiv, hmod⟩ := div_mod_inside (show (9 + c) % S.toNat + n < S.toNat by omega)
    rw [after, after, ← Nat.add_assoc, hdiv, hmod, UInt16.ofNat_add]
    simp [UInt16.add_comm]

/-- **A round takes the state after `c` sectors to the one after those it has read.** -/
theorem advance_after : (after seg S.toNat c).advance S (UInt16.ofNat (piece S.toNat c)) =
    after seg S.toNat (c + piece S.toNat c) := by
  have hb := Nat.mod_lt c (show 0 < 128 by decide)
  have hn : piece S.toNat c ≤ 128 - c % 128 := Nat.min_le_right _ _
  have hS : piece S.toNat c ≤ S.toNat - (9 + c) % S.toNat := Nat.min_le_left _ _
  rw [advance, count_after seg hlo hhi c]
  obtain ⟨n, hpiece⟩ : ∃ n, n = piece S.toNat c := ⟨_, rfl⟩
  rw [← hpiece] at hn hS ⊢
  have hcx := toNat_shift (n := n) (by omega)
  simp only [move, toNat_bx seg (S := S) c, hcx]
  split_ifs with h
  · obtain ⟨hdiv, hmod⟩ := div_mod_inside (show c % 128 + n < 128 by omega)
    have hbx : (after seg S.toNat c).bx + UInt16.ofNat n <<< (9 : UInt16) =
        (after seg S.toNat (c + n)).bx := by
      apply UInt16.toNat_inj.1
      rw [UInt16.toNat_add, toNat_bx, toNat_bx, hcx, hmod]
      omega
    have hes : (after seg S.toNat c).es = (after seg S.toNat (c + n)).es := by
      rw [after, after, hdiv]
    rw [hbx, hes]
  · obtain ⟨hdiv, hmod⟩ := div_mod_end (by decide) (show c % 128 + n = 128 by omega)
    have hbx : (0 : UInt16) = (after seg S.toNat (c + n)).bx := by
      rw [after, hmod]
      rfl
    have hes : (after seg S.toNat c).es + 0x1000 = (after seg S.toNat (c + n)).es := by
      rw [after, after, hdiv, Nat.mul_succ, UInt16.ofNat_add, UInt16.add_assoc]
      rfl
    rw [hbx, hes]

end round

/-- **With nine sectors on a track the first read asks for none**: the setup sectors have used it
up. -/
theorem chunk_nine (seg : UInt16) : (start seg).chunk 9 = 0 := by
  have hsread : (start seg).sread = 9 := rfl
  have hbx : (start seg).bx = 0 := rfl
  rw [chunk, hsread, hbx]
  decide

end Loader

/-! ### The reads -/

namespace ReadReq

/-- The number of the first sector, counted along the tracks and, on each, side after side. -/
def lba (S : ℕ) (q : ReadReq) : ℕ := (2 * q.ch.toNat + q.dh.toNat) * S + (q.cl.toNat - 1)

/-- The address of the buffer, in real mode. -/
def dest (q : ReadReq) : ℕ := 16 * q.es.toNat + q.bx.toNat

/-- The sectors that are read, by their numbers on the disk. -/
def span (S : ℕ) (q : ReadReq) : Span := ⟨q.lba S, q.al.toNat⟩

/-- **A read a floppy controller can carry out**: some sectors, all on one side of one track, into a
buffer that does not cross a boundary of 64 kilobytes. -/
structure Sound (S : ℕ) (q : ReadReq) : Prop where
  some : 1 ≤ q.al.toNat
  sector : 1 ≤ q.cl.toNat
  track : q.cl.toNat - 1 + q.al.toNat ≤ S
  side : q.dh.toNat ≤ 1
  boundary : q.bx.toNat + 512 * q.al.toNat ≤ 2 ^ 16

end ReadReq

section words

variable {W : Workspace} {mem mem' : ℕ → UInt8} {es bx : UInt16}

theorem loadWord_congr {a : ℕ} (h : ∀ i, a ≤ i → i < a + 2 → mem i = mem' i) :
    loadWord mem a = loadWord mem' a := by
  rw [loadWord, loadWord, loadLE_congr h]

theorem loadWord_storeLE (mem : ℕ → UInt8) (a : ℕ) (v : UInt16) :
    loadWord (storeLE mem a 2 v.toNat) a = v := by
  have hlt := v.toNat_lt
  rw [loadWord, loadLE_storeLE, Nat.mod_eq_of_lt (by omega), UInt16.ofNat_toNat]

theorem loadWord_storeLE_of_disjoint {a c n v : ℕ} (h : c + 2 ≤ a ∨ a + n ≤ c) :
    loadWord (storeLE mem a n v) c = loadWord mem c := by
  rw [loadWord, loadWord, loadLE_storeLE_of_disjoint h]

/-- **What has been stored back is loaded** in the next round: the three words do not overlap. -/
theorem Loader.load_store (s : Loader) : Loader.load W (s.store W mem) s.es s.bx = s := by
  have hsread : loadWord (s.store W mem) W.sread = s.sread := by
    rw [store, loadWord_storeLE_of_disjoint (by rw [Workspace.track]; omega),
      loadWord_storeLE_of_disjoint (by rw [Workspace.head]; omega), loadWord_storeLE]
  have hhead : loadWord (s.store W mem) W.head = s.head := by
    rw [store, loadWord_storeLE_of_disjoint (by rw [Workspace.track, Workspace.head]; omega),
      loadWord_storeLE]
  rw [load, hsread, hhead, store, loadWord_storeLE]

theorem Loader.store_apply_of_outside (s : Loader) {a : ℕ} (h : a < W.sread ∨ W.sread + 6 ≤ a) :
    s.store W mem a = mem a := by
  rw [store, storeLE_apply_of_outside (by rw [Workspace.track]; omega),
    storeLE_apply_of_outside (by rw [Workspace.head]; omega),
    storeLE_apply_of_outside (by omega)]

/-- The loader depends on the bytes of the boot sector only. -/
theorem Loader.load_congr (h : ∀ a, 0x90000 ≤ a → a < 0x90200 → mem a = mem' a) :
    Loader.load W mem es bx = Loader.load W mem' es bx := by
  have hwords := W.words
  have hword {a : ℕ} (hlo : W.sread ≤ a) (hhi : a ≤ W.sread + 4) :
      loadWord mem a = loadWord mem' a :=
    loadWord_congr fun i h1 h2 ↦ h i (by omega) (by omega)
  rw [load, load, hword (Nat.le_refl _) (by omega),
    hword (by rw [Workspace.head]; omega) (by rw [Workspace.head]; omega),
    hword (by rw [Workspace.track]; omega) (by rw [Workspace.track])]

end words

/-! ### A BIOS that carries the reads out -/

section loads

variable {σ : Type} {F : FloppyBios σ} {W : Workspace} {S : ℕ} {disk : ℕ → UInt8}
  {live : σ → (ℕ → UInt8) → Prop}

/-- The buffer of the read is off the bytes of the BIOS. -/
def Workspace.Off (W : Workspace) (q : ReadReq) : Prop :=
  ∀ a, W.bios a → a < q.dest ∨ q.dest + 512 * q.al.toNat ≤ a

/-- **The BIOS reads the floppy disk**, in the states in which it is alive: a sound read that
succeeds brings the sectors, a read that fails may have spoilt its buffer, and neither they nor a
reset change anything else but the stack and the bytes of the BIOS. It stays alive, also under
stores of others off its bytes, and a sound read that is repeated succeeds at last. -/
structure Loads (F : FloppyBios σ) (W : Workspace) (S : ℕ) (disk : ℕ → UInt8)
    (live : σ → (ℕ → UInt8) → Prop) : Prop where
  good : ∀ b mem q b' mem', live b mem → q.Sound S → W.Off q →
    F.read b mem q = (false, b', mem') → ∀ a, ¬W.bios a → ¬W.Stack a →
      mem' a = blit mem q.dest (512 * q.al.toNat) (fun i ↦ disk (512 * q.lba S + i)) a
  bad : ∀ b mem q b' mem', live b mem → q.bx.toNat + 512 * q.al.toNat ≤ 2 ^ 16 → W.Off q →
    F.read b mem q = (true, b', mem') → ∀ a, ¬W.bios a → ¬W.Stack a →
      a < q.dest ∨ q.dest + 512 * q.al.toNat ≤ a → mem' a = mem a
  reset : ∀ b mem, live b mem → ∀ a, ¬W.bios a → ¬W.Stack a → (F.reset b mem).2 a = mem a
  live_read : ∀ b mem q, live b mem → q.bx.toNat + 512 * q.al.toNat ≤ 2 ^ 16 → W.Off q →
    live (F.read b mem q).2.1 (F.read b mem q).2.2
  live_reset : ∀ b mem, live b mem → live (F.reset b mem).1 (F.reset b mem).2
  live_store : ∀ b mem mem', live b mem → (∀ a, W.bios a → mem' a = mem a) → live b mem'
  succeeds : ∀ b mem q, live b mem → q.Sound S → W.Off q → ∃ k r, F.retry W k q b mem = some r

theorem Workspace.push_apply {q : ReadReq} {mem : ℕ → UInt8} {a : ℕ} (h : ¬W.Stack a) :
    W.push q mem a = mem a := by
  have hstack := W.stack
  rw [Workspace.Stack] at h
  exact blit_apply_of_outside (by omega)

theorem Workspace.not_stack_of_bios {a : ℕ} (h : W.bios a) : ¬W.Stack a := by
  have hstack := W.stack
  rintro ⟨hlo, hhi⟩
  rcases W.apart a h with h | h <;> omega

theorem Loads.live_push (hF : Loads F W S disk live) {b : σ} {mem : ℕ → UInt8} (h : live b mem)
    (q : ReadReq) : live b (W.push q mem) :=
  hF.live_store b mem _ h fun _ ha ↦ W.push_apply (W.not_stack_of_bios ha)

/-- **A read that is repeated until it succeeds** brings its sectors, and leaves the BIOS alive. -/
theorem Loads.retry (hF : Loads F W S disk live) {q : ReadReq} (hq : q.Sound S) (hoff : W.Off q)
    {n : ℕ} {b b' : σ} {mem mem' : ℕ → UInt8} (hlive : live b mem)
    (h : F.retry W n q b mem = some (b', mem')) :
    live b' mem' ∧ ∀ a, ¬W.bios a → ¬W.Stack a →
      mem' a = blit mem q.dest (512 * q.al.toNat) (fun i ↦ disk (512 * q.lba S + i)) a := by
  induction n generalizing b mem with
  | zero => exact absurd h (Option.some_ne_none (b', mem')).symm
  | succ n ih =>
    have hpush := hF.live_push hlive q
    have hread' := hF.live_read _ _ q hpush hq.boundary hoff
    rw [FloppyBios.retry] at h
    match hread : F.read b (W.push q mem) q with
    | (false, r₁) =>
      rw [hread] at h hread'
      obtain rfl := Option.some.inj h
      refine ⟨hread', fun a ha hs ↦ ?_⟩
      rw [hF.good b _ q b' mem' hpush hq hoff hread a ha hs]
      exact blit_apply_congr (W.push_apply hs)
    | (true, r₁) =>
      rw [hread] at h hread'
      obtain ⟨hlive', hmem⟩ := ih (hF.live_reset _ _ hread') h
      refine ⟨hlive', fun a ha hs ↦ ?_⟩
      rw [hmem a ha hs]
      -- what a failure leaves outside the buffer is what was there
      refine blit_apply_congr_of_outside fun hout ↦ ?_
      rw [hF.reset _ _ hread' a ha hs, hF.bad b _ q r₁.1 r₁.2 hpush hq.boundary hoff hread a ha hs
        hout, W.push_apply hs]

end loads

/-! ### The run -/

section run

variable {σ : Type} {F : FloppyBios σ} {W : Workspace} {seg size S : UInt16} {disk : ℕ → UInt8}
  {live : σ → (ℕ → UInt8) → Prop}

/-- **The state before the round that begins after `c` sectors**, in the registers and in memory. -/
structure RoundReady (W : Workspace) (seg size S : UInt16) (c : ℕ) (es bx : UInt16)
    (mem : ℕ → UInt8) : Prop where
  loader : Loader.load W mem es bx = .after seg S.toNat c
  sectors : loadWord mem W.sectors = S
  size : syssize mem = size

/-- **What a run of the loop has done**, from the state after `c` sectors to the one after `N`: its
reads are sound and follow each other on the disk and in memory, and it has changed only the image,
what it works with, and the bytes of the BIOS. -/
structure Loaded (W : Workspace) (disk : ℕ → UInt8) (seg : UInt16) (S c N : ℕ)
    (mem : ℕ → UInt8) (log : List ReadReq) (mem' : ℕ → UInt8) : Prop where
  tiles : Tiles (9 + c) (log.map (ReadReq.span S)) (9 + N)
  sound : ∀ q ∈ log, q.Sound S ∧ q.dest = 16 * seg.toNat + 512 * (q.lba S - 9)
  memory : ∀ a, ¬W.Own a → mem' a = blit mem (16 * seg.toNat + 512 * c) (512 * (N - c))
    (fun i ↦ disk (512 * (9 + c) + i)) a

namespace RoundReady

variable {c : ℕ} {es bx : UInt16} {mem mem' : ℕ → UInt8}

/-- The words are still there in a memory with the same boot sector. -/
theorem congr (h : RoundReady W seg size S c es bx mem)
    (heq : ∀ a, 0x90000 ≤ a → a < 0x90200 → mem' a = mem a) :
    RoundReady W seg size S c es bx mem' := by
  have hwords := W.words
  refine ⟨(Loader.load_congr heq).trans h.loader, ?_, ?_⟩
  · exact (loadWord_congr fun i h1 h2 ↦ heq i (by omega) (by omega)).trans h.sectors
  · exact (loadWord_congr fun i h1 h2 ↦ heq i (by omega) (by omega)).trans h.size

/-- **A round stores the words of the next one.** -/
theorem advance (hlo : 9 < S.toNat) (hhi : S.toNat ≤ 63) (h : RoundReady W seg size S c es bx mem)
    {s : Loader} (hs : s = (Loader.load W mem es bx).advance (loadWord mem W.sectors)
      (UInt16.ofNat (piece S.toNat c))) :
    RoundReady W seg size S (c + piece S.toNat c) s.es s.bx (s.store W mem) := by
  have hwords := W.words
  have hs' : s = .after seg S.toNat (c + piece S.toNat c) := by
    rw [hs, h.loader, h.sectors, Loader.advance_after seg hlo hhi c]
  refine ⟨(Loader.load_store s).trans hs', ?_, ?_⟩
  · exact (loadWord_congr fun i h1 h2 ↦
      Loader.store_apply_of_outside s (by omega)).trans h.sectors
  · exact (loadWord_congr fun i h1 h2 ↦ Loader.store_apply_of_outside s (by omega)).trans h.size

end RoundReady

/-- **What one read has done**, of `p` sectors behind the first `c`: it is sound, and memory holds
them in their place. -/
structure Fetched (W : Workspace) (disk : ℕ → UInt8) (seg : UInt16) (S c p : ℕ)
    (mem : ℕ → UInt8) (q : ReadReq) (mem' : ℕ → UInt8) : Prop where
  sound : q.Sound S
  lba : q.lba S = 9 + c
  count : q.al.toNat = p
  dest : q.dest = 16 * seg.toNat + 512 * c
  memory : ∀ a, ¬W.Own a → mem' a =
    blit mem (16 * seg.toNat + 512 * c) (512 * p) (fun i ↦ disk (512 * (9 + c) + i)) a

/-- **A read in front of a run**, with its sectors in front of the others. -/
theorem Loaded.cons {N c p : ℕ} {mem mem₁ mem' : ℕ → UInt8} {q : ReadReq} {log : List ReadReq}
    (h : Loaded W disk seg S.toNat (c + p) N mem₁ log mem')
    (hq : Fetched W disk seg S.toNat c p mem q mem₁) (hle : c + p ≤ N) :
    Loaded W disk seg S.toNat c N mem (q :: log) mem' := by
  refine ⟨?_, fun q' hq' ↦ ?_, fun a ha ↦ ?_⟩
  · rw [List.map_cons]
    refine ⟨hq.lba, ?_⟩
    show Tiles (9 + c + q.al.toNat) _ _
    rw [hq.count, Nat.add_assoc]
    exact h.tiles
  · rcases List.mem_cons.1 hq' with rfl | hq'
    · exact ⟨hq.sound, by rw [hq.dest, hq.lba, Nat.add_sub_cancel_left]⟩
    · exact h.sound q' hq'
  · have hsplit : 512 * (N - c) = 512 * p + 512 * (N - (c + p)) := by omega
    have hoffset : 512 * (9 + (c + p)) = 512 * (9 + c) + 512 * p := by omega
    rw [h.memory a ha, blit_apply_congr (hq.memory a ha), Nat.mul_add 512 c p, ← Nat.add_assoc,
      hoffset, blit_blit, ← hsplit]

/-- A run of the loop that has nothing left to read. -/
theorem Loaded.refl {c : ℕ} (mem : ℕ → UInt8) : Loaded W disk seg S.toNat c c mem [] mem := by
  refine ⟨rfl, fun q hq ↦ absurd hq List.not_mem_nil, fun a _ ↦ ?_⟩
  rw [Nat.sub_self, blit_apply_of_outside (by omega)]

end run

end Dwipe

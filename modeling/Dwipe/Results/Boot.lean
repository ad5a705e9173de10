import Dwipe.Runtime.Bootsect

/-!
# What the boot sector leaves in memory

`bootsect_loads` puts the boot sector together: the setup sectors, the guess of the geometry and the
loading loop. For every program that fits below the boot sector, and every BIOS that works as long
as the bytes it keeps for itself are left alone, it ends, **each sector of the program has been read
once and in order**, no read has crossed the end of a side or a boundary of 64 kilobytes, and memory
holds the setup sectors and the program as they are on the disk. Otherwise it is as it was, but for
the sector of the trial reads, and for what the boot sector works with: its four words, its stack,
and the bytes of the BIOS.

The loop loads whole blocks of 64 kilobytes, so a program of a multiple of 64 kilobytes brings
another block along. The program has to be off the bytes of the BIOS. At the segment the source asks
for, which is assembled to 0, it is over the interrupt vectors: the result says nothing for a BIOS
that has to find them there.
-/

namespace Dwipe

open Bytes

variable {σ : Type} {F : FloppyBios σ} {W : Workspace} {disk : ℕ → UInt8}
  {live : σ → (ℕ → UInt8) → Prop}

/-! ### The way to the loop -/

theorem sound_trialReq {S : ℕ} {cl : UInt8} (hpos : 1 ≤ cl.toNat) (hS : cl.toNat ≤ S) :
    (trialReq cl).Sound S where
  some := Nat.le_refl 1
  sector := hpos
  track := by
    show cl.toNat - 1 + 1 ≤ S
    omega
  side := Nat.zero_le 1
  boundary := by
    show 0x1200 + 512 * 1 ≤ 2 ^ 16
    decide

theorem dest_trialReq (cl : UInt8) : (trialReq cl).dest = 0x91200 := by rfl

theorem al_trialReq (cl : UInt8) : 512 * (trialReq cl).al.toNat = 0x200 := by rfl

theorem off_trialReq (W : Workspace) (cl : UInt8) : W.Off (trialReq cl) := by
  intro a ha
  rw [dest_trialReq, al_trialReq]
  rcases W.apart a ha with h | h <;> omega

/-- **A trial read** stores in its sector only, whether it succeeds or not, and leaves the BIOS
alive. -/
theorem Loads.trial {S : ℕ} (hF : Loads F W S disk live) {cl : UInt8} (hpos : 1 ≤ cl.toNat)
    {b b' : σ} {mem mem' : ℕ → UInt8} {carry : Bool} (hlive : live b mem)
    (hread : F.read b (W.push (trialReq cl) mem) (trialReq cl) = (carry, b', mem'))
    (hS : carry = false → cl.toNat ≤ S) :
    live b' mem' ∧ ∀ a, ¬W.bios a → ¬W.Stack a → a < 0x91200 ∨ 0x91400 ≤ a → mem' a = mem a := by
  have hpush := hF.live_push hlive (trialReq cl)
  have hbound : (trialReq cl).bx.toNat + 512 * (trialReq cl).al.toNat ≤ 2 ^ 16 := by
    have hbx : (trialReq cl).bx.toNat = 0x1200 := by rfl
    rw [hbx, al_trialReq]
    decide
  have hafter := hF.live_read _ _ (trialReq cl) hpush hbound (off_trialReq W cl)
  rw [hread] at hafter
  refine ⟨hafter, fun a ha hs hout ↦ ?_⟩
  cases carry with
  | false =>
    have hsound := sound_trialReq hpos (hS rfl)
    rw [hF.good _ _ _ b' mem' hpush hsound (off_trialReq W cl) hread a ha hs, dest_trialReq,
      al_trialReq, blit_apply_of_outside hout, W.push_apply hs]
  | true =>
    have hbuffer : a < (trialReq cl).dest ∨
        (trialReq cl).dest + 512 * (trialReq cl).al.toNat ≤ a := by
      rw [dest_trialReq, al_trialReq]
      exact hout
    rw [hF.bad _ _ _ b' mem' hpush hbound (off_trialReq W cl) hread a ha hs hbuffer,
      W.push_apply hs]

/-- **The guess of the geometry** stores in the sector of the trial reads only, if it is right, and
leaves the BIOS alive. -/
theorem Loads.probe {S : UInt16} (hF : Loads F W S.toNat disk live) {b : σ} {mem : ℕ → UInt8}
    (hlive : live b mem) (hS : (probeSectors F W b mem).1 = S) :
    live (probeSectors F W b mem).2.1 (probeSectors F W b mem).2.2 ∧
      ∀ a, ¬W.bios a → ¬W.Stack a → a < 0x91200 ∨ 0x91400 ≤ a →
        (probeSectors F W b mem).2.2 a = mem a := by
  rw [probeSectors] at hS ⊢
  match h18 : F.read b (W.push (trialReq 0x12) mem) (trialReq 0x12) with
  | (false, b₁, mem₁) =>
    rw [h18] at hS
    obtain rfl : 0x12 = S := hS
    exact hF.trial (by decide) hlive h18 fun _ ↦ by decide
  | (true, b₁, mem₁) =>
    rw [h18] at hS
    obtain ⟨hlive₁, hfirst⟩ := hF.trial (by decide) hlive h18 fun h ↦ absurd h.symm
      Bool.false_ne_true
    match h15 : F.read b₁ (W.push (trialReq 0x0f) mem₁) (trialReq 0x0f) with
    | (false, b₂, mem₂) =>
      simp only [h15] at hS ⊢
      obtain rfl : 0x0f = S := hS
      obtain ⟨hlive₂, hsecond⟩ := hF.trial (by decide) hlive₁ h15 fun _ ↦ by decide
      exact ⟨hlive₂, fun a ha hs hout ↦ by rw [hsecond a ha hs hout, hfirst a ha hs hout]⟩
    | (true, b₂, mem₂) =>
      simp only [h15] at hS ⊢
      obtain ⟨hlive₂, hsecond⟩ := hF.trial (by decide) hlive₁ h15 fun h ↦ absurd h.symm
        Bool.false_ne_true
      exact ⟨hlive₂, fun a ha hs hout ↦ by rw [hsecond a ha hs hout, hfirst a ha hs hout]⟩

/-- The bytes around the boot sector are neither the BIOS's nor on the stack. -/
theorem Workspace.free (W : Workspace) {a : ℕ} (hlo : 0x90000 ≤ a) (hhi : a < 0x91400) :
    ¬W.bios a ∧ ¬W.Stack a := by
  have hstack := W.stack
  refine ⟨fun h ↦ ?_, fun h ↦ ?_⟩
  · rcases W.apart a h with h | h <;> omega
  · rw [Workspace.Stack] at h
    omega

/-- The memory when `read_it` is called, with what the setup read and the guess have left. -/
def prepared (F : FloppyBios σ) (W : Workspace) (r : σ × (ℕ → UInt8)) : ℕ → UInt8 :=
  storeLE (probeSectors F W r.1 r.2).2.2 W.sectors 2 (probeSectors F W r.1 r.2).1.toNat

/-- **What has been done when `read_it` is called**: the setup sectors are in memory, the word at
`sectors` is right, the BIOS is alive, and nothing else has changed but the sector of the trial
reads and the stack. -/
structure Prepared (F : FloppyBios σ) (W : Workspace) (S : UInt16) (disk : ℕ → UInt8)
    (live : σ → (ℕ → UInt8) → Prop) (mem : ℕ → UInt8) (r : σ × (ℕ → UInt8)) : Prop where
  live : live (probeSectors F W r.1 r.2).2.1 (prepared F W r)
  sectors : loadWord (prepared F W r) W.sectors = S
  setup : ∀ i < 512 * 8, prepared F W r (0x90200 + i) = disk (512 + i)
  kept : ∀ a, ¬W.bios a → ¬W.Stack a → a < W.sectors ∨ W.sectors + 2 ≤ a →
    a < 0x90200 ∨ 0x91400 ≤ a → prepared F W r a = mem a

/-- The loop begins with the words as they are assembled. -/
theorem Prepared.ready {S seg : UInt16} {mem : ℕ → UInt8} {r : σ × (ℕ → UInt8)}
    (h : Prepared F W S disk live mem r) (hlo : 9 < S.toNat)
    (hstart : Loader.load W mem seg 0 = .start seg) :
    RoundReady W seg (syssize mem) S 0 seg 0 (prepared F W r) := by
  have hwords := W.words
  have hbyte (a : ℕ) (hlo : 0x90000 ≤ a) (hhi : a < 0x90200)
      (hw : a < W.sectors ∨ W.sectors + 2 ≤ a) : prepared F W r a = mem a := by
    obtain ⟨hbios, hs⟩ := W.free hlo (by omega)
    exact h.kept a hbios hs hw (Or.inl hhi)
  have hword {a : ℕ} (h1 : W.sread ≤ a) (h2 : a ≤ W.sread + 4) :
      loadWord (prepared F W r) a = loadWord mem a :=
    loadWord_congr fun i h3 h4 ↦ hbyte i (by omega) (by omega) (by omega)
  refine ⟨?_, h.sectors, loadWord_congr fun i h1 h2 ↦ hbyte i (by omega) (by omega) (by omega)⟩
  rw [← Loader.start_eq seg hlo, ← hstart, Loader.load, Loader.load,
    hword (Nat.le_refl _) (by omega),
    hword (by rw [Workspace.head]; omega) (by rw [Workspace.head]; omega),
    hword (by rw [Workspace.track]; omega) (by rw [Workspace.track])]

/-! ### The boot sector -/

end Dwipe

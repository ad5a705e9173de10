import Dwipe.Wipe.Runs

/-!
# What is written

Two questions about the payloads of the write requests.

Across the two branches of `wipe_sectors_lba`: the branches are copies of each other, except that
the fast mode of the CHS branch does not fill the buffer. So they send the same payloads in the
multi-pass modes, and in the fast mode **only** when the buffer happens to hold zeros
(`same_payloads_iff`).

Along a whole run in the extended addressing: `option.h` documents which payloads each mode writes
to a sector, and in which order. The fast and the three-pass mode do that; the paranoid mode fills
all four passes from `rand` (`pass_sequence_iff`).
-/

namespace Dwipe

variable {σ : Type} {env : Env σ} {opt : Options}

/-- The BIOS accepts every request, so a run is not cut short by an answer. -/
def Accepts (env : Env σ) : Prop := ∀ b q, (env.int13 b q).carry = false

theorem accepts_obliging (heap : ℕ → UInt8) : Accepts (obliging heap) := fun _ _ ↦ rfl

/-- The payloads of the write requests of a trace, in order. -/
def payloads (l : List Event) : List (List UInt8) := (writes l).map Write.payload

/-! ### The two branches -/

section branches

variable {param : DiskParam} {offset : UInt64} {n size : UInt32} {buffer : Buffer}

theorem payloads_of_refused (h : callRefused opt param offset n size) (m : Machine σ) :
    payloads (wipeSectorsLba env opt param offset n buffer size m).events = [] := by
  have hd : Declined (wipeSectorsLba env opt param offset n buffer size m) :=
    wipeSectorsLba_declined h buffer m
  rw [payloads, writes_of_exchanges_nil hd.exchanges, List.map_nil]

/-- The payloads of an accepted call, as the BIOS receives them. -/
theorem payloads_of_accepted (htest : opt.test = false) (hp : isCdrom param = 0)
    (h : ¬callRefused opt param offset n size) (m : Machine σ) :
    payloads (wipeSectorsLba env opt param offset n buffer size m).events =
      (List.range (passes opt)).map fun i ↦
        payloadOf (sentByte opt param buffer.byte size.toNat m.randNext i) n.toNat := by
  have hrun : CallRun opt param buffer size.toNat m.randNext _
      (wipeSectorsLba env opt param offset n buffer size m) :=
    wipeSectorsLba_issued hp h buffer m
  obtain ⟨target, htarget⟩ := aimedAt_isSome h
  rw [payloads, hrun.writes, callWrites, htest, if_neg (by simp), htarget, Option.toList_some,
    List.flatMap_singleton, passWrites, List.map_map]
  rfl

theorem payloads_ne_nil (htest : opt.test = false) (hp : isCdrom param = 0)
    (h : ¬callRefused opt param offset n size) (m : Machine σ) :
    payloads (wipeSectorsLba env opt param offset n buffer size m).events ≠ [] := by
  rw [payloads_of_accepted htest hp h]
  have hpos := passes_pos opt
  simp only [ne_eq, List.map_eq_nil_iff, List.range_eq_nil]
  omega

theorem payloadOf_inj {f g : ℕ → UInt8} {k : ℕ} :
    payloadOf f k = payloadOf g k ↔ ∀ j < 512 * k, f j = g j := by
  rw [payloadOf, payloadOf, List.map_inj_left]
  simp only [List.mem_range]

/-- What the passes of the two branches send, compared byte by byte. -/
theorem sent_eq_iff {p₁ p₂ : DiskParam} (h₁ : p₁.hasExt ≠ 0) (h₂ : p₂.hasExt = 0)
    (byte : ℕ → UInt8) (sz : ℕ) (r : UInt64) (k : ℕ) :
    (∀ i < passes opt, ∀ j < 512 * k,
      sentByte opt p₁ byte sz r i j = sentByte opt p₂ byte sz r i j) ↔
      (opt.mode = .fast → ∀ j < 512 * k, byte j = 0) := by
  by_cases hmode : opt.mode = .fast
  · have hone : passes opt = 1 := by rw [passes, if_pos hmode]
    constructor
    · intro h _ j hj
      have hj' := h 0 (by omega) j hj
      simpa [sentByte, h₁, h₂, hmode, passByte] using hj'.symm
    · intro h i hi j hj
      obtain rfl : i = 0 := by omega
      simp [sentByte, h₁, h₂, hmode, passByte, h hmode j hj]
  · simp [sentByte, hmode]

end branches

/-- The has-extensions branch on `p₁` and the CHS branch on `p₂` hand the same payloads to every
BIOS that accepts them, from the same buffer and the same state of `rand`. -/
def SamePayloads (opt : Options) (p₁ p₂ : DiskParam) (offset : UInt64) (n : UInt32)
    (buffer : Buffer) (size : UInt32) : Prop :=
  ∀ (σ : Type) (env : Env σ) (m₁ m₂ : Machine σ), Accepts env → m₁.randNext = m₂.randNext →
    payloads (wipeSectorsLba env opt p₁ offset n buffer size m₁).events =
      payloads (wipeSectorsLba env opt p₂ offset n buffer size m₂).events

/-- A call both branches accept, in the fast mode, from a buffer that does not hold zeros. -/
theorem not_samePayloads {p₁ p₂ : DiskParam} {offset : UInt64} {n size : UInt32}
    {buffer : Buffer} (htest : opt.test = false) (h₁ : p₁.hasExt ≠ 0) (hp : isCdrom p₁ = 0)
    (h₂ : p₂.hasExt = 0) (ha₁ : ¬callRefused opt p₁ offset n size)
    (ha₂ : ¬callRefused opt p₂ offset n size) (hmode : opt.mode = .fast)
    (hbyte : ∃ j < 512 * n.toNat, buffer.byte j ≠ 0) :
    ¬SamePayloads opt p₁ p₂ offset n buffer size := by
  intro h
  have hp₂ : isCdrom p₂ = 0 := isCdrom_eq_zero_iff.2 fun hne ↦ absurd h₂ hne
  have heq := h Unit (obliging fun _ ↦ 0) (Machine.fresh () 1) (Machine.fresh () 1)
    (accepts_obliging _) rfl
  rw [payloads_of_accepted htest hp ha₁, payloads_of_accepted htest hp₂ ha₂,
    List.map_inj_left] at heq
  simp only [List.mem_range, payloadOf_inj] at heq
  obtain ⟨j, hj, hne⟩ := hbyte
  exact hne ((sent_eq_iff h₁ h₂ _ _ _ _).1 heq hmode j hj)

/-- **The two branches of `wipe_sectors_lba` send the same payloads** when both refuse the call, or
both accept it and, in the fast mode, the buffer holds zeros where it is sent. -/
theorem same_payloads_iff (opt : Options) (p₁ p₂ : DiskParam) (offset : UInt64) (n : UInt32)
    (buffer : Buffer) (size : UInt32) (htest : opt.test = false) (h₁ : p₁.hasExt ≠ 0)
    (hp : isCdrom p₁ = 0) (h₂ : p₂.hasExt = 0) :
    SamePayloads opt p₁ p₂ offset n buffer size ↔
      callRefused opt p₁ offset n size ∧ callRefused opt p₂ offset n size ∨
      ¬callRefused opt p₁ offset n size ∧ ¬callRefused opt p₂ offset n size ∧
        (opt.mode = .fast → ∀ j < 512 * n.toNat, buffer.byte j = 0) := by
  have hp₂ : isCdrom p₂ = 0 := isCdrom_eq_zero_iff.2 fun hne ↦ absurd h₂ hne
  constructor
  · intro h
    have heq := h Unit (obliging fun _ ↦ 0) (Machine.fresh () 1) (Machine.fresh () 1)
      (accepts_obliging _) rfl
    by_cases ha₁ : callRefused opt p₁ offset n size
    · by_cases ha₂ : callRefused opt p₂ offset n size
      · exact Or.inl ⟨ha₁, ha₂⟩
      · rw [payloads_of_refused ha₁] at heq
        exact absurd heq.symm (payloads_ne_nil htest hp₂ ha₂ _)
    · by_cases ha₂ : callRefused opt p₂ offset n size
      · rw [payloads_of_refused ha₂] at heq
        exact absurd heq (payloads_ne_nil htest hp ha₁ _)
      · refine Or.inr ⟨ha₁, ha₂, fun hmode j hj ↦ ?_⟩
        by_contra hne
        exact not_samePayloads htest h₁ hp h₂ ha₁ ha₂ hmode ⟨j, hj, hne⟩ h
  · rintro (⟨ha₁, ha₂⟩ | ⟨ha₁, ha₂, hzero⟩) σ env m₁ m₂ - hrand
    · rw [payloads_of_refused ha₁, payloads_of_refused ha₂]
    · rw [payloads_of_accepted htest hp ha₁, payloads_of_accepted htest hp₂ ha₂, hrand,
        List.map_inj_left]
      intro i hi
      rw [payloadOf_inj]
      exact (sent_eq_iff h₁ h₂ _ _ _ _).2 hzero i (List.mem_range.1 hi)

theorem not_callRefused_sector :
    ¬callRefused Options.plain (DiskParam.ofSectors 1) 0 1 wipeBufferSize ∧
      ¬callRefused Options.plain (DiskParam.ofGeometry 0 0 1) 0 1 wipeBufferSize := by
  refine ⟨?_, fun h ↦ ?_⟩
  · show ¬lbaRefused true (DiskParam.ofSectors 1) 0 1 wipeBufferSize
    decide
  · exact absurd (h ⟨0, 0, 1⟩ (by decide)) (by decide)

/-- One sector of a zeroed buffer: the branches agree. -/
theorem same_payloads_of_zeros :
    SamePayloads Options.plain (DiskParam.ofSectors 1) (DiskParam.ofGeometry 0 0 1) 0 1
      ⟨8192, fun _ ↦ 0⟩ wipeBufferSize :=
  (same_payloads_iff _ _ _ _ _ _ _ rfl (by decide) (by decide) (by decide)).2
    (Or.inr ⟨not_callRefused_sector.1, not_callRefused_sector.2, fun _ _ _ ↦ rfl⟩)

/-- One sector of a buffer of `55h`: the CHS branch sends it as it is. -/
theorem payloads_differ_on_used_buffer :
    ¬SamePayloads Options.plain (DiskParam.ofSectors 1) (DiskParam.ofGeometry 0 0 1) 0 1
      ⟨8192, fun _ ↦ 0x55⟩ wipeBufferSize :=
  not_samePayloads rfl (by decide) (by decide) (by decide) not_callRefused_sector.1
    not_callRefused_sector.2 rfl ⟨0, by decide, by decide⟩

/-! ### The documented sequence -/

/-- **What `option.h` says a mode writes to a sector**, in order. -/
def Documented : WipeMode → List (List UInt8) → Prop
  | .fast, ws => ws = [List.replicate 512 0]
  | .dod, ws => ws = [List.replicate 512 0, List.replicate 512 0xFF, List.replicate 512 0]
  | .ocd, ws => ∃ r, ws = [List.replicate 512 0, List.replicate 512 0xFF, List.replicate 512 0,
      (List.range 512).map (randByte r)]

/-- Every sector of the disk receives the documented sequence, in every run that gets to the wipe
loop with a BIOS that accepts every request. -/
def SequenceKept (opt : Options) (param : DiskParam) : Prop :=
  ∀ (σ : Type) (env : Env σ) (m : Machine σ) (byte : ℕ → UInt8), Accepts env →
    Starts env opt param m byte → ∀ s < param.ext.nsectors.toNat,
      Documented opt.mode (writtenTo s (writes (wipeDisk env opt param m).events))

section sequence

variable {param : DiskParam} {m : Machine σ} {byte : ℕ → UInt8} {s : ℕ}

/-- Beyond the end of the tiling a sector receives nothing. -/
theorem writtenTo_nil (h : Starts env opt param m byte) (hext : param.hasExt ≠ 0)
    (htest : opt.test = false) (hs : s < param.ext.nsectors.toNat)
    (hend : (totalSec opt param).toNat % 2 ^ 55 ≤ s) :
    writtenTo s (writes (wipeDisk env opt param m).events) = [] := by
  rw [writtenTo, h.sectorWrites_eq hext htest hs,
    sectorWrites_plan_nil hext htest h.not_cdrom _ _ _ hend, List.map_nil]

/-- **What a sector receives**: one payload a pass, of the call that covers it. -/
theorem writtenTo_eq (h : Starts env opt param m byte) (hext : param.hasExt ≠ 0)
    (htest : opt.test = false) (hs : s < param.ext.nsectors.toNat)
    (hend : s < (totalSec opt param).toNat % 2 ^ 55) :
    ∃ l₁ p l₂, spans (totalSec opt param).toNat = l₁ ++ p :: l₂ ∧ (∀ q ∈ l₁, ¬q.Covers s) ∧
      writtenTo s (writes (wipeDisk env opt param m).events) =
        (List.range (passes opt)).map fun i ↦ (List.range 512).map fun j ↦
          passByte opt wipeBufferSize.toNat (runRand opt m.randNext (l₁.map spanCall)) i
            (512 * (s - p.start) + j) := by
  obtain ⟨l₁, p, l₂, hl, hc, h1, hsector⟩ :=
    sectorWrites_plan hext htest h.not_cdrom env.mbrBin byte m.randNext hend
  have hp : p ∈ spans (totalSec opt param).toNat := by simp [hl]
  refine ⟨l₁, p, l₂, hl, h1, ?_⟩
  rw [writtenTo, h.sectorWrites_eq hext htest hs, hsector, passWrites, List.map_map]
  refine List.map_congr_left fun i _ ↦ ?_
  exact sector_spanTarget (totalSec opt param).toNat_lt hp hc

theorem map_range_const (v : UInt8) : ((List.range 512).map fun _ ↦ v) = List.replicate 512 v := by
  rw [List.map_const', List.length_range]

/-- The fast and the three-pass mode keep to the documentation. -/
theorem documented_passes (hmode : opt.mode ≠ .ocd) (size : ℕ) (r : UInt64) (d : ℕ) :
    Documented opt.mode ((List.range (passes opt)).map fun i ↦ (List.range 512).map fun j ↦
      passByte opt size r i (d + j)) := by
  cases hm : opt.mode with
  | ocd => exact absurd hm hmode
  | fast =>
    have hp : passes opt = 1 := by simp [passes, hm]
    have hbyte (j : ℕ) : passByte opt size r 0 j = 0 := by simp [passByte, hm]
    simp only [Documented, hp, List.range_one, List.map_singleton, hbyte, map_range_const]
  | dod =>
    have hp : passes opt = 3 := by simp [passes, passCount, hm]
    have hrange : List.range 3 = [0, 1, 2] := rfl
    have h0 (j : ℕ) : passByte opt size r 0 j = 0 := by simp [passByte, hm]
    have h1 (j : ℕ) : passByte opt size r 1 j = 0xFF := by simp [passByte, hm]
    have h2 (j : ℕ) : passByte opt size r 2 j = 0 := by simp [passByte, hm]
    simp only [Documented, hp, hrange, List.map_cons, List.map_nil, h0, h1, h2, map_range_const]

/-- Every documented sequence begins with zeros, which is where the four-pass mode fails it. -/
theorem Documented.head? {mode : WipeMode} {ws : List (List UInt8)} (h : Documented mode ws) :
    ws.head? = some (List.replicate 512 0) := by
  cases mode with
  | fast =>
    obtain rfl := h
    rfl
  | dod =>
    obtain rfl := h
    rfl
  | ocd =>
    obtain ⟨r, rfl⟩ := h
    rfl

/-- Sector 0 is covered by the first call, if by any. -/
theorem eq_nil_of_not_covers {T : ℕ} (hT : 0 < T % 2 ^ 55) {l₁ l₂ : List Span} {p : Span}
    (hl : spans T = l₁ ++ p :: l₂) (h1 : ∀ q ∈ l₁, ¬q.Covers 0) : l₁ = [] ∧ p.start = 0 := by
  have htiles := tiles_spans T
  rw [hl] at htiles
  cases l₁ with
  | nil => exact ⟨rfl, htiles.1⟩
  | cons q l₁ =>
    have hstart : q.start = 0 := htiles.1
    have hlen : 0 < q.len := len_pos_of_mem_spans (by simp [hl]) hstart hT
    exact absurd ⟨by omega, by omega⟩ (h1 q List.mem_cons_self)

/-- The first byte a fresh machine sends in the paranoid mode is drawn from `rand`. -/
theorem not_documented_ocd (hmode : opt.mode = .ocd) (hext : param.hasExt ≠ 0)
    (hp : isCdrom param = 0) (htest : opt.test = false) (hN : 0 < param.ext.nsectors.toNat) :
    ¬Documented opt.mode (writtenTo 0 (writes (wipeDisk (obliging fun _ ↦ 0) opt param
      (Machine.fresh () 1)).events)) := by
  intro h
  have hstart : Starts (obliging fun _ ↦ 0) opt param (Machine.fresh () 1) fun _ ↦ 0 :=
    starts_obliging rfl hp rfl
  by_cases hend : (totalSec opt param).toNat % 2 ^ 55 ≤ 0
  · rw [writtenTo_nil hstart hext htest hN hend] at h
    exact Option.some_ne_none _ h.head?.symm
  · obtain ⟨l₁, p, l₂, hl, h1, heq⟩ := writtenTo_eq hstart hext htest hN (by omega)
    obtain ⟨rfl, hp0⟩ := eq_nil_of_not_covers (by omega) hl h1
    have hhead := h.head?
    obtain ⟨k, hk⟩ : ∃ k, passes opt = k + 1 := ⟨passes opt - 1, by have := passes_pos opt; omega⟩
    rw [heq, hk, List.head?_map, List.head?_range, if_neg (by omega), Option.map_some,
      Option.some_inj] at hhead
    have hbyte := congrArg (fun l ↦ l[0]?) hhead
    simp only [List.getElem?_map, List.getElem?_range (show 0 < 512 by decide),
      List.getElem?_replicate, Option.map_some] at hbyte
    have hrand : passByte opt wipeBufferSize.toNat 1 0 0 = 0x2D := by
      simp only [passByte, hmode, if_true]
      decide
    have hzero : passByte opt wipeBufferSize.toNat 1 0 0 = 0 := by
      simpa [hp0, runRand, Machine.fresh] using hbyte
    rw [hrand] at hzero
    exact absurd hzero (by decide)

/-- The sector count the wipe of a drive with extensions is sized by. -/
theorem totalSec_of_ext (hext : param.hasExt ≠ 0) :
    totalSec opt param =
      if opt.forceChs then UInt64.ofInt (wrapInt (geometrySectors param))
      else param.ext.nsectors := by
  cases hforce : opt.forceChs with
  | true => simp [totalSec, hforce]
  | false => simp [totalSec, hforce, hext]

end sequence

/-- **The documented sequence is written** to every sector unless the mode is the paranoid one, or
the count the wipe is sized by does not reach the end of the disk. -/
theorem pass_sequence_iff (opt : Options) (param : DiskParam) (hext : param.hasExt ≠ 0)
    (hp : isCdrom param = 0) (htest : opt.test = false) :
    SequenceKept opt param ↔ param.ext.nsectors = 0 ∨
      opt.mode ≠ .ocd ∧ param.ext.nsectors.toNat ≤
        (if opt.forceChs then UInt64.ofInt (wrapInt (geometrySectors param))
          else param.ext.nsectors).toNat % 2 ^ 55 := by
  rw [← totalSec_of_ext hext]
  constructor
  · intro h
    by_cases hN : param.ext.nsectors = 0
    · exact Or.inl hN
    have hpos : 0 < param.ext.nsectors.toNat := by
      have hne : param.ext.nsectors.toNat ≠ 0 := fun h0 ↦ hN (UInt64.toNat_inj.1 h0)
      omega
    have hstart : Starts (obliging fun _ ↦ 0) opt param (Machine.fresh () 1) fun _ ↦ 0 :=
      starts_obliging rfl hp rfl
    have hkept := h Unit (obliging fun _ ↦ 0) _ _ (accepts_obliging _) hstart
    refine Or.inr ⟨fun hmode ↦ ?_, ?_⟩
    · exact not_documented_ocd hmode hext hp htest hpos (hkept 0 hpos)
    · by_contra hlt
      have hdoc := hkept ((totalSec opt param).toNat % 2 ^ 55) (by omega)
      rw [writtenTo_nil hstart hext htest (by omega) le_rfl] at hdoc
      exact Option.some_ne_none _ hdoc.head?.symm
  · rintro (h0 | ⟨hmode, hle⟩) σ env m byte - hstart s hs
    · rw [h0] at hs
      exact absurd hs (Nat.not_lt_zero s)
    · obtain ⟨l₁, p, l₂, -, -, heq⟩ := writtenTo_eq hstart hext htest hs (by omega)
      rw [heq]
      exact documented_passes hmode _ _ _

/-- Seventeen sectors in the three-pass mode. -/
theorem pass_sequence_dod :
    SequenceKept { Options.plain with mode := .dod } (DiskParam.ofSectors 17) :=
  (pass_sequence_iff _ _ (by decide) (by decide) rfl).2 (Or.inr ⟨by decide, by decide⟩)

/-- One sector in the paranoid mode: the first pass sends `2Dh` where `00h` is documented. -/
theorem pass_sequence_fails_on_ocd :
    ¬SequenceKept { Options.plain with mode := .ocd } (DiskParam.ofSectors 1) := by
  intro h
  refine not_documented_ocd rfl (by decide) (by decide) rfl (by decide)
    (h Unit (obliging fun _ ↦ 0) (Machine.fresh () 1) (fun _ ↦ 0) (accepts_obliging _) ?_ 0
      (by decide))
  exact starts_obliging rfl (by decide) rfl

end Dwipe

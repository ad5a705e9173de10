import Dwipe.Runtime.CpuType
import Mathlib.Data.Int.Lemmas
import Mathlib.Tactic.Common

/-!
# When the clock rate is valid

`get_timer_offset_usec` divides by `extclock`, which `cpu_type` sets at its end. Two things go
wrong on the way there.

* Some branches of the case tree return **before the calibration**, and `extclock` stays 0. The
  first reading of the clock, in `timer_init`, then divides by zero.
* `cpuspeed` answers -1 for a calibration that is not credible. The test for it compares an
  **unsigned** variable with 0, so the answer is rounded like any other and becomes 499 kHz.

`rate_valid_iff` says for which processors and which calibrations neither happens: the leaves of
the tree that return early are listed in `ReachesCalibration`, and what the calibration must
measure is `Credible`.
-/

namespace Dwipe

/-! ### The leaves of the tree -/

/-- What a branch does: it goes on exactly if `p` holds, and then `tsc_invariable` says `q`. -/
def Leads (p q : Prop) (r : Except CpuInfo CpuInfo) : Prop :=
  (p ∧ ∃ g, r = .ok g ∧ (g.tscInvariable = true ↔ q)) ∨ (¬p ∧ ∃ g, r = .error g)

theorem Leads.ok {p q : Prop} (hp : p) {g : CpuInfo} (hg : g.tscInvariable = true ↔ q) :
    Leads p q (.ok g) :=
  .inl ⟨hp, g, rfl, hg⟩

theorem Leads.error {p q : Prop} (hp : ¬p) {g : CpuInfo} : Leads p q (.error g) :=
  .inr ⟨hp, g, rfl⟩

theorem Leads.congr {p p' q q' : Prop} {r : Except CpuInfo CpuInfo} (h : Leads p q r)
    (hp : p ↔ p') (hq : q ↔ q') : Leads p' q' r := by
  rw [Leads, ← hp, ← hq]
  exact h

section branches

variable (id : CpuIdent) (g : CpuInfo)

theorem amdK5_tscInvariable : (amdK5 id g).tscInvariable = g.tscInvariable := by
  unfold amdK5
  split <;> rfl

theorem amdK7_tscInvariable : (amdK7 id g).tscInvariable = g.tscInvariable := by
  unfold amdK7
  dsimp only
  split <;> rfl

theorem amdK8_tscInvariable : (amdK8 id g).tscInvariable = g.tscInvariable := by
  unfold amdK8
  dsimp only
  split
  · rfl
  · split <;> rfl

theorem transmeta_tscInvariable : (transmeta id g).tscInvariable = g.tscInvariable := by
  unfold transmeta
  dsimp only
  split <;> rfl

theorem pentium_tscInvariable : (pentium id g).tscInvariable = g.tscInvariable := by
  unfold pentium
  split <;> rfl

theorem netburst_tscInvariable : (netburst id g).tscInvariable = g.tscInvariable := by
  unfold netburst
  split <;> rfl

theorem centaur_tscInvariable : (centaur id g).tscInvariable = g.tscInvariable := by
  unfold centaur
  dsimp only
  split
  · rfl
  · split <;> rfl
  · rfl

theorem cyrix6_tscInvariable : (cyrix6 id g).tscInvariable = g.tscInvariable := by
  unfold cyrix6
  dsimp only
  split <;> rfl

/-- **No cache descriptor touches `tsc_invariable`.** -/
theorem cacheCode_tscInvariable (c : UInt8) :
    (cacheCode g c).tscInvariable = g.tscInvariable := by
  have hrows : ∀ row ∈ cacheCodes, (row.2 g).tscInvariable = g.tscInvariable := by
    simp [cacheCodes]
  unfold cacheCode
  split
  · next row hrow => exact hrows row (List.mem_of_find?_eq_some hrow)
  · rfl

theorem dcacheLevel_tscInvariable (i : Fin 4) :
    (dcacheLevel id g i).tscInvariable = g.tscInvariable := by
  unfold dcacheLevel
  dsimp only
  split
  · split <;> rfl
  · rfl
  · rfl
  · rfl

/-- A loop over the caches keeps what each of its rounds keeps. -/
theorem foldl_tscInvariable {α : Type} (f : CpuInfo → α → CpuInfo)
    (hf : ∀ g a, (f g a).tscInvariable = g.tscInvariable) (l : List α) :
    (l.foldl f g).tscInvariable = g.tscInvariable := by
  induction l generalizing g with
  | nil => rfl
  | cons a l ih => rw [List.foldl_cons, ih, hf]

theorem intelCaches_tscInvariable : (intelCaches id g).tscInvariable = g.tscInvariable := by
  have hcodes := foldl_tscInvariable g cacheCode cacheCode_tscInvariable
    ((List.finRange 16).map id.cacheInfo)
  unfold intelCaches
  dsimp only
  split
  · rw [foldl_tscInvariable _ _ (dcacheLevel_tscInvariable id), hcodes]
  · exact hcodes

/-- **Intel's type 6 alone sets `tsc_invariable`**, for the models of `InvariableModel`. -/
theorem p6_tscInvariable (hg : g.tscInvariable = false) :
    (p6 id g).tscInvariable = true ↔ InvariableModel id := by
  have hno {g' : CpuInfo} (h : g'.tscInvariable = g.tscInvariable) (hmodel : ¬InvariableModel id) :
      g'.tscInvariable = true ↔ InvariableModel id := by
    refine iff_of_false ?_ hmodel
    rw [h, hg]
    exact Bool.false_ne_true
  -- the models in the order of the source; some look at the extended model
  unfold p6
  split
  · next hmodel => exact hno rfl (by simp [InvariableModel, hmodel])
  · next hmodel => exact hno rfl (by simp [InvariableModel, hmodel])
  · next hmodel => exact hno rfl (by simp [InvariableModel, hmodel])
  · next hmodel =>
    split
    · split
      · next hext => exact iff_of_true rfl (by simp [InvariableModel, hmodel, hext])
      · next hext => exact hno rfl (by simp [InvariableModel, hmodel, hext])
    · next hext =>
      have hzero : id.extModel = 0 := not_not.1 hext
      exact hno rfl (by simp [InvariableModel, hmodel, hzero])
  · next hmodel => exact hno rfl (by simp [InvariableModel, hmodel])
  · next hmodel =>
    split
    · next hext => exact iff_of_true rfl (by simp [InvariableModel, hmodel, hext])
    · next hext => exact hno rfl (by simp [InvariableModel, hmodel, hext])
  · next hmodel =>
    split
    · next hext => exact iff_of_true rfl (by simp [InvariableModel, hmodel, hext])
    · next hext => exact hno rfl (by simp [InvariableModel, hmodel, hext])
  · next hmodel =>
    split
    · next hext => exact iff_of_true rfl (by simp [InvariableModel, hmodel, hext])
    · next hext => exact hno rfl (by simp [InvariableModel, hmodel, hext])
  · next hmodel => exact hno rfl (by simp [InvariableModel, hmodel])
  · next hmodel =>
    split
    · next hext =>
      have hmodel' : InvariableModel id := by simp [InvariableModel, hmodel, hext]
      split
      · exact iff_of_true rfl hmodel'
      · exact iff_of_true rfl hmodel'
    · next hext => exact hno rfl (by simp [InvariableModel, hmodel, hext])
  · next hmodel =>
    split
    · next hext => exact iff_of_true rfl (by simp [InvariableModel, hmodel, hext])
    · next hext => exact hno rfl (by simp [InvariableModel, hmodel, hext])
  · next hmodel => exact hno rfl (by simp [InvariableModel, hmodel])
  · next hmodel =>
    split
    · next hext => exact iff_of_true rfl (by simp [InvariableModel, hmodel, hext])
    · next hext => exact hno rfl (by simp [InvariableModel, hmodel, hext])
  · next hmodel => exact iff_of_true rfl (by simp [InvariableModel, hmodel])
  · next h5 _ h7 h8 h11 _ h10 h12 _ h14 h15 =>
    refine hno rfl ?_
    rintro (⟨h | h, -⟩ | ⟨h | h | h | h | h, -⟩ | h)
    exacts [h5 h, h12 h, h7 h, h8 h, h10 h, h11 h, h14 h, h15 h]

end branches

/-! ### The branches by vendor -/

section vendors

variable (id : CpuIdent) {g : CpuInfo} (hg : g.tscInvariable = false)

include hg

theorem not_invariable {g' : CpuInfo} (h : g'.tscInvariable = g.tscInvariable) :
    g'.tscInvariable = true ↔ False := by
  rw [h, hg]
  exact iff_of_false Bool.false_ne_true id

theorem amd_leads : Leads (id.type.toInt ≠ 4) False (amd id g) := by
  unfold amd
  split
  · next htype => exact .error (not_not_intro htype)
  · next htype => exact .ok (by omega) (not_invariable hg (amdK5_tscInvariable id g))
  · next htype => exact .ok (by omega) (not_invariable hg (amdK7_tscInvariable id g))
  · next htype => exact .ok (by omega) (not_invariable hg (amdK8_tscInvariable id g))
  · next htype _ _ _ => exact .ok htype (not_invariable hg rfl)

theorem intelOrTransmeta_leads :
    Leads (id.vendId 7 ≠ 0x54 → id.type.toInt ≠ 4)
      (id.vendId 7 ≠ 0x54 ∧ id.type.toInt = 6 ∧ InvariableModel id) (intelOrTransmeta id g) := by
  have hcaches := intelCaches_tscInvariable id g
  unfold intelOrTransmeta
  split_ifs with hvendor htype
  · refine .ok (absurd hvendor) ?_
    rw [not_invariable hg (transmeta_tscInvariable id g)]
    exact iff_of_false not_false fun h ↦ h.1 hvendor
  · exact .error fun h ↦ h hvendor htype
  · split <;> refine .ok (fun _ ↦ htype) ?_
    · next hfive =>
      rw [not_invariable hg ((pentium_tscInvariable id _).trans hcaches)]
      exact iff_of_false not_false fun h ↦ by omega
    · next hsix =>
      rw [p6_tscInvariable id _ (hcaches.trans hg)]
      exact ⟨fun h ↦ ⟨hvendor, hsix, h⟩, fun h ↦ h.2.2⟩
    · next hfifteen =>
      rw [not_invariable hg ((netburst_tscInvariable id _).trans hcaches)]
      exact iff_of_false not_false fun h ↦ by omega
    · next _ hsix _ =>
      rw [not_invariable hg hcaches]
      exact iff_of_false not_false fun h ↦ hsix h.2.1

theorem viaOrCyrix_leads :
    Leads (id.vendId 1 ≠ 0x65 → id.type.toInt ≠ 5) False (viaOrCyrix id g) := by
  unfold viaOrCyrix
  split_ifs with hvendor
  · exact .ok (absurd hvendor) (not_invariable hg (centaur_tscInvariable id g))
  · split
    · next htype => exact .error fun h ↦ h hvendor htype
    · next htype => exact .ok (fun _ ↦ by omega) (not_invariable hg (cyrix6_tscInvariable id g))
    · next htype _ => exact .ok (fun _ ↦ htype) (not_invariable hg rfl)

theorem unknownVendor_leads :
    Leads (id.type.toInt ≠ 5 ∧ id.type.toInt ≠ 6) False (unknownVendor id g) := by
  unfold unknownVendor
  split
  · next htype => exact .error fun h ↦ h.1 htype
  · next htype => exact .error fun h ↦ h.2 htype
  · next hfive hsix => exact .ok ⟨hfive, hsix⟩ (not_invariable hg rfl)

end vendors

/-- **Which leaves of the tree lead to the calibration**, and with which `tsc_invariable`. -/
theorem identify_leads (id : CpuIdent) (cx86 : UInt8) :
    Leads (ReachesCalibration id) (InvariableTsc id) (identify id cx86 .start) := by
  have hpae : (if id.capability &&& (0x40 : Int32) ≠ 0 then { CpuInfo.start with pae := true }
      else CpuInfo.start).tscInvariable = false := by
    split <;> rfl
  unfold identify ReachesCalibration InvariableTsc
  split
  · next hcpuid => exact .error fun h ↦ absurd h.1 (Int32.not_le.2 hcpuid)
  next hcpuid =>
  have hone : 1 ≤ id.cpuid := Int32.not_lt.1 hcpuid
  dsimp only at hpae ⊢
  generalize (if id.capability &&& (0x40 : Int32) ≠ 0 then _ else CpuInfo.start) = g at hpae ⊢
  split
  · next hbyte =>
    have hvendor : id.vendId 0 = 0x41 := UInt8.toNat_inj.1 hbyte
    refine (amd_leads id hpae).congr ?_ ?_ <;> simp [hvendor, hone]
  · next hbyte =>
    have hvendor : id.vendId 0 = 0x47 := UInt8.toNat_inj.1 hbyte
    refine (intelOrTransmeta_leads id hpae).congr ?_ ?_ <;> simp [hvendor, hone]
  · next hbyte =>
    have hvendor : id.vendId 0 = 0x43 := UInt8.toNat_inj.1 hbyte
    refine (viaOrCyrix_leads id hpae).congr ?_ ?_ <;> simp [hvendor, hone]
  · next hA hG hC =>
    have hA' : id.vendId 0 ≠ 0x41 := fun h ↦ hA (congrArg UInt8.toNat h)
    have hG' : id.vendId 0 ≠ 0x47 := fun h ↦ hG (congrArg UInt8.toNat h)
    have hC' : id.vendId 0 ≠ 0x43 := fun h ↦ hC (congrArg UInt8.toNat h)
    refine (unknownVendor_leads id hpae).congr ?_ ?_ <;> simp [hA', hG', hC', hone]

/-! ### The calibration -/

/-- The count the rate is taken from, as the case tree has found out which timer there is. -/
def takenCount (id : CpuIdent) (c : Calibration) : UInt32 :=
  if InvariableTsc id then c.correctTsc c.endLow else c.endLow

/-- **A calibration that gives a rate**: the port was read often enough, the counter moved far
enough, and at least 1 kHz is left of it after the correction. -/
def Credible (id : CpuIdent) (c : Calibration) : Prop :=
  4 ≤ c.loops ∧ 50000 ≤ c.endLow ∧ 50 ≤ takenCount id c

instance (id : CpuIdent) (c : Calibration) : Decidable (Credible id c) :=
  inferInstanceAs (Decidable (_ ∧ _))

/-- A rate in kHz fits an `int`. -/
theorem toInt_div_fifty (w : UInt32) : (w / 50).toInt32.toInt = (w.toNat / 50 : ℕ) := by
  have hw := w.toNat_lt
  have hval : (w / 50).toNat = w.toNat / 50 := UInt32.toNat_div w 50
  have hword : (w / 50).toInt32.toInt = ((w / 50).toNat : ℤ) := by
    refine BitVec.toInt_eq_toNat_of_lt ?_
    show 2 * (w / 50).toNat < 2 ^ 32
    omega
  rw [hword, hval]

theorem div_fifty_eq_zero {w : UInt32} (hw : w < 50) : w / 50 = 0 := by
  refine UInt32.toNat_inj.1 ?_
  rw [UInt32.toNat_div]
  exact Nat.div_eq_of_lt (UInt32.lt_iff_toNat_lt.1 hw)

/-- **The rounding moves a rate by at most 500**, and never to 0. -/
theorem setSpeed_toNat {w : UInt32} (hw : 50 ≤ w) :
    w.toNat / 50 + 50 ≤ (setSpeed 0 (w / 50).toInt32).toNat ∧
      (setSpeed 0 (w / 50).toInt32).toNat ≤ w.toNat / 50 + 500 := by
  have hlt := w.toNat_lt
  have hle : 50 ≤ w.toNat := UInt32.le_iff_toNat_le.1 hw
  have hval : (w / 50).toNat = w.toNat / 50 := UInt32.toNat_div w 50
  have hpos : 0 < w / 50 := by
    refine UInt32.lt_iff_toNat_lt.2 ?_
    rw [hval]
    show 0 < w.toNat / 50
    omega
  have hadd (k : UInt32) (hk : k.toNat ≤ 500) : (w / 50 + k).toNat = w.toNat / 50 + k.toNat := by
    rw [UInt32.toNat_add, hval]
    exact Nat.mod_eq_of_lt (by omega)
  unfold setSpeed
  rw [UInt32.toUInt32_toInt32, if_pos hpos]
  split
  · rw [hadd 50 (by decide)]
    exact ⟨le_rfl, Nat.add_le_add_left (by decide) _⟩
  · rw [hadd 500 (by decide)]
    exact ⟨Nat.add_le_add_left (by decide) _, le_rfl⟩

/-! ### Divisions by the rate -/

/-- A call that evaluates no division by zero. -/
def NoDivideError {α : Type} (r : Except NoReturn α) : Prop := r ≠ .error .divideError

theorem noDivideError_ok {α : Type} (a : α) : NoDivideError (.ok a) := nofun

theorem noDivideError_ended {α : Type} (o : Option α) : NoDivideError (ended o) := by
  cases o with
  | none => exact fun h ↦ NoReturn.noConfusion (Except.error.inj h)
  | some a => exact noDivideError_ok a

theorem NoDivideError.bind {α β : Type} {r : Except NoReturn α} {f : α → Except NoReturn β}
    (hr : NoDivideError r) (hf : ∀ a, NoDivideError (f a)) : NoDivideError (r >>= f) := by
  cases r with
  | error e => exact fun h ↦ hr (congrArg Except.error (Except.error.inj h))
  | ok a => exact hf a

theorem udivmoddi4_noDivideError (n : ℕ) (num : UInt64) {den : UInt64} (hden : den ≠ 0)
    (remP : Option UInt64) : NoDivideError (udivmoddi4 n num den remP) := by
  unfold udivmoddi4
  rw [if_neg hden]
  refine (noDivideError_ended _).bind fun _ ↦ ?_
  exact (noDivideError_ended _).bind fun _ ↦ noDivideError_ok _

/-- **A clock with a rate divides by no zero**, wherever the counter stands. -/
theorem doGettimeofday_noDivideError (n : ℕ) {clk : Clock} (hclk : clk.extclock ≠ 0) (t : Tsc) :
    NoDivideError (doGettimeofday n clk t) := by
  have hden : clk.extclock.toUInt64 ≠ 0 := by
    intro h0
    exact hclk (UInt32.toNat_inj.1 (congrArg UInt64.toNat h0))
  have hoffset : NoDivideError (getTimerOffsetUsec n clk t) := by
    refine NoDivideError.bind ?_ fun _ ↦ noDivideError_ok _
    exact (udivmoddi4_noDivideError n _ hden none).bind fun _ ↦ noDivideError_ok _
  exact hoffset.bind fun _ ↦ noDivideError_ended _

/-! ### The rate -/

/-- **The clock rate is valid**: it is not 0, it is at most 500 kHz off a rate that was measured,
and `timer_init` reads the clock without a division by zero. -/
def RateValid (id : CpuIdent) (cx86 : UInt8) (c : Calibration) : Prop :=
  (cpuType id cx86 c).extclock ≠ 0 ∧
    (∃ khz, (cpuType id cx86 c).measured = some khz ∧ khz ≠ -1 ∧
      ((cpuType id cx86 c).extclock.toNat - khz.toInt).natAbs ≤ 500) ∧
    ∀ n cmosRead base now, NoDivideError (timerInit n id cx86 c cmosRead base now)

section rate

variable {id : CpuIdent} (cx86 : UInt8) (c : Calibration)

theorem cpuType_of_not_reaches (h : ¬ReachesCalibration id) :
    (cpuType id cx86 c).extclock = 0 ∧ (cpuType id cx86 c).measured = none := by
  obtain ⟨hreach, -⟩ | ⟨-, g, hg⟩ := identify_leads id cx86
  · exact absurd hreach h
  · rw [cpuType, hg]
    exact ⟨rfl, rfl⟩

theorem cpuType_of_reaches (h : ReachesCalibration id) :
    (cpuType id cx86 c).extclock = setSpeed 0 (cpuspeed c (decide (InvariableTsc id))) ∧
      (cpuType id cx86 c).measured = some (cpuspeed c (decide (InvariableTsc id))) := by
  obtain ⟨-, g, hg, htsc⟩ | ⟨hreach, -⟩ := identify_leads id cx86
  · have hbool : g.tscInvariable = decide (InvariableTsc id) := by
      rw [Bool.eq_iff_iff, htsc, decide_eq_true_iff]
    rw [cpuType, hg, ← hbool]
    exact ⟨rfl, rfl⟩
  · exact absurd h hreach

variable {c}

theorem cpuspeed_eq (hloops : 4 ≤ c.loops) (hlow : 50000 ≤ c.endLow) :
    cpuspeed c (decide (InvariableTsc id)) = (takenCount id c / 50).toInt32 := by
  have hnot : ¬(c.loops < 4 ∨ c.endLow < 50000) := by
    rintro (h | h)
    · exact absurd hloops (Int32.not_le.2 h)
    · exact absurd hlow (UInt32.not_le.2 h)
  simp only [cpuspeed, if_neg hnot, decide_eq_true_iff, takenCount]

theorem cpuspeed_eq_neg_one (h : ¬(4 ≤ c.loops ∧ 50000 ≤ c.endLow)) (b : Bool) :
    cpuspeed c b = -1 := by
  refine if_pos ?_
  rw [not_and_or, Int32.not_le, UInt32.not_le] at h
  exact h

end rate

/-- **The clock rate is valid for exactly the processors that are calibrated with a credible
result.** -/
theorem rate_valid_iff (id : CpuIdent) (cx86 : UInt8) (c : Calibration) :
    RateValid id cx86 c ↔ ReachesCalibration id ∧ Credible id c := by
  constructor
  · rintro ⟨hne, ⟨khz, hkhz, hfail, -⟩, -⟩
    have hreach : ReachesCalibration id := by
      refine Decidable.by_contra fun h ↦ hne ?_
      exact (cpuType_of_not_reaches cx86 c h).1
    obtain ⟨hclock, hmeasured⟩ := cpuType_of_reaches cx86 c hreach
    obtain rfl : cpuspeed c _ = khz := Option.some.inj (hmeasured.symm.trans hkhz)
    have hcount : 4 ≤ c.loops ∧ 50000 ≤ c.endLow := by
      refine Decidable.by_contra fun h ↦ hfail ?_
      exact cpuspeed_eq_neg_one h _
    refine ⟨hreach, hcount.1, hcount.2, Decidable.by_contra fun h ↦ hne ?_⟩
    rw [hclock, cpuspeed_eq hcount.1 hcount.2, div_fifty_eq_zero (UInt32.not_le.1 h)]
    rfl
  · rintro ⟨hreach, hloops, hlow, hcount⟩
    obtain ⟨hclock, hmeasured⟩ := cpuType_of_reaches cx86 c hreach
    rw [cpuspeed_eq hloops hlow] at hclock hmeasured
    obtain ⟨hmin, hmax⟩ := setSpeed_toNat hcount
    have hne : (cpuType id cx86 c).extclock ≠ 0 := by
      intro h0
      rw [← hclock, h0] at hmin
      exact absurd hmin (by simp)
    refine ⟨hne, ⟨_, hmeasured, ?_, ?_⟩, fun n cmosRead base now ↦ ?_⟩
    · intro hfail
      have hval := toInt_div_fifty (takenCount id c)
      have hneg : (-1 : Int32).toInt = -1 := by decide
      rw [hfail, hneg] at hval
      omega
    · rw [hclock, toInt_div_fifty]
      omega
    · exact doGettimeofday_noDivideError n hne now

/-- A processor of type 6 with a given first letter of the vendor's name. -/
def plainCpu (vendor : UInt8) : CpuIdent :=
  { type := 6, model := 0, step := 0, cpuid := 1, capability := 0, vendId := fun _ ↦ vendor,
    cacheInfo := fun _ ↦ 0, pwrcap := 0, ext := 0, dcache := fun _ _ ↦ 0 }

/-- A calibration of a counter of 1 GHz, with a given number of readings of the port. -/
def plainCalibration (loops : Int32) : Calibration :=
  ⟨⟨0, 0⟩, ⟨50000000, 0⟩, loops, fun count ↦ count⟩

/-- **Both ways to an invalid rate.** A processor of type 6 whose vendor is not known leaves the
rate at 0, and the first reading of the clock divides by it. A Pentium Pro whose calibration fails
is given 499 kHz, from the answer -1. -/
theorem rate_not_valid :
    ((cpuType (plainCpu 0x52) 0 (plainCalibration 1000)).extclock = 0 ∧
        timerInit 65 (plainCpu 0x52) 0 (plainCalibration 1000) (fun _ ↦ 0) ⟨0, 0⟩ ⟨0, 0⟩ =
          .error .divideError ∧
        ¬RateValid (plainCpu 0x52) 0 (plainCalibration 1000)) ∧
      (cpuType (plainCpu 0x47) 0 (plainCalibration 3)).extclock = 499 ∧
        (cpuType (plainCpu 0x47) 0 (plainCalibration 3)).measured = some (-1) ∧
        ¬RateValid (plainCpu 0x47) 0 (plainCalibration 3) := by
  have hzero : (cpuType (plainCpu 0x52) 0 (plainCalibration 1000)).extclock = 0 := by decide
  have hfailed : (cpuType (plainCpu 0x47) 0 (plainCalibration 3)).measured = some (-1) := by decide
  refine ⟨⟨hzero, rfl, fun h ↦ h.1 hzero⟩, by decide, hfailed, ?_⟩
  rintro ⟨-, ⟨khz, hkhz, hne, -⟩, -⟩
  exact hne (Option.some.inj (hkhz.symm.trans hfailed))

end Dwipe

import Dwipe.Wipe.Runs

/-!
# What the CHS path addresses

A drive without extensions is sized by its geometry and wiped through `AH=03h`. Each linear number
goes through `lba2chs` and is packed into `CX` and `DH`; unpacked and linearised again with
`chs2lba`, the requests of each pass are the blocks of sixteen sectors of the geometry, in order,
and the remainder (`chs_requests_tile`). That holds for **every** BIOS, since the answers do not
decide what is asked.
-/

namespace Dwipe

variable {σ : Type} {env : Env σ} {opt : Options} {param : DiskParam} {m : Machine σ}
  {byte : ℕ → UInt8}

/-- The sectors an `AH=03h` request names: `CX` and `DH` unpacked and linearised, and the count in
`AL`. -/
def Target.linear (param : DiskParam) : Target → Option Span
  | .chs cx dh al =>
    (chs2lba param ⟨(getChsFromPack cx).1, dh.toNat, (getChsFromPack cx).2⟩).map fun lba ↦
      ⟨lba.toNat, al.toNat⟩
  | .lba _ _ => none

/-- Blocks of sixteen sectors, and the remainder: the calls of the wipe loop as spans. -/
def blocks (T : ℕ) : List Span :=
  ((List.range (T / 16)).map fun k ↦ ⟨16 * k, 16⟩) ++
    if T % 16 = 0 then [] else [⟨16 * (T / 16), T % 16⟩]

theorem spans_eq_blocks {T : ℕ} (hT : T < 2 ^ 55) : spans T = blocks T := by
  have hcond : (T % 16 = 0 ∧ T < 2 ^ 55) = (T % 16 = 0) := by simpa using fun _ ↦ hT
  simp only [spans, blocks, Nat.mod_eq_of_lt hT, hcond]

/-! ### There and back -/

/-- A triple in range, packed into registers, is read back from them. -/
theorem linear_chs {a : Chs} (hv : varifyChs a = 0) (n : UInt32) (hn : n.toNat ≤ 16) :
    (Target.chs (setChsToPack a.cylinder.toNat a.sector.toNat) (UInt8.ofNat a.head.toNat)
      n.toUInt8).linear param = (chs2lba param a).map fun lba ↦ ⟨lba.toNat, n.toNat⟩ := by
  have hcount : n.toUInt8.toNat = n.toNat := by
    rw [UInt32.toNat_toUInt8]
    omega
  rw [Target.linear, unpack_pack hv, hcount]

/-- **The call for a span of the geometry names that span.** -/
theorem aimedAt_linear (hext : param.hasExt = 0) (hdec : param.Decoded) {p : Span}
    (hp : p ∈ spans (geometrySectors param)) :
    ∃ target, aimedAt param (UInt64.ofNat p.start) (UInt32.ofNat p.len) = some target ∧
      target.linear param = some p := by
  have hsmall := hdec.geometrySectors_lt
  obtain ⟨hlen, hstart, -⟩ := mem_spans hp
  obtain ⟨hoff, hn⟩ := spanCall_toNat (by omega) hp
  have hinside : (UInt64.ofNat p.start).toNat < geometrySectors param := by omega
  obtain ⟨a, ha, haddr⟩ := lba2chs_of_lt hdec hinside
  refine ⟨.chs (setChsToPack a.cylinder.toNat a.sector.toNat) (UInt8.ofNat a.head.toNat)
    (UInt32.ofNat p.len).toUInt8, ?_, ?_⟩
  · rw [aimedAt, if_neg (by simpa using hext), ha, Option.map_some]
  · rw [linear_chs haddr.valid _ (by omega), haddr.linear, Option.map_some, hoff, hoff, hn]

/-! ### The requests of a pass -/

section pass

variable {mbrBin : ℕ → UInt8} {p : ℕ}

/-- The calls for spans of the geometry make one request a pass, for just those spans. -/
theorem map_linear_runWrites (hext : param.hasExt = 0) (hdec : param.Decoded)
    (htest : opt.test = false) (hp : p < passes opt) :
    ∀ (l : List Span) (r : UInt64), (∀ q ∈ l, q ∈ spans (geometrySectors param)) →
      ((passRequests p (runWrites opt param mbrBin byte r (l.map spanCall))).map
        fun w ↦ w.target.linear param) = l.map some
  | [], _, _ => rfl
  | q :: l, r, hmem => by
    obtain ⟨target, haim, hlin⟩ := aimedAt_linear hext hdec (hmem q List.mem_cons_self)
    have hstep : ((passRequests p (stepWrites opt param mbrBin byte r (spanCall q))).map
        fun w ↦ w.target.linear param) = [some q] := by
      rw [spanCall, stepWrites, callWrites, htest, if_neg (by simp), haim, Option.toList_some,
        List.flatMap_singleton, passRequests_passWrites hp, List.map_singleton, hlin]
    rw [List.map_cons, runWrites, passRequests_append, List.map_append, hstep, List.map_cons,
      map_linear_runWrites hext hdec htest hp l _ fun q hq ↦ hmem q (List.mem_cons_of_mem _ hq)]
    rfl

end pass

/-- **The requests of every pass partition the geometry**, in order, and none is rejected. -/
structure ChsTiled (env : Env σ) (opt : Options) (param : DiskParam) (m : Machine σ) : Prop where
  requests : ∀ p < passes opt,
    ((passRequests p (writes (wipeDisk env opt param m).events)).map
      fun w ↦ w.target.linear param) = (blocks (geometrySectors param)).map some
  partition : Tiles 0 (blocks (geometrySectors param)) (geometrySectors param)
  accepted : ∀ c ∈ wipePlan opt param, ¬refused opt param c
  nonneg : ∀ i r, .returned (.passWrite i) r ∈ (wipeDisk env opt param m).events → 0 ≤ r

theorem tiles_blocks {T : ℕ} (hT : T < 2 ^ 55) : Tiles 0 (blocks T) T := by
  have h := tiles_spans T
  rwa [spans_eq_blocks hT, Nat.mod_eq_of_lt hT] at h

/-- The MBR write of a drive whose tracks have sectors is not refused. -/
theorem mbrWrite_accepted (hp : isCdrom param = 0) (hspt : param.lastSectorsPerTrack ≠ 0) :
    ¬refused opt param .mbrWrite := by
  have hpos : 0 < param.lastSectorsPerTrack.toNat := by
    have hne : param.lastSectorsPerTrack.toNat ≠ 0 := fun h ↦ hspt (UInt8.toNat_inj.1 h)
    omega
  rw [refused, chsRefused, sectorSize_of_not_cdrom hp]
  rintro (h | h | h | h | h | h)
  · revert h
    decide
  · revert h
    decide
  · revert h
    decide
  · revert h
    decide
  · revert h
    decide
  · rcases h with h | h | h | h | h | h <;> simp only at h <;> omega

/-- **The CHS path addresses the blocks of the geometry.** -/
theorem chs_requests_tile (env : Env σ) (opt : Options) (param : DiskParam) (m : Machine σ)
    (byte : ℕ → UInt8) (hext : param.hasExt = 0) (hdec : param.Decoded)
    (htest : opt.test = false) (hstart : Starts env opt param m byte) :
    ChsTiled env opt param m := by
  have hlt := hdec.geometrySectors_lt
  have hT := totalSec_toNat_chs opt (Or.inl hext) hlt
  have hacc := wipePlan_accepted_chs opt hext hdec
  have hp := hstart.not_cdrom
  by_cases hspt : param.lastSectorsPerTrack = 0
  · -- a track without sectors: the geometry is empty, and the loop asks for nothing
    have hzero : geometrySectors param = 0 := by simp [geometrySectors, hspt]
    have hidle : chunkCount opt param = 0 ∧ leftSec opt param = 0 := by
      refine ⟨?_, (leftSec_eq_zero_iff opt hp).2 (by omega)⟩
      rw [chunkCount_eq opt hp]
      omega
    have hevents : ∀ e ∈ (wipeDisk env opt param m).events, Obeys _ _ e :=
      wipeDisk_idle (Or.inr hidle)
    refine ⟨fun p _ ↦ ?_, tiles_blocks (by omega), hacc, fun i r hr ↦ ?_⟩
    · have hnone : passRequests p (writes (wipeDisk env opt param m).events) = [] := by
        refine List.filter_eq_nil_iff.2 fun w hw ↦ ?_
        obtain ⟨x, hx, -, hsite⟩ := exchange_of_write hw
        have hloop : ¬x.site.isLoop := hevents _ (mem_exchanges.1 hx)
        rw [hsite] at hloop
        rw [decide_eq_true_iff]
        rintro hpass
        rw [hpass] at hloop
        exact hloop trivial
      rw [hnone, hzero]
      rfl
    · exact absurd rfl (hevents _ hr i)
  · have hall : ∀ c ∈ plan opt param, ¬refused opt param c := by
      intro c hc
      rw [plan, List.mem_append] at hc
      rcases hc with hc | hc
      · exact hacc c hc
      · obtain rfl := eq_of_mem_mbrPlan hc
        exact mbrWrite_accepted hp hspt
    have hran := hstart.ran hall
    refine ⟨fun p hpass ↦ ?_, tiles_blocks (by omega), hacc, fun i r hr ↦ ?_⟩
    · rw [hran.writes, plan, wipePlan_eq opt hp, hT, runWrites_append, passRequests_append,
        passRequests_mbrPlan, List.append_nil,
        map_linear_runWrites hext hdec htest hpass _ _ fun _ h ↦ h, spans_eq_blocks (by omega)]
    · exact hran.nonneg _ (mem_returns.2 hr)

/-- Two heads, three cylinders and five sectors, wiped by a request of sixteen sectors and one of
fourteen. -/
theorem chs_requests_tile_thirty :
    ChsTiled (obliging fun _ ↦ 0x55) Options.plain (DiskParam.ofGeometry 1 2 5)
      (Machine.fresh () 1) :=
  chs_requests_tile _ _ _ _ (fun _ ↦ 0x55) rfl ⟨by decide, by decide, by decide⟩ rfl
    (starts_obliging rfl (by decide) rfl)

end Dwipe

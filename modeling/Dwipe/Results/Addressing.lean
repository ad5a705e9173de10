import Dwipe.Wipe.Runs

/-!
# Sizing and transfer

`wipe_disk` chooses between the two addressings when it computes `total_sec`, and
`wipe_sectors_lba` chooses again when it transfers. The first choice looks at `opt.force_chs`, the
second does not. The two agree on every request of every run **except** on a drive with extensions
and a geometry, with `force_chs` set: there the size comes from the geometry and the requests are
extended ones (`sizing_iff`).
-/

namespace Dwipe

/-- The two ways of naming sectors, by a number or by a triple. -/
inductive Addressing where
  | extended
  | chs
  deriving DecidableEq

/-- The addressing `total_sec` is computed in, for which `force_chs` counts. -/
def sizing (opt : Options) (param : DiskParam) : Addressing :=
  if param.hasExt ≠ 0 ∧ ¬opt.forceChs then .extended else .chs

/-- The request is one of the addressing, read off its function number. -/
def Addressing.Uses : Addressing → RealArea → Prop
  | .extended, q => q.reg.ah = 0x42 ∨ q.reg.ah = 0x43
  | .chs, q => q.reg.ah = 0x02 ∨ q.reg.ah = 0x03 ∨ q.reg.ah = 0x04

/-- Every request of the wipe loop of every run uses the addressing of the sizing. -/
def SizingRespected (opt : Options) (param : DiskParam) : Prop :=
  ∀ (σ : Type) (env : Env σ) (m : Machine σ), ∀ x ∈ exchanges (wipeDisk env opt param m).events,
    x.site.isLoop → (sizing opt param).Uses x.req

variable {σ : Type} {env : Env σ} {opt : Options} {param : DiskParam} {m : Machine σ}

/-- In the wipe loop the addressing is the one the drive is given, whatever the options. -/
theorem uses_of_loop {x : Exchange} (hx : x ∈ exchanges (wipeDisk env opt param m).events)
    (hloop : x.site.isLoop) :
    (if param.hasExt ≠ 0 then Addressing.extended else .chs).Uses x.req := by
  rcases wipeDisk_allowed hx with ⟨hsite, -⟩ | ⟨-, -, hperm⟩
  · rw [hsite] at hloop
    exact hloop.elim
  · cases hs : x.site with
    | test =>
      rw [hs] at hperm
      obtain ⟨-, hah⟩ := hperm
      split_ifs at hah ⊢ with hext
      · exact Or.inl hah
      · exact Or.inl hah
    | pass i =>
      rw [hs] at hperm
      obtain ⟨-, hah⟩ := hperm
      split_ifs at hah ⊢ with hext
      · exact Or.inr hah
      · exact Or.inr hah
    | _ => rw [hs] at hloop; exact hloop.elim

/-! ### An extended request in every run that has something to wipe -/

/-- The first call of the wipe loop, when it is accepted, asks for something. -/
theorem exists_loop_request (hext : param.hasExt ≠ 0) (hbps : param.ext.bytesPerSector = 512)
    (htotal : totalSec opt param ≠ 0) (env : Env σ) (buffer : Buffer) (m : Machine σ) :
    ∃ x ∈ exchanges (wipeBuffer env opt param buffer m).events, x.site.isLoop := by
  have hp : isCdrom param = 0 := isCdrom_eq_zero_iff.2 fun _ ↦ hbps
  have hT : (totalSec opt param).toNat ≠ 0 := fun h ↦ htotal (UInt64.toNat_inj.1 h)
  obtain ⟨p, ps, hspans, hstart⟩ := spans_eq_cons hT
  have hmem : p ∈ spans (totalSec opt param).toNat := by rw [hspans]; exact List.mem_cons_self
  have hplan : plan opt param = spanCall p :: (ps.map spanCall ++ mbrPlan opt) := by
    rw [plan, wipePlan_eq opt hp, hspans, List.map_cons, List.cons_append]
  have hacc : ¬refused opt param (spanCall p) := by
    obtain ⟨hlen, -, -⟩ := mem_spans hmem
    obtain ⟨-, hn⟩ := spanCall_toNat (totalSec opt param).toNat_lt hmem
    rw [spanCall, refused, callRefused, if_pos hext, lbaRefused_iff hext hbps _ _ (by omega),
      hstart]
    exact UInt64.not_lt.2 (UInt64.zero_le)
  obtain ⟨done, ret, l₁, l₂, hl, hran⟩ := wipeBuffer_first hp hplan hacc env buffer m
  rw [hl, exchanges_append]
  cases htest : opt.test with
  | true =>
    -- there is no write to go by; the last exchange will do, since there is no MBR step either
    obtain ⟨z, hz, -⟩ := hran.last (by simp)
    have hzl : z ∈ exchanges l₁ := List.mem_of_getLast? hz
    refine ⟨z, List.mem_append_left _ hzl, ?_⟩
    have hmem : z ∈ exchanges (wipeBuffer env opt param buffer m).events := by
      rw [hl, exchanges_append]
      exact List.mem_append_left _ hzl
    obtain ⟨-, -, hperm⟩ := wipeBuffer_permitted hmem
    cases hs : z.site with
    | test => trivial
    | _ => simp [hs, htest] at hperm
  | false =>
    -- the last exchange may be the MBR's, so take the first write of the first call
    have hstep : ∃ w ∈ stepWrites opt param env.mbrBin buffer.byte m.randNext (spanCall p),
        w.site = .pass 0 := by
      rw [spanCall, stepWrites, callWrites, htest]
      simp only [Bool.false_eq_true, if_false, aimedAt, if_pos hext, Option.toList_some,
        List.flatMap_singleton]
      exact ⟨_, List.mem_map.2 ⟨0, List.mem_range.2 (passes_pos opt), rfl⟩, rfl⟩
    obtain ⟨w, hw, hsite⟩ := hstep
    have hw' : w ∈ writes l₁ := by
      rw [hran.writes, runWrites]
      exact List.mem_append_left _ hw
    obtain ⟨x, hx, -, hxsite⟩ := exchange_of_write hw'
    refine ⟨x, List.mem_append_left _ hx, ?_⟩
    rw [hxsite, hsite]
    trivial

/-- Whatever the options, the wipe loop of a drive with extensions asks for sectors in the extended
addressing, if only from a BIOS that fails every request. -/
theorem exists_extended_request (opt : Options) (param : DiskParam) (hext : param.hasExt ≠ 0)
    (hbps : param.ext.bytesPerSector = 512) (htotal : totalSec opt param ≠ 0)
    (m : Machine Unit) :
    ∃ x ∈ exchanges (wipeDisk failing opt param m).events,
      x.site.isLoop ∧ Addressing.extended.Uses x.req := by
  have hp : isCdrom param = 0 := isCdrom_eq_zero_iff.2 fun _ ↦ hbps
  have hstart : Starts failing opt param m fun _ ↦ 0 := starts_failing hp
  have hrun := wipeDisk_of_memory rfl hstart.kept hstart.memory rfl
  obtain ⟨x, hx, hloop⟩ := exists_loop_request hext hbps htotal failing
    ⟨wipeBufferSize.toNat, fun _ ↦ 0⟩
    { (isSkipedDisk failing opt param m).state with
      ticks := (isSkipedDisk failing opt param m).state.ticks + 1 }
  have hmem : x ∈ exchanges (wipeDisk failing opt param m).events := by
    rw [hrun]
    simp only [exchanges_append, exchanges_returned, List.mem_append]
    exact Or.inr hx
  refine ⟨x, hmem, hloop, ?_⟩
  have huses := uses_of_loop hmem hloop
  rwa [if_pos hext] at huses

/-! ### The two choices -/

theorem not_uses_both {q : RealArea} (he : Addressing.extended.Uses q) :
    ¬Addressing.chs.Uses q := by
  rintro (h | h | h) <;> rcases he with h' | h' <;> (rw [h] at h'; revert h'; decide)

/-- **Sizing and transfer use the same addressing**, except on a drive with extensions and a
geometry when `force_chs` is set. -/
theorem sizing_iff (opt : Options) (param : DiskParam) :
    SizingRespected opt param ↔ ¬(param.hasExt ≠ 0 ∧ param.ext.bytesPerSector = 512 ∧
      opt.forceChs = true ∧ param.lastSectorsPerTrack ≠ 0) := by
  constructor
  · rintro h ⟨hext, hbps, hforce, hspt⟩
    have htotal : totalSec opt param ≠ 0 := fun h0 ↦
      hspt ((totalSec_chs_eq_zero_iff opt (Or.inr hforce)).1 h0)
    obtain ⟨x, hx, hloop, huses⟩ := exists_extended_request opt param hext hbps htotal
      (Machine.fresh () 1)
    have hchs : sizing opt param = .chs := by simp [sizing, hforce]
    have hbad := h Unit failing _ x hx hloop
    rw [hchs] at hbad
    exact not_uses_both huses hbad
  · intro h σ env m x hx hloop
    have huses := uses_of_loop hx hloop
    by_cases hext : param.hasExt ≠ 0
    · cases hforce : opt.forceChs with
      | false => simpa [sizing, hext, hforce] using huses
      | true =>
        refine absurd hloop (wipeDisk_idle ?_ _ (mem_exchanges.1 hx))
        by_cases hp : isCdrom param = 0
        · refine Or.inr ?_
          have hbps := isCdrom_eq_zero_iff.1 hp hext
          have hspt : param.lastSectorsPerTrack = 0 := by
            by_contra hne
            exact h ⟨hext, hbps, hforce, hne⟩
          have h0 := (totalSec_chs_eq_zero_iff opt (Or.inr hforce)).2 hspt
          have hz : (totalSec opt param).toNat = 0 := by rw [h0]; rfl
          refine ⟨?_, (leftSec_eq_zero_iff opt hp).2 (by omega)⟩
          rw [chunkCount_eq opt hp]
          omega
        · exact Or.inl hp
    · simpa [sizing, hext] using huses

/-- A one-sector drive with extensions and `force_chs`: the size comes from the geometry, and the
sector is asked for in the extended addressing. -/
theorem sizing_fails_on_forced_chs :
    ¬∀ x ∈ exchanges (wipeDisk failing { Options.plain with forceChs := true }
        (DiskParam.ofSectors 1) (Machine.fresh () 1)).events,
      x.site.isLoop →
        (sizing { Options.plain with forceChs := true } (DiskParam.ofSectors 1)).Uses x.req := by
  intro h
  obtain ⟨x, hx, hloop, huses⟩ :=
    exists_extended_request { Options.plain with forceChs := true } (DiskParam.ofSectors 1)
      (by decide) (by decide) (by decide) (Machine.fresh () 1)
  exact not_uses_both huses (h x hx hloop)

end Dwipe

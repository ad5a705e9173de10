import Dwipe.Wipe.Paths
import Dwipe.Wipe.Runs

/-!
# What ends up on the disk

The extended addressing with a BIOS that carries out its writes. The contents of the disk are a
function `view` of the hidden state of the BIOS, sector by sector; all that is assumed is that an
extended write inside the disk succeeds and changes the sectors it names to its payload, and no
others. What the BIOS does on any other request is left open, so the label scan before the wipe may
leave the disk in any state.

The contents after a run are then the write requests of the run, replayed in order
(`replays_moves`), and each sector holds what the **last** request naming it brought.
-/

namespace Dwipe

variable {σ : Type} {env : Env σ} {opt : Options} {param : DiskParam}

/-! ### A BIOS that writes -/

/-- The contents of one sector. -/
abbrev Sector := Fin 512 → UInt8

/-- An extended write out of `real_buffer` that stays inside the disk. -/
def ExtWriteInside (env : Env σ) (param : DiskParam) (q : RealArea) : Prop :=
  q.reg.ah = 0x43 ∧ q.reg.dl = param.diskId ∧ AimsAtBuffer env q ∧
    q.dap.begin.toNat + q.dap.nsectors.toNat ≤ param.ext.nsectors.toNat

/-- The sectors an extended request names. -/
def RealArea.span (q : RealArea) : Span := ⟨q.dap.begin.toNat, q.dap.nsectors.toNat⟩

/-- **The BIOS carries out every extended write inside the disk, in full.** -/
structure CarriesOut (env : Env σ) (param : DiskParam) (view : σ → ℕ → Sector) : Prop where
  succeeds : ∀ b q, ExtWriteInside env param q → (env.int13 b q).carry = false
  stores : ∀ b q, ExtWriteInside env param q → ∀ s j, view (env.int13 b q).bios s j =
    if q.span.Covers s then q.buffer (512 * (s - q.span.start) + j) else view b s j

/-! ### The trace determines the contents -/

/-- The sector a write request leaves behind, if it is carried out. -/
def Write.left (w : Write) (s : ℕ) : Sector := fun j ↦ (w.sector s)[(j : ℕ)]?.getD 0

theorem Write.left_apply {w : Write} {s : ℕ} {f : ℕ → UInt8}
    (h : w.sector s = (List.range 512).map f) (j : Fin 512) : w.left s j = f j := by
  rw [Write.left, h, List.getElem?_map, List.getElem?_range j.isLt]
  rfl

/-- What an event does to the contents of the disk. -/
def actOn (d : ℕ → Sector) : Event → ℕ → Sector
  | .int13 x =>
    match x.write? with
    | some w => fun s ↦ if w.target.Covers s then w.left s else d s
    | none => d
  | _ => d

/-- Every exchange is an extended write inside the disk. -/
def OnlyWrites (env : Env σ) (param : DiskParam) : Event → Prop
  | .int13 x => ExtWriteInside env param x.req
  | _ => True

theorem foldl_actOn (d : ℕ → Sector) (l : List Event) :
    l.foldl actOn d =
      overwrite (fun (w : Write) s ↦ w.target.Covers s) Write.left d (writes l) := by
  induction l generalizing d with
  | nil => rfl
  | cons e l ih =>
    rw [List.foldl_cons, ih]
    cases e with
    | int13 x =>
      cases hw : x.write? with
      | none => simp [actOn, hw, writes]
      | some w => simp [actOn, hw, writes, overwrite]
    | _ => rfl

/-- The write request of an extended write, as the BIOS sees it. -/
theorem ExtWriteInside.write {x : Exchange} (h : ExtWriteInside env param x.req) :
    x.write? = some ⟨x.site, x.req.reg.dl, .lba x.req.dap.begin x.req.dap.nsectors,
      payloadOf x.req.buffer x.req.dap.nsectors.toNat⟩ := by
  rw [Exchange.write?, if_neg (by rw [h.1]; decide), if_pos h.1]

/-- One write, carried out, in terms of the contents. -/
theorem CarriesOut.actOn_exchange {view : σ → ℕ → Sector} (hbios : CarriesOut env param view)
    (b : σ) {x : Exchange} (hin : ExtWriteInside env param x.req) :
    view (env.int13 b x.req).bios = actOn (view b) (.int13 x) := by
  funext s j
  simp only [actOn, hin.write, hbios.stores b x.req hin s j]
  by_cases hc : x.req.span.Covers s
  · have hc' : (Target.lba x.req.dap.begin x.req.dap.nsectors).Covers s := hc
    have hd : s - x.req.dap.begin.toNat < x.req.dap.nsectors.toNat := by
      have h1 : x.req.dap.begin.toNat ≤ s := hc.1
      have h2 : s < x.req.dap.begin.toNat + x.req.dap.nsectors.toNat := hc.2
      omega
    rw [if_pos hc, if_pos hc', Write.left_apply (sector_payloadOf hd)]
    rfl
  · have hc' : ¬(Target.lba x.req.dap.begin x.req.dap.nsectors).Covers s := hc
    rw [if_neg hc, if_neg hc']

/-- Runs that only write inside the disk leave on it what their events make of it. -/
theorem replays_moves {view : σ → ℕ → Sector} (hbios : CarriesOut env param view) :
    Moves env fun m l m' ↦
      (∀ e ∈ l, OnlyWrites env param e) → view m'.bios = l.foldl actOn (view m.bios) where
  refl _ _ := rfl
  trans h h' hok := by
    rw [List.foldl_append, ← h fun e he ↦ hok e (List.mem_append_left _ he)]
    exact h' fun e he ↦ hok e (List.mem_append_right _ he)
  ask m q hok := hbios.actOn_exchange m.bios (hok _ List.mem_cons_self)
  quiet m e he _ := by
    cases e with
    | int13 x => exact absurd he (Option.some_ne_none x)
    | _ => rfl
  area _ _ _ := rfl
  site _ _ _ := rfl
  ticks _ _ _ := rfl
  randNext _ _ _ := rfl

/-! ### The complete wipe -/

/-- A drive with extensions and 512-byte sectors, wiped without `force_chs`, `test` and `mbr`. -/
structure PlainExt (opt : Options) (param : DiskParam) : Prop where
  hasExt : param.hasExt ≠ 0
  bytes : param.ext.bytesPerSector = 512
  force : opt.forceChs = false
  test : opt.test = false
  mbr : opt.mbr = false

section PlainExt

variable {m : Machine σ} {buffer : Buffer}

theorem PlainExt.not_cdrom (h : PlainExt opt param) : isCdrom param = 0 :=
  isCdrom_eq_zero_iff.2 fun _ ↦ h.bytes

theorem PlainExt.totalSec (h : PlainExt opt param) : totalSec opt param = param.ext.nsectors := by
  simp [Dwipe.totalSec, h.hasExt, h.force]

theorem PlainExt.plan (h : PlainExt opt param) : plan opt param = wipePlan opt param := by
  simp [Dwipe.plan, mbrPlan, h.mbr]

theorem PlainExt.accepted (h : PlainExt opt param) :
    ∀ c ∈ Dwipe.plan opt param, ¬refused opt param c := by
  rw [h.plan]
  exact wipePlan_accepted_ext opt h.hasExt h.bytes h.force

/-- The write requests of the plan lie inside the disk. -/
theorem PlainExt.target {mbrBin byte : ℕ → UInt8} {r : UInt64} (h : PlainExt opt param)
    {w : Write} (hw : w ∈ runWrites opt param mbrBin byte r (Dwipe.plan opt param)) :
    ∃ b n, w.target = .lba b n ∧ b.toNat + n.toNat ≤ param.ext.nsectors.toNat := by
  rw [h.plan, wipePlan_eq opt h.not_cdrom, h.totalSec] at hw
  obtain ⟨p, hp, htarget, -⟩ := mem_runWrites_spans h.hasExt h.test _ _ (fun _ hp ↦ hp) hw
  refine ⟨_, _, htarget, ?_⟩
  obtain ⟨hstart, hlen⟩ := spanCall_toNat param.ext.nsectors.toNat_lt hp
  obtain ⟨h16, -, hend⟩ := mem_spans hp
  rw [UInt32.toNat_toUInt16, hstart, hlen]
  omega

/-- Every exchange of the wipe is an extended write inside the disk. -/
theorem PlainExt.onlyWrites (h : PlainExt opt param) :
    ∀ e ∈ (wipeBuffer env opt param buffer m).events, OnlyWrites env param e := by
  intro e he
  cases e with
  | int13 x =>
    obtain ⟨hdl, hmade, hperm⟩ := wipeBuffer_permitted (mem_exchanges.2 he)
    have hah : x.req.reg.ah = 0x43 := by
      cases hs : x.site with
      | pass i => simpa [hs, h.hasExt, h.test] using hperm
      | _ => simp [hs, h.test, h.mbr] at hperm
    have hwrite : x.write? = some ⟨x.site, x.req.reg.dl,
        .lba x.req.dap.begin x.req.dap.nsectors,
        payloadOf x.req.buffer x.req.dap.nsectors.toNat⟩ := by
      simp [Exchange.write?, hah]
    have hmem : _ ∈ writes (wipeBuffer env opt param buffer m).events :=
      List.mem_filterMap.2 ⟨x, mem_exchanges.2 he, hwrite⟩
    have hran : Ran opt param env.mbrBin buffer.byte m.randNext (Dwipe.plan opt param) _
        (wipeBuffer env opt param buffer m).events :=
      wipeBuffer_ran h.not_cdrom h.accepted buffer m
    rw [hran.writes] at hmem
    obtain ⟨b, n, htarget, hend⟩ := h.target hmem
    obtain ⟨rfl, rfl⟩ := Target.lba.inj htarget
    exact ⟨hah, hdl, hmade.toAimsAtBuffer, hend⟩
  | _ => trivial

end PlainExt

theorem getLast?_passWrites {diskId : UInt8} {target : Target} {n k : ℕ} {f : ℕ → ℕ → UInt8}
    (hk : 0 < k) :
    (passWrites diskId target n f k).getLast? =
      some ⟨.pass (k - 1), diskId, target, payloadOf (f (k - 1)) n⟩ := by
  obtain ⟨j, rfl⟩ : ∃ j, k = j + 1 := ⟨k - 1, by omega⟩
  simp [passWrites, List.range_succ]

/-- The last pass of the fast and of the three-pass mode writes zeros. -/
theorem passByte_last (hmode : opt.mode ≠ .ocd) (size : ℕ) (r : UInt64) (j : ℕ) :
    passByte opt size r (passes opt - 1) j = 0 := by
  cases hm : opt.mode with
  | ocd => exact absurd hm hmode
  | fast => simp [passByte, passes, hm]
  | dod => simp [passByte, passes, passCount, hm]

/-- **A complete wipe**: success, one request a pass for every sector and none beyond the end, no
request refused, and a disk full of zeros. -/
structure WipedClean (env : Env σ) (opt : Options) (param : DiskParam) (m : Machine σ)
    (view : σ → ℕ → Sector) : Prop where
  returned : (wipeDisk env opt param m).val = 0
  once : ∀ p < passes opt, ∀ s < param.ext.nsectors.toNat,
    (passRequests p (sectorWrites s (writes (wipeDisk env opt param m).events))).length = 1
  passOnly : ∀ w ∈ writes (wipeDisk env opt param m).events, ∃ p < passes opt, w.site = .pass p
  inside : ∀ w ∈ writes (wipeDisk env opt param m).events,
    ∃ b n, w.target = .lba b n ∧ b.toNat + n.toNat ≤ param.ext.nsectors.toNat
  accepted : (∀ c ∈ plan opt param, ¬refused opt param c) ∧
    ∀ r ∈ returns (wipeDisk env opt param m).events, 0 ≤ r.2
  zero : ∀ s < param.ext.nsectors.toNat, ∀ j, view (wipeDisk env opt param m).state.bios s j = 0

theorem PlainExt.val_eq_zero {view : σ → ℕ → Sector} (hp : PlainExt opt param)
    (hbios : CarriesOut env param view) (hlo : 1 ≤ param.ext.nsectors.toNat) (buffer : Buffer)
    (m : Machine σ) : (wipeBuffer env opt param buffer m).val = 0 := by
  have hran : Ran opt param env.mbrBin buffer.byte m.randNext (Dwipe.plan opt param)
      (wipeBuffer env opt param buffer m).val (wipeBuffer env opt param buffer m).events :=
    wipeBuffer_ran hp.not_cdrom hp.accepted buffer m
  have hne : Dwipe.plan opt param ≠ [] := by
    have hT : (Dwipe.totalSec opt param).toNat ≠ 0 := by
      rw [hp.totalSec]
      omega
    obtain ⟨p, ps, hspans, -⟩ := spans_eq_cons hT
    rw [hp.plan, wipePlan_eq opt hp.not_cdrom, hspans]
    exact List.cons_ne_nil _ _
  obtain ⟨z, hz, hret⟩ := hran.last hne
  have hmem := List.mem_of_getLast? hz
  have hin : ExtWriteInside env param z.req := hp.onlyWrites _ (mem_exchanges.1 hmem)
  have hpath : Path env _ (exchanges (wipeBuffer env opt param buffer m).events) _ :=
    wipeBuffer_along (path_moves env) buffer m
  obtain ⟨b, hcarry, -⟩ := hpath.genuine z hmem
  rw [hret, Exchange.result, Exchange.status_of_read (by rw [hin.1]; decide), hcarry,
    hbios.succeeds b _ hin]
  rfl

theorem PlainExt.zero {view : σ → ℕ → Sector} (hp : PlainExt opt param)
    (hbios : CarriesOut env param view) (hmode : opt.mode ≠ .ocd)
    (hhi : param.ext.nsectors.toNat < 2 ^ 55) (buffer : Buffer) (m : Machine σ) {s : ℕ}
    (hs : s < param.ext.nsectors.toNat) (j : Fin 512) :
    view (wipeBuffer env opt param buffer m).state.bios s j = 0 := by
  have hrep : view (wipeBuffer env opt param buffer m).state.bios = _ :=
    wipeBuffer_along (replays_moves hbios) buffer m hp.onlyWrites
  have hran : Ran opt param env.mbrBin buffer.byte m.randNext (Dwipe.plan opt param) _
      (wipeBuffer env opt param buffer m).events :=
    wipeBuffer_ran hp.not_cdrom hp.accepted buffer m
  have hs' : s < (Dwipe.totalSec opt param).toNat % 2 ^ 55 := by
    rw [hp.totalSec]
    omega
  obtain ⟨l₁, p, l₂, hl, hc, -, hsector⟩ := sectorWrites_plan hp.hasExt hp.test hp.not_cdrom
    env.mbrBin buffer.byte m.randNext hs'
  have hpm : p ∈ spans (Dwipe.totalSec opt param).toNat := by simp [hl]
  rw [hrep, foldl_actOn, overwrite_apply, hran.writes]
  have hlast : ((runWrites opt param env.mbrBin buffer.byte m.randNext
      (Dwipe.plan opt param)).filter fun w ↦ w.target.Covers s).getLast? = _ :=
    (congrArg List.getLast? hsector).trans (getLast?_passWrites (passes_pos opt))
  rw [hlast, Option.map_some, Option.getD_some,
    Write.left_apply (sector_spanTarget (Dwipe.totalSec opt param).toNat_lt hpm hc),
    passByte_last hmode]

/-- **The complete wipe in the extended addressing**, in the fast and in the three-pass mode. -/
theorem complete_wipe (env : Env σ) (opt : Options) (param : DiskParam) (m : Machine σ)
    (byte : ℕ → UInt8) (view : σ → ℕ → Sector) (hp : PlainExt opt param)
    (hmode : opt.mode = .fast ∨ opt.mode = .dod) (hlo : 1 ≤ param.ext.nsectors.toNat)
    (hhi : param.ext.nsectors.toNat ≤ 2 ^ 48) (hstart : Starts env opt param m byte)
    (hbios : CarriesOut env param view) : WipedClean env opt param m view := by
  have hocd : opt.mode ≠ .ocd := by
    rcases hmode with h | h <;> simp [h]
  have hran := hstart.ran hp.accepted
  obtain ⟨l₀, m', hrun, -⟩ := hstart.split
  have hT : (Dwipe.totalSec opt param).toNat = param.ext.nsectors.toNat := by rw [hp.totalSec]
  refine ⟨?_, fun p hpass s hs ↦ ?_, fun w hw ↦ ?_, fun w hw ↦ ?_, ⟨hp.accepted, hran.nonneg⟩,
    fun s hs j ↦ ?_⟩
  · rw [hrun]
    exact hp.val_eq_zero hbios hlo _ m'
  · rw [hran.writes]
    obtain ⟨l₁, q, l₂, -, -, -, hsector⟩ := sectorWrites_plan hp.hasExt hp.test hp.not_cdrom
      env.mbrBin byte m.randNext (s := s) (by omega)
    rw [hsector, passRequests_passWrites hpass, List.length_singleton]
  · rw [hran.writes, hp.plan, wipePlan_eq opt hp.not_cdrom] at hw
    obtain ⟨-, -, -, hsite⟩ := mem_runWrites_spans hp.hasExt hp.test _ _ (fun _ h ↦ h) hw
    exact hsite
  · rw [hran.writes] at hw
    exact hp.target hw
  · rw [hrun]
    exact hp.zero hbios hocd (by omega) _ m' hs j

theorem carriesOut_writing (param : DiskParam) : CarriesOut writing param fun d ↦ d := by
  refine ⟨fun d q h ↦ ?_, fun d q h s j ↦ ?_⟩
  · simp [writing, Env.ofBios, h.1]
  · simp only [writing, Env.ofBios, h.1, if_true]
    rfl

theorem unreadable_writing (d : ℕ → Sector) : Unreadable writing d := by
  intro q h
  have hne : q.reg.ah ≠ 0x43 := by
    rw [h]
    decide
  simp [writing, Env.ofBios, hne, RealArea.withStatus]

/-- Seventeen sectors of `AAh`, wiped by two requests. -/
theorem complete_wipe_seventeen :
    WipedClean writing Options.plain (DiskParam.ofSectors 17)
      (Machine.fresh (fun _ _ ↦ 0xAA) 1) fun d ↦ d :=
  complete_wipe writing Options.plain (DiskParam.ofSectors 17) _ (fun _ ↦ 0x55) (fun d ↦ d)
    ⟨by decide, by decide, rfl, rfl, rfl⟩ (Or.inl rfl) (by decide) (by decide)
    ⟨isSkipedDisk_of_unreadable (by decide) (unreadable_writing _), rfl⟩ (carriesOut_writing _)

end Dwipe

import Dwipe.Disk.Label
import Dwipe.Machine.Scripts
import Dwipe.Wipe.Layout
import Dwipe.Wipe.Permitted

/-!
# Whole runs of `wipe_disk`

The plan, the permissions and the arithmetic put together: what a run of `wipe_disk` that gets past
the skip test and the allocation has asked of the BIOS, sector by sector. The label scan in front of
the plan only reads, so the write requests of the run are those of the plan.

`writtenTo` is what one sector of the disk receives over the whole run, in the extended addressing;
along a tiling of the disk that is what the one call covering the sector sends
(`sectorWrites_plan`).
-/

namespace Dwipe

variable {σ : Type} {env : Env σ} {opt : Options} {param : DiskParam} {m : Machine σ}
  {byte : ℕ → UInt8}

/-! ### Runs that reach the wipe loop -/

/-- The disk is not skipped, and the heap has a block for the work buffer, holding `byte`. -/
structure Starts (env : Env σ) (opt : Options) (param : DiskParam) (m : Machine σ)
    (byte : ℕ → UInt8) : Prop where
  kept : (isSkipedDisk env opt param m).val = 0
  memory : env.malloc (isSkipedDisk env opt param m).state.ticks = some byte

theorem Starts.not_cdrom (h : Starts env opt param m byte) : isCdrom param = 0 :=
  isCdrom_of_not_skiped rfl h.kept

/-- A drive that answers no read is not skipped. -/
theorem isSkipedDisk_of_unreadable (hp : isCdrom param = 0) (h : Unreadable env m.bios) :
    (isSkipedDisk env opt param m).val = 0 := by
  have hlabel : (containFatLabel env opt param opt.skip m).val = 0 :=
    containFatLabel_of_unreadable opt.skip h
  have hne : ¬isCdrom param ≠ 0 := by simpa using hp
  rw [isSkipedDisk, if_neg hne]
  simp [hlabel]

/-- A BIOS that fails every request does not keep `wipe_disk` from starting. -/
theorem starts_failing {m : Machine Unit} (hp : isCdrom param = 0) :
    Starts failing opt param m fun _ ↦ 0 := by
  refine ⟨isSkipedDisk_of_unreadable hp fun q _ ↦ ⟨rfl, ?_⟩, rfl⟩
  show (1 : UInt8) ≠ 0
  decide

/-- A BIOS that accepts every request shows the scan an empty partition table, if the transfer
buffer was empty. -/
theorem starts_obliging {heap : ℕ → UInt8} {m : Machine Unit} (hheap : byte = heap)
    (hp : isCdrom param = 0) (hm : m.area.buffer = fun _ ↦ 0) :
    Starts (obliging heap) opt param m byte := by
  have htable : (tableRead (obliging heap) param m).val.buffer.byte = fun _ ↦ 0 := by
    rw [tableRead]
    by_cases href : chsRefused false param ⟨0, 0, 1⟩ 1 labelBufferSize
    · rw [readSectorsChs, sectorChsRw_of_refused href]
      rfl
    · rw [readSectorsChs_of_not_refused href _ rfl]
      funext j
      have hj : m.area.buffer j = 0 := congrFun hm j
      simp [chsReadResult, exchangeAt, obliging, Env.ofBios, chsAsk, RealArea.withStatus, memcpy,
        labelMachine, hj]
  have hlabel : (containFatLabel (obliging heap) opt param opt.skip m).val = 0 := by
    refine containFatLabel_of_unused _ m fun i ↦ ?_
    rw [htable]
    rfl
  refine ⟨?_, ?_⟩
  · have hne : ¬isCdrom param ≠ 0 := by simpa using hp
    rw [isSkipedDisk, if_neg hne]
    simp [hlabel]
  · rw [hheap]
    rfl

/-- What the skip test leaves behind: `_rand_next` as it was, reads only, nothing returned. -/
structure Scanned (env : Env σ) (param : DiskParam) (m : Machine σ)
    (t : Traced (Machine σ) Event ℤ) : Prop where
  randNext : t.state.randNext = m.randNext
  returns : returns t.events = []
  reads : ∀ x ∈ exchanges t.events, LabelRead env param x.site x.req

theorem isSkipedDisk_scanned (m : Machine σ) :
    Scanned env param m (isSkipedDisk env opt param m) := by
  have hI : Stable env fun m' ↦ m'.randNext = m.randNext :=
    ⟨fun _ _ h ↦ h, fun _ _ h ↦ h, fun _ _ h ↦ h⟩
  have hsafe : TraceM.Safe _ (Obeys (LabelRead env param) fun _ ↦ False) _
      (isSkipedDisk env opt param) := isSkipedDisk_safe hI
  obtain ⟨hrand, hev⟩ := hsafe m rfl
  rw [forall_obeys_iff] at hev
  refine ⟨hrand, ?_, hev.1⟩
  exact List.eq_nil_iff_forall_not_mem.2 fun p hp ↦ hev.2 p hp

theorem Scanned.writes {t : Traced (Machine σ) Event ℤ} (h : Scanned env param m t) :
    writes t.events = [] := by
  refine List.filterMap_eq_nil_iff.2 fun x hx ↦ ?_
  obtain ⟨-, -, -, hah⟩ := h.reads x hx
  rw [List.mem_cons, List.mem_singleton] at hah
  rcases hah with hah | hah <;> simp [Exchange.write?, hah]

/-- A skipped disk is reported with 1, which `do_main` books as skipped. -/
theorem wipeDisk_val_of_skiped (h : (isSkipedDisk env opt param m).val ≠ 0) :
    (wipeDisk env opt param m).val = 1 := by
  rw [wipeDisk_of_skiped rfl h]

/-- **A skipped disk is not written to**: all that is asked is what the label scan asks. -/
theorem not_isWrite_of_skiped (h : (isSkipedDisk env opt param m).val ≠ 0) :
    ∀ x ∈ exchanges (wipeDisk env opt param m).events, ¬x.IsWrite := by
  rw [wipeDisk_of_skiped rfl h]
  intro x hx
  have hx' : x ∈ exchanges (isSkipedDisk env opt param m).events := by simpa using hx
  exact ((isSkipedDisk_scanned m).reads x hx').not_isWrite

/-- The run of the plan inside a run of `wipe_disk`. -/
theorem Starts.split (h : Starts env opt param m byte) :
    ∃ l₀ m', wipeDisk env opt param m =
        ⟨(wipeBuffer env opt param ⟨wipeBufferSize.toNat, byte⟩ m').val,
          (wipeBuffer env opt param ⟨wipeBufferSize.toNat, byte⟩ m').state,
          l₀ ++ (wipeBuffer env opt param ⟨wipeBufferSize.toNat, byte⟩ m').events⟩ ∧
      m'.randNext = m.randNext ∧ Idle l₀ := by
  obtain ⟨t, ht⟩ : ∃ t, t = isSkipedDisk env opt param m := ⟨_, rfl⟩
  have hscan : Scanned env param m t := ht ▸ isSkipedDisk_scanned m
  have hkept : t.val = 0 := ht ▸ h.kept
  refine ⟨t.events ++ [.returned (.isSkipedDisk param.diskId) t.val],
    { t.state with ticks := t.state.ticks + 1 }, ?_, hscan.randNext, ?_, ?_, ?_⟩
  · rw [wipeDisk_of_memory ht hkept (ht ▸ h.memory) rfl, List.append_assoc]
    rfl
  · simp [stepReturns, hscan.returns, Call.isStep]
  · simp [hscan.returns, hkept]
  · have hw : writes [Event.returned (.isSkipedDisk param.diskId) t.val] = [] := rfl
    rw [writes_append, hscan.writes, hw, List.append_nil]

/-- **A run of `wipe_disk` through a plan without refused steps.** -/
theorem Starts.ran (h : Starts env opt param m byte)
    (hacc : ∀ c ∈ plan opt param, ¬refused opt param c) :
    Ran opt param env.mbrBin byte m.randNext (plan opt param) (wipeDisk env opt param m).val
      (wipeDisk env opt param m).events := by
  obtain ⟨l₀, m', hrun, hrand, hidle⟩ := h.split
  rw [hrun]
  have hran : Ran opt param env.mbrBin byte m'.randNext (plan opt param) _ _ :=
    wipeBuffer_ran h.not_cdrom hacc ⟨wipeBufferSize.toNat, byte⟩ m'
  rw [hrand] at hran
  exact hran.prepend hidle

/-- **A run of `wipe_disk` through a plan with a refused step.** -/
theorem Starts.val_of_refused (h : Starts env opt param m byte)
    (href : ∃ c ∈ plan opt param, refused opt param c) :
    (wipeDisk env opt param m).val = -1 := by
  obtain ⟨l₀, m', hrun, -⟩ := h.split
  rw [hrun]
  exact wipeBuffer_of_refused h.not_cdrom href _ m'

/-! ### Runs with nothing to wipe -/

/-- The data requests of the wipe loop, and the verifications of its writes. -/
def Site.isLoop : Site → Prop
  | .test | .pass _ => True
  | _ => False

/-- **A drive that is skipped, or that has nothing to wipe**, gets no request from the wipe loop. -/
theorem wipeDisk_idle
    (h : isCdrom param ≠ 0 ∨ chunkCount opt param = 0 ∧ leftSec opt param = 0) :
    ∀ e ∈ (wipeDisk env opt param m).events,
      Obeys (fun s _ ↦ ¬s.isLoop) (fun c ↦ ∀ i, c ≠ .passWrite i) e := by
  obtain ⟨t, ht⟩ : ∃ t, t = isSkipedDisk env opt param m := ⟨_, rfl⟩
  have hscan : ∀ e ∈ t.events ++ [.returned (.isSkipedDisk param.diskId) t.val],
      Obeys (fun s _ ↦ ¬s.isLoop) (fun c ↦ ∀ i, c ≠ .passWrite i) e := by
    have hsafe : TraceM.Safe (fun _ ↦ True) (Obeys (LabelRead env param) fun _ ↦ False)
        (fun _ ↦ True) (isSkipedDisk env opt param) := isSkipedDisk_safe (stable_true env)
    intro e he
    rw [List.mem_append, List.mem_singleton] at he
    rcases he with he | rfl
    · rw [ht] at he
      refine ((hsafe m trivial).2 e he).mono ?_ fun c hc ↦ hc.elim
      rintro s q ⟨rfl, -⟩
      exact id
    · intro i
      simp
  by_cases hskip : t.val = 0
  · have hp := isCdrom_of_not_skiped ht hskip
    cases hmem : env.malloc t.state.ticks with
    | none =>
      rw [wipeDisk_of_no_memory ht hskip hmem]
      exact hscan
    | some byte =>
      -- kept, with nothing to wipe: after the scan only the MBR step is left
      have hidle := h.resolve_left (not_not.2 hp)
      rw [wipeDisk_of_memory ht hskip hmem rfl]
      intro e he
      have hsplit := List.append_assoc t.events
        [.returned (.isSkipedDisk param.diskId) t.val]
        (wipeBuffer env opt param ⟨wipeBufferSize.toNat, byte⟩
          { t.state with ticks := t.state.ticks + 1 }).events
      rw [List.singleton_append] at hsplit
      rw [← hsplit, List.mem_append] at he
      rcases he with he | he
      · exact hscan e he
      · have hmbr := wipeBuffer_safe_of_empty (stable_true env)
          (C := fun c ↦ ∀ i, c ≠ .passWrite i) (by simp) hidle.1 hidle.2 _ trivial e he
        refine hmbr.mono ?_ fun _ hc ↦ hc
        rintro s q ⟨-, -, rfl, -⟩
        exact id
  · rw [wipeDisk_of_skiped ht hskip]
    exact hscan

/-! ### One pass -/

/-- The write requests of one pass, over all calls of a run. -/
def passRequests (p : ℕ) (ws : List Write) : List Write := ws.filter fun w ↦ w.site = .pass p

theorem passRequests_append (p : ℕ) (ws ws' : List Write) :
    passRequests p (ws ++ ws') = passRequests p ws ++ passRequests p ws' :=
  List.filter_append _ _

/-- A call makes one request a pass. -/
theorem passRequests_passWrites {diskId : UInt8} {target : Target} {n k p : ℕ}
    {f : ℕ → ℕ → UInt8} (hp : p < k) :
    passRequests p (passWrites diskId target n f k) =
      [⟨.pass p, diskId, target, payloadOf (f p) n⟩] := by
  have hcount : (List.range k).count p = 1 := by rw [List.count_range, if_pos hp]
  have hfilter : ((List.range k).filter fun i ↦ i = p) = [p] := by
    rw [List.filter_eq, hcount]
    rfl
  simp [passRequests, passWrites, List.filter_map, Function.comp_def, hfilter]

theorem passRequests_mbrPlan {mbrBin : ℕ → UInt8} (p : ℕ) (r : UInt64) :
    passRequests p (runWrites opt param mbrBin byte r (mbrPlan opt)) = [] := by
  rw [mbrPlan]
  split_ifs <;> rfl

/-! ### One sector -/

/-- The target names the sector, in the extended addressing. -/
def Target.Covers : Target → ℕ → Prop
  | .lba b n, s => Span.Covers ⟨b.toNat, n.toNat⟩ s
  | .chs _ _ _, _ => False

instance : (t : Target) → (s : ℕ) → Decidable (t.Covers s)
  | .lba b n, s => inferInstanceAs (Decidable (Span.Covers ⟨b.toNat, n.toNat⟩ s))
  | .chs _ _ _, _ => inferInstanceAs (Decidable False)

/-- The write requests that name the sector, in the order they were made. -/
def sectorWrites (s : ℕ) (ws : List Write) : List Write := ws.filter fun w ↦ w.target.Covers s

/-- The 512 bytes a write request brings to the sector. -/
def Write.sector (w : Write) (s : ℕ) : List UInt8 :=
  match w.target with
  | .lba b _ => (w.payload.drop (512 * (s - b.toNat))).take 512
  | .chs _ _ _ => []

/-- **What a sector receives**, in order: from each request that names it, the bytes of its own
sector. -/
def writtenTo (s : ℕ) (ws : List Write) : List (List UInt8) :=
  (sectorWrites s ws).map fun w ↦ w.sector s

theorem sectorWrites_append (s : ℕ) (ws ws' : List Write) :
    sectorWrites s (ws ++ ws') = sectorWrites s ws ++ sectorWrites s ws' :=
  List.filter_append _ _

/-- The `d`th sector of a payload. -/
theorem payloadOf_sector {f : ℕ → UInt8} {n d : ℕ} (h : d < n) :
    ((payloadOf f n).drop (512 * d)).take 512 = (List.range 512).map fun j ↦ f (512 * d + j) := by
  apply List.ext_getElem
  · simp only [payloadOf, List.length_take, List.length_drop, List.length_map, List.length_range]
    omega
  · intro i h1 h2
    simp [payloadOf, List.getElem_take, List.getElem_drop]

/-- The bytes a request with a payload from `f` brings to a sector it names. -/
theorem sector_payloadOf {site : Site} {diskId : UInt8} {b : UInt64} {k : UInt16} {f : ℕ → UInt8}
    {n s : ℕ} (h : s - b.toNat < n) :
    Write.sector ⟨site, diskId, .lba b k, payloadOf f n⟩ s =
      (List.range 512).map fun j ↦ f (512 * (s - b.toNat) + j) :=
  payloadOf_sector h

/-- The target of the write requests for a span. -/
def spanTarget (p : Span) : Target :=
  .lba (UInt64.ofNat p.start) (UInt32.ofNat p.len).toUInt16

section sector

variable {T : ℕ} {p : Span} {s : ℕ} {mbrBin : ℕ → UInt8} {r : UInt64}

theorem spanTarget_covers (hT : T < 2 ^ 64) (hp : p ∈ spans T) :
    (spanTarget p).Covers s ↔ p.Covers s := by
  obtain ⟨hstart, hlen⟩ := spanCall_toNat hT hp
  obtain ⟨h16, -, -⟩ := mem_spans hp
  have hn : (UInt32.ofNat p.len).toUInt16.toNat = p.len := by
    rw [UInt32.toNat_toUInt16, hlen]
    exact Nat.mod_eq_of_lt (by omega)
  rw [spanTarget, Target.Covers, hstart, hn]

theorem stepWrites_spanCall (hext : param.hasExt ≠ 0) (htest : opt.test = false)
    (hlen : p.len < 2 ^ 32) :
    stepWrites opt param mbrBin byte r (spanCall p) =
      passWrites param.diskId (spanTarget p) p.len (passByte opt wipeBufferSize.toNat r)
        (passes opt) := by
  have hsent : sentByte opt param byte wipeBufferSize.toNat r =
      passByte opt wipeBufferSize.toNat r := by
    funext i j
    simp [sentByte, hext]
  have hn : (UInt32.ofNat p.len).toNat = p.len := by
    rw [UInt32.toNat_ofNat']
    exact Nat.mod_eq_of_lt hlen
  rw [spanCall, stepWrites, callWrites, htest, if_neg (by simp), aimedAt, if_pos hext,
    Option.toList_some, List.flatMap_singleton, hsent, hn]
  rfl

theorem sectorWrites_passWrites (hc : p.Covers s) (hT : T < 2 ^ 64) (hp : p ∈ spans T)
    (diskId : UInt8) (f : ℕ → ℕ → UInt8) (k : ℕ) :
    sectorWrites s (passWrites diskId (spanTarget p) p.len f k) =
      passWrites diskId (spanTarget p) p.len f k := by
  refine List.filter_eq_self.2 fun w hw ↦ ?_
  obtain ⟨i, -, rfl⟩ := List.mem_map.1 hw
  simpa using (spanTarget_covers hT hp).2 hc

theorem sectorWrites_passWrites_nil (hc : ¬p.Covers s) (hT : T < 2 ^ 64) (hp : p ∈ spans T)
    (diskId : UInt8) (f : ℕ → ℕ → UInt8) (k : ℕ) :
    sectorWrites s (passWrites diskId (spanTarget p) p.len f k) = [] := by
  refine List.filter_eq_nil_iff.2 fun w hw ↦ ?_
  obtain ⟨i, -, rfl⟩ := List.mem_map.1 hw
  simpa using fun h ↦ hc ((spanTarget_covers hT hp).1 h)

/-- Every write request of the calls is a pass over one of the spans. -/
theorem mem_runWrites_spans (hext : param.hasExt ≠ 0) (htest : opt.test = false) {w : Write} :
    ∀ (l : List Span) (r : UInt64), (∀ p ∈ l, p ∈ spans T) →
      w ∈ runWrites opt param mbrBin byte r (l.map spanCall) →
      ∃ p ∈ l, w.target = spanTarget p ∧ ∃ i < passes opt, w.site = .pass i
  | [], _, _, hw => absurd hw List.not_mem_nil
  | p :: l, r, hmem, hw => by
    obtain ⟨hlen, -, -⟩ := mem_spans (hmem p List.mem_cons_self)
    rw [List.map_cons, runWrites, List.mem_append,
      stepWrites_spanCall hext htest (by omega)] at hw
    rcases hw with hw | hw
    · obtain ⟨i, hi, rfl⟩ := List.mem_map.1 hw
      exact ⟨p, List.mem_cons_self, rfl, i, List.mem_range.1 hi, rfl⟩
    · obtain ⟨q, hq, h⟩ := mem_runWrites_spans hext htest l _
        (fun q hq ↦ hmem q (List.mem_cons_of_mem _ hq)) hw
      exact ⟨q, List.mem_cons_of_mem _ hq, h⟩

/-- Steps that write nothing to the sector write nothing to it together. -/
theorem sectorWrites_runWrites_nil :
    ∀ (cs : List Call) (r : UInt64),
      (∀ c ∈ cs, ∀ r, sectorWrites s (stepWrites opt param mbrBin byte r c) = []) →
      sectorWrites s (runWrites opt param mbrBin byte r cs) = []
  | [], _, _ => rfl
  | c :: cs, r, h => by
    rw [runWrites, sectorWrites_append, h c List.mem_cons_self, List.nil_append]
    exact sectorWrites_runWrites_nil cs _ fun d hd ↦ h d (List.mem_cons_of_mem _ hd)

/-- A call that does not cover the sector writes nothing to it. -/
theorem sectorWrites_spanCall_nil (hext : param.hasExt ≠ 0) (htest : opt.test = false)
    (hT : T < 2 ^ 64) (hp : p ∈ spans T) (hc : ¬p.Covers s) (r : UInt64) :
    sectorWrites s (stepWrites opt param mbrBin byte r (spanCall p)) = [] := by
  obtain ⟨hlen, -, -⟩ := mem_spans hp
  rw [stepWrites_spanCall hext htest (by omega), sectorWrites_passWrites_nil hc hT hp]

theorem sectorWrites_spanCalls_nil (hext : param.hasExt ≠ 0) (htest : opt.test = false)
    (hT : T < 2 ^ 64) {l : List Span} (hmem : ∀ p ∈ l, p ∈ spans T)
    (hc : ∀ p ∈ l, ¬p.Covers s) (r : UInt64) :
    sectorWrites s (runWrites opt param mbrBin byte r (l.map spanCall)) = [] := by
  refine sectorWrites_runWrites_nil _ r fun c h ↦ ?_
  obtain ⟨p, hp, rfl⟩ := List.mem_map.1 h
  exact sectorWrites_spanCall_nil hext htest hT (hmem p hp) (hc p hp)

/-- The MBR write is not an extended one. -/
theorem sectorWrites_mbrPlan_nil {c : Call} (hc : c ∈ mbrPlan opt) (r : UInt64) :
    sectorWrites s (stepWrites opt param mbrBin byte r c) = [] := by
  obtain rfl := eq_of_mem_mbrPlan hc
  refine List.filter_eq_nil_iff.2 fun w hw ↦ ?_
  obtain rfl : w = _ := by simpa [stepWrites] using hw
  rw [decide_eq_true_iff]
  exact id

/-- **A sector below the end of the tiling is written by one call**, one request a pass. -/
theorem sectorWrites_plan (hext : param.hasExt ≠ 0) (htest : opt.test = false)
    (hp : isCdrom param = 0) (mbrBin byte : ℕ → UInt8) (r : UInt64)
    (hs : s < (totalSec opt param).toNat % 2 ^ 55) :
    ∃ l₁ p l₂, spans (totalSec opt param).toNat = l₁ ++ p :: l₂ ∧ p.Covers s ∧
      (∀ q ∈ l₁, ¬q.Covers s) ∧
      sectorWrites s (runWrites opt param mbrBin byte r (plan opt param)) =
        passWrites param.diskId (spanTarget p) p.len
          (passByte opt wipeBufferSize.toNat (runRand opt r (l₁.map spanCall))) (passes opt) := by
  have hT := (totalSec opt param).toNat_lt
  obtain ⟨l₁, p, l₂, hl, hc, h1, h2⟩ :=
    (tiles_spans (totalSec opt param).toNat).split (Nat.zero_le s) hs
  refine ⟨l₁, p, l₂, hl, hc, h1, ?_⟩
  have hmem (q : Span) (hq : q ∈ l₁ ∨ q = p ∨ q ∈ l₂) :
      q ∈ spans (totalSec opt param).toNat := by
    rw [hl, List.mem_append, List.mem_cons]
    exact hq
  have hpm := hmem p (Or.inr (Or.inl rfl))
  obtain ⟨hlen, -, -⟩ := mem_spans hpm
  rw [plan, wipePlan_eq opt hp, hl, List.map_append, List.map_cons, runWrites_append,
    runWrites_append, runWrites, sectorWrites_append, sectorWrites_append, sectorWrites_append,
    sectorWrites_spanCalls_nil hext htest hT (fun q hq ↦ hmem q (Or.inl hq)) h1,
    sectorWrites_spanCalls_nil hext htest hT (fun q hq ↦ hmem q (Or.inr (Or.inr hq))) h2,
    sectorWrites_runWrites_nil (mbrPlan opt) _ fun c h ↦ sectorWrites_mbrPlan_nil h,
    stepWrites_spanCall hext htest (by omega),
    sectorWrites_passWrites hc hT hpm, List.append_nil, List.append_nil, List.nil_append]

/-- **A sector beyond the end of the tiling is not written at all.** -/
theorem sectorWrites_plan_nil (hext : param.hasExt ≠ 0) (htest : opt.test = false)
    (hp : isCdrom param = 0) (mbrBin byte : ℕ → UInt8) (r : UInt64)
    (hs : (totalSec opt param).toNat % 2 ^ 55 ≤ s) :
    sectorWrites s (runWrites opt param mbrBin byte r (plan opt param)) = [] := by
  rw [plan, wipePlan_eq opt hp, runWrites_append, sectorWrites_append,
    sectorWrites_runWrites_nil (mbrPlan opt) _ fun c h ↦ sectorWrites_mbrPlan_nil h,
    List.append_nil]
  exact sectorWrites_spanCalls_nil hext htest (totalSec opt param).toNat_lt (fun _ h ↦ h)
    ((tiles_spans _).not_covers (Or.inr hs)) _

/-- **From a refused step on, the plan has nothing for a sector of the disk.** -/
theorem sectorWrites_of_refused (hext : param.hasExt ≠ 0) (htest : opt.test = false)
    (hbps : param.ext.bytesPerSector = 512) (hs : s < param.ext.nsectors.toNat)
    {done rest : List Call} {c : Call} (hplan : plan opt param = done ++ c :: rest)
    (href : refused opt param c) (r : UInt64) :
    sectorWrites s (runWrites opt param mbrBin byte r (c :: rest)) = [] := by
  have hp : isCdrom param = 0 := isCdrom_eq_zero_iff.2 fun _ ↦ hbps
  have hT := (totalSec opt param).toNat_lt
  refine sectorWrites_runWrites_nil _ r fun d hd ↦ ?_
  rw [plan, wipePlan_eq opt hp, List.append_eq_append_iff] at hplan
  rcases hplan with ⟨l, -, hl⟩ | ⟨l, hl, hrest⟩
  · refine sectorWrites_mbrPlan_nil ?_
    rw [hl]
    exact List.mem_append_right _ hd
  rw [hrest, List.mem_append] at hd
  rcases hd with hd | hd
  · obtain ⟨l₁, l₂, hspans, -, rfl⟩ := List.map_eq_append_iff.1 hl
    obtain ⟨q, hq, rfl⟩ := List.mem_map.1 hd
    have htiles := tiles_spans (totalSec opt param).toNat
    rw [hspans] at htiles
    obtain ⟨a, -, hl₂⟩ := htiles.of_append
    have hmem : ∀ p ∈ l₂, p ∈ spans (totalSec opt param).toNat := fun p hp ↦ by
      rw [hspans]
      exact List.mem_append_right _ hp
    refine sectorWrites_spanCall_nil hext htest hT (hmem q hq) (hl₂.not_covers (Or.inl ?_) q hq)
    -- the first call from here on is the refused one, and it begins at or beyond the end
    cases l₂ with
    | nil => exact absurd hq List.not_mem_nil
    | cons p l₂ =>
      obtain ⟨hstart, -⟩ := hl₂
      obtain ⟨rfl, -⟩ := List.cons_eq_cons.1 hrest
      obtain ⟨hoff, hn⟩ := spanCall_toNat hT (hmem p List.mem_cons_self)
      obtain ⟨hlen, -, -⟩ := mem_spans (hmem p List.mem_cons_self)
      have h1 : (1 : UInt64).toNat = 1 := rfl
      have hlt := param.ext.nsectors.toNat_lt
      rw [spanCall, refused, callRefused, if_pos hext, lbaRefused_iff hext hbps _ _ (by omega),
        gt_iff_lt, UInt64.lt_iff_toNat_lt, UInt64.toNat_sub, hoff, h1] at href
      omega
  · exact sectorWrites_mbrPlan_nil hd

/-- **Every run writes to a sector of the disk what the plan says**, also a run that a refused step
has ended. -/
theorem Starts.sectorWrites_eq (h : Starts env opt param m byte) (hext : param.hasExt ≠ 0)
    (htest : opt.test = false) (hs : s < param.ext.nsectors.toNat) :
    sectorWrites s (writes (wipeDisk env opt param m).events) =
      sectorWrites s (runWrites opt param env.mbrBin byte m.randNext (plan opt param)) := by
  have hbps := isCdrom_eq_zero_iff.1 h.not_cdrom hext
  obtain ⟨l₀, m', hrun, hrand, hidle⟩ := h.split
  rw [hrun, writes_append, hidle.writes, List.nil_append]
  rcases wipeBuffer_verdict env h.not_cdrom ⟨wipeBufferSize.toNat, byte⟩ m' with hran | ⟨-, hstop⟩
  · rw [hran.writes, hrand]
  · obtain ⟨done, c, ret, l₁, l₂, ⟨rest, hplan⟩, href, hl, hx, hran⟩ := hstop
    rw [List.append_assoc, List.singleton_append] at hplan
    rw [hl, writes_append, writes_of_exchanges_nil hx, List.append_nil, hran.writes, hrand,
      ← hplan, runWrites_append, sectorWrites_append,
      sectorWrites_of_refused hext htest hbps hs hplan.symm href, List.append_nil]

/-- The bytes a pass brings to a sector of its span. -/
theorem sector_spanTarget (hT : T < 2 ^ 64) (hp : p ∈ spans T) (hc : p.Covers s) {site : Site}
    {diskId : UInt8} {f : ℕ → UInt8} :
    Write.sector ⟨site, diskId, spanTarget p, payloadOf f p.len⟩ s =
      (List.range 512).map fun j ↦ f (512 * (s - p.start) + j) := by
  obtain ⟨hstart, -⟩ := spanCall_toNat hT hp
  have hd : s - (UInt64.ofNat p.start).toNat < p.len := by
    have h1 := hc.1
    have h2 := hc.2
    omega
  rw [spanTarget, sector_payloadOf hd, hstart]

end sector

end Dwipe

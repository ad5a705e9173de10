import Dwipe.Wipe.Passes

/-!
# The plan of a wipe

`wipe_disk` makes its calls in an order that depends on the drive and the options alone: the chunks,
the remainder, the MBR. That list is the `plan`. A step of the plan is refused or accepted by the
parameter checks, again a matter of the drive and the options alone, and a run goes through the
plan until the first refused step.

The main results say what a run leaves behind, for **every** BIOS: a run of a plan without refused
steps makes exactly the calls of the plan and returns what the last of them returned
(`wipeBuffer_ran`); a run of any other plan returns `-1` (`wipeBuffer_of_refused`). In both cases
the write requests are those of the steps made (`Ran.writes`).

A positive value never stops a run: the code leaves its loops on `ret < 0` only.
-/

namespace Dwipe

variable {σ : Type} {env : Env σ} {opt : Options}

/-! ### Steps and plans -/

/-- The calls `wipe_disk` makes for their effect on the disk. -/
def Call.isStep : Call → Bool
  | .wipeSectorsLba _ _ => true
  | .mbrWrite => true
  | .isSkipedDisk _ | .passWrite _ | .wipeDisk _ => false

/-- The returned values of the steps of a trace, in order. -/
def stepReturns (l : List Event) : List (Call × ℤ) := (returns l).filter fun p ↦ p.1.isStep

theorem stepReturns_append (l l' : List Event) :
    stepReturns (l ++ l') = stepReturns l ++ stepReturns l' := by
  simp [stepReturns]

/-- The number of rounds of the chunk loop, if no call in it returns a negative number. -/
def chunkCount (opt : Options) (param : DiskParam) : ℕ :=
  (totalSize opt param / wipeBufferSize.toUInt64).toNat

/-- `offset_lba` before round `k` of the chunk loop. -/
def chunkOffset (opt : Options) (param : DiskParam) (k : ℕ) : UInt64 :=
  UInt64.ofNat (k * (chunkSectors opt param).toNat)

/-- `left_sec` after the chunk loop: the sectors that do not fill a block. -/
def leftSec (opt : Options) (param : DiskParam) : UInt64 :=
  totalSec opt param - chunkOffset opt param (chunkCount opt param)

/-- The bytes of the remainder, by which the progress is brought to its end. -/
def leftBytes (opt : Options) (param : DiskParam) : UInt64 :=
  leftSec opt param * (wipeSectorSize opt param).toUInt64

/-- The first `k` rounds of the chunk loop, as the calls they make. -/
def chunkPlan (opt : Options) (param : DiskParam) (k : ℕ) : List Call :=
  (List.range k).map fun i ↦ .wipeSectorsLba (chunkOffset opt param i) (chunkSectors opt param)

/-- The remainder: one call, or none if the blocks come out even. -/
def remainderPlan (opt : Options) (param : DiskParam) : List Call :=
  if leftSec opt param ≠ 0 then
    [.wipeSectorsLba (chunkOffset opt param (chunkCount opt param)) (leftSec opt param).toUInt32]
  else []

/-- The MBR write, which is no call of `wipe_sectors_lba` and is left out in a test. -/
def mbrPlan (opt : Options) : List Call := if opt.mbr ∧ ¬opt.test then [.mbrWrite] else []

theorem eq_of_mem_mbrPlan {c : Call} (h : c ∈ mbrPlan opt) : c = .mbrWrite := by
  rw [mbrPlan] at h
  split_ifs at h
  · exact List.mem_singleton.1 h
  · exact absurd h List.not_mem_nil

/-- The calls of the wipe loop of `wipe_disk`, **known before the first request**: the answers
decide only how far along this list a run gets. -/
def wipePlan (opt : Options) (param : DiskParam) : List Call :=
  chunkPlan opt param (chunkCount opt param) ++ remainderPlan opt param

/-- **The calls of `wipe_disk`**, in order, as long as none of them returns a negative value. -/
def plan (opt : Options) (param : DiskParam) : List Call := wipePlan opt param ++ mbrPlan opt

/-- The parameter checks refuse the step, so that it fails without a request. -/
def refused (opt : Options) (param : DiskParam) : Call → Prop
  | .wipeSectorsLba offset n => callRefused opt param offset n wipeBufferSize
  | .mbrWrite => chsRefused true param ⟨0, 0, 1⟩ 1 mbrBinLen
  | .isSkipedDisk _ | .passWrite _ | .wipeDisk _ => False

/-! ### What the steps write -/

/-- `_rand_next` after an accepted step; a refused one ends the run. -/
def stepRand (opt : Options) (r : UInt64) : Call → UInt64
  | .wipeSectorsLba _ _ => callRand opt wipeBufferSize.toNat r
  | .isSkipedDisk _ | .passWrite _ | .mbrWrite | .wipeDisk _ => r

/-- The write requests of a step. -/
def stepWrites (opt : Options) (param : DiskParam) (mbrBin byte : ℕ → UInt8) (r : UInt64) :
    Call → List Write
  | .wipeSectorsLba offset n => callWrites opt param byte wipeBufferSize.toNat r offset n
  | .mbrWrite => [⟨.mbr, param.diskId, .chs (setChsToPack 0 1) 0 1, payloadOf mbrBin 1⟩]
  | .isSkipedDisk _ | .passWrite _ | .wipeDisk _ => []

/-- `_rand_next` after several steps, each of which goes on where the one before has stopped. -/
def runRand (opt : Options) (r : UInt64) (cs : List Call) : UInt64 := cs.foldl (stepRand opt) r

/-- The write requests of several steps. -/
def runWrites (opt : Options) (param : DiskParam) (mbrBin byte : ℕ → UInt8) :
    UInt64 → List Call → List Write
  | _, [] => []
  | r, c :: cs => stepWrites opt param mbrBin byte r c ++
      runWrites opt param mbrBin byte (stepRand opt r c) cs

theorem runRand_append (r : UInt64) (cs : List Call) (c : Call) :
    runRand opt r (cs ++ [c]) = stepRand opt (runRand opt r cs) c := by
  simp [runRand]

theorem runWrites_append {param : DiskParam} {mbrBin byte : ℕ → UInt8} (r : UInt64)
    (cs ds : List Call) :
    runWrites opt param mbrBin byte r (cs ++ ds) =
      runWrites opt param mbrBin byte r cs ++
        runWrites opt param mbrBin byte (runRand opt r cs) ds := by
  induction cs generalizing r with
  | nil => rfl
  | cons c cs ih =>
    simp only [List.cons_append, runWrites, ih, List.append_assoc]
    rfl

/-! ### A run so far -/

/-- **What an accepted step leaves behind** when it finds `_rand_next` at `r`: its own return among
nothing negative, the writes `stepWrites` names, and a returned value that is the result of its last
exchange. -/
structure Made (opt : Options) (param : DiskParam) (mbrBin byte : ℕ → UInt8) (r : UInt64) (c : Call)
    (ret : ℤ) (l : List Event) : Prop where
  accepted : ¬refused opt param c
  calls : stepReturns l = [(c, ret)]
  nonneg : ∀ p ∈ returns l, 0 ≤ p.2
  last : ∃ z, (exchanges l).getLast? = some z ∧ ret = z.result opt
  writes : writes l = stepWrites opt param mbrBin byte r c

/-- Events outside the steps: no step returned, nothing negative was returned, nothing written. -/
structure Idle (l : List Event) : Prop where
  calls : stepReturns l = []
  nonneg : ∀ p ∈ returns l, 0 ≤ p.2
  writes : writes l = []

/-- Events that are neither exchanges nor returns. -/
structure Quiet (l : List Event) : Prop where
  exchanges : exchanges l = []
  returns : returns l = []

/-- **A run through the accepted steps `done`**, with its last returned value and its events, having
started with the buffer bytes `byte` and with `_rand_next` at `r`. -/
inductive Ran (opt : Options) (param : DiskParam) (mbrBin byte : ℕ → UInt8) (r : UInt64) :
    List Call → ℤ → List Event → Prop
  | start {l : List Event} (h : Idle l) : Ran opt param mbrBin byte r [] (-1) l
  | step {done : List Call} {ret : ℤ} {l : List Event} {c : Call} {ret' : ℤ} {l' : List Event}
      (h : Ran opt param mbrBin byte r done ret l)
      (hc : Made opt param mbrBin byte (runRand opt r done) c ret' l') :
      Ran opt param mbrBin byte r (done ++ [c]) ret' (l ++ l')

section Ran

variable {param : DiskParam} {mbrBin byte : ℕ → UInt8} {r : UInt64} {done : List Call} {ret : ℤ}
  {l l' : List Event}

theorem Quiet.idle (h : Quiet l) : Idle l :=
  ⟨by simp [stepReturns, h.returns], by simp [h.returns], writes_of_exchanges_nil h.exchanges⟩

theorem Idle.append (h : Idle l) (h' : Idle l') : Idle (l ++ l') := by
  refine ⟨?_, fun p hp ↦ ?_, ?_⟩
  · rw [stepReturns_append, h.calls, h'.calls, List.append_nil]
  · rw [returns_append, List.mem_append] at hp
    exact hp.elim (h.nonneg p) (h'.nonneg p)
  · rw [writes_append, h.writes, h'.writes, List.append_nil]

theorem Made.quiet {c : Call} (h : Made opt param mbrBin byte r c ret l) (hq : Quiet l') :
    Made opt param mbrBin byte r c ret (l ++ l') := by
  obtain ⟨z, hz, hret⟩ := h.last
  refine ⟨h.accepted, ?_, fun p hp ↦ ?_, ⟨z, ?_, hret⟩, ?_⟩
  · rw [stepReturns_append, hq.idle.calls, List.append_nil, h.calls]
  · rw [returns_append, hq.returns, List.append_nil] at hp
    exact h.nonneg p hp
  · rw [exchanges_append, hq.exchanges, List.append_nil, hz]
  · rw [writes_append, hq.idle.writes, List.append_nil, h.writes]

theorem Ran.quiet (h : Ran opt param mbrBin byte r done ret l) (hq : Quiet l') :
    Ran opt param mbrBin byte r done ret (l ++ l') := by
  cases h with
  | start hidle => exact .start (hidle.append hq.idle)
  | step h hc =>
    rw [List.append_assoc]
    exact h.step (hc.quiet hq)

/-- A run behind events outside the steps, such as the books of the progress. -/
theorem Ran.prepend (h : Ran opt param mbrBin byte r done ret l) (hidle : Idle l') :
    Ran opt param mbrBin byte r done ret (l' ++ l) := by
  induction h with
  | start h => exact .start (hidle.append h)
  | step h hc ih =>
    rw [← List.append_assoc]
    exact ih.step hc

theorem Ran.accepted (h : Ran opt param mbrBin byte r done ret l) :
    ∀ c ∈ done, ¬refused opt param c := by
  induction h with
  | start => exact fun c hc ↦ absurd hc List.not_mem_nil
  | step h hc ih =>
    intro d hd
    rw [List.mem_append, List.mem_singleton] at hd
    rcases hd with hd | rfl
    · exact ih d hd
    · exact hc.accepted

/-- The steps returned in the order of the plan. -/
theorem Ran.calls (h : Ran opt param mbrBin byte r done ret l) :
    (stepReturns l).map Prod.fst = done := by
  induction h with
  | start h => rw [h.calls, List.map_nil]
  | step h hc ih => rw [stepReturns_append, hc.calls, List.map_append, ih, List.map_singleton]

theorem Ran.nonneg (h : Ran opt param mbrBin byte r done ret l) : ∀ p ∈ returns l, 0 ≤ p.2 := by
  induction h with
  | start h => exact h.nonneg
  | step h hc ih =>
    intro p hp
    rw [returns_append, List.mem_append] at hp
    rcases hp with hp | hp
    · exact ih p hp
    · exact hc.nonneg p hp

/-- The value of the run is what the last step returned. -/
theorem Ran.value (h : Ran opt param mbrBin byte r done ret l) :
    ret = ((stepReturns l).getLast?.map Prod.snd).getD (-1) := by
  cases h with
  | start h => rw [h.calls]; rfl
  | step h hc => rw [stepReturns_append, hc.calls]; simp

/-- **The value of the run is the result of its last exchange.** -/
theorem Ran.last (h : Ran opt param mbrBin byte r done ret l) (hd : done ≠ []) :
    ∃ z, (exchanges l).getLast? = some z ∧ ret = z.result opt := by
  cases h with
  | start => exact absurd rfl hd
  | step h hc =>
    obtain ⟨z, hz, hret⟩ := hc.last
    refine ⟨z, ?_, hret⟩
    rw [exchanges_append, List.getLast?_append, hz]
    rfl

/-- **The write requests of the run are those of its steps.** -/
theorem Ran.writes (h : Ran opt param mbrBin byte r done ret l) :
    writes l = runWrites opt param mbrBin byte r done := by
  induction h with
  | start h => exact h.writes
  | step h hc ih => rw [writes_append, ih, hc.writes, runWrites_append, runWrites, runWrites,
      List.append_nil]

/-- A run through some steps has been, before that, a run through the first of them. -/
theorem Ran.of_prefix (h : Ran opt param mbrBin byte r done ret l) {cs : List Call}
    (hcs : cs <+: done) :
    ∃ ret₁ l₁ l₂, l = l₁ ++ l₂ ∧ Ran opt param mbrBin byte r cs ret₁ l₁ := by
  induction h with
  | start h =>
    obtain rfl := List.prefix_nil.1 hcs
    exact ⟨_, _, [], (List.append_nil _).symm, .start h⟩
  | step h hc ih =>
    rcases List.prefix_concat_iff.1 hcs with rfl | hcs
    · exact ⟨_, _, [], (List.append_nil _).symm, h.step hc⟩
    · obtain ⟨ret₁, l₁, l₂, rfl, hran⟩ := ih hcs
      exact ⟨ret₁, l₁, _, List.append_assoc _ _ _, hran⟩

end Ran

/-! ### The steps of the program -/

theorem updateProgress_quiet (env : Env σ) (progress : Progress) (n : UInt64) (m : Machine σ) :
    Quiet (updateProgress env progress n m).events ∧
      (updateProgress env progress n m).state = { m with ticks := m.ticks + 1 } := by
  have h := updateProgress_updated env progress n m
  obtain ⟨ds, lines, hevents, -⟩ := h.events
  refine ⟨⟨?_, ?_⟩, h.state⟩
  · simp [hevents, exchanges_divide_map, exchanges_progress_map]
  · simp [hevents, returns_divide_map, returns_progress_map]

theorem callWrites_congr {param : DiskParam} {f g : ℕ → UInt8} {size : ℕ} {r : UInt64}
    {offset : UInt64} {n : UInt32}
    (h : opt.test = false → param.hasExt = 0 → opt.mode = .fast → f = g) :
    callWrites opt param f size r offset n = callWrites opt param g size r offset n := by
  cases htest : opt.test with
  | true => simp [callWrites, htest]
  | false =>
    have hsent : sentByte opt param f size r = sentByte opt param g size r := by
      funext i j
      by_cases hc : param.hasExt = 0 ∧ opt.mode = .fast
      · simp [sentByte, hc, h htest hc.1 hc.2]
      · simp [sentByte, hc]
    rw [callWrites, callWrites, hsent]

/-- A run so far, with the loop variables and the machine it has reached. -/
structure Reached (opt : Options) (param : DiskParam) (mbrBin byte : ℕ → UInt8) (r : UInt64)
    (done : List Call) (s : WipeState) (m : Machine σ) (l : List Event) : Prop where
  ran : Ran opt param mbrBin byte r done s.ret l
  randNext : m.randNext = runRand opt r done
  kept : opt.test = false → param.hasExt = 0 → opt.mode = .fast → s.buffer.byte = byte

/-- A run that a refused step has ended: up to that step it is a run of the accepted ones. -/
def Stopped (opt : Options) (param : DiskParam) (mbrBin byte : ℕ → UInt8) (r : UInt64)
    (l : List Event) : Prop :=
  ∃ done c ret l₁ l₂, done ++ [c] <+: plan opt param ∧ refused opt param c ∧ l = l₁ ++ l₂ ∧
    exchanges l₂ = [] ∧ Ran opt param mbrBin byte r done ret l₁

section steps

variable {param : DiskParam} {mbrBin byte : ℕ → UInt8} {r : UInt64} {done : List Call}
  {s : WipeState} {m : Machine σ} {l : List Event} {offset : UInt64} {n : UInt32}

/-- What goes on between two steps: the loop variables of the progress line and the position change,
and nothing is asked. -/
theorem Reached.quiet (h : Reached opt param mbrBin byte r done s m l) {s' : WipeState}
    {m' : Machine σ} {l' : List Event} (hq : Quiet l') (hret : s'.ret = s.ret)
    (hbuf : s'.buffer = s.buffer) (hrand : m'.randNext = m.randNext) :
    Reached opt param mbrBin byte r done s' m' (l ++ l') := by
  refine ⟨?_, hrand.trans h.randNext, ?_⟩
  · rw [hret]
    exact h.ran.quiet hq
  · rw [hbuf]
    exact h.kept

/-- **An accepted call of `wipe_sectors_lba`** from `wipe_disk` is one more step. -/
theorem Reached.call (hp : isCdrom param = 0) (h : Reached opt param mbrBin byte r done s m l)
    (hacc : ¬refused opt param (.wipeSectorsLba offset n)) {t : Traced (Machine σ) Event Xfer}
    (ht : t = wipeCall env opt param offset n s.buffer m) (progress : Progress)
    (offset' : UInt64) :
    0 ≤ t.val.ret ∧ Reached opt param mbrBin byte r (done ++ [.wipeSectorsLba offset n])
      ⟨t.val.ret, t.val.buffer, offset', progress⟩ t.state (l ++ t.events) := by
  subst ht
  have hrun : CallRun opt param s.buffer wipeBufferSize.toNat m.randNext
      (callWrites opt param s.buffer.byte wipeBufferSize.toNat m.randNext offset n)
      (wipeSectorsLba env opt param offset n s.buffer wipeBufferSize m) :=
    wipeSectorsLba_issued hp hacc s.buffer m
  obtain ⟨⟨hws, hrets, z, hz, hret⟩, hrand, hkept⟩ := hrun
  have hpos : 0 ≤ (wipeSectorsLba env opt param offset n s.buffer wipeBufferSize m).val.ret := by
    rw [hret]
    exact Exchange.status_nonneg _ _
  refine ⟨hpos, h.ran.step ⟨hacc, ?_, ?_, ⟨z, ?_, hret⟩, ?_⟩, ?_, ?_⟩
  · -- the returns inside the call are those of its passes, and no steps
    have hnone : stepReturns
        (wipeSectorsLba env opt param offset n s.buffer wipeBufferSize m).events = [] := by
      refine List.filter_eq_nil_iff.2 fun p hp ↦ ?_
      obtain ⟨⟨i, hi⟩, -⟩ := hrets p hp
      simp [hi, Call.isStep]
    simp only [wipeCall, TraceM.events_bind, TraceM.run_emit, TraceM.run_pure, List.append_nil,
      stepReturns_append, hnone, List.nil_append]
    rfl
  · intro p hp
    simp only [wipeCall, TraceM.events_bind, TraceM.run_emit, TraceM.run_pure, List.append_nil,
      returns_append, returns_returned, returns_nil, List.mem_append, List.mem_singleton] at hp
    rcases hp with hp | rfl
    · exact (hrets p hp).2
    · exact hpos
  · simpa [wipeCall] using hz
  · rw [h.randNext, callWrites_congr h.kept] at hws
    simpa [wipeCall, stepWrites, writes] using hws
  · simpa [wipeCall, runRand_append, stepRand, h.randNext] using hrand
  · intro h1 h2 h3
    simpa [wipeCall, hkept h1 h2 h3] using h.kept h1 h2 h3

/-- **A refused call** ends the run with `-1`, with the steps before it done. -/
theorem Reached.stop (h : Reached opt param mbrBin byte r done s m l)
    (href : refused opt param (.wipeSectorsLba offset n))
    (hpre : done ++ [.wipeSectorsLba offset n] <+: plan opt param)
    {t : Traced (Machine σ) Event Xfer} (ht : t = wipeCall env opt param offset n s.buffer m)
    {l' : List Event} (hl' : exchanges l' = []) :
    t.val.ret = -1 ∧ Stopped opt param mbrBin byte r (l ++ (t.events ++ l')) := by
  subst ht
  have hd : Declined (wipeSectorsLba env opt param offset n s.buffer wipeBufferSize m) :=
    wipeSectorsLba_declined href s.buffer m
  refine ⟨hd.ret, done, _, s.ret, l, _, hpre, href, rfl, ?_, h.ran⟩
  simp [wipeCall, hd.exchanges, hl']

end steps

/-! ### The chunk loop -/

/-- One round of the chunk loop: a call, the books, and only then the test of what the call has
returned. -/
def chunkRound (env : Env σ) (opt : Options) (param : DiskParam) (s : WipeState) :
    Prog σ (Except ℤ WipeState) := do
  TraceM.emit (.divide (wipeSectorSize opt param).toNat)
  let x ← wipeCall env opt param s.offsetLba (chunkSectors opt param) s.buffer
  let progress ← updateProgress env s.progress wipeBufferSize.toUInt64
  if x.ret < 0 then
    return .error x.ret
  return .ok ⟨x.ret, x.buffer, s.offsetLba + (chunkSectors opt param).toUInt64, progress⟩

/-- The round with its call and its progress line done: the line is drawn before `ret` is looked
at. -/
theorem run_chunkRound {param : DiskParam} {s : WipeState} {m : Machine σ}
    {t : Traced (Machine σ) Event Xfer}
    (ht : t = wipeCall env opt param s.offsetLba (chunkSectors opt param) s.buffer m)
    {u : Traced (Machine σ) Event Progress}
    (hu : u = updateProgress env s.progress wipeBufferSize.toUInt64 t.state) :
    chunkRound env opt param s m =
      ⟨if t.val.ret < 0 then .error t.val.ret else
        .ok ⟨t.val.ret, t.val.buffer, s.offsetLba + (chunkSectors opt param).toUInt64, u.val⟩,
        u.state, [.divide (wipeSectorSize opt param).toNat] ++ (t.events ++ u.events)⟩ := by
  subst hu ht
  simp only [chunkRound, TraceM.run_bind, TraceM.run_emit, TraceM.run_ite, TraceM.run_pure]
  split_ifs <;> simp

theorem wipeChunks_eq (param : DiskParam) (s : WipeState) :
    wipeChunks env opt param s =
      TraceM.forExit (chunkCount opt param) s fun _ s ↦ chunkRound env opt param s := rfl

theorem chunkOffset_succ (opt : Options) (param : DiskParam) (k : ℕ) :
    chunkOffset opt param (k + 1) =
      chunkOffset opt param k + (chunkSectors opt param).toUInt64 := by
  have hn : (chunkSectors opt param).toUInt64 = UInt64.ofNat (chunkSectors opt param).toNat := by
    apply UInt64.toNat_inj.1
    have hlt := (chunkSectors opt param).toNat_lt
    simp only [UInt32.toNat_toUInt64, UInt64.toNat_ofNat']
    omega
  rw [chunkOffset, chunkOffset, hn, Nat.succ_mul, UInt64.ofNat_add]

theorem chunkPlan_succ (opt : Options) (param : DiskParam) (k : ℕ) :
    chunkPlan opt param (k + 1) = chunkPlan opt param k ++
      [.wipeSectorsLba (chunkOffset opt param k) (chunkSectors opt param)] := by
  rw [chunkPlan, List.range_succ, List.map_append]
  rfl

theorem chunkPlan_isPrefix (opt : Options) (param : DiskParam) {k : ℕ}
    (hk : k ≤ chunkCount opt param) :
    chunkPlan opt param k <+: plan opt param := by
  obtain ⟨d, hd⟩ := Nat.exists_eq_add_of_le hk
  have hchunks : chunkPlan opt param k <+: chunkPlan opt param (chunkCount opt param) := by
    rw [hd, chunkPlan, chunkPlan, List.range_add, List.map_append]
    exact List.prefix_append _ _
  rw [plan, wipePlan, List.append_assoc]
  exact hchunks.trans (List.prefix_append _ _)

section loop

variable {param : DiskParam} {mbrBin byte : ℕ → UInt8} {r : UInt64} {s : WipeState}
  {m : Machine σ} {l : List Event}

/-- The state of the loop before round `k`. -/
def AtChunk (opt : Options) (param : DiskParam) (mbrBin byte : ℕ → UInt8) (r : UInt64) (k : ℕ)
    (s : WipeState) (m : Machine σ) (l : List Event) : Prop :=
  Reached opt param mbrBin byte r (chunkPlan opt param k) s m l ∧
    s.offsetLba = chunkOffset opt param k

theorem chunkRound_post (hp : isCdrom param = 0) {k : ℕ} (hk : k < chunkCount opt param)
    (h : AtChunk opt param mbrBin byte r k s m l) :
    TraceM.ExitPost (AtChunk opt param mbrBin byte r (k + 1))
      (fun ret _ l ↦ ret = -1 ∧ Stopped opt param mbrBin byte r l) l
      (chunkRound env opt param s m) := by
  obtain ⟨hreach, hoff⟩ := h
  have hreach' : Reached opt param mbrBin byte r (chunkPlan opt param k) s m
      (l ++ [.divide (wipeSectorSize opt param).toNat]) :=
    hreach.quiet ⟨rfl, rfl⟩ rfl rfl rfl
  obtain ⟨t, ht⟩ : ∃ t, t =
      wipeCall env opt param s.offsetLba (chunkSectors opt param) s.buffer m := ⟨_, rfl⟩
  obtain ⟨u, hu⟩ : ∃ u, u =
      updateProgress env s.progress wipeBufferSize.toUInt64 t.state := ⟨_, rfl⟩
  obtain ⟨huq, hus⟩ : Quiet u.events ∧ u.state = { t.state with ticks := t.state.ticks + 1 } :=
    hu ▸ updateProgress_quiet _ _ _ _
  have hrun := run_chunkRound ht hu
  by_cases hacc : refused opt param (.wipeSectorsLba s.offsetLba (chunkSectors opt param))
  · -- the run stops after the progress line
    have hpre : chunkPlan opt param k ++
        [.wipeSectorsLba s.offsetLba (chunkSectors opt param)] <+: plan opt param := by
      rw [hoff, ← chunkPlan_succ]
      exact chunkPlan_isPrefix opt param hk
    obtain ⟨hret, hstop⟩ := hreach'.stop hacc hpre ht huq.exchanges
    rw [hrun, hret]
    refine TraceM.exitPost_of_error (by simp) ⟨rfl, ?_⟩
    simpa [List.append_assoc] using hstop
  · obtain ⟨hpos, hnext⟩ := hreach'.call hp hacc ht u.val
      (s.offsetLba + (chunkSectors opt param).toUInt64)
    have hneg : ¬t.val.ret < 0 := by omega
    have hrand : u.state.randNext = t.state.randNext := by rw [hus]
    rw [hrun]
    refine TraceM.exitPost_of_ok (if_neg hneg) ⟨?_, ?_⟩
    · have hdone : Reached opt param mbrBin byte r _ ⟨t.val.ret, t.val.buffer,
          s.offsetLba + (chunkSectors opt param).toUInt64, u.val⟩ u.state _ :=
        hnext.quiet huq rfl rfl hrand
      rw [List.append_assoc, List.append_assoc] at hdone
      rw [chunkPlan_succ, ← hoff]
      exact hdone
    · rw [chunkOffset_succ, ← hoff]

/-- **The chunk loop** makes every call of its part of the plan, or stops at a refused one. -/
theorem wipeChunks_post (hp : isCdrom param = 0) (h : AtChunk opt param mbrBin byte r 0 s m l) :
    TraceM.ExitPost (AtChunk opt param mbrBin byte r (chunkCount opt param))
      (fun ret _ l ↦ ret = -1 ∧ Stopped opt param mbrBin byte r l) l
      (wipeChunks env opt param s m) := by
  rw [wipeChunks_eq]
  exact TraceM.forExit_invariant _ _ h fun k s m l hk hs ↦ chunkRound_post hp hk hs

end loop

/-! ### The remainder and the MBR -/

section tail

variable {param : DiskParam} {mbrBin byte : ℕ → UInt8} {r : UInt64} {s : WipeState}
  {m : Machine σ} {l : List Event}

theorem wipePlan_isPrefix (opt : Options) (param : DiskParam) :
    wipePlan opt param <+: plan opt param :=
  List.prefix_append _ _

/-- The remainder with its call and its progress line done: unlike in a round, a failed call is left
before the line. -/
theorem run_wipeRemainder {param : DiskParam} {s : WipeState} {m : Machine σ}
    (hleft : totalSec opt param - s.offsetLba = leftSec opt param) (h0 : leftSec opt param ≠ 0)
    {t : Traced (Machine σ) Event Xfer}
    (ht : t = wipeCall env opt param s.offsetLba (leftSec opt param).toUInt32 s.buffer m)
    {u : Traced (Machine σ) Event Progress}
    (hu : u = updateProgress env s.progress (leftBytes opt param) t.state) :
    wipeRemainder env opt param s m =
      if t.val.ret < 0 then ⟨.error t.val.ret, t.state, t.events⟩ else
        ⟨.ok { s with ret := t.val.ret, buffer := t.val.buffer, progress := u.val }, u.state,
          t.events ++ u.events⟩ := by
  rw [leftBytes] at hu
  rw [wipeRemainder, hleft]
  simp only [if_pos h0, TraceM.run_bind, ← ht, TraceM.run_ite, TraceM.run_pure, ← hu]
  split_ifs <;> simp

theorem run_wipeRemainder_of_none {param : DiskParam} {s : WipeState} {m : Machine σ}
    (hleft : totalSec opt param - s.offsetLba = leftSec opt param) (h0 : ¬leftSec opt param ≠ 0)
    {u : Traced (Machine σ) Event Progress}
    (hu : u = updateProgress env s.progress (leftBytes opt param) m) :
    wipeRemainder env opt param s m = ⟨.ok { s with progress := u.val }, u.state, u.events⟩ := by
  rw [leftBytes] at hu
  rw [wipeRemainder, hleft]
  simp only [if_neg h0, TraceM.run_bind, TraceM.run_pure, ← hu, List.append_nil]

theorem wipeRemainder_post (hp : isCdrom param = 0)
    (h : AtChunk opt param mbrBin byte r (chunkCount opt param) s m l) :
    TraceM.ExitPost (Reached opt param mbrBin byte r (wipePlan opt param))
      (fun ret _ l ↦ ret = -1 ∧ Stopped opt param mbrBin byte r l) l
      (wipeRemainder env opt param s m) := by
  obtain ⟨hreach, hoff⟩ := h
  have hleft : totalSec opt param - s.offsetLba = leftSec opt param := by rw [hoff, leftSec]
  by_cases h0 : leftSec opt param ≠ 0
  · have hplan : wipePlan opt param = chunkPlan opt param (chunkCount opt param) ++
        [.wipeSectorsLba s.offsetLba (leftSec opt param).toUInt32] := by
      rw [wipePlan, remainderPlan, if_pos h0, hoff]
    obtain ⟨t, ht⟩ : ∃ t, t =
        wipeCall env opt param s.offsetLba (leftSec opt param).toUInt32 s.buffer m := ⟨_, rfl⟩
    obtain ⟨u, hu⟩ : ∃ u, u = updateProgress env s.progress (leftBytes opt param) t.state :=
      ⟨_, rfl⟩
    obtain ⟨huq, hus⟩ : Quiet u.events ∧ u.state = { t.state with ticks := t.state.ticks + 1 } :=
      hu ▸ updateProgress_quiet _ _ _ _
    rw [run_wipeRemainder hleft h0 ht hu]
    by_cases hacc : refused opt param (.wipeSectorsLba s.offsetLba (leftSec opt param).toUInt32)
    · have hpre : chunkPlan opt param (chunkCount opt param) ++
          [.wipeSectorsLba s.offsetLba (leftSec opt param).toUInt32] <+: plan opt param := by
        rw [← hplan]
        exact wipePlan_isPrefix opt param
      obtain ⟨hret, hstop⟩ := hreach.stop hacc hpre ht exchanges_nil
      rw [List.append_nil] at hstop
      rw [hret]
      exact TraceM.exitPost_of_error rfl ⟨rfl, hstop⟩
    · obtain ⟨hpos, hnext⟩ := hreach.call hp hacc ht u.val s.offsetLba
      have hneg : ¬t.val.ret < 0 := by omega
      have hrand : u.state.randNext = t.state.randNext := by rw [hus]
      rw [← hplan] at hnext
      rw [if_neg hneg]
      refine TraceM.exitPost_of_ok rfl ?_
      rw [← List.append_assoc]
      exact hnext.quiet huq rfl rfl hrand
  · have hplan : wipePlan opt param = chunkPlan opt param (chunkCount opt param) := by
      rw [wipePlan, remainderPlan, if_neg h0, List.append_nil]
    obtain ⟨u, hu⟩ : ∃ u, u = updateProgress env s.progress (leftBytes opt param) m := ⟨_, rfl⟩
    obtain ⟨huq, hus⟩ : Quiet u.events ∧ u.state = { m with ticks := m.ticks + 1 } :=
      hu ▸ updateProgress_quiet _ _ _ _
    have hrand : u.state.randNext = m.randNext := by rw [hus]
    rw [← hplan] at hreach
    rw [run_wipeRemainder_of_none hleft h0 hu]
    exact TraceM.exitPost_of_ok rfl (hreach.quiet huq rfl rfl hrand)

/-- The MBR step with the option on, outside test mode: a CHS write of the buffer with `mbr_bin`
copied over its first sector. -/
theorem run_wipeMbr (hmbr : opt.mbr ∧ ¬opt.test) {b : Buffer}
    (hb : b = { s.buffer with byte := memcpy s.buffer.byte env.mbrBin mbrBinLen.toNat })
    {t : Traced (Machine σ) Event Xfer}
    (ht : t = writeSectorsChs env param ⟨0, 0, 1⟩ 1 b mbrBinLen opt.check
      { m with site := .mbr }) :
    wipeMbr env opt param s m =
      ⟨t.val.ret, t.state, t.events ++ [.returned .mbrWrite t.val.ret]⟩ := by
  rw [wipeMbr, if_pos hmbr]
  simp only [enter, TraceM.run_bind, TraceM.run_update, TraceM.run_emit, TraceM.run_pure, ← hb,
    ← ht, List.nil_append, List.append_nil]

theorem plan_of_mbr (param : DiskParam) (hmbr : opt.mbr ∧ ¬opt.test) :
    plan opt param = wipePlan opt param ++ [.mbrWrite] := by
  rw [plan, mbrPlan, if_pos hmbr]

/-- **An accepted MBR write** is one more step. -/
theorem Reached.mbr (hp : isCdrom param = 0)
    (h : Reached opt param env.mbrBin byte r (wipePlan opt param) s m l)
    (hmbr : opt.mbr ∧ ¬opt.test) (hacc : ¬chsRefused true param ⟨0, 0, 1⟩ 1 mbrBinLen) :
    Ran opt param env.mbrBin byte r (plan opt param) (wipeMbr env opt param s m).val
      (l ++ (wipeMbr env opt param s m).events) := by
  obtain ⟨b, hb⟩ : ∃ b : Buffer, b =
    { s.buffer with byte := memcpy s.buffer.byte env.mbrBin mbrBinLen.toNat } := ⟨_, rfl⟩
  obtain ⟨t, ht⟩ : ∃ t, t = writeSectorsChs env param ⟨0, 0, 1⟩ 1 b mbrBinLen opt.check
    { m with site := .mbr } := ⟨_, rfl⟩
  have hwrote : Wrote { m with site := .mbr } opt.check b
      ⟨.mbr, param.diskId, .chs (setChsToPack 0 1) 0 1, payloadOf b.byte 1⟩ t :=
    ht ▸ writeSectorsChs_wrote hacc (sectorSize_of_not_cdrom hp) _ _ _
  have hpay : payloadOf b.byte 1 = payloadOf env.mbrBin 1 := by
    rw [hb]
    exact payloadOf_memcpy _ _ (by decide)
  obtain ⟨z, hz, hsite, hret⟩ := hwrote.last
  rw [plan_of_mbr param hmbr, run_wipeMbr hmbr hb ht]
  refine h.ran.step ⟨hacc, ?_, ?_, ⟨z, ?_, ?_⟩, ?_⟩
  · simp [stepReturns, hwrote.returns, Call.isStep]
  · simp [hwrote.returns, hret, Exchange.status_nonneg]
  · simpa using hz
  · rw [hret, Exchange.result, hsite]
    rfl
  · have hws := hwrote.writes
    rw [hpay] at hws
    simpa [writes, stepWrites] using hws

/-- **A refused MBR write** ends the run with `-1`. -/
theorem Reached.mbr_stop (h : Reached opt param env.mbrBin byte r (wipePlan opt param) s m l)
    (hmbr : opt.mbr ∧ ¬opt.test) (href : chsRefused true param ⟨0, 0, 1⟩ 1 mbrBinLen) :
    (wipeMbr env opt param s m).val = -1 ∧
      Stopped opt param env.mbrBin byte r (l ++ (wipeMbr env opt param s m).events) := by
  have hrun : writeSectorsChs env param ⟨0, 0, 1⟩ 1
      { s.buffer with byte := memcpy s.buffer.byte env.mbrBin mbrBinLen.toNat } mbrBinLen opt.check
      { m with site := .mbr } = _ := sectorChsRw_of_refused href _
  have hpre : wipePlan opt param ++ [.mbrWrite] <+: plan opt param :=
    ⟨[], by simp [plan_of_mbr param hmbr]⟩
  rw [run_wipeMbr hmbr rfl rfl, hrun]
  exact ⟨rfl, wipePlan opt param, .mbrWrite, s.ret, l, _, hpre, href, rfl, rfl, h.ran⟩

/-- **The MBR step**: nothing when the option is off or in test mode, one more step when it is
accepted, and the end of the run when it is refused. -/
theorem wipeMbr_post (hp : isCdrom param = 0)
    (h : Reached opt param env.mbrBin byte r (wipePlan opt param) s m l) :
    (¬(∃ c ∈ mbrPlan opt, refused opt param c) →
        Ran opt param env.mbrBin byte r (plan opt param) (wipeMbr env opt param s m).val
          (l ++ (wipeMbr env opt param s m).events)) ∧
      ((∃ c ∈ mbrPlan opt, refused opt param c) → (wipeMbr env opt param s m).val = -1 ∧
        Stopped opt param env.mbrBin byte r (l ++ (wipeMbr env opt param s m).events)) := by
  by_cases hmbr : opt.mbr ∧ ¬opt.test
  · have hsome : (∃ c ∈ mbrPlan opt, refused opt param c) ↔
        chsRefused true param ⟨0, 0, 1⟩ 1 mbrBinLen := by
      simp [mbrPlan, hmbr, refused]
    rw [hsome]
    exact ⟨h.mbr hp hmbr, h.mbr_stop hmbr⟩
  · have hplan : plan opt param = wipePlan opt param := by
      rw [plan, mbrPlan, if_neg hmbr, List.append_nil]
    rw [wipeMbr, if_neg hmbr, hplan]
    refine ⟨fun _ ↦ by simpa using h.ran, ?_⟩
    rintro ⟨c, hc, -⟩
    rw [mbrPlan, if_neg hmbr] at hc
    simp at hc

end tail

/-! ### The whole plan -/

theorem Stopped.exists_refused {param : DiskParam} {mbrBin byte : ℕ → UInt8} {r : UInt64}
    {l : List Event} (h : Stopped opt param mbrBin byte r l) :
    ∃ c ∈ plan opt param, refused opt param c := by
  obtain ⟨done, c, -, -, -, hpre, href, -⟩ := h
  exact ⟨c, hpre.subset (by simp), href⟩

/-- The verdict on a run of the plan: it went through, or a refused step ended it with `-1`. -/
def Verdict (opt : Options) (param : DiskParam) (mbrBin byte : ℕ → UInt8) (r : UInt64)
    (ret : ℤ) (l : List Event) : Prop :=
  Ran opt param mbrBin byte r (plan opt param) ret l ∨
    ret = -1 ∧ Stopped opt param mbrBin byte r l

/-- `wipe_disk` from the end of the chunk loop on. -/
def wipeTail (env : Env σ) (opt : Options) (param : DiskParam) (s : WipeState) : Prog σ ℤ := do
  match ← wipeRemainder env opt param s with
  | .error ret => return ret
  | .ok s => wipeMbr env opt param s

/-- **A run that came to the MBR**: every call of the wipe loop was accepted. -/
def CameToMbr (env : Env σ) (opt : Options) (param : DiskParam) (byte : ℕ → UInt8) (r : UInt64)
    (ret : ℤ) (l : List Event) : Prop :=
  ∃ s m l₁, Reached opt param env.mbrBin byte r (wipePlan opt param) s m l₁ ∧
    ret = (wipeMbr env opt param s m).val ∧ l = l₁ ++ (wipeMbr env opt param s m).events

theorem wipeTail_cases {param : DiskParam} (hp : isCdrom param = 0) {byte : ℕ → UInt8}
    {r : UInt64} {s : WipeState} {m : Machine σ} {l : List Event}
    (h : AtChunk opt param env.mbrBin byte r (chunkCount opt param) s m l) :
    CameToMbr env opt param byte r (wipeTail env opt param s m).val
        (l ++ (wipeTail env opt param s m).events) ∨
      (wipeTail env opt param s m).val = -1 ∧
        Stopped opt param env.mbrBin byte r (l ++ (wipeTail env opt param s m).events) := by
  have hpost : TraceM.ExitPost _ _ l (wipeRemainder env opt param s m) :=
    wipeRemainder_post hp h
  simp only [wipeTail, TraceM.run_bind]
  cases hv : (wipeRemainder env opt param s m).val with
  | error ret =>
    refine Or.inr ?_
    simpa using hpost.of_error hv
  | ok s' => exact Or.inl ⟨s', _, _, hpost.of_ok hv, rfl, (List.append_assoc _ _ _).symm⟩

/-- **Every run of `wipe_disk` with a buffer** comes to the MBR, or is stopped by a refused step. -/
theorem wipeBuffer_cases (env : Env σ) {param : DiskParam} (hp : isCdrom param = 0)
    (buffer : Buffer) (m : Machine σ) :
    CameToMbr env opt param buffer.byte m.randNext (wipeBuffer env opt param buffer m).val
        (wipeBuffer env opt param buffer m).events ∨
      (wipeBuffer env opt param buffer m).val = -1 ∧
        Stopped opt param env.mbrBin buffer.byte m.randNext
          (wipeBuffer env opt param buffer m).events := by
  obtain ⟨t, ht⟩ : ∃ t, t = resetProgress env (totalSize opt param) m := ⟨_, rfl⟩
  obtain ⟨u, hu⟩ : ∃ u, u = updateProgress env t.val 0 t.state := ⟨_, rfl⟩
  obtain ⟨huq, hus⟩ : Quiet u.events ∧ u.state = { t.state with ticks := t.state.ticks + 1 } :=
    hu ▸ updateProgress_quiet _ _ _ _
  have hrand : u.state.randNext = m.randNext := by
    rw [hus, ht]
    rfl
  have htq : t.events = [] := by
    rw [ht]
    rfl
  have hstart : AtChunk opt param env.mbrBin buffer.byte m.randNext 0 ⟨-1, buffer, 0, u.val⟩
      u.state u.events := by
    refine ⟨⟨?_, hrand, fun _ _ _ ↦ rfl⟩, ?_⟩
    · exact Ran.start huq.idle
    · simp [chunkOffset]
  have hpost : TraceM.ExitPost _ _ u.events
      (wipeChunks env opt param ⟨-1, buffer, 0, u.val⟩ u.state) := wipeChunks_post hp hstart
  simp only [wipeBuffer, TraceM.run_bind, ← ht, ← hu, htq, List.nil_append]
  cases hv : (wipeChunks env opt param ⟨-1, buffer, 0, u.val⟩ u.state).val with
  | error ret =>
    refine Or.inr ?_
    simpa using hpost.of_error hv
  | ok s =>
    rw [← List.append_assoc]
    exact wipeTail_cases hp (hpost.of_ok hv)

/-- **Every run of `wipe_disk` with a buffer** goes through the plan, or is stopped by a refused
step. -/
theorem wipeBuffer_verdict (env : Env σ) {param : DiskParam} (hp : isCdrom param = 0)
    (buffer : Buffer) (m : Machine σ) :
    Verdict opt param env.mbrBin buffer.byte m.randNext (wipeBuffer env opt param buffer m).val
      (wipeBuffer env opt param buffer m).events := by
  have hcases : CameToMbr env opt param buffer.byte m.randNext _ _ ∨ _ :=
    wipeBuffer_cases env hp buffer m
  rcases hcases with ⟨s, m', l, hreach, hret, hl⟩ | hstop
  · obtain ⟨hran, hstop⟩ := wipeMbr_post hp hreach
    rw [hret, hl]
    by_cases hmbr : ∃ c ∈ mbrPlan opt, refused opt param c
    · exact Or.inr (hstop hmbr)
    · exact Or.inl (hran hmbr)
  · exact Or.inr hstop

/-- **A run of a plan without refused steps** makes the calls of the plan. -/
theorem wipeBuffer_ran {param : DiskParam} (hp : isCdrom param = 0)
    (hacc : ∀ c ∈ plan opt param, ¬refused opt param c) (buffer : Buffer) (m : Machine σ) :
    Ran opt param env.mbrBin buffer.byte m.randNext (plan opt param)
      (wipeBuffer env opt param buffer m).val (wipeBuffer env opt param buffer m).events := by
  rcases wipeBuffer_verdict env hp buffer m with hran | ⟨-, hstop⟩
  · exact hran
  · obtain ⟨c, hc, href⟩ := hstop.exists_refused
    exact absurd href (hacc c hc)

/-- **A run of a plan with a refused step** returns `-1`. -/
theorem wipeBuffer_of_refused {param : DiskParam} (hp : isCdrom param = 0)
    (href : ∃ c ∈ plan opt param, refused opt param c) (buffer : Buffer) (m : Machine σ) :
    (wipeBuffer env opt param buffer m).val = -1 := by
  rcases wipeBuffer_verdict env hp buffer m with hran | ⟨hret, -⟩
  · obtain ⟨c, hc, hc'⟩ := href
    exact absurd hc' (hran.accepted c hc)
  · exact hret

/-- A run has made the first steps of its plan, as far as they are accepted, whatever came after
them. -/
theorem wipeBuffer_prefix {param : DiskParam} (hp : isCdrom param = 0) {cs : List Call}
    (hpre : cs <+: plan opt param) (hacc : ∀ c ∈ cs, ¬refused opt param c) (env : Env σ)
    (buffer : Buffer) (m : Machine σ) :
    ∃ ret l₁ l₂, (wipeBuffer env opt param buffer m).events = l₁ ++ l₂ ∧
      Ran opt param env.mbrBin buffer.byte m.randNext cs ret l₁ := by
  have hverdict : Verdict opt param env.mbrBin buffer.byte m.randNext _ _ :=
    wipeBuffer_verdict env hp buffer m
  rcases hverdict with hran | ⟨-, done, d, ret, l₁, l₂, hdone, href, hl, -, hran⟩
  · obtain ⟨ret, l₁, l₂, hl, hran⟩ := hran.of_prefix hpre
    exact ⟨ret, l₁, l₂, hl, hran⟩
  · have hnot : ¬done ++ [d] <+: cs := fun h ↦ hacc d (h.subset (by simp)) href
    have hcs : cs <+: done := by
      rcases List.prefix_or_prefix_of_prefix hpre hdone with h | h
      · rcases List.prefix_concat_iff.1 h with rfl | h
        · exact absurd (List.prefix_refl _) hnot
        · exact h
      · exact absurd h hnot
    obtain ⟨ret', l₁', l₂', hl', hran'⟩ := hran.of_prefix hcs
    exact ⟨ret', l₁', l₂' ++ l₂, by rw [hl, hl', List.append_assoc], hran'⟩

/-- A run whose first step is accepted has made that step, whatever came after it. -/
theorem wipeBuffer_first {param : DiskParam} (hp : isCdrom param = 0) {c : Call}
    {cs : List Call} (hplan : plan opt param = c :: cs) (hacc : ¬refused opt param c)
    (env : Env σ) (buffer : Buffer) (m : Machine σ) :
    ∃ done ret l₁ l₂, (wipeBuffer env opt param buffer m).events = l₁ ++ l₂ ∧
      Ran opt param env.mbrBin buffer.byte m.randNext (c :: done) ret l₁ := by
  have hpre : [c] <+: plan opt param := ⟨cs, hplan.symm⟩
  have hone : ∀ d ∈ [c], ¬refused opt param d := by simpa using hacc
  exact ⟨[], wipeBuffer_prefix hp hpre hone env buffer m⟩

/-! ### `wipe_disk` -/

section wipeDisk

variable {param : DiskParam} {m : Machine σ} {t : Traced (Machine σ) Event ℤ}

theorem isCdrom_of_not_skiped (ht : t = isSkipedDisk env opt param m) (h : t.val = 0) :
    isCdrom param = 0 := by
  by_contra hc
  rw [ht, isSkipedDisk, if_pos hc] at h
  simp at h

theorem wipeDisk_of_skiped (ht : t = isSkipedDisk env opt param m) (h : t.val ≠ 0) :
    wipeDisk env opt param m =
      ⟨1, t.state, t.events ++ [.returned (.isSkipedDisk param.diskId) t.val]⟩ := by
  simp [wipeDisk, TraceM.run_bind, ← ht, h]

theorem wipeDisk_of_no_memory (ht : t = isSkipedDisk env opt param m) (h : t.val = 0)
    (hmem : env.malloc t.state.ticks = none) :
    wipeDisk env opt param m = ⟨-1, { t.state with ticks := t.state.ticks + 1 },
      t.events ++ [.returned (.isSkipedDisk param.diskId) t.val]⟩ := by
  simp [wipeDisk, TraceM.run_bind, ← ht, h, malloc, hmem]

theorem wipeDisk_of_memory (ht : t = isSkipedDisk env opt param m) (h : t.val = 0)
    {byte : ℕ → UInt8} (hmem : env.malloc t.state.ticks = some byte)
    {u : Traced (Machine σ) Event ℤ}
    (hu : u = wipeBuffer env opt param ⟨wipeBufferSize.toNat, byte⟩
      { t.state with ticks := t.state.ticks + 1 }) :
    wipeDisk env opt param m =
      ⟨u.val, u.state, t.events ++ .returned (.isSkipedDisk param.diskId) t.val :: u.events⟩ := by
  simp [wipeDisk, TraceM.run_bind, ← ht, h, malloc, hmem, ← hu]

end wipeDisk

end Dwipe

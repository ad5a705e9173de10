import Dwipe.Wipe.Enumeration
import Dwipe.Wipe.Layout

/-!
# A walk from transfer to transfer

The parts of the program that move sectors, seen as a sequence of calls of the four transfer
functions. What the transfers record, **one call at a time**, is put together to what a run of
`contain_fat_label`, of `wipe_sectors_lba` and of `wipe_disk` records (`wipeDisk_records`), for any
set of traces that is closed under concatenation and contains what happens in between.

Two things are known of a transfer at the point where it is called. The length of the buffer it is
handed is the length the program has allocated, since no transfer changes it. And a call made by
`wipe_disk` is *due*: the steps of the plan in front of it were all accepted, or the run would have
been left.

Of the events in between it is known that they are *regular*: **no division is by zero**, and a call
that returns was due.
-/

namespace Dwipe

variable {σ : Type} {env : Env σ} {opt : Options} {param : DiskParam}

/-- The events between the transfers: returned values, divisions, stores and the progress line. -/
def Event.Incidental : Event → Prop
  | .returned _ _ | .store _ | .divide _ | .account _ _ | .progress _ => True
  | .int13 _ | .transfer _ _ | .copy _ => False

/-- The set of traces is closed under concatenation and does not look at what happens between the
transfers. -/
structure Framed (T : List Event → Prop) : Prop extends TraceM.Appends T where
  incidental : ∀ e, e.Incidental → T [e]

theorem Framed.emit {T : List Event → Prop} (hT : Framed T) {e : Event} (he : e.Incidental) :
    TraceM.Records T (fun _ ↦ True) (TraceM.emit e : Prog σ Unit) :=
  TraceM.records_emit (hT.incidental e he)

/-- The set of traces is closed under concatenation and under what a call of `wipe_sectors_lba` does
next to its transfers: divisions, none of them by zero, and the returns of its passes. -/
structure Inside (T : List Event → Prop) : Prop extends TraceM.Appends T where
  divide : ∀ d, d ≠ 0 → T [.divide d]
  passWrite : ∀ i ret, T [.returned (.passWrite i) ret]

theorem Inside.divides {T : List Event → Prop} (hT : Inside T) {l : List ℕ}
    (h : ∀ d ∈ l, d ≠ 0) : T (l.map .divide) := by
  refine hT.of_forall fun e he ↦ ?_
  obtain ⟨d, hd, rfl⟩ := List.mem_map.1 he
  exact hT.divide d (h d hd)

theorem lba2chsDivisors_ne_zero (htrack : param.lastSectorsPerTrack ≠ 0) (lba : UInt64) :
    ∀ d ∈ lba2chsDivisors param lba, d ≠ 0 := by
  have hS : param.lastSectorsPerTrack.toNat ≠ 0 := fun h ↦ htrack (UInt8.toNat_inj.1 h)
  intro d hd
  rw [lba2chsDivisors] at hd
  split_ifs at hd
  · simp only [List.mem_cons, List.not_mem_nil, or_false] at hd
    rcases hd with rfl | rfl | rfl
    · exact hS
    · exact Nat.succ_ne_zero _
    · exact Nat.mul_ne_zero hS (Nat.succ_ne_zero _)
  · exact absurd hd List.not_mem_nil

/-! ### Buffers keep their length -/

section length

variable {a : Chs} {offset : UInt64} {nsector size : UInt32} {buffer : Buffer} {check : Bool}

theorem readSectorsChs_len (m : Machine σ) :
    (readSectorsChs env param a nsector buffer size m).val.buffer.len = buffer.len := by
  by_cases h : chsRefused false param a nsector size
  · rw [readSectorsChs, sectorChsRw_of_refused h]
  · rw [readSectorsChs_of_not_refused h m rfl, chsReadResult]
    split_ifs <;> rfl

theorem readSectorsLba_len (m : Machine σ) :
    (readSectorsLba env param offset nsector buffer size m).val.buffer.len = buffer.len := by
  by_cases h : lbaRefused false param offset nsector size
  · rw [readSectorsLba, sectorsLbaRw_of_refused h]
  · rw [readSectorsLba_of_not_refused h m rfl, lbaReadResult]
    split_ifs <;> rfl

theorem writeSectorsLba_len (m : Machine σ) :
    (writeSectorsLba env param offset nsector buffer size check m).val.buffer.len = buffer.len := by
  by_cases h : lbaRefused true param offset nsector size
  · rw [writeSectorsLba, sectorsLbaRw_of_refused h]
  · rw [writeSectorsLba_of_not_refused h m rfl]

theorem writeSectorsChs_len (m : Machine σ) :
    (writeSectorsChs env param a nsector buffer size check m).val.buffer.len = buffer.len := by
  by_cases h : chsRefused true param a nsector size
  · rw [writeSectorsChs, sectorChsRw_of_refused h]
  obtain ⟨ys, -, -, hbuffer⟩ := writeSectorsChs_shape h m rfl
  rw [hbuffer]

end length

/-! ### The label scan -/

section walk

variable {T : List Event → Prop}

/-- Every read the label scan may make records a trace in `T`. -/
structure LabelReads (env : Env σ) (param : DiskParam) (T : List Event → Prop) : Prop where
  chs : ∀ a (b : Buffer), b.len = labelBufferSize.toNat →
    TraceM.Records T (fun _ ↦ True) (readSectorsChs env param a 1 b labelBufferSize)
  lba : ∀ offset (b : Buffer), b.len = labelBufferSize.toNat →
    TraceM.Records T (fun _ ↦ True) (readSectorsLba env param offset 1 b labelBufferSize)

/-- The buffer of the scan keeps its length. -/
abbrev LabelXfer (x : Xfer) : Prop := x.buffer.len = labelBufferSize.toNat

theorem LabelReads.readChs (h : LabelReads env param T) (a : Chs) {b : Buffer}
    (hb : b.len = labelBufferSize.toNat) :
    TraceM.Records T LabelXfer (readSectorsChs env param a 1 b labelBufferSize) :=
  ((h.chs a b hb).val fun m ↦ (readSectorsChs_len m).trans hb).mono fun _ h ↦ h.2

theorem LabelReads.readLba (h : LabelReads env param T) (offset : UInt64) {b : Buffer}
    (hb : b.len = labelBufferSize.toNat) :
    TraceM.Records T LabelXfer (readSectorsLba env param offset 1 b labelBufferSize) :=
  ((h.lba offset b hb).val fun m ↦ (readSectorsLba_len m).trans hb).mono fun _ h ↦ h.2

theorem readEntry_records (hT : TraceM.Appends T) (h : LabelReads env param T) (e : MbrEntry)
    {b : Buffer} (hb : b.len = labelBufferSize.toNat) :
    TraceM.Records T (fun v ↦ ∀ x, v = some x → LabelXfer x) (readEntry env param e b) := by
  have hsome (x : Xfer) (hx : LabelXfer x) : TraceM.Records T (fun v ↦ ∀ x, v = some x →
      LabelXfer x) (pure (some x) : Prog σ (Option Xfer)) :=
    TraceM.records_pure hT fun y hy ↦ Option.some.inj hy ▸ hx
  rw [readEntry]
  refine TraceM.Records.ite (fun _ ↦ (h.readChs _ hb).bind hT hsome) fun _ ↦ ?_
  refine TraceM.Records.ite (fun _ ↦ (h.readLba _ hb).bind hT hsome) fun _ ↦ ?_
  refine TraceM.Records.ite (fun _ ↦ ?_) fun _ ↦ TraceM.records_pure hT (by simp)
  refine (h.readChs _ hb).bind hT fun x hx ↦ ?_
  exact TraceM.Records.ite (fun _ ↦ (h.readLba _ hx).bind hT hsome) fun _ ↦ hsome x hx

theorem scanEntry_records (hT : TraceM.Appends T) (h : LabelReads env param T) (e : MbrEntry)
    {b : Buffer} (hb : b.len = labelBufferSize.toNat) :
    TraceM.Records T (TraceM.Either (fun b : Buffer ↦ b.len = labelBufferSize.toNat) fun _ ↦ True)
      (scanEntry env opt param e b) := by
  rw [scanEntry]
  refine (readEntry_records hT h e hb).bind hT fun v hv ↦ ?_
  cases v with
  | none => exact TraceM.records_pure hT hb
  | some x =>
    refine TraceM.Records.ite (fun _ ↦ TraceM.records_pure hT trivial) fun _ ↦ ?_
    exact TraceM.records_pure hT (hv x rfl)

/-- **The label scan** records what its reads record, and nothing of its own. -/
theorem containFatLabel_records (hT : TraceM.Appends T) (h : LabelReads env param T)
    (str : CString) :
    TraceM.Records T (fun _ ↦ True) (containFatLabel env opt param str) := by
  have hstack : TraceM.Records T (fun b : Buffer ↦ b.len = labelBufferSize.toNat)
      (stackArray env labelBufferSize.toNat) :=
    (TraceM.records_read hT).bind hT fun _ _ ↦
      (TraceM.records_update hT _).bind hT fun _ _ ↦
        TraceM.records_pure hT rfl
  rw [containFatLabel]
  refine (TraceM.records_update hT _).bind hT fun _ _ ↦ ?_
  refine hstack.bind hT fun b hb ↦ (h.readChs _ hb).bind hT fun x hx ↦ ?_
  refine TraceM.Records.ite (fun _ ↦ TraceM.records_pure hT trivial) fun _ ↦ ?_
  refine (TraceM.Records.forExit hT (P := fun _ b ↦ b.len = labelBufferSize.toNat)
    (Q := fun _ ↦ True) (fun i _ b hb ↦ scanEntry_records hT h _ hb) hx).bind hT
    fun v _ ↦ ?_
  cases v with
  | ok b => exact TraceM.records_pure hT trivial
  | error ret => exact TraceM.records_pure hT trivial

theorem isSkipedDisk_records (hT : TraceM.Appends T)
    (h : isCdrom param = 0 → LabelReads env param T) :
    TraceM.Records T (fun _ ↦ True) (isSkipedDisk env opt param) := by
  rw [isSkipedDisk]
  refine TraceM.Records.ite (fun _ ↦ TraceM.records_pure hT trivial) fun hp ↦ ?_
  exact (containFatLabel_records hT (h (not_not.1 hp)) opt.skip).bind hT fun _ _ ↦
    TraceM.records_pure hT trivial

/-! ### One call of `wipe_sectors_lba` -/

/-- Whether `wipe_sectors_lba` has its writes checked. -/
abbrev checked (opt : Options) : Bool := opt.check || opt.mode = .ocd

/-- Every transfer a call of `wipe_sectors_lba` may make, with a buffer of `len` bytes, records a
trace in `T`. -/
structure CallMoves (env : Env σ) (opt : Options) (param : DiskParam) (T : List Event → Prop)
    (offset : UInt64) (n size : UInt32) (len : ℕ) : Prop where
  readLba : param.hasExt ≠ 0 → opt.test = true → ∀ b : Buffer, b.len = len →
    TraceM.Records T (fun _ ↦ True) (readSectorsLba env param offset n b size)
  writeLba : param.hasExt ≠ 0 → opt.test = false → ∀ b : Buffer, b.len = len →
    TraceM.Records T (fun _ ↦ True) (writeSectorsLba env param offset n b size (checked opt))
  readChs : param.hasExt = 0 → opt.test = true → ∀ a, lba2chs param offset = some a →
    ∀ b : Buffer, b.len = len →
    TraceM.Records T (fun _ ↦ True) (readSectorsChs env param a n b size)
  writeChs : param.hasExt = 0 → opt.test = false → ∀ a, lba2chs param offset = some a →
    ∀ b : Buffer, b.len = len →
    TraceM.Records T (fun _ ↦ True) (writeSectorsChs env param a n b size (checked opt))

theorem fillPass_records (hT : TraceM.Appends T) (i : ℕ) {b : Buffer} {len : ℕ} (hb : b.len = len)
    (n : ℕ) :
    TraceM.Records T (fun b : Buffer ↦ b.len = len) (fillPass opt i b n : Prog σ Buffer) := by
  rw [fillPass]
  refine TraceM.Records.ite (fun _ ↦ TraceM.records_pure hT hb) fun _ ↦ ?_
  refine TraceM.Records.ite (fun _ ↦ TraceM.records_pure hT hb) fun _ ↦ ?_
  intro m
  rw [run_fillRand]
  exact ⟨hT.nil, hb⟩

/-- A branch of `wipe_sectors_lba` records what its read or its writes record. -/
theorem branch_records {read : Prog σ Xfer} {write : Buffer → UInt32 → Bool → Prog σ Xfer}
    {fast buffer : Buffer} {size : UInt32} {len : ℕ} (hT : Inside T)
    (hread : opt.test = true → TraceM.Records T (fun x : Xfer ↦ x.buffer.len = len) read)
    (hwrite : opt.test = false → ∀ b : Buffer, b.len = len →
      TraceM.Records T (fun x : Xfer ↦ x.buffer.len = len) (write b size (checked opt)))
    (hfast : fast.len = len) (hbuffer : buffer.len = len) :
    TraceM.Records T (fun x : Xfer ↦ x.buffer.len = len)
      (branch opt read write fast buffer size) := by
  have hone (htest : opt.test = false) (i : ℕ) {b : Buffer} (hb : b.len = len) {c : Bool}
      (hc : c = checked opt) : TraceM.Records T (fun x : Xfer ↦ x.buffer.len = len) (do
        enter (.pass i)
        let r ← write b size c
        TraceM.emit (.returned (.passWrite i) r.ret)
        return r : Prog σ Xfer) := by
    refine (TraceM.records_update hT.toAppends _).bind hT.toAppends fun _ _ ↦ ?_
    refine TraceM.Records.bind hT.toAppends (hc ▸ hwrite htest b hb) fun x hx ↦ ?_
    exact (TraceM.records_emit (hT.passWrite i _)).bind hT.toAppends fun _ _ ↦
      TraceM.records_pure hT.toAppends hx
  rw [branch]
  refine TraceM.Records.ite (fun htest ↦ ?_) fun htest ↦ ?_
  · exact (TraceM.records_update hT.toAppends _).bind hT.toAppends fun _ _ ↦ hread htest
  have htest' : opt.test = false := by simpa using htest
  refine TraceM.Records.ite (fun hmode ↦ ?_) fun _ ↦ ?_
  · -- the fast mode passes `opt.check`, which is the same flag there
    exact hone htest' 0 hfast (by simp [checked, hmode])
  · refine TraceM.Records.forRange hT.toAppends (S := fun x : Xfer ↦ x.buffer.len = len)
      (fun i x hx ↦ ?_) _ hbuffer
    exact (fillPass_records hT.toAppends i hx _).bind hT.toAppends fun b hb ↦ hone htest' i hb rfl

/-- **A call of `wipe_sectors_lba`** records what its transfers record, and keeps the length of its
buffer. -/
theorem wipeSectorsLba_records (hT : Inside T) {offset : UInt64} {n size : UInt32} {len : ℕ}
    (h : CallMoves env opt param T offset n size len)
    (htrack : param.hasExt = 0 → param.lastSectorsPerTrack ≠ 0) {b : Buffer} (hb : b.len = len) :
    TraceM.Records T (fun x : Xfer ↦ x.buffer.len = len)
      (wipeSectorsLba env opt param offset n b size) := by
  rw [wipeSectorsLba]
  refine TraceM.Records.ite (fun hext ↦ ?_) fun hext ↦ ?_
  · rw [wipeSectorsExt_eq]
    refine branch_records hT (fun htest ↦ ?_) (fun htest b hb ↦ ?_) hb hb
    · exact ((h.readLba hext htest b hb).val fun m ↦ (readSectorsLba_len m).trans hb).mono
        fun _ h ↦ h.2
    · exact ((h.writeLba hext htest b hb).val fun m ↦ (writeSectorsLba_len m).trans hb).mono
        fun _ h ↦ h.2
  have hext' : param.hasExt = 0 := by simpa using hext
  have hdivisors := lba2chsDivisors_ne_zero (htrack hext') offset
  refine (TraceM.records_emitAll (hT.divides hdivisors)).bind hT.toAppends fun _ _ ↦ ?_
  cases ha : lba2chs param offset with
  | none => exact TraceM.records_pure hT.toAppends hb
  | some a =>
    show TraceM.Records T _ (wipeSectorsChs env opt param a n b size)
    rw [wipeSectorsChs_eq]
    refine branch_records hT (fun htest ↦ ?_) (fun htest b hb ↦ ?_) hb hb
    · exact ((h.readChs hext' htest a ha b hb).val fun m ↦ (readSectorsChs_len m).trans hb).mono
        fun _ h ↦ h.2
    · exact ((h.writeChs hext' htest a ha b hb).val fun m ↦ (writeSectorsChs_len m).trans hb).mono
        fun _ h ↦ h.2

/-! ### The plan -/

/-- **A step that is due**: the plan has it, and the steps in front of it are accepted. -/
def Due (opt : Options) (param : DiskParam) (c : Call) : Prop :=
  ∃ done, done ++ [c] <+: plan opt param ∧ ∀ d ∈ done, ¬refused opt param d

theorem ne_mbrWrite_of_mem_wipePlan {c : Call} (h : c ∈ wipePlan opt param) : c ≠ .mbrWrite := by
  rintro rfl
  rw [wipePlan, chunkPlan, remainderPlan] at h
  split_ifs at h <;> simp at h

/-- **The MBR write is due** when it is asked for and every call of the wipe loop is accepted. -/
theorem due_mbrWrite_iff : Due opt param .mbrWrite ↔
    (opt.mbr ∧ ¬opt.test) ∧ ∀ c ∈ wipePlan opt param, ¬refused opt param c := by
  constructor
  · rintro ⟨done, hpre, hacc⟩
    have hnot : ¬done ++ [.mbrWrite] <+: wipePlan opt param := fun h ↦
      ne_mbrWrite_of_mem_wipePlan (h.subset (by simp)) rfl
    by_cases hmbr : opt.mbr ∧ ¬opt.test
    · rw [plan_of_mbr param hmbr, List.prefix_concat_iff] at hpre
      have hdone : done = wipePlan opt param := by simpa [hnot] using hpre
      exact ⟨hmbr, hdone ▸ hacc⟩
    · rw [plan, mbrPlan, if_neg hmbr, List.append_nil] at hpre
      exact absurd hpre hnot
  · rintro ⟨hmbr, hacc⟩
    exact ⟨wipePlan opt param, ⟨[], by simp [plan_of_mbr param hmbr]⟩, hacc⟩

/-- **A call that is due** is one of the layout, and the chunks in front of it were accepted. -/
theorem due_call (hp : isCdrom param = 0) {offset : UInt64} {n : UInt32}
    (h : Due opt param (.wipeSectorsLba offset n)) :
    ∃ i, (∃ p ∈ spans (totalSec opt param).toNat, offset.toNat = p.start ∧ n.toNat = p.len ∧
        p.start = 16 * i) ∧
      ∀ k < i, ¬refused opt param (spanCall ⟨16 * k, 16⟩) := by
  obtain ⟨done, hpre, hacc⟩ := h
  have hwipe : done ++ [.wipeSectorsLba offset n] <+: wipePlan opt param := by
    rw [plan, mbrPlan] at hpre
    split_ifs at hpre
    · rcases List.prefix_concat_iff.1 hpre with heq | h
      · simp at heq
      · exact h
    · simpa using hpre
  rw [wipePlan_eq opt hp] at hwipe
  have hget (k : ℕ) (hk : k < (done ++ [Call.wipeSectorsLba offset n]).length) :
      ((spans (totalSec opt param).toNat).map spanCall)[k]? =
        (done ++ [Call.wipeSectorsLba offset n])[k]? := by
    obtain ⟨rest, hrest⟩ := hwipe
    rw [← hrest, List.getElem?_append_left hk]
  have hlast := hget done.length (by simp)
  rw [List.getElem?_concat_length, List.getElem?_map, Option.map_eq_some_iff] at hlast
  obtain ⟨p, hp', hcall⟩ := hlast
  have hmem := List.mem_of_getElem? hp'
  obtain ⟨hstart, hlen⟩ := spanCall_toNat (totalSec opt param).toNat_lt hmem
  obtain ⟨hoffset, hn⟩ := Call.wipeSectorsLba.inj hcall
  obtain ⟨hi, hchunks⟩ := spans_getElem? hp'
  refine ⟨done.length, ⟨p, hmem, by rw [← hoffset, hstart], by rw [← hn, hlen], hi⟩,
    fun k hk ↦ hacc _ ?_⟩
  have hk' := hget k (by simp; omega)
  rw [List.getElem?_map, hchunks k hk, List.getElem?_append_left hk] at hk'
  exact List.mem_of_getElem? hk'.symm

/-- A call is due only if a track has sectors, in the CHS addressing. -/
theorem track_of_due (hp : isCdrom param = 0) {offset : UInt64} {n : UInt32}
    (h : Due opt param (.wipeSectorsLba offset n)) (hext : param.hasExt = 0) :
    param.lastSectorsPerTrack ≠ 0 := by
  obtain ⟨i, ⟨p, hmem, -⟩, -⟩ := due_call hp h
  obtain ⟨-, hstart, -⟩ := mem_spans hmem
  intro h0
  rw [(totalSec_chs_eq_zero_iff opt (Or.inl hext)).2 h0] at hstart
  exact absurd hstart (Nat.not_lt_zero _)

/-- An event between the transfers as a run of `wipe_disk` leaves it: a division is not by zero, and
a call of `wipe_sectors_lba` that returns was due. -/
def Event.Regular (opt : Options) (param : DiskParam) : Event → Prop
  | .divide d => d ≠ 0
  | .returned (.wipeSectorsLba offset n) _ => Due opt param (.wipeSectorsLba offset n)
  | e => e.Incidental

/-- The set of traces is closed under concatenation and contains the regular events. -/
structure Around (opt : Options) (param : DiskParam) (T : List Event → Prop) : Prop
    extends TraceM.Appends T where
  regular : ∀ e, e.Regular opt param → T [e]

theorem Around.emit (hT : Around opt param T) {e : Event} (he : e.Regular opt param) :
    TraceM.Records T (fun _ ↦ True) (TraceM.emit e : Prog σ Unit) :=
  TraceM.records_emit (hT.regular e he)

theorem Around.inside (hT : Around opt param T) : Inside T where
  toAppends := hT.toAppends
  divide d hd := hT.regular (.divide d) hd
  passWrite i ret := hT.regular (.returned (.passWrite i) ret) trivial

theorem Framed.around (hT : Framed T) (opt : Options) (param : DiskParam) : Around opt param T where
  toAppends := hT.toAppends
  regular e he := by
    refine hT.incidental e ?_
    cases e with
    | returned | store | divide | account | progress => trivial
    | int13 | transfer | copy => exact he

/-- Every transfer of a step that is due records a trace in `T`. -/
structure PlanMoves (env : Env σ) (opt : Options) (param : DiskParam) (T : List Event → Prop) :
    Prop where
  call : ∀ offset n, Due opt param (.wipeSectorsLba offset n) →
    CallMoves env opt param T offset n wipeBufferSize wipeBufferSize.toNat
  mbr : Due opt param .mbrWrite → ∀ b : Buffer, b.len = wipeBufferSize.toNat →
    TraceM.Records T (fun _ ↦ True)
      (writeSectorsChs env param ⟨0, 0, 1⟩ 1 b mbrBinLen opt.check)

/-- What a call from `wipe_disk` hands back: the buffer, and `-1` if the call was refused. -/
def Handed (opt : Options) (param : DiskParam) (c : Call) (x : Xfer) : Prop :=
  x.buffer.len = wipeBufferSize.toNat ∧ (refused opt param c → x.ret = -1)

theorem wipeCall_records (hT : Around opt param T) (hp : isCdrom param = 0)
    (h : PlanMoves env opt param T) {offset : UInt64} {n : UInt32}
    (hdue : Due opt param (.wipeSectorsLba offset n)) {b : Buffer}
    (hb : b.len = wipeBufferSize.toNat) :
    TraceM.Records T (Handed opt param (.wipeSectorsLba offset n))
      (wipeCall env opt param offset n b) := by
  have hcall : TraceM.Records T (Handed opt param (.wipeSectorsLba offset n))
      (wipeSectorsLba env opt param offset n b wipeBufferSize) :=
    (wipeSectorsLba_records hT.inside (h.call offset n hdue) (track_of_due hp hdue) hb).val
      fun m href ↦ (wipeSectorsLba_declined href b m).ret
  rw [wipeCall]
  refine hcall.bind hT.toAppends fun x hx ↦ ?_
  exact (hT.emit (by exact hdue)).bind hT.toAppends fun _ _ ↦
    TraceM.records_pure hT.toAppends hx

theorem gettimeofday_records (hT : TraceM.Appends T) :
    TraceM.Records T (fun _ ↦ True) (gettimeofday env) :=
  (TraceM.records_read hT).bind hT fun _ _ ↦
    (TraceM.records_update hT _).bind hT fun _ _ ↦
      TraceM.records_pure hT trivial

theorem updateProgress_records (hT : Around opt param T) {progress : Progress}
    (h0 : progress.totalBytes ≠ 0) (n : UInt64) :
    TraceM.Records T (fun p ↦ p.totalBytes ≠ 0) (updateProgress env progress n) := by
  intro m
  have h := updateProgress_updated env progress n m
  obtain ⟨ds, lines, hevents, hds, -⟩ := h.events
  have hlines : T (lines.map .progress) := by
    refine hT.of_forall fun e he ↦ ?_
    obtain ⟨line, -, rfl⟩ := List.mem_map.1 he
    exact hT.regular (.progress line) trivial
  have haccount := hT.regular (.account progress.totalBytes (progress.advanced n)) trivial
  constructor
  · rw [hevents]
    exact hT.append haccount (hT.append (hT.inside.divides (hds h0)) hlines)
  · show (updateProgress env progress n m).val.totalBytes ≠ 0
    rw [h.total]
    exact h0

/-- The loop variables before round `k` of a chunk loop whose calls were accepted so far. -/
structure AtRound (opt : Options) (param : DiskParam) (k : ℕ) (s : WipeState) : Prop where
  len : s.buffer.len = wipeBufferSize.toNat
  offsetLba : s.offsetLba = chunkOffset opt param k
  accepted : ∀ c ∈ chunkPlan opt param k, ¬refused opt param c
  total : s.progress.totalBytes ≠ 0

theorem wipeChunks_records (hT : Around opt param T) (hp : isCdrom param = 0)
    (h : PlanMoves env opt param T) {s : WipeState} (hs : AtRound opt param 0 s) :
    TraceM.Records T (TraceM.Either (AtRound opt param (chunkCount opt param)) fun _ ↦ True)
      (wipeChunks env opt param s) := by
  rw [wipeChunks_eq]
  refine TraceM.Records.forExit hT.toAppends (fun k hk s hs ↦ ?_) hs
  have hdue : Due opt param (.wipeSectorsLba s.offsetLba (chunkSectors opt param)) := by
    refine ⟨chunkPlan opt param k, ?_, hs.accepted⟩
    rw [hs.offsetLba, ← chunkPlan_succ]
    exact chunkPlan_isPrefix opt param hk
  have hsize : (wipeSectorSize opt param).toNat ≠ 0 := by
    rw [wipeSectorSize_of_not_cdrom opt hp]
    decide
  refine (hT.emit (by exact hsize)).bind hT.toAppends fun _ _ ↦ ?_
  refine (wipeCall_records hT hp h hdue hs.len).bind hT.toAppends fun x hx ↦ ?_
  refine (updateProgress_records hT hs.total _).bind hT.toAppends fun p htotal ↦ ?_
  refine TraceM.Records.ite (fun _ ↦ TraceM.records_pure hT.toAppends trivial) fun hret ↦ ?_
  refine TraceM.records_pure hT.toAppends ⟨hx.1, ?_, fun c hc ↦ ?_, htotal⟩
  · rw [chunkOffset_succ, hs.offsetLba]
  · rw [chunkPlan_succ, List.mem_append, List.mem_singleton] at hc
    rcases hc with hc | rfl
    · exact hs.accepted c hc
    · -- a refused call would have left the loop
      rw [← hs.offsetLba]
      intro href
      rw [hx.2 href] at hret
      exact hret (by decide)

/-- The loop variables after the remainder, with every call of the wipe loop accepted. -/
structure AtEnd (opt : Options) (param : DiskParam) (s : WipeState) : Prop where
  len : s.buffer.len = wipeBufferSize.toNat
  accepted : ∀ c ∈ wipePlan opt param, ¬refused opt param c

theorem wipeRemainder_records (hT : Around opt param T) (hp : isCdrom param = 0)
    (h : PlanMoves env opt param T) {s : WipeState}
    (hs : AtRound opt param (chunkCount opt param) s) :
    TraceM.Records T (TraceM.Either (AtEnd opt param) fun _ ↦ True)
      (wipeRemainder env opt param s) := by
  have hleft : totalSec opt param - s.offsetLba = leftSec opt param := by rw [hs.offsetLba, leftSec]
  rw [wipeRemainder, hleft]
  refine TraceM.Records.ite (fun h0 ↦ ?_) fun h0 ↦ ?_
  · have hplan : wipePlan opt param = chunkPlan opt param (chunkCount opt param) ++
        [.wipeSectorsLba s.offsetLba (leftSec opt param).toUInt32] := by
      rw [wipePlan, remainderPlan, if_pos h0, hs.offsetLba]
    have hdue : Due opt param (.wipeSectorsLba s.offsetLba (leftSec opt param).toUInt32) :=
      ⟨_, hplan ▸ wipePlan_isPrefix opt param, hs.accepted⟩
    refine (wipeCall_records hT hp h hdue hs.len).bind hT.toAppends fun x hx ↦ ?_
    refine TraceM.Records.ite (fun _ ↦ TraceM.records_pure hT.toAppends trivial) fun hret ↦ ?_
    refine (updateProgress_records hT hs.total _).bind hT.toAppends fun _ _ ↦ ?_
    refine TraceM.records_pure hT.toAppends ⟨hx.1, fun c hc ↦ ?_⟩
    rw [hplan, List.mem_append, List.mem_singleton] at hc
    rcases hc with hc | rfl
    · exact hs.accepted c hc
    · intro href
      rw [hx.2 href] at hret
      exact hret (by decide)
  · have hplan : wipePlan opt param = chunkPlan opt param (chunkCount opt param) := by
      rw [wipePlan, remainderPlan, if_neg h0, List.append_nil]
    refine (updateProgress_records hT hs.total _).bind hT.toAppends fun _ _ ↦ ?_
    exact TraceM.records_pure hT.toAppends ⟨hs.len, hplan ▸ hs.accepted⟩

theorem wipeMbr_records (hT : Around opt param T) (h : PlanMoves env opt param T) {s : WipeState}
    (hs : AtEnd opt param s) :
    TraceM.Records T (fun _ ↦ True) (wipeMbr env opt param s) := by
  rw [wipeMbr]
  refine TraceM.Records.ite (fun hmbr ↦ ?_) fun _ ↦ TraceM.records_pure hT.toAppends trivial
  have hdue : Due opt param .mbrWrite := due_mbrWrite_iff.2 ⟨hmbr, hs.accepted⟩
  refine (TraceM.records_update hT.toAppends _).bind hT.toAppends fun _ _ ↦ ?_
  refine TraceM.Records.bind hT.toAppends (h.mbr hdue _ hs.len) fun x _ ↦ ?_
  exact (hT.emit (by trivial)).bind hT.toAppends fun _ _ ↦
    TraceM.records_pure hT.toAppends trivial

theorem wipeBuffer_records (hT : Around opt param T) (hp : isCdrom param = 0)
    (h : PlanMoves env opt param T) {b : Buffer} (hb : b.len = wipeBufferSize.toNat) :
    TraceM.Records T (fun _ ↦ True) (wipeBuffer env opt param b) := by
  have hreset : TraceM.Records T (fun p ↦ p.totalBytes ≠ 0)
      (resetProgress env (totalSize opt param)) := by
    refine (gettimeofday_records hT.toAppends).bind hT.toAppends fun _ _ ↦ ?_
    exact TraceM.records_pure hT.toAppends (guarded_ne_zero (totalSize opt param))
  rw [wipeBuffer]
  refine hreset.bind hT.toAppends fun p htotal ↦ ?_
  refine (updateProgress_records hT htotal 0).bind hT.toAppends fun p htotal ↦ ?_
  have hstart : AtRound opt param 0 ⟨-1, b, 0, p⟩ := by
    refine ⟨hb, ?_, ?_, htotal⟩
    · simp [chunkOffset]
    · simp [chunkPlan]
  refine (wipeChunks_records hT hp h hstart).bind hT.toAppends fun v hv ↦ ?_
  cases v with
  | error ret => exact TraceM.records_pure hT.toAppends trivial
  | ok s =>
    refine (wipeRemainder_records hT hp h hv).bind hT.toAppends fun v hv ↦ ?_
    cases v with
    | error ret => exact TraceM.records_pure hT.toAppends trivial
    | ok s => exact wipeMbr_records hT h hv

/-- **A run of `wipe_disk`** records what the reads of the label scan and the transfers of the steps
that are due record. -/
theorem wipeDisk_records (hT : Around opt param T)
    (hlabel : isCdrom param = 0 → LabelReads env param T)
    (h : isCdrom param = 0 → PlanMoves env opt param T) :
    TraceM.Records T (fun _ ↦ True) (wipeDisk env opt param) := by
  have hskip : TraceM.Records T (fun v ↦ v = 0 → isCdrom param = 0)
      (isSkipedDisk env opt param) :=
    ((isSkipedDisk_records hT.toAppends hlabel).val fun m hv ↦ isCdrom_of_not_skiped rfl hv).mono
      fun _ h ↦ h.2
  have hmalloc : TraceM.Records T (fun v ↦ ∀ b : Buffer, v = some b →
      b.len = wipeBufferSize.toNat) (malloc env wipeBufferSize.toNat) :=
    (TraceM.records_read hT.toAppends).bind hT.toAppends fun m _ ↦
      (TraceM.records_update hT.toAppends _).bind hT.toAppends fun _ _ ↦
        TraceM.records_pure hT.toAppends (by
          intro b hb
          obtain ⟨byte, -, rfl⟩ := Option.map_eq_some_iff.1 hb
          rfl)
  rw [wipeDisk]
  refine hskip.bind hT.toAppends fun v hv ↦ ?_
  refine (hT.emit (by trivial)).bind hT.toAppends fun _ _ ↦ ?_
  refine TraceM.Records.ite (fun _ ↦ TraceM.records_pure hT.toAppends trivial) fun h0 ↦ ?_
  refine hmalloc.bind hT.toAppends fun w hw ↦ ?_
  cases w with
  | none => exact TraceM.records_pure hT.toAppends trivial
  | some b =>
    have hp := hv (not_not.1 h0)
    exact wipeBuffer_records hT hp (h hp) (hw b rfl)

/-! ### One event at a time -/

section events

variable {a : Chs} {offset : UInt64} {n size : UInt32} {buffer : Buffer}

/-- **A CHS transfer records nothing incidental.** -/
theorem sectorChsRw_not_incidental (isWrite check : Bool) (m : Machine σ) :
    ∀ e ∈ (sectorChsRw env isWrite param a n buffer size check m).events, ¬e.Incidental := by
  by_cases hr : chsRefused isWrite param a n size
  · rw [sectorChsRw_of_refused hr]
    simp [Event.Incidental]
  cases isWrite with
  | true =>
    obtain ⟨xs, hevents, -⟩ : ∃ xs : List Exchange,
        (writeSectorsChs env param a n buffer size check m).events = _ ∧ _ :=
      writeSectorsChs_shape hr m rfl
    rw [← writeSectorsChs, hevents]
    simp [Event.Incidental]
  | false =>
    rw [sectorChsRw_read, readSectorsChs_of_not_refused hr m rfl]
    split_ifs <;> simp [Event.Incidental]

/-- **An extended transfer records nothing incidental.** -/
theorem sectorsLbaRw_not_incidental (isWrite check : Bool) (m : Machine σ) :
    ∀ e ∈ (sectorsLbaRw env isWrite param offset n buffer size check m).events,
      ¬e.Incidental := by
  by_cases hr : lbaRefused isWrite param offset n size
  · rw [sectorsLbaRw_of_refused hr]
    simp [Event.Incidental]
  cases isWrite with
  | true =>
    rw [← writeSectorsLba, writeSectorsLba_of_not_refused hr m rfl]
    simp [Event.Incidental]
  | false =>
    rw [sectorsLbaRw_read hr m rfl]
    split_ifs <;> simp [Event.Incidental]

variable {Q : Event → Prop} (hQ : ∀ e : Event, ¬e.Incidental → Q e)

include hQ

theorem sectorChsRw_forall (isWrite check : Bool) :
    TraceM.Records (fun l ↦ ∀ e ∈ l, Q e) (fun _ ↦ True)
      (sectorChsRw env isWrite param a n buffer size check) :=
  fun m ↦ ⟨fun e he ↦ hQ e (sectorChsRw_not_incidental isWrite check m e he), trivial⟩

theorem sectorsLbaRw_forall (isWrite check : Bool) :
    TraceM.Records (fun l ↦ ∀ e ∈ l, Q e) (fun _ ↦ True)
      (sectorsLbaRw env isWrite param offset n buffer size check) :=
  fun m ↦ ⟨fun e he ↦ hQ e (sectorsLbaRw_not_incidental isWrite check m e he), trivial⟩

theorem labelReads_forall : LabelReads env param fun l ↦ ∀ e ∈ l, Q e :=
  ⟨fun _ _ _ ↦ sectorChsRw_forall hQ _ _, fun _ _ _ ↦ sectorsLbaRw_forall hQ _ _⟩

theorem callMoves_forall (len : ℕ) :
    CallMoves env opt param (fun l ↦ ∀ e ∈ l, Q e) offset n size len where
  readLba _ _ _ _ := sectorsLbaRw_forall hQ _ _
  writeLba _ _ _ _ := sectorsLbaRw_forall hQ _ _
  readChs _ _ _ _ _ _ := sectorChsRw_forall hQ _ _
  writeChs _ _ _ _ _ _ := sectorChsRw_forall hQ _ _

end events

/-- **What happens between the transfers of a run of `wipe_disk` is regular.** -/
theorem wipeDisk_regular {m : Machine σ} {e : Event}
    (he : e ∈ (wipeDisk env opt param m).events) (hinc : e.Incidental) :
    e.Regular opt param := by
  have hQ (e : Event) (h : ¬e.Incidental) : e.Incidental → e.Regular opt param := fun h' ↦
    absurd h' h
  have hT : Around opt param fun l ↦ ∀ e ∈ l, e.Incidental → e.Regular opt param :=
    { toAppends := TraceM.appends_forall _
      regular := fun e he d hd _ ↦ List.mem_singleton.1 hd ▸ he }
  have hrun : TraceM.Records _ (fun _ ↦ True) (wipeDisk env opt param) :=
    wipeDisk_records hT (fun _ ↦ labelReads_forall hQ) fun _ ↦
      ⟨fun _ _ _ ↦ callMoves_forall hQ _, fun _ _ _ ↦ sectorChsRw_forall hQ _ _⟩
  exact (hrun m).1 e he hinc

/-! ### The whole program -/

theorem setSlot_records (hT : Framed T) (index : ℕ) (p : DiskParam) :
    TraceM.Records T (fun _ ↦ True) (setSlot index p : Prog σ Unit) :=
  (hT.emit (by trivial)).bind hT.toAppends fun _ _ ↦
    TraceM.records_update hT.toAppends _

/-- A round of the enumeration records what its questions record. -/
theorem probeDrive_records (hT : Framed T) (hask : ∀ x, T [.int13 x]) (id : UInt8)
    (s : EnumState) : TraceM.Records T (fun _ ↦ True) (probeDrive env id s) := by
  have hparam : TraceM.Records T (fun _ ↦ True) (getDiskParam env id) := by
    intro m
    rw [run_getDiskParam m rfl]
    exact ⟨hask _, trivial⟩
  have hcheck : TraceM.Records T (fun _ ↦ True) (checkExtensionsPresent env id s.ext) := by
    intro m
    rw [run_checkExtensionsPresent m s.ext rfl]
    exact ⟨hask _, trivial⟩
  have hext (p : DiskParam) : TraceM.Records T (fun _ ↦ True) (getDiskParamExt env p) := by
    intro m
    rw [run_getDiskParamExt m rfl]
    exact ⟨hask _, trivial⟩
  rw [probeDrive]
  refine hparam.bind hT.toAppends fun p _ ↦ ?_
  refine (setSlot_records hT _ _).bind hT.toAppends fun _ _ ↦ ?_
  refine TraceM.Records.ite (fun _ ↦ ?_) fun _ ↦ TraceM.records_pure hT.toAppends trivial
  refine hcheck.bind hT.toAppends fun q _ ↦ ?_
  refine TraceM.Records.ite (fun _ ↦ ?_) fun _ ↦ TraceM.records_pure hT.toAppends trivial
  refine (hext _).bind hT.toAppends fun _ _ ↦ ?_
  exact (setSlot_records hT _ _).bind hT.toAppends fun _ _ ↦
    TraceM.records_pure hT.toAppends trivial

/-- **A run of `do_main`** records what the questions of the enumeration and the transfers of its
disks record. -/
theorem doMain_records (hT : Framed T) (hask : ∀ x, T [.int13 x])
    (hlabel : ∀ param, LabelReads env param T) (h : ∀ param, PlanMoves env opt param T)
    (uninit : Extensions) : TraceM.Records T (fun _ ↦ True) (doMain env opt uninit) := by
  have hprobe (k : ℕ) (s : EnumState) : TraceM.Records T (fun _ ↦ True)
      (TraceM.forRange k s fun i s ↦ probeDrive env (UInt8.ofNat (0x80 + i)) s) :=
    TraceM.Records.forRange hT.toAppends (fun i s _ ↦ probeDrive_records hT hask _ s) k trivial
  have henter : TraceM.Records T (fun _ ↦ True) (enter .probe : Prog σ Unit) :=
    TraceM.records_update hT.toAppends _
  have henum : TraceM.Records T (fun _ ↦ True) (enumDisk env uninit) := by
    refine henter.bind hT.toAppends fun _ _ ↦ (hprobe 128 _).bind hT.toAppends fun s _ ↦ ?_
    exact TraceM.records_update hT.toAppends _
  have hround (i : ℕ) : TraceM.Records T (fun _ ↦ True) (wipeListed env opt i) := by
    refine (TraceM.records_read hT.toAppends).bind hT.toAppends fun m _ ↦ ?_
    refine (wipeDisk_records (hT.around opt _) (fun _ ↦ hlabel _) fun _ ↦ h _).bind
      hT.toAppends fun _ _ ↦ ?_
    exact (hT.emit (by trivial)).bind hT.toAppends fun _ _ ↦
      TraceM.records_update hT.toAppends _
  have hall : TraceM.Records T (fun _ ↦ True) (wipeAll env opt) :=
    (TraceM.records_read hT.toAppends).bind hT.toAppends fun m _ ↦
      TraceM.Records.forRange hT.toAppends (S := fun _ ↦ True) (fun i _ _ ↦ hround i) _ trivial
  rw [doMain]
  refine (gettimeofday_records hT.toAppends).bind hT.toAppends fun _ _ ↦ ?_
  refine (TraceM.records_update hT.toAppends _).bind hT.toAppends fun _ _ ↦ ?_
  exact henum.bind hT.toAppends fun _ _ ↦ hall

end walk

end Dwipe

import Dwipe.Disk.Sizes
import Dwipe.Wipe.Plan

/-!
# What a run may ask

Every request of every run of `wipe_disk`, whatever the BIOS answers, is addressed to the drive it
was called for, and its function number is one of those the place it is issued from may use
(`Allowed`): reads from the label scan, reads **or** writes from the wipe loop depending on
`opt.test`, extended ones **or** CHS ones depending on the drive, and CHS writes from the MBR step.

The proof is one walk over the program with the rules of `TraceM.Safe`.
-/

namespace Dwipe

variable {σ : Type} {env : Env σ} {opt : Options}

/-! ### The judgement -/

/-- Exchanges satisfy `R`, and calls that return satisfy `C`. -/
def Obeys (R : Site → RealArea → Prop) (C : Call → Prop) : Event → Prop
  | .int13 x => R x.site x.req
  | .returned c _ => C c
  | _ => True

theorem Obeys.mono {R R' : Site → RealArea → Prop} {C C' : Call → Prop} {e : Event}
    (h : Obeys R C e) (hR : ∀ s q, R s q → R' s q) (hC : ∀ c, C c → C' c) :
    Obeys R' C' e := by
  cases e with
  | int13 x => exact hR _ _ h
  | returned c r => exact hC c h
  | _ => trivial

theorem forall_obeys_iff {R : Site → RealArea → Prop} {C : Call → Prop} {l : List Event} :
    (∀ e ∈ l, Obeys R C e) ↔
      (∀ x ∈ exchanges l, R x.site x.req) ∧ ∀ p ∈ returns l, C p.1 := by
  constructor
  · intro h
    exact ⟨fun x hx ↦ h _ (mem_exchanges.1 hx), fun p hp ↦ h _ (mem_returns.1 hp)⟩
  · rintro ⟨hx, hr⟩ e he
    cases e with
    | int13 x => exact hx x (mem_exchanges.2 he)
    | returned c r => exact hr (c, r) (mem_returns.2 he)
    | _ => trivial

/-- A property of the machine that asking the BIOS, moving on and passing time leave alone. -/
structure Stable (env : Env σ) (I : Machine σ → Prop) : Prop where
  ask : ∀ m req, I m → I (m.ask env req)
  site : ∀ m s, I m → I { m with site := s }
  ticks : ∀ m k, I m → I { m with ticks := k }

theorem stable_true (env : Env σ) : Stable env fun _ ↦ True := ⟨by simp, by simp, by simp⟩

/-! ### Transfers -/

/-- The requests of a transfer from `s`: to the drive, out of `real_buffer` or into it and no longer
than it, and with a function number out of `ahs`. -/
def Uses (env : Env σ) (param : DiskParam) (ahs : List UInt8) (s : Site) (s' : Site)
    (q : RealArea) : Prop :=
  s' = s ∧ q.reg.dl = param.diskId ∧ WellMade env (sectorSize param).toNat q ∧ q.reg.ah ∈ ahs

section transfers

variable {I : Machine σ → Prop} {param : DiskParam} {a : Chs} {offset : UInt64}
  {n size : UInt32} {buffer : Buffer} {check : Bool} {s : Site} {C : Call → Prop}

theorem readSectorsLba_safe (hI : Stable env I) :
    TraceM.Safe (fun m ↦ I m ∧ m.site = s)
      (Obeys (fun s' q ↦ param.hasExt ≠ 0 ∧ Uses env param [0x42] s s' q) C)
      (fun m ↦ I m ∧ m.site = s) (readSectorsLba env param offset n buffer size) := by
  rintro m ⟨hm, rfl⟩
  rw [forall_obeys_iff]
  by_cases h : lbaRefused false param offset n size
  · rw [readSectorsLba, sectorsLbaRw_of_refused h]
    exact ⟨⟨hm, rfl⟩, by simp⟩
  · have hext : param.hasExt ≠ 0 := fun h0 ↦ h (Or.inl h0)
    rw [readSectorsLba_of_not_refused h m rfl]
    refine ⟨⟨hI.ask m _ hm, rfl⟩, ?_, ?_⟩
    · intro x hx
      obtain rfl : x = _ := by split_ifs at hx <;> simpa using hx
      exact ⟨hext, rfl, rfl, wellMade_lbaAsk h, by simp [exchangeAt, lbaAsk]⟩
    · split_ifs <;> simp

theorem readSectorsChs_safe (hI : Stable env I) :
    TraceM.Safe (fun m ↦ I m ∧ m.site = s) (Obeys (Uses env param [0x02] s) C)
      (fun m ↦ I m ∧ m.site = s) (readSectorsChs env param a n buffer size) := by
  rintro m ⟨hm, rfl⟩
  rw [forall_obeys_iff]
  by_cases h : chsRefused false param a n size
  · rw [readSectorsChs, sectorChsRw_of_refused h]
    exact ⟨⟨hm, rfl⟩, by simp⟩
  · rw [readSectorsChs_of_not_refused h m rfl]
    refine ⟨⟨hI.ask m _ hm, rfl⟩, ?_, ?_⟩
    · intro x hx
      obtain rfl : x = _ := by split_ifs at hx <;> simpa using hx
      exact ⟨rfl, rfl, wellMade_chsAsk h, by simp [exchangeAt, chsAsk]⟩
    · split_ifs <;> simp

theorem writeSectorsLba_safe (hI : Stable env I) :
    TraceM.Safe (fun m ↦ I m ∧ m.site = s)
      (Obeys (fun s' q ↦ param.hasExt ≠ 0 ∧ Uses env param [0x43] s s' q) C)
      (fun m ↦ I m ∧ m.site = s) (writeSectorsLba env param offset n buffer size check) := by
  rintro m ⟨hm, rfl⟩
  rw [forall_obeys_iff]
  by_cases h : lbaRefused true param offset n size
  · rw [writeSectorsLba, sectorsLbaRw_of_refused h]
    exact ⟨⟨hm, rfl⟩, by simp⟩
  · have hext : param.hasExt ≠ 0 := fun h0 ↦ h (Or.inl h0)
    rw [writeSectorsLba_of_not_refused h m rfl]
    refine ⟨⟨hI.ask m _ hm, rfl⟩, ?_, by simp⟩
    intro x hx
    obtain rfl : x = _ := by simpa using hx
    exact ⟨hext, rfl, rfl, wellMade_lbaAsk h, by simp [exchangeAt, lbaAsk]⟩

theorem writeSectorsChs_safe (hI : Stable env I) :
    TraceM.Safe (fun m ↦ I m ∧ m.site = s) (Obeys (Uses env param [0x03, 0x04] s) C)
      (fun m ↦ I m ∧ m.site = s) (writeSectorsChs env param a n buffer size check) := by
  rintro m ⟨hm, rfl⟩
  rw [forall_obeys_iff]
  by_cases h : chsRefused true param a n size
  · rw [writeSectorsChs, sectorChsRw_of_refused h]
    exact ⟨⟨hm, rfl⟩, by simp⟩
  obtain ⟨x, hx⟩ : ∃ x, x =
      exchangeAt env m (chsAsk env true param a n buffer size m.area) := ⟨_, rfl⟩
  have hok : Uses env param [0x03, 0x04] m.site x.site x.req := by
    subst hx
    exact ⟨rfl, rfl, wellMade_chsAsk h, by simp [exchangeAt, chsAsk]⟩
  by_cases hv : check = false ∨ x.carry = true ∨ x.short param n
  · rw [writeSectorsChs_of_unverified h m hx hv]
    refine ⟨⟨hI.ask m _ hm, rfl⟩, ?_, by simp⟩
    simpa using hok
  · simp only [not_or, Bool.not_eq_false, Bool.not_eq_true] at hv
    obtain ⟨rfl, hc, hfull⟩ := hv
    obtain ⟨y, hy⟩ : ∃ y, y = exchangeAt env (m.ask env x.req)
        (chsRequest env param a n 0x04 x.res) := ⟨_, rfl⟩
    have hok' : Uses env param [0x03, 0x04] m.site y.site y.req := by
      subst hy
      exact ⟨rfl, rfl, wellMade_verify, by simp [exchangeAt]⟩
    rw [writeSectorsChs_of_verified h m hx hc hfull hy]
    refine ⟨⟨hI.ask _ _ (hI.ask m _ hm), rfl⟩, ?_, by simp⟩
    simpa using ⟨hok, hok'⟩

end transfers

/-! ### The label scan -/

section label

variable {I : Machine σ → Prop} {param : DiskParam} {C : Call → Prop}

/-- The requests of the label scan. -/
abbrev LabelRead (env : Env σ) (param : DiskParam) : Site → RealArea → Prop :=
  Uses env param [0x02, 0x42] .label

/-- A CHS read made by the label scan, of whatever sector the entry names. -/
theorem labelReadChs_safe (hI : Stable env I) (a : Chs) (b : Buffer) :
    TraceM.Safe (fun m ↦ I m ∧ m.site = .label) (Obeys (LabelRead env param) C)
      (fun m ↦ I m ∧ m.site = .label) (readSectorsChs env param a 1 b labelBufferSize) := by
  refine (readSectorsChs_safe hI).mono (fun _ h ↦ h) (fun e he ↦ he.mono ?_ fun _ h ↦ h)
    (fun _ h ↦ h)
  rintro s q ⟨hs, hdl, hmade, hah⟩
  exact ⟨hs, hdl, hmade, by simp_all⟩

theorem readEntry_safe (hI : Stable env I) (e : MbrEntry) (buffer : Buffer) :
    TraceM.Safe (fun m ↦ I m ∧ m.site = .label) (Obeys (LabelRead env param) C)
      (fun m ↦ I m ∧ m.site = .label) (readEntry env param e buffer) := by
  have hchs (b : Buffer) : TraceM.Safe (fun m ↦ I m ∧ m.site = .label)
      (Obeys (LabelRead env param) C) (fun m ↦ I m ∧ m.site = .label)
      (readSectorsChs env param e.chsBegin 1 b labelBufferSize) := labelReadChs_safe hI _ b
  have hlba (b : Buffer) : TraceM.Safe (fun m ↦ I m ∧ m.site = .label)
      (Obeys (LabelRead env param) C) (fun m ↦ I m ∧ m.site = .label)
      (readSectorsLba env param e.lbaBegin.toUInt64 1 b labelBufferSize) := by
    refine (readSectorsLba_safe hI).mono (fun _ h ↦ h) (fun e he ↦ he.mono ?_ fun _ h ↦ h)
      (fun _ h ↦ h)
    rintro s q ⟨-, hs, hdl, hmade, hah⟩
    exact ⟨hs, hdl, hmade, by simp_all⟩
  rw [readEntry]
  refine TraceM.Safe.ite (fun _ ↦ (hchs buffer).bind fun x ↦ TraceM.safe_pure _) fun _ ↦ ?_
  refine TraceM.Safe.ite (fun _ ↦ (hlba buffer).bind fun x ↦ TraceM.safe_pure _) fun _ ↦ ?_
  refine TraceM.Safe.ite (fun _ ↦ (hchs buffer).bind fun x ↦ ?_) fun _ ↦ TraceM.safe_pure _
  refine TraceM.Safe.ite (fun _ ↦ (hlba x.buffer).bind fun y ↦ TraceM.safe_pure _) fun _ ↦ ?_
  exact TraceM.safe_pure _

theorem scanEntry_safe (hI : Stable env I) (e : MbrEntry) (buffer : Buffer) :
    TraceM.Safe (fun m ↦ I m ∧ m.site = .label) (Obeys (LabelRead env param) C)
      (fun m ↦ I m ∧ m.site = .label) (scanEntry env opt param e buffer) := by
  rw [scanEntry]
  refine (readEntry_safe hI e buffer).bind fun v ↦ ?_
  cases v with
  | none => exact TraceM.safe_pure _
  | some x =>
    exact TraceM.Safe.ite (fun _ ↦ TraceM.safe_pure _) fun _ ↦ TraceM.safe_pure _

/-- **The label scan only reads**, on every path through the four entries. -/
theorem containFatLabel_safe (hI : Stable env I) (str : CString) :
    TraceM.Safe I (Obeys (LabelRead env param) C) I (containFatLabel env opt param str) := by
  have henter : TraceM.Safe I (Obeys (LabelRead env param) C) (fun m ↦ I m ∧ m.site = .label)
      (enter .label : Prog σ Unit) := TraceM.safe_update fun m hm ↦ ⟨hI.site m _ hm, rfl⟩
  have hstack : TraceM.Safe (fun m ↦ I m ∧ m.site = .label) (Obeys (LabelRead env param) C)
      (fun m ↦ I m ∧ m.site = .label) (stackArray env labelBufferSize.toNat) :=
    TraceM.safe_read.bind fun _ ↦
      (TraceM.safe_update fun m hm ↦ ⟨hI.ticks m _ hm.1, hm.2⟩).bind fun _ ↦ TraceM.safe_pure _
  have hread (b : Buffer) : TraceM.Safe (fun m ↦ I m ∧ m.site = .label)
      (Obeys (LabelRead env param) C) (fun m ↦ I m ∧ m.site = .label)
      (readSectorsChs env param ⟨0, 0, 1⟩ 1 b labelBufferSize) := labelReadChs_safe hI _ b
  have hbody : TraceM.Safe I (Obeys (LabelRead env param) C) (fun m ↦ I m ∧ m.site = .label)
      (containFatLabel env opt param str) := by
    rw [containFatLabel]
    refine henter.bind fun _ ↦ hstack.bind fun b ↦ (hread b).bind fun x ↦ ?_
    refine TraceM.Safe.ite (fun _ ↦ TraceM.safe_pure _) fun _ ↦ ?_
    refine (TraceM.Safe.forExit (fun i b ↦ scanEntry_safe hI _ b) 4 x.buffer).bind fun v ↦ ?_
    cases v with
    | ok b => exact TraceM.safe_pure _
    | error ret => exact TraceM.safe_pure _
  exact hbody.mono (fun _ h ↦ h) (fun _ h ↦ h) (fun _ h ↦ h.1)

theorem isSkipedDisk_safe (hI : Stable env I) :
    TraceM.Safe I (Obeys (LabelRead env param) C) I (isSkipedDisk env opt param) := by
  rw [isSkipedDisk]
  refine TraceM.Safe.ite (fun _ ↦ TraceM.safe_pure _) fun _ ↦ ?_
  exact (containFatLabel_safe hI opt.skip).bind fun _ ↦ TraceM.safe_pure _

/-- A write request: `AH=03h` or `AH=43h`. The program has no other way to change a disk. -/
def Exchange.IsWrite (x : Exchange) : Prop := x.req.reg.ah = 0x03 ∨ x.req.reg.ah = 0x43

theorem LabelRead.not_isWrite {x : Exchange} (h : LabelRead env param x.site x.req) :
    ¬x.IsWrite := by
  obtain ⟨-, -, -, hah⟩ := h
  rw [List.mem_cons, List.mem_singleton] at hah
  rcases hah with hah | hah <;> simp [Exchange.IsWrite, hah]

end label

/-! ### The wipe -/

/-- **The function numbers the wipe may use**, by the place a request is issued from; the request is
always for the drive, and its buffer that of the real-mode segment, which it does not leave. -/
def Permitted (env : Env σ) (opt : Options) (param : DiskParam) (s : Site) (q : RealArea) : Prop :=
  q.reg.dl = param.diskId ∧ WellMade env (sectorSize param).toNat q ∧
    match s with
    | .probe | .label => False
    | .test => opt.test = true ∧
        if param.hasExt ≠ 0 then q.reg.ah = 0x42 else q.reg.ah = 0x02
    | .pass _ => opt.test = false ∧
        if param.hasExt ≠ 0 then q.reg.ah = 0x43 else q.reg.ah = 0x03 ∨ q.reg.ah = 0x04
    | .mbr => opt.mbr = true ∧ opt.test = false ∧ (q.reg.ah = 0x03 ∨ q.reg.ah = 0x04)

section wipe

variable {I : Machine σ → Prop} {param : DiskParam} {C : Call → Prop}

theorem fillPass_safe {R : Site → RealArea → Prop} (hr : ∀ m r, I m → I { m with randNext := r })
    (i : ℕ) (buffer : Buffer) (n : ℕ) :
    TraceM.Safe I (Obeys R C) I (fillPass opt i buffer n : Prog σ Buffer) := by
  rw [fillPass]
  refine TraceM.Safe.ite (fun _ ↦ TraceM.safe_pure _) fun _ ↦ ?_
  refine TraceM.Safe.ite (fun _ ↦ TraceM.safe_pure _) fun _ ↦ ?_
  intro m hm
  rw [run_fillRand]
  exact ⟨hr m _ hm, by simp⟩

/-- A branch of `wipe_sectors_lba` is safe when its read and its writes are, at their sites. -/
theorem branch_safe {R : Site → RealArea → Prop} {read : Prog σ Xfer}
    {write : Buffer → UInt32 → Bool → Prog σ Xfer} {fast buffer : Buffer} {size : UInt32}
    (hI : Stable env I) (hr : ∀ m r, I m → I { m with randNext := r })
    (hC : ∀ i, C (.passWrite i))
    (hread : opt.test = true → TraceM.Safe (fun m ↦ I m ∧ m.site = .test) (Obeys R C)
      (fun m ↦ I m ∧ m.site = .test) read)
    (hwrite : opt.test = false → ∀ i b c, TraceM.Safe (fun m ↦ I m ∧ m.site = .pass i)
      (Obeys R C) (fun m ↦ I m ∧ m.site = .pass i) (write b size c)) :
    TraceM.Safe I (Obeys R C) I (branch opt read write fast buffer size) := by
  have henter (s : Site) : TraceM.Safe I (Obeys R C) (fun m ↦ I m ∧ m.site = s)
      (enter s : Prog σ Unit) := TraceM.safe_update fun m hm ↦ ⟨hI.site m s hm, rfl⟩
  have hone (htest : opt.test = false) (i : ℕ) (b : Buffer) (c : Bool) :
      TraceM.Safe I (Obeys R C) I (do
        enter (.pass i)
        let r ← write b size c
        TraceM.emit (.returned (.passWrite i) r.ret)
        return r : Prog σ Xfer) := by
    have hw : TraceM.Safe (fun m ↦ I m ∧ m.site = .pass i) (Obeys R C) I (write b size c) :=
      (hwrite htest i b c).mono (fun _ h ↦ h) (fun _ h ↦ h) (fun _ h ↦ h.1)
    refine (henter (.pass i)).bind fun _ ↦ hw.bind fun r ↦ ?_
    refine TraceM.Safe.bind (TraceM.safe_emit ?_) fun _ ↦ TraceM.safe_pure _
    exact hC i
  rw [branch]
  refine TraceM.Safe.ite (fun htest ↦ ?_) fun htest ↦ ?_
  · exact ((henter .test).bind fun _ ↦ hread htest).mono (fun _ h ↦ h) (fun _ h ↦ h)
      (fun _ h ↦ h.1)
  · have htest' : opt.test = false := by simpa using htest
    refine TraceM.Safe.ite (fun _ ↦ hone htest' 0 fast opt.check) fun _ ↦ ?_
    refine TraceM.Safe.forRange (fun i x ↦ ?_) _ _
    exact (fillPass_safe hr i x.buffer _).bind fun b ↦ hone htest' i b _

theorem wipeSectorsLba_safe (hI : Stable env I) (hr : ∀ m r, I m → I { m with randNext := r })
    (hC : ∀ i, C (.passWrite i)) (offset : UInt64) (n : UInt32) (buffer : Buffer)
    (size : UInt32) :
    TraceM.Safe I (Obeys (Permitted env opt param) C) I
      (wipeSectorsLba env opt param offset n buffer size) := by
  rw [wipeSectorsLba]
  refine TraceM.Safe.ite (fun hext ↦ ?_) fun hext ↦ ?_
  · rw [wipeSectorsExt_eq]
    refine branch_safe hI hr hC (fun htest ↦ ?_) (fun htest i b c ↦ ?_)
    · refine (readSectorsLba_safe hI).mono (fun _ h ↦ h) (fun e he ↦ he.mono ?_ fun _ h ↦ h)
        (fun _ h ↦ h)
      rintro s q ⟨-, rfl, hdl, hmade, hah⟩
      exact ⟨hdl, hmade, htest, by simpa [hext] using hah⟩
    · refine (writeSectorsLba_safe hI).mono (fun _ h ↦ h) (fun e he ↦ he.mono ?_ fun _ h ↦ h)
        (fun _ h ↦ h)
      rintro s q ⟨-, rfl, hdl, hmade, hah⟩
      exact ⟨hdl, hmade, htest, by simpa [hext] using hah⟩
  · refine TraceM.Safe.bind (TraceM.safe_emitAll (by simp [Obeys])) fun _ ↦ ?_
    cases lba2chs param offset with
    | none => exact TraceM.safe_pure _
    | some a =>
      show TraceM.Safe I _ I (wipeSectorsChs env opt param a n buffer size)
      rw [wipeSectorsChs_eq]
      refine branch_safe hI hr hC (fun htest ↦ ?_) (fun htest i b c ↦ ?_)
      · refine (readSectorsChs_safe hI).mono (fun _ h ↦ h) (fun e he ↦ he.mono ?_ fun _ h ↦ h)
          (fun _ h ↦ h)
        rintro s q ⟨rfl, hdl, hmade, hah⟩
        exact ⟨hdl, hmade, htest, by simpa [hext] using hah⟩
      · refine (writeSectorsChs_safe hI).mono (fun _ h ↦ h) (fun e he ↦ he.mono ?_ fun _ h ↦ h)
          (fun _ h ↦ h)
        rintro s q ⟨rfl, hdl, hmade, hah⟩
        exact ⟨hdl, hmade, htest, by simpa [hext] using hah⟩

theorem wipeCall_safe (hI : Stable env I) (hr : ∀ m r, I m → I { m with randNext := r })
    (hC : ∀ i, C (.passWrite i)) (hS : ∀ offset n, C (.wipeSectorsLba offset n))
    (offset : UInt64) (n : UInt32) (buffer : Buffer) :
    TraceM.Safe I (Obeys (Permitted env opt param) C) I
      (wipeCall env opt param offset n buffer) := by
  refine (wipeSectorsLba_safe hI hr hC offset n buffer wipeBufferSize).bind fun x ↦ ?_
  exact TraceM.Safe.bind (TraceM.safe_emit (hS offset n)) fun _ ↦ TraceM.safe_pure _

theorem updateProgress_safe {R : Site → RealArea → Prop} (hI : Stable env I)
    (progress : Progress) (n : UInt64) :
    TraceM.Safe I (Obeys R C) I (updateProgress env progress n) := by
  intro m hm
  obtain ⟨hq, hs⟩ := updateProgress_quiet env progress n m
  rw [forall_obeys_iff, hs, hq.exchanges, hq.returns]
  exact ⟨hI.ticks m _ hm, by simp⟩

theorem wipeChunks_safe (hI : Stable env I) (hr : ∀ m r, I m → I { m with randNext := r })
    (hC : ∀ i, C (.passWrite i)) (hS : ∀ offset n, C (.wipeSectorsLba offset n))
    (s : WipeState) :
    TraceM.Safe I (Obeys (Permitted env opt param) C) I (wipeChunks env opt param s) := by
  rw [wipeChunks_eq]
  refine TraceM.Safe.forExit (fun _ s ↦ ?_) _ s
  refine TraceM.Safe.bind (TraceM.safe_emit trivial) fun _ ↦ ?_
  refine (wipeCall_safe hI hr hC hS _ _ _).bind fun x ↦ ?_
  refine (updateProgress_safe hI _ _).bind fun _ ↦ ?_
  exact TraceM.Safe.ite (fun _ ↦ TraceM.safe_pure _) fun _ ↦ TraceM.safe_pure _

theorem wipeRemainder_safe (hI : Stable env I) (hr : ∀ m r, I m → I { m with randNext := r })
    (hC : ∀ i, C (.passWrite i)) (hS : ∀ offset n, C (.wipeSectorsLba offset n))
    (s : WipeState) :
    TraceM.Safe I (Obeys (Permitted env opt param) C) I (wipeRemainder env opt param s) := by
  rw [wipeRemainder]
  refine TraceM.Safe.ite (fun _ ↦ ?_) fun _ ↦
    (updateProgress_safe hI _ _).bind fun _ ↦ TraceM.safe_pure _
  refine (wipeCall_safe hI hr hC hS _ _ _).bind fun x ↦ ?_
  refine TraceM.Safe.ite (fun _ ↦ TraceM.safe_pure _) fun _ ↦ ?_
  exact (updateProgress_safe hI _ _).bind fun _ ↦ TraceM.safe_pure _

/-- The requests of the MBR step. -/
def MbrWrite (env : Env σ) (opt : Options) (param : DiskParam) (s : Site) (q : RealArea) : Prop :=
  opt.mbr = true ∧ opt.test = false ∧ Uses env param [0x03, 0x04] .mbr s q

theorem wipeMbr_safe (hI : Stable env I) (hM : C .mbrWrite) (s : WipeState) :
    TraceM.Safe I (Obeys (MbrWrite env opt param) C) I (wipeMbr env opt param s) := by
  rw [wipeMbr]
  refine TraceM.Safe.ite (fun hmbr ↦ ?_) fun _ ↦ TraceM.safe_pure _
  have henter : TraceM.Safe I (Obeys (MbrWrite env opt param) C) (fun m ↦ I m ∧ m.site = .mbr)
      (enter .mbr : Prog σ Unit) := TraceM.safe_update fun m hm ↦ ⟨hI.site m _ hm, rfl⟩
  refine henter.bind fun _ ↦ ?_
  have hwrite (b : Buffer) : TraceM.Safe (fun m ↦ I m ∧ m.site = .mbr)
      (Obeys (MbrWrite env opt param) C) I
      (writeSectorsChs env param ⟨0, 0, 1⟩ 1 b mbrBinLen opt.check) :=
    (writeSectorsChs_safe hI).mono (fun _ h ↦ h)
      (fun e he ↦ he.mono (fun _ _ h ↦ ⟨hmbr.1, by simpa using hmbr.2, h⟩) fun _ h ↦ h)
      (fun _ h ↦ h.1)
  refine (hwrite _).bind fun x ↦ ?_
  exact TraceM.Safe.bind (TraceM.safe_emit hM) fun _ ↦ TraceM.safe_pure _

theorem wipeBuffer_safe (hI : Stable env I) (hr : ∀ m r, I m → I { m with randNext := r })
    (hC : ∀ i, C (.passWrite i)) (hS : ∀ offset n, C (.wipeSectorsLba offset n))
    (hM : C .mbrWrite) (buffer : Buffer) :
    TraceM.Safe I (Obeys (Permitted env opt param) C) I (wipeBuffer env opt param buffer) := by
  have hreset : TraceM.Safe I (Obeys (Permitted env opt param) C) I
      (resetProgress env (totalSize opt param)) :=
    TraceM.Safe.bind (TraceM.safe_read.bind fun _ ↦
      (TraceM.safe_update fun m hm ↦ hI.ticks m _ hm).bind fun _ ↦ TraceM.safe_pure _)
      fun _ ↦ TraceM.safe_pure _
  rw [wipeBuffer]
  refine hreset.bind fun p ↦ (updateProgress_safe hI _ _).bind fun p ↦ ?_
  refine (wipeChunks_safe hI hr hC hS _).bind fun v ↦ ?_
  cases v with
  | error ret => exact TraceM.safe_pure _
  | ok s =>
    refine (wipeRemainder_safe hI hr hC hS s).bind fun v ↦ ?_
    cases v with
    | error ret => exact TraceM.safe_pure _
    | ok s =>
      refine (wipeMbr_safe hI hM s).mono (fun _ h ↦ h) (fun e he ↦ he.mono ?_ fun _ h ↦ h)
        (fun _ h ↦ h)
      rintro s q ⟨hmbr, htest, rfl, hdl, hmade, hah⟩
      exact ⟨hdl, hmade, hmbr, htest, by simpa using hah⟩

theorem wipeBuffer_permitted {buffer : Buffer} {m : Machine σ} {x : Exchange}
    (hx : x ∈ exchanges (wipeBuffer env opt param buffer m).events) :
    Permitted env opt param x.site x.req := by
  have hsafe : TraceM.Safe (fun _ ↦ True) (Obeys (Permitted env opt param) fun _ ↦ True)
      (fun _ ↦ True) (wipeBuffer env opt param buffer) :=
    wipeBuffer_safe (stable_true env) (by simp) (by simp) (by simp) trivial buffer
  exact (hsafe m trivial).2 _ (mem_exchanges.1 hx)

/-- A request of the label scan or of the wipe. -/
def Allowed (env : Env σ) (opt : Options) (param : DiskParam) (s : Site) (q : RealArea) : Prop :=
  LabelRead env param s q ∨ Permitted env opt param s q

/-- **Every request of every run of `wipe_disk` is allowed.** -/
theorem wipeDisk_safe (hI : Stable env I) (hr : ∀ m r, I m → I { m with randNext := r }) :
    TraceM.Safe I (Obeys (Allowed env opt param) fun _ ↦ True) I (wipeDisk env opt param) := by
  rw [wipeDisk]
  have hskip : TraceM.Safe I (Obeys (Allowed env opt param) fun _ ↦ True) I
      (isSkipedDisk env opt param) :=
    (isSkipedDisk_safe hI).mono (fun _ h ↦ h)
      (fun e he ↦ he.mono (fun _ _ h ↦ Or.inl h) fun _ h ↦ h) (fun _ h ↦ h)
  have hwipe (b : Buffer) : TraceM.Safe I (Obeys (Allowed env opt param) fun _ ↦ True) I
      (wipeBuffer env opt param b) :=
    (wipeBuffer_safe hI hr (fun _ ↦ trivial) (fun _ _ ↦ trivial) trivial b).mono (fun _ h ↦ h)
      (fun e he ↦ he.mono (fun _ _ h ↦ Or.inr h) fun _ h ↦ h) (fun _ h ↦ h)
  refine hskip.bind fun v ↦ TraceM.Safe.bind (TraceM.safe_emit trivial) fun _ ↦ ?_
  refine TraceM.Safe.ite (fun _ ↦ TraceM.safe_pure _) fun _ ↦ ?_
  have hmalloc : TraceM.Safe I (Obeys (Allowed env opt param) fun _ ↦ True) I
      (malloc env wipeBufferSize.toNat) :=
    TraceM.safe_read.bind fun _ ↦
      (TraceM.safe_update fun m hm ↦ hI.ticks m _ hm).bind fun _ ↦ TraceM.safe_pure _
  refine hmalloc.bind fun b ↦ ?_
  cases b with
  | none => exact TraceM.safe_pure _
  | some buffer => exact hwipe buffer

theorem wipeDisk_allowed {m : Machine σ} {x : Exchange}
    (hx : x ∈ exchanges (wipeDisk env opt param m).events) :
    Allowed env opt param x.site x.req := by
  have hsafe : TraceM.Safe (fun _ ↦ True) (Obeys (Allowed env opt param) fun _ ↦ True)
      (fun _ ↦ True) (wipeDisk env opt param) := wipeDisk_safe (stable_true env) (by simp)
  exact (hsafe m trivial).2 _ (mem_exchanges.1 hx)

/-- With nothing planned for the wipe loop, only the MBR step asks. -/
theorem wipeBuffer_safe_of_empty (hI : Stable env I) (hM : C .mbrWrite)
    (hcount : chunkCount opt param = 0) (hleft : leftSec opt param = 0) (buffer : Buffer)
    {m : Machine σ} (hm : I m) :
    ∀ e ∈ (wipeBuffer env opt param buffer m).events, Obeys (MbrWrite env opt param) C e := by
  have hchunks (s : WipeState) (m : Machine σ) :
      wipeChunks env opt param s m = ⟨.ok s, m, []⟩ := by
    rw [wipeChunks_eq, hcount]
    rfl
  have hrest : TraceM.Safe I (Obeys (MbrWrite env opt param) C) I (do
      let p ← resetProgress env (totalSize opt param)
      let p ← updateProgress env p 0
      let q ← updateProgress env p (0 * (wipeSectorSize opt param).toUInt64)
      wipeMbr env opt param ⟨-1, buffer, 0, q⟩ : Prog σ ℤ) := by
    refine TraceM.Safe.bind ?_ fun p ↦ (updateProgress_safe hI _ _).bind fun p ↦
      (updateProgress_safe hI _ _).bind fun q ↦ wipeMbr_safe hI hM _
    exact TraceM.Safe.bind (TraceM.safe_read.bind fun _ ↦
      (TraceM.safe_update fun m hm ↦ hI.ticks m _ hm).bind fun _ ↦ TraceM.safe_pure _)
      fun _ ↦ TraceM.safe_pure _
  have hzero : totalSec opt param - 0 = 0 := by
    have hoff : chunkOffset opt param 0 = 0 := by simp [chunkOffset]
    rw [leftSec, hcount, hoff] at hleft
    exact hleft
  have hevents := (hrest m hm).2
  simpa [wipeBuffer, TraceM.run_bind, hchunks, wipeRemainder, hzero] using hevents

end wipe

end Dwipe

import Dwipe.Disk.Served

/-!
# The scan before a faithful BIOS

The label scan against a BIOS that may fail any read. A one-sector read names a `Place`, a triple or
a linear number, and a `Medium` has a sector for each of them; which triple stands for which sector
is the drive's own business, except that the first triple is sector 0. A read that succeeds delivers
its sector, and that is all `Faithful` asks for: a place may fail now and be read later. With
`Answers` the places that fail are fixed, each with its status.

Everything the scan learns about an entry it learns from the places the entry names
(`MbrEntry.places`), one read at a time. Before a faithful BIOS it finds the label only in a sector
that it has read for the entry (`found_faithful`); before one whose failures are fixed, what it
finds is a function of the entry (`found_answered`), **whatever** was in the buffer before.
-/

namespace Dwipe

/-! ### Places -/

/-- What a read of one sector names. -/
inductive Place where
  | chs (a : Chs)
  | lba (n : UInt64)
  deriving DecidableEq

/-- The place a request wants to read, if it is a read of one sector. -/
def RealArea.place (q : RealArea) : Option Place :=
  if q.reg.ah = 0x02 ∧ q.reg.al = 1 then some (.chs q.chs)
  else if q.reg.ah = 0x42 ∧ q.dap.nsectors = 1 then some (.lba q.dap.begin)
  else none

/-- The checks of the request layer stop a read of the place. -/
def Place.Refused (param : DiskParam) : Place → Prop
  | .chs a => chsRefused false param a 1 labelBufferSize
  | .lba n => lbaRefused false param n 1 labelBufferSize

instance (param : DiskParam) : (p : Place) → Decidable (p.Refused param)
  | .chs a => inferInstanceAs (Decidable (chsRefused false param a 1 labelBufferSize))
  | .lba n => inferInstanceAs (Decidable (lbaRefused false param n 1 labelBufferSize))

/-- The place of the partition table: the read of it is a CHS read, whatever the drive has. -/
def Place.table : Place := .chs ⟨0, 0, 1⟩

/-- **A disk with its translation**: the bytes of each sector, and the sector of each triple. -/
structure Medium where
  contents : Contents
  locate : Chs → ℕ
  first : locate ⟨0, 0, 1⟩ = 0

/-- The sector a place stands for on the medium. -/
def Medium.sector (d : Medium) : Place → ℕ
  | .chs a => d.locate a
  | .lba n => n.toNat

@[simp] theorem Medium.sector_table (d : Medium) : d.sector .table = 0 := d.first

/-- The places at which the scan looks for the boot sector of an entry, in order. -/
def MbrEntry.places (e : MbrEntry) : List Place :=
  if e.type = 0x0B then [.chs e.chsBegin]
  else if e.type = 0x0C ∨ e.type = 0x0E then [.lba e.lbaBegin.toUInt64]
  else if e.type = 0xEF then [.chs e.chsBegin, .lba e.lbaBegin.toUInt64]
  else []

/-! ### Faithful answers -/

variable {σ : Type}

/-- **The BIOS answers reads faithfully**, in the states where the disk is `d`: a read of one sector
fails, or delivers the sector. These states are closed under reading. -/
structure Faithful (env : Env σ) (param : DiskParam) (d : Medium) (I : σ → Prop) : Prop where
  keeps : ∀ b q, I b → q.reg.ah = 0x02 ∨ q.reg.ah = 0x42 → I (env.int13 b q).bios
  answers : ∀ b q p, I b → AimsAtBuffer env q → q.reg.dl = param.diskId → q.place = some p →
    (env.int13 b q).carry = true ∨ Delivers param d.contents q (d.sector p) (env.int13 b q)

/-- **The answer to a read depends on the request and the disk alone**: the places with a status
fail, with that status, and the others are delivered. -/
structure Answers (env : Env σ) (param : DiskParam) (d : Medium) (status : Place → Option UInt8)
    (I : σ → Prop) : Prop where
  keeps : ∀ b q, I b → q.reg.ah = 0x02 ∨ q.reg.ah = 0x42 → I (env.int13 b q).bios
  fails : ∀ b q p ah, I b → AimsAtBuffer env q → q.reg.dl = param.diskId →
    q.place = some p → status p = some ah →
    (env.int13 b q).carry = true ∧ (env.int13 b q).area.reg.ah = ah
  delivers : ∀ b q p, I b → AimsAtBuffer env q → q.reg.dl = param.diskId →
    q.place = some p → status p = none → Delivers param d.contents q (d.sector p) (env.int13 b q)

theorem Answers.faithful {env : Env σ} {param : DiskParam} {d : Medium}
    {status : Place → Option UInt8} {I : σ → Prop} (h : Answers env param d status I) :
    Faithful env param d I := by
  refine ⟨h.keeps, fun b q p hI haim hdl hp ↦ ?_⟩
  cases hs : status p with
  | none => exact Or.inr (h.delivers b q p hI haim hdl hp hs)
  | some ah => exact Or.inl (h.fails b q p ah hI haim hdl hp hs).1

/-! ### One read -/

/-- The read of a place, as the scan makes it. -/
def readPlace (env : Env σ) (param : DiskParam) (p : Place) (buffer : Buffer) : Prog σ Xfer :=
  match p with
  | .chs a => readSectorsChs env param a 1 buffer labelBufferSize
  | .lba n => readSectorsLba env param n 1 buffer labelBufferSize

section reads

variable {env : Env σ} {param : DiskParam} {d : Medium} {status : Place → Option UInt8}
  {I : σ → Prop} {p : Place} {buffer : Buffer} {m : Machine σ}

theorem readPlace_of_refused (h : p.Refused param) :
    readPlace env param p buffer m =
      ⟨⟨-1, buffer, labelBufferSize⟩, m, [.transfer labelBufferSize buffer.len]⟩ := by
  cases p with
  | chs a => exact sectorChsRw_of_refused h m
  | lba n => exact sectorsLbaRw_of_refused h m

/-- **A read that reaches the BIOS**: the one exchange `x` names the place; if it fails, the read
returns its status and leaves the size as it was, and if it delivers a sector, the read comes back
with it. -/
structure AsksFor (env : Env σ) (param : DiskParam) (p : Place) (m : Machine σ) (x : Exchange)
    (t : Traced (Machine σ) Event Xfer) : Prop where
  carry : x.carry = (env.int13 m.bios x.req).carry
  res : x.res = (env.int13 m.bios x.req).area
  aims : AimsAtBuffer env x.req
  drive : x.req.reg.dl = param.diskId
  place : x.req.place = some p
  function : x.req.reg.ah = 0x02 ∨ x.req.reg.ah = 0x42
  bios : t.state.bios = (env.int13 m.bios x.req).bios
  events : exchanges t.events = [x]
  failed : x.carry = true → t.val.ret = x.res.reg.ah.toNat ∧ t.val.size = labelBufferSize
  delivered : ∀ {contents : Contents} {s : ℕ},
    Delivers param contents x.req s (env.int13 m.bios x.req) → Taken param contents s t.val

theorem readPlace_asks (h : ¬p.Refused param) :
    ∃ x, AsksFor env param p m x (readPlace env param p buffer m) := by
  cases p with
  | chs a =>
    obtain ⟨q, hq⟩ : ∃ q, q = chsAsk env false param a 1 buffer labelBufferSize m.area := ⟨_, rfl⟩
    have hvalid : varifyChs a = 0 := varifyChs_nonneg_iff.1 fun hv ↦ h (Or.inl hv)
    have hah : q.reg.ah = 0x02 := by rw [hq]; rfl
    have hal : q.reg.al = 1 := by rw [hq]; rfl
    -- a triple that passes the checks is read back from the registers it is packed into
    have hchs : q.chs = a := by
      rw [hq]
      simp only [RealArea.chs, chsAsk, chsRequest_cx, chsRequest_dh]
      exact unpack_pack hvalid
    have hrun := readSectorsChs_of_not_refused h m (congrArg (exchangeAt env m) hq)
    have haim : AimsAtBuffer env q := by rw [hq]; exact aimsAtBuffer_chsAsk _
    refine ⟨exchangeAt env m q, rfl, rfl, haim, by rw [hq]; rfl, ?_, Or.inl hah, ?_, ?_,
      fun hc ↦ ?_, fun hd ↦ readSectorsChs_delivered h hq hd⟩
    · show q.place = _
      rw [RealArea.place, if_pos ⟨hah, hal⟩, hchs]
    · rw [readPlace, hrun]
      rfl
    · rw [readPlace, hrun]
      split_ifs <;> rfl
    · rw [readPlace, hrun, chsReadResult, if_pos hc]
      exact ⟨rfl, rfl⟩
  | lba n =>
    obtain ⟨q, hq⟩ : ∃ q, q = lbaAsk env false param n 1 buffer labelBufferSize false m.area :=
      ⟨_, rfl⟩
    have hah : q.reg.ah = 0x42 := by rw [hq]; rfl
    have hrun := readSectorsLba_of_not_refused h m (congrArg (exchangeAt env m) hq)
    have haim : AimsAtBuffer env q := by rw [hq]; exact aimsAtBuffer_lbaAsk _
    refine ⟨exchangeAt env m q, rfl, rfl, haim, by rw [hq]; rfl, by rw [hq]; rfl, Or.inr hah,
      ?_, ?_, fun hc ↦ ?_, fun hd ↦ readSectorsLba_delivered h hq hd⟩
    · rw [readPlace, hrun]
      rfl
    · rw [readPlace, hrun]
      split_ifs <;> rfl
    · rw [readPlace, hrun, lbaReadResult, if_pos hc]
      exact ⟨rfl, rfl⟩

theorem readPlace_keeps (hF : Faithful env param d I) (p : Place) (buffer : Buffer)
    (hI : I m.bios) : I (readPlace env param p buffer m).state.bios := by
  by_cases href : p.Refused param
  · rw [readPlace_of_refused href]
    exact hI
  · obtain ⟨x, hx⟩ : ∃ x, AsksFor env param p m x (readPlace env param p buffer m) :=
      readPlace_asks href
    rw [hx.bios]
    exact hF.keeps _ _ hI hx.function

/-- **A read that comes back with 512 bytes** was answered, and they are the sector of the place. -/
theorem readPlace_got (hF : Faithful env param d I) (hI : I m.bios)
    (hret : (readPlace env param p buffer m).val.ret = 0)
    (hsize : (readPlace env param p buffer m).val.size = 512) :
    sectorSize param = 512 ∧ ¬p.Refused param ∧
      Got d.contents (d.sector p) (readPlace env param p buffer m).val ∧
      ∃ x, exchanges (readPlace env param p buffer m).events = [x] ∧ x.carry = false ∧
        x.req.place = some p := by
  have href : ¬p.Refused param := by
    intro href
    rw [readPlace_of_refused href] at hret
    exact Int.negSucc_ne_zero 0 hret
  obtain ⟨x, hx⟩ : ∃ x, AsksFor env param p m x (readPlace env param p buffer m) :=
    readPlace_asks href
  have hc : x.carry ≠ true := by
    intro hc
    rw [(hx.failed hc).2] at hsize
    exact absurd hsize (by decide)
  rcases hF.answers _ _ p hI hx.aims hx.drive hx.place with hfail | hd
  · exact absurd (hx.carry.trans hfail) hc
  · have htaken := hx.delivered hd
    have h512 : sectorSize param = 512 := htaken.size.symm.trans hsize
    exact ⟨h512, href, htaken.got h512, x, hx.events, by simpa using hc, hx.place⟩

/-- A read that found the label has read it in the sector of the place. -/
theorem found_place (hF : Faithful env param d I) {skip : CString} (hI : I m.bios)
    (h : Found skip (some (readPlace env param p buffer m).val)) :
    ¬p.Refused param ∧ carriesLabel skip (d.contents (d.sector p)) ∧
      ∃ x ∈ exchanges (readPlace env param p buffer m).events,
        x.carry = false ∧ x.req.place = some p := by
  obtain ⟨-, href, hgot, x, hx, hc, hplace⟩ := readPlace_got hF hI h.1 h.2.1
  refine ⟨href, ?_, x, by simp [hx], hc, hplace⟩
  rw [← carriesLabel_congr hgot.bytes (by decide)]
  exact h.2.2

/-! ### One entry -/

/-- The reads for an entry, by the places it names. -/
theorem readEntry_cases (env : Env σ) (param : DiskParam) (e : MbrEntry) (buffer : Buffer) :
    e.places = [] ∧ readEntry env param e buffer = pure none ∨
    (∃ p, e.places = [p] ∧
      readEntry env param e buffer = do return some (← readPlace env param p buffer)) ∨
    ∃ p p', e.places = [p, p'] ∧ readEntry env param e buffer = do
      let x ← readPlace env param p buffer
      if x.ret ≠ 0 then
        return some (← readPlace env param p' x.buffer)
      else
        return some x := by
  rw [MbrEntry.places, readEntry]
  split_ifs
  · exact Or.inr (Or.inl ⟨_, rfl, rfl⟩)
  · exact Or.inr (Or.inl ⟨_, rfl, rfl⟩)
  · exact Or.inr (Or.inr ⟨_, _, rfl, rfl⟩)
  · exact Or.inl ⟨rfl, rfl⟩

theorem readEntry_keeps (hF : Faithful env param d I) (e : MbrEntry) (buffer : Buffer)
    (hI : I m.bios) : I (readEntry env param e buffer m).state.bios := by
  rcases readEntry_cases env param e buffer with ⟨-, hrun⟩ | ⟨p, -, hrun⟩ | ⟨p, p', -, hrun⟩
  · rw [hrun]
    exact hI
  · rw [hrun]
    exact readPlace_keeps hF p buffer hI
  · have hfirst := readPlace_keeps hF p buffer hI
    rw [hrun]
    simp only [TraceM.state_bind, TraceM.run_ite]
    split_ifs
    · exact readPlace_keeps hF p' _ hfirst
    · exact hfirst

/-- **The label is found only in a sector that was read for the entry.** -/
theorem found_faithful (hF : Faithful env param d I) {skip : CString} {e : MbrEntry}
    (hI : I m.bios) (h : Found skip (readEntry env param e buffer m).val) :
    ∃ p ∈ e.places, ¬p.Refused param ∧ carriesLabel skip (d.contents (d.sector p)) ∧
      ∃ x ∈ exchanges (readEntry env param e buffer m).events,
        x.carry = false ∧ x.req.place = some p := by
  rcases readEntry_cases env param e buffer with
    ⟨-, hrun⟩ | ⟨p, hplaces, hrun⟩ | ⟨p, p', hplaces, hrun⟩
  · rw [hrun] at h
    exact h.elim
  · rw [hrun] at h ⊢
    obtain ⟨href, hlabel, x, hx, hread⟩ := found_place hF hI h
    exact ⟨p, by simp [hplaces], href, hlabel, x, by simpa using hx, hread⟩
  · by_cases hret : (readPlace env param p buffer m).val.ret ≠ 0
    · have hfirst := readPlace_keeps hF p buffer hI
      simp only [hrun, TraceM.val_bind, TraceM.run_ite, if_pos hret] at h
      obtain ⟨href, hlabel, x, hx, hread⟩ := found_place hF hfirst h
      refine ⟨p', by simp [hplaces], href, hlabel, x, ?_, hread⟩
      simp only [hrun, TraceM.events_bind, TraceM.run_ite, if_pos hret]
      simp [hx]
    · simp only [hrun, TraceM.val_bind, TraceM.run_ite, if_neg hret] at h
      obtain ⟨href, hlabel, x, hx, hread⟩ := found_place hF hI h
      refine ⟨p, by simp [hplaces], href, hlabel, x, ?_, hread⟩
      simp only [hrun, TraceM.events_bind, TraceM.run_ite, if_neg hret]
      simp [hx]

/-! ### Fixed failures -/

/-- What a read of the place returns where it fails; `none` where it succeeds. -/
def failure (param : DiskParam) (status : Place → Option UInt8) (p : Place) : Option ℤ :=
  if p.Refused param then some (-1) else (status p).map fun ah ↦ (ah.toNat : ℤ)

/-- **The place an entry's boot sector is taken from.** A failure with status 0 is not told from a
success until the size is looked at, and keeps the scan from trying the next place. -/
def takenFrom (param : DiskParam) (status : Place → Option UInt8) : List Place → Option Place
  | [] => none
  | p :: ps =>
    match failure param status p with
    | none => some p
    | some ret => if ret = 0 then none else takenFrom param status ps

/-- The entry leads the scan to a sector with the label. -/
def TakesLabel (skip : CString) (param : DiskParam) (d : Medium) (status : Place → Option UInt8)
    (e : MbrEntry) : Prop :=
  sectorSize param = 512 ∧
    ∃ p, takenFrom param status e.places = some p ∧ carriesLabel skip (d.contents (d.sector p))

theorem readPlace_of_failure (hA : Answers env param d status I) (buffer : Buffer) (hI : I m.bios)
    {ret : ℤ} (h : failure param status p = some ret) :
    (readPlace env param p buffer m).val.ret = ret ∧
      (readPlace env param p buffer m).val.size = labelBufferSize := by
  by_cases href : p.Refused param
  · rw [failure, if_pos href] at h
    rw [readPlace_of_refused href]
    exact ⟨Option.some.inj h, rfl⟩
  · rw [failure, if_neg href] at h
    obtain ⟨ah, hah, rfl⟩ := Option.map_eq_some_iff.1 h
    obtain ⟨x, hx⟩ : ∃ x, AsksFor env param p m x (readPlace env param p buffer m) :=
      readPlace_asks href
    obtain ⟨hc, hres⟩ := hA.fails _ _ p ah hI hx.aims hx.drive hx.place hah
    obtain ⟨hret, hsize⟩ := hx.failed (hx.carry.trans hc)
    exact ⟨by rw [hret, hx.res, hres], hsize⟩

theorem readPlace_of_success (hA : Answers env param d status I) (buffer : Buffer) (hI : I m.bios)
    (h : failure param status p = none) :
    Taken param d.contents (d.sector p) (readPlace env param p buffer m).val := by
  have href : ¬p.Refused param := fun href ↦ by simp [failure, href] at h
  rw [failure, if_neg href, Option.map_eq_none_iff] at h
  obtain ⟨x, hx⟩ : ∃ x, AsksFor env param p m x (readPlace env param p buffer m) :=
    readPlace_asks href
  exact hx.delivered (hA.delivers _ _ p hI hx.aims hx.drive hx.place h)

/-- **What one read finds**, where the failures are fixed. -/
theorem found_readPlace (hA : Answers env param d status I) (skip : CString) (p : Place)
    (buffer : Buffer) (hI : I m.bios) :
    Found skip (some (readPlace env param p buffer m).val) ↔ sectorSize param = 512 ∧
      failure param status p = none ∧ carriesLabel skip (d.contents (d.sector p)) := by
  cases hf : failure param status p with
  | none =>
    have htaken := readPlace_of_success hA buffer hI hf
    by_cases h512 : sectorSize param = 512
    · have hbytes := (htaken.got h512).bytes
      simp [Found, htaken.ret, htaken.size, h512, carriesLabel_congr hbytes (by decide)]
    · simp [Found, htaken.size, h512]
  | some ret =>
    have hsize := (readPlace_of_failure hA buffer hI hf).2
    have hne : labelBufferSize ≠ 512 := by decide
    simp [Found, hsize, hne]

/-- **What one round finds is decided by its entry**, where the failures are fixed: neither the
buffer nor the machine has a say in it. -/
theorem found_answered (hA : Answers env param d status I) (skip : CString) (e : MbrEntry)
    (buffer : Buffer) (hI : I m.bios) :
    Found skip (readEntry env param e buffer m).val ↔ TakesLabel skip param d status e := by
  rcases readEntry_cases env param e buffer with
    ⟨hplaces, hrun⟩ | ⟨p, hplaces, hrun⟩ | ⟨p, p', hplaces, hrun⟩
  · rw [hrun, TakesLabel, hplaces]
    simp [Found, takenFrom]
  · rw [hrun, TakesLabel, hplaces]
    refine (found_readPlace hA skip p buffer hI).trans ?_
    cases hf : failure param status p <;> simp [takenFrom, hf]
  · rw [hrun, TakesLabel, hplaces]
    simp only [TraceM.val_bind, TraceM.run_ite]
    cases hf : failure param status p with
    | none =>
      have hret := (readPlace_of_success hA buffer hI hf).ret
      rw [if_neg (not_not.2 hret)]
      refine (found_readPlace hA skip p buffer hI).trans ?_
      simp [takenFrom, hf]
    | some ret =>
      have hret := (readPlace_of_failure hA buffer hI hf).1
      by_cases hzero : ret = 0
      · -- the failure passes for a success, and its size gives it away
        rw [if_neg (not_not.2 (hret.trans hzero))]
        refine (found_readPlace hA skip p buffer hI).trans ?_
        simp [takenFrom, hf, hzero]
      · rw [if_pos (by rwa [hret])]
        refine (found_readPlace hA skip p' _ (readPlace_keeps hA.faithful p buffer hI)).trans ?_
        cases hf' : failure param status p' <;> simp [takenFrom, hf, hzero, hf']

end reads

/-! ### The scan -/

section scan

variable {env : Env σ} {param : DiskParam} {d : Medium} {status : Place → Option UInt8}
  {I : σ → Prop} {m : Machine σ}

theorem tableRead_eq_readPlace (m : Machine σ) : tableRead env param m =
    readPlace env param .table ⟨labelBufferSize.toNat, env.stack m.ticks⟩ (labelMachine m) := rfl

/-- The scan answers 0 or 1, whatever the BIOS does. -/
theorem containFatLabel_zero_or_one (env : Env σ) (opt : Options) (param : DiskParam)
    (str : CString) (m : Machine σ) :
    (containFatLabel env opt param str m).val = 0 ∨
      (containFatLabel env opt param str m).val = 1 := by
  rw [containFatLabel_val]
  split_ifs
  · exact Or.inl rfl
  · obtain ⟨hval, -⟩ | ⟨hval, -⟩ : _ ∨ (scanTable env opt param (tableRead env param m).val.buffer
        (tableRead env param m).state).val = 0 ∧ _ :=
      scanTable_cases opt (I := fun _ ↦ True) (fun _ _ _ _ ↦ trivial) trivial
    · exact Or.inr hval
    · exact Or.inl hval

/-- The reads of the scan after that of the table. -/
def bootReads (l : List Event) : List Exchange := (exchanges l).tail

/-- **A disk is taken for labelled only for the sake of a boot sector that was read.** -/
theorem containFatLabel_faithful (hF : Faithful env param d I) {opt : Options} (str : CString)
    (hI : I m.bios) (h : (containFatLabel env opt param str m).val = 1) :
    sectorSize param = 512 ∧ ¬Place.table.Refused param ∧
    ∃ i < 4, ∃ p ∈ (mbrEntry (d.contents 0) i).places, ¬p.Refused param ∧
      carriesLabel opt.skip (d.contents (d.sector p)) ∧
      ∃ x ∈ bootReads (containFatLabel env opt param str m).events,
        x.carry = false ∧ x.req.place = some p := by
  obtain ⟨t, ht⟩ : ∃ t, t = tableRead env param m := ⟨_, rfl⟩
  rw [containFatLabel_val, ← ht] at h
  rw [containFatLabel_events, ← ht]
  have hmiss : ¬(t.val.ret ≠ 0 ∨ t.val.size ≠ 512) := by
    intro hmiss
    rw [if_pos hmiss] at h
    exact absurd h (by decide)
  rw [if_neg hmiss] at h ⊢
  obtain ⟨hret, hsize⟩ := not_or.1 hmiss
  -- the table has been read, so the entries are those of sector 0
  rw [tableRead_eq_readPlace] at ht
  have hget := readPlace_got (p := .table) (m := labelMachine m) hF hI
    (by rw [← ht]; exact not_not.1 hret) (by rw [← ht]; exact not_not.1 hsize)
  rw [← ht, Medium.sector_table] at hget
  obtain ⟨h512, htable, hgot, y, hy, -, -⟩ := hget
  have hI' : I t.state.bios := by
    rw [ht]
    exact readPlace_keeps (m := labelMachine m) hF _ _ hI
  rcases scanTable_cases opt (fun i b m' hm ↦ readEntry_keeps hF _ b hm) hI' with
    ⟨-, i, hi, b, m', hm, hfound, hsub⟩ | ⟨hval, -⟩
  · obtain ⟨p, hp, href, hlabel, x, hx, hc, hplace⟩ := found_faithful hF hm hfound
    rw [mbrEntry_congr hgot.bytes hi] at hp
    refine ⟨h512, htable, i, hi, p, hp, href, hlabel, x, ?_, hc, hplace⟩
    rw [bootReads, exchanges_append, hy]
    exact mem_exchanges.2 (hsub (mem_exchanges.1 hx))
  · rw [hval] at h
    exact absurd h (by decide)

/-- What the scan answers once it has the table, where the failures are fixed from then on. -/
theorem containFatLabel_after_table (hA : Answers env param d status I) {opt : Options}
    (str : CString) (hgot : Got d.contents 0 (tableRead env param m).val)
    (hI : I (tableRead env param m).state.bios) :
    (containFatLabel env opt param str m).val = 1 ↔
      ∃ i < 4, TakesLabel opt.skip param d status (mbrEntry (d.contents 0) i) := by
  rw [containFatLabel_val, if_neg (by simp [hgot.ret, hgot.size])]
  refine scanTable_eq_one_iff opt (fun i b m' hm ↦ readEntry_keeps hA.faithful _ b hm)
    (fun i hi b m' hm ↦ ?_) hI
  rw [mbrEntry_congr hgot.bytes hi]
  exact found_answered hA opt.skip _ b hm

/-- **What the scan answers**, where the failures are fixed. -/
theorem containFatLabel_answered (hA : Answers env param d status I) {opt : Options}
    (str : CString) (hI : I m.bios) :
    (containFatLabel env opt param str m).val = 1 ↔ failure param status .table = none ∧
      ∃ i < 4, TakesLabel opt.skip param d status (mbrEntry (d.contents 0) i) := by
  cases hf : failure param status .table with
  | some ret =>
    have hsize : (tableRead env param m).val.size = labelBufferSize :=
      (readPlace_of_failure (m := labelMachine m) hA _ hI hf).2
    have hne : labelBufferSize ≠ 512 := by decide
    rw [containFatLabel_val, if_pos (Or.inr (by rwa [hsize]))]
    simp
  | none =>
    have htaken : Taken param d.contents 0 (tableRead env param m).val :=
      d.sector_table ▸ readPlace_of_success (m := labelMachine m) hA _ hI hf
    have hI' : I (tableRead env param m).state.bios :=
      readPlace_keeps (m := labelMachine m) hA.faithful .table _ hI
    by_cases h512 : sectorSize param = 512
    · rw [containFatLabel_after_table hA str (htaken.got h512) hI']
      simp
    · rw [containFatLabel_val, if_pos (Or.inr (by rwa [htaken.size]))]
      simp [TakesLabel, h512]

end scan

end Dwipe

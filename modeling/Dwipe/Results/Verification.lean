import Dwipe.Disk.Sizes
import Dwipe.Wipe.Runs
import Dwipe.Wipe.Walk

/-!
# Checked writes

Two questions about `check`. Does a checked CHS write that returns 0 mean that the sectors were
written and verified? And is every write of a run that asks for checks a checked one?

The first one fails where `sector_chs_rw` turns a failed check into the status byte of an exchange
that was **not** a failure, or had no status: a write that falls short is refused its verification,
and what is returned is the `AH` of the write, which was 0 (`checked_write_iff`).

The second one fails in one place. The passes of `wipe_sectors_lba` are checked when `opt.check` is
set or the mode is the paranoid one, and the MBR write when `opt.check` is set (`verified_run_iff`).
-/

namespace Dwipe

variable {σ : Type} {env : Env σ} {param : DiskParam} {a : Chs} {n size : UInt32}
  {buffer : Buffer} {m : Machine σ}

/-! ### A checked write -/

/-- The two exchanges `x` and `y` have to do with the same sectors of the same drive. -/
structure SameSectors (x y : Exchange) : Prop where
  cx : y.req.reg.cx = x.req.reg.cx
  dh : y.req.reg.dh = x.req.reg.dh
  dl : y.req.reg.dl = x.req.reg.dl
  al : y.req.reg.al = x.req.reg.al

/-- **The write was checked**: the BIOS was asked to write `n` sectors and reported all of them, and
then it was asked to verify the same sectors and did. -/
def ReallyChecked (n : UInt32) (l : List Event) : Prop :=
  ∃ x y, exchanges l = [x, y] ∧
    x.req.reg.ah = 0x03 ∧ x.carry = false ∧ n.toNat ≤ x.res.reg.al.toNat ∧
    y.req.reg.ah = 0x04 ∧ y.carry = false ∧ y.req.reg.al.toNat = n.toNat ∧ SameSectors x y

/-- The write of a CHS write, the first of its two exchanges. -/
def writeExchange (env : Env σ) (param : DiskParam) (a : Chs) (n : UInt32) (buffer : Buffer)
    (size : UInt32) (m : Machine σ) : Exchange :=
  exchangeAt env m (chsAsk env true param a n buffer size m.area)

/-- The verification that would follow the write `x`. -/
def verifyExchange (env : Env σ) (param : DiskParam) (a : Chs) (n : UInt32) (m : Machine σ)
    (x : Exchange) : Exchange :=
  exchangeAt env (m.ask env x.req) (chsRequest env param a n 0x04 x.res)

/-- It is about the sectors that were written: the registers that name them are the same. -/
theorem sameSectors_verify {x : Exchange} (hx : x = writeExchange env param a n buffer size m) :
    SameSectors x (verifyExchange env param a n m x) := by
  subst hx
  refine ⟨?_, rfl, rfl, rfl⟩
  simp only [verifyExchange, writeExchange, exchangeAt, chsAsk, chsRequest_cx]

/-- The answers of the BIOS leave no doubt: a write that failed or fell short has a status, so has a
verification that failed, and a write without a status has reported every sector. -/
def Told (param : DiskParam) (n : UInt32) (x y : Exchange) : Prop :=
  if x.carry ∨ (x.res.reg.al.toNat < n.toNat ∧ sectorSize param ≠ 0) then x.res.reg.ah ≠ 0
  else if y.carry then y.res.reg.ah ≠ 0
  else n.toNat ≤ x.res.reg.al.toNat

theorem status_eq_zero_iff {x : Exchange} {check : Bool}
    (h : x.carry = true ∨ (check = true ∧ x.req.reg.ah = 0x03)) :
    x.status check = 0 ↔ x.res.reg.ah = 0 := by
  have hif : (x.carry = true ∨ check = true ∧ x.req.reg.ah = 0x03) := h
  rw [Exchange.status, if_pos hif, Nat.cast_eq_zero, ← UInt8.toNat_inj]
  rfl

/-- **When a checked CHS write that returns 0 was really checked**: when its parameters are refused,
or when the answers of the BIOS leave no doubt. -/
theorem checked_write_iff (env : Env σ) (param : DiskParam) (a : Chs) (n : UInt32)
    (buffer : Buffer) (size : UInt32) (m : Machine σ) :
    ((writeSectorsChs env param a n buffer size true m).val.ret = 0 →
        ReallyChecked n (writeSectorsChs env param a n buffer size true m).events) ↔
      chsRefused true param a n size ∨
        Told param n (writeExchange env param a n buffer size m)
          (verifyExchange env param a n m (writeExchange env param a n buffer size m)) := by
  by_cases href : chsRefused true param a n size
  · rw [writeSectorsChs, sectorChsRw_of_refused href]
    simp [href]
  obtain ⟨hn, -⟩ := chs_bounds href
  obtain ⟨x, hx⟩ : ∃ x, x = writeExchange env param a n buffer size m := ⟨_, rfl⟩
  obtain ⟨y, hy⟩ : ∃ y, y = verifyExchange env param a n m x := ⟨_, rfl⟩
  have hxah : x.req.reg.ah = 0x03 := by rw [hx]; rfl
  have hyah : y.req.reg.ah = 0x04 := by rw [hy]; rfl
  have hsame : SameSectors x y := by
    rw [hy]
    exact sameSectors_verify hx
  rw [or_iff_right href, ← hx, ← hy, Told]
  by_cases hv : x.carry = true ∨ (x.res.reg.al.toNat < n.toNat ∧ sectorSize param ≠ 0)
  · -- the write was the last exchange, so the status returned is its own
    have hlast := hv.imp_right (short_iff hn x).2
    rw [if_pos hv, writeSectorsChs_of_unverified href m hx (Or.inr hlast)]
    have hone : ¬ReallyChecked n [.transfer size buffer.len, .copy size.toNat, .int13 x] := by
      rintro ⟨x', y', h, -⟩
      simp at h
    simp only [hone, imp_false]
    exact not_congr (status_eq_zero_iff (Or.inr ⟨rfl, hxah⟩))
  · rw [if_neg hv]
    rw [not_or, Bool.not_eq_true, ← short_iff hn] at hv
    rw [writeSectorsChs_of_verified href m hx hv.1 hv.2 hy]
    have hchecked : ReallyChecked n [.transfer size buffer.len, .copy size.toNat, .int13 x,
        .int13 y] ↔ n.toNat ≤ x.res.reg.al.toNat ∧ y.carry = false := by
      constructor
      · rintro ⟨x', y', h, -, -, hal, -, hc, -⟩
        obtain ⟨rfl, rfl⟩ : x = x' ∧ y = y' := by simpa using h
        exact ⟨hal, hc⟩
      · rintro ⟨hal, hc⟩
        exact ⟨x, y, rfl, hxah, hv.1, hal, hyah, hc, by rw [hy]; exact toUInt8_toNat hn, hsame⟩
    rw [hchecked]
    cases hc : y.carry with
    | true =>
      simp only [Bool.true_eq_false, and_false, imp_false]
      exact not_congr (status_eq_zero_iff (Or.inl hc))
    | false =>
      have hstatus : y.status true = 0 := by simp [Exchange.status, hc, hyah]
      simp [hstatus]

/-- The BIOS that reports one sector less than it is asked to write, and no failure. -/
def stopping : Env Unit :=
  Env.ofBios (fun _ q ↦ ⟨false, { q.withStatus 0 with
    reg := { (q.withStatus 0).reg with al := q.reg.al - 1 } }, ()⟩) fun _ ↦ 0

/-- A checked write of two sectors of which one was written: it returns 0, and nothing was
verified. -/
theorem stopping_write :
    ¬((writeSectorsChs stopping (DiskParam.ofGeometry 0 0 63) ⟨0, 0, 1⟩ 2 ⟨1024, fun _ ↦ 0⟩ 1024
        true (Machine.fresh () 1)).val.ret = 0 →
      ReallyChecked 2 (writeSectorsChs stopping (DiskParam.ofGeometry 0 0 63) ⟨0, 0, 1⟩ 2
        ⟨1024, fun _ ↦ 0⟩ 1024 true (Machine.fresh () 1)).events) := by
  intro h
  have hacc : ¬chsRefused true (DiskParam.ofGeometry 0 0 63) ⟨0, 0, 1⟩ 2 1024 := by decide
  have hshort : (writeExchange stopping (DiskParam.ofGeometry 0 0 63) ⟨0, 0, 1⟩ 2
      ⟨1024, fun _ ↦ 0⟩ 1024 (Machine.fresh () 1)).short (DiskParam.ofGeometry 0 0 63) 2 := by
    rw [short_iff (by decide)]
    decide
  rw [writeSectorsChs_of_unverified hacc _ rfl (Or.inr (Or.inr hshort))] at h
  obtain ⟨x, y, hxy, -⟩ := h rfl
  simp at hxy

/-! ### Every write of a run -/

/-- Before any other write, the sectors of `x` are verified. -/
def VerifiedIn (x : Exchange) (l : List Exchange) : Prop :=
  ∃ l₁ y l₂, l = l₁ ++ y :: l₂ ∧ (∀ z ∈ l₁, ¬z.IsWrite) ∧ y.req.reg.ah = 0x04 ∧ SameSectors x y

/-- **Every write is a verified one**: an extended write asks for it in `AL`, and a CHS write is
followed by the verification of its sectors. -/
def AllVerified : List Exchange → Prop
  | [] => True
  | x :: l =>
    (x.req.reg.ah = 0x43 → x.req.reg.al ≠ 0) ∧ (x.req.reg.ah = 0x03 → VerifiedIn x l) ∧
      AllVerified l

theorem VerifiedIn.append {x : Exchange} {l : List Exchange} (h : VerifiedIn x l)
    (l' : List Exchange) : VerifiedIn x (l ++ l') := by
  obtain ⟨l₁, y, l₂, rfl, hrest⟩ := h
  exact ⟨l₁, y, l₂ ++ l', by simp, hrest⟩

theorem AllVerified.append {l l' : List Exchange} (h : AllVerified l) (h' : AllVerified l') :
    AllVerified (l ++ l') := by
  induction l with
  | nil => exact h'
  | cons x l ih =>
    obtain ⟨hlba, hchs, hrest⟩ := h
    exact ⟨hlba, fun hah ↦ (hchs hah).append l', ih hrest⟩

/-- Requests that write nothing are no matter, wherever they stand between a write and its
verification. -/
theorem allVerified_of_no_write {l : List Exchange} (h : ∀ x ∈ l, ¬x.IsWrite) :
    AllVerified l := by
  induction l with
  | nil => exact trivial
  | cons x l ih =>
    have hx := h x List.mem_cons_self
    refine ⟨fun hah ↦ absurd (Or.inr hah) hx, fun hah ↦ absurd (Or.inl hah) hx, ?_⟩
    exact ih fun y hy ↦ h y (List.mem_cons_of_mem _ hy)

/-- A CHS write that ends the trace is not verified. -/
theorem not_allVerified_concat {x : Exchange} (hx : x.req.reg.ah = 0x03) (l : List Exchange) :
    ¬AllVerified (l ++ [x]) := by
  induction l with
  | nil =>
    rintro ⟨-, hchs, -⟩
    obtain ⟨l₁, y, l₂, h, -⟩ := hchs hx
    simp at h
  | cons z l ih => exact fun h ↦ ih h.2.2

/-- **A BIOS that accepts and fully transfers every request**: no failure, and the count of the
request in `AL` or in the packet. -/
structure Transfers (env : Env σ) : Prop where
  carry : ∀ b q, (env.int13 b q).carry = false
  al : ∀ b q, q.reg.ah = 0x02 ∨ q.reg.ah = 0x03 → (env.int13 b q).area.reg.al = q.reg.al
  dap : ∀ b q, q.reg.ah = 0x42 ∨ q.reg.ah = 0x43 →
    (env.int13 b q).area.dap.nsectors = q.dap.nsectors

theorem transfers_obliging (heap : ℕ → UInt8) : Transfers (obliging heap) :=
  ⟨fun _ _ ↦ rfl, fun _ _ _ ↦ rfl, fun _ _ _ ↦ rfl⟩

/-- The writes of a trace are verified ones, each by the exchange that follows it. -/
def TraceVerified (l : List Event) : Prop := AllVerified (exchanges l)

theorem traceVerified_framed : Framed TraceVerified where
  nil := trivial
  append h h' := by
    rw [TraceVerified, exchanges_append]
    exact h.append h'
  incidental e he := by
    cases e with
    | returned | store | divide | account | progress => exact trivial
    | int13 | transfer | copy => exact he.elim

/-! #### The transfers -/

theorem readSectorsChs_verified :
    TraceM.Records TraceVerified (fun _ ↦ True) (readSectorsChs env param a n buffer size) := by
  refine fun m ↦ ⟨allVerified_of_no_write fun x hx ↦ ?_, trivial⟩
  obtain ⟨-, rfl⟩ := eq_of_mem_readSectorsChs hx
  simp [Exchange.IsWrite, exchangeAt, chsAsk]

theorem readSectorsLba_verified {offset : UInt64} :
    TraceM.Records TraceVerified (fun _ ↦ True)
      (readSectorsLba env param offset n buffer size) := by
  refine fun m ↦ ⟨allVerified_of_no_write fun x hx ↦ ?_, trivial⟩
  obtain ⟨-, rfl⟩ := eq_of_mem_readSectorsLba hx
  simp [Exchange.IsWrite, exchangeAt, lbaAsk]

theorem writeSectorsLba_verified {offset : UInt64} :
    TraceM.Records TraceVerified (fun _ ↦ True)
      (writeSectorsLba env param offset n buffer size true) := by
  refine fun m ↦ ⟨?_, trivial⟩
  by_cases h : lbaRefused true param offset n size
  · rw [writeSectorsLba, sectorsLbaRw_of_refused h]
    exact trivial
  · rw [writeSectorsLba_of_not_refused h m rfl]
    simp [TraceVerified, AllVerified, exchangeAt, lbaAsk]

/-- A checked CHS write on a BIOS that transfers everything is followed by its verification. -/
theorem writeSectorsChs_verified (henv : Transfers env) :
    TraceM.Records TraceVerified (fun _ ↦ True)
      (writeSectorsChs env param a n buffer size true) := by
  refine fun m ↦ ⟨?_, trivial⟩
  by_cases h : chsRefused true param a n size
  · rw [writeSectorsChs, sectorChsRw_of_refused h]
    exact trivial
  obtain ⟨hn, -⟩ := chs_bounds h
  obtain ⟨x, hx⟩ : ∃ x, x = writeExchange env param a n buffer size m := ⟨_, rfl⟩
  have hc : x.carry = false := by rw [hx]; exact henv.carry _ _
  have hal : x.res.reg.al = n.toUInt8 := by rw [hx]; exact henv.al _ _ (Or.inr rfl)
  have hfull : ¬x.short param n := by
    rw [short_iff hn, hal, toUInt8_toNat hn]
    omega
  rw [writeSectorsChs_of_verified h m hx hc hfull rfl]
  have hxah : x.req.reg.ah = 0x03 := by rw [hx]; rfl
  refine ⟨fun hah ↦ ?_, fun _ ↦ ⟨[], _, [], rfl, by simp, rfl, sameSectors_verify hx⟩, ?_⟩
  · rw [hxah] at hah
    exact absurd hah (by decide)
  · show AllVerified [verifyExchange env param a n m x]
    exact allVerified_of_no_write (by simp [Exchange.IsWrite, verifyExchange, exchangeAt])

/-! #### The run -/

/-- **Verification is never forgotten** in a run of `wipe_disk` on a BIOS that accepts and fully
transfers every request. -/
def NeverForgotten (opt : Options) (param : DiskParam) : Prop :=
  ∀ (σ : Type) (env : Env σ) m, Transfers env →
    AllVerified (exchanges (wipeDisk env opt param m).events)

/-- The calls of `wipe_sectors_lba` are verified. So is the run, if no MBR write is issued without
`opt.check`. -/
theorem wipeDisk_verified {opt : Options} (htest : opt.test = false)
    (hcheck : checked opt = true) (henv : Transfers env)
    (hmbr : isCdrom param = 0 → Due opt param .mbrWrite →
      chsRefused true param ⟨0, 0, 1⟩ 1 mbrBinLen ∨ opt.check = true) :
    TraceM.Records TraceVerified (fun _ ↦ True) (wipeDisk env opt param) := by
  have hread (h : opt.test = true) : False := by rw [htest] at h; exact Bool.false_ne_true h
  refine wipeDisk_records (traceVerified_framed.around _ _)
    (fun _ ↦ ⟨fun _ _ _ ↦ readSectorsChs_verified, fun _ _ _ ↦ readSectorsLba_verified⟩)
    fun hp ↦ ⟨fun offset n _ ↦ ?_, fun hdue b _ ↦ ?_⟩
  · exact ⟨fun _ h ↦ (hread h).elim, fun _ _ _ _ ↦ hcheck ▸ writeSectorsLba_verified,
      fun _ h ↦ (hread h).elim, fun _ _ _ _ _ _ ↦ hcheck ▸ writeSectorsChs_verified henv⟩
  · rcases hmbr hp hdue with href | hcheck
    · refine fun m ↦ ⟨?_, trivial⟩
      rw [writeSectorsChs, sectorChsRw_of_refused href]
      exact trivial
    · exact hcheck ▸ writeSectorsChs_verified henv

/-- A run whose steps are all accepted ends with an MBR write, which is not verified without
`opt.check`. -/
theorem exists_unverified_mbr {opt : Options} (hcheck : opt.check = false)
    (hmbr : opt.mbr ∧ ¬opt.test) (hp : isCdrom param = 0)
    (hacc : ∀ c ∈ plan opt param, ¬refused opt param c) :
    ¬AllVerified (exchanges (wipeDisk (obliging fun _ ↦ 0) opt param
      (Machine.fresh () 1)).events) := by
  have hstart : Starts (obliging fun _ ↦ 0) opt param (Machine.fresh () 1) fun _ ↦ 0 :=
    starts_obliging rfl hp rfl
  have hfirst : ¬chsRefused true param ⟨0, 0, 1⟩ 1 mbrBinLen :=
    hacc .mbrWrite (by simp [plan_of_mbr param hmbr])
  obtain ⟨l₀, m', hrun, -, -⟩ := hstart.split
  have hcases : CameToMbr (obliging fun _ ↦ 0) opt param _ _ _ _ ∨ _ :=
    wipeBuffer_cases _ hp ⟨wipeBufferSize.toNat, fun _ ↦ 0⟩ m'
  rcases hcases with ⟨s, m'', l₁, -, -, hl⟩ | ⟨-, hstop⟩
  · rw [hrun, hl, run_wipeMbr hmbr rfl rfl, hcheck,
      writeSectorsChs_of_unverified hfirst _ rfl (Or.inl rfl)]
    simp only [exchanges_append, exchanges_transfer, exchanges_copy, exchanges_int13,
      exchanges_returned, exchanges_nil, List.append_nil, ← List.append_assoc]
    exact not_allVerified_concat rfl _
  · obtain ⟨c, hc, href⟩ := hstop.exists_refused
    exact absurd href (hacc c hc)

/-- **When verification is never forgotten.** A run that asks for checks forgets the verification of
its MBR write, unless it was `opt.check` that asked; so it forgets none exactly when `opt.check` is
set, there is no MBR to write, the disk is skipped as a CD, or a step of the run is refused. -/
theorem verified_run_iff {opt : Options} (htest : opt.test = false)
    (hasked : opt.check = true ∨ opt.mode = .ocd) (param : DiskParam) :
    NeverForgotten opt param ↔
      opt.check = true ∨ opt.mbr = false ∨ isCdrom param ≠ 0 ∨
        ∃ c ∈ plan opt param, refused opt param c := by
  have hchecked : checked opt = true := by simpa [checked] using hasked
  constructor
  · intro h
    by_contra hcond
    simp only [not_or, Bool.not_eq_true, Bool.not_eq_false, not_not, not_exists, not_and] at hcond
    obtain ⟨hcheck, hmbr, hp, hacc⟩ := hcond
    exact exists_unverified_mbr hcheck ⟨hmbr, by simp [htest]⟩ hp hacc
      (h Unit _ _ (transfers_obliging _))
  · intro hcond σ env m henv
    refine (wipeDisk_verified htest hchecked henv (fun hp hdue ↦ ?_) m).1
    obtain ⟨hmbr, hacc⟩ := due_mbrWrite_iff.1 hdue
    rcases hcond with hcheck | hmbr' | hp' | ⟨c, hc, href⟩
    · exact Or.inr hcheck
    · exact absurd hmbr.1 (by simp [hmbr'])
    · exact absurd hp hp'
    · rw [plan_of_mbr param hmbr, List.mem_append, List.mem_singleton] at hc
      rcases hc with hc | rfl
      · exact absurd href (hacc c hc)
      · exact Or.inl href

/-- The options of a paranoid wipe that writes an MBR. -/
def Options.paranoidMbr : Options := { Options.plain with mbr := true, mode := .ocd }

theorem paranoidMbr_accepted :
    ∀ c ∈ plan Options.paranoidMbr (DiskParam.ofSectors 1),
      ¬refused Options.paranoidMbr (DiskParam.ofSectors 1) c := by
  intro c hc
  rw [plan_of_mbr _ (by decide), List.mem_append, List.mem_singleton] at hc
  rcases hc with hc | rfl
  · exact wipePlan_accepted_ext _ (by decide) (by decide) rfl c hc
  · show ¬chsRefused true (DiskParam.ofSectors 1) ⟨0, 0, 1⟩ 1 mbrBinLen
    decide

/-- A paranoid wipe of a disk of one sector does not verify its MBR. -/
theorem paranoid_mbr_not_verified :
    ¬AllVerified (exchanges (wipeDisk (obliging fun _ ↦ 0) Options.paranoidMbr
      (DiskParam.ofSectors 1) (Machine.fresh () 1)).events) :=
  exists_unverified_mbr rfl (by decide) (by decide) paranoidMbr_accepted

/-- The paranoid mode forgets a verification only where it writes an MBR. -/
theorem paranoid_verified_of_no_mbr :
    NeverForgotten { Options.plain with mode := .ocd } (DiskParam.ofSectors 1) :=
  (verified_run_iff rfl (Or.inr rfl) (DiskParam.ofSectors 1)).2 (Or.inr (Or.inl rfl))

end Dwipe

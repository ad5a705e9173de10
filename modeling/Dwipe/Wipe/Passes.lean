import Dwipe.Disk.Transfers
import Dwipe.Wipe.WipeDisk
import Mathlib.Logic.Function.Iterate
import Mathlib.Tactic.SplitIfs

/-!
# One step of the wipe

What one call of `wipe_sectors_lba` hands to the BIOS. A write request is read off the registers and
the packet of its exchange (`Write`), and the payload is the part of the transfer buffer that the
requested sectors cover. The answers of the BIOS do not enter: a multi-pass loop goes on after a
failed write, so **the write requests of a call are a function of its arguments**, of the buffer and
of the state of `rand` alone.

The answers enter in one place only, the returned value, which is the result of the last exchange
(`Issued.last`).
-/

namespace Dwipe

variable {σ : Type} {env : Env σ} {opt : Options}

/-! ### Write requests -/

/-- The sectors a write request names, by a triple or by a number. -/
inductive Target where
  /-- `AH=03h`: cylinder and sector in `CX`, head in `DH`, count in `AL`. -/
  | chs (cx : UInt16) (dh al : UInt8)
  /-- `AH=43h`: first sector and count in the packet. -/
  | lba (begin : UInt64) (nsectors : UInt16)
  deriving DecidableEq

/-- A write request as the BIOS receives it: which drive, which sectors, how many, and with which
bytes. -/
structure Write where
  site : Site
  diskId : UInt8
  target : Target
  payload : List UInt8
  deriving DecidableEq

/-- The bytes of `n` sectors, from the beginning of the buffer on. -/
def payloadOf (byte : ℕ → UInt8) (n : ℕ) : List UInt8 := (List.range (512 * n)).map byte

theorem payloadOf_congr {f g : ℕ → UInt8} {n : ℕ} (h : ∀ j < 512 * n, f j = g j) :
    payloadOf f n = payloadOf g n :=
  List.map_congr_left fun j hj ↦ h j (List.mem_range.1 hj)

/-- The write request of an exchange, if it is one. -/
def Exchange.write? (x : Exchange) : Option Write :=
  if x.req.reg.ah = 0x03 then
    some ⟨x.site, x.req.reg.dl, .chs x.req.reg.cx x.req.reg.dh x.req.reg.al,
      payloadOf x.req.buffer x.req.reg.al.toNat⟩
  else if x.req.reg.ah = 0x43 then
    some ⟨x.site, x.req.reg.dl, .lba x.req.dap.begin x.req.dap.nsectors,
      payloadOf x.req.buffer x.req.dap.nsectors.toNat⟩
  else none

/-- The write requests of a trace, in order. -/
def writes (l : List Event) : List Write := (exchanges l).filterMap Exchange.write?

@[simp] theorem writes_nil : writes [] = [] := rfl

@[simp] theorem writes_append (l l' : List Event) : writes (l ++ l') = writes l ++ writes l' := by
  simp [writes]

theorem writes_of_exchanges_nil {l : List Event} (h : exchanges l = []) : writes l = [] := by
  rw [writes, h, List.filterMap_nil]

/-- Every write request is the request of an exchange. -/
theorem exchange_of_write {l : List Event} {w : Write} (hw : w ∈ writes l) :
    ∃ x ∈ exchanges l, x.write? = some w ∧ x.site = w.site := by
  obtain ⟨x, hx, hxw⟩ := List.mem_filterMap.1 hw
  refine ⟨x, hx, hxw, ?_⟩
  rw [Exchange.write?] at hxw
  split_ifs at hxw <;> (obtain rfl := Option.some.inj hxw; rfl)

/-- Whether a failed verification counts at the place a request is issued from. -/
def checkedAt (opt : Options) : Site → Bool
  | .mbr => opt.check
  | _ => opt.check || opt.mode = .ocd

/-- What an exchange contributes to the value its call returns. -/
def Exchange.result (opt : Options) (x : Exchange) : ℤ := x.status (checkedAt opt x.site)

/-! ### A single write -/

/-- What is known of a write that was issued: **one write request**, a returned value that is the
status of the last exchange, and nothing else of interest touched. -/
structure Wrote (m : Machine σ) (check : Bool) (buffer : Buffer) (w : Write)
    (t : Traced (Machine σ) Event Xfer) : Prop where
  writes : writes t.events = [w]
  returns : returns t.events = []
  last : ∃ z, (exchanges t.events).getLast? = some z ∧ z.site = m.site ∧
    t.val.ret = z.status check
  buffer : t.val.buffer = buffer
  randNext : t.state.randNext = m.randNext

theorem payloadOf_memcpy (dst src : ℕ → UInt8) {n size : ℕ} (h : 512 * n ≤ size) :
    payloadOf (memcpy dst src size) n = payloadOf src n :=
  payloadOf_congr fun _ hj ↦ memcpy_of_lt (Nat.lt_of_lt_of_le hj h)

/-- What the checks on the count and on the size of a write leave: a count that fits in every
register, and a payload that lies inside what was copied. -/
theorem count_bounds {nsector size : UInt32} {bps : UInt32} (hbps : bps = 512)
    (hn : ¬nsector > biosMaxSectorCnt) (hs : ¬nsector * bps > size) :
    nsector.toNat ≤ 63 ∧ 512 * nsector.toNat ≤ size.toNat := by
  subst hbps
  have hn' : nsector.toNat ≤ 63 := UInt32.le_iff_toNat_le.1 (UInt32.not_lt.1 hn)
  have hmul : (nsector * 512).toNat = nsector.toNat * 512 := by
    rw [UInt32.toNat_mul]
    exact Nat.mod_eq_of_lt (by simp; omega)
  have hs' : (nsector * 512).toNat ≤ size.toNat := UInt32.le_iff_toNat_le.1 (UInt32.not_lt.1 hs)
  omega

theorem writeSectorsLba_wrote {param : DiskParam} {offset : UInt64} {nsector size : UInt32}
    (h : ¬lbaRefused true param offset nsector size) (hbps : param.ext.bytesPerSector = 512)
    (m : Machine σ) (check : Bool) (buffer : Buffer) :
    Wrote m check buffer
      ⟨m.site, param.diskId, .lba offset nsector.toUInt16, payloadOf buffer.byte nsector.toNat⟩
      (writeSectorsLba env param offset nsector buffer size check m) := by
  rw [writeSectorsLba_of_not_refused h m rfl]
  simp only [lbaRefused, not_or] at h
  obtain ⟨-, -, hn, -, hs, -⟩ := h
  obtain ⟨hn', hs'⟩ := count_bounds (by rw [hbps]; rfl) hn hs
  refine ⟨?_, rfl, ⟨_, rfl, rfl, rfl⟩, rfl, rfl⟩
  have hcount : nsector.toUInt16.toNat = nsector.toNat := by
    rw [UInt32.toNat_toUInt16]
    exact Nat.mod_eq_of_lt (by omega)
  have hpay := payloadOf_memcpy m.area.buffer buffer.byte hs'
  simp [writes, Exchange.write?, exchangeAt, lbaAsk, RealArea.withPayload, hcount, hpay]

theorem writeSectorsChs_wrote {param : DiskParam} {a : Chs} {nsector size : UInt32}
    (h : ¬chsRefused true param a nsector size) (hbps : sectorSize param = 512)
    (m : Machine σ) (check : Bool) (buffer : Buffer) :
    Wrote m check buffer
      ⟨m.site, param.diskId, .chs (setChsToPack a.cylinder.toNat a.sector.toNat)
        (UInt8.ofNat a.head.toNat) nsector.toUInt8, payloadOf buffer.byte nsector.toNat⟩
      (writeSectorsChs env param a nsector buffer size check m) := by
  have h' := h
  simp only [chsRefused, not_or] at h'
  obtain ⟨-, hn, hs, -, -, -⟩ := h'
  obtain ⟨hn', hs'⟩ := count_bounds hbps hn hs
  have hcount : nsector.toUInt8.toNat = nsector.toNat := by
    rw [UInt32.toNat_toUInt8]
    exact Nat.mod_eq_of_lt (by omega)
  have hpay := payloadOf_memcpy m.area.buffer buffer.byte hs'
  obtain ⟨x, hx⟩ : ∃ x, x =
      exchangeAt env m (chsAsk env true param a nsector buffer size m.area) := ⟨_, rfl⟩
  have hwrite : x.write? = some ⟨m.site, param.diskId,
      .chs (setChsToPack a.cylinder.toNat a.sector.toNat) (UInt8.ofNat a.head.toNat)
        nsector.toUInt8, payloadOf buffer.byte nsector.toNat⟩ := by
    subst hx
    simp [Exchange.write?, exchangeAt, chsAsk, RealArea.withPayload, hcount, hpay]
  have hsite : x.site = m.site := by rw [hx]; rfl
  by_cases hv : check = false ∨ x.carry = true ∨ x.short param nsector
  · rw [writeSectorsChs_of_unverified h m hx hv]
    refine ⟨?_, rfl, ⟨x, rfl, hsite, rfl⟩, rfl, rfl⟩
    simp [writes, hwrite]
  · simp only [not_or, Bool.not_eq_false, Bool.not_eq_true] at hv
    obtain ⟨rfl, hc, hfull⟩ := hv
    rw [writeSectorsChs_of_verified h m hx hc hfull rfl]
    refine ⟨?_, rfl, ⟨_, rfl, rfl, rfl⟩, rfl, rfl⟩
    -- the verification is an exchange of its own, but no write request
    have hverify : Exchange.write? (exchangeAt env (m.ask env x.req)
        (chsRequest env param a nsector 0x04 x.res)) = none := by
      simp [Exchange.write?, exchangeAt]
    simp [writes, hwrite, hverify]

/-! ### Filling the buffer -/

/-- Byte `j` that `fill_rand` draws when `_rand_next` is `r`. -/
def randByte (r : UInt64) (j : ℕ) : UInt8 := UInt8.ofNat (randOut (randStep^[j + 1] r))

theorem run_rand (m : Machine σ) :
    rand m = ⟨randOut (randStep m.randNext), { m with randNext := randStep m.randNext }, []⟩ := rfl

/-- **`fill_rand`** draws the bytes below `n` from the stream and leaves the others. -/
theorem run_fillRand (buffer : Buffer) (n : ℕ) (m : Machine σ) :
    fillRand buffer n m =
      ⟨⟨buffer.len, memcpy buffer.byte (randByte m.randNext) n⟩,
        { m with randNext := randStep^[n] m.randNext }, []⟩ := by
  have hinv : (fillRand buffer n m).val = ⟨buffer.len, memcpy buffer.byte (randByte m.randNext) n⟩ ∧
      (fillRand buffer n m).state = { m with randNext := randStep^[n] m.randNext } ∧
      (fillRand buffer n m).events = [] := by
    -- before round `i` the loop has drawn the bytes below `i`
    refine TraceM.forRange_invariant (fun i (b : Buffer) s l ↦
      b = ⟨buffer.len, memcpy buffer.byte (randByte m.randNext) i⟩ ∧
      s = { m with randNext := randStep^[i] m.randNext } ∧ l = []) ⟨?_, rfl, rfl⟩ ?_
    · rw [memcpy_zero]
    rintro i b s l - ⟨rfl, rfl, rfl⟩
    simp only [TraceM.val_bind, TraceM.state_bind, TraceM.events_bind, run_rand, TraceM.run_pure,
      Function.iterate_succ_apply', List.append_nil, and_true]
    refine congrArg (Buffer.mk buffer.len) (funext fun j ↦ ?_)
    rcases Nat.lt_trichotomy j i with h | rfl | h
    · simp [memcpy, Function.update_of_ne (Nat.ne_of_lt h), h, Nat.lt_succ_of_lt h]
    · simp [memcpy, randByte, Function.iterate_succ_apply']
    · have h' : ¬j < i + 1 := by omega
      simp [memcpy, Function.update_of_ne (Nat.ne_of_gt h), Nat.not_lt_of_gt h, h']
  obtain ⟨hb, hs, hl⟩ := hinv
  exact Traced.ext hb hs hl

/-- Byte `j` of pass `i` of a call that finds `_rand_next` at `r` and fills `size` bytes: zeros and
ones alternate, except that the paranoid mode draws every pass from `rand`. -/
def passByte (opt : Options) (size : ℕ) (r : UInt64) (i j : ℕ) : UInt8 :=
  if opt.mode = .ocd then randByte (randStep^[i * size] r) j else if i % 2 = 0 then 0 else 0xFF

/-- `_rand_next` after `i` passes over `size` bytes: only the four-pass mode draws numbers, in every
one of its passes. -/
def passRand (opt : Options) (size : ℕ) (r : UInt64) (i : ℕ) : UInt64 :=
  if opt.mode = .ocd then randStep^[i * size] r else r

/-- **What a pass fills the buffer with**, as a function of the pass and of `_rand_next`. -/
theorem run_fillPass (hmode : opt.mode ≠ .fast) (buffer : Buffer) (size i : ℕ) (r : UInt64)
    (m : Machine σ) (hr : m.randNext = passRand opt size r i) :
    fillPass opt i buffer size m =
      ⟨⟨buffer.len, memcpy buffer.byte (passByte opt size r i) size⟩,
        { m with randNext := passRand opt size r (i + 1) }, []⟩ := by
  have hset (v : UInt8) : memset buffer.byte v size = memcpy buffer.byte (fun _ ↦ v) size := rfl
  rw [fillPass]
  cases hm : opt.mode with
  | fast => exact absurd hm hmode
  | dod =>
    have hr' : m.randNext = r := by simpa [passRand, hm] using hr
    subst hr'
    by_cases hi : i % 2 = 0
    · have hbyte : passByte opt size m.randNext i = fun _ ↦ 0 := by
        funext j
        simp [passByte, hm, hi]
      simp [hi, hset, hbyte, passRand, hm]
    · have hbyte : passByte opt size m.randNext i = fun _ ↦ 0xFF := by
        funext j
        simp [passByte, hm, hi]
      simp [hi, hset, hbyte, passRand, hm]
  | ocd =>
    have hr' : m.randNext = randStep^[i * size] r := by simpa [passRand, hm] using hr
    have hstream : passByte opt size r i = randByte m.randNext := by
      funext j
      simp [passByte, hm, hr']
    have hnext : passRand opt size r (i + 1) = randStep^[size] m.randNext := by
      rw [hr', ← Function.iterate_add_apply]
      simp [passRand, hm, Nat.succ_mul, Nat.add_comm]
    simp [run_fillRand, hstream, hnext]

/-! ### The passes of one call -/

/-- The number of write requests of one accepted call. -/
def passes (opt : Options) : ℕ := if opt.mode = .fast then 1 else passCount opt

theorem passes_pos (opt : Options) : 0 < passes opt := by
  rw [passes, passCount]
  split_ifs <;> omega

/-- What is known of a call that was not refused: its write requests, and that its returned value
is the result of its last exchange. -/
structure Issued (opt : Options) (ws : List Write) (t : Traced (Machine σ) Event Xfer) : Prop where
  writes : writes t.events = ws
  returns : ∀ p ∈ returns t.events, (∃ i, p.1 = .passWrite i) ∧ 0 ≤ p.2
  last : ∃ z, (exchanges t.events).getLast? = some z ∧ t.val.ret = z.result opt

/-- `write` puts the first `n` sectors of its buffer where `target` says. -/
def Writer (write : Buffer → UInt32 → Bool → Prog σ Xfer) (size : UInt32) (diskId : UInt8)
    (target : Target) (n : ℕ) : Prop :=
  ∀ m check buffer, Wrote m check buffer ⟨m.site, diskId, target, payloadOf buffer.byte n⟩
    (write buffer size check m)

/-- The write requests of the passes before pass `k`. -/
def passWrites (diskId : UInt8) (target : Target) (n : ℕ) (byte : ℕ → ℕ → UInt8) (k : ℕ) :
    List Write :=
  (List.range k).map fun i ↦ ⟨.pass i, diskId, target, payloadOf (byte i) n⟩

section loops

variable {write : Buffer → UInt32 → Bool → Prog σ Xfer} {size : UInt32} {diskId : UInt8}
  {target : Target} {n : ℕ}

theorem fastPass_issued (hw : Writer write size diskId target n) (hmode : opt.mode = .fast)
    (buffer : Buffer) (m : Machine σ) :
    Issued opt (passWrites diskId target n (fun _ ↦ buffer.byte) 1)
      (fastPass opt write buffer size m) := by
  have hwrote := hw { m with site := .pass 0 } opt.check buffer
  obtain ⟨z, hz, hsite, hret⟩ := hwrote.last
  refine ⟨?_, ?_, z, ?_, ?_⟩
  · simpa [fastPass, enter, passWrites, writes] using hwrote.writes
  · simp [fastPass, enter, hwrote.returns, hret, Exchange.status_nonneg]
  · simpa [fastPass, enter] using hz
  · simpa [fastPass, enter, Exchange.result, hsite, checkedAt, hmode] using hret

theorem fastPass_kept (opt : Options) (hw : Writer write size diskId target n) (buffer : Buffer)
    (m : Machine σ) :
    (fastPass opt write buffer size m).val.buffer = buffer ∧
      (fastPass opt write buffer size m).state.randNext = m.randNext := by
  have hwrote := hw { m with site := .pass 0 } opt.check buffer
  refine ⟨?_, ?_⟩
  · simpa [fastPass, enter] using hwrote.buffer
  · simpa [fastPass, enter] using hwrote.randNext

/-- One round of the multi-pass loop, by itself, so that its effect is stated once for all
rounds. -/
def passRound (opt : Options) (write : Buffer → UInt32 → Bool → Prog σ Xfer) (size : UInt32)
    (i : ℕ) (x : Xfer) : Prog σ Xfer := do
  let buffer ← fillPass opt i x.buffer size.toNat
  enter (.pass i)
  let r ← write buffer size (opt.check || opt.mode = .ocd)
  TraceM.emit (.returned (.passWrite i) r.ret)
  return r

theorem passLoop_eq (buffer : Buffer) :
    passLoop opt write buffer size =
      TraceM.forRange (passCount opt) ⟨-1, buffer, size⟩ (passRound opt write size) := rfl

/-- **One round writes one payload**, and answers with the result of its last exchange. -/
theorem passRound_issued (hw : Writer write size diskId target n) (hmode : opt.mode ≠ .fast)
    (hn : 512 * n ≤ size.toNat) {r : UInt64} {i : ℕ} (x : Xfer) (m : Machine σ)
    (hr : m.randNext = passRand opt size.toNat r i) :
    Issued opt [⟨.pass i, diskId, target, payloadOf (passByte opt size.toNat r i) n⟩]
        (passRound opt write size i x m) ∧
      (passRound opt write size i x m).state.randNext = passRand opt size.toNat r (i + 1) := by
  set m' : Machine σ :=
    { m with randNext := passRand opt size.toNat r (i + 1), site := .pass i } with hm'
  have hwrote := hw m' (opt.check || opt.mode = .ocd)
    ⟨x.buffer.len, memcpy x.buffer.byte (passByte opt size.toNat r i) size.toNat⟩
  have hrun : passRound opt write size i x m = (do
      let r ← write ⟨x.buffer.len, memcpy x.buffer.byte (passByte opt size.toNat r i) size.toNat⟩
        size (opt.check || opt.mode = .ocd)
      TraceM.emit (.returned (.passWrite i) r.ret)
      return r : Prog σ Xfer) m' := by
    simp [passRound, TraceM.run_bind, run_fillPass hmode x.buffer size.toNat i r m hr, enter, hm']
  obtain ⟨z, hz, hsite, hret⟩ := hwrote.last
  rw [hrun]
  refine ⟨⟨?_, ?_, z, ?_, ?_⟩, ?_⟩
  · rw [payloadOf_memcpy _ _ hn] at hwrote
    simpa [writes] using hwrote.writes
  · simp [hwrote.returns, hret, Exchange.status_nonneg]
  · simpa using hz
  · simpa [Exchange.result, hsite, hm', checkedAt] using hret
  · simpa [hm'] using hwrote.randNext

/-- **The multi-pass loop** issues one write request a pass, whatever the BIOS answers. -/
theorem passLoop_issued (hw : Writer write size diskId target n) (hmode : opt.mode ≠ .fast)
    (hn : 512 * n ≤ size.toNat) (buffer : Buffer) (m : Machine σ) :
    Issued opt (passWrites diskId target n (passByte opt size.toNat m.randNext) (passCount opt))
        (passLoop opt write buffer size m) ∧
      (passLoop opt write buffer size m).state.randNext =
        passRand opt size.toNat m.randNext (passCount opt) := by
  rw [passLoop_eq]
  have hpos : 0 < passCount opt := by
    rw [passCount]
    split_ifs <;> omega
  -- after `i` rounds: `i` requests, and a last exchange unless no round has run
  have hinv := TraceM.forRange_invariant (fun i (x : Xfer) (s : Machine σ) (l : List Event) ↦
      writes l = passWrites diskId target n (passByte opt size.toNat m.randNext) i ∧
      (∀ p ∈ returns l, (∃ i, p.1 = .passWrite i) ∧ 0 ≤ p.2) ∧
      (0 < i → ∃ z, (exchanges l).getLast? = some z ∧ x.ret = z.result opt) ∧
      s.randNext = passRand opt size.toNat m.randNext i)
    (n := passCount opt) (b := ⟨-1, buffer, size⟩) (s := m)
    ⟨rfl, by simp, by simp, by simp [passRand]⟩
    (fun i x s l _ ⟨hws, hrets, _, hrand⟩ ↦ by
      obtain ⟨hround, hnext⟩ := passRound_issued hw hmode hn x s hrand
      obtain ⟨z, hz, hret⟩ := hround.last
      refine ⟨?_, ?_, fun _ ↦ ⟨z, ?_, hret⟩, hnext⟩
      · rw [writes_append, hws, hround.writes, passWrites, passWrites, List.range_succ,
          List.map_append, List.map_singleton]
      · intro p hp
        rw [returns_append, List.mem_append] at hp
        rcases hp with hp | hp
        · exact hrets p hp
        · exact hround.returns p hp
      · rw [exchanges_append, List.getLast?_append, hz]
        rfl)
  obtain ⟨hws, hrets, hlast, hrand⟩ := hinv
  exact ⟨⟨hws, hrets, hlast hpos⟩, hrand⟩

end loops

/-! ### `wipe_sectors_lba` -/

theorem isCdrom_eq_zero_iff {param : DiskParam} :
    isCdrom param = 0 ↔ (param.hasExt ≠ 0 → param.ext.bytesPerSector = 512) := by
  rw [isCdrom]
  split_ifs with h
  · simp [h]
  · simpa using h

theorem sectorSize_of_not_cdrom {param : DiskParam} (hp : isCdrom param = 0) :
    sectorSize param = 512 := by
  rw [sectorSize]
  split_ifs with h
  · rw [isCdrom_eq_zero_iff.1 hp h]
    rfl
  · rfl

/-- The target of the write requests of a call, in the addressing the drive is given. -/
def aimedAt (param : DiskParam) (offset : UInt64) (nsectors : UInt32) : Option Target :=
  if param.hasExt ≠ 0 then some (.lba offset nsectors.toUInt16)
  else (lba2chs param offset).map fun a ↦
    .chs (setChsToPack a.cylinder.toNat a.sector.toNat) (UInt8.ofNat a.head.toNat)
      nsectors.toUInt8

/-- The call is refused before anything is asked of the BIOS. -/
def callRefused (opt : Options) (param : DiskParam) (offset : UInt64) (nsectors size : UInt32) :
    Prop :=
  if param.hasExt ≠ 0 then lbaRefused (!opt.test) param offset nsectors size
  else ∀ a, lba2chs param offset = some a → chsRefused (!opt.test) param a nsectors size

/-- Byte `j` of what pass `i` sends. The fast mode of the CHS branch sends the buffer as it is. -/
def sentByte (opt : Options) (param : DiskParam) (byte : ℕ → UInt8) (size : ℕ) (r : UInt64)
    (i j : ℕ) : UInt8 :=
  if param.hasExt = 0 ∧ opt.mode = .fast then byte j else passByte opt size r i j

/-- The write requests of an accepted call, one for each pass, whatever the BIOS answers to them. -/
def callWrites (opt : Options) (param : DiskParam) (byte : ℕ → UInt8) (size : ℕ) (r : UInt64)
    (offset : UInt64) (nsectors : UInt32) : List Write :=
  if opt.test then []
  else (aimedAt param offset nsectors).toList.flatMap fun target ↦
    passWrites param.diskId target nsectors.toNat (sentByte opt param byte size r) (passes opt)

/-- `_rand_next` after an accepted call. -/
def callRand (opt : Options) (size : ℕ) (r : UInt64) : UInt64 :=
  if opt.test then r else passRand opt size r (passes opt)

/-! #### Refused calls -/

/-- `write` is refused whatever it is asked to write. -/
def Refuser (write : Buffer → UInt32 → Bool → Prog σ Xfer) (size : UInt32) : Prop :=
  ∀ m check buffer, write buffer size check m =
    ⟨⟨-1, buffer, size⟩, m, [.transfer size buffer.len]⟩

/-- A call that came to nothing: it answers `-1` and has asked the BIOS nothing. -/
structure Declined (t : Traced (Machine σ) Event Xfer) : Prop where
  ret : t.val.ret = -1
  exchanges : exchanges t.events = []
  returns : ∀ p ∈ returns t.events, ∃ i, p.1 = .passWrite i

theorem fillPass_events (i : ℕ) (buffer : Buffer) (n : ℕ) (m : Machine σ) :
    (fillPass opt i buffer n m).events = [] := by
  rw [fillPass]
  split_ifs
  · rfl
  · rfl
  · rw [run_fillRand]

theorem passRound_declined {write : Buffer → UInt32 → Bool → Prog σ Xfer} {size : UInt32}
    (hw : Refuser write size) (i : ℕ) (x : Xfer) (m : Machine σ) :
    Declined (passRound opt write size i x m) := by
  refine ⟨?_, ?_, ?_⟩
  · simp [passRound, enter, hw _ _ _]
  · simp [passRound, enter, hw _ _ _, fillPass_events]
  · simp [passRound, enter, hw _ _ _, fillPass_events]

theorem passLoop_declined {write : Buffer → UInt32 → Bool → Prog σ Xfer} {size : UInt32}
    (hw : Refuser write size) (buffer : Buffer) (m : Machine σ) :
    Declined (passLoop opt write buffer size m) := by
  rw [passLoop_eq]
  have hinv := TraceM.forRange_invariant (fun _ (x : Xfer) (_ : Machine σ) (l : List Event) ↦
      x.ret = -1 ∧ exchanges l = [] ∧ ∀ p ∈ returns l, ∃ i, p.1 = .passWrite i)
    (n := passCount opt) (b := ⟨-1, buffer, size⟩) (s := m) ⟨rfl, rfl, by simp⟩
    (fun i x s l _ ⟨_, hx, hrets⟩ ↦ by
      have hround : Declined (passRound opt write size i x s) := passRound_declined hw i x s
      refine ⟨hround.ret, ?_, ?_⟩
      · rw [exchanges_append, hx, hround.exchanges, List.append_nil]
      · intro p hp
        rw [returns_append, List.mem_append] at hp
        rcases hp with hp | hp
        · exact hrets p hp
        · exact hround.returns p hp)
  exact ⟨hinv.1, hinv.2.1, hinv.2.2⟩

theorem fastPass_declined {write : Buffer → UInt32 → Bool → Prog σ Xfer} {size : UInt32}
    (hw : Refuser write size) (buffer : Buffer) (m : Machine σ) :
    Declined (fastPass opt write buffer size m) := by
  refine ⟨?_, ?_, ?_⟩
  · simp [fastPass, enter, hw _ _ _]
  · simp [fastPass, enter, hw _ _ _]
  · simp [fastPass, enter, hw _ _ _]

/-! #### The two branches -/

/-- The shape the two branches of `wipe_sectors_lba` share: a read in test mode, one write of
`fast` in the fast mode, and the multi-pass loop otherwise. -/
def branch (opt : Options) (read : Prog σ Xfer) (write : Buffer → UInt32 → Bool → Prog σ Xfer)
    (fast buffer : Buffer) (size : UInt32) : Prog σ Xfer := do
  if opt.test then
    enter .test
    read
  else if opt.mode = .fast then
    fastPass opt write fast size
  else
    passLoop opt write buffer size

theorem branch_declined {read : Prog σ Xfer} {write : Buffer → UInt32 → Bool → Prog σ Xfer}
    {size : UInt32} (hread : opt.test = true → ∀ m, Declined (read m))
    (hwrite : opt.test = false → Refuser write size) (fast buffer : Buffer) (m : Machine σ) :
    Declined (branch opt read write fast buffer size m) := by
  rw [branch]
  cases htest : opt.test with
  | true =>
    obtain ⟨hret, hx, hrets⟩ := hread htest { m with site := .test }
    exact ⟨hret, hx, hrets⟩
  | false =>
    have hw := hwrite htest
    simp only [Bool.false_eq_true, if_false]
    split_ifs
    · exact fastPass_declined hw _ m
    · exact passLoop_declined hw _ m

theorem passWrites_congr {diskId : UInt8} {target : Target} {n k : ℕ} {f g : ℕ → ℕ → UInt8}
    (h : ∀ i < k, ∀ j < 512 * n, f i j = g i j) :
    passWrites diskId target n f k = passWrites diskId target n g k := by
  refine List.map_congr_left fun i hi ↦ ?_
  rw [payloadOf_congr (h i (List.mem_range.1 hi))]

/-- What is known of an accepted call of `wipe_sectors_lba` that found the buffer as `buffer` and
`_rand_next` at `r`. -/
structure CallRun (opt : Options) (param : DiskParam) (buffer : Buffer) (size : ℕ) (r : UInt64)
    (ws : List Write) (t : Traced (Machine σ) Event Xfer) : Prop extends Issued opt ws t where
  randNext : t.state.randNext = callRand opt size r
  kept : opt.test = false → param.hasExt = 0 → opt.mode = .fast → t.val.buffer = buffer

/-- A read that was issued: no write request, and `_rand_next` left alone. -/
def Reader (opt : Options) (read : Prog σ Xfer) : Prop :=
  ∀ m, Issued opt [] (read m) ∧ (read m).state.randNext = m.randNext

/-- **An accepted branch.** `fast` is the buffer of the fast mode, and `hfast` what it holds. -/
theorem branch_issued {read : Prog σ Xfer} {write : Buffer → UInt32 → Bool → Prog σ Xfer}
    {param : DiskParam} {size : UInt32} {target : Target} {n : ℕ} {fast buffer : Buffer}
    (hread : opt.test = true → Reader opt read)
    (hwrite : opt.test = false → Writer write size param.diskId target n)
    (hn : opt.test = false → 512 * n ≤ size.toNat) (m : Machine σ)
    (hfast : opt.mode = .fast → ∀ j < size.toNat,
      fast.byte j = sentByte opt param buffer.byte size.toNat m.randNext 0 j)
    (hkept : param.hasExt = 0 → fast = buffer) :
    CallRun opt param buffer size.toNat m.randNext
      (if opt.test then [] else passWrites param.diskId target n
        (sentByte opt param buffer.byte size.toNat m.randNext) (passes opt))
      (branch opt read write fast buffer size m) := by
  rw [branch]
  cases htest : opt.test with
  | true =>
    obtain ⟨⟨hws, hrets, hlast⟩, hrand⟩ := hread htest { m with site := .test }
    have hrun : (do enter .test; read : Prog σ Xfer) m = read { m with site := .test } := rfl
    simp only [if_true, hrun]
    exact ⟨⟨hws, hrets, hlast⟩, by rw [hrand, callRand, if_pos htest], by simp [htest]⟩
  | false =>
    have hw := hwrite htest
    have hn' := hn htest
    simp only [Bool.false_eq_true, if_false]
    by_cases hmode : opt.mode = .fast
    · -- one write of `fast`, which the two branches of the source prepare differently
      rw [if_pos hmode, passes, if_pos hmode]
      obtain ⟨hbuf, hrand⟩ := fastPass_kept opt hw fast m
      have hws : passWrites param.diskId target n (fun _ ↦ fast.byte) 1 =
          passWrites param.diskId target n
            (sentByte opt param buffer.byte size.toNat m.randNext) 1 := by
        refine passWrites_congr fun i hi j hj ↦ ?_
        obtain rfl : i = 0 := by omega
        exact hfast hmode j (by omega)
      refine ⟨hws ▸ fastPass_issued hw hmode fast m, ?_, fun _ hext _ ↦ ?_⟩
      · rw [hrand]
        simp [callRand, htest, passRand, hmode]
      · rw [hbuf, hkept hext]
    · -- each pass fills the buffer before it writes, so what the buffer held is gone
      rw [if_neg hmode, passes, if_neg hmode]
      obtain ⟨hissued, hrand⟩ := passLoop_issued hw hmode hn' buffer m
      have hsent : sentByte opt param buffer.byte size.toNat m.randNext =
          passByte opt size.toNat m.randNext := by
        funext i j
        simp [sentByte, hmode]
      rw [hsent]
      refine ⟨hissued, ?_, fun _ _ h ↦ absurd h hmode⟩
      rw [hrand]
      simp [callRand, htest, passes, hmode]

/-! #### `wipe_sectors_lba` -/

section call

variable {param : DiskParam} {offset : UInt64} {a : Chs} {nsectors size : UInt32}

theorem wipeSectorsExt_eq (buffer : Buffer) :
    wipeSectorsExt env opt param offset nsectors buffer size =
      branch opt (readSectorsLba env param offset nsectors buffer size)
        (writeSectorsLba env param offset nsectors)
        { buffer with byte := memset buffer.byte 0 size.toNat } buffer size := rfl

theorem wipeSectorsChs_eq (buffer : Buffer) :
    wipeSectorsChs env opt param a nsectors buffer size =
      branch opt (readSectorsChs env param a nsectors buffer size)
        (writeSectorsChs env param a nsectors) buffer buffer size := rfl

theorem declined_of_transfer (buffer : Buffer) (size : UInt32) (m : Machine σ) :
    Declined (⟨⟨-1, buffer, size⟩, m, [.transfer size buffer.len]⟩ :
      Traced (Machine σ) Event Xfer) :=
  ⟨rfl, rfl, by simp⟩

theorem wipeSectorsExt_declined (h : lbaRefused (!opt.test) param offset nsectors size)
    (buffer : Buffer) (m : Machine σ) :
    Declined (wipeSectorsExt env opt param offset nsectors buffer size m) := by
  rw [wipeSectorsExt_eq]
  refine branch_declined (fun htest m' ↦ ?_) (fun htest m' check b ↦ ?_) _ buffer m
  · rw [htest, Bool.not_true] at h
    rw [readSectorsLba, sectorsLbaRw_of_refused h]
    exact declined_of_transfer buffer size m'
  · rw [htest] at h
    exact sectorsLbaRw_of_refused h m'

theorem wipeSectorsChs_declined (h : chsRefused (!opt.test) param a nsectors size)
    (buffer : Buffer) (m : Machine σ) :
    Declined (wipeSectorsChs env opt param a nsectors buffer size m) := by
  rw [wipeSectorsChs_eq]
  refine branch_declined (fun htest m' ↦ ?_) (fun htest m' check b ↦ ?_) _ buffer m
  · rw [htest, Bool.not_true] at h
    rw [readSectorsChs, sectorChsRw_of_refused h]
    exact declined_of_transfer buffer size m'
  · rw [htest] at h
    exact sectorChsRw_of_refused h m'

theorem exchanges_divide_map (l : List ℕ) : exchanges (l.map Event.divide) = [] := by
  induction l with
  | nil => rfl
  | cons d l ih => simpa using ih

theorem returns_divide_map (l : List ℕ) : returns (l.map Event.divide) = [] := by
  induction l with
  | nil => rfl
  | cons d l ih => simpa using ih

theorem exchanges_progress_map (l : List ProgressLine) : exchanges (l.map Event.progress) = [] := by
  induction l with
  | nil => rfl
  | cons line l ih => simpa using ih

theorem returns_progress_map (l : List ProgressLine) : returns (l.map Event.progress) = [] := by
  induction l with
  | nil => rfl
  | cons line l ih => simpa using ih

/-- `wipe_sectors_lba` in the CHS addressing, with the conversion done. -/
theorem run_wipeSectorsLba_chs (hext : param.hasExt = 0) (buffer : Buffer) (m : Machine σ) :
    (wipeSectorsLba env opt param offset nsectors buffer size m) =
      match lba2chs param offset with
      | some a =>
        let t := wipeSectorsChs env opt param a nsectors buffer size m
        ⟨t.val, t.state, (lba2chsDivisors param offset).map .divide ++ t.events⟩
      | none => ⟨⟨-1, buffer, size⟩, m, (lba2chsDivisors param offset).map .divide⟩ := by
  have hne : ¬param.hasExt ≠ 0 := by simpa using hext
  rw [wipeSectorsLba, if_neg hne]
  cases lba2chs param offset with
  | some a => rfl
  | none => simp [TraceM.run_bind]

/-- **A refused call** asks the BIOS nothing and answers `-1`. -/
theorem wipeSectorsLba_declined (h : callRefused opt param offset nsectors size)
    (buffer : Buffer) (m : Machine σ) :
    Declined (wipeSectorsLba env opt param offset nsectors buffer size m) := by
  by_cases hext : param.hasExt ≠ 0
  · rw [callRefused, if_pos hext] at h
    rw [wipeSectorsLba, if_pos hext]
    exact wipeSectorsExt_declined h buffer m
  · rw [callRefused, if_neg hext] at h
    rw [run_wipeSectorsLba_chs (by simpa using hext)]
    cases ha : lba2chs param offset with
    | some a =>
      have hd : Declined (wipeSectorsChs env opt param a nsectors buffer size m) :=
        wipeSectorsChs_declined (h a ha) buffer m
      obtain ⟨hret, hx, hrets⟩ := hd
      refine ⟨hret, ?_, ?_⟩
      · simp [exchanges_divide_map, hx]
      · simpa [returns_divide_map] using hrets
    | none =>
      refine ⟨rfl, ?_, ?_⟩
      · simp [exchanges_divide_map]
      · simp [returns_divide_map]

theorem Exchange.status_of_read {x : Exchange} (h : x.req.reg.ah ≠ 0x03) (check : Bool) :
    x.status check = if x.carry then (x.res.reg.ah.toNat : ℤ) else 0 := by
  simp [Exchange.status, h]

theorem readSectorsLba_reader (h : ¬lbaRefused false param offset nsectors size)
    (buffer : Buffer) : Reader opt (readSectorsLba env param offset nsectors buffer size) := by
  intro m
  obtain ⟨x, hx⟩ : ∃ x, x =
      exchangeAt env m (lbaAsk env false param offset nsectors buffer size false m.area) :=
    ⟨_, rfl⟩
  have hah : x.req.reg.ah = 0x42 := by rw [hx]; rfl
  have hwrite : x.write? = none := by simp [Exchange.write?, hah]
  rw [readSectorsLba_of_not_refused h m hx]
  refine ⟨⟨?_, ?_, x, ?_, ?_⟩, rfl⟩
  · cases x.carry <;> simp [writes, hwrite]
  · cases x.carry <;> simp
  · cases x.carry <;> simp
  · rw [Exchange.result, Exchange.status_of_read (by simp [hah]), lbaReadResult]
    split_ifs <;> rfl

theorem readSectorsChs_reader (h : ¬chsRefused false param a nsectors size)
    (buffer : Buffer) : Reader opt (readSectorsChs env param a nsectors buffer size) := by
  intro m
  obtain ⟨x, hx⟩ : ∃ x, x =
      exchangeAt env m (chsAsk env false param a nsectors buffer size m.area) := ⟨_, rfl⟩
  have hah : x.req.reg.ah = 0x02 := by rw [hx]; rfl
  have hwrite : x.write? = none := by simp [Exchange.write?, hah]
  rw [readSectorsChs_of_not_refused h m hx]
  refine ⟨⟨?_, ?_, x, ?_, ?_⟩, rfl⟩
  · cases x.carry <;> simp [writes, hwrite]
  · cases x.carry <;> simp
  · cases x.carry <;> simp
  · rw [Exchange.result, Exchange.status_of_read (by simp [hah]), chsReadResult]
    split_ifs <;> rfl

theorem wipeSectorsExt_issued (hext : param.hasExt ≠ 0) (hbps : param.ext.bytesPerSector = 512)
    (h : ¬lbaRefused (!opt.test) param offset nsectors size) (buffer : Buffer) (m : Machine σ) :
    CallRun opt param buffer size.toNat m.randNext
      (callWrites opt param buffer.byte size.toNat m.randNext offset nsectors)
      (wipeSectorsExt env opt param offset nsectors buffer size m) := by
  rw [wipeSectorsExt_eq, callWrites, aimedAt, if_pos hext, Option.toList_some,
    List.flatMap_singleton]
  refine branch_issued (fun htest ↦ ?_) (fun htest ↦ ?_) (fun htest ↦ ?_) m
    (fun hmode j hj ↦ ?_) (fun h0 ↦ absurd h0 hext)
  · rw [htest] at h
    exact readSectorsLba_reader h buffer
  · rw [htest] at h
    exact writeSectorsLba_wrote h hbps
  · simp only [lbaRefused, not_or] at h
    exact (count_bounds (by rw [hbps]; rfl) h.2.2.1 h.2.2.2.2.1).2
  · simp [memset_of_lt hj, sentByte, hext, passByte, hmode]

theorem wipeSectorsChs_issued (hext : param.hasExt = 0) (ha : lba2chs param offset = some a)
    (h : ¬chsRefused (!opt.test) param a nsectors size) (buffer : Buffer) (m : Machine σ) :
    CallRun opt param buffer size.toNat m.randNext
      (callWrites opt param buffer.byte size.toNat m.randNext offset nsectors)
      (wipeSectorsChs env opt param a nsectors buffer size m) := by
  have hbps : sectorSize param = 512 := by simp [sectorSize, hext]
  have hne : ¬param.hasExt ≠ 0 := by simpa using hext
  rw [wipeSectorsChs_eq, callWrites, aimedAt, if_neg hne, ha, Option.map_some,
    Option.toList_some, List.flatMap_singleton]
  refine branch_issued (fun htest ↦ ?_) (fun htest ↦ ?_) (fun htest ↦ ?_) m
    (fun hmode j hj ↦ ?_) (fun _ ↦ rfl)
  · rw [htest] at h
    exact readSectorsChs_reader h buffer
  · rw [htest] at h
    exact writeSectorsChs_wrote h hbps
  · simp only [chsRefused, not_or] at h
    exact (count_bounds hbps h.2.1 h.2.2.1).2
  · simp [sentByte, hext, hmode]

/-- **An accepted call** issues the writes of its passes, whatever the BIOS answers to them. -/
theorem wipeSectorsLba_issued (hp : isCdrom param = 0)
    (h : ¬callRefused opt param offset nsectors size) (buffer : Buffer) (m : Machine σ) :
    CallRun opt param buffer size.toNat m.randNext
      (callWrites opt param buffer.byte size.toNat m.randNext offset nsectors)
      (wipeSectorsLba env opt param offset nsectors buffer size m) := by
  by_cases hext : param.hasExt ≠ 0
  · rw [callRefused, if_pos hext] at h
    rw [wipeSectorsLba, if_pos hext]
    exact wipeSectorsExt_issued hext (isCdrom_eq_zero_iff.1 hp hext) h buffer m
  · have hext' : param.hasExt = 0 := by simpa using hext
    rw [callRefused, if_neg hext] at h
    push Not at h
    obtain ⟨a, ha, hacc⟩ := h
    have hrun : CallRun opt param buffer size.toNat m.randNext
        (callWrites opt param buffer.byte size.toNat m.randNext offset nsectors)
        (wipeSectorsChs env opt param a nsectors buffer size m) :=
      wipeSectorsChs_issued hext' ha hacc buffer m
    obtain ⟨⟨hws, hrets, z, hz, hret⟩, hrand, hkept⟩ := hrun
    rw [run_wipeSectorsLba_chs hext', ha]
    refine ⟨⟨?_, ?_, z, ?_, hret⟩, hrand, hkept⟩
    · simpa [writes, exchanges_divide_map] using hws
    · simpa [returns_divide_map] using hrets
    · simpa [exchanges_divide_map] using hz

/-- An accepted call has a target: an address that cannot be converted refuses the call. -/
theorem aimedAt_isSome (h : ¬callRefused opt param offset nsectors size) :
    ∃ target, aimedAt param offset nsectors = some target := by
  rw [aimedAt]
  split_ifs with hext
  · exact ⟨_, rfl⟩
  · rw [callRefused, if_neg hext] at h
    push Not at h
    obtain ⟨a, ha, -⟩ := h
    exact ⟨_, by rw [ha, Option.map_some]⟩

end call

end Dwipe

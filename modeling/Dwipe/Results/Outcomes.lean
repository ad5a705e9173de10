import Dwipe.Disk.Sizes
import Dwipe.Machine.Scripts
import Dwipe.Wipe.Enumeration
import Dwipe.Wipe.Passes

/-!
# Statuses that get lost

Two ways in which a failure that the BIOS has reported does not reach the caller.

A failed exchange is returned as its status byte. A failure **without** a status byte is returned as
0, by each of the request functions (`carry_decides_iff`), and `enum_disk` then lists a drive that
is not there: an entry of zeros, with drive number 0.

The multi-pass loops of `wipe_sectors_lba` overwrite the result of a pass with the result of the
next one, so what is returned is the result of the last pass (`passLoop_results`), and a run that
the BIOS fails in an earlier pass alone returns 0. Whatever the call is, unless its parameters are
refused there is a BIOS that makes such a run of it (`multi_pass_result_iff`).
-/

namespace Dwipe

variable {σ : Type} {env : Env σ}

/-! ### The carry flag -/

/-- The calls of the request layer that make one exchange. The CHS write is the unchecked one. -/
inductive DiskCall where
  | getDiskParam (diskId : UInt8)
  | getDiskParamExt (param : DiskParam)
  | checkExtensionsPresent (diskId : UInt8) (old : Extensions)
  | readSectorsChs (param : DiskParam) (a : Chs) (n : UInt32) (buffer : Buffer) (size : UInt32)
  | readSectorsLba (param : DiskParam) (offset : UInt64) (n : UInt32) (buffer : Buffer)
      (size : UInt32)
  | writeSectorsLba (param : DiskParam) (offset : UInt64) (n : UInt32) (buffer : Buffer)
      (size : UInt32) (check : Bool)
  | writeSectorsChs (param : DiskParam) (a : Chs) (n : UInt32) (buffer : Buffer) (size : UInt32)

/-- The call, for its returned `int`. -/
def DiskCall.run (env : Env σ) : DiskCall → Prog σ ℤ
  | .getDiskParam diskId => do return (← Dwipe.getDiskParam env diskId).1
  | .getDiskParamExt param => do return (← Dwipe.getDiskParamExt env param).1
  | .checkExtensionsPresent diskId old => do
    return (← Dwipe.checkExtensionsPresent env diskId old).1
  | .readSectorsChs param a n buffer size => do
    return (← Dwipe.readSectorsChs env param a n buffer size).ret
  | .readSectorsLba param offset n buffer size => do
    return (← Dwipe.readSectorsLba env param offset n buffer size).ret
  | .writeSectorsLba param offset n buffer size check => do
    return (← Dwipe.writeSectorsLba env param offset n buffer size check).ret
  | .writeSectorsChs param a n buffer size => do
    return (← Dwipe.writeSectorsChs env param a n buffer size false).ret

/-- The arguments pass the parameter checks, so the call issues a request. -/
def DiskCall.Accepted : DiskCall → Prop
  | .getDiskParam _ | .getDiskParamExt _ | .checkExtensionsPresent _ _ => True
  | .readSectorsChs param a n _ size => ¬chsRefused false param a n size
  | .readSectorsLba param offset n _ size => ¬lbaRefused false param offset n size
  | .writeSectorsLba param offset n _ size _ => ¬lbaRefused true param offset n size
  | .writeSectorsChs param a n _ size => ¬chsRefused true param a n size

/-- A failure without a status byte, which the code reports as a success. -/
def Exchange.Silent (x : Exchange) : Prop := x.carry = true ∧ x.res.reg.ah = 0

instance (x : Exchange) : Decidable x.Silent := inferInstanceAs (Decidable (_ ∧ _))

/-- What is known of an accepted call: it is one exchange, and returns 0 or the status byte. -/
structure OneExchange (x : Exchange) (t : Traced (Machine σ) Event ℤ) : Prop where
  asks : exchanges t.events = [x]
  ret : t.val = if x.carry then (x.res.reg.ah.toNat : ℤ) else 0

theorem OneExchange.eq_zero_iff {x : Exchange} {t : Traced (Machine σ) Event ℤ}
    (h : OneExchange x t) : (t.val = 0 ↔ x.carry = false) ↔ ¬x.Silent := by
  have hah : x.res.reg.ah.toNat = 0 ↔ x.res.reg.ah = 0 := by
    rw [← UInt8.toNat_inj]
    rfl
  rw [h.ret, Exchange.Silent]
  cases x.carry <;> simp [hah]

/-- The call is the function of the request layer behind it, run once. -/
theorem oneExchange_of_run {α : Type} {p : Prog σ α} {f : α → ℤ} {m : Machine σ} {x : Exchange}
    {t : Traced (Machine σ) Event α} (ht : p m = t) (hasks : exchanges t.events = [x])
    (hret : f t.val = if x.carry then (x.res.reg.ah.toNat : ℤ) else 0) :
    OneExchange x ((do return f (← p) : Prog σ ℤ) m) := by
  subst ht
  refine ⟨?_, hret⟩
  rw [TraceM.events_bind, TraceM.run_pure, List.append_nil]
  exact hasks

theorem DiskCall.exists_exchange {call : DiskCall} (h : call.Accepted) (m : Machine σ) :
    ∃ x, OneExchange x (call.run env m) := by
  cases call with
  | getDiskParam diskId =>
    exact ⟨_, oneExchange_of_run (run_getDiskParam m rfl) rfl (by split_ifs <;> rfl)⟩
  | getDiskParamExt param =>
    exact ⟨_, oneExchange_of_run (run_getDiskParamExt m rfl) rfl (by split_ifs <;> rfl)⟩
  | checkExtensionsPresent diskId old =>
    exact ⟨_, oneExchange_of_run (run_checkExtensionsPresent m old rfl) rfl
      (by split_ifs <;> rfl)⟩
  | readSectorsChs param a n buffer size =>
    refine ⟨exchangeAt env m (chsAsk env false param a n buffer size m.area),
      oneExchange_of_run (readSectorsChs_of_not_refused h m rfl) ?_ ?_⟩
    · split_ifs <;> rfl
    · rw [chsReadResult]
      split_ifs <;> rfl
  | readSectorsLba param offset n buffer size =>
    refine ⟨exchangeAt env m (lbaAsk env false param offset n buffer size false m.area),
      oneExchange_of_run (readSectorsLba_of_not_refused h m rfl) ?_ ?_⟩
    · split_ifs <;> rfl
    · rw [lbaReadResult]
      split_ifs <;> rfl
  | writeSectorsLba param offset n buffer size check =>
    refine ⟨_, oneExchange_of_run (writeSectorsLba_of_not_refused h m rfl) rfl ?_⟩
    simp [Exchange.status, exchangeAt, lbaAsk]
  | writeSectorsChs param a n buffer size =>
    refine ⟨_, oneExchange_of_run (writeSectorsChs_of_unverified h m rfl (Or.inl rfl)) rfl ?_⟩
    simp [Exchange.status]

/-! ### The enumeration -/

/-- The exchange asks for the parameters of a drive. -/
def Exchange.IsProbe (x : Exchange) : Prop := x.req.reg.ah = 0x08

instance (x : Exchange) : Decidable x.IsProbe := inferInstanceAs (Decidable (_ = _))

/-- The questions of a trace for the parameters of a drive, in order. -/
def probes (l : List Event) : List Exchange := (exchanges l).filter fun x ↦ x.IsProbe

theorem probes_append (l l' : List Event) : probes (l ++ l') = probes l ++ probes l' := by
  simp [probes]

/-- `get_disk_param` returns 0. -/
def Exchange.Answered (x : Exchange) : Prop := x.carry = false ∨ x.res.reg.ah = 0

instance (x : Exchange) : Decidable x.Answered := inferInstanceAs (Decidable (_ ∨ _))

/-- The drive number `enum_disk` lists for an answered question. -/
def Exchange.listedId (x : Exchange) : UInt8 := if x.carry then 0 else x.req.reg.dl

/-- What is known of a round, **whatever** the BIOS answers: one question for the parameters, and
one more entry if it was answered. -/
structure AnyRound (x : Exchange) (s : EnumState) (m : Machine σ)
    (t : Traced (Machine σ) Event EnumState) : Prop where
  probes : probes t.events = [x]
  kept : ∀ k < s.index, t.state.diskList k = m.diskList k
  index : t.val.index = s.index + if x.Answered then 1 else 0
  entry : x.Answered → (t.state.diskList s.index).diskId = x.listedId

/-- From the extension check on, a round asks for no parameters and keeps the number of the drive
in its slot. -/
theorem probeExt_any {diskId : UInt8} {s : EnumState} {param : DiskParam} {m : Machine σ}
    {t : Traced (Machine σ) Event EnumState} (ht : t = probeExt env diskId s param m)
    (hm : m.diskList s.index = param) :
    probes t.events = [] ∧ t.val.index = s.index + 1 ∧
      (∀ k < s.index, t.state.diskList k = m.diskList k) ∧
      (t.state.diskList s.index).diskId = param.diskId := by
  obtain ⟨y, hy⟩ : ∃ y, y = exchangeAt env m (checkRequest diskId m.area) := ⟨_, rfl⟩
  obtain ⟨z, hz⟩ : ∃ z, z = exchangeAt env (m.ask env y.req)
    (extRequest env param.diskId (m.ask env y.req).area) := ⟨_, rfl⟩
  have hyp : ¬y.IsProbe := by
    rw [hy]
    show ¬(0x41 : UInt8) = 0x08
    decide
  have hzp : ¬z.IsProbe := by
    rw [hz]
    show ¬(0x48 : UInt8) = 0x08
    decide
  obtain ⟨v, hv⟩ : ∃ v, checkExtensionsPresent env diskId s.ext m =
    ⟨v, m.ask env y.req, [.int13 y]⟩ := ⟨_, run_checkExtensionsPresent m s.ext hy⟩
  obtain ⟨w, hw, hid⟩ : ∃ w, getDiskParamExt env param (m.ask env y.req) =
      ⟨w, (m.ask env y.req).ask env z.req, [.int13 z]⟩ ∧ w.2.diskId = param.diskId := by
    refine ⟨_, run_getDiskParamExt (m.ask env y.req) hz, ?_⟩
    split_ifs <;> rfl
  subst ht
  simp only [probeExt, TraceM.run_bind, hv, TraceM.run_ite]
  split_ifs with hext
  · simp only [TraceM.run_bind, hw, setSlot, TraceM.run_emit, TraceM.run_update, TraceM.run_pure]
    refine ⟨by simp [probes, hyp, hzp], trivial, fun k hk ↦ ?_, ?_⟩
    · exact Function.update_of_ne (by omega) _ _
    · rw [Function.update_self]
      exact hid
  · refine ⟨by simp [probes, hyp], rfl, fun k hk ↦ rfl, ?_⟩
    show (m.diskList s.index).diskId = param.diskId
    rw [hm]

theorem probeDrive_any (diskId : UInt8) (s : EnumState) (m : Machine σ) :
    AnyRound (ask08 env diskId m) s m (probeDrive env diskId s m) := by
  obtain ⟨x, hx⟩ : ∃ x, x = ask08 env diskId m := ⟨_, rfl⟩
  have hxp : x.IsProbe := by rw [hx]; rfl
  have hdl : x.req.reg.dl = diskId := by rw [hx]; rfl
  have hah : x.res.reg.ah.toNat = 0 ↔ x.res.reg.ah = 0 := by
    rw [← UInt8.toNat_inj]
    rfl
  obtain ⟨v, ht, hzero, hid⟩ : ∃ v, getDiskParam env diskId m =
      ⟨v, m.ask env x.req, [.int13 x]⟩ ∧ (v.1 = 0 ↔ x.Answered) ∧ v.2.diskId = x.listedId := by
    refine ⟨_, run_getDiskParam m hx, ?_, ?_⟩
    · cases hc : x.carry <;> simp [Exchange.Answered, hc, hah]
    · cases hc : x.carry <;> simp [Exchange.listedId, hc, decoded, DiskParam.zero, hdl]
  rw [← hx, probeDrive_run diskId s m ht.symm rfl, TraceM.run_ite]
  by_cases hans : x.Answered
  · have hslot : ((m.ask env x.req).stored s.index v.2).diskList s.index = v.2 :=
      Function.update_self _ _ _
    obtain ⟨u, hu⟩ : ∃ u, u = probeExt env diskId s v.2 ((m.ask env x.req).stored s.index v.2) :=
      ⟨_, rfl⟩
    obtain ⟨hprobes, hindex, hkept, hentry⟩ := probeExt_any hu hslot
    rw [if_pos (hzero.2 hans), ← hu]
    refine ⟨?_, fun k hk ↦ ?_, ?_, fun _ ↦ hentry.trans hid⟩
    · show probes ([.int13 x, .store s.index] ++ u.events) = [x]
      rw [probes_append, hprobes]
      simp [probes, hxp]
    · rw [hkept k hk]
      exact Function.update_of_ne (by omega) _ _
    · rw [hindex, if_pos hans]
  · rw [if_neg (mt hzero.1 hans)]
    refine ⟨?_, fun k hk ↦ ?_, ?_, fun h ↦ absurd h hans⟩
    · simp [probes, hxp]
    · exact Function.update_of_ne (by omega) _ _
    · simp [hans]

/-- **Before round `i`** the slots hold an entry for each answered question, in order. -/
structure Entered (i : ℕ) (s : EnumState) (m : Machine σ) (l : List Event) : Prop where
  entries : (List.range s.index).map (fun k ↦ (m.diskList k).diskId) =
    ((probes l).filter fun x ↦ x.Answered).map Exchange.listedId
  index : s.index ≤ i

theorem Entered.step {i : ℕ} {s : EnumState} {m : Machine σ} {l : List Event} (diskId : UInt8)
    (h : Entered i s m l) :
    Entered (i + 1) (probeDrive env diskId s m).val (probeDrive env diskId s m).state
      (l ++ (probeDrive env diskId s m).events) := by
  obtain ⟨x, hx⟩ : ∃ x, x = ask08 env diskId m := ⟨_, rfl⟩
  have hround : AnyRound x s m (probeDrive env diskId s m) := hx ▸ probeDrive_any diskId s m
  have hold : (List.range s.index).map
      (fun k ↦ ((probeDrive env diskId s m).state.diskList k).diskId) =
      ((probes l).filter fun x ↦ x.Answered).map Exchange.listedId := by
    rw [← h.entries]
    exact List.map_congr_left fun k hk ↦ by rw [hround.kept k (List.mem_range.1 hk)]
  have hle := h.index
  refine ⟨?_, ?_⟩
  · rw [probes_append, hround.probes, List.filter_append, List.map_append, hround.index]
    by_cases hans : x.Answered
    · rw [if_pos hans, List.range_succ, List.map_append, hold, List.map_singleton,
        hround.entry hans]
      simp [hans]
    · rw [if_neg hans, Nat.add_zero, hold]
      simp [hans]
  · rw [hround.index]
    split_ifs <;> omega

/-- **`enum_disk` lists** the drives whose question was answered, and no others. -/
theorem enumDisk_entries (uninit : Extensions) (m : Machine σ) :
    (List.range (enumDisk env uninit m).state.totalDiskCnt.toNat).map
        (fun k ↦ ((enumDisk env uninit m).state.diskList k).diskId) =
      ((probes (enumDisk env uninit m).events).filter fun x ↦ x.Answered).map
        Exchange.listedId := by
  obtain ⟨t, ht⟩ : ∃ t, t = TraceM.forRange 128 ⟨0, uninit⟩
      (fun i s ↦ probeDrive env (driveId i) s) { m with site := .probe } := ⟨_, rfl⟩
  have hinv : Entered 128 t.val t.state t.events := by
    rw [ht]
    refine TraceM.forRange_invariant Entered ⟨rfl, Nat.le_refl 0⟩ ?_
    exact fun i s m l _ h ↦ h.step (driveId i)
  have hle := hinv.index
  have htotal : (UInt32.ofNat t.val.index).toNat = t.val.index := by
    rw [UInt32.toNat_ofNat']
    omega
  rw [run_enumDisk uninit m ht, htotal]
  exact hinv.entries

/-- **Only the drives that were found are listed**: the entries are those whose question for the
parameters came back without the carry flag. -/
def ListsFound (t : Traced (Machine σ) Event Unit) : Prop :=
  (List.range t.state.totalDiskCnt.toNat).map (fun k ↦ (t.state.diskList k).diskId) =
    ((probes t.events).filter fun x ↦ x.carry = false).map fun x ↦ x.req.reg.dl

theorem listsFound_iff (uninit : Extensions) (m : Machine σ) :
    ListsFound (enumDisk env uninit m) ↔
      ∀ x ∈ probes (enumDisk env uninit m).events, ¬x.Silent := by
  obtain ⟨ps, hps⟩ : ∃ ps, ps = probes (enumDisk env uninit m).events := ⟨_, rfl⟩
  rw [ListsFound, enumDisk_entries, ← hps]
  constructor
  · intro h x hx hsilent
    have hlen := congrArg List.length h
    rw [List.length_map, List.length_map] at hlen
    have hsub : (ps.filter fun x ↦ x.carry = false).Sublist (ps.filter fun x ↦ x.Answered) :=
      List.monotone_filter_right ps fun x hc ↦
        decide_eq_true (Or.inl (of_decide_eq_true hc))
    have heq := hsub.eq_of_length hlen.symm
    have hmem : x ∈ ps.filter fun x ↦ x.Answered :=
      List.mem_filter.2 ⟨hx, decide_eq_true (Or.inr hsilent.2)⟩
    rw [← heq, List.mem_filter, decide_eq_true_iff, hsilent.1] at hmem
    exact Bool.true_eq_false.mp hmem.2
  · intro h
    have hfilter : (ps.filter fun x ↦ x.Answered) = ps.filter fun x ↦ x.carry = false := by
      refine List.filter_congr fun x hx ↦ decide_eq_decide.2 ?_
      refine ⟨fun hans ↦ ?_, Or.inl⟩
      by_contra hc
      exact h x hx ⟨by simpa using hc, hans.resolve_left hc⟩
    rw [hfilter]
    refine List.map_congr_left fun x hx ↦ ?_
    rw [List.mem_filter, decide_eq_true_iff] at hx
    simp [Exchange.listedId, hx.2]

/-- **When the carry flag decides.** An accepted call of the request layer is one exchange, and it
returns 0 exactly on a clear carry flag unless that exchange failed without a status; and a run of
`enum_disk` lists the drives that were found unless it asked for parameters in such an exchange. -/
theorem carry_decides_iff (env : Env σ) :
    (∀ call : DiskCall, call.Accepted → ∀ m, ∃ x, exchanges (call.run env m).events = [x] ∧
      (((call.run env m).val = 0 ↔ x.carry = false) ↔ ¬x.Silent)) ∧
    (∀ uninit m, ListsFound (enumDisk env uninit m) ↔
      ∀ x ∈ probes (enumDisk env uninit m).events, ¬x.Silent) := by
  refine ⟨fun call hcall m ↦ ?_, fun uninit m ↦ listsFound_iff uninit m⟩
  obtain ⟨x, hx⟩ : ∃ x, OneExchange x (call.run env m) := DiskCall.exists_exchange hcall m
  exact ⟨x, hx.asks, hx.eq_zero_iff⟩

/-- The BIOS that fails every request, without a status. -/
def speechless : Env Unit := Env.ofBios (fun _ q ↦ ⟨true, q.withStatus 0, ()⟩) fun _ ↦ 0

/-- Drive `80h` cannot be described, and `get_disk_param` returns 0. -/
theorem speechless_getDiskParam :
    ¬∀ x ∈ exchanges ((DiskCall.getDiskParam 0x80).run speechless (Machine.fresh () 1)).events,
      ((DiskCall.getDiskParam 0x80).run speechless (Machine.fresh () 1)).val = 0 ↔
        x.carry = false := by
  intro h
  have hx := h _ List.mem_cons_self
  exact absurd (hx.1 rfl) (by decide)

/-! ### The passes -/

section passes

variable {opt : Options} {param : DiskParam} {offset : UInt64} {n size : UInt32}

/-- **The result of a call of `wipe_sectors_lba` speaks for all of its passes**, whatever the BIOS
does: it is 0 exactly when each of the 3 or 4 writes has returned 0. -/
def SpeaksForAll (opt : Options) (param : DiskParam) (offset : UInt64) (n size : UInt32) : Prop :=
  ∀ (σ : Type) (env : Env σ) buffer m,
    (wipeSectorsLba env opt param offset n buffer size m).val.ret = 0 ↔
      returns (wipeSectorsLba env opt param offset n buffer size m).events =
        (List.range (passCount opt)).map fun i ↦ (.passWrite i, 0)

theorem passCount_ge (opt : Options) : 3 ≤ passCount opt := by
  rw [passCount]
  split_ifs <;> omega

/-- Passes that all returned 0: there is one, and none returned anything else. -/
theorem of_allZero {l : List Event}
    (h : returns l = (List.range (passCount opt)).map fun i ↦ (.passWrite i, 0)) :
    (∃ p, p ∈ returns l) ∧ ∀ p ∈ returns l, p.2 = 0 := by
  have hpos := passCount_ge opt
  rw [h]
  refine ⟨⟨_, List.mem_map.2 ⟨0, List.mem_range.2 (by omega), rfl⟩⟩, fun p hp ↦ ?_⟩
  obtain ⟨i, -, rfl⟩ := List.mem_map.1 hp
  rfl

/-- In the multi-pass modes a call is the loop over its passes, in either branch. -/
theorem wipeSectorsLba_passes (htest : opt.test = false) (hmode : opt.mode ≠ .fast)
    (R : ℤ → List (Call × ℤ) → List Exchange → Prop) (buffer : Buffer) (m : Machine σ)
    (hlba : param.hasExt ≠ 0 →
      R (passLoop opt (writeSectorsLba env param offset n) buffer size m).val.ret
        (returns (passLoop opt (writeSectorsLba env param offset n) buffer size m).events)
        (exchanges (passLoop opt (writeSectorsLba env param offset n) buffer size m).events))
    (hchs : param.hasExt = 0 → ∀ a, lba2chs param offset = some a →
      R (passLoop opt (writeSectorsChs env param a n) buffer size m).val.ret
        (returns (passLoop opt (writeSectorsChs env param a n) buffer size m).events)
        (exchanges (passLoop opt (writeSectorsChs env param a n) buffer size m).events))
    (hnone : param.hasExt = 0 → lba2chs param offset = none → R (-1) [] []) :
    R (wipeSectorsLba env opt param offset n buffer size m).val.ret
      (returns (wipeSectorsLba env opt param offset n buffer size m).events)
      (exchanges (wipeSectorsLba env opt param offset n buffer size m).events) := by
  by_cases hext : param.hasExt = 0
  · rw [run_wipeSectorsLba_chs hext]
    cases ha : lba2chs param offset with
    | none =>
      simp only [returns_divide_map, exchanges_divide_map]
      exact hnone hext ha
    | some a =>
      have hrun := hchs hext a ha
      simpa [wipeSectorsChs, htest, hmode, returns_divide_map, exchanges_divide_map] using hrun
  · have hrun := hlba hext
    simpa [wipeSectorsLba, wipeSectorsExt, hext, htest, hmode] using hrun

theorem fillPass_bios (i : ℕ) (buffer : Buffer) (k : ℕ) (m : Machine σ) :
    (fillPass opt i buffer k m).state.bios = m.bios := by
  rw [fillPass]
  split_ifs
  · rfl
  · rfl
  · rw [run_fillRand]

/-- A round of the loop is its write, of some buffer and from the site of the pass. -/
theorem run_passRound (write : Buffer → UInt32 → Bool → Prog σ Xfer) (i : ℕ) (x : Xfer)
    (m : Machine σ) :
    ∃ (b : Buffer) (m' : Machine σ) (t : Traced (Machine σ) Event Xfer),
      m'.bios = m.bios ∧ m'.site = .pass i ∧
      t = write b size (opt.check || opt.mode = .ocd) m' ∧
      passRound opt write size i x m =
        ⟨t.val, t.state, t.events ++ [.returned (.passWrite i) t.val.ret]⟩ := by
  obtain ⟨f, hf⟩ : ∃ f, f = fillPass opt i x.buffer size.toNat m := ⟨_, rfl⟩
  have hfevents : f.events = [] := by
    rw [hf]
    exact fillPass_events _ _ _ _
  refine ⟨f.val, { f.state with site := .pass i }, _, ?_, rfl, rfl, ?_⟩
  · rw [hf]
    exact fillPass_bios i x.buffer size.toNat m
  · simp [passRound, enter, TraceM.run_bind, ← hf, hfevents]

/-! #### The results of the passes -/

/-- **What the BIOS makes of pass `i`**: what the last exchange of the pass comes to, the write or
the verification of it, and 0 if the pass has none. -/
def passResult (opt : Options) (i : ℕ) (xs : List Exchange) : ℤ :=
  ((xs.filter fun x ↦ x.site = .pass i).getLast?.map (Exchange.result opt)).getD 0

theorem passResult_append_of_ne {i : ℕ} (xs : List Exchange) {ys : List Exchange}
    (h : ∀ y ∈ ys, y.site ≠ .pass i) : passResult opt i (xs ++ ys) = passResult opt i xs := by
  have hnil : (ys.filter fun x ↦ x.site = .pass i) = [] := by
    simpa [List.filter_eq_nil_iff] using h
  rw [passResult, passResult, List.filter_append, hnil, List.append_nil]

theorem passResult_append_of_eq {i : ℕ} {xs ys : List Exchange} (hxs : ∀ x ∈ xs, x.site ≠ .pass i)
    (hys : ∀ y ∈ ys, y.site = .pass i) {z : Exchange} (hz : ys.getLast? = some z) :
    passResult opt i (xs ++ ys) = z.result opt := by
  have hnil : (xs.filter fun x ↦ x.site = .pass i) = [] := by
    simpa [List.filter_eq_nil_iff] using hxs
  have hall : (ys.filter fun x ↦ x.site = .pass i) = ys := by
    simpa [List.filter_eq_self] using hys
  rw [passResult, List.filter_append, hnil, hall, List.nil_append, hz]
  rfl

/-- `write` returns the status of its last exchange, and all its exchanges are made from where the
machine is. -/
def ReturnsLast (write : Buffer → UInt32 → Bool → Prog σ Xfer) (size : UInt32) : Prop :=
  ∀ m check buffer, returns (write buffer size check m).events = [] ∧
    (∀ x ∈ exchanges (write buffer size check m).events, x.site = m.site) ∧
    ∃ z, (exchanges (write buffer size check m).events).getLast? = some z ∧
      (write buffer size check m).val.ret = z.status check

theorem writeSectorsLba_returnsLast (h : ¬lbaRefused true param offset n size) :
    ReturnsLast (writeSectorsLba env param offset n) size := by
  intro m check buffer
  rw [writeSectorsLba_of_not_refused h m rfl]
  exact ⟨rfl, by simp [exchangeAt], _, rfl, rfl⟩

theorem writeSectorsChs_returnsLast {a : Chs} (h : ¬chsRefused true param a n size) :
    ReturnsLast (writeSectorsChs env param a n) size := by
  intro m check buffer
  obtain ⟨x, hx⟩ : ∃ x, x =
      exchangeAt env m (chsAsk env true param a n buffer size m.area) := ⟨_, rfl⟩
  have hsite : x.site = m.site := by rw [hx]; rfl
  by_cases hv : check = false ∨ x.carry = true ∨ x.short param n
  · rw [writeSectorsChs_of_unverified h m hx hv]
    exact ⟨rfl, by simp [hsite], x, rfl, rfl⟩
  · simp only [not_or, Bool.not_eq_false, Bool.not_eq_true] at hv
    obtain ⟨rfl, hc, hfull⟩ := hv
    rw [writeSectorsChs_of_verified h m hx hc hfull rfl]
    exact ⟨rfl, by simp [hsite, exchangeAt, Machine.ask], _, rfl, rfl⟩

/-- **Before pass `i`** each pass so far has returned what the BIOS made of it, and the last of them
is the result. -/
structure PassesDone (opt : Options) (i : ℕ) (x : Xfer) (l : List Event) : Prop where
  returns : returns l = (List.range i).map fun j ↦ (.passWrite j, passResult opt j (exchanges l))
  sites : ∀ y ∈ exchanges l, ∃ j < i, y.site = .pass j
  ret : ∀ j, i = j + 1 → x.ret = passResult opt j (exchanges l)

theorem PassesDone.step {write : Buffer → UInt32 → Bool → Prog σ Xfer} (hw : ReturnsLast write size)
    {i : ℕ} {x : Xfer} {l : List Event} (h : PassesDone opt i x l) (m : Machine σ) :
    PassesDone opt (i + 1) (passRound opt write size i x m).val
      (l ++ (passRound opt write size i x m).events) := by
  obtain ⟨b, m', t, -, hsite, ht, hround⟩ : ∃ b m' t, _ ∧ _ ∧ _ ∧
    passRound opt write size i x m = _ := run_passRound write i x m
  obtain ⟨hrets, hsites, z, hz, hret⟩ : Dwipe.returns t.events = [] ∧
      (∀ y ∈ exchanges t.events, y.site = .pass i) ∧
      ∃ z, (exchanges t.events).getLast? = some z ∧
        t.val.ret = z.status (opt.check || opt.mode = .ocd) := by
    rw [ht, ← hsite]
    exact hw _ _ _
  -- the new exchanges are those of pass `i`, and pass `i` had none before
  have hold (j : ℕ) (hj : j < i) :
      passResult opt j (exchanges l ++ exchanges t.events) = passResult opt j (exchanges l) := by
    refine passResult_append_of_ne _ fun y hy heq ↦ ?_
    rw [hsites y hy, Site.pass.injEq] at heq
    omega
  have hfresh : ∀ y ∈ exchanges l, y.site ≠ .pass i := by
    intro y hy heq
    obtain ⟨j, hj, hsite⟩ := h.sites y hy
    rw [hsite, Site.pass.injEq] at heq
    omega
  have hnew : passResult opt i (exchanges l ++ exchanges t.events) = t.val.ret := by
    rw [passResult_append_of_eq hfresh hsites hz, hret, Exchange.result,
      hsites z (List.mem_of_getLast? hz)]
    rfl
  have hexch : exchanges (l ++ (passRound opt write size i x m).events) =
      exchanges l ++ exchanges t.events := by
    simp [hround]
  refine ⟨?_, ?_, ?_⟩
  · rw [hexch, List.range_succ, List.map_append, List.map_singleton, hnew, hround,
      returns_append, returns_append, hrets, h.returns]
    congr 1
    exact List.map_congr_left fun j hj ↦ by rw [hold j (List.mem_range.1 hj)]
  · rw [hexch]
    intro y hy
    rcases List.mem_append.1 hy with hy | hy
    · obtain ⟨j, hj, hsite⟩ := h.sites y hy
      exact ⟨j, by omega, hsite⟩
    · exact ⟨i, by omega, hsites y hy⟩
  · rintro j hj
    obtain rfl : j = i := by omega
    rw [hexch, hnew, hround]

/-- **The loop returns the result of its last pass**, and records that of each. -/
theorem passLoop_results {write : Buffer → UInt32 → Bool → Prog σ Xfer}
    (hw : ReturnsLast write size) (buffer : Buffer) (m : Machine σ) :
    PassesDone opt (passCount opt) (passLoop opt write buffer size m).val
      (passLoop opt write buffer size m).events := by
  rw [passLoop_eq]
  refine TraceM.forRange_invariant (fun i x _ l ↦ PassesDone opt i x l)
    ⟨rfl, by simp, by simp⟩ ?_
  exact fun i x m l _ h ↦ h.step hw m

/-! #### A refused call -/

/-- A trace in which every recorded return is `-1`. -/
def AllRefused (l : List Event) : Prop := ∀ p ∈ returns l, p.2 = -1

theorem allRefused_appends : TraceM.Appends AllRefused where
  nil := by simp [AllRefused]
  append h h' p hp := by
    rw [returns_append, List.mem_append] at hp
    exact hp.elim (h p) (h' p)

/-- The passes of a refused write all return `-1`. -/
theorem passLoop_refused {write : Buffer → UInt32 → Bool → Prog σ Xfer} (hw : Refuser write size)
    (buffer : Buffer) : TraceM.Records AllRefused (fun x : Xfer ↦ x.ret = -1)
      (passLoop opt write buffer size) := by
  rw [passLoop_eq]
  refine TraceM.Records.forRange allRefused_appends (fun i x _ m ↦ ?_) _ rfl
  refine ⟨?_, ?_⟩
  · simp [AllRefused, passRound, enter, hw _ _ _, fillPass_events]
  · simp [passRound, enter, hw _ _ _]

theorem wipeSectorsLba_refused (htest : opt.test = false) (hmode : opt.mode ≠ .fast)
    (href : callRefused opt param offset n size) (buffer : Buffer) (m : Machine σ) :
    (wipeSectorsLba env opt param offset n buffer size m).val.ret = -1 ∧
      ∀ p ∈ returns (wipeSectorsLba env opt param offset n buffer size m).events, p.2 = -1 := by
  rw [callRefused, htest] at href
  refine wipeSectorsLba_passes htest hmode (fun r ps _ ↦ r = -1 ∧ ∀ p ∈ ps, p.2 = -1) buffer m
    (fun hext ↦ ?_) (fun hext a ha ↦ ?_) fun _ _ ↦ ⟨rfl, by simp⟩
  · rw [if_pos hext] at href
    exact (passLoop_refused (fun m check b ↦ sectorsLbaRw_of_refused href m) buffer m).symm
  · rw [if_neg (not_not.2 hext)] at href
    exact (passLoop_refused (fun m check b ↦ sectorChsRw_of_refused (href a ha) m) buffer m).symm

/-- **When the result of one run speaks for all of its passes**: when a run whose last pass the BIOS
has not failed is a run none of whose passes it has failed. -/
theorem wipeSectorsLba_speaks_iff (htest : opt.test = false) (hmode : opt.mode ≠ .fast)
    (buffer : Buffer) (m : Machine σ) :
    ((wipeSectorsLba env opt param offset n buffer size m).val.ret = 0 ↔
        returns (wipeSectorsLba env opt param offset n buffer size m).events =
          (List.range (passCount opt)).map fun i ↦ (.passWrite i, 0)) ↔
      (passResult opt (passCount opt - 1)
          (exchanges (wipeSectorsLba env opt param offset n buffer size m).events) = 0 →
        ∀ i < passCount opt, passResult opt i
          (exchanges (wipeSectorsLba env opt param offset n buffer size m).events) = 0) := by
  have hpos := passCount_ge opt
  by_cases href : callRefused opt param offset n size
  · -- every pass returns `-1`, and the BIOS has not been asked
    obtain ⟨hret, hall⟩ : (wipeSectorsLba env opt param offset n buffer size m).val.ret = -1 ∧ _ :=
      wipeSectorsLba_refused htest hmode href buffer m
    have hasks : exchanges (wipeSectorsLba env opt param offset n buffer size m).events = [] :=
      (wipeSectorsLba_declined href buffer m).exchanges
    refine iff_of_true (iff_of_false (by rw [hret]; decide) fun hzero ↦ ?_) fun _ i _ ↦ ?_
    · obtain ⟨⟨p, hp⟩, hz⟩ := of_allZero hzero
      have hone := hall p hp
      rw [hz p hp] at hone
      exact absurd hone (by decide)
    · rw [hasks]
      rfl
  have hdone (x : Xfer) (l : List Event) (h : PassesDone opt (passCount opt) x l) :
      (x.ret = 0 ↔ returns l = (List.range (passCount opt)).map fun i ↦ (.passWrite i, 0)) ↔
        (passResult opt (passCount opt - 1) (exchanges l) = 0 →
          ∀ i < passCount opt, passResult opt i (exchanges l) = 0) := by
    rw [h.ret (passCount opt - 1) (by omega), h.returns, List.map_inj_left]
    simp only [List.mem_range, Prod.mk.injEq, true_and]
    exact ⟨fun h hlast ↦ h.1 hlast, fun h ↦ ⟨h, fun hall ↦ hall _ (by omega)⟩⟩
  rw [callRefused, htest] at href
  refine wipeSectorsLba_passes htest hmode
    (fun r ps xs ↦ (r = 0 ↔ ps = (List.range (passCount opt)).map fun i ↦ (.passWrite i, 0)) ↔
      (passResult opt (passCount opt - 1) xs = 0 → ∀ i < passCount opt, passResult opt i xs = 0))
    buffer m (fun hext ↦ ?_) (fun hext a ha ↦ ?_) fun hext hnone ↦ ?_
  · rw [if_pos hext] at href
    exact hdone _ _ (passLoop_results (writeSectorsLba_returnsLast href) buffer m)
  · rw [if_neg (not_not.2 hext)] at href
    have hacc : ¬chsRefused true param a n size := by simpa [ha] using href
    exact hdone _ _ (passLoop_results (writeSectorsChs_returnsLast hacc) buffer m)
  · rw [if_neg (not_not.2 hext)] at href
    exact absurd (fun a ha ↦ by simp [hnone] at ha) href

/-! #### A call whose first pass fails -/

/-- Behind a BIOS that fails the first write request and accepts the others, `write` returns 1 the
first time and 0 from then on. -/
def FirstFails (write : Buffer → UInt32 → Bool → Prog ℕ Xfer) (size : UInt32) : Prop :=
  ∀ m check buffer,
    (write buffer size check m).val.ret = (if m.bios = 0 then 1 else 0) ∧
      (write buffer size check m).state.bios = m.bios + 1 ∧
      returns (write buffer size check m).events = []

/-- What that BIOS makes of a write request. -/
theorem failingFirst_write {m : Machine ℕ} {q : RealArea} (hq : q.reg.ah = 0x03 ∨ q.reg.ah = 0x43)
    {x : Exchange} (hx : x = exchangeAt (failingFirst 1) m q) :
    x.carry = decide (m.bios = 0) ∧ x.res.reg.ah = (if m.bios = 0 then 1 else 0) ∧
      x.res.reg.al = q.reg.al ∧ (m.ask (failingFirst 1) x.req).bios = m.bios + 1 := by
  have hint : (failingFirst 1).int13 m.bios q =
      if m.bios = 0 then ⟨true, q.withStatus 1, m.bios + 1⟩
      else ⟨false, q.withStatus 0, m.bios + 1⟩ := by
    simp only [failingFirst, Env.ofBios, if_pos hq]
    by_cases hb : m.bios = 0
    · simp [hb]
    · simp [hb]
  subst hx
  simp only [exchangeAt, Machine.ask, hint]
  by_cases hb : m.bios = 0
  · simp [hb, RealArea.withStatus]
  · simp [hb, RealArea.withStatus]

/-- And what it makes of a verification, after two writes. -/
theorem failingFirst_verify {m : Machine ℕ} {q : RealArea} (hq : q.reg.ah = 0x04)
    (hb : 1 < m.bios) {y : Exchange} (hy : y = exchangeAt (failingFirst 1) m q) :
    y.carry = false ∧ (m.ask (failingFirst 1) y.req).bios = m.bios := by
  have hint : (failingFirst 1).int13 m.bios q = ⟨false, q.withStatus 0, m.bios⟩ := by
    have hnot : ¬(q.reg.ah = 0x03 ∨ q.reg.ah = 0x43) := by
      rw [hq]
      decide
    simp only [failingFirst, Env.ofBios, if_neg hnot]
    rw [if_neg (by omega)]
  subst hy
  simp only [exchangeAt, Machine.ask, hint, and_self]

theorem writeSectorsLba_firstFails (h : ¬lbaRefused true param offset n size) :
    FirstFails (writeSectorsLba (failingFirst 1) param offset n) size := by
  intro m check buffer
  obtain ⟨x, hx⟩ : ∃ x, x = exchangeAt (failingFirst 1) m
    (lbaAsk (failingFirst 1) true param offset n buffer size check m.area) := ⟨_, rfl⟩
  have hreq : x.req.reg.ah = 0x43 := by rw [hx]; rfl
  obtain ⟨hc, hah, -, hbios⟩ := failingFirst_write (Or.inr rfl) hx
  rw [writeSectorsLba_of_not_refused h m hx]
  refine ⟨?_, hbios, rfl⟩
  rw [Exchange.status, hc, hah, hreq]
  by_cases hb : m.bios = 0
  · simp [hb]
  · simp [hb]

theorem writeSectorsChs_firstFails {a : Chs} (h : ¬chsRefused true param a n size) :
    FirstFails (writeSectorsChs (failingFirst 1) param a n) size := by
  intro m check buffer
  obtain ⟨x, hx⟩ : ∃ x, x = exchangeAt (failingFirst 1) m
    (chsAsk (failingFirst 1) true param a n buffer size m.area) := ⟨_, rfl⟩
  obtain ⟨hc, hah, hal, hbios⟩ := failingFirst_write (Or.inl rfl) hx
  obtain ⟨hn, -⟩ := chs_bounds h
  by_cases hb : m.bios = 0
  · have hfail : x.carry = true := by simp [hc, hb]
    rw [writeSectorsChs_of_unverified h m hx (Or.inr (Or.inl hfail))]
    refine ⟨?_, hbios, rfl⟩
    rw [Exchange.status, hfail, hah]
    simp [hb]
  have hok : x.carry = false := by simp [hc, hb]
  cases check with
  | false =>
    rw [writeSectorsChs_of_unverified h m hx (Or.inl rfl)]
    refine ⟨?_, hbios, rfl⟩
    simp [Exchange.status, hok, hb]
  | true =>
    have hfull : ¬x.short param n := by
      have hcount : x.res.reg.al.toNat = n.toNat := by
        rw [hal]
        exact toUInt8_toNat hn
      rw [short_iff hn]
      omega
    obtain ⟨y, hy⟩ : ∃ y, y = exchangeAt (failingFirst 1) (m.ask (failingFirst 1) x.req)
      (chsRequest (failingFirst 1) param a n 0x04 x.res) := ⟨_, rfl⟩
    have hyreq : y.req.reg.ah = 0x04 := by rw [hy]; rfl
    obtain ⟨hyc, hybios⟩ := failingFirst_verify rfl (by omega) hy
    rw [writeSectorsChs_of_verified h m hx hok hfull hy]
    refine ⟨?_, hybios.trans hbios, rfl⟩
    simp [Exchange.status, hyc, hyreq, hb]

/-- Before pass `i`, the BIOS has seen `i` writes and failed the first. -/
def AfterPasses (i : ℕ) (x : Xfer) (m : Machine ℕ) (l : List Event) : Prop :=
  m.bios = i ∧ (1 < i → x.ret = 0) ∧ (0 < i → (.passWrite 0, 1) ∈ returns l)

theorem AfterPasses.step {write : Buffer → UInt32 → Bool → Prog ℕ Xfer}
    (hw : FirstFails write size) {i : ℕ} {x : Xfer} {m : Machine ℕ} {l : List Event}
    (h : AfterPasses i x m l) :
    AfterPasses (i + 1) (passRound opt write size i x m).val (passRound opt write size i x m).state
      (l ++ (passRound opt write size i x m).events) := by
  obtain ⟨hbios, -, hmem⟩ := h
  obtain ⟨b, m', t, hm, -, ht, hround⟩ : ∃ b m' t, _ ∧ _ ∧ _ ∧
    passRound opt write size i x m = _ := run_passRound write i x m
  rw [hbios] at hm
  obtain ⟨hret, htbios, hrets⟩ : t.val.ret = (if m'.bios = 0 then 1 else 0) ∧
      t.state.bios = m'.bios + 1 ∧ returns t.events = [] := ht ▸ hw _ _ _
  rw [hround]
  refine ⟨by rw [htbios, hm], fun hi ↦ ?_, fun _ ↦ ?_⟩
  · rw [hret, hm, if_neg (by omega)]
  · simp only [returns_append, returns_returned, returns_nil, hrets, List.nil_append,
      List.mem_append, List.mem_singleton]
    rcases Nat.eq_zero_or_pos i with rfl | hi
    · refine Or.inr ?_
      rw [hret, hm, if_pos rfl]
    · exact Or.inl (hmem hi)

/-- **A failed pass is forgotten**: the loop returns 0 though its first pass has returned 1. -/
theorem passLoop_forgets {write : Buffer → UInt32 → Bool → Prog ℕ Xfer}
    (hw : FirstFails write size) (buffer : Buffer) {m : Machine ℕ} (hm : m.bios = 0) :
    (passLoop opt write buffer size m).val.ret = 0 ∧
      (.passWrite 0, 1) ∈ returns (passLoop opt write buffer size m).events := by
  have hcount := passCount_ge opt
  have hinv : AfterPasses (passCount opt) (passLoop opt write buffer size m).val
      (passLoop opt write buffer size m).state (passLoop opt write buffer size m).events := by
    rw [passLoop_eq]
    refine TraceM.forRange_invariant AfterPasses ⟨hm, by simp, by simp⟩ ?_
    exact fun i x s l _ h ↦ h.step hw
  exact ⟨hinv.2.1 (by omega), hinv.2.2 (by omega)⟩

theorem wipeSectorsLba_forgets (htest : opt.test = false) (hmode : opt.mode ≠ .fast)
    (hacc : ¬callRefused opt param offset n size) (buffer : Buffer) {m : Machine ℕ}
    (hm : m.bios = 0) :
    (wipeSectorsLba (failingFirst 1) opt param offset n buffer size m).val.ret = 0 ∧
      (.passWrite 0, 1) ∈
        returns (wipeSectorsLba (failingFirst 1) opt param offset n buffer size m).events := by
  rw [callRefused, htest] at hacc
  refine wipeSectorsLba_passes htest hmode (fun r ps _ ↦ r = 0 ∧ (.passWrite 0, 1) ∈ ps) buffer m
    (fun hext ↦ ?_) (fun hext a ha ↦ ?_) fun hext hnone ↦ ?_
  · rw [if_pos hext] at hacc
    exact passLoop_forgets (writeSectorsLba_firstFails hacc) buffer hm
  · rw [if_neg (not_not.2 hext)] at hacc
    have hacc' : ¬chsRefused true param a n size := by
      simpa [ha] using hacc
    exact passLoop_forgets (writeSectorsChs_firstFails hacc') buffer hm
  · rw [if_neg (not_not.2 hext)] at hacc
    exact absurd (fun a ha ↦ by simp [hnone] at ha) hacc

/-- **When the result of a multi-pass call speaks for all of its passes.** In one run: when no pass
was failed by the BIOS, or the last one was. Whatever the BIOS does: only when the parameters of the
call are refused, so that no pass is issued. -/
theorem multi_pass_result_iff (htest : opt.test = false) (hmode : opt.mode = .dod ∨ opt.mode = .ocd)
    (param : DiskParam) (offset : UInt64) (n size : UInt32) :
    (∀ (σ : Type) (env : Env σ) buffer m,
      ((wipeSectorsLba env opt param offset n buffer size m).val.ret = 0 ↔
        returns (wipeSectorsLba env opt param offset n buffer size m).events =
          (List.range (passCount opt)).map fun i ↦ (.passWrite i, 0)) ↔
      (passResult opt (passCount opt - 1)
          (exchanges (wipeSectorsLba env opt param offset n buffer size m).events) = 0 →
        ∀ i < passCount opt, passResult opt i
          (exchanges (wipeSectorsLba env opt param offset n buffer size m).events) = 0)) ∧
    (SpeaksForAll opt param offset n size ↔ callRefused opt param offset n size) := by
  have hslow : opt.mode ≠ .fast := by
    intro hfast
    rw [hfast] at hmode
    exact absurd hmode (by decide)
  refine ⟨fun σ env buffer m ↦ wipeSectorsLba_speaks_iff htest hslow buffer m, ?_⟩
  constructor
  · intro h
    by_contra hacc
    obtain ⟨hret, hmem⟩ := wipeSectorsLba_forgets htest hslow hacc ⟨0, fun _ ↦ 0⟩
      (m := Machine.fresh 0 1) rfl
    exact absurd ((of_allZero ((h _ _ _ _).1 hret)).2 _ hmem) (by decide)
  · intro href σ env buffer m
    rw [wipeSectorsLba_speaks_iff htest hslow, (wipeSectorsLba_declined href buffer m).exchanges]
    exact fun _ _ _ ↦ rfl

end passes

/-- The options of a three-pass wipe. -/
def Options.threePass : Options := { Options.plain with mode := .dod }

/-- The first of three passes over one sector fails, and the call returns 0. -/
theorem threePass_forgets :
    ¬((wipeSectorsLba (failingFirst 1) Options.threePass (DiskParam.ofSectors 1) 0 1
          ⟨8192, fun _ ↦ 0⟩ 8192 (Machine.fresh 0 1)).val.ret = 0 ↔
      returns (wipeSectorsLba (failingFirst 1) Options.threePass (DiskParam.ofSectors 1) 0 1
          ⟨8192, fun _ ↦ 0⟩ 8192 (Machine.fresh 0 1)).events =
        (List.range (passCount Options.threePass)).map fun i ↦ (.passWrite i, 0)) := by
  have hacc : ¬callRefused Options.threePass (DiskParam.ofSectors 1) 0 1 8192 := by
    rw [callRefused, if_pos (by decide)]
    decide
  obtain ⟨hret, hmem⟩ := wipeSectorsLba_forgets rfl (by decide) hacc ⟨8192, fun _ ↦ 0⟩
    (m := Machine.fresh 0 1) rfl
  exact fun h ↦ absurd ((of_allZero (h.1 hret)).2 _ hmem) (by decide)

/-- Three passes over one sector that the BIOS carries out: the call returns 0, and so has each of
them. A call for a sector the disk does not have is refused in every pass, and says so. -/
theorem threePass_speaks :
    returns (wipeSectorsLba (failingFirst 0) Options.threePass (DiskParam.ofSectors 1) 0 1
        ⟨8192, fun _ ↦ 0⟩ 8192 (Machine.fresh 0 1)).events =
      [(.passWrite 0, 0), (.passWrite 1, 0), (.passWrite 2, 0)] ∧
    SpeaksForAll Options.threePass (DiskParam.ofSectors 1) 1 1 8192 := by
  refine ⟨?_, (multi_pass_result_iff rfl (Or.inl rfl) (DiskParam.ofSectors 1) 1 1 8192).2.2 ?_⟩
  · refine (((multi_pass_result_iff rfl (Or.inl rfl) (DiskParam.ofSectors 1) 0 1 8192).1 ℕ
      (failingFirst 0) ⟨8192, fun _ ↦ 0⟩ (Machine.fresh 0 1)).2 fun _ ↦ ?_).1 ?_
    · decide +kernel
    · decide +kernel
  · rw [callRefused, if_pos (by decide)]
    decide

end Dwipe

import Dwipe.Wipe.Main
import Dwipe.Wipe.Paths
import Dwipe.Wipe.Runs
import Mathlib.Data.Nat.Count

/-!
# What is reported

The value a wipe returns, and the counter it is booked in.

A failed request gives a **positive** value, the status of the BIOS, while the loops of `wipe_disk`
leave on a negative one only and overwrite `ret` in each round. So a failure is forgotten as soon as
another step follows it (`no_silent_failure_iff`), and a failure of the last request is returned as
it is, where `do_main` takes every positive value for a skipped disk (`classified_iff`).
-/

namespace Dwipe

variable {σ : Type} {env : Env σ} {opt : Options} {param : DiskParam}

/-! ### A BIOS that fails for a while -/

theorem failingFirst_reportsErrors (k : ℕ) : (failingFirst k).ReportsErrors := by
  intro b q h
  simp only [failingFirst, Env.ofBios] at h ⊢
  split_ifs at h ⊢ <;> simp_all [RealArea.withStatus]

theorem unreadable_failingFirst (k : ℕ) : Unreadable (failingFirst k) 0 := by
  intro q hq
  simp [failingFirst, Env.ofBios, hq, RealArea.withStatus]

/-- The state of the BIOS after an exchange, and its answer. -/
theorem failingFirst_answer (k b : ℕ) (x : Exchange) :
    ((failingFirst k).int13 b x.req).bios = b + x.write?.toList.length ∧
      ((failingFirst k).int13 b x.req).carry =
        decide (b + x.write?.toList.length ≤ k) ∧
      ((failingFirst k).int13 b x.req).area.reg.ah =
        if b + x.write?.toList.length ≤ k then 1 else 0 := by
  have hseen : (if x.req.reg.ah = 0x03 ∨ x.req.reg.ah = 0x43 then b + 1 else b) =
      b + x.write?.toList.length := by
    rw [Exchange.write?]
    by_cases h3 : x.req.reg.ah = 0x03
    · simp [h3]
    · by_cases h43 : x.req.reg.ah = 0x43
      · simp [h43]
      · simp [h3, h43]
  simp only [failingFirst, Env.ofBios, hseen]
  split_ifs with h <;> simp [h, RealArea.withStatus]

/-- **Along a path of that BIOS** the state counts the write requests, and tells the outcome of the
last exchange. -/
theorem failingFirst_path {k : ℕ} : ∀ {xs : List Exchange} {b b' : ℕ},
    Path (failingFirst k) b xs b' → b' = b + (xs.filterMap Exchange.write?).length ∧
      ∀ z, xs.getLast? = some z →
        z.carry = decide (b' ≤ k) ∧ z.res.reg.ah = if b' ≤ k then 1 else 0
  | [], _, _, h => ⟨h.symm, by simp⟩
  | x :: xs, b, b', h => by
    obtain ⟨hcarry, hres, hpath⟩ := h
    obtain ⟨hbios, hc, hah⟩ := failingFirst_answer k b x
    rw [hbios] at hpath
    obtain ⟨hcount, hlast⟩ := failingFirst_path hpath
    have hlen : ((x :: xs).filterMap Exchange.write?).length =
        x.write?.toList.length + (xs.filterMap Exchange.write?).length := by
      cases hw : x.write? <;> simp [hw, Nat.add_comm]
    refine ⟨by omega, fun z hz ↦ ?_⟩
    cases xs with
    | nil =>
      obtain rfl : x = z := by simpa using hz
      have hb' : b' = b + x.write?.toList.length := hcount
      rw [hcarry, hres, hc, hah, hb']
      exact ⟨rfl, rfl⟩
    | cons y ys => exact hlast z (by rwa [List.getLast?_cons_cons] at hz)

theorem failingFirst_result {k : ℕ} {xs : List Exchange} {b b' : ℕ}
    (h : Path (failingFirst k) b xs b') {z : Exchange} (hz : xs.getLast? = some z) :
    z.result opt = if b' ≤ k then 1 else 0 := by
  obtain ⟨hcarry, hah⟩ := (failingFirst_path h).2 z hz
  rw [Exchange.result, Exchange.status, hcarry, hah]
  by_cases hk : b' ≤ k
  · simp [hk]
  · simp [hk]

/-! ### Silent failures -/

/-- **No silent failure**: whenever `wipe_disk` returns 0, every `wipe_sectors_lba` call it made has
returned 0, and so has the MBR write. -/
def NoSilentFailure (opt : Options) (param : DiskParam) : Prop :=
  ∀ (σ : Type) (env : Env σ) (m : Machine σ), env.ReportsErrors →
    (isSkipedDisk env opt param m).val = 0 → (wipeDisk env opt param m).val = 0 →
    ∀ p ∈ stepReturns (wipeDisk env opt param m).events, p.2 = 0

theorem length_stepWrites (mbrBin byte : ℕ → UInt8) (r : UInt64) {offset : UInt64} {n : UInt32}
    (htest : opt.test = false) (h : ¬refused opt param (.wipeSectorsLba offset n)) :
    (stepWrites opt param mbrBin byte r (.wipeSectorsLba offset n)).length = passes opt := by
  obtain ⟨target, htarget⟩ := aimedAt_isSome h
  rw [stepWrites, callWrites, htest, if_neg (by simp), htarget, Option.toList_some,
    List.flatMap_singleton, passWrites, List.length_map, List.length_range]

/-- Every step of the plan is a call of `wipe_sectors_lba`, but for an MBR write at its end. -/
theorem mem_wipePlan {c : Call} (h : c ∈ wipePlan opt param) :
    ∃ offset n, c = .wipeSectorsLba offset n := by
  rw [wipePlan, chunkPlan, remainderPlan, List.mem_append, List.mem_map] at h
  rcases h with ⟨i, -, rfl⟩ | h
  · exact ⟨_, _, rfl⟩
  · split_ifs at h
    · exact ⟨_, _, List.mem_singleton.1 h⟩
    · exact absurd h List.not_mem_nil

theorem length_stepWrites_pos (mbrBin byte : ℕ → UInt8) (r : UInt64) {c : Call}
    (htest : opt.test = false) (hc : c ∈ plan opt param) (h : ¬refused opt param c) :
    0 < (stepWrites opt param mbrBin byte r c).length := by
  rw [plan, List.mem_append] at hc
  rcases hc with hc | hc
  · obtain ⟨offset, n, rfl⟩ := mem_wipePlan hc
    rw [length_stepWrites _ _ _ htest h]
    exact passes_pos opt
  · obtain rfl := eq_of_mem_mbrPlan hc
    exact Nat.zero_lt_one

/-- A plan of two steps or more begins with a call of `wipe_sectors_lba`. -/
theorem head_plan {c d : Call} {cs : List Call} (h : plan opt param = c :: d :: cs) :
    ∃ offset n, c = .wipeSectorsLba offset n := by
  cases hw : wipePlan opt param with
  | nil =>
    rw [plan, hw, List.nil_append, mbrPlan] at h
    split_ifs at h
    simp at h
  | cons e es =>
    rw [plan, hw, List.cons_append, List.cons_eq_cons] at h
    exact mem_wipePlan (h.1 ▸ hw ▸ List.mem_cons_self)

/-- A single step has returned the value of the run. -/
theorem Ran.stepReturns_singleton {mbrBin byte : ℕ → UInt8} {r : UInt64} {c : Call} {ret : ℤ}
    {l : List Event} (h : Ran opt param mbrBin byte r [c] ret l) : stepReturns l = [(c, ret)] := by
  have hcalls := h.calls
  have hval := h.value
  obtain ⟨p, hp⟩ : ∃ p, stepReturns l = [p] :=
    List.length_eq_one_iff.1 (by simpa using congrArg List.length hcalls)
  rw [hp] at hcalls hval ⊢
  obtain rfl : p.1 = c := by simpa using hcalls
  obtain rfl : ret = p.2 := by simpa using hval
  rfl

/-- **A failure of the first step is forgotten** when a second one follows. -/
theorem exists_silent_failure (htest : opt.test = false) (hp : isCdrom param = 0)
    (hacc : ∀ c ∈ plan opt param, ¬refused opt param c) {c d : Call} {cs : List Call}
    (hplan : plan opt param = c :: d :: cs) :
    (wipeDisk (failingFirst (passes opt)) opt param (Machine.fresh 0 1)).val = 0 ∧
      (c, 1) ∈ stepReturns
        (wipeDisk (failingFirst (passes opt)) opt param (Machine.fresh 0 1)).events := by
  obtain ⟨t, ht⟩ : ∃ t, t =
      wipeDisk (failingFirst (passes opt)) opt param (Machine.fresh 0 1) := ⟨_, rfl⟩
  have hstart : Starts (failingFirst (passes opt)) opt param (Machine.fresh 0 1) fun _ ↦ 0 :=
    ⟨isSkipedDisk_of_unreadable hp (unreadable_failingFirst _), rfl⟩
  have hran : Ran opt param _ _ _ (plan opt param) t.val t.events := ht ▸ hstart.ran hacc
  have hpath : Path (failingFirst (passes opt)) 0 (exchanges t.events) t.state.bios :=
    ht ▸ wipeDisk_path _ opt param (Machine.fresh 0 1)
  have hmem (e : Call) (he : e = c ∨ e = d) : e ∈ plan opt param := by
    rw [hplan]
    rcases he with rfl | rfl <;> simp
  obtain ⟨offset, n, rfl⟩ := head_plan hplan
  have hc := hacc _ (hmem _ (Or.inl rfl))
  rw [hplan] at hran
  rw [← ht]
  constructor
  · -- the last exchange comes after more write requests than are failed
    obtain ⟨z, hz, hret⟩ := hran.last (List.cons_ne_nil _ _)
    have hcount := (failingFirst_path hpath).1
    have hwrites : ((exchanges t.events).filterMap Exchange.write?) = _ := hran.writes
    have hd := length_stepWrites_pos (failingFirst (passes opt)).mbrBin (fun _ ↦ 0)
      (stepRand opt (Machine.fresh 0 1).randNext (.wipeSectorsLba offset n)) htest
      (hmem d (Or.inr rfl)) (hacc d (hmem d (Or.inr rfl)))
    rw [hwrites, runWrites, runWrites, List.length_append, List.length_append,
      length_stepWrites _ _ _ htest hc] at hcount
    rw [hret, failingFirst_result hpath hz, if_neg (by omega)]
  · -- the last exchange of the first step is one of those that are failed
    obtain ⟨ret₁, l₁, l₂, hl, hfirst⟩ :=
      hran.of_prefix (List.prefix_append [Call.wipeSectorsLba offset n] (d :: cs))
    rw [hl, exchanges_append, path_append] at hpath
    obtain ⟨b₁, hpath₁, -⟩ := hpath
    obtain ⟨z, hz, hret⟩ := hfirst.last (List.cons_ne_nil _ _)
    have hcount := (failingFirst_path hpath₁).1
    have hwrites : ((exchanges l₁).filterMap Exchange.write?) = _ := hfirst.writes
    rw [hwrites, runWrites, runWrites, List.append_nil, length_stepWrites _ _ _ htest hc] at hcount
    have hone : ret₁ = 1 := by rw [hret, failingFirst_result hpath₁ hz, if_pos (by omega)]
    rw [hl, stepReturns_append, hfirst.stepReturns_singleton, hone]
    exact List.mem_append_left _ List.mem_cons_self

/-- **`wipe_disk` fails silently** unless the drive is skipped as a CD-ROM, a step is refused, or
there are not two steps. -/
theorem no_silent_failure_iff (opt : Options) (param : DiskParam) (htest : opt.test = false) :
    NoSilentFailure opt param ↔ isCdrom param ≠ 0 ∨ (∃ c ∈ plan opt param, refused opt param c) ∨
      (plan opt param).length ≤ 1 := by
  constructor
  · intro h
    by_contra hcond
    push Not at hcond
    obtain ⟨hp, hacc, hlen⟩ := hcond
    obtain ⟨c, d, cs, hplan⟩ : ∃ c d cs, plan opt param = c :: d :: cs := by
      match hpl : plan opt param, hlen with
      | c :: d :: cs, _ => exact ⟨c, d, cs, rfl⟩
    obtain ⟨hval, hmem⟩ := exists_silent_failure htest hp hacc hplan
    have hzero := h ℕ (failingFirst (passes opt)) (Machine.fresh 0 1)
      (failingFirst_reportsErrors _)
      (isSkipedDisk_of_unreadable hp (unreadable_failingFirst _)) hval _ hmem
    exact absurd hzero Int.one_ne_zero
  · rintro h σ env m - hkept hval
    have hp := isCdrom_of_not_skiped rfl hkept
    cases hmem : env.malloc (isSkipedDisk env opt param m).state.ticks with
    | none =>
      rw [wipeDisk_of_no_memory rfl hkept hmem] at hval
      exact absurd hval (Int.negSucc_ne_zero 0)
    | some byte =>
      have hstart : Starts env opt param m byte := ⟨hkept, hmem⟩
      by_cases href : ∃ c ∈ plan opt param, refused opt param c
      · rw [hstart.val_of_refused href] at hval
        exact absurd hval (by decide)
      · have hlen : (plan opt param).length ≤ 1 := by
          rcases h with h | h | h
          · exact absurd hp h
          · exact absurd h href
          · exact h
        push Not at href
        have hran := hstart.ran href
        -- with at most one step, the value of the run is what that step returned
        intro p hpmem
        have hcalls := congrArg List.length hran.calls
        rw [List.length_map] at hcalls
        have hvalue := hran.value
        obtain ⟨q, hq⟩ : ∃ q, stepReturns (wipeDisk env opt param m).events = [q] :=
          List.length_eq_one_iff.1 (by have := List.length_pos_of_mem hpmem; omega)
        rw [hq, List.mem_singleton] at hpmem
        rw [hq, hval] at hvalue
        simpa [hpmem] using hvalue.symm

/-- Sixteen sectors are one step. -/
theorem no_silent_failure_sixteen : NoSilentFailure Options.plain (DiskParam.ofSectors 16) :=
  (no_silent_failure_iff _ _ rfl).2 (Or.inr (Or.inr (by decide)))

/-- Seventeen sectors are two steps, and the failure of the first one is not reported. -/
theorem silent_failure_seventeen : ¬NoSilentFailure Options.plain (DiskParam.ofSectors 17) := by
  intro h
  have hp : isCdrom (DiskParam.ofSectors 17) = 0 := by decide
  have hmbr : plan Options.plain (DiskParam.ofSectors 17) =
      wipePlan Options.plain (DiskParam.ofSectors 17) := List.append_nil _
  have hacc : ∀ c ∈ plan Options.plain (DiskParam.ofSectors 17),
      ¬refused Options.plain (DiskParam.ofSectors 17) c := by
    rw [hmbr]
    exact wipePlan_accepted_ext Options.plain (by decide) (by decide) rfl
  have hplan : plan Options.plain (DiskParam.ofSectors 17) =
      [.wipeSectorsLba 0 16, .wipeSectorsLba 16 1] := by decide
  obtain ⟨hval, hmem⟩ := exists_silent_failure rfl hp hacc hplan
  have hzero := h ℕ (failingFirst _) (Machine.fresh 0 1) (failingFirst_reportsErrors _)
    (isSkipedDisk_of_unreadable hp (unreadable_failingFirst _)) hval _ hmem
  exact absurd hzero Int.one_ne_zero

/-! ### The counters -/

/-- The machine in which disk `i` of the list is wiped. -/
def before (env : Env σ) (opt : Options) (m : Machine σ) (i : ℕ) : Machine σ :=
  (wipeFirst env opt i m).state

/-- Whether `is_skiped_disk` holds of disk `i` of the list. -/
def skipedAt (env : Env σ) (opt : Options) (m : Machine σ) (i : ℕ) : Prop :=
  (isSkipedDisk env opt (m.diskList i) (before env opt m i)).val ≠ 0

/-- What `wipe_disk` returns for disk `i` of the list. -/
def returnedAt (env : Env σ) (opt : Options) (m : Machine σ) (i : ℕ) : ℤ :=
  (wipeDisk env opt (m.diskList i) (before env opt m i)).val

instance (env : Env σ) (opt : Options) (m : Machine σ) : DecidablePred (skipedAt env opt m) :=
  fun _ ↦ inferInstanceAs (Decidable (_ ≠ _))

/-- **The report classifies every disk**: the counters add up to the number of disks, the skipped
ones are those `is_skiped_disk` holds of, and every other disk whose wipe did not succeed is an
error. -/
structure Classified (env : Env σ) (opt : Options) (m : Machine σ) : Prop where
  total : (wipeAll env opt m).state.doneDiskCnt.toNat + (wipeAll env opt m).state.errorDiskCnt.toNat
      + (wipeAll env opt m).state.skipedDiskCnt.toNat = (wipeAll env opt m).state.totalDiskCnt.toNat
  skiped : (wipeAll env opt m).state.skipedDiskCnt.toNat =
    Nat.count (skipedAt env opt m) m.totalDiskCnt.toNat
  error : (wipeAll env opt m).state.errorDiskCnt.toNat =
    Nat.count (fun i ↦ ¬skipedAt env opt m i ∧ returnedAt env opt m i ≠ 0) m.totalDiskCnt.toNat

/-- Disk `i` was wiped, with every request accepted by the checks, and the BIOS failed the **last**
request. -/
def LastFailed (env : Env σ) (opt : Options) (param : DiskParam) (m : Machine σ) : Prop :=
  (∃ byte, Starts env opt param m byte) ∧ plan opt param ≠ [] ∧
    (∀ c ∈ plan opt param, ¬refused opt param c) ∧
    ∃ z, (exchanges (wipeDisk env opt param m).events).getLast? = some z ∧ 0 < z.result opt

section counters

variable {m : Machine σ}

/-- **Any other disk is reported with a positive value just when its last request failed.** -/
theorem val_pos_iff (h : (isSkipedDisk env opt param m).val = 0) :
    0 < (wipeDisk env opt param m).val ↔ LastFailed env opt param m := by
  cases hmem : env.malloc (isSkipedDisk env opt param m).state.ticks with
  | none =>
    have hval : (wipeDisk env opt param m).val = -1 := by rw [wipeDisk_of_no_memory rfl h hmem]
    rw [hval]
    refine iff_of_false (by decide) ?_
    rintro ⟨⟨byte, hstart⟩, -⟩
    rw [hstart.memory] at hmem
    exact Option.some_ne_none _ hmem
  | some byte =>
    have hstart : Starts env opt param m byte := ⟨h, hmem⟩
    by_cases href : ∃ c ∈ plan opt param, refused opt param c
    · rw [hstart.val_of_refused href]
      refine iff_of_false (by decide) ?_
      rintro ⟨-, -, hacc, -⟩
      obtain ⟨c, hc, hc'⟩ := href
      exact hacc c hc hc'
    · push Not at href
      have hran := hstart.ran href
      by_cases hnil : plan opt param = []
      · have hval := hran.value
        rw [hnil] at hran
        rw [List.map_eq_nil_iff.1 hran.calls] at hval
        rw [hval]
        exact iff_of_false (by decide) fun hl ↦ hl.2.1 hnil
      · obtain ⟨z, hz, hret⟩ := hran.last hnil
        rw [hret]
        constructor
        · exact fun hpos ↦ ⟨⟨byte, hstart⟩, hnil, href, z, hz, hpos⟩
        · rintro ⟨-, -, -, y, hy, hpos⟩
          rw [hz, Option.some_inj] at hy
          exact hy ▸ hpos

/-- The counters have not been used yet, as after the start of the program. -/
structure Unreported (m : Machine σ) : Prop where
  done : m.doneDiskCnt = 0
  error : m.errorDiskCnt = 0
  skiped : m.skipedDiskCnt = 0

/-- The globals after `n` rounds of the wipe loop: the list as it was, and each returned value
booked by its sign. -/
structure Booked (env : Env σ) (opt : Options) (m : Machine σ) (n : ℕ) : Prop where
  diskList : (before env opt m n).diskList = m.diskList
  total : (before env opt m n).totalDiskCnt = m.totalDiskCnt
  done : (before env opt m n).doneDiskCnt.toNat = Nat.count (fun i ↦ returnedAt env opt m i = 0) n
  error : (before env opt m n).errorDiskCnt.toNat =
    Nat.count (fun i ↦ returnedAt env opt m i < 0) n
  skiped : (before env opt m n).skipedDiskCnt.toNat =
    Nat.count (fun i ↦ 0 < returnedAt env opt m i) n

theorem before_succ (n : ℕ) :
    before env opt m (n + 1) = (wipeListed env opt n (before env opt m n)).state := by
  rw [before, wipeFirst, TraceM.forRange_succ]
  rfl

/-- A counter that has room for one more entry. -/
theorem toNat_add_of_count {p : ℕ → Prop} [DecidablePred p] {n : ℕ} {x : UInt32}
    (hx : x.toNat = Nat.count p n) (hn : n < 2 ^ 32 - 1) {c : Prop} [Decidable c]
    (hc : p n ↔ c) : (x + if c then 1 else 0).toNat = Nat.count p (n + 1) := by
  have hle : Nat.count p n ≤ n := Nat.count_le p
  have h1 : (if c then 1 else 0 : UInt32).toNat = if p n then 1 else 0 := by
    simp only [hc]
    split_ifs <;> rfl
  rw [UInt32.toNat_add, hx, h1, Nat.count_succ]
  exact Nat.mod_eq_of_lt (by split_ifs <;> omega)

/-- **One round books one value**, in the counter of its sign; the number of rounds is below 2^32,
so none of them wraps. -/
theorem Booked.step {n : ℕ} (h : Booked env opt m n) (hn : n < 2 ^ 32 - 1) :
    Booked env opt m (n + 1) := by
  obtain ⟨t, ht⟩ : ∃ t, t = wipeDisk env opt (m.diskList n) (before env opt m n) := ⟨_, rfl⟩
  have hglob : SameGlobals (before env opt m n) t.state := ht ▸ wipeDisk_globals _ _ _ _
  have hret : returnedAt env opt m n = t.val := by rw [ht]; rfl
  have hnext : before env opt m (n + 1) = (book t.val t.state).state := by
    rw [before_succ, run_wipeListed n (h.diskList ▸ ht)]
  rw [book_state] at hnext
  refine ⟨?_, ?_, ?_, ?_, ?_⟩
  · rw [hnext, hglob.diskList, h.diskList]
  · rw [hnext, hglob.totalDiskCnt, h.total]
  · rw [hnext, toNat_add_of_count (hglob.doneDiskCnt ▸ h.done) hn (by rw [hret])]
  · rw [hnext, toNat_add_of_count (hglob.errorDiskCnt ▸ h.error) hn (by rw [hret])]
  · rw [hnext, toNat_add_of_count (hglob.skipedDiskCnt ▸ h.skiped) hn (by rw [hret])]

/-- **The wipe loop books every value.** -/
theorem Unreported.booked (h0 : Unreported m) : ∀ n < 2 ^ 32, Booked env opt m n
  | 0, _ => by
    refine ⟨rfl, rfl, ?_, ?_, ?_⟩
    · rw [Nat.count_zero]
      exact congrArg UInt32.toNat h0.done
    · rw [Nat.count_zero]
      exact congrArg UInt32.toNat h0.error
    · rw [Nat.count_zero]
      exact congrArg UInt32.toNat h0.skiped
  | n + 1, hn => (h0.booked n (by omega)).step (by omega)

/-- Of two nested predicates, the one counts as many as the other only where they agree. -/
theorem count_eq_iff_of_imp {p q : ℕ → Prop} [DecidablePred p] [DecidablePred q]
    (h : ∀ i, p i → q i) (n : ℕ) :
    Nat.count p n = Nat.count q n ↔ ∀ i < n, q i → p i := by
  induction n with
  | zero => simp
  | succ n ih =>
    have hle : Nat.count p n ≤ Nat.count q n := Nat.count_mono_left fun i _ ↦ h i
    rw [Nat.count_succ, Nat.count_succ]
    constructor
    · intro heq i hi hq
      by_cases hp : p n
      · rw [if_pos hp, if_pos (h n hp), Nat.add_right_cancel_iff, ih] at heq
        rcases Nat.lt_succ_iff_lt_or_eq.1 hi with hi | rfl
        · exact heq i hi hq
        · exact hp
      · have hqn : ¬q n := fun hqn ↦ by
          rw [if_neg hp, if_pos hqn] at heq
          omega
        rw [if_neg hp, if_neg hqn, Nat.add_right_cancel_iff, ih] at heq
        rcases Nat.lt_succ_iff_lt_or_eq.1 hi with hi | rfl
        · exact heq i hi hq
        · exact absurd hq hqn
    · intro hqp
      have hn : p n ↔ q n := ⟨h n, hqp n (Nat.lt_succ_self n)⟩
      rw [ih.2 fun i hi ↦ hqp i (Nat.lt_succ_of_lt hi)]
      simp only [hn]

/-- The three signs exhaust the disks, so the counters add up to their number. -/
theorem count_signs (f : ℕ → ℤ) (n : ℕ) :
    Nat.count (fun i ↦ f i = 0) n + Nat.count (fun i ↦ f i < 0) n
      + Nat.count (fun i ↦ 0 < f i) n = n := by
  induction n with
  | zero => simp
  | succ n ih =>
    simp only [Nat.count_succ]
    rcases Int.lt_trichotomy (f n) 0 with h | h | h <;> split_ifs <;> omega

/-- The report is right just when no positive value comes from a disk that was not skipped. -/
theorem classified_iff_skiped (h0 : Unreported m) :
    Classified env opt m ↔
      ∀ i < m.totalDiskCnt.toNat, 0 < returnedAt env opt m i → skipedAt env opt m i := by
  have hbooked : Booked env opt m m.totalDiskCnt.toNat := h0.booked _ m.totalDiskCnt.toNat_lt
  have hall : (wipeAll env opt m).state = before env opt m m.totalDiskCnt.toNat := rfl
  have himp (i : ℕ) (hi : skipedAt env opt m i) : 0 < returnedAt env opt m i := by
    rw [returnedAt, wipeDisk_val_of_skiped hi]
    exact Int.one_pos
  have hneg (i : ℕ) (hi : returnedAt env opt m i < 0) :
      ¬skipedAt env opt m i ∧ returnedAt env opt m i ≠ 0 := by
    refine ⟨fun hs ↦ ?_, hi.ne⟩
    have hpos := himp i hs
    omega
  constructor
  · intro h
    have hcount := h.skiped
    rw [hall, hbooked.skiped] at hcount
    exact (count_eq_iff_of_imp himp _).1 hcount.symm
  · intro h
    refine ⟨?_, ?_, ?_⟩
    · rw [hall, hbooked.done, hbooked.error, hbooked.skiped, hbooked.total, count_signs]
    · rw [hall, hbooked.skiped, (count_eq_iff_of_imp himp _).2 h]
    · rw [hall, hbooked.error]
      refine (count_eq_iff_of_imp hneg _).2 fun i hi hne ↦ ?_
      obtain ⟨hkept, hne⟩ := hne
      by_contra hle
      exact hkept (h i hi (by omega))

end counters

/-- **The report classifies every disk** in just those runs in which no disk has its last request
failed. -/
theorem classified_iff (env : Env σ) (opt : Options) (m : Machine σ) (h0 : Unreported m) :
    Classified env opt m ↔ ∀ i < m.totalDiskCnt.toNat,
      ¬LastFailed env opt (m.diskList i) (before env opt m i) := by
  rw [classified_iff_skiped h0]
  refine forall₂_congr fun i _ ↦ ?_
  by_cases hs : skipedAt env opt m i
  · have hnot : ¬LastFailed env opt (m.diskList i) (before env opt m i) := by
      rintro ⟨⟨byte, hstart⟩, -⟩
      exact hs hstart.kept
    exact iff_of_true (fun _ ↦ hs) hnot
  · have hkept := not_not.1 hs
    rw [← val_pos_iff hkept]
    exact ⟨fun h hpos ↦ hs (h hpos), fun h hpos ↦ absurd hpos h⟩

/-- One disk behind a BIOS that accepts every request. -/
theorem classified_obliging :
    Classified (obliging fun _ ↦ 0) Options.plain
      (Machine.ofDisks () 1 [DiskParam.ofSectors 1]) := by
  refine (classified_iff _ _ _ ⟨rfl, rfl, rfl⟩).2 fun i _ hfail ↦ ?_
  obtain ⟨-, -, -, z, hz, hpos⟩ := hfail
  obtain ⟨c, hcarry, -⟩ := (wipeDisk_path _ _ _ _).genuine z (List.mem_of_getLast? hz)
  have hc : z.carry = false := hcarry
  have hcheck : checkedAt Options.plain z.site = false := by cases z.site <;> rfl
  rw [Exchange.result, Exchange.status, hc, hcheck] at hpos
  simp at hpos

/-- One disk behind a BIOS that fails every request: a wipe that failed, counted as skipped. -/
theorem failed_disk_counted_as_skiped :
    ¬Classified failing Options.plain (Machine.ofDisks () 1 [DiskParam.ofSectors 1]) := by
  obtain ⟨m, hm⟩ : ∃ m : Machine Unit, m = Machine.ofDisks () 1 [DiskParam.ofSectors 1] :=
    ⟨_, rfl⟩
  have hstart : Starts failing Options.plain (DiskParam.ofSectors 1) m fun _ ↦ 0 :=
    starts_failing (by decide)
  have hmbr : plan Options.plain (DiskParam.ofSectors 1) =
      wipePlan Options.plain (DiskParam.ofSectors 1) := List.append_nil _
  have hran := hstart.ran (by
    rw [hmbr]
    exact wipePlan_accepted_ext Options.plain (by decide) (by decide) rfl)
  obtain ⟨z, hz, hret⟩ := hran.last (by decide)
  obtain ⟨c, hcarry, hres⟩ := (wipeDisk_path _ _ _ _).genuine z (List.mem_of_getLast? hz)
  have hone : z.result Options.plain = 1 := by
    have hc : z.carry = true := hcarry
    have hah : z.res.reg.ah = 1 := by rw [hres]; rfl
    rw [Exchange.result, Exchange.status, hc, hah]
    rfl
  rw [← hm, classified_iff_skiped (by rw [hm]; exact ⟨rfl, rfl, rfl⟩)]
  intro h
  have hdisk : m.diskList 0 = DiskParam.ofSectors 1 := by rw [hm]; rfl
  have hskip : skipedAt failing Options.plain m 0 := by
    refine h 0 (by rw [hm]; decide) ?_
    show 0 < (wipeDisk failing Options.plain (m.diskList 0) m).val
    rw [hdisk, hret, hone]
    exact Int.one_pos
  refine hskip ?_
  show (isSkipedDisk failing Options.plain (m.diskList 0) m).val = 0
  rw [hdisk]
  exact hstart.kept

end Dwipe

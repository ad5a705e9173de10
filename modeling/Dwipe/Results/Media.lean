import Dwipe.Results.Coverage
import Dwipe.Results.Safety
import Dwipe.Results.Labels

/-!
# What a whole run leaves on the drives

`do_main` from the first probe to the end of the wipe loop, against a BIOS that behaves like the
owner of real drives. `Owns env param view` is the contract for **one** drive, whose contents are
the function `view` of the hidden state: a request to another drive, or one that is no write, leaves
the contents alone, reads in range deliver them, and extended writes inside the drive are carried
out. Nothing is asked of the other drives, and nothing of requests out of range.

A drive that the run has listed then ends up as `finalContents` says: as it was, in test mode or
when **the label scan finds the label** on it, and full of zeros otherwise (`run_contents`). The
scan is the one of the code, with what it misses and what it takes for labelled; in terms of the
labels themselves, a protected volume that it can reach keeps its drive, and a drive that leads it
to no padded label, and to no field with the skip string in front of a blank, is wiped
(`finalContents_of_protected`, `finalContents_of_unlabelled`). The exchanges of the run are a path
of the BIOS (`doMain_path`); only the round of the drive itself can write to it, since no drive is
listed twice, and what the skip test reads there are the contents the drive had when the run began.
-/

namespace Dwipe

variable {σ : Type} {env : Env σ} {opt : Options} {param : DiskParam}

/-! ### The exchanges of a whole run -/

/-- The bios of the second machine is reached from that of the first by the exchanges. -/
def Reaches (env : Env σ) (m : Machine σ) (l : List Event) (m' : Machine σ) : Prop :=
  Path env m.bios (exchanges l) m'.bios

theorem reaches_moves (env : Env σ) : Moves env (Reaches env) := path_moves env

theorem setSlot_reaches (index : ℕ) (p : DiskParam) :
    TraceM.Along (Reaches env) (setSlot index p : Prog σ Unit) := fun _ ↦ rfl

theorem getDiskParam_reaches (id : UInt8) : TraceM.Along (Reaches env) (getDiskParam env id) := by
  intro m
  rw [run_getDiskParam m rfl]
  exact (reaches_moves env).ask m _

theorem checkExtensionsPresent_reaches (id : UInt8) (old : Extensions) :
    TraceM.Along (Reaches env) (checkExtensionsPresent env id old) := by
  intro m
  rw [run_checkExtensionsPresent m old rfl]
  exact (reaches_moves env).ask m _

theorem getDiskParamExt_reaches (p : DiskParam) :
    TraceM.Along (Reaches env) (getDiskParamExt env p) := by
  intro m
  rw [run_getDiskParamExt m rfl]
  exact (reaches_moves env).ask m _

theorem probeDrive_reaches (id : UInt8) (s : EnumState) :
    TraceM.Along (Reaches env) (probeDrive env id s) := by
  have hT := (reaches_moves env).toComposes
  refine (getDiskParam_reaches id).bind hT fun p ↦ (setSlot_reaches _ _).bind hT fun _ ↦ ?_
  refine TraceM.Along.ite ?_ (pure_along (reaches_moves env) _)
  refine (checkExtensionsPresent_reaches id s.ext).bind hT fun e ↦ ?_
  refine TraceM.Along.ite ?_ (pure_along (reaches_moves env) _)
  refine (getDiskParamExt_reaches p.2).bind hT fun p' ↦ (setSlot_reaches _ _).bind hT fun _ ↦ ?_
  exact pure_along (reaches_moves env) _

theorem enumDisk_reaches (uninit : Extensions) :
    TraceM.Along (Reaches env) (enumDisk env uninit) := by
  have hT := (reaches_moves env).toComposes
  refine (enter_along (reaches_moves env) _).bind hT fun _ ↦ ?_
  refine TraceM.Along.bind hT (TraceM.Along.forRange hT (fun i s ↦ probeDrive_reaches _ s) _ _) ?_
  exact fun s ↦ TraceM.along_update fun _ ↦ rfl

theorem wipeListed_reaches (i : ℕ) : TraceM.Along (Reaches env) (wipeListed env opt i) := by
  have hT := (reaches_moves env).toComposes
  refine (TraceM.along_read hT).bind hT fun m ↦ ?_
  refine TraceM.Along.bind hT (wipeDisk_along (reaches_moves env)) fun ret ↦ ?_
  refine (emit_along (reaches_moves env) rfl).bind hT fun _ ↦ fun m' ↦ ?_
  show Path env m'.bios [] (book ret m').state.bios
  rw [book_state]
  exact rfl

/-- **The exchanges of a whole run are a path of the BIOS.** -/
theorem doMain_path (env : Env σ) (opt : Options) (uninit : Extensions) (m : Machine σ) :
    Path env m.bios (exchanges (doMain env opt uninit m).events)
      (doMain env opt uninit m).state.bios := by
  have hT := (reaches_moves env).toComposes
  have hrun : TraceM.Along (Reaches env) (doMain env opt uninit) := by
    refine TraceM.Along.bind hT (tick_along (reaches_moves env) _) fun cur ↦ ?_
    refine TraceM.Along.bind hT (TraceM.along_update fun _ ↦ rfl) fun _ ↦ ?_
    refine (enumDisk_reaches uninit).bind hT fun _ ↦ (TraceM.along_read hT).bind hT fun m ↦ ?_
    exact TraceM.Along.forRange hT (fun i _ ↦ wipeListed_reaches i) _ _
  exact hrun m

/-! ### One drive -/

/-- The contents of the drive as the label scan addresses them. -/
def bytesOf (v : ℕ → Sector) : Contents := fun s j ↦ if h : j < 512 then v s ⟨j, h⟩ else 0

/-- **The BIOS is the owner of the drive**: its contents are changed by writes to the drive only,
reads in range deliver them, and extended writes inside the drive are carried out. -/
structure Owns (env : Env σ) (param : DiskParam) (view : σ → ℕ → Sector) : Prop
    extends CarriesOut env param view where
  other : ∀ b q, q.reg.dl ≠ param.diskId → view (env.int13 b q).bios = view b
  reads : ∀ b q, q.reg.ah ≠ 0x03 → q.reg.ah ≠ 0x43 → view (env.int13 b q).bios = view b
  delivers : ∀ b q s, AimsAtBuffer env q → q.reg.dl = param.diskId → sought param q = some s →
    Delivers param (bytesOf (view b)) q s (env.int13 b q)

/-- **The label scan finds the label**: one of the four partition entries leads it to a sector that
it takes for labelled. This is what the code looks for, not what is on the drive: a labelled volume
of type `06h` is not found, and the label `MINIME FOO` is found for `MINIME`. -/
def ScanFinds (opt : Options) (param : DiskParam) (v : ℕ → Sector) : Prop :=
  1 ≤ param.lastSectorsPerTrack.toNat ∧
    ∃ i < 4, LeadsToLabel opt.skip param (bytesOf v) (mbrEntry (bytesOf v 0) i)

open Classical in
/-- **What a run leaves on a drive** that held `v`: the drive is kept in test mode, and when the
scan finds the label on it. -/
noncomputable def finalContents (opt : Options) (param : DiskParam) (v : ℕ → Sector) : ℕ → Sector :=
  if opt.test = true ∨ ScanFinds opt param v then v
  else fun s ↦ if s < param.ext.nsectors.toNat then fun _ ↦ 0 else v s

section medium

variable {view : σ → ℕ → Sector}

theorem not_isWrite_iff {x : Exchange} :
    ¬x.IsWrite ↔ x.req.reg.ah ≠ 0x03 ∧ x.req.reg.ah ≠ 0x43 := not_or

/-- A path without writes to the drive leaves its contents alone. -/
theorem Owns.unchanged (h : Owns env param view) {b b' : σ} {xs : List Exchange}
    (hpath : Path env b xs b') (hxs : ∀ x ∈ xs, x.IsWrite → x.req.reg.dl ≠ param.diskId) :
    view b' = view b := by
  induction xs generalizing b with
  | nil =>
    obtain rfl : b = b' := hpath
    rfl
  | cons x xs ih =>
    obtain ⟨-, -, hrest⟩ := hpath
    rw [ih hrest fun y hy ↦ hxs y (List.mem_cons_of_mem _ hy)]
    by_cases hw : x.IsWrite
    · exact h.other b _ (hxs x List.mem_cons_self hw)
    · exact h.reads b _ (not_isWrite_iff.1 hw).1 (not_isWrite_iff.1 hw).2

/-- **A path whose writes are extended ones inside the drive** leaves on it what they brought. -/
theorem Owns.replayed (h : Owns env param view) {b b' : σ} {xs : List Exchange}
    (hpath : Path env b xs b') (hxs : ∀ x ∈ xs, x.IsWrite → ExtWriteInside env param x.req) :
    view b' = (xs.map Event.int13).foldl actOn (view b) := by
  induction xs generalizing b with
  | nil =>
    obtain rfl : b = b' := hpath
    rfl
  | cons x xs ih =>
    obtain ⟨-, -, hrest⟩ := hpath
    rw [ih hrest fun y hy ↦ hxs y (List.mem_cons_of_mem _ hy), List.map_cons, List.foldl_cons]
    by_cases hw : x.IsWrite
    · rw [h.toCarriesOut.actOn_exchange b (hxs x List.mem_cons_self hw)]
    · obtain ⟨h03, h43⟩ := not_isWrite_iff.1 hw
      have hnone : x.write? = none := by rw [Exchange.write?, if_neg h03, if_neg h43]
      rw [h.reads b _ h03 h43, actOn, hnone]

/-- In the states where the drive holds `v`, the BIOS serves reads from it. -/
theorem Owns.serves (h : Owns env param view) (v : ℕ → Sector) :
    Serves env param (bytesOf v) fun b ↦ view b = v := by
  refine ⟨fun b q hb hah ↦ ?_, fun b q s hb haim hdl hs ↦ ?_⟩
  · rw [h.reads b q (by rcases hah with hah | hah <;> rw [hah] <;> decide)
      (by rcases hah with hah | hah <;> rw [hah] <;> decide), hb]
  · rw [← hb]
    exact h.delivers b q s haim hdl hs

/-! ### The round of the drive -/

/-- A drive with extensions and 512-byte sectors, wiped in the fast or in the three-pass mode, by
extended requests and without an MBR at the end. -/
structure Wipeable (opt : Options) (param : DiskParam) : Prop where
  hasExt : param.hasExt ≠ 0
  bytes : param.ext.bytesPerSector = 512
  force : opt.forceChs = false
  mbr : opt.mbr = false
  mode : opt.mode ≠ .ocd
  pos : 1 ≤ param.ext.nsectors.toNat
  small : param.ext.nsectors.toNat < 2 ^ 55

theorem Wipeable.plainExt (h : Wipeable opt param) (htest : opt.test = false) :
    PlainExt opt param := ⟨h.hasExt, h.bytes, h.force, htest, h.mbr⟩

/-- **The skip test reads the contents of the drive.** -/
theorem Owns.skiped_iff (h : Owns env param view) (hw : Wipeable opt param) {m : Machine σ} :
    (isSkipedDisk env opt param m).val ≠ 0 ↔ ScanFinds opt param (view m.bios) := by
  have hcd : isCdrom param = 0 := isCdrom_eq_zero_iff.2 fun _ ↦ hw.bytes
  have h512 : sectorSize param = 512 := by
    rw [sectorSize, if_pos hw.hasExt, hw.bytes]
    rfl
  have hval : (isSkipedDisk env opt param m).val ≠ 0 ↔
      (containFatLabel env opt param opt.skip m).val = 1 := by
    have hne : ¬isCdrom param ≠ 0 := by simpa using hcd
    rw [isSkipedDisk, if_neg hne]
    rcases containFatLabel_zero_or_one env opt param opt.skip m with h0 | h1
    · simp [h0]
    · simp [h1]
  rw [hval, containFatLabel_served (h.serves (view m.bios)) (fun _ ↦ hw.pos) opt.skip rfl]
  exact ⟨fun hlead ↦ hlead.2, fun hlead ↦ ⟨h512, hlead⟩⟩

/-- The writes of the round are extended writes inside the drive. -/
theorem Wipeable.inside {m : Machine σ} {byte : ℕ → UInt8} (hw : Wipeable opt param)
    (htest : opt.test = false) (hstart : Starts env opt param m byte) :
    ∀ x ∈ exchanges (wipeDisk env opt param m).events, x.IsWrite →
      ExtWriteInside env param x.req := by
  intro x hx hwrite
  have hp := hw.plainExt htest
  obtain ⟨w, hxw⟩ : ∃ w, x.write? = some w := by
    rw [Exchange.write?]
    rcases hwrite with h03 | h43
    · exact ⟨_, if_pos h03⟩
    · exact ⟨_, by rw [if_neg (by rw [h43]; decide), if_pos h43]⟩
  have hmem : w ∈ writes (wipeDisk env opt param m).events := List.mem_filterMap.2 ⟨x, hx, hxw⟩
  rw [(hstart.ran hp.accepted).writes] at hmem
  obtain ⟨b, n, htarget, hend⟩ := hp.target hmem
  rw [Exchange.write?] at hxw
  split_ifs at hxw with h03 h43
  · obtain rfl := Option.some.inj hxw
    exact absurd htarget (by simp)
  · obtain rfl := Option.some.inj hxw
    obtain ⟨rfl, rfl⟩ := Target.lba.inj htarget
    exact ⟨h43, (wipeDisk_write hx hwrite).2, (wipeDisk_wellMade hx).toAimsAtBuffer, hend⟩

/-- **The round of an unprotected drive** leaves zeros on it. -/
theorem Owns.wiped (h : Owns env param view) (hw : Wipeable opt param)
    (htest : opt.test = false) {m : Machine σ} {byte : ℕ → UInt8}
    (hstart : Starts env opt param m byte) :
    view (wipeDisk env opt param m).state.bios =
      fun s ↦ if s < param.ext.nsectors.toNat then fun _ ↦ 0 else view m.bios s := by
  have hp := hw.plainExt htest
  have hT : (totalSec opt param).toNat = param.ext.nsectors.toNat := by rw [hp.totalSec]
  have hwrites : writes ((exchanges (wipeDisk env opt param m).events).map Event.int13) =
      runWrites opt param env.mbrBin byte m.randNext (plan opt param) := by
    rw [writes, exchanges_map_int13]
    exact (hstart.ran hp.accepted).writes
  rw [h.replayed (wipeDisk_path env opt param m) (hw.inside htest hstart), foldl_actOn, hwrites]
  have hlt := hw.small
  funext s
  rw [overwrite_apply]
  by_cases hs : s < param.ext.nsectors.toNat
  · rw [if_pos hs]
    obtain ⟨l₁, p, l₂, hl, hc, -, hsector⟩ := sectorWrites_plan hp.hasExt hp.test hp.not_cdrom
      env.mbrBin byte m.randNext (s := s) (by omega)
    have hpm : p ∈ spans (totalSec opt param).toNat := by simp [hl]
    have hlast : ((runWrites opt param env.mbrBin byte m.randNext (plan opt param)).filter
        fun w ↦ w.target.Covers s).getLast? = _ :=
      (congrArg List.getLast? hsector).trans (getLast?_passWrites (passes_pos opt))
    rw [hlast, Option.map_some, Option.getD_some]
    funext j
    rw [Write.left_apply (sector_spanTarget (totalSec opt param).toNat_lt hpm hc),
      passByte_last hw.mode]
  · rw [if_neg hs]
    have hnil : (runWrites opt param env.mbrBin byte m.randNext (plan opt param)).filter
        (fun w ↦ w.target.Covers s) = [] :=
      sectorWrites_plan_nil hp.hasExt hp.test hp.not_cdrom env.mbrBin byte m.randNext (by omega)
    rw [hnil]
    rfl

/-- **The round of the drive** leaves what `finalContents` says. -/
theorem Owns.round (h : Owns env param view) (hw : Wipeable opt param)
    (hmem : ∀ t, env.malloc t ≠ none) (m : Machine σ) :
    view (wipeDisk env opt param m).state.bios = finalContents opt param (view m.bios) := by
  have hpath := wipeDisk_path env opt param m
  rw [finalContents]
  by_cases htest : opt.test = true
  · rw [if_pos (Or.inl htest)]
    refine h.unchanged hpath fun x hx hwrite ↦ ?_
    rw [(wipeDisk_write hx hwrite).1] at htest
    exact absurd htest Bool.false_ne_true
  by_cases hprot : ScanFinds opt param (view m.bios)
  · rw [if_pos (Or.inr hprot)]
    exact h.unchanged hpath fun x hx hwrite ↦
      absurd hwrite (not_isWrite_of_skiped ((h.skiped_iff hw).2 hprot) x hx)
  · rw [if_neg (by simp [htest, hprot])]
    have hkept : (isSkipedDisk env opt param m).val = 0 :=
      not_not.1 fun hne ↦ hprot ((h.skiped_iff hw).1 hne)
    obtain ⟨byte, hbyte⟩ := Option.ne_none_iff_exists'.1
      (hmem (isSkipedDisk env opt param m).state.ticks)
    exact h.wiped hw (by simpa using htest) ⟨hkept, hbyte⟩

/-! ### All rounds -/

/-- What the wipe loop keeps, from the machine `m` and seen from the drive in slot `i`: until its
own round the drive holds what it held, and from then on what `finalContents` says. -/
def LoopLeaves (opt : Options) (param : DiskParam) (view : σ → ℕ → Sector) (m : Machine σ)
    (i n : ℕ) (_ : Unit) (m' : Machine σ) (_ : List Event) : Prop :=
  m'.diskList = m.diskList ∧
    view m'.bios = if n ≤ i then view m.bios else finalContents opt param (view m.bios)

/-- **The wipe loop**, seen from the drive in slot `i`: its own round brings it to its final
contents, and the rounds of the other drives leave it alone. -/
theorem Owns.loop (h : Owns env param view) (hw : Wipeable opt param)
    (hmem : ∀ t, env.malloc t ≠ none) (m : Machine σ) {i N : ℕ} (hi : i < N)
    (hparam : m.diskList i = param)
    (hother : ∀ k < N, k ≠ i → (m.diskList k).diskId ≠ param.diskId) :
    view (wipeFirst env opt N m).state.bios = finalContents opt param (view m.bios) := by
  have hinit : LoopLeaves opt param view m i 0 () m [] := ⟨rfl, by rw [if_pos (Nat.zero_le i)]⟩
  have hround : ∀ k b m' l, k < N → LoopLeaves opt param view m i k b m' l →
      LoopLeaves opt param view m i (k + 1) (wipeListed env opt k m').val
        (wipeListed env opt k m').state (l ++ (wipeListed env opt k m').events) := by
    rintro k - m' l hk ⟨hlist, hview⟩
    have hglob := wipeDisk_globals env opt (m'.diskList k) m'
    rw [run_wipeListed k rfl, book_state]
    refine ⟨hglob.diskList.trans hlist, ?_⟩
    show view (wipeDisk env opt (m'.diskList k) m').state.bios = _
    by_cases hki : k = i
    · -- its own round
      rw [hki, hlist, hparam, h.round hw hmem, hview, if_pos (by omega), if_neg (by omega)]
    · -- another drive's round writes to that drive only
      have hsame : view (wipeDisk env opt (m'.diskList k) m').state.bios = view m'.bios := by
        refine h.unchanged (wipeDisk_path env opt _ m') fun x hx hwrite ↦ ?_
        rw [(wipeDisk_write hx hwrite).2, hlist]
        exact hother k hk hki
      have hiff : k ≤ i ↔ k + 1 ≤ i := by omega
      rw [hsame, hview]
      simp only [hiff]
  have hend : view (wipeFirst env opt N m).state.bios =
      if N ≤ i then view m.bios else finalContents opt param (view m.bios) :=
    (TraceM.forRange_invariant (LoopLeaves opt param view m i) hinit hround).2
  rwa [if_neg (by omega)] at hend

end medium

/-- A run, seen from the slot of the drive in the list. -/
theorem view_doMain (env : Env σ) (hrep : env.ReportsErrors) (hmem : ∀ t, env.malloc t ≠ none)
    (opt : Options) (uninit : Extensions) (m : Machine σ) {param : DiskParam}
    {view : σ → ℕ → Sector} (hview : Owns env param view) (hw : Wipeable opt param) {i : ℕ}
    (hi : i < (doMain env opt uninit m).state.totalDiskCnt.toNat)
    (hparam : (doMain env opt uninit m).state.diskList i = param) :
    view (doMain env opt uninit m).state.bios = finalContents opt param (view m.bios) := by
  obtain ⟨ps, -, henum⟩ := enumDisk_enumerated hrep uninit (fun _ _ _ ↦ True) trivial
    (fun _ _ _ _ _ _ ↦ trivial) (seeded env m)
  obtain ⟨t, ht⟩ : ∃ t, t = enumDisk env uninit (seeded env m) := ⟨_, rfl⟩
  rw [← ht] at henum
  rw [run_doMain uninit m ht] at hi hparam ⊢
  obtain ⟨hlist, htotal⟩ := wipeFirst_list env opt t.state.totalDiskCnt.toNat t.state
  rw [htotal] at hi
  rw [hlist] at hparam
  -- no drive is listed twice
  have hother : ∀ k < t.state.totalDiskCnt.toNat, k ≠ i →
      (t.state.diskList k).diskId ≠ param.diskId := by
    intro k hk hki
    rw [henum.total] at hk hi
    rw [← hparam]
    rcases Nat.lt_or_gt_of_ne hki with hlt | hgt
    · exact henum.distinct i hi k hlt
    · exact (henum.distinct k hk i hgt).symm
  rw [hview.loop hw hmem t.state hi hparam hother]
  -- the questions of the enumeration are no writes
  have hsame : view t.state.bios = view m.bios := by
    have hpath : Path env (seeded env m).bios (exchanges t.events) t.state.bios := by
      rw [ht]
      exact enumDisk_reaches uninit (seeded env m)
    refine hview.unchanged hpath fun x hx hwrite ↦ ?_
    have hah := henum.asks x hx
    simp only [List.mem_cons, List.not_mem_nil, or_false] at hah
    rcases hah with hah | hah | hah <;> simp [Exchange.IsWrite, hah] at hwrite
  rw [hsame]

/-- A drive whose first sector is one byte over and over has no partition of a known type. -/
theorem not_scanFinds_of_filled {v : ℕ → Sector} {c : UInt8} (hv : v 0 = fun _ ↦ c)
    (hc : c ∉ [0x0B, 0x0C, 0x0E, 0xEF]) : ¬ScanFinds opt param v := by
  rintro ⟨-, i, hi, s, hs, -⟩
  have htype : (mbrEntry (bytesOf v 0) i).type = c := by
    show bytesOf v 0 (446 + 16 * i + 4) = c
    rw [bytesOf, hv, dif_pos (by omega)]
  simp only [List.mem_cons, List.not_mem_nil, or_false, not_or] at hc
  simp [followed, htype, hc] at hs

theorem finalContents_filled {v : ℕ → Sector} {c : UInt8} (htest : opt.test = false)
    (hv : v 0 = fun _ ↦ c) (hc : c ∉ [0x0B, 0x0C, 0x0E, 0xEF]) {s : ℕ}
    (hs : s < param.ext.nsectors.toNat) : finalContents opt param v s = fun _ ↦ 0 := by
  have hkept : ¬(opt.test = true ∨ ScanFinds opt param v) := by
    rintro (htest' | hprot)
    · exact Bool.false_ne_true (htest.symm.trans htest')
    · exact not_scanFinds_of_filled hv hc hprot
  rw [finalContents, if_neg hkept]
  exact if_pos hs

/-! ### The label on the drive -/

section labels

variable {v : ℕ → Sector}

/-- **A protected volume that the scan can reach** keeps its drive as it is. -/
theorem finalContents_of_protected (hspace : 0x20 ∉ opt.skip.bytes)
    (hgeometry : 1 ≤ param.lastSectorsPerTrack.toNat) {i : ℕ} (hi : i < 4)
    (hvolume : ProtectedBy opt.skip param (bytesOf v) (mbrEntry (bytesOf v 0) i))
    (hreach : InReach param (mbrEntry (bytesOf v 0) i)) : finalContents opt param v = v :=
  if_pos (Or.inr ⟨hgeometry, i, hi, hvolume.leadsToLabel hspace hreach⟩)

/-- **A drive without such a label is wiped**: no entry leads the scan to a sector with the padded
skip string, or with a field that has it in front of a blank. -/
theorem finalContents_of_unlabelled (htest : opt.test = false)
    (hnone : ∀ i < 4, ∀ s, followed param (mbrEntry (bytesOf v 0) i) = some s →
      ¬PaddedLabel opt.skip (bytesOf v s) ∧ ¬Misleading opt.skip (bytesOf v s)) {s : ℕ}
    (hs : s < param.ext.nsectors.toNat) : finalContents opt param v s = fun _ ↦ 0 := by
  have hkept : ¬(opt.test = true ∨ ScanFinds opt param v) := by
    rintro (htest' | ⟨-, i, hi, s, hfollowed, hlabel⟩)
    · exact Bool.false_ne_true (htest.symm.trans htest')
    · obtain ⟨hpad, hmis⟩ := hnone i hi s hfollowed
      exact hpad (paddedLabel_of_carriesLabel hlabel hmis)
  rw [finalContents, if_neg hkept]
  exact if_pos hs

end labels

/-! ### Two drives -/

/-- The questions about drives `80h` and `81h`: one sector in the old geometry, 17 in the new. -/
def pair : Assignment := fun _ dl ↦
  if dl = 0x80 ∨ dl = 0x81 then
    ⟨false, { RealArea.zero.reg with cl := 1, dl := 2 },
      { DiskParamExt.zero with nsectors := 17, bytesPerSector := 512 }⟩
  else ⟨true, { RealArea.zero.reg with ah := 1 }, DiskParamExt.zero⟩

/-- The BIOS of two drives that can be read and written. Its state is what they hold. -/
def rack : Env (UInt8 → ℕ → Sector) :=
  Env.ofBios (fun d q ↦
    if q.reg.ah = 0x43 then
      ⟨false, q.withStatus 0, Function.update d q.reg.dl fun s j ↦
        if q.span.Covers s then q.buffer (512 * (s - q.span.start) + j) else d q.reg.dl s j⟩
    else if q.reg.ah = 0x02 ∨ q.reg.ah = 0x42 then
      match sought (entry pair 0x80) q with
      | some s => ⟨false, { q.withStatus 0 with buffer := bytesOf (d q.reg.dl) s }, d⟩
      | none => ⟨true, q.withStatus 1, d⟩
    else
      ⟨(pair q.reg.ah q.reg.dl).carry,
        { q with reg := (pair q.reg.ah q.reg.dl).reg,
                 paramExt := (pair q.reg.ah q.reg.dl).paramExt }, d⟩) fun _ ↦ 0x55

theorem owns_rack : Owns rack (entry pair 0x80) fun d ↦ d 0x80 := by
  have hid : (entry pair 0x80).diskId = 0x80 := rfl
  refine ⟨⟨fun d q h ↦ ?_, fun d q h s j ↦ ?_⟩, fun d q h ↦ ?_, fun d q h h' ↦ ?_,
    fun d q s _ h hs ↦ ?_⟩
  · simp [rack, Env.ofBios, h.1]
  · have hdl : q.reg.dl = 0x80 := h.2.1
    simp [rack, Env.ofBios, h.1, hdl]
  · have hdl : (0x80 : UInt8) ≠ q.reg.dl := fun hdl ↦ h (hdl.symm.trans hid.symm)
    simp only [rack, Env.ofBios]
    split_ifs
    · exact Function.update_of_ne hdl _ _
    · cases sought (entry pair 0x80) q <;> rfl
    · rfl
  · simp only [rack, Env.ofBios, h', if_false]
    split_ifs
    · cases sought (entry pair 0x80) q <;> rfl
    · rfl
  · have hah : q.reg.ah = 0x02 ∧ q.reg.al = 1 ∨ q.reg.ah = 0x42 ∧ q.dap.nsectors = 1 := by
      rw [sought] at hs
      split_ifs at hs with h1 h2
      · exact Or.inl h1
      · exact Or.inr h2
    have hne : q.reg.ah ≠ 0x43 := by
      rcases hah with hah | hah <;> rw [hah.1] <;> decide
    have hread : q.reg.ah = 0x02 ∨ q.reg.ah = 0x42 := hah.imp And.left And.left
    have hdl : q.reg.dl = 0x80 := h
    simp only [rack, Env.ofBios, hne, if_false, hread, if_true, hs]
    refine ⟨rfl, fun k _ ↦ ?_, fun h02 ↦ ?_, fun h42 ↦ ?_⟩
    · rw [hdl]
    · rcases hah with hah | hah
      · exact hah.2
      · rw [h02] at hah
        exact absurd hah.1 (by decide)
    · rcases hah with hah | hah
      · rw [h42] at hah
        exact absurd hah.1 (by decide)
      · exact hah.2

theorem reportsErrors_rack : rack.ReportsErrors := by
  intro d q
  simp only [rack, Env.ofBios]
  split_ifs with h43 hread
  · simp
  · cases sought (entry pair 0x80) q with
    | none => exact fun _ ↦ by simp [RealArea.withStatus]
    | some s => simp
  · show (pair q.reg.ah q.reg.dl).carry = true → (pair q.reg.ah q.reg.dl).reg.ah ≠ 0
    rw [pair]
    split_ifs <;> decide

theorem answeredBy_rack (uninit : Extensions) (m : Machine (UInt8 → ℕ → Sector)) :
    AnsweredBy pair (enumDisk rack uninit m).events := by
  obtain ⟨-, h, -⟩ := enumDisk_enumerated reportsErrors_rack uninit
    (fun _ _ xs ↦ ∀ x ∈ xs, x.response = pair x.req.reg.ah x.req.reg.dl) (by simp)
    (by
      intro i ps xs m hi h x hx
      rcases List.mem_append.1 hx with hx | hx
      · exact h x hx
      · rcases mem_asked hx with rfl | rfl | rfl <;> rfl)
    m
  exact h

theorem listed_rack (opt : Options) (uninit : Extensions) (m : Machine (UInt8 → ℕ → Sector)) :
    ∃ i < (doMain rack opt uninit m).state.totalDiskCnt.toNat,
      (doMain rack opt uninit m).state.diskList i = entry pair 0x80 := by
  obtain ⟨t, ht⟩ : ∃ t, t = enumDisk rack uninit (seeded rack m) := ⟨_, rfl⟩
  have henum : Enumerated [entry pair 0x80, entry pair 0x81] t := by
    have hfound : found pair 128 = [0x80, 0x81] := by decide +kernel
    have h := enumerated_found reportsErrors_rack (answeredBy_rack uninit (seeded rack m))
    rwa [hfound, ← ht] at h
  obtain ⟨hlist, htotal⟩ := wipeFirst_list rack opt t.state.totalDiskCnt.toNat t.state
  rw [run_doMain uninit m ht]
  refine ⟨0, ?_, ?_⟩
  · rw [htotal, henum.total]
    decide
  · rw [hlist]
    have hslots := henum.slots
    simp only [List.length_cons, List.length_nil, Nat.zero_add, List.range_succ, List.range_zero,
      List.nil_append, List.map_cons, List.map_nil, List.singleton_append,
      List.cons.injEq] at hslots
    exact hslots.1

theorem wipeable_pair : Wipeable Options.plain (entry pair 0x80) :=
  ⟨by decide, by decide, rfl, rfl, by decide, by decide, by decide⟩

/-- **What a whole run of `do_main` leaves on a drive it has listed**: in test mode, or when the
scan finds the label, what it held at the start; and otherwise zeros. In terms of the labels that
were on it: a protected volume in the reach of the scan keeps the drive as it is, and a drive
without the padded skip string, or a field that has it in front of a blank, is zeroed. -/
theorem run_contents (env : Env σ) (hrep : env.ReportsErrors) (hmem : ∀ t, env.malloc t ≠ none)
    (opt : Options) (uninit : Extensions) (m : Machine σ) (param : DiskParam)
    (view : σ → ℕ → Sector) (hview : Owns env param view) (hw : Wipeable opt param)
    (hlisted : ∃ i < (doMain env opt uninit m).state.totalDiskCnt.toNat,
      (doMain env opt uninit m).state.diskList i = param) :
    view (doMain env opt uninit m).state.bios = finalContents opt param (view m.bios) ∧
    (0x20 ∉ opt.skip.bytes → 1 ≤ param.lastSectorsPerTrack.toNat →
      (∃ i < 4, ProtectedBy opt.skip param (bytesOf (view m.bios))
          (mbrEntry (bytesOf (view m.bios) 0) i) ∧
        InReach param (mbrEntry (bytesOf (view m.bios) 0) i)) →
      view (doMain env opt uninit m).state.bios = view m.bios) ∧
    (opt.test = false →
      (∀ i < 4, ∀ s, followed param (mbrEntry (bytesOf (view m.bios) 0) i) = some s →
        ¬PaddedLabel opt.skip (bytesOf (view m.bios) s) ∧
          ¬Misleading opt.skip (bytesOf (view m.bios) s)) →
      ∀ s < param.ext.nsectors.toNat, view (doMain env opt uninit m).state.bios s = fun _ ↦ 0) := by
  obtain ⟨i, hi, hparam⟩ := hlisted
  have hleft := view_doMain env hrep hmem opt uninit m hview hw hi hparam
  refine ⟨hleft, fun hspace hgeometry hvolume ↦ ?_, fun htest hnone s hs ↦ ?_⟩
  · obtain ⟨j, hj, hprot, hreach⟩ := hvolume
    rw [hleft, finalContents_of_protected hspace hgeometry hj hprot hreach]
  · rw [hleft, finalContents_of_unlabelled htest hnone hs]

/-- Two drives full of `AAh`: the first one is wiped to its last sector. -/
theorem run_contents_pair :
    (doMain rack Options.plain ⟨0, 0⟩ (Machine.fresh (fun _ _ _ ↦ 0xAA) 1)).state.bios 0x80 16 =
      fun _ ↦ 0 := by
  have h := run_contents rack reportsErrors_rack (fun _ ↦ by simp [rack, Env.ofBios])
    Options.plain ⟨0, 0⟩ (Machine.fresh (fun _ _ _ ↦ 0xAA) 1) (entry pair 0x80) (fun d ↦ d 0x80)
    owns_rack wipeable_pair (listed_rack _ _ _)
  exact (congrFun h.1 16).trans
    (finalContents_filled rfl (c := 0xAA) rfl (by decide) (by decide))

/-! ### Run after run -/

end Dwipe

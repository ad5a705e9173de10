import Dwipe.Results.Listing
import Dwipe.Wipe.Paths
import Dwipe.Wipe.Runs

/-!
# Write safety

Over a whole run of `do_main`, for every BIOS that reports its errors: with `opt.test` set **no**
write request is issued to any drive, and a drive for which `is_skiped_disk` has returned non-zero
gets no write request **at any point** of the run (`write_safety`).

A round of the wipe loop writes to its own drive only, and not at all when that drive is skipped.
The second half needs one fact from enumeration besides: no drive is listed twice, so no other round
writes to a skipped drive either. The invariant of the loop is `Spared`.

The same walk says what the requests look like: over a whole run each is one the BIOS can be trusted
with (`doMain_wellMade`), which is what the assembler below the C code relies on.
-/

namespace Dwipe

variable {σ : Type} {env : Env σ} {opt : Options} {param : DiskParam}

/-! ### One disk -/

section disk

variable {m : Machine σ}

/-- A write request of a run goes to the drive of the run, and there is none in test mode. -/
theorem wipeDisk_write {x : Exchange} (hx : x ∈ exchanges (wipeDisk env opt param m).events)
    (hw : x.IsWrite) : opt.test = false ∧ x.req.reg.dl = param.diskId := by
  rcases wipeDisk_allowed hx with h | ⟨hdl, -, h⟩
  · exact absurd hw h.not_isWrite
  · refine ⟨?_, hdl⟩
    cases hs : x.site with
    | probe | label => simp [hs] at h
    | pass i =>
      rw [hs] at h
      exact h.1
    | mbr =>
      rw [hs] at h
      exact h.2.1
    | test =>
      rw [hs] at h
      exfalso
      obtain ⟨-, hah⟩ := h
      split_ifs at hah <;> rcases hw with hw | hw <;> simp [hah] at hw

/-- Every request of a run names its drive, so other drives are reached by other runs only. -/
theorem wipeDisk_drive {x : Exchange} (hx : x ∈ exchanges (wipeDisk env opt param m).events) :
    x.req.reg.dl = param.diskId := by
  rcases wipeDisk_allowed hx with ⟨-, hdl, -, -⟩ | ⟨hdl, -, -⟩
  · exact hdl
  · exact hdl

/-- **Every request of a run is well made**, by the sector size of the drive's record. -/
theorem wipeDisk_wellMade {x : Exchange} (hx : x ∈ exchanges (wipeDisk env opt param m).events) :
    WellMade env (sectorSize param).toNat x.req := by
  rcases wipeDisk_allowed hx with ⟨-, -, hmade, -⟩ | ⟨-, hmade, -⟩
  · exact hmade
  · exact hmade

/-- **The skip test of a run**: it is asked about the drive of the run, and a run whose drive is
skipped writes nothing. -/
theorem wipeDisk_skiped {d : UInt8} {v : ℤ}
    (h : .returned (.isSkipedDisk d) v ∈ (wipeDisk env opt param m).events) :
    d = param.diskId ∧
      (v ≠ 0 → ∀ x ∈ exchanges (wipeDisk env opt param m).events, ¬x.IsWrite) := by
  obtain ⟨t, ht⟩ : ∃ t, t = isSkipedDisk env opt param m := ⟨_, rfl⟩
  have hscan : Scanned env param m t := ht ▸ isSkipedDisk_scanned m
  have hret (l : List Event) (hl : ∀ p ∈ returns l, ∀ d, p.1 ≠ .isSkipedDisk d)
      (h : .returned (.isSkipedDisk d) v ∈
        t.events ++ [.returned (.isSkipedDisk param.diskId) t.val] ++ l) :
      d = param.diskId ∧ v = t.val := by
    rw [← mem_returns, returns_append, returns_append, hscan.returns] at h
    simp only [List.nil_append, returns_returned, returns_nil, List.singleton_append,
      List.mem_cons, Prod.mk.injEq, Call.isSkipedDisk.injEq] at h
    rcases h with h | h
    · exact h
    · exact absurd rfl (hl _ h d)
  by_cases hskip : t.val = 0
  · -- not skipped: the value cannot be another one
    have hv : d = param.diskId ∧ v = t.val := by
      cases hmem : env.malloc t.state.ticks with
      | none =>
        rw [wipeDisk_of_no_memory ht hskip hmem] at h
        exact hret [] (by simp) (by simpa using h)
      | some byte =>
        rw [wipeDisk_of_memory ht hskip hmem rfl] at h
        refine hret _ ?_ (by simpa using h)
        have hsafe : TraceM.Safe (fun _ ↦ True)
            (Obeys (Permitted env opt param) fun c ↦ ∀ d, c ≠ .isSkipedDisk d) (fun _ ↦ True)
            (wipeBuffer env opt param ⟨wipeBufferSize.toNat, byte⟩) :=
          wipeBuffer_safe (stable_true env) (by simp) (by simp) (by simp) (by simp) _
        exact (forall_obeys_iff.1 (hsafe _ trivial).2).2
    exact ⟨hv.1, fun hne ↦ absurd (hv.2.trans hskip) hne⟩
  · refine ⟨?_, fun _ ↦ not_isWrite_of_skiped (ht ▸ hskip)⟩
    rw [wipeDisk_of_skiped ht hskip] at h
    exact (hret [] (by simp) (by simpa using h)).1

end disk

/-! ### The wipe loop -/

/-- **After `n` rounds**, on drives `ids 0`, `ids 1`, …: nothing is written in test mode, writes
have gone to the drives of the rounds so far, and not to one that was skipped. -/
structure Spared (opt : Options) (ids : ℕ → UInt8) (n : ℕ) (l : List Event) : Prop where
  test : opt.test = true → ∀ x ∈ exchanges l, ¬x.IsWrite
  writes : ∀ x ∈ exchanges l, x.IsWrite → ∃ k < n, x.req.reg.dl = ids k
  skiped : ∀ d v, .returned (.isSkipedDisk d) v ∈ l → v ≠ 0 →
    (∃ k < n, d = ids k) ∧ ∀ x ∈ exchanges l, x.IsWrite → x.req.reg.dl ≠ d

theorem spared_of_quiet {ids : ℕ → UInt8} {l : List Event} (hx : ∀ x ∈ exchanges l, ¬x.IsWrite)
    (hr : returns l = []) : Spared opt ids 0 l := by
  refine ⟨fun _ ↦ hx, fun x h hw ↦ absurd hw (hx x h), fun d v h ↦ ?_⟩
  rw [← mem_returns, hr] at h
  exact absurd h List.not_mem_nil

/-- **One round.** Its drive is not among those of the rounds before it. -/
theorem Spared.round {ids : ℕ → UInt8} {n : ℕ} {l : List Event} (h : Spared opt ids n l)
    (hid : param.diskId = ids n) (hnew : ∀ k < n, ids k ≠ ids n) (m : Machine σ) :
    Spared opt ids (n + 1) (l ++ (wipeDisk env opt param m).events) := by
  have hown {x : Exchange} (hx : x ∈ exchanges (wipeDisk env opt param m).events)
      (hw : x.IsWrite) : x.req.reg.dl = ids n := by rw [(wipeDisk_write hx hw).2, hid]
  refine ⟨fun htest x hx hw ↦ ?_, fun x hx hw ↦ ?_, fun d v hd hv ↦ ?_⟩
  · rw [exchanges_append, List.mem_append] at hx
    rcases hx with hx | hx
    · exact h.test htest x hx hw
    · rw [(wipeDisk_write hx hw).1] at htest
      exact Bool.false_ne_true htest
  · rw [exchanges_append, List.mem_append] at hx
    rcases hx with hx | hx
    · obtain ⟨k, hk, hdl⟩ := h.writes x hx hw
      exact ⟨k, by omega, hdl⟩
    · exact ⟨n, by omega, hown hx hw⟩
  · rw [List.mem_append] at hd
    simp only [exchanges_append, List.mem_append]
    rcases hd with hd | hd
    · -- skipped before: the writes of this round go to another drive
      obtain ⟨⟨k, hk, rfl⟩, hold⟩ := h.skiped d v hd hv
      refine ⟨⟨k, by omega, rfl⟩, fun x hx hw ↦ ?_⟩
      rcases hx with hx | hx
      · exact hold x hx hw
      · rw [hown hx hw]
        exact (hnew k hk).symm
    · -- skipped in this round: the earlier writes went to other drives
      obtain ⟨rfl, hnone⟩ := wipeDisk_skiped hd
      refine ⟨⟨n, by omega, hid⟩, fun x hx hw ↦ ?_⟩
      rcases hx with hx | hx
      · obtain ⟨k, hk, hdl⟩ := h.writes x hx hw
        rw [hdl, hid]
        exact hnew k hk
      · exact absurd hw (hnone hv x hx)

theorem Spared.booked {ids : ℕ → UInt8} {n i : ℕ} {l : List Event} {ret : ℤ}
    (h : Spared opt ids n l) : Spared opt ids n (l ++ [.returned (.wipeDisk i) ret]) := by
  refine ⟨by simpa using h.test, by simpa using h.writes, ?_⟩
  simpa using h.skiped

/-- What the wipe loop keeps, from the machine `m` and behind the trace `l₀`: after `n` rounds the
list of disks is that of `m`, and the drives of the rounds so far have been spared. -/
def LoopSpared (opt : Options) (m : Machine σ) (l₀ : List Event) (n : ℕ) (_ : Unit)
    (m' : Machine σ) (l : List Event) : Prop :=
  m'.diskList = m.diskList ∧ Spared opt (fun k ↦ (m.diskList k).diskId) n (l₀ ++ l)

/-- **Any number of rounds**, after a trace `l₀` without writes. -/
theorem wipeFirst_spared {l₀ : List Event} {N : ℕ} (m : Machine σ)
    (hstart : Spared opt (fun k ↦ (m.diskList k).diskId) 0 l₀)
    (hnew : ∀ j < N, ∀ k < j, (m.diskList k).diskId ≠ (m.diskList j).diskId) :
    Spared opt (fun k ↦ (m.diskList k).diskId) N (l₀ ++ (wipeFirst env opt N m).events) := by
  have hinit : LoopSpared opt m l₀ 0 () m [] := ⟨rfl, by rwa [List.append_nil]⟩
  have hround : ∀ i b m' l, i < N → LoopSpared opt m l₀ i b m' l →
      LoopSpared opt m l₀ (i + 1) (wipeListed env opt i m').val (wipeListed env opt i m').state
        (l ++ (wipeListed env opt i m').events) := by
    rintro i - m' l hi ⟨hlist, h⟩
    obtain ⟨t, ht⟩ : ∃ t, t = wipeDisk env opt (m'.diskList i) m' := ⟨_, rfl⟩
    have hglob : SameGlobals m' t.state := ht ▸ wipeDisk_globals _ _ _ _
    rw [run_wipeListed i ht]
    refine ⟨?_, ?_⟩
    · rw [book_state]
      exact hglob.diskList.trans hlist
    · rw [← List.append_assoc, ← List.append_assoc, ht]
      exact (h.round (by rw [hlist]) (hnew i hi) m').booked
  exact (TraceM.forRange_invariant (LoopSpared opt m l₀) hinit hround).2

/-! ### The whole run -/

/-- The machine in which `enum_disk` starts. -/
def seeded (env : Env σ) (m : Machine σ) : Machine σ :=
  { m with ticks := m.ticks + 1
           randNext := UInt64.ofInt ((env.clock m.ticks).tvSec % 2 ^ 32) }

theorem run_doMain (uninit : Extensions) (m : Machine σ) {t : Traced (Machine σ) Event Unit}
    (ht : t = enumDisk env uninit (seeded env m)) :
    doMain env opt uninit m =
      ⟨(), (wipeFirst env opt t.state.totalDiskCnt.toNat t.state).state,
        t.events ++ (wipeFirst env opt t.state.totalDiskCnt.toNat t.state).events⟩ := by
  rw [seeded] at ht
  simp only [doMain, gettimeofday, srand, wipeAll, TraceM.run_bind, TraceM.run_read,
    TraceM.run_update, TraceM.run_pure, List.nil_append, ← ht]

/-- The wipe loop leaves the list of disks alone. -/
theorem wipeFirst_list (env : Env σ) (opt : Options) (N : ℕ) (m : Machine σ) :
    (wipeFirst env opt N m).state.diskList = m.diskList ∧
      (wipeFirst env opt N m).state.totalDiskCnt = m.totalDiskCnt := by
  refine TraceM.forRange_invariant
    (fun _ _ (m' : Machine σ) _ ↦ m'.diskList = m.diskList ∧ m'.totalDiskCnt = m.totalDiskCnt)
    ⟨rfl, rfl⟩ ?_
  rintro k - m' l - ⟨hlist, htotal⟩
  have hglob := wipeDisk_globals env opt (m'.diskList k) m'
  rw [run_wipeListed k rfl, book_state]
  exact ⟨hglob.diskList.trans hlist, hglob.totalDiskCnt.trans htotal⟩

/-- **No drive is listed twice**: the ids of the rounds are distinct, and a slot gets the id of its
round. -/
theorem Enumerated.distinct {ps : List DiskParam} {t : Traced (Machine σ) Event Unit}
    (h : Enumerated ps t) : ∀ j < ps.length, ∀ k < j,
      (t.state.diskList k).diskId ≠ (t.state.diskList j).diskId := by
  intro j hj k hk heq
  have horder := h.order
  rw [← h.slots, List.map_map, List.pairwise_map, List.pairwise_iff_getElem] at horder
  have hlt := horder k j (by simpa using hk.trans hj) (by simpa using hj) hk
  simp [heq] at hlt

/-- **Write safety.** With the BIOS reporting its errors in `AH`, over a whole run of `do_main`: in
test mode no write request is issued; and no write request is ever issued to a drive for which
`is_skiped_disk` has returned non-zero. -/
theorem write_safety (env : Env σ) (hrep : env.ReportsErrors) (opt : Options)
    (uninit : Extensions) (m : Machine σ) :
    (opt.test = true → ∀ x ∈ exchanges (doMain env opt uninit m).events, ¬x.IsWrite) ∧
    ∀ d v, .returned (.isSkipedDisk d) v ∈ (doMain env opt uninit m).events → v ≠ 0 →
      ∀ x ∈ exchanges (doMain env opt uninit m).events, x.IsWrite → x.req.reg.dl ≠ d := by
  obtain ⟨ps, -, henum⟩ := enumDisk_enumerated hrep uninit (fun _ _ _ ↦ True) trivial
    (fun _ _ _ _ _ _ ↦ trivial) (seeded env m)
  obtain ⟨t, ht⟩ : ∃ t, t = enumDisk env uninit (seeded env m) := ⟨_, rfl⟩
  rw [← ht] at henum
  have hrun : (doMain env opt uninit m).events =
      t.events ++ (wipeFirst env opt ps.length t.state).events := by
    rw [run_doMain uninit m ht, henum.total]
  have hquiet : ∀ x ∈ exchanges t.events, ¬x.IsWrite := by
    intro x hx
    have hah := henum.asks x hx
    simp only [List.mem_cons, List.not_mem_nil, or_false] at hah
    rcases hah with hah | hah | hah <;> simp [Exchange.IsWrite, hah]
  have hspared : Spared opt _ ps.length
      (t.events ++ (wipeFirst env opt ps.length t.state).events) :=
    wipeFirst_spared t.state (spared_of_quiet hquiet henum.returns) henum.distinct
  rw [hrun]
  exact ⟨hspared.test, fun d v hd hv ↦ (hspared.skiped d v hd hv).2⟩

/-- What the wipe loop keeps, from the machine `m` on: the list of disks, and requests that are well
made by the sizes in the list. -/
def LoopMade (env : Env σ) (size : UInt8 → ℕ) (m : Machine σ) (_ : ℕ) (_ : Unit)
    (m' : Machine σ) (l : List Event) : Prop :=
  m'.diskList = m.diskList ∧ ∀ x ∈ exchanges l, WellMade env (size x.req.reg.dl) x.req

theorem wipeFirst_made {size : UInt8 → ℕ} {N : ℕ} (m : Machine σ)
    (hsize : ∀ i < N, size (m.diskList i).diskId = (sectorSize (m.diskList i)).toNat) :
    ∀ x ∈ exchanges (wipeFirst env opt N m).events, WellMade env (size x.req.reg.dl) x.req := by
  have hinit : LoopMade env size m 0 () m [] := ⟨rfl, by simp⟩
  have hround : ∀ i b m' l, i < N → LoopMade env size m i b m' l →
      LoopMade env size m (i + 1) (wipeListed env opt i m').val (wipeListed env opt i m').state
        (l ++ (wipeListed env opt i m').events) := by
    rintro i - m' l hi ⟨hlist, h⟩
    have hglob := wipeDisk_globals env opt (m'.diskList i) m'
    rw [run_wipeListed i rfl]
    refine ⟨by rw [book_state]; exact hglob.diskList.trans hlist, fun x hx ↦ ?_⟩
    simp only [exchanges_append, exchanges_returned, exchanges_nil, List.append_nil,
      List.mem_append] at hx
    rcases hx with hx | hx
    · exact h x hx
    · rw [wipeDisk_drive hx, hlist, hsize i hi, ← hlist]
      exact wipeDisk_wellMade hx
  exact (TraceM.forRange_invariant (LoopMade env size m) hinit hround).2

/-- The three questions of the enumeration are well made, whatever the sector size: they transfer
nothing. -/
theorem wellMade_of_mem_asked {k : ℕ} {diskId : UInt8} {m : Machine σ} {x : Exchange}
    (h : x ∈ asked env diskId m) : WellMade env k x.req := by
  have hmade (q : RealArea) (hah : q.reg.ah ∈ [0x08, 0x41, 0x48])
      (hparams : q.reg.ah = 0x48 → q.reg.si = env.paramExtOffset ∧ q.paramExt.size = 0x1e) :
      WellMade env k q := by
    have hcase : q.reg.ah = 0x08 ∨ q.reg.ah = 0x41 ∨ q.reg.ah = 0x48 := by simpa using hah
    refine ⟨⟨fun h' ↦ ?_, fun h' ↦ ?_⟩, ?_, fun h' ↦ ?_, fun h' ↦ ?_, hparams⟩
    · rcases hcase with h | h | h <;> simp [h] at h'
    · rcases hcase with h | h | h <;> simp [h] at h'
    · rcases hcase with h | h | h <;> simp [h]
    · rcases hcase with h | h | h <;> simp [h] at h'
    · rcases hcase with h | h | h <;> simp [h] at h'
  refine hmade _ (of_mem_asked h).1 fun h48 ↦ ?_
  rcases mem_asked h with rfl | rfl | rfl
  · exact absurd h48 (show ¬(0x08 : UInt8) = 0x48 by decide)
  · exact absurd h48 (show ¬(0x41 : UInt8) = 0x48 by decide)
  · exact ⟨rfl, rfl⟩

/-- **Every request of every run of `do_main` is well made**, by any sizes that agree with the list
of disks: this is what the stubs need of their caller. -/
theorem doMain_wellMade (hrep : env.ReportsErrors) (uninit : Extensions) (m : Machine σ)
    {size : UInt8 → ℕ} (hsize : ∀ i < (doMain env opt uninit m).state.totalDiskCnt.toNat,
      size ((doMain env opt uninit m).state.diskList i).diskId =
        (sectorSize ((doMain env opt uninit m).state.diskList i)).toNat) :
    ∀ x ∈ exchanges (doMain env opt uninit m).events,
      WellMade env (size x.req.reg.dl) x.req := by
  obtain ⟨t, ht⟩ : ∃ t, t = enumDisk env uninit (seeded env m) := ⟨_, rfl⟩
  obtain ⟨-, hquestions, -⟩ := enumDisk_enumerated hrep uninit
    (fun _ _ xs ↦ ∀ x ∈ xs, WellMade env (size x.req.reg.dl) x.req) (by simp)
    (by
      intro i ps xs m' _ h x hx
      rcases List.mem_append.1 hx with hx | hx
      · exact h x hx
      · exact wellMade_of_mem_asked hx)
    (seeded env m)
  obtain ⟨hlist, htotal⟩ := wipeFirst_list env opt t.state.totalDiskCnt.toNat t.state
  rw [run_doMain uninit m ht, htotal, hlist] at hsize
  rw [run_doMain uninit m ht]
  intro x hx
  rw [exchanges_append, List.mem_append] at hx
  rcases hx with hx | hx
  · rw [ht] at hx
    exact hquestions x hx
  · exact wipeFirst_made t.state hsize x hx

/-- One drive, a CD-ROM. -/
def cdrom : Assignment := fun _ dl ↦
  if dl = 0x80 then
    ⟨false, { RealArea.zero.reg with cl := 1, dl := 1 },
      { DiskParamExt.zero with nsectors := 17, bytesPerSector := 2048 }⟩
  else ⟨true, { RealArea.zero.reg with ah := 1 }, DiskParamExt.zero⟩

/-- The CD-ROM is skipped, and never written to. -/
theorem write_safety_cdrom :
    .returned (.isSkipedDisk 0x80) 1 ∈
      (doMain (Env.assigned cdrom) Options.plain ⟨0, 0⟩ (Machine.fresh () 1)).events ∧
    ∀ x ∈ exchanges (doMain (Env.assigned cdrom) Options.plain ⟨0, 0⟩ (Machine.fresh () 1)).events,
      x.IsWrite → x.req.reg.dl ≠ 0x80 := by
  have hrep : (Env.assigned cdrom).ReportsErrors := by
    intro b q
    show (cdrom q.reg.ah q.reg.dl).carry = true → (cdrom q.reg.ah q.reg.dl).reg.ah ≠ 0
    rw [cdrom]
    split_ifs <;> decide
  obtain ⟨m₀, hm₀⟩ : ∃ m₀ : Machine Unit, m₀ =
      seeded (Env.assigned cdrom) (Machine.fresh () 1) := ⟨_, rfl⟩
  obtain ⟨t, ht⟩ : ∃ t, t = enumDisk (Env.assigned cdrom) ⟨0, 0⟩ m₀ := ⟨_, rfl⟩
  have henum : Enumerated [entry cdrom 0x80] t := by
    have hfound : found cdrom 128 = [0x80] := by decide +kernel
    have h := enumerated_found hrep (answeredBy_assigned cdrom hrep ⟨0, 0⟩ m₀)
    rwa [hfound, ← ht] at h
  have hdisk : t.state.diskList 0 = entry cdrom 0x80 := by simpa using henum.slots
  have hmem : .returned (.isSkipedDisk 0x80) 1 ∈
      (doMain (Env.assigned cdrom) Options.plain ⟨0, 0⟩ (Machine.fresh () 1)).events := by
    have hskip : isSkipedDisk (Env.assigned cdrom) Options.plain (entry cdrom 0x80) t.state =
        ⟨1, t.state, []⟩ := by
      rw [isSkipedDisk, if_pos (by decide)]
      rfl
    have hround : (wipeDisk (Env.assigned cdrom) Options.plain (entry cdrom 0x80) t.state).events =
        [.returned (.isSkipedDisk 0x80) 1] := by
      rw [wipeDisk_of_skiped hskip.symm Int.one_ne_zero]
      rfl
    rw [run_doMain _ _ (hm₀ ▸ ht), henum.total, List.length_singleton, wipeFirst,
      TraceM.forRange_succ]
    refine List.mem_append_right _ ?_
    simp [TraceM.forRange, wipeListed, hdisk, hround]
  exact ⟨hmem, (write_safety _ hrep _ _ _).2 _ _ hmem Int.one_ne_zero⟩

end Dwipe

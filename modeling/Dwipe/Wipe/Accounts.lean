import Dwipe.Library.Ledger
import Dwipe.Wipe.Walk

/-!
# The books of a run

The trace of a run of `wipe_disk` read as a ledger. A call of `wipe_sectors_lba` that returned has
issued the bytes of its sectors, and `update_progress` claims `done_bytes`. The run is honest if
**`done_bytes` is never ahead of what was issued** (`NeverAhead`).

The loop invariant is exact: before round `k` the bytes issued, the bytes done and the last claim
are all `8192 * k` (`AtBalance`). What `update_progress` does to its record is taken from
`updateProgress_updated`, and everything else in a run enters nothing into the books.
-/

namespace Dwipe

variable {σ : Type} {env : Env σ} {opt : Options} {param : DiskParam}

/-! ### Entries -/

/-- The bytes a call has issued, in sectors of `size` bytes. -/
def Event.issued (size : ℕ) : Event → ℕ
  | .returned (.wipeSectorsLba _ n) _ => n.toNat * size
  | _ => 0

/-- `total_bytes` and `done_bytes`, where `update_progress` has brought them up to date. -/
def Event.account? : Event → Option (UInt64 × UInt64)
  | .account total done => some (total, done)
  | _ => none

/-- The progress of a run, update by update, as pairs of the total and what is done. -/
def accounts (l : List Event) : List (UInt64 × UInt64) := l.filterMap Event.account?

/-- The bytes issued by the calls of a trace. -/
def issuedBytes (size : ℕ) (l : List Event) : ℕ := Ledger.total (Event.issued size) l

/-- **`done_bytes` never exceeds the bytes issued so far**, with `n` of them before the trace. -/
def NeverAhead (size n : ℕ) (l : List Event) : Prop :=
  Ledger.Covered (Event.issued size) (fun e ↦ e.account?.map fun p ↦ p.2.toNat) n l

/-- An event that enters nothing into the books. -/
def Event.Unbooked (e : Event) : Prop := e.account? = none ∧ ∀ size, e.issued size = 0

theorem accounts_append (l l' : List Event) : accounts (l ++ l') = accounts l ++ accounts l' :=
  List.filterMap_append

theorem accounts_of_unbooked {l : List Event} (h : ∀ e ∈ l, e.Unbooked) : accounts l = [] :=
  List.filterMap_eq_nil_iff.2 fun e he ↦ (h e he).1

/-- **The books after a trace**: the bytes issued, nothing claimed ahead of them, and the last
claim. -/
structure Books (size : ℕ) (l : List Event) (n : ℕ) (last : Option (UInt64 × UInt64)) : Prop where
  issued : issuedBytes size l = n
  honest : NeverAhead size 0 l
  last : (accounts l).getLast? = last

section books

variable {size n : ℕ} {l l' : List Event} {last : Option (UInt64 × UInt64)}

theorem Books.unbooked (h : Books size l n last) (hl' : ∀ e ∈ l', e.Unbooked) :
    Books size (l ++ l') n last := by
  have hzero : issuedBytes size l' = 0 := Ledger.total_eq_zero fun e he ↦ (hl' e he).2 size
  refine ⟨?_, h.honest.append (Ledger.covered_of_no_claim fun e he ↦ ?_), ?_⟩
  · rw [issuedBytes, Ledger.total_append, ← issuedBytes, ← issuedBytes, h.issued, hzero]
    exact Nat.add_zero n
  · rw [(hl' e he).1]
    rfl
  · rw [accounts_append, accounts_of_unbooked hl', List.append_nil, h.last]

theorem books_of_unbooked (hl : ∀ e ∈ l, e.Unbooked) : Books size l 0 none := by
  have hnil : Books size [] 0 none :=
    ⟨rfl, Ledger.covered_of_no_claim fun _ h ↦ absurd h List.not_mem_nil, rfl⟩
  exact hnil.unbooked hl

theorem NeverAhead.prepend (h : NeverAhead size 0 l) (hl' : ∀ e ∈ l', e.Unbooked) :
    NeverAhead size 0 (l' ++ l) := by
  have hzero : issuedBytes size l' = 0 := Ledger.total_eq_zero fun e he ↦ (hl' e he).2 size
  have hl'' : Books size l' 0 none := books_of_unbooked hl'
  refine hl''.honest.append ?_
  rw [← issuedBytes, hzero]
  exact h

/-- **A call that returns** issues the bytes of its sectors. -/
theorem Books.call (h : Books size l n last) (offset : UInt64) (c : UInt32) (ret : ℤ) :
    Books size (l ++ [.returned (.wipeSectorsLba offset c) ret]) (n + c.toNat * size) last := by
  refine ⟨?_, h.honest.append (Ledger.covered_singleton fun d hd ↦ ?_), ?_⟩
  · rw [issuedBytes, Ledger.total_append, ← issuedBytes, h.issued]
    rfl
  · exact absurd hd (by simp [Event.account?])
  · rw [accounts_append]
    exact (congrArg List.getLast? (List.append_nil _)).trans h.last

/-- **A claim that is covered** keeps the books honest. -/
theorem Books.account (h : Books size l n last) (total done : UInt64) (hle : done.toNat ≤ n) :
    Books size (l ++ [.account total done]) n (some (total, done)) := by
  refine ⟨?_, h.honest.append (Ledger.covered_singleton fun d hd ↦ ?_), ?_⟩
  · rw [issuedBytes, Ledger.total_append, ← issuedBytes, h.issued]
    rfl
  · obtain rfl : done.toNat = d := Option.some.inj hd
    rw [Nat.zero_add, ← issuedBytes, h.issued]
    exact hle
  · rw [accounts_append]
    exact List.getLast?_concat

end books

/-! ### What enters nothing -/

theorem unbooked_of_not_incidental (e : Event) (h : ¬e.Incidental) : e.Unbooked := by
  cases e with
  | int13 | transfer | copy => exact ⟨rfl, fun _ ↦ rfl⟩
  | returned | store | divide | account | progress => exact absurd trivial h

theorem isSkipedDisk_unbooked (m : Machine σ) :
    ∀ e ∈ (isSkipedDisk env opt param m).events, e.Unbooked :=
  (isSkipedDisk_records (TraceM.appends_forall _)
    (fun _ ↦ labelReads_forall unbooked_of_not_incidental) m).1

theorem inside_unbooked : Inside fun l ↦ ∀ e ∈ l, e.Unbooked where
  toAppends := TraceM.appends_forall _
  divide _ _ _ he := List.mem_singleton.1 he ▸ ⟨rfl, fun _ ↦ rfl⟩
  passWrite _ _ _ he := List.mem_singleton.1 he ▸ ⟨rfl, fun _ ↦ rfl⟩

theorem wipeSectorsLba_unbooked (htrack : param.hasExt = 0 → param.lastSectorsPerTrack ≠ 0)
    (offset : UInt64) (n : UInt32) (b : Buffer) (size : UInt32) (m : Machine σ) :
    ∀ e ∈ (wipeSectorsLba env opt param offset n b size m).events, e.Unbooked :=
  (wipeSectorsLba_records inside_unbooked (callMoves_forall unbooked_of_not_incidental b.len)
    htrack rfl m).1

theorem wipeMbr_unbooked (s : WipeState) (m : Machine σ) :
    ∀ e ∈ (wipeMbr env opt param s m).events, e.Unbooked := by
  have hT : TraceM.Appends fun l : List Event ↦ ∀ e ∈ l, e.Unbooked := TraceM.appends_forall _
  have hrun : TraceM.Records (fun l ↦ ∀ e ∈ l, e.Unbooked) (fun _ ↦ True)
      (wipeMbr env opt param s) := by
    rw [wipeMbr]
    refine TraceM.Records.ite (fun _ ↦ ?_) fun _ ↦ TraceM.records_pure hT trivial
    refine (TraceM.records_update hT _).bind hT fun _ _ ↦ ?_
    refine TraceM.Records.bind hT (sectorChsRw_forall unbooked_of_not_incidental _ _) fun _ _ ↦ ?_
    refine (TraceM.records_emit fun e he ↦ ?_).bind hT fun _ _ ↦ TraceM.records_pure hT trivial
    rw [List.mem_singleton.1 he]
    exact ⟨rfl, fun _ ↦ rfl⟩
  exact (hrun m).1

/-! ### The steps of the program -/

section steps

variable {size n : ℕ} {l : List Event} {last : Option (UInt64 × UInt64)}

theorem Books.wipeCall (h : Books size l n last)
    (htrack : param.hasExt = 0 → param.lastSectorsPerTrack ≠ 0) {offset : UInt64} {c : UInt32}
    {b : Buffer} {m : Machine σ} {t : Traced (Machine σ) Event Xfer}
    (ht : t = wipeCall env opt param offset c b m) :
    Books size (l ++ t.events) (n + c.toNat * size) last := by
  obtain ⟨u, hu⟩ : ∃ u, u = wipeSectorsLba env opt param offset c b wipeBufferSize m := ⟨_, rfl⟩
  have hinner : ∀ e ∈ u.events, e.Unbooked := hu ▸ wipeSectorsLba_unbooked htrack _ _ _ _ m
  have hcall := (h.unbooked hinner).call offset c u.val.ret
  rw [List.append_assoc, hu] at hcall
  rw [ht]
  exact hcall

theorem Books.updateProgress (h : Books size l n last) {p : Progress} {k : UInt64}
    {m : Machine σ} {u : Traced (Machine σ) Event Progress} (hu : Updated p k m u)
    (hle : (p.advanced k).toNat ≤ n) :
    Books size (l ++ u.events) n (some (u.val.totalBytes, u.val.doneBytes)) := by
  obtain ⟨ds, lines, hevents, -⟩ := hu.events
  have hrest : ∀ e ∈ ds.map Event.divide ++ lines.map Event.progress, e.Unbooked := by
    intro e he
    rw [List.mem_append, List.mem_map, List.mem_map] at he
    rcases he with ⟨d, -, rfl⟩ | ⟨line, -, rfl⟩ <;> exact ⟨rfl, fun _ ↦ rfl⟩
  have hbooks := (h.account p.totalBytes (p.advanced k) hle).unbooked hrest
  rw [List.append_assoc] at hbooks
  rw [hevents, hu.total, hu.done]
  exact hbooks

end steps

/-! ### The wipe loop -/

/-- A call of `wipe_sectors_lba` has failed, so the run has jumped to `fail`. -/
def CallFailed (l : List Event) : Prop :=
  ∃ offset n ret, .returned (.wipeSectorsLba offset n) ret ∈ l ∧ ret < 0

theorem callFailed_of_call {offset : UInt64} {c : UInt32} {b : Buffer} {m : Machine σ}
    {t : Traced (Machine σ) Event Xfer} (ht : t = wipeCall env opt param offset c b m)
    (hret : t.val.ret < 0) {l : List Event} (hl : t.events ⊆ l) : CallFailed l := by
  refine ⟨offset, c, t.val.ret, hl ?_, hret⟩
  rw [ht]
  exact List.mem_append_right _ List.mem_cons_self

/-- **The balance before round `k`**: the bytes issued, the bytes done and the last claim agree. -/
structure AtBalance (opt : Options) (param : DiskParam) (k : ℕ) (s : WipeState) (l : List Event) :
    Prop where
  offsetLba : s.offsetLba = chunkOffset opt param k
  total : s.progress.totalBytes = totalSize opt param
  done : s.progress.doneBytes.toNat = 8192 * k
  books : Books 512 l (8192 * k) (some (s.progress.totalBytes, s.progress.doneBytes))

section loop

variable {s : WipeState} {m : Machine σ} {l : List Event} (hp : isCdrom param = 0)
  (hpos : 1 ≤ (totalSec opt param).toNat)

include hpos in
theorem track_of_pos (hext : param.hasExt = 0) : param.lastSectorsPerTrack ≠ 0 := by
  intro h0
  rw [(totalSec_chs_eq_zero_iff opt (Or.inl hext)).2 h0] at hpos
  exact absurd hpos (by decide)

include hp hpos

theorem chunkRound_balance {k : ℕ} (hk : k < chunkCount opt param)
    (h : AtBalance opt param k s l) :
    TraceM.ExitPost (fun s _ l ↦ AtBalance opt param (k + 1) s l)
      (fun _ _ l ↦ NeverAhead 512 0 l ∧ CallFailed l) l (chunkRound env opt param s m) := by
  have hcount := chunkCount_eq opt hp
  have hsize := totalSize_toNat opt hp
  obtain ⟨t, ht⟩ : ∃ t, t =
      wipeCall env opt param s.offsetLba (chunkSectors opt param) s.buffer m := ⟨_, rfl⟩
  obtain ⟨u, hu⟩ : ∃ u, u =
      updateProgress env s.progress wipeBufferSize.toUInt64 t.state := ⟨_, rfl⟩
  have hchunk : wipeBufferSize.toUInt64.toNat = 8192 := rfl
  have hupdated : Updated s.progress wipeBufferSize.toUInt64 t.state u :=
    hu ▸ updateProgress_updated _ _ _ _
  have hdone : (s.progress.advanced wipeBufferSize.toUInt64).toNat = 8192 * (k + 1) := by
    have hroom : s.progress.doneBytes.toNat + wipeBufferSize.toUInt64.toNat ≤
        s.progress.totalBytes.toNat := by
      rw [h.done, h.total, hsize, hchunk]
      omega
    rw [Progress.advanced_toNat hroom, h.done, hchunk]
    omega
  -- the division, the call and the update, one after the other
  have hdivide : ∀ e ∈ [Event.divide (wipeSectorSize opt param).toNat], e.Unbooked := fun e he ↦
    List.mem_singleton.1 he ▸ ⟨rfl, fun _ ↦ rfl⟩
  have hcall := (h.books.unbooked hdivide).wipeCall (track_of_pos hpos) ht
  have hissued : 8192 * k + (chunkSectors opt param).toNat * 512 = 8192 * (k + 1) := by
    rw [chunkSectors_of_not_cdrom opt hp]
    show 8192 * k + 16 * 512 = _
    omega
  rw [hissued] at hcall
  have hbooks := hcall.updateProgress hupdated hdone.le
  rw [List.append_assoc, List.append_assoc] at hbooks
  rw [run_chunkRound ht hu]
  by_cases hret : t.val.ret < 0
  · refine TraceM.exitPost_of_error (if_pos hret) ⟨hbooks.honest, ?_⟩
    refine callFailed_of_call ht hret fun e he ↦ ?_
    exact List.mem_append_right _ (List.mem_append_right _ (List.mem_append_left _ he))
  · refine TraceM.exitPost_of_ok (if_neg hret) ⟨?_, ?_, ?_, hbooks⟩
    · rw [chunkOffset_succ, ← h.offsetLba]
    · show u.val.totalBytes = _
      rw [hupdated.total, h.total]
    · show u.val.doneBytes.toNat = _
      rw [hupdated.done, hdone]

/-- **The chunk loop keeps the balance**, or is left by a failed call with honest books. -/
theorem wipeChunks_balance (h : AtBalance opt param 0 s l) :
    TraceM.ExitPost (fun s _ l ↦ AtBalance opt param (chunkCount opt param) s l)
      (fun _ _ l ↦ NeverAhead 512 0 l ∧ CallFailed l) l (wipeChunks env opt param s m) := by
  rw [wipeChunks_eq]
  exact TraceM.forExit_invariant (fun k s _ l ↦ AtBalance opt param k s l) _ h
    fun k s m l hk hs ↦ chunkRound_balance hp hpos hk hs

variable (hfit : (totalSec opt param).toNat * 512 < 2 ^ 64)

include hfit

/-- The books after the remainder: everything is done. -/
abbrev AllDone (opt : Options) (param : DiskParam) (l : List Event) : Prop :=
  Books 512 l ((totalSec opt param).toNat * 512) (some (totalSize opt param, totalSize opt param))

omit hpos in
theorem leftBytes_toNat : (leftBytes opt param).toNat = (leftSec opt param).toNat * 512 := by
  have hle : (leftSec opt param).toNat ≤ (totalSec opt param).toNat := by
    rw [leftSec_toNat opt hp]
    exact Nat.sub_le _ _
  have hlt : (leftSec opt param).toNat * 512 < 2 ^ 64 :=
    (Nat.mul_le_mul_right 512 hle).trans_lt hfit
  have h512 : (512 : UInt32).toUInt64.toNat = 512 := rfl
  rw [leftBytes, wipeSectorSize_of_not_cdrom opt hp, UInt64.toNat_mul, h512]
  exact Nat.mod_eq_of_lt hlt

omit hpos in
/-- **The last update completes the record.** -/
theorem AtBalance.advanced_eq (h : AtBalance opt param (chunkCount opt param) s l) :
    s.progress.advanced (leftBytes opt param) = totalSize opt param := by
  have hcount := chunkCount_eq opt hp
  have hsize := totalSize_toNat opt hp
  have hleft := leftSec_toNat opt hp
  have hbytes := leftBytes_toNat hp hfit
  have hroom : s.progress.doneBytes.toNat + (leftBytes opt param).toNat ≤
      s.progress.totalBytes.toNat := by
    rw [h.done, h.total, hsize, hbytes]
    omega
  refine UInt64.toNat_inj.1 ?_
  rw [Progress.advanced_toNat hroom, h.done, hbytes, hsize]
  omega

omit hpos in
/-- Once all sectors have been issued, the last update leaves everything done. -/
theorem AtBalance.allDone (h : AtBalance opt param (chunkCount opt param) s l)
    {l' : List Event} {last : Option (UInt64 × UInt64)}
    (hbooks : Books 512 l' ((totalSec opt param).toNat * 512) last) {m : Machine σ}
    {u : Traced (Machine σ) Event Progress} (hu : Updated s.progress (leftBytes opt param) m u) :
    AllDone opt param (l' ++ u.events) := by
  have hdone := h.advanced_eq hp hfit
  have hle : (s.progress.advanced (leftBytes opt param)).toNat ≤
      (totalSec opt param).toNat * 512 := by
    rw [hdone, totalSize_toNat opt hp]
    exact Nat.mod_le _ _
  have hall := hbooks.updateProgress hu hle
  rw [hu.total, hu.done, h.total, hdone] at hall
  exact hall

theorem wipeRemainder_allDone (h : AtBalance opt param (chunkCount opt param) s l) :
    TraceM.ExitPost (fun _ _ l ↦ AllDone opt param l)
      (fun _ _ l ↦ NeverAhead 512 0 l ∧ CallFailed l) l (wipeRemainder env opt param s m) := by
  have hcount := chunkCount_eq opt hp
  have hleft : totalSec opt param - s.offsetLba = leftSec opt param := by rw [h.offsetLba, leftSec]
  by_cases h0 : leftSec opt param ≠ 0
  · obtain ⟨t, ht⟩ : ∃ t, t =
        wipeCall env opt param s.offsetLba (leftSec opt param).toUInt32 s.buffer m := ⟨_, rfl⟩
    obtain ⟨u, hu⟩ : ∃ u, u = updateProgress env s.progress (leftBytes opt param) t.state :=
      ⟨_, rfl⟩
    have hissued : 8192 * chunkCount opt param + (leftSec opt param).toUInt32.toNat * 512 =
        (totalSec opt param).toNat * 512 := by
      rw [leftSec_toUInt32_toNat opt hp, hcount]
      omega
    have hcall := h.books.wipeCall (track_of_pos hpos) ht
    rw [hissued] at hcall
    rw [run_wipeRemainder hleft h0 ht hu]
    by_cases hret : t.val.ret < 0
    · rw [if_pos hret]
      exact TraceM.exitPost_of_error rfl ⟨hcall.honest,
        callFailed_of_call ht hret (List.subset_append_right _ _)⟩
    · have hall := h.allDone hp hfit hcall (hu ▸ updateProgress_updated _ _ _ _)
      rw [List.append_assoc] at hall
      rw [if_neg hret]
      exact TraceM.exitPost_of_ok rfl hall
  · obtain ⟨u, hu⟩ : ∃ u, u = updateProgress env s.progress (leftBytes opt param) m := ⟨_, rfl⟩
    have hissued : 8192 * chunkCount opt param = (totalSec opt param).toNat * 512 := by
      have hnone := (leftSec_eq_zero_iff opt hp).1 (not_not.1 h0)
      rw [hcount]
      omega
    have hall := h.allDone hp hfit (hissued ▸ h.books) (hu ▸ updateProgress_updated _ _ _ _)
    rw [run_wipeRemainder_of_none hleft h0 hu]
    exact TraceM.exitPost_of_ok rfl hall

/-- **How the books of a run end**: they are honest, and everything is done unless a call has
failed. -/
def Closed (opt : Options) (param : DiskParam) (l : List Event) : Prop :=
  NeverAhead 512 0 l ∧
    (¬CallFailed l → (accounts l).getLast? = some (totalSize opt param, totalSize opt param))

omit hp hpos hfit in
theorem closed_of_failed (h : NeverAhead 512 0 l ∧ CallFailed l) : Closed opt param l :=
  ⟨h.1, fun hnot ↦ absurd h.2 hnot⟩

omit hp hpos hfit in
theorem closed_of_allDone (h : AllDone opt param l) : Closed opt param l :=
  ⟨h.honest, fun _ ↦ h.last⟩

omit hp hpos hfit in
theorem Closed.prepend {l' : List Event} (h : Closed opt param l) (hl' : ∀ e ∈ l', e.Unbooked) :
    Closed opt param (l' ++ l) := by
  refine ⟨h.1.prepend hl', fun hnot ↦ ?_⟩
  rw [accounts_append, accounts_of_unbooked hl', List.nil_append]
  refine h.2 fun ⟨offset, n, ret, hmem, hret⟩ ↦ hnot ?_
  exact ⟨offset, n, ret, List.mem_append_right _ hmem, hret⟩

theorem wipeTail_closed (h : AtBalance opt param (chunkCount opt param) s l) :
    Closed opt param (l ++ (wipeTail env opt param s m).events) := by
  have hpost : TraceM.ExitPost _ _ l (wipeRemainder env opt param s m) :=
    wipeRemainder_allDone hp hpos hfit h
  simp only [wipeTail, TraceM.run_bind]
  cases hv : (wipeRemainder env opt param s m).val with
  | error ret =>
    refine closed_of_failed ?_
    simpa using hpost.of_error hv
  | ok s' =>
    refine closed_of_allDone ?_
    rw [← List.append_assoc]
    exact (hpost.of_ok hv).unbooked (wipeMbr_unbooked s' _)

theorem wipeBuffer_closed (buffer : Buffer) (m : Machine σ) :
    Closed opt param (wipeBuffer env opt param buffer m).events := by
  have hsize := totalSize_toNat opt hp
  have hne : totalSize opt param ≠ 0 := by
    intro h0
    rw [h0, Nat.mod_eq_of_lt hfit] at hsize
    exact absurd hsize (by simp; omega)
  obtain ⟨t, ht⟩ : ∃ t, t = resetProgress env (totalSize opt param) m := ⟨_, rfl⟩
  obtain ⟨u, hu⟩ : ∃ u, u = updateProgress env t.val 0 t.state := ⟨_, rfl⟩
  have hupdated : Updated t.val 0 t.state u := hu ▸ updateProgress_updated _ _ _ _
  have htotal : t.val.totalBytes = totalSize opt param := by
    rw [ht]
    exact if_neg hne
  have hzero : t.val.doneBytes.toNat = 0 := by
    rw [ht]
    rfl
  have htq : t.events = [] := by
    rw [ht]
    rfl
  have hdone : (t.val.advanced 0).toNat = 0 := by
    have hroom : t.val.doneBytes.toNat + (0 : UInt64).toNat ≤ t.val.totalBytes.toNat := by
      rw [hzero]
      exact Nat.zero_le _
    rw [Progress.advanced_toNat hroom, hzero]
    rfl
  have hstart : AtBalance opt param 0 ⟨-1, buffer, 0, u.val⟩ u.events := by
    have hnil : Books 512 [] 0 none := books_of_unbooked fun _ h ↦ absurd h List.not_mem_nil
    refine ⟨?_, hupdated.total.trans htotal, ?_, hnil.updateProgress hupdated hdone.le⟩
    · simp [chunkOffset]
    · show u.val.doneBytes.toNat = 0
      rw [hupdated.done, hdone]
  have hpost : TraceM.ExitPost _ _ u.events
      (wipeChunks env opt param ⟨-1, buffer, 0, u.val⟩ u.state) :=
    wipeChunks_balance hp hpos hstart
  simp only [wipeBuffer, TraceM.run_bind, ← ht, ← hu, htq, List.nil_append]
  cases hv : (wipeChunks env opt param ⟨-1, buffer, 0, u.val⟩ u.state).val with
  | error ret =>
    refine closed_of_failed ?_
    simpa using hpost.of_error hv
  | ok s =>
    rw [← List.append_assoc]
    exact wipeTail_closed hp hpos hfit (hpost.of_ok hv)

end loop

end Dwipe

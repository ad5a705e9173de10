import Dwipe.Disk.Fat
import Dwipe.Disk.Transfers

/-!
# What the label scan finds

`contain_fat_label`, seen from its reads. When the partition table cannot be read the scan gives up
with 0; when it can, the scan goes through the four entries and answers 1 at the first one whose
boot sector was read and carries the label (`scanTable_cases`). What counts as the label is settled
by `labelMatches_iff`: the comparison stops at the first blank of the field.
-/

namespace Dwipe

variable {σ : Type} {env : Env σ} {opt : Options} {param : DiskParam}

/-- The scan after the partition table has been read into `buffer`. -/
def scanTable (env : Env σ) (opt : Options) (param : DiskParam) (buffer : Buffer) : Prog σ ℤ := do
  match ← TraceM.forExit 4 buffer fun i b ↦
      scanEntry env opt param (mbrEntry buffer.byte i) b with
  | .ok _ => return 0
  | .error ret => return ret

/-- The machine in which the partition table is read. -/
def labelMachine (m : Machine σ) : Machine σ :=
  { m with site := .label, ticks := m.ticks + 1 }

/-- The read of the partition table, with which every scan begins. -/
def tableRead (env : Env σ) (param : DiskParam) (m : Machine σ) : Traced (Machine σ) Event Xfer :=
  readSectorsChs env param ⟨0, 0, 1⟩ 1 ⟨labelBufferSize.toNat, env.stack m.ticks⟩ labelBufferSize
    (labelMachine m)

/-- The scan is the read of the table, and then what comes of it. -/
theorem run_containFatLabel (str : CString) (m : Machine σ)
    {t : Traced (Machine σ) Event Xfer} (ht : t = tableRead env param m)
    {u : Traced (Machine σ) Event ℤ}
    (hu : u = if t.val.ret ≠ 0 ∨ t.val.size ≠ 512 then ⟨0, t.state, []⟩
      else scanTable env opt param t.val.buffer t.state) :
    containFatLabel env opt param str m = ⟨u.val, u.state, t.events ++ u.events⟩ := by
  subst ht
  have hu' : u = (if (tableRead env param m).val.ret ≠ 0 ∨ (tableRead env param m).val.size ≠ 512
      then pure 0 else scanTable env opt param (tableRead env param m).val.buffer : Prog σ ℤ)
      (tableRead env param m).state := by
    rw [hu, TraceM.run_ite]
    rfl
  subst hu'
  rfl

theorem containFatLabel_val (str : CString) (m : Machine σ) :
    (containFatLabel env opt param str m).val =
      if (tableRead env param m).val.ret ≠ 0 ∨ (tableRead env param m).val.size ≠ 512 then 0
      else (scanTable env opt param (tableRead env param m).val.buffer
        (tableRead env param m).state).val := by
  rw [run_containFatLabel str m rfl rfl]
  split_ifs <;> rfl

/-- The events of the scan: those of the read of the table, and those of the entries. -/
theorem containFatLabel_events (str : CString) (m : Machine σ) :
    (containFatLabel env opt param str m).events = (tableRead env param m).events ++
      if (tableRead env param m).val.ret ≠ 0 ∨ (tableRead env param m).val.size ≠ 512 then []
      else (scanTable env opt param (tableRead env param m).val.buffer
        (tableRead env param m).state).events := by
  rw [run_containFatLabel str m rfl rfl]
  split_ifs <;> rfl

/-! ### The comparison -/

/-- The string left of a field once its spaces are NULs: the field goes on with a blank, a space or
a NUL, or ends there. -/
theorem eq_cString_iff (l s : List UInt8) (hs : 0 ∉ s) :
    s = cString ((l ++ [0]).map fun b ↦ if b = 0x20 then 0 else b) ↔
      0x20 ∉ s ∧ ∃ t, l = s ++ t ∧ ∀ b ∈ t.head?, b = 0x20 ∨ b = 0 := by
  induction l generalizing s with
  | nil =>
    cases s with
    | nil => simp [cString]
    | cons c s => simp [cString]
  | cons a l ih =>
    by_cases ha : a = 0x20 ∨ a = 0
    · -- a blank ends the string, and the field may go on
      have hcut : cString ((a :: l ++ [0]).map fun b ↦ if b = 0x20 then 0 else b) = [] := by
        rcases ha with rfl | rfl <;> rfl
      rw [hcut]
      constructor
      · rintro rfl
        exact ⟨List.not_mem_nil, a :: l, rfl, by simpa using ha⟩
      · rintro ⟨hspace, t, ht, -⟩
        cases s with
        | nil => rfl
        | cons c s =>
          obtain ⟨rfl, -⟩ := List.cons.inj ht
          rcases ha with rfl | rfl
          · exact absurd List.mem_cons_self hspace
          · exact absurd List.mem_cons_self hs
    · obtain ⟨hspace, hnul⟩ := not_or.1 ha
      have hkeep : cString ((a :: l ++ [0]).map fun b ↦ if b = 0x20 then 0 else b) =
          a :: cString ((l ++ [0]).map fun b ↦ if b = 0x20 then 0 else b) := by
        simp [cString, hspace, hnul]
      rw [hkeep]
      cases s with
      | nil =>
        refine iff_of_false (by simp) ?_
        rintro ⟨-, t, rfl, ht⟩
        exact ha (ht a rfl)
      | cons c s =>
        rw [List.cons.injEq, ih s fun h ↦ hs (List.mem_cons_of_mem _ h)]
        constructor
        · rintro ⟨rfl, hs', t, rfl, ht⟩
          refine ⟨?_, t, rfl, ht⟩
          simp [hs', Ne.symm hspace]
        · rintro ⟨hs', t, ht, hhead⟩
          obtain ⟨rfl, rfl⟩ := List.cons.inj ht
          exact ⟨rfl, fun h ↦ hs' (List.mem_cons_of_mem _ h), t, rfl, hhead⟩

/-- **What the comparison of the code accepts**: a field that starts with the skip string and then
has a blank, or nothing; a skip string with a space is never accepted. -/
theorem labelMatches_iff {skip : CString} {byte : ℕ → UInt8} {o : ℕ} :
    labelMatches skip byte o ↔ 0x20 ∉ skip.bytes ∧
      ∃ t, (List.range 11).map (fun j ↦ byte (o + j)) = skip.bytes ++ t ∧
        ∀ b ∈ t.head?, b = 0x20 ∨ b = 0 := by
  rw [labelMatches, decide_eq_true_iff, labelArray]
  exact eq_cString_iff _ _ skip.noNul

/-! ### One round, and all four -/

/-- What was read for an entry is a sector with the label. -/
def Found (skip : CString) : Option Xfer → Prop
  | none => False
  | some x => x.ret = 0 ∧ x.size = 512 ∧ carriesLabel skip x.buffer.byte

variable (env opt param) in
/-- One round of the scan, by what was read in it. -/
theorem scanEntry_cases (e : MbrEntry) (buffer : Buffer) (m : Machine σ)
    {t : Traced (Machine σ) Event (Option Xfer)} (ht : t = readEntry env param e buffer m) :
    Found opt.skip t.val ∧ scanEntry env opt param e buffer m = ⟨.error 1, t.state, t.events⟩ ∨
    ¬Found opt.skip t.val ∧
      ∃ b, scanEntry env opt param e buffer m = ⟨.ok b, t.state, t.events⟩ := by
  cases hx : t.val with
  | none =>
    refine Or.inr ⟨id, buffer, ?_⟩
    simp [scanEntry, TraceM.run_bind, ← ht, hx]
  | some x =>
    have hrun : scanEntry env opt param e buffer m =
        ⟨if x.ret = 0 ∧ x.size = 512 ∧ carriesLabel opt.skip x.buffer.byte then .error 1
          else .ok x.buffer, t.state, t.events⟩ := by
      simp only [scanEntry, TraceM.run_bind, ← ht, hx, TraceM.run_ite]
      split_ifs <;> simp
    by_cases hfound : x.ret = 0 ∧ x.size = 512 ∧ carriesLabel opt.skip x.buffer.byte
    · exact Or.inl ⟨hfound, by rw [hrun, if_pos hfound]⟩
    · exact Or.inr ⟨hfound, x.buffer, by rw [hrun, if_neg hfound]⟩

variable (opt) in
/-- **How the scan of the table ends**: with 1, at an entry whose reads found the label, or with 0,
after four entries whose reads did not. The reads take place in states that satisfy `I`. -/
theorem scanTable_cases {I : σ → Prop} {buffer : Buffer}
    (keeps : ∀ i b (m : Machine σ), I m.bios →
      I (readEntry env param (mbrEntry buffer.byte i) b m).state.bios)
    {m : Machine σ} (hI : I m.bios) :
    ((scanTable env opt param buffer m).val = 1 ∧
      ∃ i < 4, ∃ b, ∃ m' : Machine σ, I m'.bios ∧
        Found opt.skip (readEntry env param (mbrEntry buffer.byte i) b m').val ∧
        (readEntry env param (mbrEntry buffer.byte i) b m').events ⊆
          (scanTable env opt param buffer m).events) ∨
    ((scanTable env opt param buffer m).val = 0 ∧
      ∀ i < 4, ∃ b, ∃ m' : Machine σ, I m'.bios ∧
        ¬Found opt.skip (readEntry env param (mbrEntry buffer.byte i) b m').val) := by
  obtain ⟨t, ht⟩ : ∃ t, t = TraceM.forExit 4 buffer (fun i b ↦
    scanEntry env opt param (mbrEntry buffer.byte i) b) m := ⟨_, rfl⟩
  -- no entry so far has been found to lead to the label; a round that leaves the loop has found one
  have hpost : TraceM.ExitPost
      (fun _ (m' : Machine σ) _ ↦ I m'.bios ∧
        ∀ i < 4, ∃ b, ∃ m' : Machine σ, I m'.bios ∧
          ¬Found opt.skip (readEntry env param (mbrEntry buffer.byte i) b m').val)
      (fun r _ l ↦ r = 1 ∧
        ∃ i < 4, ∃ b, ∃ m' : Machine σ, I m'.bios ∧
          Found opt.skip (readEntry env param (mbrEntry buffer.byte i) b m').val ∧
          (readEntry env param (mbrEntry buffer.byte i) b m').events ⊆ l) [] t := by
    rw [ht]
    refine TraceM.forExit_invariant
      (fun k _ (m' : Machine σ) _ ↦ I m'.bios ∧
        ∀ i < k, ∃ b, ∃ m' : Machine σ, I m'.bios ∧
          ¬Found opt.skip (readEntry env param (mbrEntry buffer.byte i) b m').val) _
      ⟨hI, by simp⟩ ?_
    rintro i b m' l hi ⟨hI', hold⟩
    rcases scanEntry_cases env opt param (mbrEntry buffer.byte i) b m' rfl with
      ⟨hfound, hrun⟩ | ⟨hnot, b', hrun⟩
    · refine TraceM.exitPost_of_error (by rw [hrun]) ⟨rfl, i, hi, b, m', hI', hfound, ?_⟩
      rw [hrun]
      exact List.subset_append_right _ _
    · refine TraceM.exitPost_of_ok (by rw [hrun]) ⟨?_, fun k hk ↦ ?_⟩
      · rw [hrun]
        exact keeps i b m' hI'
      · rcases Nat.lt_succ_iff_lt_or_eq.1 hk with hk | rfl
        · exact hold k hk
        · exact ⟨b, m', hI', hnot⟩
  have hevents : (scanTable env opt param buffer m).events = t.events := by
    simp only [scanTable, TraceM.events_bind, ← ht]
    cases t.val <;> simp
  have hval : (scanTable env opt param buffer m).val =
      match t.val with
      | .ok _ => 0
      | .error ret => ret := by
    simp only [scanTable, TraceM.val_bind, ← ht]
    cases t.val <;> rfl
  rw [hval, hevents]
  cases hv : t.val with
  | ok b => exact Or.inr ⟨rfl, (hpost.of_ok hv).2⟩
  | error r =>
    obtain ⟨rfl, hfound⟩ := hpost.of_error hv
    exact Or.inl ⟨rfl, hfound⟩

variable (opt) in
/-- Where the entry alone decides what its reads find, it is the entries that decide the scan. -/
theorem scanTable_eq_one_iff {I : σ → Prop} {Leads : ℕ → Prop} {buffer : Buffer}
    (keeps : ∀ i b (m : Machine σ), I m.bios →
      I (readEntry env param (mbrEntry buffer.byte i) b m).state.bios)
    (decides : ∀ i < 4, ∀ b (m : Machine σ), I m.bios →
      (Found opt.skip (readEntry env param (mbrEntry buffer.byte i) b m).val ↔ Leads i))
    {m : Machine σ} (hI : I m.bios) :
    (scanTable env opt param buffer m).val = 1 ↔ ∃ i < 4, Leads i := by
  rcases scanTable_cases opt keeps hI with
    ⟨hval, i, hi, b, m', hI', hfound, -⟩ | ⟨hval, hnone⟩
  · exact iff_of_true hval ⟨i, hi, (decides i hi b m' hI').1 hfound⟩
  · refine iff_of_false (by simp [hval]) ?_
    rintro ⟨i, hi, hleads⟩
    obtain ⟨b, m', hI', hnot⟩ := hnone i hi
    exact hnot ((decides i hi b m' hI').2 hleads)

/-- In state `b` the BIOS fails every CHS read, with a status. -/
def Unreadable (env : Env σ) (b : σ) : Prop :=
  ∀ q, q.reg.ah = 0x02 → (env.int13 b q).carry = true ∧ (env.int13 b q).area.reg.ah ≠ 0

/-- **A disk whose partition table cannot be read carries no label.** -/
theorem containFatLabel_of_unreadable (str : CString) {m : Machine σ}
    (h : Unreadable env m.bios) : (containFatLabel env opt param str m).val = 0 := by
  have hret : (tableRead env param m).val.ret ≠ 0 := by
    rw [tableRead]
    by_cases href : chsRefused false param ⟨0, 0, 1⟩ 1 labelBufferSize
    · rw [readSectorsChs, sectorChsRw_of_refused href]
      exact Int.negSucc_ne_zero 0
    · rw [readSectorsChs_of_not_refused href _ rfl, chsReadResult]
      obtain ⟨hc, hah⟩ := h (chsAsk env false param ⟨0, 0, 1⟩ 1
        ⟨labelBufferSize.toNat, env.stack m.ticks⟩ labelBufferSize (labelMachine m).area)
        (by simp [chsAsk])
      have hah' := fun h0 ↦ hah (UInt8.toNat_inj.1 h0)
      have hbios : (labelMachine m).bios = m.bios := rfl
      simp only [exchangeAt, hbios, hc, if_true]
      exact_mod_cast hah'
  rw [containFatLabel_val, if_pos (Or.inl hret)]

/-! ### Entries the scan passes over -/

theorem readEntry_of_unused {e : MbrEntry} (h : e.type = 0) (buffer : Buffer) :
    readEntry env param e buffer = (pure none : Prog σ (Option Xfer)) := by
  simp [readEntry, h]

theorem scanTable_of_unused {buffer : Buffer} (h : ∀ i, (mbrEntry buffer.byte i).type = 0)
    (m : Machine σ) : (scanTable env opt param buffer m).val = 0 := by
  obtain ⟨-, i, -, b, m', -, hfound, -⟩ | ⟨hval, -⟩ :
      _ ∨ (scanTable env opt param buffer m).val = 0 ∧ _ :=
    scanTable_cases opt (I := fun _ ↦ True) (fun _ _ _ _ ↦ trivial) trivial
  · rw [readEntry_of_unused (h i)] at hfound
    exact hfound.elim
  · exact hval

/-- **A disk whose partition table is unused carries no label.** -/
theorem containFatLabel_of_unused (str : CString) (m : Machine σ)
    (h : ∀ i, (mbrEntry (tableRead env param m).val.buffer.byte i).type = 0) :
    (containFatLabel env opt param str m).val = 0 := by
  rw [containFatLabel_val]
  split_ifs
  · rfl
  · exact scanTable_of_unused h _

end Dwipe

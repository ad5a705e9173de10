import Dwipe.Disk.Answered
import Dwipe.Results.Protection
import Dwipe.Wipe.Paths

/-!
# The skip decision

When a disk is skipped for its label, and that the decision is one about the **set** of partition
entries.

The comparison of `contain_fat_label` turns every space of the label field into a NUL, not only the
padding, so it stops at the first blank of the field: `MINIME FOO ` passes for `MINIME`. A field of
this kind is `CutShort`, and a sector that has one and no field with the padded skip string is
`Misleading`. `no_false_skip_iff` states that such sectors, where an entry leads to one, are all
that is wrong with the comparison: on any other disk, and before every faithful BIOS, the scan
answers 1 only for a boot sector with the padded skip string.

What the scan finds at an entry is decided by the entry alone (`found_answered`), though one buffer
serves all reads; so the order of the four entries does not matter (`scan_order_irrelevant`), as
long as the same reads fail. A disk on which a read fails **for what is in the sector** can have a
readable partition table in one order and an unreadable one in another
(`order_matters_by_contents`).
-/

namespace Dwipe

/-! ### Label fields -/

/-- One of the two label fields is the padded skip string. -/
def PaddedLabel (skip : CString) (byte : ℕ → UInt8) : Prop :=
  labelField byte fat32LabelOffset = padded skip ∨ labelField byte fat16LabelOffset = padded skip

instance (skip : CString) (byte : ℕ → UInt8) : Decidable (PaddedLabel skip byte) :=
  inferInstanceAs (Decidable (_ ∨ _))

/-- **The field goes on behind the skip string and a blank**, a space or a NUL, and not with padding
alone. -/
def CutShort (skip : CString) (field : List UInt8) : Prop :=
  0x20 ∉ skip.bytes ∧ ∃ t, field = skip.bytes ++ t ∧ (t.head? = some 0x20 ∨ t.head? = some 0) ∧
    ∃ b ∈ t, b ≠ 0x20

/-- **A sector that passes for labelled and is not.** -/
def Misleading (skip : CString) (byte : ℕ → UInt8) : Prop :=
  (CutShort skip (labelField byte fat32LabelOffset) ∨
    CutShort skip (labelField byte fat16LabelOffset)) ∧ ¬PaddedLabel skip byte

section fields

variable {skip : CString} {byte : ℕ → UInt8} {o : ℕ}

theorem length_labelField (byte : ℕ → UInt8) (o : ℕ) : (labelField byte o).length = 11 := by
  simp [labelField]

/-- **What the comparison accepts**: the padded skip string, and the fields it cuts short. -/
theorem padded_or_cutShort_of_labelMatches (h : labelMatches skip byte o) :
    labelField byte o = padded skip ∨ CutShort skip (labelField byte o) := by
  obtain ⟨hspace, t, ht, hhead⟩ := labelMatches_iff.1 h
  -- what follows the skip string is padding, or the field goes on
  by_cases hpad : ∀ b ∈ t, b = 0x20
  · have hlen : t.length = 11 - skip.bytes.length := by
      have := length_labelField byte o
      rw [labelField, ht, List.length_append] at this
      omega
    refine Or.inl ?_
    rw [labelField, ht, padded, ← hlen, ← List.eq_replicate_of_mem hpad]
  · push Not at hpad
    obtain ⟨b, hb, hne⟩ := hpad
    refine Or.inr ⟨hspace, t, ht, ?_, b, hb, hne⟩
    cases t with
    | nil => exact absurd hb List.not_mem_nil
    | cons c t => simpa using hhead c rfl

theorem CutShort.labelMatches (h : CutShort skip (labelField byte o)) :
    labelMatches skip byte o := by
  obtain ⟨hspace, t, ht, hhead, -⟩ := h
  refine labelMatches_iff.2 ⟨hspace, t, ht, fun b hb ↦ ?_⟩
  rcases hhead with hhead | hhead
  · exact Or.inl (Option.some.inj (hb.symm.trans hhead))
  · exact Or.inr (Option.some.inj (hb.symm.trans hhead))

theorem Misleading.carriesLabel (h : Misleading skip byte) : carriesLabel skip byte := by
  rw [Dwipe.carriesLabel, Bool.or_eq_true]
  exact h.1.imp CutShort.labelMatches CutShort.labelMatches

/-- A sector that passes for labelled is labelled, unless it is misleading. -/
theorem paddedLabel_of_carriesLabel (h : carriesLabel skip byte) (hmis : ¬Misleading skip byte) :
    PaddedLabel skip byte := by
  by_contra hpad
  obtain ⟨h32, h16⟩ := not_or.1 hpad
  rw [Dwipe.carriesLabel, Bool.or_eq_true] at h
  refine hmis ⟨h.imp ?_ ?_, hpad⟩
  · exact fun h ↦ (padded_or_cutShort_of_labelMatches h).resolve_left h32
  · exact fun h ↦ (padded_or_cutShort_of_labelMatches h).resolve_left h16

end fields

/-! ### False skips -/

/-- **No false skip**: before every BIOS that answers reads faithfully, the scan answers 1 only if
it has read, for one of the four entries, a boot sector with the padded skip string. -/
def NoFalseSkip (skip : CString) (param : DiskParam) (d : Medium) : Prop :=
  ∀ {σ : Type} (env : Env σ) (I : σ → Prop) (opt : Options) (str : CString) (m : Machine σ),
    opt.skip = skip → Faithful env param d I → I m.bios →
    (containFatLabel env opt param str m).val = 1 →
    ∃ i < 4, ∃ p ∈ (mbrEntry (d.contents 0) i).places, PaddedLabel skip (d.contents (d.sector p)) ∧
      ∃ x ∈ bootReads (containFatLabel env opt param str m).events,
        x.carry = false ∧ x.req.place = some p

/-- **No entry leads to a misleading sector** of 512 bytes, by a place that the checks of the
request layer let through. -/
def NoneMisleading (skip : CString) (param : DiskParam) (d : Medium) : Prop :=
  sectorSize param = 512 → ¬Place.table.Refused param →
    ∀ i < 4, ∀ p ∈ (mbrEntry (d.contents 0) i).places, ¬p.Refused param →
      ¬Misleading skip (d.contents (d.sector p))

/-- What a BIOS with the disk `d` answers, if the places with a status fail and nothing but reads of
one sector is served. -/
def answerTo (d : Medium) (status : Place → Option UInt8) (q : RealArea) : Bool × RealArea :=
  match q.place with
  | none => (true, q.withStatus 1)
  | some p =>
    match status p with
    | some ah => (true, q.withStatus ah)
    | none => (false, { q.withStatus 0 with buffer := d.contents (d.sector p) })

section answerTo

variable {σ : Type} {param : DiskParam} {d : Medium} {status : Place → Option UInt8} {q : RealArea}
  {p : Place}

theorem answerTo_fails (hp : q.place = some p) {ah : UInt8} (h : status p = some ah) :
    (answerTo d status q).1 = true ∧ (answerTo d status q).2.reg.ah = ah := by
  simp [answerTo, hp, h, RealArea.withStatus]

theorem answerTo_delivers (hp : q.place = some p) (h : status p = none) (b : σ) :
    Delivers param d.contents q (d.sector p)
      ⟨(answerTo d status q).1, (answerTo d status q).2, b⟩ := by
  have hone : (q.reg.ah = 0x02 → q.reg.al = 1) ∧ (q.reg.ah = 0x42 → q.dap.nsectors = 1) := by
    rw [RealArea.place] at hp
    split_ifs at hp with h h' <;> simp_all
  simp only [answerTo, hp, h]
  exact ⟨rfl, fun _ _ ↦ rfl, hone.1, hone.2⟩

end answerTo

/-- The BIOS that answers so. -/
def answering (d : Medium) (status : Place → Option UInt8) : Env Unit :=
  Env.ofBios (fun _ q ↦ ⟨(answerTo d status q).1, (answerTo d status q).2, ()⟩) fun _ ↦ 0

theorem answers_answering (param : DiskParam) (d : Medium) (status : Place → Option UInt8) :
    Answers (answering d status) param d status fun _ ↦ True :=
  ⟨fun _ _ _ _ ↦ trivial, fun _ _ _ _ _ _ _ hp h ↦ answerTo_fails hp h,
    fun _ _ _ _ _ _ hp h ↦ answerTo_delivers hp h ()⟩

/-- Every place but `p` fails, with status `01h`. -/
def onlyAt (p : Place) : Place → Option UInt8 := fun r ↦ if r = p then none else some 1

/-- The BIOS that serves the first read, and from then on reads of the place `p` alone. Its state
tells whether it has been asked before. -/
def oncePast (d : Medium) (p : Place) : Env Bool :=
  Env.ofBios (fun begun q ↦
    let status := if begun then onlyAt p else fun _ ↦ none
    ⟨(answerTo d status q).1, (answerTo d status q).2, true⟩) fun _ ↦ 0

section oncePast

variable {param : DiskParam} {d : Medium} {p : Place}

/-- Once it has been asked, its failures are fixed. -/
theorem answers_oncePast (param : DiskParam) (d : Medium) (p : Place) :
    Answers (oncePast d p) param d (onlyAt p) fun begun ↦ begun = true := by
  refine ⟨fun _ _ _ _ ↦ rfl, ?_, ?_⟩
  · rintro _ q r ah rfl - - hr h
    exact answerTo_fails hr h
  · rintro _ q r rfl - - hr h
    exact answerTo_delivers hr h true

theorem faithful_oncePast (param : DiskParam) (d : Medium) (p : Place) :
    Faithful (oncePast d p) param d fun _ ↦ True := by
  refine ⟨fun _ _ _ _ ↦ trivial, fun begun q r _ haim hdl hr ↦ ?_⟩
  cases begun with
  | true => exact (answers_oncePast param d p).faithful.answers true q r rfl haim hdl hr
  | false => exact Or.inr (answerTo_delivers hr rfl true)

/-- After the first exchange, the reads that succeed are those of `p`. -/
theorem place_of_path {b b' : Bool} {xs : List Exchange} (hb : b = true)
    (h : Path (oncePast d p) b xs b') : ∀ x ∈ xs, x.carry = false → ∀ r, x.req.place = some r →
      r = p := by
  induction xs generalizing b with
  | nil => simp
  | cons y ys ih =>
    -- the BIOS has begun, and stays so whatever it is asked
    intro x hx hc r hr
    rcases List.mem_cons.1 hx with rfl | hx
    · by_contra hne
      have hstatus : onlyAt p r = some 1 := if_neg hne
      have hfail : (answerTo d (onlyAt p) x.req).1 = true := (answerTo_fails hr hstatus).1
      have hcarry := h.1
      rw [hb, hc] at hcarry
      exact absurd (hcarry.trans hfail) (by decide)
    · exact ih rfl h.2.2 x hx hc r hr

theorem failure_onlyAt_ne_zero (param : DiskParam) {r : Place} (hne : r ≠ p) :
    ∃ ret, failure param (onlyAt p) r = some ret ∧ ret ≠ 0 := by
  rw [failure]
  split_ifs
  · exact ⟨-1, rfl, by decide⟩
  · exact ⟨1, by simp [onlyAt, hne], by decide⟩

/-- The scan tries the places before `p` in vain, and takes the boot sector from `p`. -/
theorem takenFrom_onlyAt (href : ¬p.Refused param) :
    ∀ {ps : List Place}, p ∈ ps → takenFrom param (onlyAt p) ps = some p
  | r :: ps, h => by
    by_cases hr : r = p
    · have hf : failure param (onlyAt p) p = none := by simp [failure, href, onlyAt]
      rw [hr, takenFrom, hf]
    · obtain ⟨ret, hf, hne⟩ := failure_onlyAt_ne_zero param hr
      rw [takenFrom, hf]
      simp only [if_neg hne]
      exact takenFrom_onlyAt href (List.mem_of_ne_of_mem (Ne.symm hr) h)

/-- The first read before this BIOS, that of the table, is served. -/
theorem tableRead_oncePast (h512 : sectorSize param = 512) (htable : ¬Place.table.Refused param)
    {m : Machine Bool} (hm : m.bios = false) :
    Got d.contents 0 (tableRead (oncePast d p) param m).val ∧
      (tableRead (oncePast d p) param m).state.bios = true := by
  obtain ⟨x, hx⟩ : ∃ x, AsksFor (oncePast d p) param .table (labelMachine m) x
    (tableRead (oncePast d p) param m) := readPlace_asks htable
  refine ⟨?_, hx.bios⟩
  have hd : Delivers param d.contents x.req (d.sector .table)
      ((oncePast d p).int13 (labelMachine m).bios x.req) := by
    rw [show (labelMachine m).bios = false from hm]
    exact answerTo_delivers hx.place rfl true
  rw [Medium.sector_table] at hd
  exact (hx.delivered hd).got h512

end oncePast

/-- **A misleading sector is taken for labelled**, by a BIOS that fails every other boot sector. -/
theorem not_noFalseSkip_of_misleading {skip : CString} {param : DiskParam} {d : Medium} {i : ℕ}
    {p : Place} (h512 : sectorSize param = 512) (htable : ¬Place.table.Refused param) (hi : i < 4)
    (hp : p ∈ (mbrEntry (d.contents 0) i).places) (href : ¬p.Refused param)
    (hmis : Misleading skip (d.contents (d.sector p))) : ¬NoFalseSkip skip param d := by
  intro hno
  obtain ⟨m, hm⟩ : ∃ m : Machine Bool, m = Machine.fresh false 1 := ⟨_, rfl⟩
  obtain ⟨opt, rfl⟩ : ∃ opt : Options, opt.skip = skip := ⟨{ Options.plain with skip }, rfl⟩
  obtain ⟨hgot, hbegun⟩ : Got d.contents 0 (tableRead (oncePast d p) param m).val ∧ _ :=
    tableRead_oncePast h512 htable (by rw [hm]; rfl)
  have hone : (containFatLabel (oncePast d p) opt param opt.skip m).val = 1 :=
    (containFatLabel_after_table (answers_oncePast param d p) opt.skip hgot hbegun).2
      ⟨i, hi, h512, p, takenFrom_onlyAt href hp, hmis.carriesLabel⟩
  obtain ⟨-, -, r, -, hpad, x, hx, hc, hr⟩ := hno (oncePast d p) (fun _ ↦ True) opt opt.skip m rfl
    (faithful_oncePast param d p) trivial hone
  -- the only boot sector that was read is the misleading one
  have hpath : Path (oncePast d p) m.bios
      (exchanges (containFatLabel (oncePast d p) opt param opt.skip m).events) _ :=
    containFatLabel_along (path_moves (oncePast d p)) opt.skip m
  have hrp : r = p := by
    cases hl : exchanges (containFatLabel (oncePast d p) opt param opt.skip m).events with
    | nil => simp [bootReads, hl] at hx
    | cons y ys =>
      rw [hl] at hpath
      rw [bootReads, hl, List.tail_cons] at hx
      exact place_of_path rfl hpath.2.2 x hx hc r hr
  exact hmis.2 (hrp ▸ hpad)

/-- **When there are no false skips.** For every skip string, drive and disk: the scan is right
before every faithful BIOS exactly if no entry leads it to a sector with a field that goes on behind
the skip string and a blank. -/
theorem no_false_skip_iff (skip : CString) (param : DiskParam) (d : Medium) :
    NoFalseSkip skip param d ↔ NoneMisleading skip param d := by
  constructor
  · intro hno h512 htable i hi p hp href hmis
    exact not_noFalseSkip_of_misleading h512 htable hi hp href hmis hno
  · rintro hnone σ env I opt str m rfl hF hI hval
    obtain ⟨h512, htable, i, hi, p, hp, href, hlabel, hread⟩ :=
      containFatLabel_faithful hF str hI hval
    exact ⟨i, hi, p, hp, paddedLabel_of_carriesLabel hlabel (hnone h512 htable i hi p hp href),
      hread⟩

/-- A skip string that fills the field, or has a space, is never cut short. -/
theorem noneMisleading_of_full {skip : CString} (h : 11 ≤ skip.bytes.length ∨ 0x20 ∈ skip.bytes)
    (param : DiskParam) (d : Medium) : NoneMisleading skip param d := by
  have hcut (byte : ℕ → UInt8) (o : ℕ) : ¬CutShort skip (labelField byte o) := by
    rintro ⟨hspace, t, ht, -, b, hb, -⟩
    have hlen := congrArg List.length ht
    rw [length_labelField, List.length_append] at hlen
    have hpos : 0 < t.length := List.length_pos_of_mem hb
    rcases h with h | h
    · omega
    · exact hspace h
  rintro - - i - p - - ⟨hcuts, -⟩
  exact hcuts.elim (hcut _ _) (hcut _ _)

/-- A disk with one volume of type `0Bh`, in sector 1, labelled `MINIME FOO`. -/
def fooDisk : Medium where
  contents s j :=
    if s = 1 ∧ 43 ≤ j ∧ j < 54 then
      [0x4D, 0x49, 0x4E, 0x49, 0x4D, 0x45, 0x20, 0x46, 0x4F, 0x4F, 0x20].getD (j - 43) 0
    else labelledDisk 0x0B s j
  locate a := (a.sector - 1).toNat
  first := rfl

/-- **It is skipped for the label `MINIME`**, though no boot sector of it has that label. -/
theorem minime_foo_skipped :
    (containFatLabel (answering fooDisk fun _ ↦ none) { Options.plain with skip := minime }
      (DiskParam.ofGeometry 0 0 63) minime (Machine.fresh () 1)).val = 1 ∧
    ¬NoFalseSkip minime (DiskParam.ofGeometry 0 0 63) fooDisk := by
  have hA := answers_answering (DiskParam.ofGeometry 0 0 63) fooDisk fun _ ↦ none
  have hone : (containFatLabel (answering fooDisk fun _ ↦ none)
      { Options.plain with skip := minime } (DiskParam.ofGeometry 0 0 63) minime
      (Machine.fresh () 1)).val = 1 :=
    (containFatLabel_answered hA minime trivial).2
      ⟨by decide, 0, by decide, rfl, .chs ⟨0, 0, 2⟩, by decide, by decide⟩
  refine ⟨hone, fun hno ↦ ?_⟩
  obtain ⟨i, hi, p, hp, hpad, -⟩ := hno _ _ _ minime _ rfl hA.faithful trivial hone
  have hnone : ∀ i < 4, ∀ p ∈ (mbrEntry (fooDisk.contents 0) i).places,
      ¬PaddedLabel minime (fooDisk.contents (fooDisk.sector p)) := by decide
  exact hnone i hi p hp hpad

/-! ### The order of the entries -/

/-- **The partition entries in another order**: entry `i` is what entry `π i` was. -/
def permuteEntries (π : Equiv.Perm (Fin 4)) (byte : ℕ → UInt8) : ℕ → UInt8 := fun j ↦
  if h : 446 ≤ j ∧ j < 510 then
    byte (446 + 16 * (π ⟨(j - 446) / 16, by omega⟩ : ℕ) + (j - 446) % 16)
  else byte j

/-- The disk with the entries of sector 0 in another order. -/
def Medium.permute (π : Equiv.Perm (Fin 4)) (d : Medium) : Medium :=
  { d with contents := fun s ↦ if s = 0 then permuteEntries π (d.contents 0) else d.contents s }

section order

variable {π : Equiv.Perm (Fin 4)} {d : Medium} {byte : ℕ → UInt8}

theorem permuteEntries_of_lt {j : ℕ} (h : j < 446) : permuteEntries π byte j = byte j := by
  rw [permuteEntries, dif_neg]
  omega

theorem permuteEntries_entry (π : Equiv.Perm (Fin 4)) (byte : ℕ → UInt8) (i : Fin 4) {k : ℕ}
    (hk : k < 16) :
    permuteEntries π byte (446 + 16 * i + k) = byte (446 + 16 * (π i : ℕ) + k) := by
  have hi := i.isLt
  have hdiv : (446 + 16 * i + k - 446) / 16 = (i : ℕ) := by omega
  have hmod : (446 + 16 * i + k - 446) % 16 = k := by omega
  have hfin : (⟨(446 + 16 * i + k - 446) / 16, by omega⟩ : Fin 4) = i := Fin.ext hdiv
  rw [permuteEntries, dif_pos ⟨by omega, by omega⟩, hfin, hmod]

theorem mbrEntry_permuteEntries (i : Fin 4) :
    mbrEntry (permuteEntries π byte) i = mbrEntry byte (π i) := by
  have hb (k : ℕ) (hk : k < 16) := permuteEntries_entry π byte i hk
  have h0 := hb 0 (by omega)
  simp only [mbrEntry, word16, word32, Nat.add_assoc, MbrEntry.mk.injEq]
  simp only [Nat.add_assoc, Nat.add_zero] at hb h0
  simp [h0, hb]

@[simp] theorem Medium.sector_permute (p : Place) : (d.permute π).sector p = d.sector p := by
  cases p <;> rfl

theorem Medium.mbrEntry_permute (i : Fin 4) :
    mbrEntry ((d.permute π).contents 0) i = mbrEntry (d.contents 0) (π i) :=
  mbrEntry_permuteEntries i

/-- The label fields lie before the partition table, in sector 0 as in any other. -/
theorem Medium.carriesLabel_permute {skip : CString} (s : ℕ) :
    carriesLabel skip ((d.permute π).contents s) = carriesLabel skip (d.contents s) := by
  refine carriesLabel_congr (n := 446) (fun j hj ↦ ?_) le_rfl
  by_cases hs : s = 0
  · subst hs
    exact permuteEntries_of_lt hj
  · show (if s = 0 then permuteEntries π (d.contents 0) else d.contents s) j = d.contents s j
    rw [if_neg hs]

theorem takesLabel_permute {skip : CString} {param : DiskParam} {status : Place → Option UInt8}
    (e : MbrEntry) :
    TakesLabel skip param (d.permute π) status e ↔ TakesLabel skip param d status e := by
  simp only [TakesLabel, Medium.sector_permute, Medium.carriesLabel_permute]

/-- **Some entry leads to the label, or none does**, in whatever order they are. -/
theorem exists_takesLabel_permute {skip : CString} {param : DiskParam}
    {status : Place → Option UInt8} :
    (∃ i < 4, TakesLabel skip param (d.permute π) status
      (mbrEntry ((d.permute π).contents 0) i)) ↔
    ∃ i < 4, TakesLabel skip param d status (mbrEntry (d.contents 0) i) := by
  constructor
  · rintro ⟨i, hi, h⟩
    refine ⟨π ⟨i, hi⟩, (π ⟨i, hi⟩).isLt, ?_⟩
    rw [← Medium.mbrEntry_permute ⟨i, hi⟩]
    exact (takesLabel_permute _).1 h
  · -- what was entry `i` is now entry `π.symm i`
    rintro ⟨i, hi, h⟩
    refine ⟨π.symm ⟨i, hi⟩, (π.symm ⟨i, hi⟩).isLt, (takesLabel_permute _).2 ?_⟩
    rwa [Medium.mbrEntry_permute, Equiv.apply_symm_apply]

end order

section scan

variable {σ σ' : Type} {env : Env σ} {env' : Env σ'} {param : DiskParam} {d : Medium}
  {status : Place → Option UInt8} {I : σ → Prop} {I' : σ' → Prop}

/-- One round decides by its entry alone, whatever is in the buffer when it begins: the step behind
the order not mattering. -/
theorem scanEntry_answered (hA : Answers env param d status I) (opt : Options) (e : MbrEntry)
    (buffer : Buffer) {m : Machine σ} (hI : I m.bios) :
    (scanEntry env opt param e buffer m).val = .error 1 ↔
      TakesLabel opt.skip param d status e := by
  rw [← found_answered hA opt.skip e buffer hI]
  rcases scanEntry_cases env opt param e buffer m rfl with ⟨hfound, hrun⟩ | ⟨hnot, b, hrun⟩
  · exact iff_of_true (by rw [hrun]) hfound
  · exact iff_of_false (by rw [hrun]; simp) hnot

/-- **The order of the partition entries does not matter.** Two BIOSes answer reads by the request
and the disk alone and fail the same places; the disk behind the second is that of the first with
the four entries of sector 0 in another order. The scan answers the same before both, from whatever
machines it starts, and no round of it depends on what is in the buffer. -/
theorem scan_order_irrelevant (π : Equiv.Perm (Fin 4)) (hA : Answers env param d status I)
    (hA' : Answers env' param (d.permute π) status I') (opt : Options) (str : CString)
    {m : Machine σ} {m' : Machine σ'} (hI : I m.bios) (hI' : I' m'.bios) :
    (containFatLabel env opt param str m).val = (containFatLabel env' opt param str m').val ∧
    ∀ (e : MbrEntry) (buffer buffer' : Buffer) (n n' : Machine σ), I n.bios → I n'.bios →
      ((scanEntry env opt param e buffer n).val = .error 1 ↔
        (scanEntry env opt param e buffer' n').val = .error 1) := by
  refine ⟨?_, fun e buffer buffer' n n' hn hn' ↦ ?_⟩
  · -- the answers are 0 or 1, so it is enough that they are 1 together
    have hiff : (containFatLabel env opt param str m).val = 1 ↔
        (containFatLabel env' opt param str m').val = 1 := by
      rw [containFatLabel_answered hA str hI, containFatLabel_answered hA' str hI',
        exists_takesLabel_permute]
    rcases containFatLabel_zero_or_one env opt param str m with h | h
    · rcases containFatLabel_zero_or_one env' opt param str m' with h' | h'
      · rw [h, h']
      · rw [hiff.2 h', h']
    · rw [h, hiff.1 h]
  · rw [scanEntry_answered hA opt e buffer hn, scanEntry_answered hA opt e buffer' hn']

end scan

/-- The disk with its volume in the last entry is skipped as it is with the volume in the first. -/
theorem fooDisk_order_irrelevant :
    (containFatLabel (answering fooDisk fun _ ↦ none) { Options.plain with skip := minime }
      (DiskParam.ofGeometry 0 0 63) minime (Machine.fresh () 1)).val =
    (containFatLabel (answering (fooDisk.permute (Equiv.swap 0 3)) fun _ ↦ none)
      { Options.plain with skip := minime } (DiskParam.ofGeometry 0 0 63) minime
      (Machine.fresh () 1)).val :=
  (scan_order_irrelevant (Equiv.swap 0 3) (answers_answering _ fooDisk fun _ ↦ none)
    (answers_answering _ _ _) _ minime trivial trivial).1

/-- The BIOS of a disk whose reads may fail by the request **and by what is in the sector**. -/
def answeringBy (fails : Place → (ℕ → UInt8) → Option UInt8) (d : Medium) : Env Unit :=
  answering d fun p ↦ fails p (d.contents (d.sector p))

/-- A read fails if byte 450 of the sector, the type of its first entry, is `0Bh`. -/
def failsByType (_ : Place) (byte : ℕ → UInt8) : Option UInt8 :=
  if byte 450 = 0x0B then some 1 else none

/-- A disk with one volume of type `0Bh`, in sector 1, labelled `MINIME`. -/
def minimeDisk : Medium where
  contents := labelledDisk 0x0B
  locate a := (a.sector - 1).toNat
  first := rfl

/-- **Where failures depend on the contents, the order does matter**: the partition table of the
disk cannot be read with its volume in the first entry, and it can with the volume in the last. -/
theorem order_matters_by_contents :
    (containFatLabel (answeringBy failsByType minimeDisk) { Options.plain with skip := minime }
      (DiskParam.ofGeometry 0 0 63) minime (Machine.fresh () 1)).val = 0 ∧
    (containFatLabel (answeringBy failsByType (minimeDisk.permute (Equiv.swap 0 3)))
      { Options.plain with skip := minime } (DiskParam.ofGeometry 0 0 63) minime
      (Machine.fresh () 1)).val = 1 := by
  constructor
  · refine (containFatLabel_zero_or_one _ _ _ minime _).resolve_right fun hone ↦ ?_
    have hread := ((containFatLabel_answered (answers_answering (DiskParam.ofGeometry 0 0 63)
      minimeDisk _) minime trivial).1 hone).1
    exact absurd hread (by decide)
  · exact (containFatLabel_answered (answers_answering (DiskParam.ofGeometry 0 0 63)
      (minimeDisk.permute (Equiv.swap 0 3)) _) minime trivial).2
      ⟨by decide, 3, by decide, rfl, .chs ⟨0, 0, 2⟩, by decide, by decide⟩

end Dwipe

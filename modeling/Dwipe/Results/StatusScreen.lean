import Dwipe.Results.Listing
import Dwipe.Results.Outcomes
import Dwipe.Results.Reporting
import Dwipe.Wipe.StatusRows

/-!
# What the operator sees

Two statements about whole runs, for every BIOS, all options and whatever the memory held.

* `status_during` is about **every moment of the wipe loop**: after any part of the events of any
  round, the screen shows the options, the counters of the rounds before, the disk of this round
  and the progress line drawn last. For the counters the label must be at most 254 characters long:
  the message with a longer one reaches their row, and hides them until the end of the round.
* `status_final` is about the end: the four counters are **read off the screen**, and the disks
  that failed, were skipped and were wiped add up to the disks there are.

In both nothing has been drawn but on the page of the display. Of the memory only what is drawn is
meant: the stack the functions work on and the buffers they put their messages together in are not
part of it.
-/

namespace Dwipe

open Canvas

variable {σ : Type} {env : Env σ} {opt : Options}

/-! ### The calls -/

section calls

variable {mem : ℕ → UInt8}

/-- The calls of `show_mode`. -/
def modePrints (opt : Options) : List Print :=
  [⟨4, 0, snprinted 1024 (modeText opt)⟩, ⟨5, 0, List.replicate 80 0x2d⟩,
    ⟨6, 0, snprinted 1024 (wipingText opt)⟩, ⟨7, 0, List.replicate 80 0x2d⟩]

theorem showMode_eq : showMode opt mem = printAll mem (modePrints opt) := by
  simp only [showMode, showSepator, modePrints, printAll_cons, printAll_nil]

/-- The calls of `show_disk_list`. -/
def listPrints (text : List UInt8) : List Print :=
  rowPrints 8 0 text ++ [⟨9, 0, List.replicate 80 0x2d⟩]

theorem showDiskList_eq (total error skiped wiped : UInt32) :
    showDiskList total error skiped wiped mem =
      printAll mem (listPrints (listText total error skiped wiped)) := by
  rw [showDiskList, showSepator_eq, showRow_eq, ← printAll_append, listPrints]

/-- The calls for an event. -/
def linePrints : Event → List Print
  | .progress line => rowPrints 16 0 (progressText line)
  | _ => []

theorem showEvents_eq (l : List Event) :
    showEvents l mem = printAll mem (l.flatMap linePrints) := by
  induction l generalizing mem with
  | nil => rfl
  | cons e l ih =>
    rw [List.flatMap_cons, printAll_append, ← ih]
    cases e <;> rfl

/-- The display in a round, as calls: what is read off a row is then decided by the last call that
touches it. -/
theorem duringRound_eq (i : ℕ) (d : Shown σ) (l : List Event) :
    duringRound opt i d l = printAll d.display (modePrints opt ++
      rowsPrints 10 (diskRows (d.machine.diskList i)) ++ l.flatMap linePrints) := by
  rw [duringRound, showEvents_eq, showDiskStatus_eq, showRows_eq, showMode_eq, printAll_append,
    printAll_append]

end calls

/-! ### Where they are -/

section places

/-- **The first message about the options** reaches row 8 only with a label of 255 characters. -/
theorem mem_modePrints {p : Print} (hp : p ∈ modePrints opt) :
    80 * 4 ≤ p.first ∧ p.behind ≤ 1344 ∧ (opt.skip.bytes.length ≤ 254 → p.behind ≤ 80 * 8) := by
  have hlen := length_modeText_le opt
  have htake : (snprinted 1024 (modeText opt)).length ≤ (modeText opt).length :=
    List.length_take_le' _ _
  have hmode := @length_snprinted_lt 1024 (by decide) (modeText opt)
  have hwiping : (snprinted 1024 (wipingText opt)).length ≤ 80 :=
    (List.length_take_le' _ _).trans (length_wipingText_le opt)
  simp only [modePrints, List.mem_cons, List.not_mem_nil, or_false] at hp
  rcases hp with rfl | rfl | rfl | rfl <;>
    simp only [Print.behind, Print.first, List.length_replicate] <;> omega

theorem mem_listPrints {p : Print} {text : List UInt8} (htext : text.length ≤ 80)
    (hp : p ∈ listPrints text) : 80 * 8 ≤ p.first ∧ p.behind ≤ 80 * 10 := by
  rw [listPrints, List.mem_append, List.mem_singleton] at hp
  rcases hp with hp | rfl
  · have h := mem_rowPrints (by omega) hp
    omega
  · simp only [Print.behind, Print.first, List.length_replicate]
    omega

/-- The progress line begins in row 16; at worst it ends in row 17. -/
theorem mem_linePrints {l : List Event} (hl : SoundLines l) {p : Print}
    (hp : p ∈ l.flatMap linePrints) : 80 * 16 ≤ p.first ∧ p.behind ≤ 80 * 18 := by
  obtain ⟨e, he, hp⟩ := List.mem_flatMap.1 hp
  cases e with
  | progress line =>
    have hlen := length_progressText_le (hl _ he line rfl)
    have htake : (snprinted 1024 (progressText line)).length ≤ (progressText line).length :=
      List.length_take_le' _ _
    simp only [linePrints, rowPrints, List.mem_cons, List.not_mem_nil, or_false] at hp
    rcases hp with rfl | rfl <;>
      simp only [Print.behind, Print.first, List.length_replicate] <;> omega
  | int13 | returned | store | transfer | copy | divide | account =>
    exact absurd hp List.not_mem_nil

end places

/-! ### The progress line -/

/-- The line of an event. -/
def Event.line? : Event → Option ProgressLine
  | .progress line => some line
  | _ => none

/-- The line drawn last. -/
def lastLine (l : List Event) : Option ProgressLine := (l.filterMap Event.line?).getLast?

/-- **Row 16 shows the line drawn last**, since each line blanks the row before it is drawn. -/
theorem rowShown_showEvents {l : List Event} (hl : SoundLines l) {line : ProgressLine}
    (hline : lastLine l = some line) (mem : ℕ → UInt8) :
    rowShown (showEvents l mem) 16 = inRow 0 (progressText line) := by
  induction l using List.reverseRecOn with
  | nil => exact absurd hline (Option.some_ne_none line).symm
  | append_singleton l e ih =>
    have hstep : showEvents (l ++ [e]) mem = showEvents [e] (showEvents l mem) :=
      List.foldl_append
    rw [lastLine, List.filterMap_append] at hline
    rw [hstep]
    cases e with
    | progress line' =>
      have hlast : ((l.filterMap Event.line?) ++ [line']).getLast? = some line := hline
      rw [List.getLast?_concat, Option.some_inj] at hlast
      have hlen := length_progressText_le (hl _ (by simp) line' rfl)
      rw [← hlast]
      exact rowShown_showRow (by decide) (by omega)
    | int13 | returned | store | transfer | copy | divide | account =>
      refine ih (fun d hd ↦ hl d (List.mem_append_left _ hd)) ?_
      have hrest : ((l.filterMap Event.line?) ++ []).getLast? = some line := hline
      rwa [List.append_nil] at hrest

/-! ### A moment of a round -/

section moment

variable {i : ℕ} {d : Shown σ} {l : List Event}

/-- The messages about the options, which begin their rows in every round. -/
theorem mode_duringRound (hl : SoundLines l) :
    (modeText opt).take 80 <+: rowShown (duringRound opt i d l) 4 ∧
      wipingText opt <+: rowShown (duringRound opt i d l) 6 := by
  have hwiping := length_wipingText_le opt
  obtain ⟨post, hpost⟩ : ∃ post, post = rowsPrints 10 (diskRows (d.machine.diskList i)) ++
    l.flatMap linePrints := ⟨_, rfl⟩
  have hbelow : ∀ p ∈ post, 80 * 10 ≤ p.first := by
    intro p hp
    rw [hpost, List.mem_append] at hp
    rcases hp with hp | hp
    · exact (mem_rowsPrints (diskRows_fit _) hp).1
    · have h := (mem_linePrints hl hp).1
      omega
  have hall : duringRound opt i d l = printAll d.display (modePrints opt ++ post) := by
    rw [duringRound_eq, List.append_assoc, hpost]
  have hmode : (snprinted 1024 (modeText opt)).take 80 = (modeText opt).take 80 := by
    rw [snprinted, List.take_take, Nat.min_eq_left (by decide)]
  have hfits : (snprinted 1024 (wipingText opt)).take 80 = wipingText opt := by
    rw [snprinted_of_lt (by omega), List.take_of_length_le hwiping]
  rw [hall, ← hmode, ← hfits]
  constructor
  · have hsplit : modePrints opt ++ post = [] ++ ⟨4, 0, snprinted 1024 (modeText opt)⟩ ::
        (⟨5, 0, List.replicate 80 0x2d⟩ :: ⟨6, 0, snprinted 1024 (wipingText opt)⟩ ::
          ⟨7, 0, List.replicate 80 0x2d⟩ :: post) := rfl
    rw [hsplit]
    refine isPrefix_rowShown_printAll fun p hp ↦ Or.inr ?_
    simp only [List.mem_cons] at hp
    rcases hp with rfl | rfl | rfl | hp
    · decide
    · show 80 * 5 ≤ 80 * 6 + 0
      decide
    · decide
    · have h := hbelow p hp
      omega
  · have hsplit : modePrints opt ++ post = [⟨4, 0, snprinted 1024 (modeText opt)⟩,
        ⟨5, 0, List.replicate 80 0x2d⟩] ++ ⟨6, 0, snprinted 1024 (wipingText opt)⟩ ::
          (⟨7, 0, List.replicate 80 0x2d⟩ :: post) := rfl
    rw [hsplit]
    refine isPrefix_rowShown_printAll fun p hp ↦ Or.inr ?_
    simp only [List.mem_cons] at hp
    rcases hp with rfl | hp
    · decide
    · have h := hbelow p hp
      omega

/-- The rows about the disk, through all of the progress lines of the round. -/
theorem disk_duringRound (hl : SoundLines l) {k : ℕ}
    (hk : k < (diskRows (d.machine.diskList i)).length) :
    rowShown (duringRound opt i d l) (10 + k) =
      inRow (diskRows (d.machine.diskList i))[k].1 (diskRows (d.machine.diskList i))[k].2 := by
  have hlen := length_diskRows (d.machine.diskList i)
  rw [duringRound, showEvents_eq, rowShown_printAll fun p hp ↦ Or.inr ?_, showDiskStatus_eq]
  · exact rowShown_showRows (diskRows_fit _) hk
  · have h := (mem_linePrints hl hp).1
    omega

/-- The counters are left alone, unless the label is too long. -/
theorem list_duringRound (hl : SoundLines l) (hskip : opt.skip.bytes.length ≤ 254) :
    rowShown (duringRound opt i d l) 8 = rowShown d.display 8 := by
  rw [duringRound_eq]
  refine rowShown_printAll fun p hp ↦ ?_
  rw [List.mem_append, List.mem_append] at hp
  rcases hp with (hp | hp) | hp
  · exact Or.inl ((mem_modePrints hp).2.2 hskip)
  · have h := (mem_rowsPrints (diskRows_fit _) hp).1
    exact Or.inr (by omega)
  · have h := (mem_linePrints hl hp).1
    exact Or.inr (by omega)

end moment

/-! ### Reading the counters -/

/-- A counter read off a row: the digits behind the colon `k`. -/
def counterShown (k : ℕ) (row : List UInt8) : ℕ :=
  digitsValue (((row.splitOn 0x3a).getD (k + 1) []).drop 1)

section reading

variable {total error skiped wiped : UInt32} (h1 : total.toNat < 1000) (h2 : error.toNat < 1000)
  (h3 : skiped.toNat < 1000) (h4 : wiped.toNat < 1000)

theorem colon_not_mem_fmtZero {x : UInt32} (hx : x.toNat < 1000) :
    (0x3a : UInt8) ∉ fmtZero 2 (asInt x) := by
  rw [asInt_of_lt (by omega), fmtZero, if_neg (by omega), List.leftpad, List.mem_append]
  rintro (h | h)
  · exact absurd (List.eq_of_mem_replicate h) (by decide)
  · exact absurd (isdigit_decimal _ _ h) (by decide)

theorem counterShown_eq {k : ℕ} {row x rest : List UInt8} {fields : List (List UInt8)}
    (hrow : row.splitOn 0x3a = fields) (hfield : fields[k + 1]? = some (0x20 :: x ++ rest)) :
    counterShown k row = digitsValue (x ++ rest) := by
  rw [counterShown, hrow, List.getD_eq_getElem?_getD, hfield]
  rfl

/-- Four fields with their words in front of them. -/
theorem fields_eq_intercalate (a b c d e x y z w : List UInt8) (n : ℕ) :
    a ++ [0x3a, 0x20] ++ x ++ (b ++ [0x3a, 0x20]) ++ y ++ (c ++ [0x3a, 0x20]) ++ z ++
        (d ++ [0x3a, 0x20]) ++ w ++ e ++ List.replicate n 0x20 =
      [0x3a].intercalate [a, 0x20 :: x ++ b, 0x20 :: y ++ c, 0x20 :: z ++ d,
        0x20 :: w ++ e ++ List.replicate n 0x20] := by
  simp only [List.intercalate_cons_cons, List.intercalate_singleton, List.append_assoc,
    List.cons_append, List.nil_append]

include h1 h2 h3 h4

/-- The row of the counters between its colons. -/
theorem splitOn_listText (n : ℕ) :
    (listText total error skiped wiped ++ List.replicate n 0x20).splitOn 0x3a =
      [ascii "| Total", 0x20 :: fmtZero 2 (asInt total) ++ ascii " | Error",
        0x20 :: fmtZero 2 (asInt error) ++ ascii " | Skiped",
        0x20 :: fmtZero 2 (asInt skiped) ++ ascii " | Wiped",
        0x20 :: fmtZero 2 (asInt wiped) ++ ascii " |" ++ List.replicate n 0x20] := by
  have htotal : ascii "| Total: " = ascii "| Total" ++ [0x3a, 0x20] := by decide
  have herror : ascii " | Error: " = ascii " | Error" ++ [0x3a, 0x20] := by decide
  have hskiped : ascii " | Skiped: " = ascii " | Skiped" ++ [0x3a, 0x20] := by decide
  have hwiped : ascii " | Wiped: " = ascii " | Wiped" ++ [0x3a, 0x20] := by decide
  have hsplit : listText total error skiped wiped ++ List.replicate n 0x20 =
      [0x3a].intercalate [ascii "| Total", 0x20 :: fmtZero 2 (asInt total) ++ ascii " | Error",
        0x20 :: fmtZero 2 (asInt error) ++ ascii " | Skiped",
        0x20 :: fmtZero 2 (asInt skiped) ++ ascii " | Wiped",
        0x20 :: fmtZero 2 (asInt wiped) ++ ascii " |" ++ List.replicate n 0x20] := by
    rw [listText, htotal, herror, hskiped, hwiped]
    exact fields_eq_intercalate ..
  -- no colon is left
  have hspace : (0x3a : UInt8) ≠ 0x20 := by decide
  have hwords : (0x3a : UInt8) ∉ ascii "| Total" ∧ (0x3a : UInt8) ∉ ascii " | Error" ∧
      (0x3a : UInt8) ∉ ascii " | Skiped" ∧ (0x3a : UInt8) ∉ ascii " | Wiped" ∧
      (0x3a : UInt8) ∉ ascii " |" := by decide
  obtain ⟨hw1, hw2, hw3, hw4, hw5⟩ := hwords
  have hblank : (0x3a : UInt8) ∉ List.replicate n 0x20 := fun h ↦
    hspace (List.eq_of_mem_replicate h)
  have hfield {x : UInt32} (hx : x.toNat < 1000) {rest : List UInt8} (hrest : 0x3a ∉ rest) :
      (0x3a : UInt8) ∉ 0x20 :: fmtZero 2 (asInt x) ++ rest := by
    rw [List.cons_append, List.mem_cons, List.mem_append, not_or, not_or]
    exact ⟨hspace, colon_not_mem_fmtZero hx, hrest⟩
  rw [hsplit, List.splitOn_intercalate _ ?_ (List.cons_ne_nil _ _)]
  simp only [List.forall_mem_cons]
  refine ⟨hw1, hfield h1 hw2, hfield h2 hw3, hfield h3 hw4, ?_, fun _ h ↦ absurd h List.not_mem_nil⟩
  rw [List.append_assoc]
  refine hfield h4 ?_
  rw [List.mem_append, not_or]
  exact ⟨hw5, hblank⟩

/-- **The counters are read back from their row**, by the colons in front of them. -/
theorem counterShown_listText (row : List UInt8)
    (hrow : row = inRow 0 (listText total error skiped wiped)) :
    counterShown 0 row = total.toNat ∧ counterShown 1 row = error.toNat ∧
      counterShown 2 row = skiped.toNat ∧ counterShown 3 row = wiped.toNat := by
  have hsplit := splitOn_listText h1 h2 h3 h4
    (80 - (listText total error skiped wiped).length)
  rw [← inRow_zero_of_le (length_listText_le h1 h2 h3 h4), ← hrow] at hsplit
  have hread {x : UInt32} (hx : x.toNat < 1000) {rest : List UInt8}
      (hrest : rest.head? = some 0x20) :
      digitsValue (fmtZero 2 (asInt x) ++ rest) = x.toNat := by
    rw [asInt_of_lt (by omega), digitsValue_fmtZero_append (by omega) 2 ?_]
    · exact Int.toNat_natCast _
    · rw [hrest]
      intro c hc
      rw [← Option.some_inj.1 hc]
      rfl
  refine ⟨?_, ?_, ?_, ?_⟩
  · rw [counterShown_eq hsplit rfl]
    exact hread h1 (by decide)
  · rw [counterShown_eq hsplit rfl]
    exact hread h2 (by decide)
  · rw [counterShown_eq hsplit rfl]
    exact hread h3 (by decide)
  · have hlast : (ascii " |").head? = some 0x20 := by decide
    rw [List.append_assoc] at hsplit
    rw [counterShown_eq hsplit rfl]
    exact hread h4 (by rw [List.head?_append, hlast]; rfl)

end reading

/-! ### The counters of a run -/

section counted

/-- The enumeration leaves the counters of the wipe loop alone, and lists at most 128 disks. -/
theorem enumDisk_unreported (env : Env σ) (uninit : Extensions) {m : Machine σ} (h : Unreported m) :
    Unreported (enumDisk env uninit m).state ∧
      (enumDisk env uninit m).state.totalDiskCnt.toNat ≤ 128 := by
  have hT : TraceM.Composes fun (m : Machine σ) (_ : List Event) m' ↦
      Unreported m → Unreported m' :=
    ⟨fun _ h ↦ h, fun h h' h0 ↦ h' (h h0)⟩
  have hask (m : Machine σ) (q : RealArea) (h : Unreported m) : Unreported (m.ask env q) :=
    ⟨h.done, h.error, h.skiped⟩
  have hslot (index : ℕ) (param : DiskParam) : TraceM.Along
      (fun (m : Machine σ) (_ : List Event) m' ↦ Unreported m → Unreported m')
      (setSlot index param) :=
    (TraceM.along_emit fun _ h ↦ h).bind hT fun _ ↦
      TraceM.along_update fun _ h ↦ ⟨h.done, h.error, h.skiped⟩
  have hprobe (id : UInt8) (s : EnumState) : TraceM.Along
      (fun (m : Machine σ) (_ : List Event) m' ↦ Unreported m → Unreported m')
      (probeDrive env id s) := by
    refine TraceM.Along.bind hT (fun m h ↦ ?_) fun v ↦ ?_
    · rw [run_getDiskParam m rfl]
      exact hask m _ h
    refine (hslot _ _).bind hT fun _ ↦ TraceM.Along.ite ?_ (TraceM.along_pure hT s)
    refine TraceM.Along.bind hT (fun m h ↦ ?_) fun v ↦ TraceM.Along.ite ?_ (TraceM.along_pure hT _)
    · rw [run_checkExtensionsPresent m s.ext rfl]
      exact hask m _ h
    refine TraceM.Along.bind hT (fun m h ↦ ?_) fun v ↦ ?_
    · rw [run_getDiskParamExt m rfl]
      exact hask m _ h
    exact (hslot _ _).bind hT fun _ ↦ TraceM.along_pure hT _
  obtain ⟨t, ht⟩ : ∃ t, t = TraceM.forRange 128 ⟨0, uninit⟩
      (fun i s ↦ probeDrive env (driveId i) s) { m with site := .probe } := ⟨_, rfl⟩
  have hstate : Unreported t.state := by
    rw [ht]
    exact TraceM.Along.forRange hT (fun i s ↦ hprobe (driveId i) s) 128 _ _
      ⟨h.done, h.error, h.skiped⟩
  have hindex : t.val.index ≤ 128 := by
    have hinv : Entered 128 t.val t.state t.events := by
      rw [ht]
      refine TraceM.forRange_invariant Entered ⟨rfl, Nat.le_refl 0⟩ ?_
      exact fun i s m l _ h ↦ h.step (driveId i)
    exact hinv.index
  rw [run_enumDisk uninit m ht]
  refine ⟨⟨hstate.done, hstate.error, hstate.skiped⟩, ?_⟩
  show (UInt32.ofNat t.val.index).toNat ≤ 128
  rw [UInt32.toNat_ofNat']
  omega

/-- **The row of the counters is true after `n` rounds**: it shows how many disks there are, and how
many of the first `n` have failed, were skipped and were wiped. -/
structure CountersShown (env : Env σ) (opt : Options) (m : Machine σ) (n : ℕ) (mem : ℕ → UInt8) :
    Prop where
  total : counterShown 0 (rowShown mem 8) = m.totalDiskCnt.toNat
  error : counterShown 1 (rowShown mem 8) = Nat.count (fun j ↦ returnedAt env opt m j < 0) n
  skiped : counterShown 2 (rowShown mem 8) = Nat.count (fun j ↦ 0 < returnedAt env opt m j) n
  wiped : counterShown 3 (rowShown mem 8) = Nat.count (fun j ↦ returnedAt env opt m j = 0) n

variable {m : Machine σ} {n : ℕ}

/-- `show_disk_list` shows the counters, if they fit in the row: there are at most 128 disks. -/
theorem rowShown_showCounters (h1 : m.totalDiskCnt.toNat < 1000) (h2 : m.errorDiskCnt.toNat < 1000)
    (h3 : m.skipedDiskCnt.toNat < 1000) (h4 : m.doneDiskCnt.toNat < 1000) (mem : ℕ → UInt8) :
    rowShown (showCounters m mem) 8 =
      inRow 0 (listText m.totalDiskCnt m.errorDiskCnt m.skipedDiskCnt m.doneDiskCnt) := by
  have hlen := length_listText_le h1 h2 h3 h4
  have hdashes : ∀ p ∈ [(⟨9, 0, List.replicate 80 0x2d⟩ : Print)], p.OffRow 8 := by
    intro p hp
    rw [List.mem_singleton.1 hp]
    exact Or.inr (by decide)
  rw [showCounters, showDiskList, showSepator_eq, rowShown_printAll hdashes,
    rowShown_showRow (Nat.zero_le _) (by omega)]

/-- **`show_disk_list` after `n` rounds** shows how the first `n` disks have come out. -/
theorem countersShown_before (h0 : Unreported m) (htotal : m.totalDiskCnt.toNat ≤ 128)
    (hn : n ≤ 128) {mem mem' : ℕ → UInt8}
    (hrow : rowShown mem 8 = rowShown (showCounters (before env opt m n) mem') 8) :
    CountersShown env opt m n mem := by
  have hb : Booked env opt m n := h0.booked n (by omega)
  have hcount (p : ℕ → Prop) [DecidablePred p] : Nat.count p n < 1000 :=
    (Nat.count_le p).trans_lt (by omega)
  have h1 : (before env opt m n).totalDiskCnt.toNat < 1000 := by
    rw [hb.total]
    omega
  have h2 := hb.error ▸ hcount fun j ↦ returnedAt env opt m j < 0
  have h3 := hb.skiped ▸ hcount fun j ↦ 0 < returnedAt env opt m j
  have h4 := hb.done ▸ hcount fun j ↦ returnedAt env opt m j = 0
  rw [rowShown_showCounters h1 h2 h3 h4] at hrow
  obtain ⟨hc0, hc1, hc2, hc3⟩ := counterShown_listText h1 h2 h3 h4 _ hrow
  exact ⟨by rw [hc0, hb.total], by rw [hc1, hb.error], by rw [hc2, hb.skiped],
    by rw [hc3, hb.done]⟩

/-- **After `n` rounds of the wipe loop** the row of the counters is true. -/
theorem countersShown_showWipes (env : Env σ) (opt : Options) {d : Shown σ} {mem' : ℕ → UInt8}
    (hd : d.display = showCounters d.machine mem') (h0 : Unreported d.machine)
    (htotal : d.machine.totalDiskCnt.toNat ≤ 128) (hn : n ≤ 128) :
    CountersShown env opt d.machine n (showWipes env opt n d).display := by
  have hshown : ∃ mem', (showWipes env opt n d).display =
      showCounters (before env opt d.machine n) mem' := by
    have hmachine := machine_showWipes env opt n d
    cases n with
    | zero => exact ⟨mem', hd⟩
    | succ n =>
      rw [showWipes_succ] at hmachine ⊢
      exact ⟨_, congrArg (showCounters · _) hmachine⟩
  obtain ⟨mem'', hmem⟩ := hshown
  exact countersShown_before h0 htotal hn (congrArg (rowShown · 8) hmem)

end counted

/-! ### The page -/

/-- The address is not on the page of the display. -/
def OffPage (a : ℕ) : Prop := a < screenAdr ∨ screenAdr + 4000 ≤ a

section page

variable {a : ℕ} (ha : OffPage a) {mem : ℕ → UInt8}

include ha

/-- A text on the page, of characters or of colours, changes nothing off it. -/
theorem put_of_offPage {w start : ℕ} {text : List UInt8} (hlo : screenAdr ≤ start)
    (hhi : start + w * text.length < screenAdr + 4000 + w) : put w mem start text a = mem a := by
  refine put_of_ne fun i hi ↦ ?_
  have hle : w * (i + 1) ≤ w * text.length := Nat.mul_le_mul_left w hi
  rw [Nat.mul_succ] at hle
  rcases ha with ha | ha <;> omega

theorem printAll_of_offPage {l : List Print} (h : ∀ p ∈ l, p.behind ≤ 2000) :
    printAll mem l a = mem a := by
  refine paintAll_of_off fun s hs hcov ↦ ?_
  obtain ⟨p, hp, rfl⟩ := List.mem_map.1 hs
  obtain ⟨c, -, hbehind, hc⟩ := Print.covers hcov
  have hpage := h p hp
  rcases ha with ha | ha <;> omega

theorem cprint_of_offPage {y x : ℕ} {text : List UInt8} (h : 80 * y + x + text.length ≤ 2000) :
    cprint mem y x text a = mem a := by
  refine put_of_offPage ha ?_ ?_
  · rw [cellAdr]
    omega
  · rw [cellAdr]
    omega

theorem head_of_offPage (g : CpuInfo) (speed : UInt32) :
    showCpu g speed (showHeader (displayInit mem)) a = mem a := by
  have hcpu := @length_snprinted_lt 512 (by decide) (cpuText g speed)
  have hdashes : (List.replicate 80 (0x2d : UInt8)).length = 80 := List.length_replicate
  have htitle : (ascii
      "                  DWiPe  v1.0.0 by sTeeL(steel.mental@gmail.com)               ").length =
        79 := by decide
  have hplus : (ascii "+").length = 1 := by decide
  rw [showCpu, showSepator, cprint_of_offPage ha (by rw [hdashes]; decide),
    cprint_of_offPage ha (by omega), showSepator, cprint_of_offPage ha (by rw [hdashes]; decide),
    showHeader, cprint_of_offPage ha (by rw [hplus]; decide),
    put_of_offPage ha (Nat.le_add_right _ _) (by decide),
    cprint_of_offPage ha (by rw [htitle]; decide),
    put_of_offPage ha (Nat.le_add_right _ _) (by rw [List.length_replicate]; decide), displayInit,
    put_of_offPage ha (by omega) (by rw [List.length_replicate]; omega),
    put_of_offPage ha (Nat.le_add_right _ _) (by rw [List.length_replicate]; omega),
    put_of_offPage ha (Nat.le_refl _) (by rw [List.length_replicate]; omega)]

/-- The calls for the row of the counters. -/
theorem listPrints_of_offPage {text : List UInt8} (htext : text.length ≤ 80) :
    printAll mem (listPrints text) a = mem a :=
  printAll_of_offPage ha fun p hp ↦ (mem_listPrints htext hp).2.trans (by decide)

theorem showProbes_of_offPage (uninit : Extensions) (n : ℕ) (d : Shown σ) :
    (showProbes env uninit n d).2.display a = d.display a := by
  induction n with
  | zero => rfl
  | succ n ih =>
    have hlen (id : UInt8) :
        (ascii "| Enumerating ... " ++ fmtHex id ++ ascii " |").length ≤ 80 := by
      have h1 : (ascii "| Enumerating ... ").length = 18 := by decide
      have h2 : (ascii " |").length = 2 := by decide
      have h3 : (fmtHex id).length = 2 := rfl
      rw [List.length_append, List.length_append, h1, h2, h3]
      decide
    rw [showProbes_succ, showProbe]
    dsimp only
    split_ifs
    · rw [showDiskListEnum, showSepator_eq, showRow_eq, ← printAll_append, ← listPrints,
        listPrints_of_offPage ha (hlen _), ih]
    · exact ih

/-- A round of the wipe loop, up to any of its moments. -/
theorem duringRound_of_offPage {i : ℕ} {d : Shown σ} {l : List Event} (hl : SoundLines l) :
    duringRound opt i d l a = d.display a := by
  rw [duringRound_eq]
  refine printAll_of_offPage ha fun p hp ↦ ?_
  rw [List.mem_append, List.mem_append] at hp
  rcases hp with (hp | hp) | hp
  · exact (mem_modePrints hp).2.1.trans (by decide)
  · have h := (mem_rowsPrints (diskRows_fit _) hp).2
    rw [length_diskRows] at h
    omega
  · exact (mem_linePrints hl hp).2.trans (by decide)

end page

/-! ### Runs -/

section runs

variable {uninit : Extensions} {g : CpuInfo} {speed : UInt32} {d start : Shown σ}

/-- **The state in which the wipe loop starts**: no disk is booked, and their number fits in its
field. -/
structure Ready (start : Shown σ) : Prop where
  unreported : Unreported start.machine
  total : start.machine.totalDiskCnt.toNat ≤ 128
  shown : ∃ mem, start.display = showCounters start.machine mem

theorem ready_showStart (h0 : Unreported d.machine)
    (hstart : start = showStart env uninit g speed d) : Ready start := by
  have hmachine := machine_showStart env uninit g speed d
  rw [← hstart] at hmachine
  simp only [TraceM.state_bind] at hmachine
  obtain ⟨hunreported, htotal⟩ := enumDisk_unreported env uninit
    (m := (srand (gettimeofday env d.machine).val.tvSec (gettimeofday env d.machine).state).state)
    ⟨h0.done, h0.error, h0.skiped⟩
  rw [← hmachine] at hunreported htotal
  exact ⟨hunreported, htotal, by rw [hstart]; exact ⟨_, rfl⟩⟩

/-- The counters fit into their row at any time. -/
theorem Ready.length_listText_le (h : Ready start) (env : Env σ) (opt : Options) {n : ℕ}
    (hn : n ≤ 128) {m : Machine σ} (hm : m = before env opt start.machine n) :
    (listText m.totalDiskCnt m.errorDiskCnt m.skipedDiskCnt m.doneDiskCnt).length ≤ 80 := by
  have hb : Booked env opt start.machine n := h.unreported.booked n (by omega)
  have hcount (p : ℕ → Prop) [DecidablePred p] : Nat.count p n < 1000 :=
    (Nat.count_le p).trans_lt (by omega)
  have htotal := h.total
  rw [hm]
  refine Dwipe.length_listText_le (by rw [hb.total]; omega) ?_ ?_ ?_
  · exact hb.error ▸ hcount fun j ↦ returnedAt env opt start.machine j < 0
  · exact hb.skiped ▸ hcount fun j ↦ 0 < returnedAt env opt start.machine j
  · exact hb.done ▸ hcount fun j ↦ returnedAt env opt start.machine j = 0

theorem showStart_of_offPage {a : ℕ} (ha : OffPage a) (h0 : Unreported d.machine)
    (hstart : start = showStart env uninit g speed d) : start.display a = d.display a := by
  have hready := ready_showStart h0 hstart
  have hlen := hready.length_listText_le env setDefaultOpt (Nat.zero_le 128)
    (m := start.machine) rfl
  obtain ⟨e, he⟩ : ∃ e, e = showEnum env uninit ⟨((do
    let cur ← gettimeofday env
    srand cur.tvSec : Prog σ Unit) d.machine).state,
      showCpu g speed (showHeader (displayInit d.display))⟩ := ⟨_, rfl⟩
  have hdisplay : start.display = showCounters start.machine e.display := by
    rw [hstart, showStart, ← he]
  rw [hdisplay, showCounters, showDiskList_eq, listPrints_of_offPage ha hlen, he, showEnum]
  dsimp only
  rw [showProbes_of_offPage ha]
  exact head_of_offPage ha g speed

/-- **No round draws off the page**, whatever label the options have. -/
theorem showWipes_of_offPage {a : ℕ} (ha : OffPage a) (h : Ready start) {n : ℕ} (hn : n ≤ 128) :
    (showWipes env opt n start).display a = start.display a := by
  induction n with
  | zero => rfl
  | succ n ih =>
    have hmachine := machine_showWipes env opt (n + 1) start
    rw [showWipes_succ] at hmachine ⊢
    have hlen := h.length_listText_le env opt hn hmachine
    have hround (d : Shown σ) : (showRound env opt n d).display = showCounters
        (showRound env opt n d).machine
          (duringRound opt n d (wipeListed env opt n d.machine).events) := rfl
    rw [hround, showCounters, showDiskList_eq, listPrints_of_offPage ha hlen,
      duringRound_of_offPage ha (wipeListed_soundLines _ _), ih (by omega)]

end runs

/-- **What the operator sees while a disk is wiped.** For every BIOS, all options and every memory,
in every round of the wipe loop and after any part of its events: the options begin their rows, the
counters are those of the rounds before unless the label is too long for them, the disk is the one
of the round, the progress line is the one drawn last, and nothing has been drawn off the page. -/
theorem status_during (env : Env σ) (opt : Options) (uninit : Extensions) (g : CpuInfo)
    (speed : UInt32) (d : Shown σ) (h0 : Unreported d.machine) (start s : Shown σ)
    (hstart : start = showStart env uninit g speed d) (i : ℕ)
    (hi : i < start.machine.totalDiskCnt.toNat) (hs : s = showWipes env opt i start)
    (l : List Event) (hl : l <+: (wipeListed env opt i s.machine).events) (mem : ℕ → UInt8)
    (hmem : mem = duringRound opt i s l) :
    ((modeText opt).take 80 <+: rowShown mem 4 ∧ wipingText opt <+: rowShown mem 6) ∧
      (opt.skip.bytes.length ≤ 254 → CountersShown env opt start.machine i mem) ∧
      (∀ k row, (diskRows (start.machine.diskList i))[k]? = some row →
        rowShown mem (10 + k) = inRow row.1 row.2) ∧
      (∀ line, lastLine l = some line → rowShown mem 16 = inRow 0 (progressText line)) ∧
      ∀ a, OffPage a → mem a = d.display a := by
  have hready := ready_showStart h0 hstart
  have htotal := hready.total
  have hsound : SoundLines l := fun e he ↦ wipeListed_soundLines i s.machine e (hl.subset he)
  have hlist : s.machine.diskList = start.machine.diskList := by
    rw [hs, machine_showWipes]
    exact (hready.unreported.booked i (by omega)).diskList
  subst hmem
  refine ⟨mode_duringRound hsound, fun hskip ↦ ?_, fun k row hrow ↦ ?_, fun line hline ↦ ?_,
    fun a ha ↦ ?_⟩
  · obtain ⟨mem', hmem'⟩ := hready.shown
    have hcounters := countersShown_showWipes env opt hmem' hready.unreported
      htotal (show i ≤ 128 by omega)
    have hrow := list_duringRound (i := i) (d := s) hsound hskip
    rw [← hs] at hcounters
    exact ⟨hrow ▸ hcounters.total, hrow ▸ hcounters.error, hrow ▸ hcounters.skiped,
      hrow ▸ hcounters.wiped⟩
  · rw [← hlist] at hrow
    obtain ⟨hk, rfl⟩ := List.getElem?_eq_some_iff.1 hrow
    exact disk_duringRound hsound hk
  · exact rowShown_showEvents hsound hline _
  · rw [duringRound_of_offPage ha hsound, hs, showWipes_of_offPage ha hready (by omega),
      showStart_of_offPage ha h0 hstart]

/-- The second of two disks, before anything has been drawn about it: it is `82h`, and there are two
disks. -/
theorem status_during_two : ∃ start mem,
    start = showStart (Env.assigned twoDrives) ⟨0, 0⟩ CpuInfo.start 0
      ⟨Machine.fresh () 1, fun _ ↦ 0⟩ ∧
    mem = duringRound Options.plain 1 (showWipes (Env.assigned twoDrives) Options.plain 1 start)
      [] ∧
    rowShown mem 10 = inRow 0 (ascii "Disk " ++ fmtHex 0x82) ∧
    counterShown 0 (rowShown mem 8) = 2 := by
  obtain ⟨start, hstart⟩ : ∃ start, start = showStart (Env.assigned twoDrives) ⟨0, 0⟩
    CpuInfo.start 0 ⟨Machine.fresh () 1, fun _ ↦ 0⟩ := ⟨_, rfl⟩
  have htotal : start.machine.totalDiskCnt = 2 := by
    rw [hstart]
    decide +kernel
  have hid : (start.machine.diskList 1).diskId = 0x82 := by
    rw [hstart]
    decide +kernel
  have hskip : Options.plain.skip.bytes.length ≤ 254 := by decide
  obtain ⟨-, hcounters, hdisk, -, -⟩ := status_during (Env.assigned twoDrives) Options.plain ⟨0, 0⟩
    CpuInfo.start 0 ⟨Machine.fresh () 1, fun _ ↦ 0⟩ ⟨rfl, rfl, rfl⟩ start _ hstart 1
    (by rw [htotal]; decide) rfl [] List.nil_prefix _ rfl
  refine ⟨start, _, hstart, rfl, ?_, ?_⟩
  · rw [← hid]
    exact hdisk 0 _ rfl
  · rw [(hcounters hskip).total, htotal]
    rfl

/-- **What the operator sees at the end.** For every BIOS, all options and every memory: the run
with its display is the run without it, the row of the counters is true, the three kinds of disks on
it add up to the disks there are, and nothing has been drawn off the page. -/
theorem status_final (env : Env σ) (opt : Options) (uninit : Extensions) (g : CpuInfo)
    (speed : UInt32) (d : Shown σ) (h0 : Unreported d.machine) (t : Shown σ)
    (ht : t = showMain env opt uninit g speed d) :
    t.machine = (doMain env opt uninit d.machine).state ∧
      counterShown 0 (rowShown t.display 8) = t.machine.totalDiskCnt.toNat ∧
      counterShown 1 (rowShown t.display 8) = t.machine.errorDiskCnt.toNat ∧
      counterShown 2 (rowShown t.display 8) = t.machine.skipedDiskCnt.toNat ∧
      counterShown 3 (rowShown t.display 8) = t.machine.doneDiskCnt.toNat ∧
      counterShown 0 (rowShown t.display 8) = counterShown 1 (rowShown t.display 8) +
        counterShown 2 (rowShown t.display 8) + counterShown 3 (rowShown t.display 8) ∧
      ∀ a, OffPage a → t.display a = d.display a := by
  obtain ⟨start, hstart⟩ : ∃ start, start = showStart env uninit g speed d := ⟨_, rfl⟩
  have hready := ready_showStart h0 hstart
  obtain ⟨n, hn⟩ : ∃ n, n = start.machine.totalDiskCnt.toNat := ⟨_, rfl⟩
  have htotal : n ≤ 128 := hn ▸ hready.total
  have hwipes : t = showWipes env opt n start := by rw [ht, showMain, hn, hstart]
  have hmachine : t.machine = before env opt start.machine n := by
    rw [hwipes, machine_showWipes]
    rfl
  obtain ⟨mem', hmem'⟩ := hready.shown
  have hshown : CountersShown env opt start.machine n t.display :=
    hwipes ▸ countersShown_showWipes env opt hmem' hready.unreported hready.total htotal
  have hbooked : Booked env opt start.machine n := hready.unreported.booked n (by omega)
  have hsum := count_signs (returnedAt env opt start.machine) n
  refine ⟨by rw [ht, machine_showMain], ?_, ?_, ?_, ?_, ?_, fun a ha ↦ ?_⟩
  · rw [hshown.total, hmachine, hbooked.total]
  · rw [hshown.error, hmachine, hbooked.error]
  · rw [hshown.skiped, hmachine, hbooked.skiped]
  · rw [hshown.wiped, hmachine, hbooked.done]
  · rw [hshown.total, hshown.error, hshown.skiped, hshown.wiped, ← hn]
    omega
  · rw [hwipes, showWipes_of_offPage ha hready htotal, showStart_of_offPage ha h0 hstart]

/-- One drive, which has sectors of 2048 bytes. -/
def cdromDrive : Assignment := fun _ dl ↦
  if dl = 0x80 then
    ⟨false, { RealArea.zero.reg with cl := 1, dl := 1 },
      { DiskParamExt.zero with nsectors := 17, bytesPerSector := 2048 }⟩
  else ⟨true, { RealArea.zero.reg with ah := 1 }, DiskParamExt.zero⟩

/-- A disk that is none is skipped. -/
theorem status_final_cdrom : ∃ t, t = showMain (Env.assigned cdromDrive) Options.plain ⟨0, 0⟩
      CpuInfo.start 0 ⟨Machine.fresh () 1, fun _ ↦ 0⟩ ∧
    counterShown 0 (rowShown t.display 8) = 1 ∧ counterShown 2 (rowShown t.display 8) = 1 := by
  obtain ⟨t, ht⟩ : ∃ t, t = showMain (Env.assigned cdromDrive) Options.plain ⟨0, 0⟩
    CpuInfo.start 0 ⟨Machine.fresh () 1, fun _ ↦ 0⟩ := ⟨_, rfl⟩
  have hcounters : t.machine.totalDiskCnt = 1 ∧ t.machine.skipedDiskCnt = 1 := by
    rw [ht]
    decide +kernel
  obtain ⟨htotal, hskiped⟩ := hcounters
  obtain ⟨-, h0, -, h2, -, -, -⟩ := status_final (Env.assigned cdromDrive) Options.plain ⟨0, 0⟩
    CpuInfo.start 0 ⟨Machine.fresh () 1, fun _ ↦ 0⟩ ⟨rfl, rfl, rfl⟩ t ht
  refine ⟨t, ht, ?_, ?_⟩
  · rw [h0, htotal]
    rfl
  · rw [h2, hskiped]
    rfl

end Dwipe

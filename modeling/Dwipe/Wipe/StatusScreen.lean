import Dwipe.Runtime.CpuType
import Dwipe.Runtime.Format
import Dwipe.Wipe.Enumeration

/-!
# The status screen

The functions of `dwipe.c` that draw, and `display_init`. The screen has a row for the processor,
two for the options, one for the counters, six for the disk that is being wiped and one for the
progress line, with dashes between them.

The program never reads the display, so a run with its display is laid over the run without it: the
two halves of `enum_disk` and `do_main` that draw are written down again with a display next to the
machine (`Shown`), on top of the functions that act on the machine, and **leaving the display away
gives back the run** (`machine_showMain`). What `update_progress` draws is drawn from the lines in
the trace.

A message is put together in a buffer of 1024 bytes. Only the first row of the options can fill it,
since it contains a word of the command line. The buffer is on the stack, and the stack is left out:
a display is the memory as far as something is drawn there.
-/

namespace Dwipe

open Canvas

/-! ### Rows -/

/-- `clean_line`, by which a row loses what was on it before. -/
def cleanLine (mem : ℕ → UInt8) (y : ℕ) : ℕ → UInt8 := cprint mem y 0 (List.replicate 80 0x20)

/-- `show_sepator`. -/
def showSepator (mem : ℕ → UInt8) (y : ℕ) : ℕ → UInt8 := cprint mem y 0 (List.replicate 80 0x2d)

/-- A row is blanked, and gets a message of at most 1023 characters. -/
def showRow (mem : ℕ → UInt8) (y x : ℕ) (text : List UInt8) : ℕ → UInt8 :=
  cprint (cleanLine mem y) y x (snprinted 1024 text)

/-! ### The head of the screen -/

/-- `display_init`: the characters and the colours of 24 rows, and the colours of the last one. -/
def displayInit (mem : ℕ → UInt8) : ℕ → UInt8 :=
  let mem := put 2 mem screenAdr (List.replicate (80 * 24) 0x20)
  let mem := put 2 mem (screenAdr + 1) (List.replicate (80 * 24) 0x17)
  put 2 mem (screenAdr + 1 + 24 * 160) (List.replicate 80 0x71)

/-- `show_header`: the name of the program, with two cells of another colour. -/
def showHeader (mem : ℕ → UInt8) : ℕ → UInt8 :=
  let mem := put 2 mem (screenAdr + 1) (List.replicate 80 0x20)
  let mem := cprint mem 0 0 (ascii
    "                  DWiPe  v1.0.0 by sTeeL(steel.mental@gmail.com)               ")
  let mem := put 30 mem (screenAdr + 1) [0xa4, 0xa4]
  cprint mem 0 23 (ascii "+")

/-- The message of `show_cpu`. -/
def cpuText (g : CpuInfo) (speed : UInt32) : List UInt8 :=
  ascii "| CPU: " ++ ascii g.cpuTypeStr ++ ascii " | Cache L1/L2/L3: " ++ fmtD g.l1Cache.toInt ++
    ascii "K/" ++ fmtD g.l2Cache.toInt ++ ascii "K/" ++ fmtD g.l3Cache.toInt ++ ascii "K | Spd: " ++
    fmtD (asInt (speed / 1000)) ++ ascii "." ++ fmtD (asInt (speed / 100 % 10)) ++ ascii " MHz |"

/-- `show_cpu`, whose buffer has 512 bytes; the message goes over the blank row of
`display_init`. -/
def showCpu (g : CpuInfo) (speed : UInt32) (mem : ℕ → UInt8) : ℕ → UInt8 :=
  let mem := showSepator mem 1
  let mem := cprint mem 2 0 (snprinted 512 (cpuText g speed))
  showSepator mem 3

/-! ### The options -/

/-- `ON` or `OFF`. -/
def onOff (b : Bool) : List UInt8 := if b then ascii "ON" else ascii "OFF"

/-- The letter of a level of the log, if it is on. -/
def levelMark (debug : ℤ) (level : UInt32) (c : UInt8) : UInt8 :=
  if UInt32.ofInt debug &&& level ≠ 0 then c else 0x2d

/-- The first message of `show_mode`. The skip label is printed as it is, so it decides how far to
the right the rest goes. -/
def modeText (opt : Options) : List UInt8 :=
  ascii "| Skip: " ++ opt.skip.bytes ++ ascii " | Test " ++ onOff opt.test ++ ascii " | Debug [" ++
    [levelMark opt.debug 1 0x45, levelMark opt.debug 2 0x57, levelMark opt.debug 4 0x49,
      levelMark opt.debug 8 0x44] ++
    ascii "] | Check: " ++ onOff opt.check ++ ascii " | Force CHS: " ++ onOff opt.forceChs ++
    ascii " |"

/-- The name of a mode. -/
def modeName : WipeMode → List UInt8
  | .fast => ascii "FAST"
  | .dod => ascii "DOD"
  | .ocd => ascii "OCD"

/-- The second message of `show_mode`. -/
def wipingText (opt : Options) : List UInt8 :=
  ascii "| Write Funny MBR: " ++ onOff opt.mbr ++ ascii " | Wiping Mode: " ++ modeName opt.mode ++
    ascii " |"

/-- `show_mode`. Its rows are not blanked, since the options do not change from round to round. -/
def showMode (opt : Options) (mem : ℕ → UInt8) : ℕ → UInt8 :=
  let mem := cprint mem 4 0 (snprinted 1024 (modeText opt))
  let mem := showSepator mem 5
  let mem := cprint mem 6 0 (snprinted 1024 (wipingText opt))
  showSepator mem 7

/-! ### The disks -/

/-- The message of `show_disk_list`; the counters are printed as if they were signed. -/
def listText (total error skiped wiped : UInt32) : List UInt8 :=
  ascii "| Total: " ++ fmtZero 2 (asInt total) ++ ascii " | Error: " ++ fmtZero 2 (asInt error) ++
    ascii " | Skiped: " ++ fmtZero 2 (asInt skiped) ++ ascii " | Wiped: " ++
    fmtZero 2 (asInt wiped) ++ ascii " |"

/-- `show_disk_list`, which is drawn before the first round and after each. -/
def showDiskList (total error skiped wiped : UInt32) (mem : ℕ → UInt8) : ℕ → UInt8 :=
  showSepator (showRow mem 8 0 (listText total error skiped wiped)) 9

/-- `show_disk_list_enum`, in the row that the counters get afterwards. -/
def showDiskListEnum (diskId : UInt8) (mem : ℕ → UInt8) : ℕ → UInt8 :=
  showSepator (showRow mem 8 0 (ascii "| Enumerating ... " ++ fmtHex diskId ++ ascii " |")) 9

/-- Three numbers with slashes between them, for the two geometries. -/
def slashed (a b c : ℤ) : List UInt8 := fmtD a ++ ascii "/" ++ fmtD b ++ ascii "/" ++ fmtD c

/-- `show_disk_status`: six rows, the last three of which are about the extensions, or are
blanked. -/
def showDiskStatus (disk : DiskParam) (mem : ℕ → UInt8) : ℕ → UInt8 :=
  let mem := showRow mem 10 0 (ascii "Disk " ++ fmtHex disk.diskId)
  let mem := showRow mem 11 10 (ascii "Drives " ++ fmtD disk.drives.toNat)
  let mem := showRow mem 12 10 (ascii "Legacy C/H/S: " ++ slashed (disk.lastCylinders.toNat + 1)
    (disk.lastHeads.toNat + 1) disk.lastSectorsPerTrack.toNat)
  if disk.hasExt ≠ 0 then
    let mem := showRow mem 13 10 (ascii "Extent C/H/S: " ++ slashed (asInt disk.ext.ncylinders)
      (asInt disk.ext.nheads) (asInt disk.ext.sectorsPerTrack))
    let mem := showRow mem 14 10 (ascii "Sector Size: " ++ fmtD disk.ext.bytesPerSector.toNat ++
      ascii " B")
    showRow mem 15 10 (ascii "Extent Total Sectors: " ++ fmtLlu disk.ext.nsectors)
  else
    let mem := showRow mem 13 10 (ascii "Extent Info: Not Supported")
    let mem := cleanLine mem 14
    cleanLine mem 15

/-! ### The progress line -/

/-- The speed with its unit. It is computed in whole numbers and only then made a `double`. -/
def speedText (bps : UInt64) : List UInt8 :=
  if bps < speedBound 1 then fmtFixed (bps * 1000 / speedBound 1).toNat ++ ascii " B/S"
  else if bps < speedBound 2 then fmtFixed (bps * 1000 / speedBound 2).toNat ++ ascii "KB/S"
  else if bps < speedBound 3 then fmtFixed (bps * 1000 / speedBound 3).toNat ++ ascii "MB/S"
  else if bps < speedBound 4 then fmtFixed (bps * 1000 / speedBound 4).toNat ++ ascii "GB/S"
  else fmtFixed 999 ++ ascii "GB/S"

/-- The bar, from the `|` in front of it on. -/
def barText (proWidth : UInt32) : List UInt8 :=
  ascii "|" ++ List.replicate proWidth.toNat 0x3d ++
    List.replicate (lineWidth.toNat - proWidth.toNat) 0x20

/-- The time that is left, at least two digits each. -/
def etaText (line : ProgressLine) : List UInt8 :=
  fmtZero 2 (asInt line.etaHour) ++ ascii ":" ++ fmtZero 2 (asInt line.etaMin) ++ ascii ":" ++
    fmtZero 2 (asInt line.etaSec)

/-- The message of `update_progress`: the bar, the speed, the share that is done and the time that
is left. -/
def progressText (line : ProgressLine) : List UInt8 :=
  barText line.proWidth ++ ascii "|" ++ speedText line.speedBps ++ ascii "|" ++
    fmtPad 3 (asInt line.percent.toUInt32) ++ ascii "%|ETA " ++ etaText line ++ ascii "|"

/-- What `update_progress` draws, once it has decided to. -/
def showProgress (line : ProgressLine) (mem : ℕ → UInt8) : ℕ → UInt8 :=
  showRow mem 16 0 (progressText line)

/-- The display after a part of a trace: of all that a run of `wipe_disk` records, only the progress
lines are drawn. -/
def showEvents (l : List Event) (mem : ℕ → UInt8) : ℕ → UInt8 :=
  l.foldl (fun mem e ↦ match e with
    | .progress line => showProgress line mem
    | _ => mem) mem

/-! ### The run with its display -/

/-- The machine, and the memory the display is in. -/
structure Shown (σ : Type) where
  machine : Machine σ
  display : ℕ → UInt8

section run

variable {σ : Type} (env : Env σ) (opt : Options)

/-- One round of `enum_disk`; the id is drawn if `get_disk_param` succeeds. -/
def showProbe (id : UInt8) (s : EnumState) (d : Shown σ) : EnumState × Shown σ :=
  let t := probeDrive env id s d.machine
  (t.val, ⟨t.state, if (getDiskParam env id d.machine).val.1 = 0 then showDiskListEnum id d.display
    else d.display⟩)

/-- The first `n` rounds of `enum_disk`, with the display along. -/
def showProbes (uninit : Extensions) (n : ℕ) (d : Shown σ) : EnumState × Shown σ :=
  (List.range n).foldl (fun p i ↦ showProbe env (driveId i) p.1 p.2) (⟨0, uninit⟩, d)

/-- `enum_disk`. -/
def showEnum (uninit : Extensions) (d : Shown σ) : Shown σ :=
  let p := showProbes env uninit 128 { d with machine := { d.machine with site := .probe } }
  ⟨{ p.2.machine with totalDiskCnt := UInt32.ofNat p.1.index }, p.2.display⟩

/-- `show_disk_list` with the counters of the machine, as they are at the call. -/
def showCounters (m : Machine σ) (mem : ℕ → UInt8) : ℕ → UInt8 :=
  showDiskList m.totalDiskCnt m.errorDiskCnt m.skipedDiskCnt m.doneDiskCnt mem

/-- The display in round `i` of the wipe loop, when `wipe_disk` has left the events `l`. -/
def duringRound (i : ℕ) (d : Shown σ) (l : List Event) : ℕ → UInt8 :=
  showEvents l (showDiskStatus (d.machine.diskList i) (showMode opt d.display))

/-- One round of the wipe loop of `do_main`: the options, the disk, the wiping with its progress
lines, and the counters. -/
def showRound (i : ℕ) (d : Shown σ) : Shown σ :=
  let t := wipeListed env opt i d.machine
  ⟨t.state, showCounters t.state (duringRound opt i d t.events)⟩

/-- The first `n` rounds of the wipe loop. -/
def showWipes (n : ℕ) (d : Shown σ) : Shown σ :=
  (List.range n).foldl (fun d i ↦ showRound env opt i d) d

/-- `do_main` from `display_init` to the wipe loop, with what is drawn for the enumeration. -/
def showStart (uninit : Extensions) (g : CpuInfo) (speed : UInt32) (d : Shown σ) : Shown σ :=
  let t := (do
    let cur ← gettimeofday env
    srand cur.tvSec : Prog σ Unit) d.machine
  let d := showEnum env uninit ⟨t.state, showCpu g speed (showHeader (displayInit d.display))⟩
  { d with display := showCounters d.machine d.display }

/-- `do_main` from `display_init` on, with its display. -/
def showMain (uninit : Extensions) (g : CpuInfo) (speed : UInt32) (d : Shown σ) : Shown σ :=
  let d := showStart env uninit g speed d
  showWipes env opt d.machine.totalDiskCnt.toNat d

end run

/-! ### Leaving the display away -/

section machine

variable {σ : Type} (env : Env σ) (opt : Options)

theorem showWipes_succ (n : ℕ) (d : Shown σ) :
    showWipes env opt (n + 1) d = showRound env opt n (showWipes env opt n d) := by
  rw [showWipes, List.range_succ, List.foldl_append]
  rfl

/-- The wipe loop, whose machine does not look at the display. -/
theorem machine_showWipes (n : ℕ) (d : Shown σ) :
    (showWipes env opt n d).machine = (wipeFirst env opt n d.machine).state := by
  induction n with
  | zero => rfl
  | succ n ih =>
    rw [showWipes_succ, wipeFirst, TraceM.forRange_succ]
    show (wipeListed env opt n (showWipes env opt n d).machine).state = _
    rw [ih]
    rfl

theorem showProbes_succ (uninit : Extensions) (n : ℕ) (d : Shown σ) :
    showProbes env uninit (n + 1) d =
      showProbe env (driveId n) (showProbes env uninit n d).1 (showProbes env uninit n d).2 := by
  rw [showProbes, List.range_succ, List.foldl_append]
  rfl

/-- The rounds of the enumeration, whose machine does not look at the display. -/
theorem machine_showProbes (uninit : Extensions) (n : ℕ) (d : Shown σ)
    {t : Traced (Machine σ) Event EnumState} (ht : t = TraceM.forRange n ⟨0, uninit⟩
      (fun i s ↦ probeDrive env (driveId i) s) d.machine) :
    (showProbes env uninit n d).1 = t.val ∧ (showProbes env uninit n d).2.machine = t.state := by
  induction n generalizing t with
  | zero =>
    rw [ht]
    exact ⟨rfl, rfl⟩
  | succ n ih =>
    obtain ⟨hval, hstate⟩ := ih rfl
    rw [showProbes_succ, ht, TraceM.forRange_succ, TraceM.run_bind, showProbe, hval, hstate]
    exact ⟨rfl, rfl⟩

theorem machine_showEnum (uninit : Extensions) (d : Shown σ) :
    (showEnum env uninit d).machine = (enumDisk env uninit d.machine).state := by
  obtain ⟨hval, hstate⟩ := machine_showProbes env uninit 128
    { d with machine := { d.machine with site := .probe } } rfl
  rw [run_enumDisk uninit d.machine rfl, showEnum]
  simp only [hval, hstate]

theorem machine_showStart (uninit : Extensions) (g : CpuInfo) (speed : UInt32) (d : Shown σ) :
    (showStart env uninit g speed d).machine = ((do
      let cur ← gettimeofday env
      srand cur.tvSec
      enumDisk env uninit : Prog σ Unit) d.machine).state := by
  simp only [showStart, machine_showEnum, TraceM.state_bind]

/-- **Leaving the display away** gives back `do_main`, so all that is proved of its runs holds with
a display too. -/
theorem machine_showMain (uninit : Extensions) (g : CpuInfo) (speed : UInt32) (d : Shown σ) :
    (showMain env opt uninit g speed d).machine = (doMain env opt uninit d.machine).state := by
  simp only [showMain, machine_showWipes, machine_showStart, doMain, wipeAll, TraceM.state_bind,
    TraceM.run_read]

end machine

/-! ### The rows of the display -/

/-- What row `y` shows. -/
def rowShown (mem : ℕ → UInt8) (y : ℕ) : List UInt8 := shown 2 mem (cellAdr y 0) 80

/-- A row with a text in it: what does not fit is cut off. -/
def inRow (x : ℕ) (text : List UInt8) : List UInt8 :=
  (List.replicate x 0x20 ++ text ++ List.replicate 80 0x20).take 80

theorem inRow_zero_of_le {text : List UInt8} (h : text.length ≤ 80) :
    inRow 0 text = text ++ List.replicate (80 - text.length) 0x20 := by
  rw [inRow, List.replicate_zero, List.nil_append, List.take_append, List.take_of_length_le h,
    List.take_replicate, Nat.min_eq_left (Nat.sub_le _ _)]

/-- One call of `cprint`. -/
structure Print where
  y : ℕ
  x : ℕ
  text : List UInt8

namespace Print

variable (p : Print)

/-- Its first cell. -/
def first : ℕ := 80 * p.y + p.x

/-- The first cell behind it. -/
def behind : ℕ := p.first + p.text.length

/-- It leaves row `y` alone: a text may go on in the rows below, but never in one above. -/
def OffRow (y : ℕ) : Prop := p.behind ≤ 80 * y ∨ 80 * (y + 1) ≤ p.first

end Print

/-- The calls one after the other. -/
def printAll (mem : ℕ → UInt8) (l : List Print) : ℕ → UInt8 :=
  paintAll mem (l.map fun p ↦ cells p.y p.x p.text)

section rows

variable {mem : ℕ → UInt8} {l l' : List Print} {y x : ℕ} {text : List UInt8}

@[simp] theorem printAll_nil : printAll mem [] = mem := rfl

@[simp] theorem printAll_cons {p : Print} :
    printAll mem (p :: l) = printAll (cprint mem p.y p.x p.text) l := rfl

theorem printAll_append : printAll mem (l ++ l') = printAll (printAll mem l) l' := by
  rw [printAll, List.map_append, paintAll_append]
  rfl

/-- A call covers its cells. -/
theorem Print.covers {p : Print} {a : ℕ} (h : (cells p.y p.x p.text).Covers a) :
    ∃ c, p.first ≤ c ∧ c < p.behind ∧ a = screenAdr + 2 * c := by
  obtain ⟨i, hi, rfl⟩ := covers_cells.1 h
  exact ⟨p.first + i, Nat.le_add_right _ _, Nat.add_lt_add_left hi _, rfl⟩

/-- **Calls that leave a row alone** are not seen in it. -/
theorem rowShown_printAll (h : ∀ p ∈ l, p.OffRow y) :
    rowShown (printAll mem l) y = rowShown mem y := by
  refine shown_congr fun i hi ↦ paintAll_of_off fun s hs hcov ↦ ?_
  obtain ⟨p, hp, rfl⟩ := List.mem_map.1 hs
  obtain ⟨c, hfirst, hbehind, hc⟩ := Print.covers hcov
  have hcell : c = 80 * y + i := by
    rw [cellAdr] at hc
    omega
  rcases h p hp with hoff | hoff <;> omega

/-- **A row shows its message**, as far as it goes. -/
theorem rowShown_showRow (hx : x ≤ 80) (htext : text.length < 1024) :
    rowShown (showRow mem y x text) y = inRow x text := by
  have hlen : (inRow x text).length = 80 := by
    rw [inRow, List.length_take]
    simp only [List.length_append, List.length_replicate]
    omega
  refine List.ext_getElem (by rw [hlen, rowShown, shown, List.length_map, List.length_range]) ?_
  intro i h1 h2
  have hi : i < 80 := hlen ▸ h2
  simp only [rowShown, shown, List.getElem_map, List.getElem_range, inRow, List.getElem_take]
  rw [showRow, snprinted_of_lt htext, cprint]
  rcases Nat.lt_or_ge i x with hlt | hge
  · -- in front of the message
    have hoff : ∀ j < text.length, cellAdr y 0 + 2 * i ≠ cellAdr y x + 2 * j := by
      intro j _
      rw [cellAdr, cellAdr]
      omega
    rw [put_of_ne hoff, cleanLine, cprint, put_cell (by decide) (by simpa using hi),
      List.getElem_append_left (by simp; omega), List.getElem_append_left (by simpa using hlt),
      List.getElem_replicate, List.getElem_replicate]
  · obtain ⟨j, rfl⟩ := Nat.exists_eq_add_of_le hge
    have hplace : cellAdr y 0 + 2 * (x + j) = cellAdr y x + 2 * j := by
      rw [cellAdr, cellAdr]
      omega
    rcases Nat.lt_or_ge j text.length with hlt | hge'
    · rw [hplace, put_cell (by decide) hlt, List.getElem_append_left (by simp; omega),
        List.getElem_append_right (by simp)]
      simp
    · -- behind it
      have hoff : ∀ j' < text.length, cellAdr y 0 + 2 * (x + j) ≠ cellAdr y x + 2 * j' := by
        intro j' hj'
        rw [hplace]
        omega
      rw [put_of_ne hoff, cleanLine, cprint, put_cell (by decide) (by simpa using hi),
        List.getElem_append_right (by simp; omega), List.getElem_replicate,
        List.getElem_replicate]

/-- A row that is not blanked **begins with its message**. -/
theorem isPrefix_rowShown_cprint : text.take 80 <+: rowShown (cprint mem y 0 text) y := by
  -- both are the beginning of a longer row
  have hrow : rowShown (cprint mem y 0 text) y =
      (shown 2 (cprint mem y 0 text) (cellAdr y 0) (max 80 text.length)).take 80 :=
    shown_take (Nat.le_max_left _ _)
  have htext : text =
      (shown 2 (cprint mem y 0 text) (cellAdr y 0) (max 80 text.length)).take text.length :=
    (shown_put (show 0 < 2 by decide)).symm.trans (shown_take (Nat.le_max_right _ _))
  have hboth : text.take 80 = (rowShown (cprint mem y 0 text) y).take text.length := by
    rw [hrow, List.take_take, Nat.min_comm, ← List.take_take, ← htext]
  rw [hboth]
  exact List.take_prefix _ _

/-- The same for a call among others, if the later ones leave the row alone. -/
theorem isPrefix_rowShown_printAll (h : ∀ p ∈ l', p.OffRow y) :
    text.take 80 <+: rowShown (printAll mem (l ++ ⟨y, 0, text⟩ :: l')) y := by
  rw [printAll_append, printAll_cons, rowShown_printAll h]
  exact isPrefix_rowShown_cprint

end rows

/-! ### Rows below each other -/

section below

variable {mem : ℕ → UInt8} {y x : ℕ} {text : List UInt8} {rows : List (ℕ × List UInt8)}

/-- The two calls for a row. -/
def rowPrints (y x : ℕ) (text : List UInt8) : List Print :=
  [⟨y, 0, List.replicate 80 0x20⟩, ⟨y, x, snprinted 1024 text⟩]

theorem showRow_eq : showRow mem y x text = printAll mem (rowPrints y x text) := rfl

theorem showSepator_eq :
    showSepator mem y = printAll mem [⟨y, 0, List.replicate 80 0x2d⟩] := by
  rw [printAll_cons, printAll_nil, showSepator]

/-- The calls for a row stay in it, if the message fits. -/
theorem mem_rowPrints {p : Print} (hfit : x + text.length ≤ 80) (hp : p ∈ rowPrints y x text) :
    80 * y ≤ p.first ∧ p.behind ≤ 80 * (y + 1) := by
  have htext : snprinted 1024 text = text := snprinted_of_lt (by omega)
  simp only [rowPrints, List.mem_cons, List.not_mem_nil, or_false, htext] at hp
  rcases hp with rfl | rfl
  · simp only [Print.behind, Print.first, List.length_replicate]
    omega
  · simp only [Print.behind, Print.first]
    omega

/-- Messages with their columns, from row `y` on. -/
def showRows : ℕ → List (ℕ × List UInt8) → (ℕ → UInt8) → ℕ → UInt8
  | _, [], mem => mem
  | y, r :: rows, mem => showRows (y + 1) rows (showRow mem y r.1 r.2)

/-- The calls for them. -/
def rowsPrints : ℕ → List (ℕ × List UInt8) → List Print
  | _, [] => []
  | y, r :: rows => rowPrints y r.1 r.2 ++ rowsPrints (y + 1) rows

theorem showRows_eq : showRows y rows mem = printAll mem (rowsPrints y rows) := by
  induction rows generalizing y mem with
  | nil => rfl
  | cons r rows ih => rw [showRows, rowsPrints, printAll_append, ih, showRow_eq]

theorem mem_rowsPrints {p : Print} (hfit : ∀ r ∈ rows, r.1 + r.2.length ≤ 80)
    (hp : p ∈ rowsPrints y rows) : 80 * y ≤ p.first ∧ p.behind ≤ 80 * (y + rows.length) := by
  induction rows generalizing y with
  | nil => exact absurd hp List.not_mem_nil
  | cons r rows ih =>
    rw [rowsPrints, List.mem_append] at hp
    rw [List.length_cons]
    rcases hp with hp | hp
    · have h := mem_rowPrints (hfit r List.mem_cons_self) hp
      omega
    · have h := ih (fun r hr ↦ hfit r (List.mem_cons_of_mem _ hr)) hp
      omega

/-- **Each row shows its message**: blanking and drawing a row leaves those above and below. -/
theorem rowShown_showRows (hfit : ∀ r ∈ rows, r.1 + r.2.length ≤ 80) {k : ℕ}
    (hk : k < rows.length) :
    rowShown (showRows y rows mem) (y + k) = inRow rows[k].1 rows[k].2 := by
  induction rows generalizing y mem k with
  | nil => exact absurd hk (Nat.not_lt_zero k)
  | cons r rows ih =>
    have hrest : ∀ r ∈ rows, r.1 + r.2.length ≤ 80 := fun r hr ↦ hfit r (List.mem_cons_of_mem _ hr)
    cases k with
    | zero =>
      have hr := hfit r List.mem_cons_self
      rw [showRows, showRows_eq]
      show rowShown _ y = _
      rw [rowShown_printAll fun p hp ↦ Or.inr (mem_rowsPrints hrest hp).1]
      exact rowShown_showRow (by omega) (by omega)
    | succ k =>
      rw [showRows, show y + (k + 1) = y + 1 + k by omega]
      exact ih hrest (Nat.lt_of_succ_lt_succ hk)

end below

end Dwipe

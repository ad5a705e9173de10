import Dwipe.Results.CommandLine
import Dwipe.Results.Media

/-!
# From the command line to the drives

The two halves of `do_main` put together: `parse_cmdline`, and the run with the options it left.
Two results on `program`, the whole of it.

* For a line of tokens `k` and `k=v` with distinct keys, every drive the run lists and wipes through
  the extensions is left as `finalContents` says of the options **the user wrote**
  (`program_contents`): as it was in test mode or when the scan finds the label given by `skip`, and
  zeros otherwise. What the user wrote is `requested`, read off the tokens without a table, a
  pointer or a default being overwritten.
* For a line with any bytes at all, as long as the table of 64 slots holds its tokens, **one token
  whose slot gets the key `test` is enough for a run without a write**
  (`program_test_writes_nothing`), wherever it stands and whatever else is on the line.

The first one is about the drives that `Wipeable` describes: 512-byte sectors, fewer than `2 ^ 55`
of them, reached through the extensions, in mode FAST or DOD and without `mbr` or `force_chs`; and
it supposes that `malloc` succeeds. The second one needs nothing of the drives and of the BIOS but
that errors are reported. It speaks of the slot because a token may have more than two parts:
`test=1` counts, and `test=1=x`, whose slot ends up with the key `x`, does not.
-/

namespace Dwipe

variable {σ : Type} {env : Env σ}

/-! ### What the user wrote -/

section requested

variable (toks : List OptToken) (key : List UInt8)

/-- A token has the key, whatever its value. -/
def written : Bool := toks.any fun tok ↦ tok.key.bytes = key

/-- The value of the first token with the key. -/
def valueOf : Option CString := (toks.find? fun tok ↦ tok.key.bytes = key).bind OptToken.val

/-- **The options a list of tokens stands for**, by what they say and not by how they are parsed. -/
def requested : Options where
  skip := (valueOf toks (ascii "skip")).getD setDefaultOpt.skip
  test := written toks (ascii "test")
  debug := ((valueOf toks (ascii "debug")).map debugLevel).getD 0
  check := written toks (ascii "check")
  forceChs := written toks (ascii "force_chs")
  mbr := written toks (ascii "mbr")
  mode := ((valueOf toks (ascii "mode")).map wipeMode).getD .fast

variable {toks key}

theorem written_of_valueOf {v : CString} (h : valueOf toks key = some v) :
    written toks key = true := by
  obtain ⟨tok, hfind, -⟩ := Option.bind_eq_some_iff.1 h
  rw [written, List.any_eq_true]
  have hkey := List.find?_some hfind
  exact ⟨tok, List.mem_of_find?_eq_some hfind, hkey⟩

theorem isCmdExist_slots (atNull : List UInt8) :
    isCmdExist atNull (toks.map OptToken.slot) key = written toks key := by
  rw [isCmdExist, List.any_map]
  rfl

theorem getCmdItem_slots (atNull : List UInt8) :
    getCmdItem atNull (toks.map OptToken.slot) key = valueOf toks key := by
  rw [getCmdItem, List.find?_map, valueOf]
  show ((toks.find? fun tok ↦ tok.key.bytes = key).map OptToken.slot).bind Slot.val = _
  cases toks.find? fun tok ↦ tok.key.bytes = key <;> rfl

/-- A flag is raised if its key is there. -/
def flagged (b : Bool) (raise : Options → Options) (o : Options) : Options :=
  if b then raise o else o

/-- A value is stored if its key is there and has one. -/
def valued (b : Bool) (v : Option CString) (store : CString → Options → Options) (o : Options) :
    Options :=
  match b, v with
  | true, some val => store val o
  | _, _ => o

/-- `tableOptions` as a chain of its seven steps, of which each is a lookup and one field. -/
theorem tableOptions_eq (atNull : List UInt8) (table : List (Slot CString)) :
    tableOptions atNull table =
      valued (isCmdExist atNull table (ascii "skip")) (getCmdItem atNull table (ascii "skip"))
        (fun v o ↦ { o with skip := v })
      (valued (isCmdExist atNull table (ascii "mode")) (getCmdItem atNull table (ascii "mode"))
        (fun v o ↦ { o with mode := wipeMode v })
      (valued (isCmdExist atNull table (ascii "debug")) (getCmdItem atNull table (ascii "debug"))
        (fun v o ↦ { o with debug := debugLevel v })
      (flagged (isCmdExist atNull table (ascii "mbr")) (fun o ↦ { o with mbr := true })
      (flagged (isCmdExist atNull table (ascii "force_chs")) (fun o ↦ { o with forceChs := true })
      (flagged (isCmdExist atNull table (ascii "check")) (fun o ↦ { o with check := true })
      (flagged (isCmdExist atNull table (ascii "test")) (fun o ↦ { o with test := true })
        setDefaultOpt)))))) := rfl

/-- A value is looked for behind the test whether there is a token, and that test adds nothing. -/
theorem valued_written (store : CString → Options → Options) (o : Options) :
    valued (written toks key) (valueOf toks key) store o =
      ((valueOf toks key).map fun v ↦ store v o).getD o := by
  cases hval : valueOf toks key with
  | none => cases written toks key <;> rfl
  | some v => rw [written_of_valueOf hval]; rfl

/-- The steps that raise the flags do not see each other. -/
theorem flagged_all (test check chs mbr : Bool) :
    flagged mbr (fun o ↦ { o with mbr := true })
      (flagged chs (fun o ↦ { o with forceChs := true })
      (flagged check (fun o ↦ { o with check := true })
      (flagged test (fun o ↦ { o with test := true }) setDefaultOpt))) =
      { setDefaultOpt with test := test, check := check, forceChs := chs, mbr := mbr } := by
  cases test <;> cases check <;> cases chs <;> cases mbr <;> rfl

/-- **The table of the tokens gives the options they stand for.** -/
theorem tableOptions_slots (atNull : List UInt8) (toks : List OptToken) :
    tableOptions atNull (toks.map OptToken.slot) = requested toks := by
  simp only [tableOptions_eq, isCmdExist_slots, getCmdItem_slots, valued_written, flagged_all,
    requested]
  cases valueOf toks (ascii "debug") <;> cases valueOf toks (ascii "mode") <;>
    cases valueOf toks (ascii "skip") <;> rfl

end requested

/-! ### The whole program -/

/-- `do_main` with the options that `parse_cmdline` left; `none` only if the fuel `n` of the parser
is spent. -/
def program (env : Env σ) (n : ℕ) (atNull : List UInt8) (behind : ℕ → Slot ℕ) (s : CString)
    (uninit : Extensions) (m : Machine σ) : Option (Traced (Machine σ) Event Unit) :=
  (parseCmdline n atNull behind s).map fun opt ↦ doMain env opt uninit m

theorem LineOf.program_eq {toks : List OptToken} {s : CString} (h : LineOf toks s) {n : ℕ}
    (hn : 1024 < n) (env : Env σ) (atNull : List UInt8) (behind : ℕ → Slot ℕ)
    (uninit : Extensions) (m : Machine σ) :
    program env n atNull behind s uninit m = some (doMain env (requested toks) uninit m) := by
  rw [program, h.parseCmdline_eq hn atNull behind, tableOptions_slots, Option.map_some]

/-! ### What the drives hold at the end -/

/-- **Some token's slot gets the key `test`**: of the parts of the token, those between its `=`, the
last one at the places 1, 3, 5 and so on is `test`. For a token with at most two parts this is the
first one. -/
def TestTaken (s : CString) : Prop :=
  ∃ t ∈ lineTokens s, (everyOther (tokens isEq t)).getLast? = some (ascii "test")

/-- A key in a slot is found, in whatever slot it is. -/
theorem isCmdExist_of_mem {atNull : List UInt8} {table : List (Slot CString)}
    {slots : List (Slot (List UInt8))} (htable : table.map (Slot.map CString.bytes) = slots)
    {slot : Slot (List UInt8)} (hmem : slot ∈ slots) {key : List UInt8}
    (hkey : slot.key = some key) : isCmdExist atNull table key = true := by
  rw [← htable] at hmem
  obtain ⟨slot', hslot', rfl⟩ := List.mem_map.1 hmem
  rw [isCmdExist, List.any_eq_true]
  refine ⟨slot', hslot', decide_eq_true ?_⟩
  have hbytes : slot'.key.map CString.bytes = some key := hkey
  rw [hbytes, Option.getD_some]

theorem tableOptions_test (atNull : List UInt8) (table : List (Slot CString)) :
    (tableOptions atNull table).test = isCmdExist atNull table (ascii "test") := by
  have hvalued (b : Bool) (v : Option CString) (store : CString → Options → Options) (o : Options)
      (h : ∀ v, (store v o).test = o.test) : (valued b v store o).test = o.test := by
    cases b <;> cases v <;> simp [valued, h]
  rw [tableOptions_eq, flagged_all, hvalued _ _ _ _ fun _ ↦ rfl, hvalued _ _ _ _ fun _ ↦ rfl,
    hvalued _ _ _ _ fun _ ↦ rfl]

theorem TestTaken.program_eq {s : CString} (h : TestTaken s)
    (hs : (lineTokens s).length ≤ maxCmdlineSlot) {n : ℕ} (hn : 1024 < n) (env : Env σ)
    (atNull : List UInt8) (behind : ℕ → Slot ℕ) (uninit : Extensions) (m : Machine σ) :
    ∃ opt : Options, opt.test = true ∧
      program env n atNull behind s uninit m = some (doMain env opt uninit m) := by
  obtain ⟨st, hrun, htokenised⟩ := parseTable_spec hn behind s
  obtain ⟨-, htable⟩ := htokenised.table_eq hs
  obtain ⟨t, ht, hkey⟩ := h
  refine ⟨tableOptions atNull st.table, ?_, by rw [program, parseCmdline, hrun]; rfl⟩
  rw [tableOptions_test]
  exact isCmdExist_of_mem htable (List.mem_map_of_mem ht) (by rw [slotOf_eq, hkey])

/-- In test mode the rounds of the wipe loop write nothing. -/
theorem wipeFirst_not_isWrite (env : Env σ) {opt : Options} (htest : opt.test = true) (N : ℕ)
    (m : Machine σ) : ∀ x ∈ exchanges (wipeFirst env opt N m).events, ¬x.IsWrite := by
  refine TraceM.forRange_invariant
    (fun _ _ (_ : Machine σ) l ↦ ∀ x ∈ exchanges l, ¬x.IsWrite)
    (fun x hx ↦ absurd hx List.not_mem_nil) ?_
  rintro k - m' l - hl x hx hwrite
  rw [exchanges_append, run_wipeListed k rfl, exchanges_append, List.mem_append,
    List.mem_append] at hx
  rcases hx with hx | hx | hx
  · exact hl x hx hwrite
  · have hoff := (wipeDisk_write hx hwrite).1
    rw [htest] at hoff
    exact Bool.false_ne_true hoff.symm
  · exact absurd hx List.not_mem_nil

/-- In test mode no exchange of a whole run is a write. -/
theorem doMain_not_isWrite (hrep : env.ReportsErrors) {opt : Options} (htest : opt.test = true)
    (uninit : Extensions) (m : Machine σ) :
    ∀ x ∈ exchanges (doMain env opt uninit m).events, ¬x.IsWrite := by
  obtain ⟨ps, -, henum⟩ := enumDisk_enumerated hrep uninit (fun _ _ _ ↦ True) trivial
    (fun _ _ _ _ _ _ ↦ trivial) (seeded env m)
  rw [run_doMain uninit m rfl]
  intro x hx hwrite
  rw [exchanges_append, List.mem_append] at hx
  rcases hx with hx | hx
  · have hah := henum.asks x hx
    rcases hwrite with h03 | h43
    · rw [h03] at hah
      exact absurd hah (by decide)
    · rw [h43] at hah
      exact absurd hah (by decide)
  · exact wipeFirst_not_isWrite env htest _ _ x hx hwrite

/-- What only writes can change is as it was before a path without writes. -/
theorem Path.unchanged {α : Type} {view : σ → α}
    (hview : ∀ b q, q.reg.ah ≠ 0x03 → q.reg.ah ≠ 0x43 → view (env.int13 b q).bios = view b)
    {b b' : σ} {xs : List Exchange} (hpath : Path env b xs b') (hxs : ∀ x ∈ xs, ¬x.IsWrite) :
    view b' = view b := by
  induction xs generalizing b with
  | nil =>
    obtain rfl : b = b' := hpath
    rfl
  | cons x xs ih =>
    obtain ⟨-, -, hrest⟩ := hpath
    obtain ⟨h03, h43⟩ := not_isWrite_iff.1 (hxs x List.mem_cons_self)
    rw [ih hrest fun y hy ↦ hxs y (List.mem_cons_of_mem _ hy)]
    exact hview b _ h03 h43

/-- **The word `test` makes a run harmless.** For every command line of at most 64 tokens, one of
whose slots gets the key `test`: the program runs to its end, none of its exchanges is a write, and
whatever part of the machine only writes can change is as it was. -/
theorem program_test_writes_nothing (env : Env σ) (hrep : env.ReportsErrors) (n : ℕ)
    (hn : 1024 < n) (atNull : List UInt8) (behind : ℕ → Slot ℕ) (s : CString)
    (hs : (lineTokens s).length ≤ 64) (htest : TestTaken s) (uninit : Extensions) (m : Machine σ) :
    ∃ t, program env n atNull behind s uninit m = some t ∧
      (∀ x ∈ exchanges t.events, ¬x.IsWrite) ∧
      ∀ (α : Type) (view : σ → α),
        (∀ b q, q.reg.ah ≠ 0x03 → q.reg.ah ≠ 0x43 → view (env.int13 b q).bios = view b) →
          view t.state.bios = view m.bios := by
  obtain ⟨opt, hopt, hrun⟩ := htest.program_eq hs hn env atNull behind uninit m
  have hnone := doMain_not_isWrite hrep hopt uninit m
  exact ⟨_, hrun, hnone, fun α view hview ↦
    Path.unchanged hview (doMain_path env opt uninit m) hnone⟩

/-- `"mode=ocd,,mbr =x== test"`. -/
def buriedTest : CString := ⟨ascii "mode=ocd,,mbr =x== test", by decide⟩

/-- Behind other options, and behind a token that is none, the word `test` keeps two drives as they
are. -/
theorem program_test_writes_nothing_buried :
    ∃ t, program rack 1025 [] (fun _ ↦ .empty) buriedTest ⟨0, 0⟩
        (Machine.fresh (fun _ _ _ ↦ 0xAA) 1) = some t ∧
      t.state.bios = fun _ _ _ ↦ 0xAA := by
  obtain ⟨t, ht, -, hview⟩ := program_test_writes_nothing rack reportsErrors_rack 1025 (by decide)
    [] (fun _ ↦ .empty) buriedTest (by decide +kernel)
    ⟨ascii "test", by decide +kernel, by decide +kernel⟩ ⟨0, 0⟩
    (Machine.fresh (fun _ _ _ ↦ 0xAA) 1)
  refine ⟨t, ht, hview _ id fun d q h03 h43 ↦ ?_⟩
  simp only [rack, Env.ofBios, h43, if_false, id_eq]
  split_ifs
  · cases sought (entry pair 0x80) q <;> rfl
  · rfl

end Dwipe

import Dwipe.CommandLine.Parse

/-!
# The options of the command line

The second half of `parse_cmdline`: the lookups `is_cmd_exist` and `get_cmd_item` in the table of
slots, and the seven options they decide. newlib's `atoi` and `stricmp` are written out as far as
they are used.

The lookups compare the slots' keys one after the other, and they do so **through the pointers**: a
null key is compared as the bytes that happen to lie at address 0 (`atNull`).
-/

namespace Dwipe

/-! ### Strings of the library -/

/-- The bytes of a text in the program. All of them are ASCII, so a character is a byte. -/
def ascii (s : String) : List UInt8 := s.toList.map fun c ↦ UInt8.ofNat c.toNat

/-- `isspace`: what `atoi` skips in front of a number. -/
def isspace (c : UInt8) : Bool := c = 0x20 || (0x09 ≤ c && c ≤ 0x0d)

/-- `isdigit`. -/
def isdigit (c : UInt8) : Bool := 0x30 ≤ c && c ≤ 0x39

/-- `tolower`, byte by byte; what is no capital letter is left as it is. -/
def tolower (c : UInt8) : UInt8 := if 0x41 ≤ c && c ≤ 0x5a then c + 0x20 else c

/-- The value of the leading decimal digits, before it is brought into the range of a `long`. -/
def digitsValue (s : List UInt8) : ℕ :=
  (s.takeWhile isdigit).foldl (fun acc c ↦ acc * 10 + (c.toNat - 0x30)) 0

/-- `atoi`, which is `strtol` with base 10: spaces, a sign, digits; a value out of range becomes
`LONG_MAX` or `LONG_MIN`. -/
def atoi (s : List UInt8) : ℤ :=
  match s.dropWhile isspace with
  | 0x2d :: s => -(min (digitsValue s) (2 ^ 31) : ℕ)
  | 0x2b :: s => (min (digitsValue s) (2 ^ 31 - 1) : ℕ)
  | s => (min (digitsValue s) (2 ^ 31 - 1) : ℕ)

/-- `stricmp(s1, s2) == 0`: the values of `mode` are compared without regard to case, unlike all
keys. -/
def stricmpEq (s1 s2 : List UInt8) : Bool := s1.map tolower = s2.map tolower

/-! ### The lookups -/

/-- The string at a pointer, as a value without a NUL. -/
def cStringAt (mem : List UInt8) (p : ℕ) : CString :=
  ⟨stringAt mem p, fun h ↦ by simpa using List.mem_takeWhile_imp h⟩

/-- What the pointers of a slot read as, at the time of the lookup: the tokeniser may have stored a
NUL behind them since. -/
def Slot.read (mem : List UInt8) (slot : Slot ℕ) : Slot CString :=
  ⟨slot.key.map (cStringAt mem), slot.val.map (cStringAt mem)⟩

/-- The slots below `cmd_slot_cnt`, as the lookups see them. -/
def CmdState.table (st : CmdState) : List (Slot CString) :=
  (List.range st.index).map fun i ↦ (st.slots i).read st.line

section lookup

variable (atNull : List UInt8)

/-- `!strcmp(cmd_slot[i].key, key)`. A token of `=` alone leaves its key null, and what is compared
is then what lies at address 0. -/
def Slot.keyIs (key : List UInt8) (slot : Slot CString) : Bool :=
  (slot.key.map CString.bytes).getD atNull = key

/-- `is_cmd_exist`: whether any slot has the key. A flag such as `test` is on if so, whatever value
its slot has. -/
def isCmdExist (table : List (Slot CString)) (key : List UInt8) : Bool :=
  table.any (Slot.keyIs atNull key)

/-- `get_cmd_item`: the value in the **first** slot with the key, so that of an option given twice
the first one counts, and none if that slot has no value. -/
def getCmdItem (table : List (Slot CString)) (key : List UInt8) : Option CString :=
  (table.find? (Slot.keyIs atNull key)).bind Slot.val

/-- The slots either lookup reads: up to the first one with the key. -/
def slotsRead (table : List (Slot CString)) (key : List UInt8) : List ℕ :=
  List.range (min (table.findIdx (Slot.keyIs atNull key) + 1) table.length)

end lookup

/-! ### The options -/

/-- `set_default_opt`. The label to skip is `NIMIME` here, while the manual says `MINIME`. -/
def setDefaultOpt : Options where
  skip := ⟨ascii "NIMIME", by decide⟩
  test := false
  debug := 0
  check := false
  forceChs := false
  mbr := false
  mode := .fast

/-- The value of `debug`, clamped to the four bits of the log levels. -/
def debugLevel (s : CString) : ℤ := if atoi s.bytes < 0 then 0 else min (atoi s.bytes) 0xf

/-- The value of `mode`. Whatever is neither `FAST` nor `DOD` selects the four-pass mode. -/
def wipeMode (s : CString) : WipeMode :=
  if stricmpEq s.bytes (ascii "FAST") then .fast
  else if stricmpEq s.bytes (ascii "DOD") then .dod
  else .ocd

/-- The options from the table on: seven lookups, each of a key of its own, so that no slot decides
two options. An option that takes a value keeps its default if its slot has none. -/
def tableOptions (atNull : List UInt8) (table : List (Slot CString)) : Options :=
  let isCmdExist := isCmdExist atNull table
  let getCmdItem := getCmdItem atNull table
  let opt := setDefaultOpt
  let opt := if isCmdExist (ascii "test") then { opt with test := true } else opt
  let opt := if isCmdExist (ascii "check") then { opt with check := true } else opt
  let opt := if isCmdExist (ascii "force_chs") then { opt with forceChs := true } else opt
  let opt := if isCmdExist (ascii "mbr") then { opt with mbr := true } else opt
  let opt :=
    match isCmdExist (ascii "debug"), getCmdItem (ascii "debug") with
    | true, some val => { opt with debug := debugLevel val }
    | _, _ => opt
  let opt :=
    match isCmdExist (ascii "mode"), getCmdItem (ascii "mode") with
    | true, some val => { opt with mode := wipeMode val }
    | _, _ => opt
  match isCmdExist (ascii "skip"), getCmdItem (ascii "skip") with
  | true, some val => { opt with skip := val }
  | _, _ => opt

/-- `parse_cmdline`: the value of `opt` after it. There is none if the tokeniser has not come to its
end after `n` rounds. -/
def parseCmdline (n : ℕ) (atNull : List UInt8) (behind : ℕ → Slot ℕ) (s : CString) :
    Option Options :=
  (parseTable n behind s).map fun st ↦ tableOptions atNull st.table

/-! ### The table as strings -/

/-- The same slot with other contents, for reading the pointers of a slot as strings. -/
def Slot.map {α β : Type} (f : α → β) (slot : Slot α) : Slot β :=
  ⟨slot.key.map f, slot.val.map f⟩

theorem PtrReads.map_eq {mem : List UInt8} {hi : ℕ} {p : Option ℕ} {w : Option (List UInt8)}
    (h : PtrReads mem hi p w) : (p.map (cStringAt mem)).map CString.bytes = w := by
  cases h with
  | none => rfl
  | some h => exact congrArg some h.1.stringAt_eq

/-- Pointers that read as strings are read as these strings. -/
theorem SlotReads.map_read {mem : List UInt8} {hi : ℕ} {slot : Slot ℕ} {w : Slot (List UInt8)}
    (h : SlotReads mem hi slot w) : (slot.read mem).map CString.bytes = w := by
  rcases w with ⟨k, v⟩
  exact (Slot.mk.injEq ..).mpr ⟨h.key.map_eq, h.val.map_eq⟩

theorem length_table (st : CmdState) : st.table.length = st.index := by
  rw [CmdState.table, List.length_map, List.length_range]

/-- **The table of a line with at most 64 tokens** is the slots of its tokens. -/
theorem Tokenised.table_eq {all : List (List UInt8)} {st : CmdState} (h : Tokenised all st)
    (hall : all.length ≤ maxCmdlineSlot) :
    st.index = all.length ∧ st.table.map (Slot.map CString.bytes) = all.map slotOf := by
  have hcount := h.count
  have hindex : st.index = all.length := by omega
  refine ⟨hindex, List.ext_getElem? fun i ↦ ?_⟩
  rcases Nat.lt_or_ge i all.length with hi | hi
  · obtain ⟨hi', hreads⟩ := h.slots i all[i] (by omega) (List.getElem?_eq_getElem hi)
    have hslot := hreads.map_read
    rw [List.getElem?_map, List.getElem?_map, CmdState.table, List.getElem?_map,
      List.getElem?_range (by omega), List.getElem?_eq_getElem hi]
    exact congrArg some hslot
  · rw [List.getElem?_eq_none (by rw [List.length_map, length_table]; omega),
      List.getElem?_eq_none (by rw [List.length_map]; omega)]

end Dwipe

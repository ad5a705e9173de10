import Dwipe.CommandLine.Options
import Mathlib.Data.List.Perm.Basic
import Mathlib.Data.List.Nodup

/-!
# What the command line is turned into

Three results on `parse_cmdline`, for every command line.

* The table `cmd_slot` is overrun **exactly by the lines with more than 64 tokens**
  (`table_kept_iff`): the limit is tested after the slot has been filled and the index has been
  raised.
* A slot describes its token, the first part as the key and the second as the value, **exactly if
  the toggling does no harm** (`slots_describe_iff`): with one or two parts it does not, with none
  the key is a null pointer, and with more the last ones win.
* For tokens `k` and `k=v` with distinct keys the order and the separators do not matter, nor do
  tokens that are no options (`option_order_irrelevant`).
-/

namespace Dwipe

/-! ### The bounds of the table -/

/-- **The table is not overrun**: only its 64 slots are stored to, counted and looked at. -/
def TableKept (n : ℕ) (behind : ℕ → Slot ℕ) (s : CString) : Prop :=
  ∃ st, parseTable n behind s = some st ∧ (∀ k ∈ st.stores, k < maxCmdlineSlot) ∧
    st.index ≤ maxCmdlineSlot ∧
    ∀ atNull key, ∀ i ∈ slotsRead atNull st.table key, i < maxCmdlineSlot

theorem tableKept_iff {n : ℕ} (hn : 1024 < n) (behind : ℕ → Slot ℕ) (s : CString) :
    TableKept n behind s ↔ (lineTokens s).length ≤ maxCmdlineSlot := by
  obtain ⟨st, hrun, htokenised⟩ := parseTable_spec hn behind s
  have hcount := htokenised.count
  constructor
  · rintro ⟨st', hrun', -, hindex, -⟩
    obtain rfl : st = st' := Option.some.inj (hrun.symm.trans hrun')
    omega
  · intro hlen
    refine ⟨st, hrun, fun k hk ↦ ?_, by omega, fun atNull key i hi ↦ ?_⟩
    · have hlt := htokenised.stores k hk
      omega
    · rw [slotsRead, List.mem_range, length_table] at hi
      omega

/-- **The command-line table is kept** exactly for the lines with at most 64 tokens. -/
theorem table_kept_iff (n : ℕ) (hn : 1024 < n) (behind : ℕ → Slot ℕ) (s : CString) :
    TableKept n behind s ↔ (tokens isSep (s.bytes.take 1023)).length ≤ 64 :=
  tableKept_iff hn behind s

/-- A line of `k` tokens `a`, the shortest there is with so many. -/
def manyTokens (k : ℕ) : CString :=
  ⟨(List.replicate k [0x61, 0x20]).flatten, by
    intro h
    obtain ⟨l, hl, h0⟩ := List.mem_flatten.1 h
    rw [List.eq_of_mem_replicate hl] at h0
    exact absurd h0 (by decide)⟩

/-- Sixty-four tokens fill the table, and are all kept in it. -/
theorem table_kept_at : TableKept 1025 (fun _ ↦ .empty) (manyTokens 64) :=
  (table_kept_iff 1025 (by decide) (fun _ ↦ .empty) (manyTokens 64)).2 (by decide +kernel)

/-- **Sixty-five tokens overrun the table**: `cmd_slot[64]` is stored to, and the count is 65. -/
theorem table_overrun :
    (parseTable 1025 (fun _ ↦ .empty) (manyTokens 65)).map
        (fun st ↦ (st.index, st.stores.getLast?)) = some (65, some 64) ∧
      ¬TableKept 1025 (fun _ ↦ .empty) (manyTokens 65) := by
  refine ⟨by decide +kernel, ?_⟩
  rw [tableKept_iff (by decide)]
  decide +kernel

/-! ### The slots and their tokens -/

/-- The parts at the places 0, 2, 4 and so on. -/
def everyOther {α : Type} : List α → List α
  | [] => []
  | [a] => [a]
  | a :: _ :: l => a :: everyOther l

theorem everyOther_cons {α : Type} (a : α) (l : List α) :
    everyOther (a :: l) = a :: everyOther l.tail := by
  cases l <;> rfl

theorem getLast?_everyOther_cons {α : Type} (a : α) (l : List α) (o : Option α) :
    (everyOther (a :: l)).getLast?.or o = (everyOther l.tail).getLast?.or (some a) := by
  rw [everyOther_cons, List.getLast?_cons]
  cases (everyOther l.tail).getLast? <;> rfl

/-- **The toggling, in closed form**: the field that is next gets the last part at an even place,
the other one the last part at an odd place. -/
theorem fillAll_eq {α : Type} (parts : List α) :
    ∀ slot : Slot α,
      slot.fillAll false parts = ⟨(everyOther parts).getLast?.or slot.key,
          (everyOther parts.tail).getLast?.or slot.val⟩ ∧
        slot.fillAll true parts = ⟨(everyOther parts.tail).getLast?.or slot.key,
          (everyOther parts).getLast?.or slot.val⟩ := by
  induction parts with
  | nil =>
    intro slot
    exact ⟨rfl, rfl⟩
  | cons a parts ih =>
    intro slot
    obtain ⟨-, hkey⟩ := ih (slot.fill false a)
    obtain ⟨hval, -⟩ := ih (slot.fill true a)
    rw [getLast?_everyOther_cons, getLast?_everyOther_cons]
    exact ⟨hkey, hval⟩

theorem slotOf_eq (t : List UInt8) :
    slotOf t =
      ⟨(everyOther (tokens isEq t)).getLast?, (everyOther (tokens isEq t).tail).getLast?⟩ := by
  rw [slotOf, (fillAll_eq _ _).1, Slot.empty, Option.or_none, Option.or_none]

/-- **A slot describes a token**: its key is the first part, and its value the second one, if there
is one. -/
def Slot.Describes (slot : Slot (List UInt8)) (t : List UInt8) : Prop :=
  slot.key.isSome ∧ slot.key = (tokens isEq t)[0]? ∧ slot.val = (tokens isEq t)[1]?

/-- **The slots describe the tokens** of a command line. -/
def SlotsDescribe (n : ℕ) (behind : ℕ → Slot ℕ) (s : CString) : Prop :=
  ∃ st, parseTable n behind s = some st ∧ st.index = (lineTokens s).length ∧
    ∀ i t, (lineTokens s)[i]? = some t →
      (((st.slots i).read st.line).map CString.bytes).Describes t

/-- **The toggling does no harm** to a token: it has a part, the last of its parts at the places 1,
3, 5 and so on is its first part again, and the last at the places 2, 4, 6 its second one. -/
structure Settled (t : List UInt8) : Prop where
  some : tokens isEq t ≠ []
  key : (everyOther (tokens isEq t)).getLast? = (tokens isEq t)[0]?
  val : (everyOther (tokens isEq t).tail).getLast? = (tokens isEq t)[1]?

theorem slotOf_describes_iff {t : List UInt8} : (slotOf t).Describes t ↔ Settled t := by
  rw [Slot.Describes, slotOf_eq]
  constructor
  · rintro ⟨hsome, hkey, hval⟩
    refine ⟨fun hnil ↦ ?_, hkey, hval⟩
    rw [hnil] at hsome
    exact absurd hsome (by decide)
  · rintro ⟨hsome, hkey, hval⟩
    refine ⟨?_, hkey, hval⟩
    obtain ⟨a, l, hcons⟩ := List.exists_cons_of_ne_nil hsome
    rw [hkey, hcons]
    rfl

theorem settled_of_length {t : List UInt8} (hpos : 0 < (tokens isEq t).length)
    (hle : (tokens isEq t).length ≤ 2) : Settled t := by
  match hparts : tokens isEq t with
  | [] => rw [hparts] at hpos; exact absurd hpos (by decide)
  | [a] => exact ⟨by simp [hparts], by rw [hparts]; rfl, by rw [hparts]; rfl⟩
  | [a, b] => exact ⟨by simp [hparts], by rw [hparts]; rfl, by rw [hparts]; rfl⟩
  | a :: b :: c :: l =>
    rw [hparts, List.length_cons, List.length_cons, List.length_cons] at hle
    omega

theorem slotsDescribe_iff {n : ℕ} (hn : 1024 < n) (behind : ℕ → Slot ℕ) {s : CString}
    (hs : (lineTokens s).length ≤ maxCmdlineSlot) :
    SlotsDescribe n behind s ↔ ∀ t ∈ lineTokens s, Settled t := by
  obtain ⟨st, hrun, htokenised⟩ := parseTable_spec hn behind s
  obtain ⟨hindex, -⟩ := htokenised.table_eq hs
  have hslot (i : ℕ) (t : List UInt8) (ht : (lineTokens s)[i]? = some t) :
      ((st.slots i).read st.line).map CString.bytes = slotOf t := by
    have hi := (List.getElem?_eq_some_iff.1 ht).1
    obtain ⟨_, hreads⟩ := htokenised.slots i t (by omega) ht
    exact hreads.map_read
  constructor
  · rintro ⟨st', hrun', -, hdesc⟩ t ht
    obtain rfl : st = st' := Option.some.inj (hrun.symm.trans hrun')
    obtain ⟨i, hi⟩ := List.mem_iff_getElem?.1 ht
    have ht' := hdesc i t hi
    rw [hslot i t hi] at ht'
    exact slotOf_describes_iff.1 ht'
  · intro hall
    refine ⟨st, hrun, hindex, fun i t ht ↦ ?_⟩
    rw [hslot i t ht]
    exact slotOf_describes_iff.2 (hall t (List.mem_of_getElem? ht))

/-- **Token parsing.** For every command line with at most 64 tokens, slot `i` describes token `i`
for each `i` exactly if the toggling does no harm to any token. -/
theorem slots_describe_iff (n : ℕ) (hn : 1024 < n) (behind : ℕ → Slot ℕ) (s : CString)
    (hs : (tokens isSep (s.bytes.take 1023)).length ≤ 64) :
    SlotsDescribe n behind s ↔ ∀ t ∈ tokens isSep (s.bytes.take 1023), Settled t :=
  slotsDescribe_iff hn behind hs

/-- `"a=b"`. -/
def twoParts : CString := ⟨[0x61, 0x3d, 0x62], by decide⟩

/-- `"a=b=c"`. -/
def threeParts : CString := ⟨[0x61, 0x3d, 0x62, 0x3d, 0x63], by decide⟩

/-- `"="`. -/
def noParts : CString := ⟨[0x3d], by decide⟩

/-- A key with a value. -/
theorem slots_describe_at : SlotsDescribe 1025 (fun _ ↦ .empty) twoParts := by
  refine (slots_describe_iff 1025 (by decide) (fun _ ↦ .empty) twoParts (by decide)).2 fun t ht ↦ ?_
  obtain rfl : t = twoParts.bytes := List.mem_singleton.1 ht
  exact settled_of_length (by decide) (by decide)

/-- **A third part becomes the key, and a lone `=` gives a null key.** -/
theorem slots_not_described :
    (parseTable 1025 (fun _ ↦ .empty) threeParts).map
        (fun st ↦ ((st.slots 0).read st.line).map CString.bytes) =
        some ⟨some [0x63], some [0x62]⟩ ∧
      (parseTable 1025 (fun _ ↦ .empty) noParts).map (fun st ↦ (st.index, st.slots 0)) =
        some (1, ⟨none, none⟩) ∧
      ¬SlotsDescribe 1025 (fun _ ↦ .empty) threeParts ∧
      ¬SlotsDescribe 1025 (fun _ ↦ .empty) noParts := by
  refine ⟨by decide +kernel, by decide +kernel, fun h ↦ ?_, fun h ↦ ?_⟩
  · have hsettled := (slotsDescribe_iff (by decide) _ (by decide)).1 h threeParts.bytes (by decide)
    exact absurd hsettled.key (by decide)
  · have hsettled := (slotsDescribe_iff (by decide) _ (by decide)).1 h noParts.bytes (by decide)
    exact absurd hsettled.some (by decide)

/-! ### The order of the options -/

/-- A non-empty text without separators, `=` and NUL, so that no tokeniser cuts it. -/
structure IsWord (w : List UInt8) : Prop where
  ne_nil : w ≠ []
  free : ∀ c ∈ w, isSep c = false ∧ isEq c = false

/-- **A token `k` or `k=v`**, with its words as fields, so that a token that is cut otherwise cannot
be built. -/
structure OptToken where
  key : CString
  val : Option CString
  isKey : IsWord key.bytes
  isVal : ∀ v ∈ val, IsWord v.bytes

/-- How a token is written. -/
def OptToken.text (tok : OptToken) : List UInt8 :=
  match tok.val with
  | none => tok.key.bytes
  | some v => tok.key.bytes ++ 0x3d :: v.bytes

/-- The slot of a token. -/
def OptToken.slot (tok : OptToken) : Slot CString := ⟨some tok.key, tok.val⟩

/-- The keys `parse_cmdline` looks for; every other token is ignored. -/
def knownKeys : List (List UInt8) :=
  ["test", "check", "force_chs", "mbr", "debug", "mode", "skip"].map ascii

/-- The token is an option. -/
def OptToken.known (tok : OptToken) : Bool := tok.key.bytes ∈ knownKeys

/-- **A line made of tokens**: with distinct keys, at most 64 of them, separated by non-empty runs
of separators, and not cut off by the copy. -/
structure LineOf (toks : List OptToken) (s : CString) : Prop where
  nodup : (toks.map OptToken.key).Nodup
  count : toks.length ≤ 64
  renders : Renders isSep (toks.map OptToken.text) s.bytes
  fits : s.bytes.length ≤ 1023

/-- A word is recognised by a run over its characters. -/
theorem isWord_of_all {w : List UInt8} (hw : w ≠ [])
    (h : (w.all fun c ↦ !isSep c && !isEq c) = true) : IsWord w := by
  refine ⟨hw, fun c hc ↦ ?_⟩
  have hfree := List.all_eq_true.1 h c hc
  rw [Bool.and_eq_true, Bool.not_eq_true', Bool.not_eq_true'] at hfree
  exact hfree

theorem IsWord.isToken_sep {w : List UInt8} (h : IsWord w) : IsToken isSep w :=
  ⟨h.ne_nil, fun c hc ↦ (h.free c hc).1⟩

theorem IsWord.isToken_eq {w : List UInt8} (h : IsWord w) : IsToken isEq w :=
  ⟨h.ne_nil, fun c hc ↦ (h.free c hc).2⟩

theorem OptToken.isToken_text (tok : OptToken) : IsToken isSep tok.text := by
  rcases tok with ⟨key, val, hkey, hval⟩
  cases val with
  | none => exact hkey.isToken_sep
  | some v =>
    refine ⟨List.append_ne_nil_of_left_ne_nil hkey.ne_nil _, fun c hc ↦ ?_⟩
    rcases List.mem_append.1 hc with hc | hc
    · exact (hkey.free c hc).1
    · rcases List.mem_cons.1 hc with rfl | hc
      · rfl
      · exact ((hval v rfl).free c hc).1

/-- A token is parsed as what it is written for. -/
theorem OptToken.slotOf_text (tok : OptToken) : slotOf tok.text = tok.slot.map CString.bytes := by
  rcases tok with ⟨key, val, hkey, hval⟩
  cases val with
  | none =>
    have hparts : tokens isEq key.bytes = [key.bytes] := hkey.isToken_eq.tokens_eq
    rw [OptToken.text, slotOf_eq, hparts]
    rfl
  | some v =>
    have hparts : tokens isEq (key.bytes ++ 0x3d :: v.bytes) = [key.bytes, v.bytes] := by
      rw [hkey.isToken_eq.tokens_append (by decide), (hval v rfl).isToken_eq.tokens_eq]
    rw [OptToken.text, slotOf_eq, hparts]
    rfl

theorem bytes_injective : Function.Injective CString.bytes := by
  rintro ⟨b, hb⟩ ⟨b', hb'⟩ rfl
  rfl

theorem Slot.map_bytes_injective : Function.Injective (Slot.map CString.bytes) := by
  rintro ⟨k, v⟩ ⟨k', v'⟩ h
  obtain ⟨hk, hv⟩ := (Slot.mk.injEq ..).mp h
  obtain rfl := Option.map_injective bytes_injective hk
  obtain rfl := Option.map_injective bytes_injective hv
  rfl

/-- **The table of a line made of tokens** is their slots, in order. -/
theorem LineOf.parseCmdline_eq {toks : List OptToken} {s : CString} (h : LineOf toks s) {n : ℕ}
    (hn : 1024 < n) (atNull : List UInt8) (behind : ℕ → Slot ℕ) :
    parseCmdline n atNull behind s = some (tableOptions atNull (toks.map OptToken.slot)) := by
  obtain ⟨st, hrun, htokenised⟩ := parseTable_spec hn behind s
  have htokens : lineTokens s = toks.map OptToken.text := by
    have htext : lineText s = s.bytes := List.take_of_length_le h.fits
    rw [lineTokens, htext]
    refine tokens_of_renders h.renders fun t ht ↦ ?_
    obtain ⟨tok, -, rfl⟩ := List.mem_map.1 ht
    exact tok.isToken_text
  have hcount : (lineTokens s).length ≤ maxCmdlineSlot := by
    rw [htokens, List.length_map]
    exact h.count
  obtain ⟨-, htable⟩ := htokenised.table_eq hcount
  have hslots : st.table = toks.map OptToken.slot := by
    refine (List.map_injective_iff.2 Slot.map_bytes_injective) ?_
    rw [htable, htokens, List.map_map, List.map_map]
    exact List.map_congr_left fun tok _ ↦ tok.slotOf_text
  rw [parseCmdline, hrun, Option.map_some, hslots]

/-! ### Lookups without an order -/

/-- A lookup finds a slot with the key, the first one: what both lookups depend on. -/
def foundSlot (atNull : List UInt8) (table : List (Slot CString)) (key : List UInt8) :
    Option (Slot CString) :=
  table.find? (Slot.keyIs atNull key)

theorem isCmdExist_eq (atNull : List UInt8) (table : List (Slot CString)) (key : List UInt8) :
    isCmdExist atNull table key = (foundSlot atNull table key).isSome := by
  rw [isCmdExist, foundSlot, List.isSome_find?]

theorem getCmdItem_eq (atNull : List UInt8) (table : List (Slot CString)) (key : List UInt8) :
    getCmdItem atNull table key = (foundSlot atNull table key).bind Slot.val := rfl

/-- **The options depend on the seven lookups only**, so tables that answer them alike give the same
options. -/
theorem tableOptions_congr {atNull₁ atNull₂ : List UInt8} {table₁ table₂ : List (Slot CString)}
    (h : ∀ key ∈ knownKeys, foundSlot atNull₁ table₁ key = foundSlot atNull₂ table₂ key) :
    tableOptions atNull₁ table₁ = tableOptions atNull₂ table₂ := by
  have htest := h (ascii "test") (by decide)
  have hcheck := h (ascii "check") (by decide)
  have hchs := h (ascii "force_chs") (by decide)
  have hmbr := h (ascii "mbr") (by decide)
  have hdebug := h (ascii "debug") (by decide)
  have hmode := h (ascii "mode") (by decide)
  have hskip := h (ascii "skip") (by decide)
  simp only [tableOptions, isCmdExist_eq, getCmdItem_eq, htest, hcheck, hchs, hmbr, hdebug, hmode,
    hskip]

theorem OptToken.keyIs_slot (tok : OptToken) (atNull key : List UInt8) :
    Slot.keyIs atNull key tok.slot = decide (tok.key.bytes = key) := rfl

/-- **With distinct keys a lookup is a matter of membership.** -/
theorem foundSlot_eq_some_iff {toks : List OptToken} (hnodup : (toks.map OptToken.key).Nodup)
    (atNull key : List UInt8) (slot : Slot CString) :
    foundSlot atNull (toks.map OptToken.slot) key = some slot ↔
      ∃ tok ∈ toks, tok.slot = slot ∧ tok.key.bytes = key := by
  induction toks with
  | nil => simp [foundSlot]
  | cons tok toks ih =>
    rw [List.map_cons, List.nodup_cons] at hnodup
    obtain ⟨hnew, hnodup⟩ := hnodup
    rw [foundSlot, List.map_cons, List.find?_cons, OptToken.keyIs_slot]
    by_cases hkey : tok.key.bytes = key
    · rw [decide_eq_true hkey]
      constructor
      · rintro h
        exact ⟨tok, List.mem_cons_self, Option.some.inj h, hkey⟩
      · rintro ⟨tok', htok', rfl, hkey'⟩
        rcases List.mem_cons.1 htok' with rfl | hmem
        · rfl
        · have heq : tok'.key = tok.key := bytes_injective (hkey'.trans hkey.symm)
          exact absurd (heq ▸ List.mem_map_of_mem hmem) hnew
    · rw [decide_eq_false hkey]
      refine (ih hnodup).trans ⟨?_, ?_⟩
      · rintro ⟨tok', hmem, h⟩
        exact ⟨tok', List.mem_cons_of_mem tok hmem, h⟩
      · rintro ⟨tok', htok', hslot, hkey'⟩
        rcases List.mem_cons.1 htok' with rfl | hmem
        · exact absurd hkey' hkey
        · exact ⟨tok', hmem, hslot, hkey'⟩

/-- **The options are those of the known tokens**, whatever their order. -/
theorem tableOptions_eq_of_known {toks₁ toks₂ : List OptToken}
    (h₁ : (toks₁.map OptToken.key).Nodup) (h₂ : (toks₂.map OptToken.key).Nodup)
    (h : ∀ tok : OptToken, tok.known = true → (tok ∈ toks₁ ↔ tok ∈ toks₂))
    (atNull₁ atNull₂ : List UInt8) :
    tableOptions atNull₁ (toks₁.map OptToken.slot) =
      tableOptions atNull₂ (toks₂.map OptToken.slot) := by
  refine tableOptions_congr fun key hkey ↦ Option.ext fun slot ↦ ?_
  rw [foundSlot_eq_some_iff h₁, foundSlot_eq_some_iff h₂]
  have hknown (tok : OptToken) (htok : tok.key.bytes = key) : tok.known = true := by
    rw [OptToken.known, htok]
    exact decide_eq_true hkey
  constructor
  · rintro ⟨tok, hmem, hslot, htok⟩
    exact ⟨tok, (h tok (hknown tok htok)).1 hmem, hslot, htok⟩
  · rintro ⟨tok, hmem, hslot, htok⟩
    exact ⟨tok, (h tok (hknown tok htok)).2 hmem, hslot, htok⟩

/-- **The order of the options does not matter.** Two lines made of tokens give the same options if
the tokens of the one are a permutation of those of the other, whatever the separators, and also if
they are those of the other that are options: tokens that are not have no effect. -/
theorem option_order_irrelevant (n : ℕ) (hn : 1024 < n) (atNull₁ atNull₂ : List UInt8)
    (behind₁ behind₂ : ℕ → Slot ℕ) (toks₁ toks₂ : List OptToken) (s₁ s₂ : CString)
    (h₁ : LineOf toks₁ s₁) (h₂ : LineOf toks₂ s₂)
    (h : toks₁.Perm toks₂ ∨ toks₂ = toks₁.filter OptToken.known) :
    ∃ opt, parseCmdline n atNull₁ behind₁ s₁ = some opt ∧
      parseCmdline n atNull₂ behind₂ s₂ = some opt := by
  have hmem (tok : OptToken) (hknown : tok.known = true) : tok ∈ toks₁ ↔ tok ∈ toks₂ := by
    rcases h with hperm | rfl
    · exact hperm.mem_iff
    · rw [List.mem_filter, hknown]
      exact (and_iff_left rfl).symm
  refine ⟨_, h₁.parseCmdline_eq hn atNull₁ behind₁, ?_⟩
  rw [h₂.parseCmdline_eq hn atNull₂ behind₂]
  exact congrArg some (tableOptions_eq_of_known h₁.nodup h₂.nodup hmem atNull₁ atNull₂).symm

/-- The token `test`. -/
def testToken : OptToken where
  key := ⟨ascii "test", by decide⟩
  val := none
  isKey := isWord_of_all (by decide) (by decide)
  isVal := by simp

/-- The token `debug=7`. -/
def debugToken : OptToken where
  key := ⟨ascii "debug", by decide⟩
  val := some ⟨ascii "7", by decide⟩
  isKey := isWord_of_all (by decide) (by decide)
  isVal := by
    intro v hv
    obtain rfl := Option.some.inj hv
    exact isWord_of_all (by decide) (by decide)

/-- `"debug=7 test"`. -/
def debugFirst : CString := ⟨ascii "debug=7" ++ [0x20] ++ ascii "test", by decide⟩

/-- `"test,, debug=7"`. -/
def testFirst : CString := ⟨ascii "test" ++ [0x2c, 0x2c, 0x20] ++ ascii "debug=7", by decide⟩

theorem lineOf_debugFirst : LineOf [debugToken, testToken] debugFirst :=
  ⟨by decide, by decide,
    .cons (ascii "debug=7") [0x20] (by decide) (List.all_eq_true.1 (by decide)) (.single _),
    by decide⟩

theorem lineOf_testFirst : LineOf [testToken, debugToken] testFirst :=
  ⟨by decide, by decide,
    .cons (ascii "test") [0x2c, 0x2c, 0x20] (by decide) (List.all_eq_true.1 (by decide))
      (.single _),
    by decide⟩

theorem option_order_irrelevant_at : ∃ opt,
    parseCmdline 1025 [] (fun _ ↦ .empty) debugFirst = some opt ∧
      parseCmdline 1025 [] (fun _ ↦ .empty) testFirst = some opt :=
  option_order_irrelevant 1025 (by decide) [] [] _ _ _ _ _ _ lineOf_debugFirst lineOf_testFirst
    (Or.inl (List.Perm.swap testToken debugToken []))

end Dwipe

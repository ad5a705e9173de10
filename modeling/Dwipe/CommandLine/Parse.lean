import Dwipe.CommandLine.Strtok

/-!
# The table of the command line

The first half of `parse_cmdline` of `cmdline.c`: the copy of the command line, the two nested
tokenisers, and the table `cmd_slot` they fill. A token is cut at `=`, and a flag that is
**toggled** with each part decides whether the part becomes the key or the value of the slot.

`parseTable_spec` relates the table of pointers to the text. The number of slots is the number of
tokens, as far as the limit lets it grow, and the pointers of a slot read as `slotOf` of the parts
of its token, which is the same toggling on strings.
-/

namespace Dwipe

/-- `MAX_CMDLINE_SIZE`: the size of the copy of the command line, with its NUL. -/
def maxCmdlineSize : ℕ := 1024

/-- `MAX_CMDLINE_SLOT`: the number of slots of the table. -/
def maxCmdlineSlot : ℕ := 64

/-- `struct cmd_slot_t`, with pointers or with the strings they point at. -/
structure Slot (α : Type) where
  key : Option α
  val : Option α
  deriving DecidableEq

/-- A slot after the `memset`: both of its pointers are null. -/
def Slot.empty {α : Type} : Slot α := ⟨none, none⟩

/-- A part of a token stored as the key, or as the value if `is_val` is set. -/
def Slot.fill {α : Type} (slot : Slot α) (isVal : Bool) (part : α) : Slot α :=
  if isVal then { slot with val := some part } else { slot with key := some part }

/-- The variables of the tokeniser loops. The copy of the line is one of them, since `strtok_r`
stores a NUL behind each token. -/
structure CmdState where
  /-- `cmd_line`. -/
  line : List UInt8
  /-- `cmd_slot`, and what lies behind it. -/
  slots : ℕ → Slot ℕ
  index : ℕ
  /-- The slots that were stored to, in order; ghost data. -/
  stores : List ℕ

/-- `cmd_slot[index].key = subtoken`, or `.val`. The index is not compared with the size of the
table, so the slot may lie behind it. -/
def CmdState.store (st : CmdState) (isVal : Bool) (subtoken : ℕ) : CmdState :=
  { st with
    slots := Function.update st.slots st.index ((st.slots st.index).fill isVal subtoken)
    stores := st.stores ++ [st.index] }

/-- The separators of the outer tokeniser, `", "`. -/
def isSep (c : UInt8) : Bool := c = 0x2c || c = 0x20

/-- The separator of the inner tokeniser, `"="`. -/
def isEq (c : UInt8) : Bool := c = 0x3d

/-- The inner loop, with at most `n` calls of `strtok_r`. -/
def subtokenLoop : ℕ → Option ℕ → Bool → CmdState → Option CmdState
  | 0, _, _, _ => none
  | n + 1, str2, isVal, st =>
    match strtokR isEq st.line str2 with
    | ⟨none, _, line⟩ => some { st with line := line }
    | ⟨some subtoken, saveptr2, line⟩ =>
      subtokenLoop n saveptr2 (!isVal) (CmdState.store { st with line := line } isVal subtoken)

/-- The outer loop, with at most `n` calls of `strtok_r`, and `m` in each round of it. The limit is
tested after the slot has been filled. -/
def tokenLoop (m : ℕ) : ℕ → Option ℕ → CmdState → Option CmdState
  | 0, _, _ => none
  | n + 1, str1, st =>
    match strtokR isSep st.line str1 with
    | ⟨none, _, line⟩ => some { st with line := line }
    | ⟨some token, saveptr1, line⟩ => do
      let st ← subtokenLoop m (some token) false { st with line := line }
      let st := { st with index := st.index + 1 }
      if st.index > maxCmdlineSlot then
        return st
      tokenLoop m n saveptr1 st

/-- `strncpy(cmd_line, cmd_line_ptr, sizeof(cmd_line))` and the NUL in the last byte. -/
def copyLine (s : CString) : List UInt8 :=
  ((s.bytes ++ List.replicate maxCmdlineSize 0).take maxCmdlineSize).set (maxCmdlineSize - 1) 0

/-- `parse_cmdline` up to the table; `behind` is what lies in memory behind `cmd_slot`. The final
`index` is `cmd_slot_cnt`. -/
def parseTable (n : ℕ) (behind : ℕ → Slot ℕ) (s : CString) : Option CmdState :=
  tokenLoop n n (some 0)
    { line := copyLine s
      slots := fun i ↦ if i < maxCmdlineSlot then .empty else behind i
      index := 0
      stores := [] }

/-! ### The same on strings -/

/-- The parts of a token put into a slot one after the other. -/
def Slot.fillAll {α : Type} : Slot α → Bool → List α → Slot α
  | slot, _, [] => slot
  | slot, isVal, part :: parts => (slot.fill isVal part).fillAll (!isVal) parts

/-- **What a token is turned into**: its parts are by turns the key and the value, and the last of
each wins. So a token `k` has no value, and `k=v=w` has the key `w`. -/
def slotOf (token : List UInt8) : Slot (List UInt8) := Slot.empty.fillAll false (tokens isEq token)

/-- The text that is parsed: the command line, up to the size of the copy. -/
def lineText (s : CString) : List UInt8 := s.bytes.take (maxCmdlineSize - 1)

/-- The tokens of the command line, as a list of texts: what the outer tokeniser ought to find. -/
def lineTokens (s : CString) : List (List UInt8) := tokens isSep (lineText s)

/-! ### Pointers and strings -/

/-- A pointer, or a null pointer, reads as a string, or as none. The string ends below `hi`. -/
def PtrReads (mem : List UInt8) (hi : ℕ) : Option ℕ → Option (List UInt8) → Prop :=
  Option.Rel fun p w ↦ Reads mem p w ∧ p + w.length < hi

/-- **A slot of pointers reads as a slot of strings.** -/
structure SlotReads (mem : List UInt8) (hi : ℕ) (slot : Slot ℕ) (w : Slot (List UInt8)) : Prop where
  key : PtrReads mem hi slot.key w.key
  val : PtrReads mem hi slot.val w.val

theorem PtrReads.mono {mem mem' : List UInt8} {lo hi hi' : ℕ} {p : Option ℕ}
    {w : Option (List UInt8)} (h : PtrReads mem hi p w) (hsame : SameOutside lo hi' mem mem')
    (hlo : hi ≤ lo) {b : ℕ} (hb : hi ≤ b) : PtrReads mem' b p w := by
  cases h with
  | none => exact Option.Rel.none
  | some h =>
    obtain ⟨hreads, hlt⟩ := h
    exact Option.Rel.some ⟨hreads.congr fun j _ hj ↦ hsame j (by omega), by omega⟩

/-- Strings stay when only bytes behind them change, as they do while the later tokens are cut
off. -/
theorem SlotReads.mono {mem mem' : List UInt8} {lo hi hi' : ℕ} {slot : Slot ℕ}
    {w : Slot (List UInt8)} (h : SlotReads mem hi slot w) (hsame : SameOutside lo hi' mem mem')
    (hlo : hi ≤ lo) {b : ℕ} (hb : hi ≤ b) : SlotReads mem' b slot w :=
  ⟨h.key.mono hsame hlo hb, h.val.mono hsame hlo hb⟩

theorem slotReads_empty (mem : List UInt8) (hi : ℕ) : SlotReads mem hi .empty .empty :=
  ⟨Option.Rel.none, Option.Rel.none⟩

theorem SlotReads.fill {mem : List UInt8} {hi p : ℕ} {slot : Slot ℕ} {w : Slot (List UInt8)}
    {part : List UInt8} (h : SlotReads mem hi slot w) (isVal : Bool) (hp : Reads mem p part)
    (hlt : p + part.length < hi) : SlotReads mem hi (slot.fill isVal p) (w.fill isVal part) := by
  have hpart : PtrReads mem hi (some p) (some part) := Option.Rel.some ⟨hp, hlt⟩
  cases isVal with
  | false => exact ⟨hpart, h.val⟩
  | true => exact ⟨h.key, hpart⟩

theorem Reads.pending {delim : UInt8 → Bool} {mem : List UInt8} {p : ℕ} {w : List UInt8}
    (h : Reads mem p w) : Pending delim mem (some p) (tokens delim w) p (p + w.length) :=
  Or.inr ⟨p, w, rfl, h, rfl, le_rfl, le_rfl⟩

/-! ### The inner loop -/

/-- What the inner loop does to the state, for the parts `parts` of a token between `lo` and
`hi`. -/
structure Filled (st : CmdState) (isVal : Bool) (parts : List (List UInt8)) (lo hi : ℕ)
    (st' : CmdState) : Prop where
  index : st'.index = st.index
  others : ∀ i ≠ st.index, st'.slots i = st.slots i
  same : SameOutside lo hi st.line st'.line
  stores : st'.stores = st.stores ++ List.replicate parts.length st.index
  slot : ∀ w, SlotReads st.line lo (st.slots st.index) w →
    SlotReads st'.line (hi + 1) (st'.slots st.index) (w.fillAll isVal parts)

/-- **The inner loop** toggles through the parts of its token. -/
theorem subtokenLoop_spec {parts : List (List UInt8)} :
    ∀ {n : ℕ} {str2 : Option ℕ} {isVal : Bool} {st : CmdState} {lo hi : ℕ},
      parts.length < n → lo ≤ hi + 1 → Pending isEq st.line str2 parts lo hi →
      ∃ st', subtokenLoop n str2 isVal st = some st' ∧ Filled st isVal parts lo hi st' := by
  induction parts with
  | nil =>
    intro n str2 isVal st lo hi hn hlo h
    obtain ⟨n, rfl⟩ := Nat.exists_eq_add_of_lt hn
    have hrun : strtokR isEq st.line str2 = ⟨none, none, st.line⟩ := strtokR_nil (by decide) h
    refine ⟨st, ?_, rfl, fun _ _ ↦ rfl, SameOutside.refl _ _ _, by simp, fun w hw ↦ ?_⟩
    · rw [subtokenLoop, hrun]
    · exact hw.mono (SameOutside.refl lo hi _) le_rfl hlo
  | cons part parts ih =>
    intro n str2 isVal st lo hi hn hlo h
    obtain ⟨n, rfl⟩ : ∃ k, n = k + 1 := ⟨n - 1, by rw [List.length_cons] at hn; omega⟩
    obtain ⟨p, lasts, mem, hrun, hreads, hp, hpart, hpend, hsame⟩ := strtokR_spec h
    obtain ⟨st₁, hst₁⟩ : ∃ st₁, st₁ = CmdState.store { st with line := mem } isVal p := ⟨_, rfl⟩
    have hslot : st₁.slots st.index = (st.slots st.index).fill isVal p := by
      rw [hst₁]
      exact Function.update_self ..
    obtain ⟨st', hloop, hfilled⟩ := @ih n lasts (!isVal) st₁ (p + part.length + 1) hi
      (by rw [List.length_cons] at hn; omega) (by omega) (by rw [hst₁]; exact hpend)
    have hindex : st₁.index = st.index := by rw [hst₁]; rfl
    have hline : st₁.line = mem := by rw [hst₁]; rfl
    refine ⟨st', ?_, hfilled.index.trans hindex, fun i hi' ↦ ?_, ?_, ?_, fun w hw ↦ ?_⟩
    · rw [subtokenLoop, hrun]
      simp only [← hst₁]
      exact hloop
    · rw [hfilled.others i (by rwa [hindex]), hst₁]
      exact Function.update_of_ne hi' ..
    · exact hsame.trans (hline ▸ hfilled.same) (by omega) le_rfl
    · rw [hfilled.stores, hindex, hst₁, List.length_cons, List.replicate_succ]
      show st.stores ++ [st.index] ++ _ = _
      rw [List.append_assoc]
      rfl
    · have hpre : SlotReads mem (p + part.length + 1) (st.slots st.index) w :=
        hw.mono hsame le_rfl (by omega)
      have hfill := hpre.fill isVal hreads (by omega)
      rw [← hslot, ← hline, ← hindex] at hfill
      rw [← hindex]
      exact hfilled.slot _ hfill

/-! ### The outer loop -/

/-- **The invariant of the outer loop**: the first `index` tokens of `all` are in their slots, the
rest is in front of the saved pointer, and the rest of the table is empty. -/
structure Tokenising (all : List (List UInt8)) (str1 : Option ℕ) (lo hi : ℕ) (st : CmdState) :
    Prop where
  limit : st.index ≤ maxCmdlineSlot + 1
  count : st.index ≤ all.length
  pending : Pending isSep st.line str1 (all.drop st.index) lo hi
  slots : ∀ i t, i < st.index → i < maxCmdlineSlot → all[i]? = some t →
    SlotReads st.line lo (st.slots i) (slotOf t)
  free : ∀ i, st.index ≤ i → i < maxCmdlineSlot → st.slots i = .empty
  stores : ∀ k ∈ st.stores, k < st.index

/-- **What the outer loop leaves**: a slot for each token, and one more than the table holds if
there are that many. -/
structure Tokenised (all : List (List UInt8)) (st : CmdState) : Prop where
  count : st.index = min all.length (maxCmdlineSlot + 1)
  slots : ∀ i t, i < maxCmdlineSlot → all[i]? = some t →
    ∃ hi, SlotReads st.line hi (st.slots i) (slotOf t)
  stores : ∀ k ∈ st.stores, k < st.index

section outer

variable {all : List (List UInt8)} {str1 : Option ℕ} {lo hi : ℕ} {st : CmdState}

/-- The loop ends when no token is left, or when the limit is exceeded. -/
theorem Tokenising.tokenised (h : Tokenising all str1 lo hi st)
    (hend : all.length = st.index ∨ maxCmdlineSlot < st.index) : Tokenised all st := by
  have hlimit := h.limit
  have hcount := h.count
  refine ⟨by omega, fun i t hi ht ↦ ⟨lo, h.slots i t ?_ hi ht⟩, h.stores⟩
  have hlt := (List.getElem?_eq_some_iff.1 ht).1
  omega

/-- **The slots after a token** at `p`, whose parts are in the slot that was free: the earlier
strings lie in front of the token and stay. -/
theorem Tokenising.slots_next (h : Tokenising all str1 lo hi st) {t : List UInt8}
    (ht : all[st.index]? = some t) {p : ℕ} {mem : List UInt8} (hp : lo ≤ p)
    (hsame : SameOutside lo hi st.line mem) {st' : CmdState}
    (hfilled : Filled { st with line := mem } false (tokens isEq t) p (p + t.length) st') :
    ∀ i u, i < st.index + 1 → i < maxCmdlineSlot → all[i]? = some u →
      SlotReads st'.line (p + t.length + 1) (st'.slots i) (slotOf u) := by
  intro i u hi hi' hu
  rcases Nat.lt_or_ge i st.index with hold | hnew
  · have hslot : st'.slots i = st.slots i := hfilled.others i (Nat.ne_of_lt hold)
    have hbefore := (h.slots i u hold hi' hu).mono hsame le_rfl hp
    rw [hslot]
    exact hbefore.mono hfilled.same le_rfl (by omega)
  · obtain rfl : i = st.index := by omega
    obtain rfl := Option.some.inj (ht.symm.trans hu)
    refine hfilled.slot .empty ?_
    show SlotReads mem p (st.slots st.index) .empty
    rw [h.free _ le_rfl hi']
    exact slotReads_empty _ _

/-- **The invariant after a token** whose parts are in their slot. -/
theorem Tokenising.next (h : Tokenising all str1 lo hi st) (hindex : st.index ≤ maxCmdlineSlot)
    {t : List UInt8} (ht : all[st.index]? = some t) {p : ℕ} {lasts : Option ℕ} {mem : List UInt8}
    (hp : lo ≤ p) (hpend : Pending isSep mem lasts (all.drop (st.index + 1)) (p + t.length + 1) hi)
    (hsame : SameOutside lo hi st.line mem) {st' : CmdState}
    (hfilled : Filled { st with line := mem } false (tokens isEq t) p (p + t.length) st') :
    Tokenising all lasts (p + t.length + 1) hi { st' with index := st.index + 1 } := by
  have hlt := (List.getElem?_eq_some_iff.1 ht).1
  have hline : SameOutside p (p + t.length) mem st'.line := hfilled.same
  have hslots := h.slots_next ht hp hsame hfilled
  refine ⟨Nat.succ_le_succ hindex, hlt, ?_, hslots, ?_, ?_⟩
  · exact hpend.congr fun j hj ↦ hline j (by omega)
  · intro i hi hi'
    have hi₁ : st.index + 1 ≤ i := hi
    have hslot : st'.slots i = st.slots i := hfilled.others i (Nat.ne_of_gt hi₁)
    exact hslot.trans (h.free i (by omega) hi')
  · intro k hk
    have hk' : k ∈ st.stores ++ List.replicate (tokens isEq t).length st.index := by
      rw [← hfilled.stores]
      exact hk
    show k < st.index + 1
    rcases List.mem_append.1 hk' with hold | hnew
    · have := h.stores k hold
      omega
    · rw [List.eq_of_mem_replicate hnew]
      omega

/-- **One round of the outer loop** fills the slot of one more token, and leaves those of the
earlier ones. -/
theorem Tokenising.round (h : Tokenising all str1 lo hi st) (hindex : st.index ≤ maxCmdlineSlot)
    {t : List UInt8} (ht : all[st.index]? = some t) {m : ℕ} (hm : (tokens isEq t).length < m) :
    ∃ token saveptr1 line st' lo', strtokR isSep st.line str1 = ⟨some token, saveptr1, line⟩ ∧
      subtokenLoop m (some token) false { st with line := line } = some st' ∧
      st'.index = st.index ∧
      Tokenising all saveptr1 lo' hi { st' with index := st'.index + 1 } := by
  have hlt := (List.getElem?_eq_some_iff.1 ht).1
  have hcons : all.drop st.index = t :: all.drop (st.index + 1) := by
    rw [List.drop_eq_getElem_cons hlt]
    rw [List.getElem?_eq_getElem hlt] at ht
    rw [Option.some.inj ht]
  have hpending := h.pending
  rw [hcons] at hpending
  obtain ⟨p, lasts, mem, hrun, hreads, hp, hle, hpend, hsame⟩ := strtokR_spec hpending
  obtain ⟨st', hloop, hfilled⟩ := @subtokenLoop_spec _ m (some p) false { st with line := mem } p
    (p + t.length) hm (by omega) hreads.pending
  have hidx : st'.index = st.index := hfilled.index
  refine ⟨p, lasts, mem, st', p + t.length + 1, hrun, hloop, hidx, ?_⟩
  rw [hidx]
  exact h.next hindex ht hp hpend hsame hfilled

/-- **The outer loop** fills a slot for each token, as long as the limit is not exceeded. -/
theorem tokenLoop_spec {m : ℕ} (hm : ∀ t ∈ all, (tokens isEq t).length < m)
    {ts : List (List UInt8)} :
    ∀ {n : ℕ} {str1 : Option ℕ} {lo : ℕ} {st : CmdState}, ts.length < n →
      all.drop st.index = ts → st.index ≤ maxCmdlineSlot → Tokenising all str1 lo hi st →
      ∃ st', tokenLoop m n str1 st = some st' ∧ Tokenised all st' := by
  induction ts with
  | nil =>
    intro n str1 lo st hn hts hindex h
    obtain ⟨n, rfl⟩ := Nat.exists_eq_add_of_lt hn
    have hpending := h.pending
    rw [hts] at hpending
    have hrun : strtokR isSep st.line str1 = ⟨none, none, st.line⟩ :=
      strtokR_nil (by decide) hpending
    have hlen : all.length ≤ st.index := List.drop_eq_nil_iff.1 hts
    have hcount := h.count
    refine ⟨st, ?_, h.tokenised (Or.inl (by omega))⟩
    rw [tokenLoop, hrun]
  | cons t ts ih =>
    intro n str1 lo st hn hts hindex h
    obtain ⟨n, rfl⟩ : ∃ k, n = k + 1 := ⟨n - 1, by rw [List.length_cons] at hn; omega⟩
    have ht : all[st.index]? = some t := by
      rw [← List.head?_drop, hts]
      rfl
    have hmem : t ∈ all := List.mem_of_getElem? ht
    obtain ⟨p, lasts, mem, st', lo', hrun, hloop, hidx, hnext⟩ :=
      h.round hindex ht (hm t hmem)
    have hstep : tokenLoop m (n + 1) str1 st =
        if st'.index + 1 > maxCmdlineSlot then some { st' with index := st'.index + 1 }
        else tokenLoop m n lasts { st' with index := st'.index + 1 } := by
      rw [tokenLoop, hrun]
      simp only [hloop, Option.bind_eq_bind, Option.bind_some]
      rfl
    rw [hstep]
    split
    case isTrue hlimit => exact ⟨_, rfl, hnext.tokenised (Or.inr hlimit)⟩
    case isFalse hlimit =>
      refine ih (by rw [List.length_cons] at hn; omega) ?_ (by
        show st'.index + 1 ≤ maxCmdlineSlot
        omega) hnext
      show all.drop (st'.index + 1) = ts
      rw [hidx, ← List.tail_drop, hts]
      rfl

end outer

/-! ### The table -/

theorem lineText_noNul (s : CString) : 0 ∉ lineText s := fun h ↦ s.noNul (List.mem_of_mem_take h)

theorem length_lineText_le (s : CString) : (lineText s).length ≤ 1023 := List.length_take_le _ _

/-- The copy holds the text and a NUL. -/
theorem reads_copyLine (s : CString) : Reads (copyLine s) 0 (lineText s) := by
  obtain ⟨b, hb⟩ : ∃ b, b = s.bytes := ⟨_, rfl⟩
  have htext : lineText s = b.take 1023 := by rw [hb]; rfl
  have hcopy : copyLine s = ((b ++ List.replicate 1024 0).take 1024).set 1023 0 := by rw [hb]; rfl
  refine ⟨lineText_noNul s, List.prefix_iff_getElem?.2 fun i hi ↦ ?_⟩
  rw [List.length_append, List.length_singleton] at hi
  rw [List.drop_zero, hcopy, ← List.getElem?_eq_getElem, htext]
  rw [htext, List.length_take] at hi
  rcases Nat.lt_or_ge i (b.take 1023).length with hlt | hge
  · rw [List.length_take] at hlt
    rw [List.getElem?_append_left (by rw [List.length_take]; omega),
      List.getElem?_set_ne (by omega), List.getElem?_take_of_lt (by omega),
      List.getElem?_take_of_lt (by omega), List.getElem?_append_left (by omega)]
  · rw [List.getElem?_append_right hge]
    rw [List.length_take] at hge ⊢
    have hzero : i - min 1023 b.length = 0 := by omega
    rw [hzero]
    rcases Nat.lt_or_ge i 1023 with hi' | hi'
    · rw [List.getElem?_set_ne (by omega), List.getElem?_take_of_lt (by omega),
        List.getElem?_append_right (by omega), List.getElem?_replicate_of_lt (by omega)]
      rfl
    · obtain rfl : i = 1023 := by omega
      rw [List.getElem?_set_self (by
        rw [List.length_take, List.length_append, List.length_replicate]
        omega)]
      rfl

/-- **The table of the command line.** With more than 1024 calls for each tokeniser the loops come
to an end, and the table is that of the tokens of the text. -/
theorem parseTable_spec {n : ℕ} (hn : 1024 < n) (behind : ℕ → Slot ℕ) (s : CString) :
    ∃ st, parseTable n behind s = some st ∧ Tokenised (lineTokens s) st := by
  have hlen := length_lineText_le s
  have hcount : (lineTokens s).length ≤ 1023 := (length_tokens_le isSep _).trans hlen
  have hparts (t : List UInt8) (ht : t ∈ lineTokens s) : (tokens isEq t).length < n := by
    have hle := length_tokens_le isEq t
    have htlen := length_le_of_mem_tokens ht
    omega
  have hstart : Tokenising (lineTokens s) (some 0) 0 1023
      ⟨copyLine s, fun i ↦ if i < maxCmdlineSlot then .empty else behind i, 0, []⟩ := by
    refine ⟨Nat.zero_le _, Nat.zero_le _, ?_, ?_, ?_, ?_⟩
    · exact Or.inr ⟨0, lineText s, rfl, reads_copyLine s, rfl, le_rfl, by omega⟩
    · intro i t hi
      exact absurd hi (Nat.not_lt_zero i)
    · intro i _ hi
      exact if_pos hi
    · intro k hk
      exact absurd hk List.not_mem_nil
  exact tokenLoop_spec hparts (show (lineTokens s).length < n by omega) rfl (Nat.zero_le _) hstart

end Dwipe

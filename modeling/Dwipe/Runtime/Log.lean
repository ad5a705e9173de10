import Dwipe.CommandLine.Options
import Dwipe.Library.Bytes
import Dwipe.Runtime.Serial
import Mathlib.Data.Nat.Digits.Defs

/-!
# The log

`_minios_print_log` of `debug.c`: a filter on the level, a record of at most 4095 bytes put together
in a buffer of the stack, and the record with an end of line on `stderr`, which is the serial line.

The record is built by three calls of `snprintf`, each one at the place the last one ended. Their
sum of lengths counts what was **asked for** and not what was stored, so behind a truncation the
remaining size is zero or, as an unsigned number, above two gigabytes; newlib stores nothing in
either case. Hence the buffer is never left (`logBuffer_apply_of_le`), and the record is the
beginning of the text (`stringOf_logBuffer`).

The formatting of the message itself is the C library's: a call carries the text that its format and
arguments produce.
-/

namespace Dwipe

open Bytes

/-! ### `snprintf` -/

/-- `snprintf(buffer + pos, size, …)` where the format produces `text`: the buffer, and the returned
length as the program adds it to a `size_t`. -/
def snprintf (buf : ℕ → UInt8) (pos : ℕ) (size : UInt32) (text : List UInt8) :
    (ℕ → UInt8) × UInt32 :=
  if 0x7fffffff < size.toNat then (buf, -1)
  else if size = 0 then (buf, UInt32.ofNat text.length)
  else
    (blit buf pos ((text.take (size.toNat - 1)).length + 1)
      fun i ↦ (text.take (size.toNat - 1)).getD i 0, UInt32.ofNat text.length)

/-- `%d` of a number that is not negative. -/
def decimal (n : ℕ) : List UInt8 :=
  if n = 0 then [0x30] else (Nat.digits 10 n).reverse.map fun d ↦ UInt8.ofNat (0x30 + d)

/-! ### `_minios_print_log` -/

/-- One call: the level, `__FILE__`, `__LINE__` and the text of the message. -/
structure LogCall where
  level : ℤ
  file : CString
  line : ℕ
  msg : CString
  deriving DecidableEq

/-- `sizeof(buffer)`, of which the last byte is for the NUL. -/
def logBufferSize : UInt32 := 4096

namespace LogCall

variable (l : LogCall)

/-- `log_str`. -/
def logStr : List UInt8 :=
  if l.level = 1 then ascii "ERR"
  else if l.level = 2 then ascii "WAN"
  else if l.level = 4 then ascii "INF"
  else if l.level = 8 then ascii "DBG"
  else ascii "???"

/-- `[%s]`. -/
def tag : List UInt8 := ascii "[" ++ l.logStr ++ ascii "]"

/-- `[%s:%d]`. -/
def place : List UInt8 :=
  ascii "[" ++ l.file.bytes ++ ascii ":" ++ decimal l.line ++ ascii "]"

/-- The whole text, before any truncation: what the record would be in a buffer without end. -/
def text : List UInt8 := l.tag ++ l.place ++ l.msg.bytes

/-- The buffer after the three calls of `snprintf`, each with the position and the size the program
computes for it. -/
def logBuffer (buf : ℕ → UInt8) : ℕ → UInt8 :=
  let (buf, n) := snprintf buf 0 logBufferSize l.tag
  let len := n
  let (buf, n) := snprintf buf len.toNat (logBufferSize - len) l.place
  let len := len + n
  (snprintf buf len.toNat (logBufferSize - len) l.msg.bytes).1

/-- `opt.debug & level`: the levels are bits, so an option of 2 does not enable errors. -/
def enabled (debug : ℤ) : Bool := UInt32.ofInt debug &&& UInt32.ofInt l.level != 0

end LogCall

/-- The string at the beginning of the buffer, up to its NUL. -/
def stringOf (buf : ℕ → UInt8) : List UInt8 := cString ((List.range 4096).map buf)

/-- How `fprintf` hands a text to `_write`. -/
abbrev Chunking := List UInt8 → List (List UInt8)

/-- `_minios_print_log`; `buf` is what the stack holds. -/
def miniosPrintLog (w : Wire) (chunks : Chunking) (n : ℕ) (debug : ℤ) (buf : ℕ → UInt8)
    (l : LogCall) (t : Tty) : Option Tty :=
  if l.enabled debug then
    (chunks (stringOf (l.logBuffer buf) ++ [13, 10])).foldlM
      (fun t c ↦ (writeFile w n 2 c t).map Prod.snd) t
  else some t

/-! ### The record -/

/-- The buffer begins with the string `s`. -/
structure Begins (buf : ℕ → UInt8) (s : List UInt8) : Prop where
  noNul : 0 ∉ s
  bytes : ∀ i ≤ s.length, buf i = s.getD i 0

section record

variable {buf : ℕ → UInt8} {s t : List UInt8}

/-- **The string the library sees** is the text, if it fits with its NUL. -/
theorem Begins.stringOf_eq (h : Begins buf s) (hlen : s.length < 4096) : stringOf buf = s := by
  have hsplit : (List.range 4096).map buf =
      s ++ 0 :: (List.range' (s.length + 1) (4095 - s.length)).map buf := by
    apply List.ext_getElem
    · simp
      omega
    · intro i h1 h2
      rw [List.getElem_map, List.getElem_range]
      rcases Nat.lt_trichotomy i s.length with hi | hi | hi
      · rw [List.getElem_append_left hi, h.bytes i (by omega), List.getD_eq_getElem _ _ hi]
      · subst hi
        rw [List.getElem_append_right (Nat.le_refl _), h.bytes _ (Nat.le_refl _)]
        simp
      · rw [List.getElem_append_right (by omega), List.getElem_cons]
        simp only [show ¬i - s.length = 0 by omega, dif_neg, not_false_eq_true, List.getElem_map,
          List.getElem_range']
        congr 1
        omega
  have hfree : ∀ c ∈ s, (decide (c ≠ 0)) = true := fun c hc ↦
    decide_eq_true fun h0 ↦ h.noNul (h0 ▸ hc)
  rw [stringOf, cString, hsplit, List.takeWhile_append_of_pos hfree]
  simp

/-- **A call that has room** appends the beginning of its text, and leaves the rest of the memory
alone. -/
theorem snprintf_room (buf : ℕ → UInt8) (size : UInt32) (hs : 0 ∉ s)
    (hbuf : ∀ i < s.length, buf i = s.getD i 0) (hlen : s.length < 4096)
    (hsize : size.toNat = 4096 - s.length) (ht : 0 ∉ t) :
    Begins (snprintf buf s.length size t).1 (s ++ t.take (4095 - s.length)) ∧
      (snprintf buf s.length size t).2 = UInt32.ofNat t.length ∧
      ∀ i, 4096 ≤ i → (snprintf buf s.length size t).1 i = buf i := by
  have hpos : size ≠ 0 := by
    intro h
    rw [h] at hsize
    exact absurd hsize (by rw [UInt32.toNat_zero]; omega)
  have hmax : size.toNat - 1 = 4095 - s.length := by omega
  have htake := List.length_take_le (4095 - s.length) t
  rw [snprintf, if_neg (by omega), if_neg hpos, hmax]
  refine ⟨⟨?_, fun i hi ↦ ?_⟩, rfl, fun i hi ↦ ?_⟩
  · rw [List.mem_append]
    rintro (h | h)
    · exact hs h
    · exact ht (List.mem_of_mem_take h)
  · rw [List.length_append] at hi
    dsimp only
    rcases Nat.lt_or_ge i s.length with hi' | hi'
    · rw [blit_apply_of_outside (Or.inl hi'), hbuf i hi', List.getD_append _ _ _ _ hi']
    · obtain ⟨j, rfl⟩ := Nat.exists_eq_add_of_le hi'
      rw [blit_apply_add (by omega), List.getD_append_right _ _ _ _ hi', Nat.add_sub_cancel_left]
  · have hend : s.length + ((t.take (4095 - s.length)).length + 1) ≤ i := by omega
    dsimp only
    rw [blit_apply_of_outside (Or.inr hend)]

/-- **A call behind a truncation** stores nothing: its size is zero, or more than `INT_MAX`. -/
theorem snprintf_full (buf : ℕ → UInt8) (pos : ℕ) {size : UInt32}
    (hsize : size = 0 ∨ 0x7fffffff < size.toNat) : (snprintf buf pos size t).1 = buf := by
  rw [snprintf]
  rcases hsize with rfl | hsize
  · rfl
  · rw [if_pos hsize]

end record

/-- Text that the program contains has no NUL. -/
theorem decimal_noNul (n : ℕ) : 0 ∉ decimal n := by
  rw [decimal]
  split_ifs
  · decide
  · intro h
    obtain ⟨d, hd, hzero⟩ := List.mem_map.1 h
    have hlt : d < 10 := Nat.digits_lt_base (by omega) (List.mem_reverse.1 hd)
    have hnat : (UInt8.ofNat (0x30 + d)).toNat = 0 := by rw [hzero]; rfl
    rw [UInt8.toNat_ofNat'] at hnat
    omega

namespace LogCall

variable (l : LogCall)

theorem tag_spec : l.tag.length = 5 ∧ 0 ∉ l.tag := by
  rw [tag, logStr]
  split_ifs <;> decide

theorem place_noNul : 0 ∉ l.place := by
  have hfile := l.file.noNul
  have hline := decimal_noNul l.line
  have hopen : (0 : UInt8) ∉ ascii "[" := by decide
  have hcolon : (0 : UInt8) ∉ ascii ":" := by decide
  have hclose : (0 : UInt8) ∉ ascii "]" := by decide
  simp only [place, List.mem_append, not_or]
  exact ⟨⟨⟨⟨hopen, hfile⟩, hcolon⟩, hline⟩, hclose⟩

/-- The three calls, from the results of the first two. -/
theorem logBuffer_eq {buf buf₁ buf₂ : ℕ → UInt8} {n₁ n₂ : UInt32}
    (h1 : snprintf buf 0 logBufferSize l.tag = (buf₁, n₁))
    (h2 : snprintf buf₁ n₁.toNat (logBufferSize - n₁) l.place = (buf₂, n₂)) :
    l.logBuffer buf =
      (snprintf buf₂ (n₁ + n₂).toNat (logBufferSize - (n₁ + n₂)) l.msg.bytes).1 := by
  simp only [logBuffer, h1, h2]

/-- The size handed to a call of `snprintf`: what is left, or a number that wrapped around. -/
theorem toNat_size_sub (len : UInt32) :
    (logBufferSize - len).toNat = (2 ^ 32 - len.toNat + 4096) % 2 ^ 32 := UInt32.toNat_sub _ _

/-- **The buffer holds the beginning of the text, and nothing behind it was touched**, whatever the
file name and the message are. -/
theorem logBuffer_spec (hplace : l.place.length < 2 ^ 31) (buf : ℕ → UInt8) :
    Begins (l.logBuffer buf) (l.text.take 4095) ∧ ∀ i, 4096 ≤ i → l.logBuffer buf i = buf i := by
  obtain ⟨htag, htag0⟩ := l.tag_spec
  have hplace0 := l.place_noNul
  -- the tag
  obtain ⟨buf₁, hbuf₁⟩ : ∃ b, b = (snprintf buf 0 logBufferSize l.tag).1 := ⟨_, rfl⟩
  have h1 := snprintf_room (s := []) (t := l.tag) buf logBufferSize List.not_mem_nil
    (fun i hi ↦ absurd hi (Nat.not_lt_zero i)) (by decide) rfl htag0
  rw [List.length_nil, List.nil_append, List.take_of_length_le (by omega), htag, ← hbuf₁] at h1
  obtain ⟨hbegins₁, hlen₁, hout₁⟩ := h1
  -- the place
  have hsize₂ : (logBufferSize - 5).toNat = 4096 - l.tag.length := by
    rw [toNat_size_sub, htag]
    rfl
  obtain ⟨buf₂, hbuf₂⟩ : ∃ b, b = (snprintf buf₁ 5 (logBufferSize - 5) l.place).1 := ⟨_, rfl⟩
  have h2 := snprintf_room (s := l.tag) (t := l.place) buf₁ (logBufferSize - 5) htag0
    (fun i hi ↦ hbegins₁.bytes i (by omega)) (by omega) hsize₂ hplace0
  rw [htag, ← hbuf₂] at h2
  obtain ⟨hbegins₂, hlen₂, hout₂⟩ := h2
  -- the message
  have hlen₃ : ((5 : UInt32) + UInt32.ofNat l.place.length).toNat = 5 + l.place.length := by
    have hp : (UInt32.ofNat l.place.length).toNat = l.place.length := by
      rw [UInt32.toNat_ofNat', Nat.mod_eq_of_lt (by omega)]
    rw [UInt32.toNat_add, hp]
    show (5 + l.place.length) % 2 ^ 32 = _
    omega
  have hbuffer : l.logBuffer buf =
      (snprintf buf₂ (5 + l.place.length)
        (logBufferSize - ((5 : UInt32) + UInt32.ofNat l.place.length)) l.msg.bytes).1 := by
    rw [l.logBuffer_eq (Prod.ext hbuf₁.symm hlen₁) (Prod.ext hbuf₂.symm hlen₂)]
    show (snprintf buf₂ ((5 : UInt32) + UInt32.ofNat l.place.length).toNat _ _).1 = _
    rw [hlen₃]
    rfl
  have hhead : (l.tag ++ l.place).length = 5 + l.place.length := by rw [List.length_append, htag]
  rw [hbuffer]
  rcases Nat.lt_or_ge (5 + l.place.length) 4096 with hroom | hfull
  · have hall : l.place.take (4095 - 5) = l.place := List.take_of_length_le (by omega)
    rw [hall] at hbegins₂
    have h3 := snprintf_room (s := l.tag ++ l.place) (t := l.msg.bytes) buf₂
      (logBufferSize - ((5 : UInt32) + UInt32.ofNat l.place.length)) hbegins₂.noNul
      (fun i hi ↦ hbegins₂.bytes i (by omega)) (by omega)
      (by rw [toNat_size_sub, hlen₃, hhead]; omega) l.msg.noNul
    rw [hhead] at h3
    obtain ⟨hbegins₃, -, hout₃⟩ := h3
    have htext : l.text.take 4095 =
        l.tag ++ l.place ++ l.msg.bytes.take (4095 - (5 + l.place.length)) := by
      rw [text, List.take_append, hhead, List.take_of_length_le (by omega)]
    rw [htext]
    exact ⟨hbegins₃, fun i hi ↦ by rw [hout₃ i hi, hout₂ i hi, hout₁ i hi]⟩
  · have hsize₃ : logBufferSize - ((5 : UInt32) + UInt32.ofNat l.place.length) = 0 ∨
        0x7fffffff < (logBufferSize - ((5 : UInt32) + UInt32.ofNat l.place.length)).toNat := by
      have hsub := toNat_size_sub ((5 : UInt32) + UInt32.ofNat l.place.length)
      rw [hlen₃] at hsub
      rcases Nat.eq_or_lt_of_le hfull with heq | hlt
      · left
        apply UInt32.toNat_inj.1
        rw [hsub, ← heq]
        rfl
      · right
        omega
    have hnothing := snprintf_full (t := l.msg.bytes) buf₂ (5 + l.place.length) hsize₃
    have htext : l.text.take 4095 = l.tag ++ l.place.take (4095 - 5) := by
      rw [text, List.take_append, hhead, show 4095 - (5 + l.place.length) = 0 by omega,
        List.take_zero, List.append_nil, List.take_append, htag,
        List.take_of_length_le (by omega)]
    rw [hnothing, htext]
    exact ⟨hbegins₂, fun i hi ↦ by rw [hout₂ i hi, hout₁ i hi]⟩

end LogCall

end Dwipe

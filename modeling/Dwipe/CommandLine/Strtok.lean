import Dwipe.Library.Tokens
import Dwipe.Disk.Fat

/-!
# `strtok_r` in place

newlib's `strtok_r`, as `parse_cmdline` uses it. It works **in place**: a token is a pointer into
the buffer, and the separator behind it is overwritten by a NUL. `parse_cmdline` runs a second
tokeniser over each token of the first one, in the same buffer, and keeps pointers to what it finds.

Memory is the buffer as a list of bytes, and a pointer is an offset. `Reads mem p w` says that `w`
is the string at `p`, and `Pending` that a saved pointer still has given tokens in front of it,
inside given bounds. `strtokR_spec` is the one lemma about the function: it hands out the next
token, and **touches nothing outside the bounds**, which is what keeps the two tokenisers apart.
-/

namespace Dwipe

/-- What a call of `strtok_r` leaves: the token, `*lasts` and the buffer. -/
structure StrtokResult where
  token : Option ℕ
  lasts : Option ℕ
  mem : List UInt8
  deriving DecidableEq

/-- `strtok_r(s, delim, &lasts)`; `s` is the pointer the call goes on from, the first argument or
`*lasts` where that is a null pointer. -/
def strtokR (delim : UInt8 → Bool) (mem : List UInt8) : Option ℕ → StrtokResult
  | none => ⟨none, none, mem⟩
  | some s =>
    -- skip (span) leading delimiters
    let tok := s + ((mem.drop s).takeWhile delim).length
    if mem.getD tok 0 = 0 then
      ⟨none, none, mem⟩
    else
      -- scan the token; the NUL stops the scan, too
      let stop := tok + ((mem.drop tok).takeWhile fun c ↦ c ≠ 0 && !delim c).length
      if mem.getD stop 0 = 0 then
        ⟨some tok, none, mem⟩
      else
        ⟨some tok, some (stop + 1), mem.set stop 0⟩

/-- The string at a pointer: the bytes up to the first NUL. -/
def stringAt (mem : List UInt8) (p : ℕ) : List UInt8 := cString (mem.drop p)

/-! ### Strings in memory -/

/-- The bytes of `w` and a NUL stand at `p`. -/
structure Reads (mem : List UInt8) (p : ℕ) (w : List UInt8) : Prop where
  noNul : 0 ∉ w
  bytes : w ++ [0] <+: mem.drop p

section reads

variable {mem mem' : List UInt8} {p : ℕ} {w : List UInt8}

theorem Reads.exists_tail (h : Reads mem p w) : ∃ tail, mem.drop p = w ++ 0 :: tail := by
  obtain ⟨tail, htail⟩ := h.bytes
  exact ⟨tail, by rw [← htail, List.append_assoc]; rfl⟩

theorem Reads.stringAt_eq (h : Reads mem p w) : stringAt mem p = w := by
  obtain ⟨tail, htail⟩ := h.exists_tail
  have hfree : ∀ c ∈ w, (decide (c ≠ 0)) = true := fun c hc ↦
    decide_eq_true fun h0 ↦ h.noNul (h0 ▸ hc)
  rw [stringAt, cString, htail, List.takeWhile_append_of_pos hfree]
  simp

/-- The bytes of a string, with its NUL, are where the pointer says. -/
theorem Reads.getElem? (h : Reads mem p w) {i : ℕ} (hi : i < (w ++ [0]).length) :
    mem[p + i]? = some (w ++ [0])[i] := by
  have hpre := List.prefix_iff_getElem?.1 h.bytes i hi
  rwa [List.getElem?_drop] at hpre

/-- **A string stays** where the bytes under it stay. -/
theorem Reads.congr (h : Reads mem p w)
    (hsame : ∀ j, p ≤ j → j ≤ p + w.length → mem'[j]? = mem[j]?) : Reads mem' p w := by
  refine ⟨h.noNul, List.prefix_iff_getElem?.2 fun i hi ↦ ?_⟩
  have hlen : i ≤ w.length := by
    rw [List.length_append, List.length_singleton] at hi
    omega
  rw [List.getElem?_drop, hsame _ (by omega) (by omega), h.getElem? hi]

/-- The end of a string is a string, at a pointer further on. -/
theorem Reads.append_right {u : List UInt8} (h : Reads mem p (u ++ w)) :
    Reads mem (p + u.length) w := by
  obtain ⟨tail, htail⟩ := h.exists_tail
  refine ⟨fun h0 ↦ h.noNul (List.mem_append_right _ h0), tail, ?_⟩
  rw [← List.drop_drop, htail, List.append_assoc, List.append_assoc, List.drop_left]
  rfl

/-- A string cut off by a NUL in the place of one of its bytes. -/
theorem Reads.cut {x : UInt8} {r : List UInt8} (h : Reads mem p (w ++ x :: r)) :
    Reads (mem.set (p + w.length) 0) p w := by
  have hlt : p + w.length < mem.length := by
    have hbyte := h.getElem? (show w.length < (w ++ x :: r ++ [0]).length by simp)
    exact (List.getElem?_eq_some_iff.1 hbyte).1
  refine ⟨fun h0 ↦ h.noNul (List.mem_append_left _ h0), List.prefix_iff_getElem?.2 fun i hi ↦ ?_⟩
  rw [List.length_append, List.length_singleton] at hi
  rw [List.getElem?_drop]
  rcases Nat.lt_or_ge i w.length with hlen | hlen
  · have hbyte := h.getElem? (show i < (w ++ x :: r ++ [0]).length by simp; omega)
    rw [List.getElem?_set_ne (by omega), hbyte]
    simp [hlen]
  · obtain rfl : i = w.length := by omega
    rw [List.getElem?_set_self hlt]
    simp

end reads

/-! ### The call -/

/-- **What a saved pointer has in front of it**: nothing, or a string between `lo` and `hi` whose
tokens are `ts`. -/
def Pending (delim : UInt8 → Bool) (mem : List UInt8) (lasts : Option ℕ)
    (ts : List (List UInt8)) (lo hi : ℕ) : Prop :=
  (lasts = none ∧ ts = []) ∨
    ∃ s l, lasts = some s ∧ Reads mem s l ∧ tokens delim l = ts ∧ lo ≤ s ∧ s + l.length ≤ hi

theorem Pending.congr {delim : UInt8 → Bool} {mem mem' : List UInt8} {lasts : Option ℕ}
    {ts : List (List UInt8)} {lo hi : ℕ} (h : Pending delim mem lasts ts lo hi)
    (hsame : ∀ j, lo ≤ j → mem'[j]? = mem[j]?) : Pending delim mem' lasts ts lo hi := by
  obtain hnone | ⟨s, l, hlasts, hreads, htokens, hlo, hhi⟩ := h
  · exact Or.inl hnone
  · exact Or.inr ⟨s, l, hlasts, hreads.congr fun j hj _ ↦ hsame j (by omega), htokens, hlo, hhi⟩

/-- The bytes outside `lo` to `hi` are the same. -/
def SameOutside (lo hi : ℕ) (mem mem' : List UInt8) : Prop :=
  ∀ j, j < lo ∨ hi ≤ j → mem'[j]? = mem[j]?

theorem SameOutside.refl (lo hi : ℕ) (mem : List UInt8) : SameOutside lo hi mem mem :=
  fun _ _ ↦ rfl

theorem SameOutside.trans {lo lo' hi hi' : ℕ} {mem mem' mem'' : List UInt8}
    (h : SameOutside lo hi mem mem') (h' : SameOutside lo' hi' mem' mem'') (hlo : lo ≤ lo')
    (hhi : hi' ≤ hi) : SameOutside lo hi mem mem'' := by
  intro j hj
  rw [h' j (by omega), h j hj]

theorem sameOutside_set {mem : List UInt8} {lo hi k : ℕ} (hlo : lo ≤ k) (hhi : k < hi)
    (x : UInt8) : SameOutside lo hi mem (mem.set k x) := by
  intro j hj
  exact List.getElem?_set_ne (by omega)

section strtok

variable {delim : UInt8 → Bool} {mem : List UInt8}

/-- Nothing but separators: no token, and the saved pointer becomes null. -/
theorem strtokR_of_sep (hnul : delim 0 = false) {s : ℕ} {l : List UInt8} (h : Reads mem s l)
    (hl : ∀ x ∈ l, delim x = true) : strtokR delim mem (some s) = ⟨none, none, mem⟩ := by
  obtain ⟨tail, htail⟩ := h.exists_tail
  have hspan : (mem.drop s).takeWhile delim = l := by
    rw [htail, List.takeWhile_append_of_pos hl, List.takeWhile_cons_of_neg (by simp [hnul]),
      List.append_nil]
  have hbyte : mem.getD (s + l.length) 0 = 0 := by
    rw [List.getD_eq_getElem?_getD, h.getElem? (show l.length < (l ++ [0]).length by simp)]
    simp
  rw [strtokR]
  simp only [hspan, hbyte, if_true]

/-- Separators and a token: the scan finds both ends of it. -/
theorem strtokR_of_token {s : ℕ} {sep t r : List UInt8}
    (h : Reads mem s (sep ++ t ++ r)) (hsep : ∀ x ∈ sep, delim x = true) (ht : IsToken delim t)
    (hr : ∀ x ∈ r.head?, delim x = true) :
    strtokR delim mem (some s) =
      if mem.getD (s + sep.length + t.length) 0 = 0 then ⟨some (s + sep.length), none, mem⟩
      else ⟨some (s + sep.length), some (s + sep.length + t.length + 1),
        mem.set (s + sep.length + t.length) 0⟩ := by
  obtain ⟨tail, htail⟩ := h.exists_tail
  obtain ⟨c, t', rfl⟩ := List.exists_cons_of_ne_nil ht.ne_nil
  have hc : delim c = false := ht.free c List.mem_cons_self
  have hspan : (mem.drop s).takeWhile delim = sep := by
    rw [htail, List.append_assoc, List.append_assoc, List.takeWhile_append_of_pos hsep,
      List.cons_append, List.takeWhile_cons_of_neg (by simp [hc]), List.append_nil]
  have hdrop : mem.drop (s + sep.length) = c :: t' ++ (r ++ 0 :: tail) := by
    rw [← List.drop_drop, htail, List.append_assoc, List.append_assoc, List.drop_left]
  have hne : ∀ x ∈ c :: t', (x ≠ 0 && !delim x) = true := by
    intro x hx
    have h0 : x ≠ 0 := by
      rintro rfl
      exact h.noNul (List.mem_append_left _ (List.mem_append_right _ hx))
    simp [h0, ht.free x hx]
  have hscan : (mem.drop (s + sep.length)).takeWhile (fun x ↦ x ≠ 0 && !delim x) = c :: t' := by
    rw [hdrop, List.takeWhile_append_of_pos hne]
    cases r with
    | nil => simp
    | cons x r =>
      have hx : delim x = true := hr x rfl
      simp [hx]
  have hfirst : mem.getD (s + sep.length) 0 ≠ 0 := by
    have hbyte : (mem.drop (s + sep.length))[0]? = some c := by rw [hdrop]; rfl
    rw [List.getElem?_drop, Nat.add_zero] at hbyte
    rw [List.getD_eq_getElem?_getD, hbyte]
    have hc0 := hne c List.mem_cons_self
    rw [Bool.and_eq_true, decide_eq_true_eq] at hc0
    exact hc0.1
  rw [strtokR]
  simp only [hspan, hscan, if_neg hfirst]

/-- **`strtok_r` hands out the next token**, and changes only bytes between the bounds. -/
theorem strtokR_spec {lasts : Option ℕ} {t : List UInt8}
    {ts : List (List UInt8)} {lo hi : ℕ} (h : Pending delim mem lasts (t :: ts) lo hi) :
    ∃ p lasts' mem', strtokR delim mem lasts = ⟨some p, lasts', mem'⟩ ∧ Reads mem' p t ∧
      lo ≤ p ∧ p + t.length ≤ hi ∧ Pending delim mem' lasts' ts (p + t.length + 1) hi ∧
      SameOutside lo hi mem mem' := by
  obtain ⟨-, hnil⟩ | ⟨s, l, rfl, hreads, htokens, hlo, hhi⟩ := h
  · exact absurd hnil (List.cons_ne_nil _ _)
  rcases tokens_cut delim l with hall | ⟨sep, u, r, rfl, hsep, hu, hr⟩
  · rw [tokens_sep hall] at htokens
    exact absurd htokens.symm (List.cons_ne_nil _ _)
  rw [List.append_assoc, tokens_sep_append hsep] at htokens
  rw [List.length_append, List.length_append] at hhi
  have hbyte := hreads.getElem? (show sep.length + u.length < (sep ++ u ++ r ++ [0]).length by
    simp)
  rcases hr with rfl | ⟨x, r, rfl, hx⟩
  · -- the token ends the string
    rw [List.append_nil, hu.tokens_eq] at htokens
    obtain ⟨rfl, rfl⟩ := List.cons.inj htokens
    have hlast : mem.getD (s + sep.length + u.length) 0 = 0 := by
      rw [List.getD_eq_getElem?_getD, Nat.add_assoc, hbyte]
      simp
    rw [List.append_nil] at hreads
    have hrun := strtokR_of_token (by rwa [List.append_nil]) hsep hu (r := []) (by simp)
    rw [if_pos hlast] at hrun
    exact ⟨s + sep.length, none, mem, hrun, hreads.append_right, by omega, by omega,
      Or.inl ⟨rfl, rfl⟩, SameOutside.refl _ _ _⟩
  · -- a separator follows, and becomes the NUL
    rw [hu.tokens_append hx] at htokens
    obtain ⟨rfl, htokens'⟩ := List.cons.inj htokens
    rw [List.length_cons] at hhi
    have hlast : mem.getD (s + sep.length + u.length) 0 ≠ 0 := by
      have hx0 : x ≠ 0 := by
        rintro rfl
        exact hreads.noNul (by simp)
      rw [List.getD_eq_getElem?_getD, Nat.add_assoc, hbyte]
      simpa using hx0
    have hrun := strtokR_of_token hreads hsep hu (r := x :: r) (by simpa using hx)
    rw [if_neg hlast] at hrun
    have htoken : Reads mem (s + sep.length) (u ++ x :: r) := by
      rw [List.append_assoc] at hreads
      exact hreads.append_right
    have hrest : Reads mem (s + sep.length + u.length + 1) r := by
      have h' : Reads mem (s + sep.length) (u ++ [x] ++ r) := by
        rwa [List.append_assoc]
      have h'' := h'.append_right
      rwa [List.length_append, List.length_singleton, ← Nat.add_assoc] at h''
    refine ⟨s + sep.length, _, _, hrun, htoken.cut, by omega, by omega, Or.inr ?_,
      sameOutside_set (by omega) (by omega) 0⟩
    refine ⟨_, r, rfl, hrest.congr fun j hj _ ↦ ?_, htokens', le_rfl, by omega⟩
    exact List.getElem?_set_ne (by omega)

/-- Without tokens there is no token. -/
theorem strtokR_nil (hnul : delim 0 = false) {lasts : Option ℕ} {lo hi : ℕ}
    (h : Pending delim mem lasts [] lo hi) : strtokR delim mem lasts = ⟨none, none, mem⟩ := by
  obtain ⟨rfl, -⟩ | ⟨s, l, rfl, hreads, htokens, -, -⟩ := h
  · rfl
  rcases tokens_cut delim l with hall | ⟨sep, u, r, rfl, hsep, hu, hr⟩
  · exact strtokR_of_sep hnul hreads hall
  · rw [List.append_assoc, tokens_sep_append hsep] at htokens
    rcases hr with rfl | ⟨x, r, rfl, hx⟩
    · rw [List.append_nil, hu.tokens_eq] at htokens
      exact absurd htokens (List.cons_ne_nil _ _)
    · rw [hu.tokens_append hx] at htokens
      exact absurd htokens (List.cons_ne_nil _ _)

end strtok

end Dwipe

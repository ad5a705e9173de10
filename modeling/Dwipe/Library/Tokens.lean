import Mathlib.Data.List.TakeWhile
import Mathlib.Data.Nat.Notation

/-!
# Tokens

The tokens of a list are its **maximal runs** of elements that are not separators. They are the
non-empty pieces of core's `List.splitOnP`, so that a run of separators counts as one and separators
at the ends do not count.

`tokens_cut` is how a scanner sees a list: separators, a token, and either the end or a separator
with what comes behind it. In the other direction, `Renders` puts tokens together with separators
between them, and `tokens_of_renders` takes them apart again.
-/

variable {α : Type*} {d : α → Bool}

/-- The maximal runs of elements that are not separators, in order. -/
def tokens (d : α → Bool) (l : List α) : List (List α) := (l.splitOnP d).filter fun t ↦ !t.isEmpty

/-- A token: not empty, and free of separators. -/
structure IsToken (d : α → Bool) (t : List α) : Prop where
  ne_nil : t ≠ []
  free : ∀ x ∈ t, d x = false

@[simp] theorem tokens_nil : tokens d [] = [] := by
  simp [tokens]

theorem tokens_cons_sep {x : α} (hx : d x = true) (l : List α) :
    tokens d (x :: l) = tokens d l := by
  simp [tokens, List.splitOnP_cons_eq_if_modifyHead, hx]

/-- Leading separators do not count, however many there are. -/
theorem tokens_sep_append {s : List α} (hs : ∀ x ∈ s, d x = true) (l : List α) :
    tokens d (s ++ l) = tokens d l := by
  induction s with
  | nil => rfl
  | cons x s ih =>
    rw [List.cons_append, tokens_cons_sep (hs x List.mem_cons_self)]
    exact ih fun y hy ↦ hs y (List.mem_cons_of_mem x hy)

theorem tokens_sep {s : List α} (hs : ∀ x ∈ s, d x = true) : tokens d s = [] := by
  have h := tokens_sep_append hs []
  rwa [List.append_nil, tokens_nil] at h

theorem IsToken.filter_cons {t : List α} (ht : IsToken d t) (l : List (List α)) :
    (t :: l).filter (fun t ↦ !t.isEmpty) = t :: l.filter fun t ↦ !t.isEmpty :=
  List.filter_cons_of_pos (by simpa using ht.ne_nil)

/-- A token by itself. -/
theorem IsToken.tokens_eq {t : List α} (ht : IsToken d t) : tokens d t = [t] := by
  rw [tokens, List.splitOnP_eq_singleton ht.free, ht.filter_cons, List.filter_nil]

/-- A token up to a separator, which a scanner steps over. -/
theorem IsToken.tokens_append {t : List α} (ht : IsToken d t) {x : α} (hx : d x = true)
    (l : List α) : tokens d (t ++ x :: l) = t :: tokens d l := by
  rw [tokens, List.splitOnP_append_cons_of_forall_mem ht.free x hx, ht.filter_cons]
  rfl

/-- **A scanner's view**: separators only, or separators, a token, and then the end or a separator
with what comes behind it. -/
theorem tokens_cut (d : α → Bool) (l : List α) :
    (∀ x ∈ l, d x = true) ∨ ∃ s t r, l = s ++ t ++ r ∧ (∀ x ∈ s, d x = true) ∧ IsToken d t ∧
      (r = [] ∨ ∃ x l', r = x :: l' ∧ d x = true) := by
  obtain ⟨m, hm⟩ : ∃ m, m = l.dropWhile d := ⟨_, rfl⟩
  have hl : l = l.takeWhile d ++ m := by rw [hm, List.takeWhile_append_dropWhile]
  have hs : ∀ x ∈ l.takeWhile d, d x = true := fun x hx ↦ List.mem_takeWhile_imp hx
  cases hcons : m with
  | nil =>
    rw [hcons, List.append_nil] at hl
    rw [hl]
    exact Or.inl hs
  | cons c m' =>
    have hc : d c = false := by
      have hhead := List.head?_dropWhile_not d l
      rw [← hm, hcons] at hhead
      simpa using hhead
    refine Or.inr ⟨l.takeWhile d, m.takeWhile (!d ·), m.dropWhile (!d ·), ?_, hs, ⟨?_, ?_⟩, ?_⟩
    · rw [List.append_assoc, List.takeWhile_append_dropWhile]
      exact hl
    · rw [hcons, List.takeWhile_cons, hc]
      exact List.cons_ne_nil _ _
    · intro x hx
      simpa using List.mem_takeWhile_imp hx
    · have hhead := List.head?_dropWhile_not (!d ·) m
      cases hr : m.dropWhile (!d ·) with
      | nil => exact Or.inl rfl
      | cons x l' =>
        rw [hr] at hhead
        exact Or.inr ⟨x, l', rfl, by simpa using hhead⟩

/-- **Induction along a scan**: separators only, a last token, or a token in front of a separator
and the rest. -/
theorem tokens_induction {P : List α → List (List α) → Prop}
    (sep : ∀ s, (∀ x ∈ s, d x = true) → P s [])
    (last : ∀ s t, (∀ x ∈ s, d x = true) → IsToken d t → P (s ++ t) [t])
    (step : ∀ s t x l, (∀ y ∈ s, d y = true) → IsToken d t → d x = true → P l (tokens d l) →
      P (s ++ t ++ x :: l) (t :: tokens d l)) (l : List α) : P l (tokens d l) := by
  induction hn : l.length using Nat.strongRecOn generalizing l with
  | _ n ih =>
    rcases tokens_cut d l with hall | ⟨s, t, r, hl, hs, ht, hr⟩
    · rw [tokens_sep hall]
      exact sep l hall
    · rw [hl, List.append_assoc, tokens_sep_append hs, ← List.append_assoc]
      rcases hr with rfl | ⟨x, l', rfl, hx⟩
      · rw [List.append_nil, List.append_nil, ht.tokens_eq]
        exact last s t hs ht
      · rw [ht.tokens_append hx]
        refine step s t x l' hs ht hx (ih l'.length ?_ l' rfl)
        rw [← hn, hl, List.length_append, List.length_cons]
        omega

/-- There are no more tokens than elements, so a scanner needs no more rounds. -/
theorem length_tokens_le (d : α → Bool) (l : List α) : (tokens d l).length ≤ l.length := by
  refine tokens_induction (d := d) (P := fun l ts ↦ ts.length ≤ l.length) ?_ ?_ ?_ l
  · intro s _
    exact Nat.zero_le _
  · intro s t _ ht
    have htlen : 0 < t.length := List.length_pos_iff.2 ht.ne_nil
    rw [List.length_append, List.length_singleton]
    omega
  · intro s t x l _ _ _ ih
    rw [List.length_append, List.length_cons, List.length_cons]
    omega

/-- No token is longer than the list, so a bound on the list is one on its tokens. -/
theorem length_le_of_mem_tokens {l t : List α} (ht : t ∈ tokens d l) : t.length ≤ l.length := by
  revert t
  refine tokens_induction (d := d) (P := fun l ts ↦ ∀ {t}, t ∈ ts → t.length ≤ l.length) ?_ ?_ ?_ l
  · intro s _ t ht
    exact absurd ht List.not_mem_nil
  · intro s u _ _ t ht
    rw [List.mem_singleton.1 ht, List.length_append]
    omega
  · intro s u x l _ _ _ ih t ht
    rw [List.length_append, List.length_append, List.length_cons]
    rcases List.mem_cons.1 ht with rfl | ht
    · omega
    · have hle := ih ht
      omega

/-! ### Putting tokens together -/

/-- A list made of the tokens `ts` in order, with a non-empty run of separators between any two. -/
inductive Renders (d : α → Bool) : List (List α) → List α → Prop
  | nil : Renders d [] []
  | single (t : List α) : Renders d [t] t
  | cons (t s : List α) {u : List α} {ts : List (List α)} {l : List α} :
      s ≠ [] → (∀ x ∈ s, d x = true) → Renders d (u :: ts) l →
        Renders d (t :: u :: ts) (t ++ s ++ l)

/-- **Tokens put together and taken apart** are the same tokens, whatever separates them. -/
theorem tokens_of_renders {ts : List (List α)} {l : List α} (h : Renders d ts l)
    (hts : ∀ t ∈ ts, IsToken d t) : tokens d l = ts := by
  induction h with
  | nil => exact tokens_nil
  | single t => exact (hts t List.mem_cons_self).tokens_eq
  | cons t s hne hs _ ih =>
    have ht := hts t List.mem_cons_self
    obtain ⟨x, s', rfl⟩ := List.exists_cons_of_ne_nil hne
    rw [List.append_assoc, List.cons_append, ht.tokens_append (hs x List.mem_cons_self),
      tokens_sep_append fun y hy ↦ hs y (List.mem_cons_of_mem x hy),
      ih fun u hu ↦ hts u (List.mem_cons_of_mem t hu)]

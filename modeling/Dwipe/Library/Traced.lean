import Mathlib.Data.List.Basic
import Mathlib.Data.Nat.Notation

/-!
# Programs with a state and a trace

A program that reads and changes a state `σ` and leaves a list of events `ε` behind. The trace is
an **output** of the program and not a part of its state: it can only be appended to, and it is
appended to by construction, so no lemma here carries a side condition saying that a program does
not erase what was recorded before it.

Nothing in this module knows what the state or the events are. What it supplies is

* the evaluation equations (`run_pure`, `val_bind`, `state_bind`, `events_bind`, …), which turn a
  `do` block applied to a state into nested projections;
* two counted loops, `forRange` and `forExit`, the second one with an early exit, each with one
  invariant rule that carries the trace recorded so far;
* `Safe`, the safety judgement "from a state satisfying `P`, every event satisfies `Q` and the run
  ends where `R` holds", with one rule for each way of building a program;
* `Along`, the judgement "the state before, the events and the state after are related by `T`", for
  any `T` that composes. What became of a device driven by the program is followed through a run
  that way;
* `Records`, the judgement "the trace is in `T` and the returned value is in `R`", for any set of
  traces that is closed under concatenation. What is known of a value is passed on to the rest of
  the program, so a loop may carry an invariant of its variables.
-/

/-- What a run leaves behind: a value, the final state, and the events in the order in which they
were recorded. -/
@[ext] structure Traced (σ ε α : Type*) where
  /-- The returned value. -/
  val : α
  /-- The final state. -/
  state : σ
  /-- The recorded events, oldest first. -/
  events : List ε

/-- A program over the state `σ` recording events of type `ε`. -/
def TraceM (σ ε α : Type*) := σ → Traced σ ε α

namespace TraceM

universe u

variable {σ ε : Type*} {α β γ : Type u}

instance : Monad (TraceM σ ε) where
  pure a := fun s ↦ ⟨a, s, []⟩
  bind x f := fun s ↦
    ⟨(f (x s).val (x s).state).val, (f (x s).val (x s).state).state,
      (x s).events ++ (f (x s).val (x s).state).events⟩

/-- Read the state. -/
def read : TraceM σ ε σ := fun s ↦ ⟨s, s, []⟩

/-- Change the state. -/
def update (f : σ → σ) : TraceM σ ε Unit := fun s ↦ ⟨(), f s, []⟩

/-- Record one event. -/
def emit (e : ε) : TraceM σ ε Unit := fun s ↦ ⟨(), s, [e]⟩

/-- Record several events. -/
def emitAll (l : List ε) : TraceM σ ε Unit := fun s ↦ ⟨(), s, l⟩

/-! ### Evaluation -/

@[simp] theorem run_pure (a : α) (s : σ) : (pure a : TraceM σ ε α) s = ⟨a, s, []⟩ := rfl

@[simp] theorem run_read (s : σ) : (read : TraceM σ ε σ) s = ⟨s, s, []⟩ := rfl

@[simp] theorem run_update (f : σ → σ) (s : σ) :
    (update f : TraceM σ ε Unit) s = ⟨(), f s, []⟩ := rfl

@[simp] theorem run_emit (e : ε) (s : σ) : (emit e : TraceM σ ε Unit) s = ⟨(), s, [e]⟩ := rfl

@[simp] theorem run_emitAll (l : List ε) (s : σ) :
    (emitAll l : TraceM σ ε Unit) s = ⟨(), s, l⟩ := rfl

/-- The equation of `bind` as one record; the three lemmas after it are its fields. -/
theorem run_bind (x : TraceM σ ε α) (f : α → TraceM σ ε β) (s : σ) :
    (x >>= f) s = ⟨(f (x s).val (x s).state).val, (f (x s).val (x s).state).state,
      (x s).events ++ (f (x s).val (x s).state).events⟩ := rfl

@[simp] theorem val_bind (x : TraceM σ ε α) (f : α → TraceM σ ε β) (s : σ) :
    ((x >>= f) s).val = (f (x s).val (x s).state).val := rfl

@[simp] theorem state_bind (x : TraceM σ ε α) (f : α → TraceM σ ε β) (s : σ) :
    ((x >>= f) s).state = (f (x s).val (x s).state).state := rfl

@[simp] theorem events_bind (x : TraceM σ ε α) (f : α → TraceM σ ε β) (s : σ) :
    ((x >>= f) s).events = (x s).events ++ (f (x s).val (x s).state).events := rfl

/-- A conditional program run from `s`. -/
@[simp] theorem run_ite (c : Prop) [Decidable c] (x y : TraceM σ ε α) (s : σ) :
    (if c then x else y) s = if c then x s else y s := by
  split <;> rfl

/-! ### Counted loops -/

/-- `n` more rounds of `body`, the next of them being round `i`. -/
def forFrom (body : ℕ → β → TraceM σ ε β) : ℕ → ℕ → β → TraceM σ ε β
  | 0, _, b => pure b
  | n + 1, i, b => body i b >>= forFrom body n (i + 1)

/-- `for (i = 0; i < n; i++) b = body(i, b)`. -/
def forRange (n : ℕ) (b : β) (body : ℕ → β → TraceM σ ε β) : TraceM σ ε β :=
  forFrom body n 0 b

/-- As `forFrom`, but a round that answers `.error r` leaves the loop with `r`. -/
def exitFrom (body : ℕ → β → TraceM σ ε (Except γ β)) : ℕ → ℕ → β → TraceM σ ε (Except γ β)
  | 0, _, b => pure (.ok b)
  | n + 1, i, b => do
    match ← body i b with
    | .ok b' => exitFrom body n (i + 1) b'
    | .error r => pure (.error r)

/-- A counted loop whose body may leave it: by `goto`, `break` or `return` in the source. -/
def forExit (n : ℕ) (b : β) (body : ℕ → β → TraceM σ ε (Except γ β)) :
    TraceM σ ε (Except γ β) :=
  exitFrom body n 0 b

@[simp] theorem forFrom_zero (body : ℕ → β → TraceM σ ε β) (i : ℕ) (b : β) :
    forFrom body 0 i b = pure b := rfl

theorem forFrom_succ (body : ℕ → β → TraceM σ ε β) (n i : ℕ) (b : β) :
    forFrom body (n + 1) i b = body i b >>= forFrom body n (i + 1) := rfl

theorem forFrom_succ_last (body : ℕ → β → TraceM σ ε β) (n : ℕ) :
    ∀ (i : ℕ) (b : β) (s : σ),
      forFrom body (n + 1) i b s = (forFrom body n i b >>= body (i + n)) s := by
  induction n with
  | zero =>
    intro i b s
    simp [forFrom_succ, run_bind]
  | succ n ih =>
    intro i b s
    have hidx : i + 1 + n = i + (n + 1) := by omega
    rw [forFrom_succ, run_bind, ih (i + 1), hidx]
    simp only [forFrom_succ, run_bind, List.append_assoc]

/-- The last round of a counted loop. -/
theorem forRange_succ (n : ℕ) (b : β) (body : ℕ → β → TraceM σ ε β) (s : σ) :
    forRange (n + 1) b body s = (forRange n b body >>= body n) s := by
  have h := forFrom_succ_last body n 0 b s
  rwa [Nat.zero_add] at h

/-- **The invariant rule for `forFrom`.** `P i b s l` says that before round `i` the loop variable
is `b`, the state is `s`, and `l` is what the rounds so far have recorded. -/
theorem forFrom_invariant {body : ℕ → β → TraceM σ ε β} (P : ℕ → β → σ → List ε → Prop) {N : ℕ}
    (step : ∀ i b s l, i < N → P i b s l →
      P (i + 1) (body i b s).val (body i b s).state (l ++ (body i b s).events)) :
    ∀ (n i : ℕ) (b : β) (s : σ) (l : List ε), i + n = N → P i b s l →
      P N (forFrom body n i b s).val (forFrom body n i b s).state
        (l ++ (forFrom body n i b s).events) := by
  intro n
  induction n with
  | zero =>
    intro i b s l hi h
    obtain rfl : i = N := by omega
    simpa using h
  | succ n ih =>
    intro i b s l hi h
    have hstep := step i b s l (by omega) h
    have hrest := ih (i + 1) _ _ _ (by omega) hstep
    rw [List.append_assoc] at hrest
    exact hrest

/-- **The invariant rule for `forRange`.** -/
theorem forRange_invariant {body : ℕ → β → TraceM σ ε β} (P : ℕ → β → σ → List ε → Prop)
    {n : ℕ} {b : β} {s : σ} (init : P 0 b s [])
    (step : ∀ i b s l, i < n → P i b s l →
      P (i + 1) (body i b s).val (body i b s).state (l ++ (body i b s).events)) :
    P n (forRange n b body s).val (forRange n b body s).state (forRange n b body s).events := by
  have h := forFrom_invariant P step n 0 b s [] (by omega) init
  rwa [List.nil_append] at h

/-- The verdict of an early-exit loop: `P` at the end of the count, or `Q` at the exit. -/
def ExitPost (P : β → σ → List ε → Prop) (Q : γ → σ → List ε → Prop) (l : List ε) :
    Traced σ ε (Except γ β) → Prop
  | ⟨.ok b, s, es⟩ => P b s (l ++ es)
  | ⟨.error r, s, es⟩ => Q r s (l ++ es)

theorem exitPost_of_ok {P : β → σ → List ε → Prop} {Q : γ → σ → List ε → Prop} {l : List ε}
    {t : Traced σ ε (Except γ β)} {b : β} (ht : t.val = .ok b) (h : P b t.state (l ++ t.events)) :
    ExitPost P Q l t := by
  rcases t with ⟨v, s, es⟩
  obtain rfl : v = .ok b := ht
  exact h

theorem exitPost_of_error {P : β → σ → List ε → Prop} {Q : γ → σ → List ε → Prop} {l : List ε}
    {t : Traced σ ε (Except γ β)} {r : γ} (ht : t.val = .error r)
    (h : Q r t.state (l ++ t.events)) : ExitPost P Q l t := by
  rcases t with ⟨v, s, es⟩
  obtain rfl : v = .error r := ht
  exact h

theorem ExitPost.of_ok {P : β → σ → List ε → Prop} {Q : γ → σ → List ε → Prop} {l : List ε}
    {t : Traced σ ε (Except γ β)} (h : ExitPost P Q l t) {b : β} (ht : t.val = .ok b) :
    P b t.state (l ++ t.events) := by
  rcases t with ⟨v, s, es⟩
  obtain rfl : v = .ok b := ht
  exact h

theorem ExitPost.of_error {P : β → σ → List ε → Prop} {Q : γ → σ → List ε → Prop} {l : List ε}
    {t : Traced σ ε (Except γ β)} (h : ExitPost P Q l t) {r : γ} (ht : t.val = .error r) :
    Q r t.state (l ++ t.events) := by
  rcases t with ⟨v, s, es⟩
  obtain rfl : v = .error r := ht
  exact h

/-- **The invariant rule for `exitFrom`.** The invariant `P` is kept by the rounds that go on, and
`Q` is what a round that leaves establishes. -/
theorem exitFrom_invariant {body : ℕ → β → TraceM σ ε (Except γ β)}
    (P : ℕ → β → σ → List ε → Prop) (Q : γ → σ → List ε → Prop) {N : ℕ}
    (step : ∀ i b s l, i < N → P i b s l → ExitPost (P (i + 1)) Q l (body i b s)) :
    ∀ (n i : ℕ) (b : β) (s : σ) (l : List ε), i + n = N → P i b s l →
      ExitPost (P N) Q l (exitFrom body n i b s) := by
  intro n
  induction n with
  | zero =>
    intro i b s l hi h
    obtain rfl : i = N := by omega
    simpa [exitFrom, ExitPost] using h
  | succ n ih =>
    intro i b s l hi h
    have hstep := step i b s l (by omega) h
    rcases hb : body i b s with ⟨v, s', es⟩
    rw [hb] at hstep
    cases v with
    | error r =>
      simpa [exitFrom, run_bind, hb, ExitPost] using hstep
    | ok b' =>
      have hrest := ih (i + 1) b' s' (l ++ es) (by omega) hstep
      rcases hr : exitFrom body n (i + 1) b' s' with ⟨v', s'', es'⟩
      rw [hr] at hrest
      have hrun : exitFrom body (n + 1) i b s = ⟨v', s'', es ++ es'⟩ := by
        simp [exitFrom, run_bind, hb, hr]
      rw [hrun]
      cases v' <;> simpa [ExitPost, List.append_assoc] using hrest

/-- **The invariant rule for `forExit`**, after events `l` that came before the loop. -/
theorem forExit_invariant {body : ℕ → β → TraceM σ ε (Except γ β)}
    (P : ℕ → β → σ → List ε → Prop) (Q : γ → σ → List ε → Prop) {n : ℕ} {b : β} {s : σ}
    {l : List ε} (init : P 0 b s l)
    (step : ∀ i b s l, i < n → P i b s l → ExitPost (P (i + 1)) Q l (body i b s)) :
    ExitPost (P n) Q l (forExit n b body s) :=
  exitFrom_invariant P Q step n 0 b s l (by omega) init

/-! ### Every event satisfies a predicate -/

/-- Started where `P` holds, the program records only events satisfying `Q` and ends where `R`
holds. -/
def Safe (P : σ → Prop) (Q : ε → Prop) (R : σ → Prop) (x : TraceM σ ε α) : Prop :=
  ∀ s, P s → R (x s).state ∧ ∀ e ∈ (x s).events, Q e

section Safe

variable {P R S : σ → Prop} {Q Q' : ε → Prop}

theorem Safe.mono {P' R' : σ → Prop} {x : TraceM σ ε α} (h : Safe P Q R x) (hP : ∀ s, P' s → P s)
    (hQ : ∀ e, Q e → Q' e) (hR : ∀ s, R s → R' s) : Safe P' Q' R' x := by
  intro s hs
  obtain ⟨hpost, hev⟩ := h s (hP s hs)
  exact ⟨hR _ hpost, fun e he ↦ hQ e (hev e he)⟩

theorem safe_pure (a : α) : Safe P Q P (pure a : TraceM σ ε α) := by
  intro s hs
  exact ⟨hs, by simp⟩

theorem safe_read : Safe P Q P (read : TraceM σ ε σ) := by
  intro s hs
  exact ⟨hs, by simp⟩

theorem safe_update {f : σ → σ} (h : ∀ s, P s → R (f s)) :
    Safe P Q R (update f : TraceM σ ε Unit) := by
  intro s hs
  exact ⟨h s hs, by simp⟩

theorem safe_emit {e : ε} (h : Q e) : Safe P Q P (emit e : TraceM σ ε Unit) := by
  intro s hs
  exact ⟨hs, by simpa using h⟩

theorem safe_emitAll {l : List ε} (h : ∀ e ∈ l, Q e) :
    Safe P Q P (emitAll l : TraceM σ ε Unit) :=
  fun _ hs ↦ ⟨hs, h⟩

theorem Safe.bind {x : TraceM σ ε α} {f : α → TraceM σ ε β} (hx : Safe P Q R x)
    (hf : ∀ a, Safe R Q S (f a)) : Safe P Q S (x >>= f) := by
  intro s hs
  obtain ⟨hmid, hev⟩ := hx s hs
  obtain ⟨hpost, hev'⟩ := hf (x s).val _ hmid
  refine ⟨hpost, fun e he ↦ ?_⟩
  rw [events_bind, List.mem_append] at he
  rcases he with he | he
  · exact hev e he
  · exact hev' e he

theorem Safe.ite {c : Prop} [Decidable c] {x y : TraceM σ ε α}
    (hx : c → Safe P Q R x) (hy : ¬c → Safe P Q R y) : Safe P Q R (if c then x else y) := by
  split
  · next h => exact hx h
  · next h => exact hy h

theorem Safe.forFrom {body : ℕ → β → TraceM σ ε β} (h : ∀ i b, Safe P Q P (body i b)) :
    ∀ n i b, Safe P Q P (forFrom body n i b)
  | 0, _, b => safe_pure b
  | n + 1, i, b => (h i b).bind fun b' ↦ Safe.forFrom h n (i + 1) b'

/-- **A loop is safe when its body is.** -/
theorem Safe.forRange {body : ℕ → β → TraceM σ ε β} (h : ∀ i b, Safe P Q P (body i b))
    (n : ℕ) (b : β) : Safe P Q P (forRange n b body) :=
  Safe.forFrom h n 0 b

theorem Safe.exitFrom {body : ℕ → β → TraceM σ ε (Except γ β)}
    (h : ∀ i b, Safe P Q P (body i b)) : ∀ n i b, Safe P Q P (exitFrom body n i b)
  | 0, _, b => safe_pure (Except.ok b)
  | n + 1, i, b => (h i b).bind fun v ↦
    match v with
    | .ok b' => Safe.exitFrom h n (i + 1) b'
    | .error r => safe_pure (Except.error r)

theorem Safe.forExit {body : ℕ → β → TraceM σ ε (Except γ β)}
    (h : ∀ i b, Safe P Q P (body i b)) (n : ℕ) (b : β) : Safe P Q P (forExit n b body) :=
  Safe.exitFrom h n 0 b

end Safe

/-! ### Relations along the trace -/

/-- A relation between the state before a run, its events and the state after it. If two runs that
follow each other satisfy it, so do the two together. -/
structure Composes (T : σ → List ε → σ → Prop) : Prop where
  refl : ∀ s, T s [] s
  trans : ∀ {s s' s'' : σ} {l l' : List ε}, T s l s' → T s' l' s'' → T s (l ++ l') s''

/-- Every run of the program satisfies the relation. -/
def Along (T : σ → List ε → σ → Prop) (x : TraceM σ ε α) : Prop :=
  ∀ s, T s (x s).events (x s).state

section Along

variable {T : σ → List ε → σ → Prop}

theorem along_pure (hT : Composes T) (a : α) : Along T (pure a : TraceM σ ε α) :=
  fun s ↦ hT.refl s

theorem along_read (hT : Composes T) : Along T (read : TraceM σ ε σ) := fun s ↦ hT.refl s

theorem along_update {f : σ → σ} (h : ∀ s, T s [] (f s)) :
    Along T (update f : TraceM σ ε Unit) := h

theorem along_emit {e : ε} (h : ∀ s, T s [e] s) : Along T (emit e : TraceM σ ε Unit) := h

theorem along_emitAll (hT : Composes T) {l : List ε} (h : ∀ e ∈ l, ∀ s, T s [e] s) :
    Along T (emitAll l : TraceM σ ε Unit) := by
  intro s
  show T s l s
  induction l with
  | nil => exact hT.refl s
  | cons e l ih =>
    exact hT.trans (h e List.mem_cons_self s) (ih fun d hd ↦ h d (List.mem_cons_of_mem _ hd))

theorem Along.bind (hT : Composes T) {x : TraceM σ ε α} {f : α → TraceM σ ε β} (hx : Along T x)
    (hf : ∀ a, Along T (f a)) : Along T (x >>= f) :=
  fun s ↦ hT.trans (hx s) (hf _ _)

theorem Along.ite {c : Prop} [Decidable c] {x y : TraceM σ ε α} (hx : Along T x)
    (hy : Along T y) : Along T (if c then x else y) := by
  split
  · exact hx
  · exact hy

theorem Along.forFrom (hT : Composes T) {body : ℕ → β → TraceM σ ε β}
    (h : ∀ i b, Along T (body i b)) : ∀ n i b, Along T (forFrom body n i b)
  | 0, _, b => along_pure hT b
  | n + 1, i, b => (h i b).bind hT fun b' ↦ Along.forFrom hT h n (i + 1) b'

/-- **A loop is along `T` when its body is.** -/
theorem Along.forRange (hT : Composes T) {body : ℕ → β → TraceM σ ε β}
    (h : ∀ i b, Along T (body i b)) (n : ℕ) (b : β) : Along T (forRange n b body) :=
  Along.forFrom hT h n 0 b

theorem Along.exitFrom (hT : Composes T) {body : ℕ → β → TraceM σ ε (Except γ β)}
    (h : ∀ i b, Along T (body i b)) : ∀ n i b, Along T (exitFrom body n i b)
  | 0, _, b => along_pure hT (Except.ok b)
  | n + 1, i, b => (h i b).bind hT fun v ↦
    match v with
    | .ok b' => Along.exitFrom hT h n (i + 1) b'
    | .error r => along_pure hT (Except.error r)

theorem Along.forExit (hT : Composes T) {body : ℕ → β → TraceM σ ε (Except γ β)}
    (h : ∀ i b, Along T (body i b)) (n : ℕ) (b : β) : Along T (forExit n b body) :=
  Along.exitFrom hT h n 0 b

end Along

/-! ### Traces closed under concatenation -/

/-- The set of traces contains the empty one, and with two traces the one after the other. -/
structure Appends (T : List ε → Prop) : Prop where
  nil : T []
  append : ∀ {l l' : List ε}, T l → T l' → T (l ++ l')

/-- A trace is in `T` if each of its events is. -/
theorem Appends.of_forall {T : List ε → Prop} (hT : Appends T) {l : List ε}
    (h : ∀ e ∈ l, T [e]) : T l := by
  induction l with
  | nil => exact hT.nil
  | cons e l ih =>
    exact hT.append (h e List.mem_cons_self) (ih fun d hd ↦ h d (List.mem_cons_of_mem _ hd))

theorem appends_forall (Q : ε → Prop) : Appends fun l : List ε ↦ ∀ e ∈ l, Q e where
  nil _ h := absurd h List.not_mem_nil
  append h h' e he := (List.mem_append.1 he).elim (h e) (h' e)

/-- Every run of the program records a trace in `T` and returns a value in `R`. -/
def Records (T : List ε → Prop) (R : α → Prop) (x : TraceM σ ε α) : Prop :=
  ∀ s, T (x s).events ∧ R (x s).val

/-- What an early-exit loop may return: a loop variable in `P`, or an exit value in `Q`. -/
def Either (P : β → Prop) (Q : γ → Prop) : Except γ β → Prop
  | .ok b => P b
  | .error r => Q r

section Records

variable {T : List ε → Prop} {R R' : α → Prop} {S : β → Prop}

theorem Records.mono {x : TraceM σ ε α} (h : Records T R x) (hR : ∀ a, R a → R' a) :
    Records T R' x :=
  fun s ↦ ⟨(h s).1, hR _ (h s).2⟩

theorem Records.val {x : TraceM σ ε α} (h : Records T R x) (hv : ∀ s, R' (x s).val) :
    Records T (fun a ↦ R a ∧ R' a) x :=
  fun s ↦ ⟨(h s).1, (h s).2, hv s⟩

theorem records_pure (hT : Appends T) {a : α} (h : R a) : Records T R (pure a : TraceM σ ε α) :=
  fun _ ↦ ⟨hT.nil, h⟩

theorem records_read (hT : Appends T) : Records T (fun _ ↦ True) (read : TraceM σ ε σ) :=
  fun _ ↦ ⟨hT.nil, trivial⟩

theorem records_update (hT : Appends T) (f : σ → σ) :
    Records T (fun _ ↦ True) (update f : TraceM σ ε Unit) :=
  fun _ ↦ ⟨hT.nil, trivial⟩

theorem records_emit {e : ε} (h : T [e]) :
    Records T (fun _ ↦ True) (emit e : TraceM σ ε Unit) :=
  fun _ ↦ ⟨h, trivial⟩

theorem records_emitAll {l : List ε} (h : T l) :
    Records T (fun _ ↦ True) (emitAll l : TraceM σ ε Unit) :=
  fun _ ↦ ⟨h, trivial⟩

theorem Records.bind (hT : Appends T) {x : TraceM σ ε α} {f : α → TraceM σ ε β}
    (hx : Records T R x) (hf : ∀ a, R a → Records T S (f a)) : Records T S (x >>= f) := by
  intro s
  obtain ⟨hev, hval⟩ := hx s
  obtain ⟨hev', hval'⟩ := hf _ hval (x s).state
  exact ⟨hT.append hev hev', hval'⟩

theorem Records.ite {c : Prop} [Decidable c] {x y : TraceM σ ε α} (hx : c → Records T R x)
    (hy : ¬c → Records T R y) : Records T R (if c then x else y) := by
  split
  · next h => exact hx h
  · next h => exact hy h

theorem Records.forFrom (hT : Appends T) {body : ℕ → β → TraceM σ ε β}
    (h : ∀ i b, S b → Records T S (body i b)) : ∀ n i b, S b → Records T S (forFrom body n i b)
  | 0, _, _, hb => records_pure hT hb
  | n + 1, i, b, hb => (h i b hb).bind hT fun b' hb' ↦ Records.forFrom hT h n (i + 1) b' hb'

/-- **A loop records what its body records**, with an invariant `S` of the loop variable. -/
theorem Records.forRange (hT : Appends T) {body : ℕ → β → TraceM σ ε β}
    (h : ∀ i b, S b → Records T S (body i b)) (n : ℕ) {b : β} (hb : S b) :
    Records T S (forRange n b body) :=
  Records.forFrom hT h n 0 b hb

theorem Records.exitFrom (hT : Appends T) {body : ℕ → β → TraceM σ ε (Except γ β)}
    {P : ℕ → β → Prop} {Q : γ → Prop} {N : ℕ}
    (h : ∀ i < N, ∀ b, P i b → Records T (Either (P (i + 1)) Q) (body i b)) :
    ∀ n i b, i + n = N → P i b → Records T (Either (P N) Q) (exitFrom body n i b) := by
  intro n
  induction n with
  | zero =>
    intro i b hi hb
    obtain rfl : i = N := by omega
    exact records_pure hT hb
  | succ n ih =>
    intro i b hi hb
    refine (h i (by omega) b hb).bind hT fun v hv ↦ ?_
    cases v with
    | ok b' => exact ih (i + 1) b' (by omega) hv
    | error r => exact records_pure hT hv

/-- **A loop with an early exit**: `P i` is the invariant before round `i`, and `Q` is what an exit
returns. -/
theorem Records.forExit (hT : Appends T) {body : ℕ → β → TraceM σ ε (Except γ β)}
    {P : ℕ → β → Prop} {Q : γ → Prop} {n : ℕ}
    (h : ∀ i < n, ∀ b, P i b → Records T (Either (P (i + 1)) Q) (body i b)) {b : β} (hb : P 0 b) :
    Records T (Either (P n) Q) (forExit n b body) :=
  Records.exitFrom hT h n 0 b (by omega) hb

end Records

end TraceM

import Dwipe.Library.Polling
import Mathlib.Algebra.Group.Int.Defs
import Mathlib.Algebra.Group.Nat.Defs
import Mathlib.Data.List.Basic

/-!
# The serial line

The driver of `serial.c`, and `_write` of the C library port, against a UART. The UART sends on its
own: a byte stored into the transmit register waits there until the shift register is free, is
shifted out, and is then on the line. How long that takes is not the program's to decide: `Wire`
says how many byte times pass before each access to a port, what the receiving side puts into the
bits and registers the program reads but does not act on, and what becomes of a byte whose speed or
format is changed while it is shifted out.

A byte stored while there is no room behind the waiting ones **replaces** one, a byte stored while
the divisor latch is selected goes into the divisor, and a byte shifted out with the break bit set
is lost. None of this is excluded by the UART; that it does not happen to the program's own bytes is
the driver's merit (`WAIT_FOR_XMITR`, `serial_echo_init`).

**The modem control register is not the driver's.** With its loopback bit set the bytes go to the
receiver and the line stays silent; `serial_echo_init` does not store to the register, so what the
driver does for the line it does for a UART that was not left in loopback (`Uart.Ready`). The FIFO
may be on or off.
-/

namespace Dwipe

/-! ### The UART -/

/-- A UART, as far as the driver touches it or depends on it. -/
structure Uart where
  /-- Line control; its top bit selects the divisor latch, the one below it is the break. -/
  lcr : UInt8
  ier : UInt8
  dll : UInt8
  dlm : UInt8
  /-- Modem control; bit 4 is the loopback. -/
  mcr : UInt8
  /-- How many bytes may wait behind the first one: none without the FIFO. -/
  spare : ℕ
  /-- The bytes that wait in the transmit register, or in its FIFO. -/
  thr : List UInt8
  /-- The shift register. -/
  shift : Option UInt8
  /-- What has been sent. -/
  line : List UInt8

/-- The surroundings of the UART: all that the program does not decide, by the number of the
access. -/
structure Wire where
  /-- The byte times that pass before access number `k`. -/
  sched : ℕ → ℕ
  /-- What the receiver contributes to what access number `k` reads. -/
  noise : ℕ → UInt8
  /-- What becomes of a byte under way when access number `k` changes its speed or format. -/
  spoil : ℕ → UInt8 → UInt8

namespace Uart

/-- The divisor latch is selected: registers 0 and 1 are then the divisor. -/
def dlab (u : Uart) : Bool := u.lcr &&& 0x80 != 0

/-- The output is held at break level, whatever is shifted out meanwhile. -/
def brk (u : Uart) : Bool := u.lcr &&& 0x40 != 0

/-- `UART_MCR_LOOP` is set: what is shifted out goes to the receiver, and not to the line. -/
def loopback (u : Uart) : Bool := u.mcr &&& 0x10 != 0

/-- What a byte that has been shifted out puts on the line: its low five to eight bits, by the word
length, and nothing during a break or in loopback. -/
def sent (u : Uart) (b : UInt8) : List UInt8 :=
  if u.loopback || u.brk then [] else [b &&& (0xFF >>> (3 - (u.lcr &&& 3)))]

/-- One byte time: the shift register is emptied onto the line, and takes the next byte. -/
def advance (u : Uart) : Uart :=
  match u.shift, u.thr with
  | some b, t => { u with line := u.line ++ u.sent b, shift := t.head?, thr := t.tail }
  | none, b :: t => { u with shift := some b, thr := t }
  | none, [] => u

/-- The transmitter bits of the line status: `UART_LSR_THRE` and `UART_LSR_TEMT`. -/
def empties (u : Uart) : UInt8 :=
  if u.thr = [] then if u.shift = none then 0x60 else 0x20 else 0

/-- The value of a register. Of the line status only the two bits of the transmitter are the
model's; the rest is the receiver's. -/
def read (u : Uart) (noise : UInt8) : ℕ → UInt8
  | 0 => if u.dlab then u.dll else noise
  | 1 => if u.dlab then u.dlm else u.ier
  | 3 => u.lcr
  | 4 => u.mcr
  | 5 => noise &&& 0x9F ||| u.empties
  | _ => noise

/-- The UART once the byte under way has been spoiled. -/
def disturb (u : Uart) (spoil : UInt8 → UInt8) : Uart := { u with shift := u.shift.map spoil }

/-- A store to a register. A store to the divisor or to the line control disturbs the byte under
way; a byte stored to a full transmitter replaces the last one waiting. -/
def write (u : Uart) (spoil : UInt8 → UInt8) (v : UInt8) : ℕ → Uart
  | 0 =>
    if u.dlab then { u.disturb spoil with dll := v }
    else if u.thr.length ≤ u.spare then { u with thr := u.thr ++ [v] }
    else { u with thr := u.thr.dropLast ++ [v] }
  | 1 => if u.dlab then { u.disturb spoil with dlm := v } else { u with ier := v }
  | 3 => { u.disturb spoil with lcr := v }
  | 4 => { u with mcr := v }
  | _ => u

/-- The bytes still to be sent, the one under way first. -/
def pending (u : Uart) : List UInt8 := u.shift.toList ++ u.thr

/-- **The stream**: what has been sent and what is still to be sent, in this order. -/
def stream (u : Uart) : List UInt8 := u.line ++ u.pending

/-- The bytes still to be sent, each with the places it has to go through. -/
def load (u : Uart) : ℕ := 2 * u.thr.length + u.shift.toList.length

/-- The format the driver sets, and the line at the output. -/
structure Ready (u : Uart) : Prop where
  lcr : u.lcr = 3
  output : u.loopback = false

theorem Ready.dlab {u : Uart} (h : u.Ready) : u.dlab = false := by
  rw [Uart.dlab, h.lcr]
  rfl

/-- **A UART that is set up puts whole bytes on the line.** -/
theorem Ready.sent {u : Uart} (h : u.Ready) (b : UInt8) : u.sent b = [b] := by
  have hbrk : u.brk = false := by
    rw [brk, h.lcr]
    rfl
  have hmask : b &&& (0xFF >>> (3 - ((3 : UInt8) &&& 3))) = b := by
    have hfull : (0xFF : UInt8) >>> (3 - ((3 : UInt8) &&& 3)) = -1 := by decide
    rw [hfull]
    exact UInt8.and_neg_one
  rw [Uart.sent, h.output, hbrk, h.lcr, hmask]
  rfl

theorem Ready.advance {u : Uart} (h : u.Ready) : u.advance.Ready := by
  rcases u with ⟨lcr, ier, dll, dlm, mcr, spare, _ | ⟨c, t⟩, _ | b, line⟩ <;>
    exact ⟨h.lcr, h.output⟩

/-- **Time moves no byte out of the stream**: what leaves the transmitter is on the line. -/
theorem Ready.stream_advance {u : Uart} (h : u.Ready) : u.advance.stream = u.stream := by
  have hsent := h.sent
  rcases u with ⟨lcr, ier, dll, dlm, mcr, spare, _ | ⟨c, t⟩, _ | b, line⟩ <;>
    simp [Uart.advance, stream, pending, hsent]

theorem drains : Polling.Drains advance load := by
  rintro ⟨lcr, ier, dll, dlm, mcr, spare, _ | ⟨c, t⟩, shift, line⟩
  · rcases shift with _ | b <;> simp [advance, load]
  · rcases shift with _ | b
    · show 2 * t.length + 1 ≤ 2 * (t.length + 1) + 0 - 1
      omega
    · show 2 * t.length + 1 ≤ 2 * (t.length + 1) + 1 - 1
      omega

theorem load_eq_zero_iff {u : Uart} : u.load = 0 ↔ u.thr = [] ∧ u.shift = none := by
  rcases u with ⟨lcr, ier, dll, dlm, mcr, spare, _ | ⟨c, t⟩, _ | b, line⟩ <;> simp [load]

/-- The bits the driver waits for say that nothing is left to be sent. -/
theorem read_lsr (u : Uart) (noise : UInt8) :
    u.read noise 5 &&& 0x60 = 0x60 ↔ u.load = 0 := by
  have hbits : u.read noise 5 &&& 0x60 = u.empties := by
    have hnoise : noise &&& 0x9F &&& 0x60 = 0 := by
      rw [UInt8.and_assoc]
      exact UInt8.and_zero
    have hempties : u.empties &&& 0x60 = u.empties := by
      rw [empties]
      split_ifs <;> rfl
    have hsplit : (noise &&& 0x9F ||| u.empties) &&& 0x60 =
        noise &&& 0x9F &&& 0x60 ||| u.empties &&& 0x60 := by
      apply UInt8.toNat_inj.1
      simp only [UInt8.toNat_and, UInt8.toNat_or, Nat.and_or_distrib_right]
    show (noise &&& 0x9F ||| u.empties) &&& 0x60 = u.empties
    rw [hsplit, hnoise, hempties, UInt8.zero_or]
  rw [hbits, load_eq_zero_iff, empties]
  split_ifs with hthr hshift
  · exact ⟨fun _ ↦ ⟨hthr, hshift⟩, fun _ ↦ rfl⟩
  · exact ⟨fun h ↦ absurd h (by decide), fun h ↦ absurd h.2 hshift⟩
  · exact ⟨fun h ↦ absurd h (by decide), fun h ↦ absurd h.1 hthr⟩

/-- **A byte stored into an idle transmitter** is put at the end of the stream. -/
theorem stream_write_idle {u : Uart} (h : u.load = 0) (hdlab : u.dlab = false)
    (f : UInt8 → UInt8) (v : UInt8) :
    u.write f v 0 = { u with thr := [v] } ∧ (u.write f v 0).stream = u.stream ++ [v] := by
  obtain ⟨hthr, hshift⟩ := load_eq_zero_iff.1 h
  have hwrite : u.write f v 0 = { u with thr := [v] } := by
    simp [write, hdlab, hthr]
  exact ⟨hwrite, by simp [hwrite, stream, pending, hthr, hshift]⟩

end Uart

/-! ### Ports -/

/-- The UART, and how often its ports have been accessed. -/
structure Tty where
  uart : Uart
  accesses : ℕ

variable (w : Wire)

/-- The UART when its ports are accessed next, after the time that passes until then. -/
def Tty.now (t : Tty) : Uart := Uart.advance^[w.sched t.accesses] t.uart

/-- `serial_echo_inb`. -/
def inb (a : ℕ) (t : Tty) : UInt8 × Tty :=
  ((t.now w).read (w.noise t.accesses) a, ⟨t.now w, t.accesses + 1⟩)

/-- `serial_echo_outb`. -/
def outb (v : UInt8) (a : ℕ) (t : Tty) : Tty :=
  ⟨(t.now w).write (w.spoil t.accesses) v a, t.accesses + 1⟩

/-! ### `serial.c` -/

/-- `serial_parity | (serial_bits - 5)`. -/
def serialLcr : UInt8 := 0 ||| (8 - 5)

/-- `115200 / serial_baud_rate`. -/
def serialDiv : ℕ := 115200 / 9600

/-- `serial_echo_init`: line control, divisor and interrupt enables, by stores the C code makes
without waiting for what is under way. -/
def serialEchoInit (t : Tty) : Tty :=
  let (comstat, t) := inb w 3 t
  let t := outb w (comstat ||| 0x80) 3 t
  let t := (inb w 1 t).2
  let t := (inb w 0 t).2
  let t := outb w comstat 3 t
  let t := outb w serialLcr 3 t
  let t := outb w (0x80 ||| serialLcr) 3 t
  let t := outb w (UInt8.ofNat (serialDiv % 256)) 0 t
  let t := outb w (UInt8.ofNat (serialDiv / 256 % 256)) 1 t
  let t := outb w serialLcr 3 t
  let t := (inb w 5 t).2
  let t := (inb w 0 t).2
  outb w 0 1 t

/-- `WAIT_FOR_XMITR`, with at most `n` looks at the line status. -/
def waitForXmitr : ℕ → Tty → Option Tty
  | 0, _ => none
  | n + 1, t =>
    if (inb w 5 t).1 &&& 0x60 = 0x60 then some (inb w 5 t).2 else waitForXmitr n (inb w 5 t).2

/-- `serial_echo`: waits until the transmitter is empty, and stores the byte, which is then under
way when the call returns. -/
def serialEcho (n : ℕ) (ch : UInt8) (t : Tty) : Option Tty := do
  let t ← waitForXmitr w n t
  return outb w ch 0 t

/-- The loop of `_write`, byte by byte; it does not return if one of the waits does not. -/
def echoEach (n : ℕ) (l : List UInt8) (t : Tty) : Option Tty :=
  l.foldlM (fun t ch ↦ serialEcho w n ch t) t

/-- What `_write` does to `errno`, and its result. Only the two output files are written. -/
structure WriteResult where
  ret : ℤ
  /-- `EBADF` was stored. -/
  ebadf : Bool
  deriving DecidableEq

/-- `_write`. -/
def writeFile (n : ℕ) (file : ℤ) (ptr : List UInt8) (t : Tty) : Option (WriteResult × Tty) := do
  if file = 1 ∨ file = 2 then
    let t ← echoEach w n ptr t
    return (⟨ptr.length, false⟩, t)
  else return (⟨-1, true⟩, t)

/-! ### What the driver does -/

/-- **Any amount of time** leaves a UART that is set up as it is, and its stream. -/
theorem Tty.now_ready {t : Tty} (h : t.uart.Ready) :
    (t.now w).Ready ∧ (t.now w).stream = t.uart.stream :=
  Polling.iterate_invariant (P := fun u : Uart ↦ u.Ready ∧ u.stream = t.uart.stream)
    (fun _ hu ↦ ⟨hu.1.advance, hu.1.stream_advance.trans hu.2⟩) _ ⟨h, rfl⟩

/-- **The wait is a poll of the UART until it is idle.** -/
theorem waitForXmitr_eq_poll (n : ℕ) (t : Tty) :
    waitForXmitr w n t =
      (Polling.poll Uart.advance (fun u ↦ u.load = 0) w.sched n t.accesses t.uart).map
        fun r ↦ ⟨r.2, r.1⟩ := by
  induction n generalizing t with
  | zero => rfl
  | succ n ih =>
    have hlook : (inb w 5 t).1 &&& 0x60 = 0x60 ↔ (t.now w).load = 0 := Uart.read_lsr _ _
    rw [waitForXmitr, Polling.poll]
    show _ = Option.map _ (if decide ((t.now w).load = 0) = true then _ else _)
    simp only [hlook, decide_eq_true_eq]
    split_ifs with hidle
    · rfl
    · exact ih _

/-- **The line works**: `p` ends for all large enough numbers of looks, and it puts `bytes` at the
end of the stream, whatever the stream was. It leaves the UART set up. -/
def Sends (p : ℕ → Tty → Option Tty) (bytes : List UInt8) : Prop :=
  ∀ t : Tty, t.uart.Ready → ∃ n t', (∀ m, n ≤ m → p m t = some t') ∧
    t'.uart.Ready ∧ t'.uart.stream = t.uart.stream ++ bytes

variable {w}

theorem Sends.nothing : Sends (fun _ ↦ some) [] :=
  fun t ht ↦ ⟨0, t, fun _ _ ↦ rfl, ht, (List.append_nil _).symm⟩

/-- **One program after the other** sends one text behind the other. -/
theorem Sends.andThen {p p' : ℕ → Tty → Option Tty} {a b : List UInt8} (h : Sends p a)
    (h' : Sends p' b) : Sends (fun n t ↦ (p n t).bind (p' n)) (a ++ b) := by
  intro t ht
  obtain ⟨n, t₁, hrun, ht₁, hstream⟩ := h t ht
  obtain ⟨n', t₂, hrun', ht₂, hstream'⟩ := h' t₁ ht₁
  refine ⟨max n n', t₂, fun m hm ↦ ?_, ht₂, ?_⟩
  · show (p m t).bind (p' m) = some t₂
    rw [hrun m (Nat.le_trans (Nat.le_max_left _ _) hm), Option.bind_some,
      hrun' m (Nat.le_trans (Nat.le_max_right _ _) hm)]
  · rw [hstream', hstream, List.append_assoc]

/-- Rounds of a loop, each one sending its own text. -/
theorem Sends.foldlM {α : Type*} {p : ℕ → α → Tty → Option Tty} {text : α → List UInt8}
    (h : ∀ a, Sends (fun n ↦ p n a) (text a)) (l : List α) :
    Sends (fun n t ↦ l.foldlM (fun t a ↦ p n a t) t) (l.flatMap text) := by
  induction l with
  | nil => exact Sends.nothing
  | cons a l ih =>
    rw [List.flatMap_cons]
    exact (h a).andThen ih

section fair

variable (hfair : Polling.Fair w.sched)
include hfair

/-- **The wait ends with an idle transmitter**, and the stream is as it was. -/
theorem waitForXmitr_spec {t : Tty} (ht : t.uart.Ready) :
    ∃ n t', (∀ m, n ≤ m → waitForXmitr w m t = some t') ∧
      t'.uart.load = 0 ∧ t'.uart.Ready ∧ t'.uart.stream = t.uart.stream := by
  obtain ⟨n, r, hr⟩ : ∃ n r, Polling.poll Uart.advance (fun u ↦ u.load = 0) w.sched n t.accesses
      t.uart = some r :=
    Polling.exists_poll Uart.drains (fun u hu ↦ decide_eq_true hu) hfair t.accesses t.uart
  obtain ⟨⟨hready, hstream⟩, hidle⟩ := Polling.poll_invariant
    (P := fun u ↦ u.Ready ∧ u.stream = t.uart.stream)
    (fun u hu ↦ ⟨hu.1.advance, hu.1.stream_advance.trans hu.2⟩) ⟨ht, rfl⟩ hr
  refine ⟨n, ⟨r.2, r.1⟩, fun m hm ↦ ?_, of_decide_eq_true hidle, hready, hstream⟩
  rw [waitForXmitr_eq_poll, Polling.poll_mono hr hm]
  rfl

/-- **`serial_echo` sends its byte.** The wait has left the transmitter idle, and time only keeps it
so. -/
theorem serialEcho_sends (ch : UInt8) : Sends (fun n ↦ serialEcho w n ch) [ch] := by
  intro t ht
  obtain ⟨n, t₁, hrun, hidle, ht₁, hstream⟩ := waitForXmitr_spec hfair ht
  have hidle' : (t₁.now w).load = 0 := by
    have hless := Uart.drains.iterate (w.sched t₁.accesses) t₁.uart
    rw [hidle, Nat.zero_sub] at hless
    exact Nat.le_zero.1 hless
  obtain ⟨hready, hnow⟩ := Tty.now_ready w ht₁
  obtain ⟨hwrite, hout⟩ :=
    Uart.stream_write_idle hidle' hready.dlab (w.spoil t₁.accesses) ch
  refine ⟨n, outb w ch 0 t₁, fun m hm ↦ ?_, ?_, ?_⟩
  · show (waitForXmitr w m t).bind _ = _
    rw [hrun m hm]
    rfl
  · show ((t₁.now w).write (w.spoil t₁.accesses) ch 0).Ready
    rw [hwrite]
    exact ⟨hready.lcr, hready.output⟩
  · show ((t₁.now w).write (w.spoil t₁.accesses) ch 0).stream = _
    rw [hout, hnow, hstream]

/-- **The loop of `_write` sends its bytes**, all of them and in order, behind what has been sent
before. -/
theorem echoEach_sends (l : List UInt8) : Sends (fun n ↦ echoEach w n l) l := by
  have h := Sends.foldlM (fun c ↦ serialEcho_sends hfair c) l
  rwa [List.flatMap_singleton'] at h

/-- **`_write` to the standard streams sends the block** and says so. -/
theorem writeFile_sends {file : ℤ} (hfile : file = 1 ∨ file = 2) (ptr : List UInt8) :
    Sends (fun n t ↦ (writeFile w n file ptr t).map Prod.snd) ptr := by
  intro t ht
  obtain ⟨n, t', hrun, hrest⟩ := echoEach_sends hfair ptr t ht
  refine ⟨n, t', fun m hm ↦ ?_, hrest⟩
  simp [writeFile, hfile, hrun m hm]

end fair

/-- **The UART `u` after some time and some stores to its settings**, from `u₀` on: what was on the
line is still in front, no byte has come in, and the modem control is as it was. The bytes that
were on their way may have come out spoiled, or not at all. -/
structure Uart.Follows (u₀ u : Uart) : Prop where
  front : u₀.line <+: u.line
  few : u.stream.length ≤ u₀.stream.length
  mcr : u.mcr = u₀.mcr

theorem Uart.Follows.refl (u : Uart) : u.Follows u :=
  ⟨List.prefix_rfl, Nat.le_refl _, rfl⟩

theorem Uart.Follows.advance {u₀ u : Uart} (h : u₀.Follows u) : u₀.Follows u.advance := by
  have hsent (b : UInt8) : (u.sent b).length ≤ 1 := by
    rw [Uart.sent]
    split_ifs <;> simp
  obtain ⟨hfront, hfew, hmcr⟩ := h
  rcases u with ⟨lcr, ier, dll, dlm, mcr, spare, _ | ⟨c, t⟩, _ | b, line⟩
  · exact ⟨hfront, hfew, hmcr⟩
  · have hb := hsent b
    refine ⟨hfront.trans (List.prefix_append _ _), ?_, hmcr⟩
    simp [Uart.advance, Uart.stream, Uart.pending] at hfew ⊢
    omega
  · refine ⟨hfront, ?_, hmcr⟩
    simpa [Uart.advance, Uart.stream, Uart.pending] using hfew
  · have hb := hsent b
    refine ⟨hfront.trans (List.prefix_append _ _), ?_, hmcr⟩
    simp [Uart.advance, Uart.stream, Uart.pending] at hfew ⊢
    omega

/-- The four registers the program sets. -/
def Uart.settings (u : Uart) : UInt8 × UInt8 × UInt8 × UInt8 := (u.lcr, u.dll, u.dlm, u.ier)

theorem Uart.settings_advance (u : Uart) : u.advance.settings = u.settings := by
  rcases u with ⟨lcr, ier, dll, dlm, mcr, spare, _ | ⟨c, t⟩, _ | b, line⟩ <;> rfl

/-- A stage of `serial_echo_init`: the settings, and how the UART has come from `u₀`. -/
def Tty.At (u₀ : Uart) (t : Tty) (settings : UInt8 × UInt8 × UInt8 × UInt8) : Prop :=
  t.uart.settings = settings ∧ u₀.Follows t.uart

section settings

variable {u₀ : Uart} {t : Tty} {lcr dll dlm ier : UInt8}

/-- Time, and a port read: nothing is set, so the registers are those of the last store. -/
theorem Tty.At.inb (h : t.At u₀ (lcr, dll, dlm, ier)) (a : ℕ) :
    (inb w a t).2.At u₀ (lcr, dll, dlm, ier) :=
  Polling.iterate_invariant
    (P := fun u : Uart ↦ u.settings = (lcr, dll, dlm, ier) ∧ u₀.Follows u)
    (fun u hu ↦ ⟨(Uart.settings_advance u).trans hu.1, hu.2.advance⟩) _ h

/-- A disturbed byte is still one byte, so the count of what comes in front of the log is kept. -/
theorem Uart.Follows.disturb {u : Uart} (h : u₀.Follows u) (f : UInt8 → UInt8) :
    u₀.Follows (u.disturb f) := by
  refine ⟨h.front, ?_, h.mcr⟩
  have hlen : (u.disturb f).stream.length = u.stream.length := by
    cases hs : u.shift <;> simp [Uart.disturb, Uart.stream, Uart.pending, hs]
  rw [hlen]
  exact h.few

theorem Tty.At.outb_lcr (h : t.At u₀ (lcr, dll, dlm, ier)) (v : UInt8) :
    (outb w v 3 t).At u₀ (v, dll, dlm, ier) := by
  obtain ⟨hset, hfollows⟩ : (t.now w).settings = (lcr, dll, dlm, ier) ∧ u₀.Follows (t.now w) :=
    h.inb 3
  simp only [Uart.settings, Prod.mk.injEq] at hset
  obtain ⟨hfront, hfew, hmcr⟩ := hfollows.disturb (w.spoil t.accesses)
  exact ⟨Prod.ext rfl (Prod.ext hset.2.1 (Prod.ext hset.2.2.1 hset.2.2.2)), hfront, hfew, hmcr⟩

/-- The divisor, when its latch is selected. -/
theorem Tty.At.outb_dll (h : t.At u₀ (lcr, dll, dlm, ier)) (hdlab : (lcr &&& 0x80 != 0) = true)
    (v : UInt8) : (outb w v 0 t).At u₀ (lcr, v, dlm, ier) := by
  obtain ⟨hset, hfollows⟩ : (t.now w).settings = (lcr, dll, dlm, ier) ∧ u₀.Follows (t.now w) :=
    h.inb 0
  simp only [Uart.settings, Prod.mk.injEq] at hset
  obtain ⟨hfront, hfew, hmcr⟩ := hfollows.disturb (w.spoil t.accesses)
  have hlatch : (t.now w).dlab = true := by rw [Uart.dlab, hset.1, hdlab]
  rw [outb, Uart.write, if_pos hlatch]
  exact ⟨Prod.ext hset.1 (Prod.ext rfl (Prod.ext hset.2.2.1 hset.2.2.2)), hfront, hfew, hmcr⟩

theorem Tty.At.outb_dlm (h : t.At u₀ (lcr, dll, dlm, ier)) (hdlab : (lcr &&& 0x80 != 0) = true)
    (v : UInt8) : (outb w v 1 t).At u₀ (lcr, dll, v, ier) := by
  obtain ⟨hset, hfollows⟩ : (t.now w).settings = (lcr, dll, dlm, ier) ∧ u₀.Follows (t.now w) :=
    h.inb 1
  simp only [Uart.settings, Prod.mk.injEq] at hset
  obtain ⟨hfront, hfew, hmcr⟩ := hfollows.disturb (w.spoil t.accesses)
  have hlatch : (t.now w).dlab = true := by rw [Uart.dlab, hset.1, hdlab]
  rw [outb, Uart.write, if_pos hlatch]
  exact ⟨Prod.ext hset.1 (Prod.ext hset.2.1 (Prod.ext rfl hset.2.2.2)), hfront, hfew, hmcr⟩

/-- The interrupt enables, when it is not. -/
theorem Tty.At.outb_ier (h : t.At u₀ (lcr, dll, dlm, ier)) (hdlab : (lcr &&& 0x80 != 0) = false)
    (v : UInt8) : (outb w v 1 t).At u₀ (lcr, dll, dlm, v) := by
  obtain ⟨hset, hfront, hfew, hmcr⟩ :
      (t.now w).settings = (lcr, dll, dlm, ier) ∧ u₀.Follows (t.now w) := h.inb 1
  simp only [Uart.settings, Prod.mk.injEq] at hset
  have hlatch : (t.now w).dlab = false := by rw [Uart.dlab, hset.1, hdlab]
  rw [outb, Uart.write, hlatch, if_neg Bool.false_ne_true]
  exact ⟨Prod.ext hset.1 (Prod.ext hset.2.1 (Prod.ext hset.2.2.1 rfl)), hfront, hfew, hmcr⟩

end settings

/-- **`serial_echo_init`** sets the format, the rate and the interrupts, whatever was set before,
and leaves the divisor latch. The modem control it leaves alone; of the bytes that were on their way
some may be spoiled by the change of the rate. -/
theorem serialEchoInit_spec (t : Tty) :
    (serialEchoInit w t).At t.uart (3, 12, 0, 0) := by
  have h0 : t.At t.uart (t.uart.lcr, t.uart.dll, t.uart.dlm, t.uart.ier) :=
    ⟨rfl, Uart.Follows.refl _⟩
  -- the old divisor is read with the latch selected
  have h1 := (h0.inb (w := w) 3).outb_lcr (w := w) ((inb w 3 t).1 ||| 0x80)
  have h2 := (h1.inb (w := w) 1).inb (w := w) 0
  have h3 := h2.outb_lcr (w := w) (inb w 3 t).1
  -- the new one is stored
  have h4 := (h3.outb_lcr (w := w) serialLcr).outb_lcr (w := w) (0x80 ||| serialLcr)
  have h5 := h4.outb_dll (w := w) (by decide) (UInt8.ofNat (serialDiv % 256))
  have h6 := h5.outb_dlm (w := w) (by decide) (UInt8.ofNat (serialDiv / 256 % 256))
  have h7 := h6.outb_lcr (w := w) serialLcr
  have h8 := (h7.inb (w := w) 5).inb (w := w) 0
  exact h8.outb_ier (w := w) (by decide) 0

end Dwipe

import Dwipe.Runtime.Log

/-!
# What comes out of the serial line

From `serial_echo_init` on, the serial line carries exactly the log: for every state the UART was
left in by the firmware, except in loopback, for every timing that does not stop, and for every
sequence of calls of `_minios_print_log`, the calls come back, and behind what becomes of the bytes
the UART still had to send stand the records of the calls whose level is enabled, in their order,
each one cut to 4095 bytes and ended by a carriage return and a line feed (`log_delivered`). No byte
of them is lost, doubled or overtaken.

The divisor latch may have been selected, a break may be set, the FIFO may be on, and bytes may be
under way. Those bytes are the firmware's, and since the rate changes under them nothing more can be
said of them than that they come first and that there are no more of them than were waiting.

`fprintf` is free to hand its text to `_write` in any pieces.
-/

namespace Dwipe

variable {w : Wire} {chunks : Chunking}

/-- The record of a call on the line. -/
def LogCall.record (l : LogCall) : List UInt8 := l.text.take 4095 ++ [13, 10]

/-- What a list of calls puts on the line. -/
def logOutput (debug : ℤ) (calls : List LogCall) : List UInt8 :=
  (calls.filter fun l ↦ l.enabled debug).flatMap LogCall.record

/-- **A record is the beginning of its text**, and building it does not leave the buffer, however
long the file name and the message are. -/
theorem log_record (l : LogCall) (hplace : l.place.length < 2 ^ 31) (buf : ℕ → UInt8) :
    stringOf (l.logBuffer buf) = (l.tag ++ l.place ++ l.msg.bytes).take 4095 ∧
      ∀ i, 4096 ≤ i → l.logBuffer buf i = buf i := by
  obtain ⟨hbegins, hout⟩ := l.logBuffer_spec hplace buf
  have hlen : (l.text.take 4095).length < 4096 := by
    rw [List.length_take]
    omega
  exact ⟨hbegins.stringOf_eq hlen, hout⟩

/-- A message of one byte. -/
def exampleCall : LogCall := ⟨1, ⟨ascii "dwipe.c", by decide⟩, 7, ⟨ascii "x", by decide⟩⟩

theorem log_record_short :
    stringOf (exampleCall.logBuffer fun _ ↦ 0xCC) = ascii "[ERR][dwipe.c:7]x" :=
  (log_record exampleCall (by decide) fun _ ↦ 0xCC).1.trans (by decide)

/-! ### The calls -/

/-- **One call sends its record, or nothing**, however `fprintf` splits its text and however long
the transmitter takes. -/
theorem miniosPrintLog_sends (hfair : Polling.Fair w.sched) (hchunks : ∀ s, (chunks s).flatten = s)
    (debug : ℤ) (buf : ℕ → UInt8) (l : LogCall) (hplace : l.place.length < 2 ^ 31) :
    Sends (fun n ↦ miniosPrintLog w chunks n debug buf l) (logOutput debug [l]) := by
  cases hen : l.enabled debug with
  | false =>
    have hout : logOutput debug [l] = [] := by simp [logOutput, hen]
    have hrun : (fun n ↦ miniosPrintLog w chunks n debug buf l) = fun _ ↦ some := by
      funext n t
      simp [miniosPrintLog, hen]
    rw [hout, hrun]
    exact Sends.nothing
  | true =>
    obtain ⟨hbegins, -⟩ := l.logBuffer_spec hplace buf
    have hlen : (l.text.take 4095).length < 4096 := by
      rw [List.length_take]
      omega
    have hout : logOutput debug [l] =
        (chunks (stringOf (l.logBuffer buf) ++ [13, 10])).flatMap fun c ↦ c := by
      rw [hbegins.stringOf_eq hlen, List.flatMap_id', hchunks]
      simp [logOutput, hen, LogCall.record]
    have hrun : (fun n ↦ miniosPrintLog w chunks n debug buf l) = fun n t ↦
        (chunks (stringOf (l.logBuffer buf) ++ [13, 10])).foldlM
          (fun t c ↦ (writeFile w n 2 c t).map Prod.snd) t := by
      funext n t
      rw [miniosPrintLog, if_pos hen]
    rw [hout, hrun]
    exact Sends.foldlM (fun c ↦ writeFile_sends hfair (Or.inr rfl) c) _

/-- The initialisation and a list of calls, each one with what the stack holds for its buffer. -/
def logProgram (w : Wire) (chunks : Chunking) (n : ℕ) (debug : ℤ)
    (calls : List (LogCall × (ℕ → UInt8))) (t : Tty) : Option Tty :=
  calls.foldlM (fun t l ↦ miniosPrintLog w chunks n debug l.2 l.1 t) (serialEchoInit w t)

/-- **A UART that is set up gets rid of its load**, and has its stream on the line then. -/
theorem Uart.Ready.line_iterate {u : Uart} (h : u.Ready) {k : ℕ} (hk : u.load ≤ k) :
    (Uart.advance^[k] u).line = u.stream := by
  have hdrained := Uart.drains.iterate k u
  obtain ⟨hthr, hshift⟩ := Uart.load_eq_zero_iff.1 (show (Uart.advance^[k] u).load = 0 by omega)
  have hstream := (Polling.iterate_invariant (P := fun v : Uart ↦ v.Ready ∧ v.stream = u.stream)
    (fun v hv ↦ ⟨hv.1.advance, hv.1.stream_advance.trans hv.2⟩) k ⟨h, rfl⟩).2
  rw [← hstream, Uart.stream, Uart.pending, hthr, hshift]
  exact (List.append_nil _).symm

/-- The rounds send the records one behind the other. -/
theorem rounds_send (hfair : Polling.Fair w.sched) (hchunks : ∀ s, (chunks s).flatten = s)
    (debug : ℤ) (l : List (LogCall × (ℕ → UInt8))) (hl : ∀ c ∈ l, c.1.place.length < 2 ^ 31) :
    Sends (fun n t ↦ l.foldlM (fun t c ↦ miniosPrintLog w chunks n debug c.2 c.1 t) t)
      (logOutput debug (l.map Prod.fst)) := by
  induction l with
  | nil => exact Sends.nothing
  | cons c l ih =>
    have hfirst := miniosPrintLog_sends hfair hchunks debug c.2 c.1 (hl c List.mem_cons_self)
    have hsplit : logOutput debug ((c :: l).map Prod.fst) =
        logOutput debug [c.1] ++ logOutput debug (l.map Prod.fst) := by
      rw [logOutput, logOutput, logOutput, ← List.flatMap_append, ← List.filter_append]
      rfl
    rw [hsplit]
    exact hfirst.andThen (ih fun c' hc' ↦ hl c' (List.mem_cons_of_mem _ hc'))

/-- **The serial line carries exactly the log**, behind what came of the bytes that were waiting
when `serial_echo_init` began. -/
theorem log_delivered (w : Wire) (chunks : Chunking) (hfair : Polling.Fair w.sched)
    (hchunks : ∀ s, (chunks s).flatten = s) (debug : ℤ) (calls : List (LogCall × (ℕ → UInt8)))
    (hplace : ∀ l ∈ calls, l.1.place.length < 2 ^ 31) (t : Tty)
    (hloop : t.uart.loopback = false) :
    ∃ n t' early, (∀ m, n ≤ m → logProgram w chunks m debug calls t = some t') ∧
      early.length ≤ t.uart.pending.length ∧
      ∀ k, t'.uart.load ≤ k → (Uart.advance^[k] t'.uart).line =
        t.uart.line ++ early ++ logOutput debug (calls.map Prod.fst) := by
  obtain ⟨hset, hfront, hfew, hmcr⟩ := serialEchoInit_spec (w := w) t
  have hready : (serialEchoInit w t).uart.Ready :=
    ⟨congrArg Prod.fst hset, by rw [Uart.loopback, hmcr, ← Uart.loopback, hloop]⟩
  obtain ⟨early, hearly⟩ : ∃ early, t.uart.line ++ early = (serialEchoInit w t).uart.stream :=
    hfront.trans (List.prefix_append _ _)
  obtain ⟨n, t', hrun, hready', hstream⟩ :=
    rounds_send hfair hchunks debug calls hplace (serialEchoInit w t) hready
  refine ⟨n, t', early, hrun, ?_, fun k hk ↦ ?_⟩
  · rw [← hearly, Uart.stream, List.length_append, List.length_append] at hfew
    omega
  · rw [hready'.line_iterate hk, hstream, hearly]

/-- A UART with its FIFO on, left with its divisor latch selected, a break set and two bytes
waiting. -/
def latched : Tty := ⟨⟨0xC3, 0x0F, 1, 0, 0x0B, 15, [0x22], some 0x21, []⟩, 0⟩

/-- A line that moves before every other access, and spoils what it can. -/
def halting : Wire := ⟨fun k ↦ k % 2, fun _ ↦ 0xFF, fun _ b ↦ b ^^^ 0x55⟩

theorem fair_halting : Polling.Fair halting.sched := by
  intro k
  refine ⟨1 - k % 2, ?_⟩
  show 0 < (k + (1 - k % 2)) % 2
  omega

/-- Of two calls the one at the enabled level is on the line, behind at most two bytes. -/
theorem log_delivered_latched : ∃ n t' early,
    logProgram halting (fun s ↦ [s.take 3, s.drop 3]) n 1
        [(exampleCall, fun _ ↦ 0), ({ exampleCall with level := 8 }, fun _ ↦ 0)] latched = some t' ∧
      early.length ≤ 2 ∧
      (Uart.advance^[t'.uart.load] t'.uart).line =
        early ++ (ascii "[ERR][dwipe.c:7]x" ++ [13, 10]) := by
  obtain ⟨n, t', early, hrun, hearly, hline⟩ := log_delivered halting
    (fun s ↦ [s.take 3, s.drop 3]) fair_halting (fun s ↦ by simp) 1
    [(exampleCall, fun _ ↦ 0), ({ exampleCall with level := 8 }, fun _ ↦ 0)] (by decide) latched
    (by decide)
  refine ⟨n, t', early, hrun n (Nat.le_refl n), hearly, ?_⟩
  rw [hline _ (Nat.le_refl _)]
  exact congrArg (early ++ ·) (by decide)

end Dwipe

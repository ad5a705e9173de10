import Dwipe.Disk.Transfers
import Dwipe.Wipe.WipeDisk

/-!
# The program and the BIOS

The program reaches the outside through `query_pcbios` alone. So a relation between machines and
traces that holds for one exchange, and for whatever changes neither the BIOS nor the globals, holds
for **every** run (`wipeDisk_along`).

The instance used most is `Path`: the exchanges of a run are a path of the BIOS. The BIOS begins in
the state it had before the run, each request finds it in the state the previous one left, and it
ends in the state after the run.
-/

namespace Dwipe

variable {σ : Type} {env : Env σ} {opt : Options} {param : DiskParam}

/-! ### One walk over the program -/

/-- The relation composes, and holds for each thing the program can do: one exchange, a recorded
event, a change of the area, of the ghost position, of the time and of the state of `rand`. -/
structure Moves (env : Env σ) (T : Machine σ → List Event → Machine σ → Prop) : Prop
    extends TraceM.Composes T where
  ask : ∀ m q, T m [.int13 (exchangeAt env m q)] (m.ask env q)
  quiet : ∀ m e, e.exchange? = none → T m [e] m
  area : ∀ m a, T m [] { m with area := a }
  site : ∀ m s, T m [] { m with site := s }
  ticks : ∀ m k, T m [] { m with ticks := k }
  randNext : ∀ m r, T m [] { m with randNext := r }

section walk

variable {T : Machine σ → List Event → Machine σ → Prop}

theorem modifyArea_along (hT : Moves env T) (f : RealArea → RealArea) :
    TraceM.Along T (modifyArea f : Prog σ Unit) := TraceM.along_update fun m ↦ hT.area m _

theorem enter_along (hT : Moves env T) (s : Site) : TraceM.Along T (enter s : Prog σ Unit) :=
  TraceM.along_update fun m ↦ hT.site m s

theorem emit_along (hT : Moves env T) {e : Event} (he : e.exchange? = none) :
    TraceM.Along T (TraceM.emit e : Prog σ Unit) := TraceM.along_emit fun m ↦ hT.quiet m e he

theorem divides_along (hT : Moves env T) (l : List ℕ) :
    TraceM.Along T (TraceM.emitAll (l.map .divide) : Prog σ Unit) := by
  refine TraceM.along_emitAll hT.toComposes fun e he m ↦ ?_
  obtain ⟨d, -, rfl⟩ := List.mem_map.1 he
  exact hT.quiet m _ rfl

theorem pure_along (hT : Moves env T) {α : Type} (a : α) :
    TraceM.Along T (pure a : Prog σ α) := TraceM.along_pure hT.toComposes a

theorem readArea_along (hT : Moves env T) : TraceM.Along T (readArea : Prog σ RealArea) :=
  (TraceM.along_read hT.toComposes).bind hT.toComposes fun _ ↦ pure_along hT _

theorem queryPcbios_along (hT : Moves env T) : TraceM.Along T (queryPcbios env) :=
  fun m ↦ hT.ask m m.area

theorem tick_along (hT : Moves env T) {α : Type} (f : Machine σ → α) :
    TraceM.Along T (do
      let m ← TraceM.read
      TraceM.update fun m ↦ { m with ticks := m.ticks + 1 }
      return f m : Prog σ α) :=
  (TraceM.along_read hT.toComposes).bind hT.toComposes fun _ ↦
    (TraceM.along_update fun m ↦ hT.ticks m _).bind hT.toComposes fun _ ↦ pure_along hT _

/-! #### Transfers -/

theorem copyToReal_along (hT : Moves env T) (buffer : Buffer) (n : ℕ) :
    TraceM.Along T (copyToReal buffer n : Prog σ Unit) :=
  (emit_along hT rfl).bind hT.toComposes fun _ ↦ modifyArea_along hT _

theorem copyFromReal_along (hT : Moves env T) (buffer : Buffer) (n : ℕ) :
    TraceM.Along T (copyFromReal buffer n : Prog σ Buffer) :=
  (emit_along hT rfl).bind hT.toComposes fun _ ↦
    (readArea_along hT).bind hT.toComposes fun _ ↦ pure_along hT _

theorem int13_2_along (hT : Moves env T) : TraceM.Along T (int13_2 env) :=
  (modifyArea_along hT _).bind hT.toComposes fun _ ↦ queryPcbios_along hT

theorem int13_3_along (hT : Moves env T) : TraceM.Along T (int13_3 env) :=
  (modifyArea_along hT _).bind hT.toComposes fun _ ↦ queryPcbios_along hT

variable {a : Chs} {offset : UInt64} {nsector size : UInt32} {buffer : Buffer} {check : Bool}

theorem sectorChsVerify_along (hT : Moves env T) :
    TraceM.Along T (sectorChsVerify env param a nsector size) := by
  rw [sectorChsVerify]
  refine TraceM.Along.ite (pure_along hT _) ?_
  refine TraceM.Along.ite (pure_along hT _) ?_
  refine TraceM.Along.ite (pure_along hT _) ?_
  refine TraceM.Along.ite (pure_along hT _) ?_
  refine TraceM.Along.ite (pure_along hT _) ?_
  refine ((modifyArea_along hT _).bind hT.toComposes fun _ ↦ int13_2_along hT).bind
    hT.toComposes fun _ ↦ ?_
  exact (readArea_along hT).bind hT.toComposes fun _ ↦ pure_along hT _

theorem chsTransfer_along (hT : Moves env T) (isWrite : Bool) :
    TraceM.Along T (chsTransfer env isWrite param a nsector buffer size check) := by
  -- the two conditional lines of the source share what follows them
  have hissue : TraceM.Along T (chsIssue env isWrite param a nsector buffer size) := by
    cases isWrite with
    | true =>
      exact (copyToReal_along hT _ _).bind hT.toComposes fun _ ↦
        (modifyArea_along hT _).bind hT.toComposes fun _ ↦ int13_2_along hT
    | false =>
      exact (modifyArea_along hT _).bind hT.toComposes fun _ ↦ int13_2_along hT
  refine hissue.bind hT.toComposes fun ret ↦ (readArea_along hT).bind hT.toComposes fun r ↦ ?_
  have hend (ret : ℤ) (b : Buffer) : TraceM.Along T (do
      let r' ← readArea
      return ⟨if ret = 0 then ret else r'.reg.ah.toNat, b, chsMoved param nsector r⟩ :
        Prog σ Xfer) :=
    (readArea_along hT).bind hT.toComposes fun _ ↦ pure_along hT _
  have hverify (b : Buffer) : TraceM.Along T (if check ∧ isWrite then (do
        let ret ← sectorChsVerify env param a nsector (chsMoved param nsector r)
        let r' ← readArea
        return ⟨if ret = 0 then ret else r'.reg.ah.toNat, b, chsMoved param nsector r⟩ :
          Prog σ Xfer)
      else (do
        let ret ← pure ret
        let r' ← readArea
        return ⟨if ret = 0 then ret else r'.reg.ah.toNat, b, chsMoved param nsector r⟩)) :=
    TraceM.Along.ite ((sectorChsVerify_along hT).bind hT.toComposes fun ret ↦ hend ret b)
      ((pure_along hT ret).bind hT.toComposes fun ret ↦ hend ret b)
  refine TraceM.Along.ite ?_ (pure_along hT _)
  exact TraceM.Along.ite ((pure_along hT buffer).bind hT.toComposes hverify)
    ((copyFromReal_along hT buffer _).bind hT.toComposes hverify)

theorem sectorChsRw_along (hT : Moves env T) (isWrite : Bool) :
    TraceM.Along T (sectorChsRw env isWrite param a nsector buffer size check) := by
  refine (emit_along hT rfl).bind hT.toComposes fun _ ↦ ?_
  refine TraceM.Along.ite (pure_along hT _) ?_
  refine TraceM.Along.ite (pure_along hT _) ?_
  refine TraceM.Along.ite (pure_along hT _) ?_
  refine TraceM.Along.ite (pure_along hT _) ?_
  refine TraceM.Along.ite (pure_along hT _) ?_
  exact TraceM.Along.ite (pure_along hT _) (chsTransfer_along hT isWrite)

theorem lbaTransfer_along (hT : Moves env T) (isWrite : Bool) :
    TraceM.Along T (lbaTransfer env isWrite param offset nsector buffer size check) := by
  have hissue : TraceM.Along T (lbaIssue env isWrite param offset nsector buffer size check) := by
    cases isWrite with
    | true =>
      exact (copyToReal_along hT _ _).bind hT.toComposes fun _ ↦
        (modifyArea_along hT _).bind hT.toComposes fun _ ↦
          (modifyArea_along hT _).bind hT.toComposes fun _ ↦ int13_3_along hT
    | false =>
      exact (modifyArea_along hT _).bind hT.toComposes fun _ ↦
        (modifyArea_along hT _).bind hT.toComposes fun _ ↦ int13_3_along hT
  refine hissue.bind hT.toComposes fun _ ↦ (readArea_along hT).bind hT.toComposes fun r ↦ ?_
  refine TraceM.Along.ite ?_ (pure_along hT _)
  exact TraceM.Along.ite ((pure_along hT buffer).bind hT.toComposes fun _ ↦ pure_along hT _)
    ((copyFromReal_along hT buffer _).bind hT.toComposes fun _ ↦ pure_along hT _)

theorem sectorsLbaRw_along (hT : Moves env T) (isWrite : Bool) :
    TraceM.Along T (sectorsLbaRw env isWrite param offset nsector buffer size check) := by
  refine (emit_along hT rfl).bind hT.toComposes fun _ ↦ ?_
  refine TraceM.Along.ite (pure_along hT _) ?_
  refine TraceM.Along.ite (pure_along hT _) ?_
  refine TraceM.Along.ite (pure_along hT _) ?_
  refine TraceM.Along.ite (pure_along hT _) ?_
  exact TraceM.Along.ite (pure_along hT _) (lbaTransfer_along hT isWrite)

/-! #### The skip test -/

theorem readEntry_along (hT : Moves env T) (e : MbrEntry) (buffer : Buffer) :
    TraceM.Along T (readEntry env param e buffer) := by
  have hchs : TraceM.Along T (readSectorsChs env param e.chsBegin 1 buffer labelBufferSize) :=
    sectorChsRw_along hT false
  have hlba (b : Buffer) :
      TraceM.Along T (readSectorsLba env param e.lbaBegin.toUInt64 1 b labelBufferSize) :=
    sectorsLbaRw_along hT false
  refine TraceM.Along.ite (hchs.bind hT.toComposes fun _ ↦ pure_along hT _) ?_
  refine TraceM.Along.ite ((hlba _).bind hT.toComposes fun _ ↦ pure_along hT _) ?_
  refine TraceM.Along.ite (hchs.bind hT.toComposes fun x ↦ ?_) (pure_along hT _)
  exact TraceM.Along.ite ((hlba _).bind hT.toComposes fun _ ↦ pure_along hT _) (pure_along hT _)

theorem scanEntry_along (hT : Moves env T) (e : MbrEntry) (buffer : Buffer) :
    TraceM.Along T (scanEntry env opt param e buffer) := by
  refine (readEntry_along hT e buffer).bind hT.toComposes fun v ↦ ?_
  cases v with
  | none => exact pure_along hT _
  | some x => exact TraceM.Along.ite (pure_along hT _) (pure_along hT _)

theorem containFatLabel_along (hT : Moves env T) (str : CString) :
    TraceM.Along T (containFatLabel env opt param str) := by
  have hread (buffer : Buffer) :
      TraceM.Along T (readSectorsChs env param ⟨0, 0, 1⟩ 1 buffer labelBufferSize) :=
    sectorChsRw_along hT false
  refine (enter_along hT _).bind hT.toComposes fun _ ↦ ?_
  refine (tick_along hT _).bind hT.toComposes fun buffer ↦ ?_
  refine (hread buffer).bind hT.toComposes fun x ↦ TraceM.Along.ite (pure_along hT _) ?_
  refine (TraceM.Along.forExit hT.toComposes (fun i b ↦ scanEntry_along hT _ b) _ _).bind
    hT.toComposes fun v ↦ ?_
  cases v with
  | ok b => exact pure_along hT _
  | error r => exact pure_along hT _

theorem isSkipedDisk_along (hT : Moves env T) : TraceM.Along T (isSkipedDisk env opt param) :=
  TraceM.Along.ite (pure_along hT _)
    ((containFatLabel_along hT _).bind hT.toComposes fun _ ↦ pure_along hT _)

/-! #### The wipe -/

theorem fillPass_along (hT : Moves env T) (i : ℕ) (buffer : Buffer) (n : ℕ) :
    TraceM.Along T (fillPass opt i buffer n : Prog σ Buffer) := by
  refine TraceM.Along.ite (pure_along hT _) (TraceM.Along.ite (pure_along hT _) ?_)
  refine TraceM.Along.forRange hT.toComposes (fun j b ↦ ?_) _ _
  have hrand : TraceM.Along T (rand : Prog σ ℕ) :=
    (TraceM.along_update fun m ↦ hT.randNext m _).bind hT.toComposes fun _ ↦
      (TraceM.along_read hT.toComposes).bind hT.toComposes fun _ ↦ pure_along hT _
  exact hrand.bind hT.toComposes fun _ ↦ pure_along hT _

section passes

variable {write : Buffer → UInt32 → Bool → Prog σ Xfer}

theorem fastPass_along (hT : Moves env T) (hw : ∀ b s c, TraceM.Along T (write b s c)) :
    TraceM.Along T (fastPass opt write buffer size) :=
  (enter_along hT _).bind hT.toComposes fun _ ↦ (hw _ _ _).bind hT.toComposes fun _ ↦
    (emit_along hT rfl).bind hT.toComposes fun _ ↦ pure_along hT _

theorem passLoop_along (hT : Moves env T) (hw : ∀ b s c, TraceM.Along T (write b s c)) :
    TraceM.Along T (passLoop opt write buffer size) := by
  refine TraceM.Along.forRange hT.toComposes (fun i x ↦ ?_) _ _
  refine (fillPass_along hT i _ _).bind hT.toComposes fun b ↦ ?_
  exact (enter_along hT _).bind hT.toComposes fun _ ↦ (hw _ _ _).bind hT.toComposes fun _ ↦
    (emit_along hT rfl).bind hT.toComposes fun _ ↦ pure_along hT _

end passes

theorem wipeSectorsLba_along (hT : Moves env T) :
    TraceM.Along T (wipeSectorsLba env opt param offset nsector buffer size) := by
  refine TraceM.Along.ite ?_ ?_
  · refine TraceM.Along.ite ((enter_along hT _).bind hT.toComposes fun _ ↦ ?_) ?_
    · exact sectorsLbaRw_along hT false
    · exact TraceM.Along.ite (fastPass_along hT fun _ _ _ ↦ sectorsLbaRw_along hT true)
        (passLoop_along hT fun _ _ _ ↦ sectorsLbaRw_along hT true)
  · refine (divides_along hT _).bind hT.toComposes fun _ ↦ ?_
    cases lba2chs param offset with
    | none => exact pure_along hT _
    | some a =>
      refine TraceM.Along.ite ((enter_along hT _).bind hT.toComposes fun _ ↦ ?_) ?_
      · exact sectorChsRw_along hT false
      · exact TraceM.Along.ite (fastPass_along hT fun _ _ _ ↦ sectorChsRw_along hT true)
          (passLoop_along hT fun _ _ _ ↦ sectorChsRw_along hT true)

theorem wipeCall_along (hT : Moves env T) :
    TraceM.Along T (wipeCall env opt param offset nsector buffer) :=
  (wipeSectorsLba_along hT).bind hT.toComposes fun _ ↦
    (emit_along hT rfl).bind hT.toComposes fun _ ↦ pure_along hT _

theorem updateProgress_along (hT : Moves env T) (progress : Progress) (n : UInt64) :
    TraceM.Along T (updateProgress env progress n) := by
  refine (tick_along hT _).bind hT.toComposes fun cur ↦ ?_
  refine (emit_along hT rfl).bind hT.toComposes fun _ ↦ ?_
  refine (emit_along hT rfl).bind hT.toComposes fun _ ↦ TraceM.Along.ite (pure_along hT _) ?_
  refine (emit_along hT rfl).bind hT.toComposes fun _ ↦ ?_
  refine (emit_along hT rfl).bind hT.toComposes fun _ ↦ ?_
  refine (emit_along hT rfl).bind hT.toComposes fun _ ↦ ?_
  refine (divides_along hT _).bind hT.toComposes fun _ ↦ ?_
  exact (emit_along hT rfl).bind hT.toComposes fun _ ↦ pure_along hT _

theorem wipeChunks_along (hT : Moves env T) (s : WipeState) :
    TraceM.Along T (wipeChunks env opt param s) := by
  refine TraceM.Along.forExit hT.toComposes (fun _ s ↦ ?_) _ s
  refine (emit_along hT rfl).bind hT.toComposes fun _ ↦ ?_
  refine (wipeCall_along hT).bind hT.toComposes fun x ↦ ?_
  refine (updateProgress_along hT _ _).bind hT.toComposes fun _ ↦ ?_
  exact TraceM.Along.ite (pure_along hT _) (pure_along hT _)

theorem wipeRemainder_along (hT : Moves env T) (s : WipeState) :
    TraceM.Along T (wipeRemainder env opt param s) := by
  have hdone (x : Xfer) (n : UInt64) (f : Progress → WipeState) : TraceM.Along T (do
      let progress ← updateProgress env s.progress n
      return .ok (f progress) : Prog σ (Except ℤ WipeState)) :=
    (updateProgress_along hT _ _).bind hT.toComposes fun _ ↦ pure_along hT _
  refine TraceM.Along.ite ((wipeCall_along hT).bind hT.toComposes fun x ↦ ?_) ?_
  · exact TraceM.Along.ite (pure_along hT _) (hdone x _ _)
  · exact (updateProgress_along hT _ _).bind hT.toComposes fun _ ↦ pure_along hT _

theorem wipeMbr_along (hT : Moves env T) (s : WipeState) :
    TraceM.Along T (wipeMbr env opt param s) := by
  refine TraceM.Along.ite ?_ (pure_along hT _)
  refine (enter_along hT _).bind hT.toComposes fun _ ↦ ?_
  refine TraceM.Along.bind hT.toComposes (sectorChsRw_along hT true) fun _ ↦ ?_
  exact (emit_along hT rfl).bind hT.toComposes fun _ ↦ pure_along hT _

theorem wipeBuffer_along (hT : Moves env T) (buffer : Buffer) :
    TraceM.Along T (wipeBuffer env opt param buffer) := by
  have hreset : TraceM.Along T (resetProgress env (totalSize opt param)) :=
    (tick_along hT _).bind hT.toComposes fun _ ↦ pure_along hT _
  refine hreset.bind hT.toComposes fun p ↦ ?_
  refine (updateProgress_along hT _ _).bind hT.toComposes fun p ↦ ?_
  refine (wipeChunks_along hT _).bind hT.toComposes fun v ↦ ?_
  cases v with
  | error ret => exact pure_along hT _
  | ok s =>
    refine (wipeRemainder_along hT s).bind hT.toComposes fun v ↦ ?_
    cases v with
    | error ret => exact pure_along hT _
    | ok s => exact wipeMbr_along hT s

/-- **Every run of `wipe_disk`** is along the relation, whichever way its tests go. -/
theorem wipeDisk_along (hT : Moves env T) : TraceM.Along T (wipeDisk env opt param) := by
  refine (isSkipedDisk_along hT).bind hT.toComposes fun skiped ↦ ?_
  refine (emit_along hT rfl).bind hT.toComposes fun _ ↦ TraceM.Along.ite (pure_along hT _) ?_
  refine (tick_along hT _).bind hT.toComposes fun v ↦ ?_
  cases v with
  | none => exact pure_along hT _
  | some buffer => exact wipeBuffer_along hT buffer

end walk

/-! ### Paths of the BIOS -/

/-- The exchanges are answered one after the other by a BIOS that begins in state `b` and ends in
state `b'`. -/
def Path (env : Env σ) : σ → List Exchange → σ → Prop
  | b, [], b' => b = b'
  | b, x :: xs, b' => x.carry = (env.int13 b x.req).carry ∧ x.res = (env.int13 b x.req).area ∧
      Path env (env.int13 b x.req).bios xs b'

theorem path_append {b b' : σ} {xs ys : List Exchange} :
    Path env b (xs ++ ys) b' ↔ ∃ c, Path env b xs c ∧ Path env c ys b' := by
  induction xs generalizing b with
  | nil => simp [Path]
  | cons x xs ih =>
    simp only [List.cons_append, Path, ih]
    constructor
    · rintro ⟨hc, hr, c, h1, h2⟩
      exact ⟨c, ⟨hc, hr, h1⟩, h2⟩
    · rintro ⟨c, ⟨hc, hr, h1⟩, h2⟩
      exact ⟨hc, hr, c, h1, h2⟩

/-- Every exchange of a path is one the BIOS gave, in some state. -/
theorem Path.genuine {b b' : σ} {xs : List Exchange} (h : Path env b xs b') :
    ∀ x ∈ xs, ∃ c, x.carry = (env.int13 c x.req).carry ∧ x.res = (env.int13 c x.req).area := by
  induction xs generalizing b with
  | nil => exact fun x hx ↦ absurd hx List.not_mem_nil
  | cons y ys ih =>
    intro x hx
    rcases List.mem_cons.1 hx with rfl | hx
    · exact ⟨b, h.1, h.2.1⟩
    · exact ih h.2.2 x hx

theorem path_moves (env : Env σ) :
    Moves env fun m l m' ↦ Path env m.bios (exchanges l) m'.bios where
  refl _ := rfl
  trans h h' := by
    rw [exchanges_append, path_append]
    exact ⟨_, h, h'⟩
  ask _ _ := ⟨rfl, rfl, rfl⟩
  quiet m e he := by
    have hnil : exchanges [e] = [] := List.filterMap_eq_nil_iff.2 fun d hd ↦ by
      rw [List.mem_singleton.1 hd, he]
    rw [hnil]
    exact rfl
  area _ _ := rfl
  site _ _ := rfl
  ticks _ _ := rfl
  randNext _ _ := rfl

/-- **The exchanges of a run of `wipe_disk` are a path of the BIOS.** -/
theorem wipeDisk_path (env : Env σ) (opt : Options) (param : DiskParam) (m : Machine σ) :
    Path env m.bios (exchanges (wipeDisk env opt param m).events)
      (wipeDisk env opt param m).state.bios :=
  wipeDisk_along (path_moves env) m

/-! ### Globals -/

/-- The globals of `dwipe.c` are the same in both machines. -/
structure SameGlobals (m m' : Machine σ) : Prop where
  diskList : m'.diskList = m.diskList
  totalDiskCnt : m'.totalDiskCnt = m.totalDiskCnt
  skipedDiskCnt : m'.skipedDiskCnt = m.skipedDiskCnt
  doneDiskCnt : m'.doneDiskCnt = m.doneDiskCnt
  errorDiskCnt : m'.errorDiskCnt = m.errorDiskCnt

theorem globals_moves (env : Env σ) : Moves env fun m _ m' ↦ SameGlobals m m' where
  refl _ := ⟨rfl, rfl, rfl, rfl, rfl⟩
  trans h h' := ⟨h'.diskList.trans h.diskList, h'.totalDiskCnt.trans h.totalDiskCnt,
    h'.skipedDiskCnt.trans h.skipedDiskCnt, h'.doneDiskCnt.trans h.doneDiskCnt,
    h'.errorDiskCnt.trans h.errorDiskCnt⟩
  ask _ _ := ⟨rfl, rfl, rfl, rfl, rfl⟩
  quiet _ _ _ := ⟨rfl, rfl, rfl, rfl, rfl⟩
  area _ _ := ⟨rfl, rfl, rfl, rfl, rfl⟩
  site _ _ := ⟨rfl, rfl, rfl, rfl, rfl⟩
  ticks _ _ := ⟨rfl, rfl, rfl, rfl, rfl⟩
  randNext _ _ := ⟨rfl, rfl, rfl, rfl, rfl⟩

/-- **A run of `wipe_disk` leaves the globals alone.** -/
theorem wipeDisk_globals (env : Env σ) (opt : Options) (param : DiskParam) (m : Machine σ) :
    SameGlobals m (wipeDisk env opt param m).state :=
  wipeDisk_along (globals_moves env) m

end Dwipe

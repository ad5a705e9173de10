import Dwipe.Disk.Transfers
import Dwipe.Wipe.Main

/-!
# What enumeration finds

`enum_disk` asks up to three questions about each drive id, through the same registers and result
buffers, and fills the slots of `disk_list` as it goes. A failed probe zeroes the slot it was given
and leaves the index alone, so the next probe gets the **same** slot.

One round is followed through its exchanges: `probed` is what the BIOS has said about the drive, and
`probeDrive_round` says that a round stores that and nothing else. The loop invariant `Listed` is
stated for every BIOS that reports its errors.
-/

namespace Dwipe

variable {σ : Type} (env : Env σ)

/-! ### The three questions -/

/-- The area at `AH=08h`, the question whether there is a drive and what its geometry is. -/
def paramRequest (diskId : UInt8) (r : RealArea) : RealArea :=
  { r with reg := { al := 0, ah := 0x08, bl := 0, bh := 0, cl := 0, ch := 0, dl := diskId, dh := 0,
                    es := 0, si := 0 } }

/-- The area at `AH=41h`, the question whether the drive has the extensions. -/
def checkRequest (diskId : UInt8) (r : RealArea) : RealArea :=
  { r with reg := { al := 0, ah := 0x41, bl := 0xaa, bh := 0x55, cl := 0, ch := 0, dl := diskId,
                    dh := 0, es := 0, si := 0 } }

/-- The area at `AH=48h`, the question for the number and the size of the sectors. -/
def extRequest (diskId : UInt8) (r : RealArea) : RealArea :=
  { r with
    paramExt := { r.paramExt with size := 0x1e }
    reg := { r.reg with al := 0, ah := 0x48, bl := 0, bh := 0, cl := 0, ch := 0, dl := diskId,
                        dh := 0, si := env.paramExtOffset } }

/-- The drive as `AH=08h` describes it, without extensions so far. -/
def decoded (diskId : UInt8) (r : RegReq) : DiskParam :=
  { diskId := diskId
    drives := r.dl
    lastHeads := r.dh
    lastCylinders := UInt16.ofNat (getChsFromPack r.cx).1
    lastSectorsPerTrack := UInt8.ofNat (getChsFromPack r.cx).2
    driveType := r.bl
    hasExt := 0
    ext := DiskParamExt.zero }

section questions

variable {env} {diskId : UInt8} (m : Machine σ) {x : Exchange}

/-- What follows an exchange in each of the three functions: the value for a clear carry flag, or
the one for a set flag. -/
def answered {α : Type} (x : Exchange) (f : ℤ → α) (a : α) (m : Machine σ) :
    Traced (Machine σ) Event α :=
  let t := (if (if x.carry then 1 else 0 : ℤ) = 0 then pure (f (if x.carry then 1 else 0))
    else pure a : Prog σ α) m
  ⟨t.val, t.state, .int13 x :: t.events⟩

theorem answered_eq {α : Type} (x : Exchange) (f : ℤ → α) (a : α) (m : Machine σ) :
    answered x f a m = ⟨if x.carry then a else f 0, m, [.int13 x]⟩ := by
  rw [answered]
  cases hc : x.carry with
  | true => simp
  | false => simp

theorem run_getDiskParam (hx : x = exchangeAt env m (paramRequest diskId m.area)) :
    getDiskParam env diskId m =
      ⟨if x.carry then (x.res.reg.ah.toNat, DiskParam.zero) else (0, decoded diskId x.res.reg),
        m.ask env x.req, [.int13 x]⟩ := by
  rw [← answered_eq x fun ret ↦ (ret, decoded diskId x.res.reg)]
  subst hx
  rfl

theorem run_checkExtensionsPresent (old : Extensions)
    (hx : x = exchangeAt env m (checkRequest diskId m.area)) :
    checkExtensionsPresent env diskId old m =
      ⟨if x.carry then (x.res.reg.ah.toNat, old)
        else (0, ⟨x.res.reg.cl.toNat, x.res.reg.ah.toNat⟩),
        m.ask env x.req, [.int13 x]⟩ := by
  rw [← answered_eq x fun ret ↦
    (ret, (⟨x.res.reg.cl.toNat, x.res.reg.ah.toNat⟩ : Extensions))]
  subst hx
  rfl

theorem run_getDiskParamExt {param : DiskParam}
    (hx : x = exchangeAt env m (extRequest env param.diskId m.area)) :
    getDiskParamExt env param m =
      ⟨if x.carry then (x.res.reg.ah.toNat, param)
        else (0, { param with hasExt := 1, ext := x.res.paramExt }),
        m.ask env x.req, [.int13 x]⟩ := by
  rw [← answered_eq x fun ret ↦
    (ret, ({ param with hasExt := 1, ext := x.res.paramExt } : DiskParam))]
  subst hx
  rfl

end questions

/-! ### One round -/

/-- The first question about a drive, asked in `m`. -/
def ask08 (diskId : UInt8) (m : Machine σ) : Exchange :=
  exchangeAt env m (paramRequest diskId m.area)

/-- The second question, with the area the first has left behind. -/
def ask41 (diskId : UInt8) (m : Machine σ) : Exchange :=
  exchangeAt env (m.ask env (ask08 env diskId m).req)
    (checkRequest diskId (ask08 env diskId m).res)

/-- The third question, with the area the second has left behind. -/
def ask48 (diskId : UInt8) (m : Machine σ) : Exchange :=
  exchangeAt env ((m.ask env (ask08 env diskId m).req).ask env (ask41 env diskId m).req)
    (extRequest env diskId (ask41 env diskId m).res)

/-- **What the BIOS says about a drive** probed in `m`: nothing, or its geometry, with the extended
parameters when the extension check and the third question succeed. -/
def probed (diskId : UInt8) (m : Machine σ) : Option DiskParam :=
  if (ask08 env diskId m).carry then none
  else if ¬(ask41 env diskId m).carry ∧ (ask41 env diskId m).res.reg.cl.toNat % 2 = 1 ∧
      ¬(ask48 env diskId m).carry then
    some { decoded diskId (ask08 env diskId m).res.reg with
      hasExt := 1, ext := (ask48 env diskId m).res.paramExt }
  else some (decoded diskId (ask08 env diskId m).res.reg)

/-- The questions of a round: each is asked only if the answer before it asks for it. -/
def asked (diskId : UInt8) (m : Machine σ) : List Exchange :=
  if (ask08 env diskId m).carry then [ask08 env diskId m]
  else if ¬(ask41 env diskId m).carry ∧ (ask41 env diskId m).res.reg.cl.toNat % 2 = 1 then
    [ask08 env diskId m, ask41 env diskId m, ask48 env diskId m]
  else [ask08 env diskId m, ask41 env diskId m]

/-- What is known of one round: the slot holds what the BIOS said, no other slot was stored to, and
only the three questions were asked. -/
structure Round (diskId : UInt8) (s : EnumState) (m : Machine σ)
    (t : Traced (Machine σ) Event EnumState) : Prop where
  index : t.val.index = s.index + (probed env diskId m).toList.length
  diskList : t.state.diskList =
    Function.update m.diskList s.index ((probed env diskId m).getD DiskParam.zero)
  stores : ∀ k, .store k ∈ t.events → k = s.index
  asks : exchanges t.events = asked env diskId m
  returns : returns t.events = []

variable {env}

theorem carry_status (hrep : env.ReportsErrors) {m : Machine σ} {q : RealArea}
    (h : (exchangeAt env m q).carry = true) :
    ((exchangeAt env m q).res.reg.ah.toNat : ℤ) ≠ 0 := by
  have hah := hrep m.bios q h
  exact fun h0 ↦ hah (UInt8.toNat_inj.1 (by exact_mod_cast h0))

/-- `disk_list[index] = param`. -/
def Machine.stored (m : Machine σ) (index : ℕ) (param : DiskParam) : Machine σ :=
  { m with diskList := Function.update m.diskList index param }

/-- A round from the extension check on. -/
def probeExt (env : Env σ) (diskId : UInt8) (s : EnumState) (param : DiskParam) :
    Prog σ EnumState := do
  let (ret, ext) ← checkExtensionsPresent env diskId s.ext
  if ret = 0 ∧ ext.ext % 2 = 1 then
    let (_, param) ← getDiskParamExt env param
    setSlot s.index param
    return ⟨s.index + 1, ext⟩
  else
    return ⟨s.index + 1, ext⟩

section round

variable {diskId : UInt8} {s : EnumState} {m : Machine σ}

theorem probeDrive_run (diskId : UInt8) (s : EnumState) (m : Machine σ)
    {t : Traced (Machine σ) Event (ℤ × DiskParam)} (ht : t = getDiskParam env diskId m)
    {u : Traced (Machine σ) Event EnumState}
    (hu : u = (if t.val.1 = 0 then probeExt env diskId s t.val.2 else pure s : Prog σ EnumState)
      (t.state.stored s.index t.val.2)) :
    probeDrive env diskId s m = ⟨u.val, u.state, t.events ++ .store s.index :: u.events⟩ := by
  subst hu ht
  rfl

/-- The rest of a round, with the answers `y` and `z`, stores to the same slot, if at all. -/
structure ExtRound (s : EnumState) (m : Machine σ) (y z : Exchange) (param : DiskParam)
    (t : Traced (Machine σ) Event EnumState) : Prop where
  index : t.val.index = s.index + 1
  diskList : t.state.diskList s.index = param ∧ ∀ k ≠ s.index, t.state.diskList k = m.diskList k
  stores : ∀ k, .store k ∈ t.events → k = s.index
  asks : exchanges t.events = if ¬y.carry ∧ y.res.reg.cl.toNat % 2 = 1 then [y, z] else [y]
  returns : returns t.events = []

/-- With extensions reported, the third question is asked and the slot stored to again. -/
theorem run_probeExt_of_bit {param : DiskParam} (hid : param.diskId = diskId) {y z : Exchange}
    (hy : y = exchangeAt env m (checkRequest diskId m.area))
    (hz : z = exchangeAt env (m.ask env y.req) (extRequest env diskId y.res))
    (hc : ¬y.carry) (hbit : y.res.reg.cl.toNat % 2 = 1) :
    probeExt env diskId s param m =
      ⟨⟨s.index + 1, ⟨y.res.reg.cl.toNat, y.res.reg.ah.toNat⟩⟩,
        ((m.ask env y.req).ask env z.req).stored s.index
          (if z.carry then param else { param with hasExt := 1, ext := z.res.paramExt }),
        [.int13 y, .int13 z, .store s.index]⟩ := by
  have ht := run_checkExtensionsPresent m s.ext hy
  have hz' : z = exchangeAt env (m.ask env y.req)
      (extRequest env param.diskId (m.ask env y.req).area) := by
    rw [hid, exchangeAt_area hy, hz]
  have hu := run_getDiskParamExt (m.ask env y.req) hz'
  have hbit' : (y.res.reg.cl.toNat : ℤ) % 2 = 1 := by omega
  rw [if_neg hc] at ht
  simp only [probeExt, TraceM.run_bind, ht, TraceM.run_ite, hbit', and_self, if_true, hu]
  cases z.carry <;> rfl

/-- Otherwise the round ends there: because the check failed, with a status that is not 0, or
because the bit is clear. -/
theorem run_probeExt_of_no_bit (hrep : env.ReportsErrors) {param : DiskParam} {y : Exchange}
    (hy : y = exchangeAt env m (checkRequest diskId m.area))
    (h : ¬(¬y.carry ∧ y.res.reg.cl.toNat % 2 = 1)) :
    probeExt env diskId s param m =
      ⟨⟨s.index + 1, if y.carry then s.ext else ⟨y.res.reg.cl.toNat, y.res.reg.ah.toNat⟩⟩,
        m.ask env y.req, [.int13 y]⟩ := by
  have ht := run_checkExtensionsPresent m s.ext hy
  cases hc : y.carry with
  | true =>
    have hne : (y.res.reg.ah.toNat : ℤ) ≠ 0 := by
      subst hy
      exact carry_status hrep hc
    rw [hc, if_pos rfl] at ht
    simp only [probeExt, TraceM.run_bind, ht, TraceM.run_ite, hne, false_and, if_false,
      TraceM.run_pure, List.append_nil, if_true]
  | false =>
    have hbit : ¬(y.res.reg.cl.toNat : ℤ) % 2 = 1 := by
      have hodd : ¬y.res.reg.cl.toNat % 2 = 1 := fun hb ↦ h ⟨by simp [hc], hb⟩
      omega
    rw [hc, if_neg (by simp)] at ht
    simp only [probeExt, TraceM.run_bind, ht, TraceM.run_ite, hbit, and_false, if_false,
      TraceM.run_pure, List.append_nil, Bool.false_eq_true]

theorem probeExt_round (hrep : env.ReportsErrors) {param : DiskParam} (hid : param.diskId = diskId)
    (hm : m.diskList s.index = param) {y z : Exchange}
    (hy : y = exchangeAt env m (checkRequest diskId m.area))
    (hz : z = exchangeAt env (m.ask env y.req) (extRequest env diskId y.res)) :
    ExtRound s m y z (if ¬y.carry ∧ y.res.reg.cl.toNat % 2 = 1 ∧ ¬z.carry then
        { param with hasExt := 1, ext := z.res.paramExt } else param)
      (probeExt env diskId s param m) := by
  by_cases hcond : ¬y.carry ∧ y.res.reg.cl.toNat % 2 = 1
  · rw [run_probeExt_of_bit hid hy hz hcond.1 hcond.2]
    refine ⟨rfl, ⟨?_, fun k hk ↦ Function.update_of_ne hk _ _⟩, ?_, ?_, rfl⟩
    · cases z.carry with
      | true => simp [Machine.stored]
      | false => simp [Machine.stored, hcond.1, hcond.2]
    · simp
    · exact (if_pos hcond).symm
  · have hparam : ¬(¬y.carry ∧ y.res.reg.cl.toNat % 2 = 1 ∧ ¬z.carry) := fun h ↦
      hcond ⟨h.1, h.2.1⟩
    rw [run_probeExt_of_no_bit hrep hy hcond, if_neg hparam]
    refine ⟨rfl, ⟨hm, fun _ _ ↦ rfl⟩, by simp, ?_, rfl⟩
    rw [if_neg hcond]
    rfl

end round

/-- A drive the BIOS does not know: the slot is zeroed, and stays the next free one. -/
theorem probeDrive_round_of_absent (hrep : env.ReportsErrors) (diskId : UInt8) (s : EnumState)
    (m : Machine σ) (hc : (ask08 env diskId m).carry = true) :
    Round env diskId s m (probeDrive env diskId s m) := by
  have ht := run_getDiskParam m (Eq.refl (ask08 env diskId m))
  have hne : ((ask08 env diskId m).res.reg.ah.toNat : ℤ) ≠ 0 := carry_status hrep hc
  have hnone : probed env diskId m = none := by rw [probed, if_pos hc]
  rw [hc, if_pos rfl] at ht
  rw [probeDrive_run diskId s m ht.symm rfl, if_neg hne]
  refine ⟨by rw [hnone]; rfl, by rw [hnone]; rfl, by simp, ?_, rfl⟩
  rw [asked, if_pos hc]
  rfl

/-- A drive the BIOS knows: the slot is stored to once or twice, and the index moves on. -/
theorem probeDrive_round_of_present (hrep : env.ReportsErrors) (diskId : UInt8) (s : EnumState)
    (m : Machine σ) (hc : (ask08 env diskId m).carry = false) :
    Round env diskId s m (probeDrive env diskId s m) := by
  obtain ⟨x, hx⟩ : ∃ x, x = ask08 env diskId m := ⟨_, rfl⟩
  obtain ⟨y, hy⟩ : ∃ y, y = ask41 env diskId m := ⟨_, rfl⟩
  obtain ⟨z, hz⟩ : ∃ z, z = ask48 env diskId m := ⟨_, rfl⟩
  have ht := run_getDiskParam m hx
  rw [← hx] at hc
  rw [hc, if_neg (by simp)] at ht
  have hround : ExtRound s ((m.ask env x.req).stored s.index (decoded diskId x.res.reg)) y z
      (if ¬y.carry ∧ y.res.reg.cl.toNat % 2 = 1 ∧ ¬z.carry then
        { decoded diskId x.res.reg with hasExt := 1, ext := z.res.paramExt }
        else decoded diskId x.res.reg)
      (probeExt env diskId s (decoded diskId x.res.reg)
        ((m.ask env x.req).stored s.index (decoded diskId x.res.reg))) := by
    refine probeExt_round hrep rfl (Function.update_self _ _ _) ?_ ?_
    · rw [hy, hx]
      rfl
    · rw [hz, hy, hx]
      rfl
  have hsome : probed env diskId m =
      some (if ¬y.carry ∧ y.res.reg.cl.toNat % 2 = 1 ∧ ¬z.carry then
        { decoded diskId x.res.reg with hasExt := 1, ext := z.res.paramExt }
        else decoded diskId x.res.reg) := by
    rw [probed, ← hx, ← hy, ← hz, hc, if_neg (by simp)]
    split_ifs <;> rfl
  have hasked : asked env diskId m =
      x :: if ¬y.carry ∧ y.res.reg.cl.toNat % 2 = 1 then [y, z] else [y] := by
    rw [asked, ← hx, ← hy, ← hz, hc, if_neg (by simp)]
    split_ifs <;> rfl
  rw [probeDrive_run diskId s m ht.symm rfl, if_pos rfl]
  refine ⟨by rw [hsome]; exact hround.index, ?_, ?_, ?_, ?_⟩
  · -- the first store is to the same slot, so only the last one shows
    rw [hsome]
    funext k
    by_cases hk : k = s.index
    · rw [hk, Function.update_self]
      exact hround.diskList.1
    · rw [Function.update_of_ne hk, hround.diskList.2 k hk]
      exact Function.update_of_ne hk _ _
  · intro k hk
    simp only [List.singleton_append, List.mem_cons, reduceCtorEq, false_or,
      Event.store.injEq] at hk
    exact hk.elim id (hround.stores k)
  · rw [List.singleton_append, exchanges_int13, exchanges_store, hround.asks, hasked]
  · simpa using hround.returns

/-- **A round stores what the BIOS said about the drive.** -/
theorem probeDrive_round (hrep : env.ReportsErrors) (diskId : UInt8) (s : EnumState)
    (m : Machine σ) : Round env diskId s m (probeDrive env diskId s m) := by
  cases hc : (ask08 env diskId m).carry with
  | true => exact probeDrive_round_of_absent hrep diskId s m hc
  | false => exact probeDrive_round_of_present hrep diskId s m hc

theorem diskId_of_probed {diskId : UInt8} {m : Machine σ} {p : DiskParam}
    (h : probed env diskId m = some p) : p.diskId = diskId := by
  rw [probed] at h
  split_ifs at h <;> (obtain rfl := Option.some.inj h; rfl)

theorem mem_asked {diskId : UInt8} {m : Machine σ} {x : Exchange} (h : x ∈ asked env diskId m) :
    x = ask08 env diskId m ∨ x = ask41 env diskId m ∨ x = ask48 env diskId m := by
  rw [asked] at h
  split_ifs at h <;> simp only [List.mem_cons, List.not_mem_nil, or_false] at h
  · exact Or.inl h
  · exact h
  · exact h.imp_right Or.inl

/-- The questions name the drive, so an answer is about the drive that was asked for. -/
theorem of_mem_asked {diskId : UInt8} {m : Machine σ} {x : Exchange}
    (h : x ∈ asked env diskId m) :
    x.req.reg.ah ∈ [0x08, 0x41, 0x48] ∧ x.req.reg.dl = diskId := by
  rcases mem_asked h with rfl | rfl | rfl
  · have hah : (ask08 env diskId m).req.reg.ah = 0x08 := rfl
    exact ⟨by simp [hah], rfl⟩
  · have hah : (ask41 env diskId m).req.reg.ah = 0x41 := rfl
    exact ⟨by simp [hah], rfl⟩
  · have hah : (ask48 env diskId m).req.reg.ah = 0x48 := rfl
    exact ⟨by simp [hah], rfl⟩

/-! ### The loop -/

/-- The drive id of round `i`. -/
def driveId (i : ℕ) : UInt8 := UInt8.ofNat (0x80 + i)

theorem driveId_toNat {i : ℕ} (hi : i < 128) : (driveId i).toNat = 0x80 + i := by
  rw [driveId, UInt8.toNat_ofNat']
  omega

/-- **Before round `i`** the first slots hold `ps`, drives below `80h + i` in increasing order; no
slot at or beyond `i` has been stored to, and nothing but the three questions has been asked. -/
structure Listed (i : ℕ) (ps : List DiskParam) (s : EnumState) (m : Machine σ) (l : List Event) :
    Prop where
  index : s.index = ps.length
  slots : (List.range ps.length).map m.diskList = ps
  order : (ps.map fun p ↦ p.diskId.toNat).Pairwise (· < ·)
  below : ∀ p ∈ ps, p.diskId.toNat < 0x80 + i
  length : ps.length ≤ i
  stores : ∀ k, .store k ∈ l → k < i
  asks : ∀ x ∈ exchanges l, x.req.reg.ah ∈ [0x08, 0x41, 0x48]
  returns : returns l = []

section Listed

variable {i : ℕ} {ps : List DiskParam} {s : EnumState} {m : Machine σ} {l : List Event}

theorem Listed.start (s : EnumState) (h : s.index = 0) (m : Machine σ) :
    Listed 0 [] s m [] :=
  ⟨h, rfl, List.Pairwise.nil, by simp, Nat.le_refl 0, by simp, by simp, rfl⟩

/-- Storing behind the list extends it, or leaves it as it is. -/
theorem slots_update {f : ℕ → DiskParam} (h : (List.range ps.length).map f = ps)
    (p : Option DiskParam) :
    (List.range (ps ++ p.toList).length).map
      (Function.update f ps.length (p.getD DiskParam.zero)) = ps ++ p.toList := by
  have hold (q : DiskParam) :
      (List.range ps.length).map (Function.update f ps.length q) = ps := by
    conv_rhs => rw [← h]
    refine List.map_congr_left fun k hk ↦ ?_
    exact Function.update_of_ne (Nat.ne_of_lt (List.mem_range.1 hk)) _ _
  cases p with
  | none => simpa using hold DiskParam.zero
  | some q =>
    simp only [Option.toList_some, List.length_append, List.length_singleton, Option.getD_some,
      List.range_succ, List.map_append, List.map_singleton, hold, Function.update_self]

/-- **One round keeps the list**: the slots below the index hold the drives found so far, in order,
and at most one drive is added. -/
theorem Listed.step (hrep : env.ReportsErrors) (hi : i < 128) (h : Listed i ps s m l) :
    Listed (i + 1) (ps ++ (probed env (driveId i) m).toList) (probeDrive env (driveId i) s m).val
      (probeDrive env (driveId i) s m).state (l ++ (probeDrive env (driveId i) s m).events) := by
  have hround := probeDrive_round hrep (driveId i) s m
  have hid : ∀ p ∈ (probed env (driveId i) m).toList, p.diskId.toNat = 0x80 + i := by
    intro p hp
    rw [diskId_of_probed (Option.mem_toList.1 hp), driveId_toNat hi]
  have hlen : (probed env (driveId i) m).toList.length ≤ 1 := by
    cases probed env (driveId i) m <;> simp
  have hlength := h.length
  refine ⟨?_, ?_, ?_, ?_, ?_, ?_, ?_, ?_⟩
  · rw [hround.index, h.index, List.length_append]
  · rw [hround.diskList, h.index, slots_update h.slots]
  · rw [List.map_append, List.pairwise_append]
    refine ⟨h.order, ?_, fun a ha b hb ↦ ?_⟩
    · cases probed env (driveId i) m <;> simp
    · -- the ids are probed in increasing order
      obtain ⟨p, hp, rfl⟩ := List.mem_map.1 ha
      obtain ⟨q, hq, rfl⟩ := List.mem_map.1 hb
      rw [hid q hq]
      exact h.below p hp
  · intro p hp
    rcases List.mem_append.1 hp with hp | hp
    · have := h.below p hp
      omega
    · have := hid p hp
      omega
  · rw [List.length_append]
    omega
  · intro k hk
    rcases List.mem_append.1 hk with hk | hk
    · have := h.stores k hk
      omega
    · -- a failed probe stores too, to a slot no further than the rounds before have found drives
      rw [hround.stores k hk, h.index]
      omega
  · intro x hx
    rw [exchanges_append, List.mem_append] at hx
    rw [hround.asks] at hx
    exact hx.elim (h.asks x) fun hx ↦ (of_mem_asked hx).1
  · rw [returns_append, h.returns, hround.returns, List.append_nil]

end Listed

/-- What is known after `enum_disk`. -/
structure Enumerated (ps : List DiskParam) (t : Traced (Machine σ) Event Unit) : Prop where
  total : t.state.totalDiskCnt.toNat = ps.length
  slots : (List.range ps.length).map t.state.diskList = ps
  order : (ps.map fun p ↦ p.diskId.toNat).Pairwise (· < ·)
  stores : ∀ k, .store k ∈ t.events → k < 128
  asks : ∀ x ∈ exchanges t.events, x.req.reg.ah ∈ [0x08, 0x41, 0x48]
  returns : returns t.events = []

theorem run_enumDisk (uninit : Extensions) (m : Machine σ) {t : Traced (Machine σ) Event EnumState}
    (ht : t = TraceM.forRange 128 ⟨0, uninit⟩ (fun i s ↦ probeDrive env (driveId i) s)
      { m with site := .probe }) :
    enumDisk env uninit m =
      ⟨(), { t.state with totalDiskCnt := UInt32.ofNat t.val.index }, t.events⟩ := by
  have hid : (fun (i : ℕ) s ↦ probeDrive env (UInt8.ofNat (0x80 + i)) s) =
      fun i s ↦ probeDrive env (driveId i) s := rfl
  simp only [enumDisk, enter, TraceM.run_bind, TraceM.run_update, hid, ← ht, List.nil_append,
    List.append_nil]

/-- **`enum_disk`**, with an invariant `Q` that says more about the list and the questions. -/
theorem enumDisk_enumerated (hrep : env.ReportsErrors) (uninit : Extensions)
    (Q : ℕ → List DiskParam → List Exchange → Prop) (hstart : Q 0 [] [])
    (hstep : ∀ i ps xs (m : Machine σ), i < 128 → Q i ps xs →
      Q (i + 1) (ps ++ (probed env (driveId i) m).toList) (xs ++ asked env (driveId i) m))
    (m : Machine σ) : ∃ ps, Q 128 ps (exchanges (enumDisk env uninit m).events) ∧
      Enumerated ps (enumDisk env uninit m) := by
  obtain ⟨t, ht⟩ : ∃ t, t = TraceM.forRange 128 ⟨0, uninit⟩
      (fun i s ↦ probeDrive env (driveId i) s) { m with site := .probe } := ⟨_, rfl⟩
  have hinv : ∃ ps, Q 128 ps (exchanges t.events) ∧ Listed 128 ps t.val t.state t.events := by
    rw [ht]
    refine TraceM.forRange_invariant
      (fun i s m l ↦ ∃ ps, Q i ps (exchanges l) ∧ Listed i ps s m l)
      ⟨[], hstart, Listed.start _ rfl _⟩ ?_
    rintro i s m l hi ⟨ps, hQ, h⟩
    refine ⟨_, ?_, h.step hrep hi⟩
    rw [exchanges_append, (probeDrive_round hrep (driveId i) s m).asks]
    exact hstep i ps _ m hi hQ
  obtain ⟨ps, hQ, h⟩ := hinv
  have hlength := h.length
  have hindex := h.index
  rw [run_enumDisk uninit m ht]
  refine ⟨ps, hQ, ?_, h.slots, h.order, h.stores, h.asks, h.returns⟩
  show (UInt32.ofNat t.val.index).toNat = ps.length
  rw [UInt32.toNat_ofNat', hindex]
  omega

end Dwipe

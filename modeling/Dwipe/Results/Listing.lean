import Dwipe.Machine.Scripts
import Dwipe.Wipe.Enumeration

/-!
# The list of disks

After `enum_disk` the first slots of `disk_list` hold **exactly** the drives the BIOS has answered
for, in the order of their ids, each with its own geometry and its own extended parameters, whatever
the answers for the ids in between (`listing_exact`).

The answers are an `Assignment`: a response for each function and drive id. No question is asked
twice about a drive, so a BIOS that changes its mind is covered too: the statement is about every
assignment that agrees with the exchanges of the run.
-/

namespace Dwipe

/-- What the BIOS hands back from a question about a drive. -/
structure Response where
  carry : Bool
  reg : RegReq
  paramExt : DiskParamExt

/-- A response for each function number and drive id. -/
abbrev Assignment := UInt8 → UInt8 → Response

def Exchange.response (x : Exchange) : Response := ⟨x.carry, x.res.reg, x.res.paramExt⟩

/-- The exchanges of the trace were answered as assigned. -/
def AnsweredBy (A : Assignment) (l : List Event) : Prop :=
  ∀ x ∈ exchanges l, x.response = A x.req.reg.ah x.req.reg.dl

section assignment

variable (A : Assignment) (id : UInt8)

/-- `AH=08h` succeeds: this is what makes a drive one that is listed. -/
def present : Bool := !(A 0x08 id).carry

/-- The extension check succeeds with bit 0 of `CX` set, and so does `AH=48h`. -/
def Extended : Prop :=
  (A 0x41 id).carry = false ∧ (A 0x41 id).reg.cx.toNat % 2 = 1 ∧ (A 0x48 id).carry = false

instance : Decidable (Extended A id) := inferInstanceAs (Decidable (_ ∧ _ ∧ _))

/-- The drives below `80h + n` that are present, in increasing order. -/
def found (n : ℕ) : List UInt8 := ((List.range n).map driveId).filter (present A)

/-- The `struct disk_param` of a drive that is present. -/
def entry : DiskParam :=
  { decoded id (A 0x08 id).reg with
    hasExt := if Extended A id then 1 else 0
    ext := if Extended A id then (A 0x48 id).paramExt else DiskParamExt.zero }

theorem found_succ (n : ℕ) :
    found A (n + 1) = found A n ++ if present A (driveId n) then [driveId n] else [] := by
  simp only [found, List.range_succ, List.map_append, List.filter_append]
  cases h : present A (driveId n) <;> simp [h]

theorem mem_found : id ∈ found A 128 ↔ 0x80 ≤ id.toNat ∧ (A 0x08 id).carry = false := by
  have hlt := id.toNat_lt
  have hpresent : present A id = true ↔ (A 0x08 id).carry = false := by simp [present]
  rw [found, List.mem_filter, List.mem_map, hpresent]
  refine and_congr_left fun _ ↦ ⟨?_, fun h ↦ ⟨id.toNat - 0x80, ?_, ?_⟩⟩
  · rintro ⟨i, hi, rfl⟩
    rw [driveId_toNat (List.mem_range.1 hi)]
    omega
  · exact List.mem_range.2 (by omega)
  · apply UInt8.toNat_inj.1
    rw [driveId_toNat (by omega)]
    omega

end assignment

theorem cx_mod_two (r : RegReq) : r.cx.toNat % 2 = r.cl.toNat % 2 := by
  have hcl := r.cl.toNat_lt
  have hch := r.ch.toNat_lt
  rw [RegReq.cx, UInt16.toNat_ofNat']
  omega

variable {σ : Type} {env : Env σ} {A : Assignment}

/-- **One round against an assignment**: the drive is found with its own entry, or it is absent. -/
theorem probed_of_assigned {id : UInt8} {m : Machine σ}
    (h : ∀ x ∈ asked env id m, x.response = A x.req.reg.ah x.req.reg.dl) :
    probed env id m = if present A id then some (entry A id) else none := by
  obtain ⟨x, hx⟩ : ∃ x, x = ask08 env id m := ⟨_, rfl⟩
  obtain ⟨y, hy⟩ : ∃ y, y = ask41 env id m := ⟨_, rfl⟩
  obtain ⟨z, hz⟩ : ∃ z, z = ask48 env id m := ⟨_, rfl⟩
  rw [asked, ← hx, ← hy, ← hz] at h
  rw [probed, ← hx, ← hy, ← hz]
  -- the three questions carry the function number and the drive id
  have hx08 : x.response = A x.req.reg.ah x.req.reg.dl → x.response = A 0x08 id := by
    rw [hx]
    exact fun h ↦ h
  have hy41 : y.response = A y.req.reg.ah y.req.reg.dl → y.response = A 0x41 id := by
    rw [hy]
    exact fun h ↦ h
  have hz48 : z.response = A z.req.reg.ah z.req.reg.dl → z.response = A 0x48 id := by
    rw [hz]
    exact fun h ↦ h
  cases hc : x.carry with
  | true =>
    rw [hc, if_pos rfl] at h
    have hA : x.response = A 0x08 id := hx08 (h x List.mem_cons_self)
    have habsent : present A id = false := by
      rw [present, ← hA]
      simp [Exchange.response, hc]
    simp [habsent]
  | false =>
    rw [hc, if_neg (by simp)] at h
    have hA : x.response = A 0x08 id := hx08 (h x (by split_ifs <;> simp))
    have hB : y.response = A 0x41 id := hy41 (h y (by split_ifs <;> simp))
    have hpresent : present A id = true := by
      rw [present, ← hA]
      simp [Exchange.response, hc]
    by_cases hcond : ¬y.carry ∧ y.res.reg.cl.toNat % 2 = 1
    · rw [if_pos hcond] at h
      have hC : z.response = A 0x48 id := hz48 (h z (by simp))
      have hext : Extended A id ↔ ¬z.carry := by
        rw [Extended, ← hB, ← hC, cx_mod_two]
        simp [Exchange.response, hcond.2, hcond.1]
      by_cases hzc : z.carry
      · simp [entry, hext, hpresent, hzc, ← hA, Exchange.response, decoded]
      · simp [entry, hext, hpresent, hzc, hcond.1, hcond.2, ← hA, ← hC, Exchange.response]
    · have hext : ¬Extended A id := by
        rw [Extended, ← hB, cx_mod_two]
        intro hE
        exact hcond ⟨by simpa [Exchange.response] using hE.1, hE.2.1⟩
      have hneg : ¬(¬y.carry ∧ y.res.reg.cl.toNat % 2 = 1 ∧ ¬z.carry) := fun hE ↦
        hcond ⟨hE.1, hE.2.1⟩
      rw [if_neg hneg]
      simp [entry, hext, hpresent, ← hA, Exchange.response, decoded]

/-- The list after `enum_disk` is the list of the drives found. -/
theorem enumerated_found (hrep : env.ReportsErrors) {uninit : Extensions} {m : Machine σ}
    (hA : AnsweredBy A (enumDisk env uninit m).events) :
    Enumerated ((found A 128).map (entry A)) (enumDisk env uninit m) := by
  obtain ⟨ps, hps, h⟩ := enumDisk_enumerated hrep uninit
    (fun i ps xs ↦ (∀ x ∈ xs, x.response = A x.req.reg.ah x.req.reg.dl) →
      ps = (found A i).map (entry A))
    (fun _ ↦ rfl)
    (by
      intro i ps xs m hi hps h
      rw [hps fun x hx ↦ h x (List.mem_append_left _ hx),
        probed_of_assigned fun x hx ↦ h x (List.mem_append_right _ hx), found_succ]
      split_ifs <;> simp)
    m
  rwa [hps hA] at h

/-- **Enumeration is exact.** With the BIOS reporting its errors in `AH`, and its answers in the run
being `A`: the counter is the number of drives present; the slots below it hold those drives in
strictly increasing order, each as its own responses describe it; an entry has extensions exactly
if both extended questions succeeded for its drive; and no slot from 128 on is stored to. -/
theorem listing_exact (hrep : env.ReportsErrors) (uninit : Extensions) (m : Machine σ)
    (hA : AnsweredBy A (enumDisk env uninit m).events) :
    let t := enumDisk env uninit m
    t.state.totalDiskCnt.toNat = (found A 128).length ∧
    (List.range t.state.totalDiskCnt.toNat).map t.state.diskList = (found A 128).map (entry A) ∧
    (∀ id, id ∈ found A 128 ↔ 0x80 ≤ id.toNat ∧ (A 0x08 id).carry = false) ∧
    ((found A 128).map UInt8.toNat).Pairwise (· < ·) ∧
    (∀ k < t.state.totalDiskCnt.toNat,
      t.state.diskList k = entry A (t.state.diskList k).diskId ∧
      ((t.state.diskList k).hasExt = 1 ↔ Extended A (t.state.diskList k).diskId) ∧
      (¬Extended A (t.state.diskList k).diskId →
        (t.state.diskList k).ext = DiskParamExt.zero)) ∧
    ∀ k, .store k ∈ t.events → k < 128 := by
  intro t
  have h : Enumerated ((found A 128).map (entry A)) t := enumerated_found hrep hA
  have htotal : t.state.totalDiskCnt.toNat = (found A 128).length := by
    rw [h.total, List.length_map]
  have hslots : (List.range t.state.totalDiskCnt.toNat).map t.state.diskList =
      (found A 128).map (entry A) := by
    rw [h.total]
    exact h.slots
  have horder : ((found A 128).map UInt8.toNat).Pairwise (· < ·) := by
    have := h.order
    rwa [List.map_map] at this
  refine ⟨htotal, hslots, mem_found A, horder, fun k hk ↦ ?_, h.stores⟩
  have hmem : t.state.diskList k ∈ (found A 128).map (entry A) := by
    rw [← hslots]
    exact List.mem_map_of_mem (List.mem_range.2 hk)
  obtain ⟨id, -, hid⟩ := List.mem_map.1 hmem
  rw [← hid]
  refine ⟨rfl, ?_, fun hext ↦ if_neg hext⟩
  show (if Extended A id then (1 : UInt8) else 0) = 1 ↔ Extended A id
  split_ifs with hext <;> simp [hext]

/-- The BIOS that answers every question as assigned. -/
def Env.assigned (A : Assignment) : Env Unit :=
  Env.ofBios (fun _ q ↦
    ⟨(A q.reg.ah q.reg.dl).carry,
      { q with reg := (A q.reg.ah q.reg.dl).reg, paramExt := (A q.reg.ah q.reg.dl).paramExt }, ()⟩)
    fun _ ↦ 0

theorem answeredBy_assigned (A : Assignment) (hrep : (Env.assigned A).ReportsErrors)
    (uninit : Extensions) (m : Machine Unit) :
    AnsweredBy A (enumDisk (Env.assigned A) uninit m).events := by
  obtain ⟨-, h, -⟩ := enumDisk_enumerated hrep uninit
    (fun _ _ xs ↦ ∀ x ∈ xs, x.response = A x.req.reg.ah x.req.reg.dl) (by simp)
    (by
      intro i ps xs m hi h x hx
      rcases List.mem_append.1 hx with hx | hx
      · exact h x hx
      · rcases mem_asked hx with rfl | rfl | rfl <;> rfl)
    m
  exact h

/-- Two drives with a gap between them: `80h` without extensions, `82h` with 17 sectors. -/
def twoDrives : Assignment := fun ah dl ↦
  if dl = 0x80 then
    if ah = 0x08 then
      ⟨false, { RealArea.zero.reg with cl := 63, ch := 9, dl := 2, dh := 254 }, DiskParamExt.zero⟩
    else ⟨true, { RealArea.zero.reg with ah := 1 }, DiskParamExt.zero⟩
  else if dl = 0x82 then
    ⟨false, { RealArea.zero.reg with cl := 1, dl := 2 },
      { DiskParamExt.zero with nsectors := 17, bytesPerSector := 512 }⟩
  else ⟨true, { RealArea.zero.reg with ah := 1 }, DiskParamExt.zero⟩

theorem listing_exact_two : found twoDrives 128 = [0x80, 0x82] ∧
    (enumDisk (Env.assigned twoDrives) ⟨0, 0⟩ (Machine.fresh () 1)).state.totalDiskCnt.toNat = 2 ∧
    (List.range 2).map
      (enumDisk (Env.assigned twoDrives) ⟨0, 0⟩ (Machine.fresh () 1)).state.diskList =
      [entry twoDrives 0x80, entry twoDrives 0x82] := by
  have hrep : (Env.assigned twoDrives).ReportsErrors := by
    intro b q
    show (twoDrives q.reg.ah q.reg.dl).carry = true → (twoDrives q.reg.ah q.reg.dl).reg.ah ≠ 0
    rw [twoDrives]
    split_ifs <;> decide
  have hfound : found twoDrives 128 = [0x80, 0x82] := by decide +kernel
  obtain ⟨htotal, hslots, -⟩ := listing_exact hrep ⟨0, 0⟩ (Machine.fresh () 1)
    (answeredBy_assigned twoDrives hrep _ _)
  rw [hfound] at htotal hslots
  refine ⟨hfound, htotal, ?_⟩
  rw [htotal] at hslots
  exact hslots

end Dwipe

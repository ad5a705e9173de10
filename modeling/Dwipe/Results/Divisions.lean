import Dwipe.Machine.Scripts
import Dwipe.Wipe.Walk

/-!
# Divisions

No divisor of `wipe_disk` is tested where it is used. Each of them is kept from being 0 somewhere
else: the sector size by the CD-ROM test, the length of a track by an empty wipe loop, since the
product of the geometry is then 0, and the divisors of the progress line by the guards in front of
them. The walk over the program has put these together (`wipeDisk_regular`), and
`divisions_defined` reads the divisions off it.

A linear number that `lba2chs` is given in a run is that of a call that was due. With at most 255
heads it lies **inside the geometry**, so it is converted, and to a triple of the geometry.
-/

namespace Dwipe

variable {σ : Type} {env : Env σ} {opt : Options} {param : DiskParam}

/-! ### Drives as they are filled in -/

/-- What decoding `CX` makes sure of. -/
structure DiskParam.Filled (param : DiskParam) : Prop where
  cylinders : param.lastCylinders.toNat ≤ 1023
  sectors : param.lastSectorsPerTrack.toNat ≤ 63

theorem decoded_filled (diskId : UInt8) (r : RegReq) : (decoded diskId r).Filled := by
  have hw := r.cx.toNat_lt
  constructor
  · rw [decoded, getChsFromPack_eq, UInt16.toNat_ofNat']
    refine (Nat.mod_le _ _).trans ?_
    show r.cx.toNat / 64 % 4 * 256 + r.cx.toNat / 256 ≤ 1023
    omega
  · rw [decoded, getChsFromPack_eq, UInt8.toNat_ofNat']
    refine (Nat.mod_le _ _).trans ?_
    show r.cx.toNat % 64 ≤ 63
    omega

/-- **Whatever `get_disk_param` fills in is decoded**, for every answer of the BIOS. -/
theorem getDiskParam_filled (diskId : UInt8) (m : Machine σ) :
    (getDiskParam env diskId m).val.2.Filled := by
  rw [run_getDiskParam m rfl]
  dsimp only
  split
  · exact ⟨Nat.zero_le _, Nat.zero_le _⟩
  · exact decoded_filled diskId _

/-- **`get_disk_param_ext` leaves the geometry alone**, so what decoding makes sure of stays
true. -/
theorem getDiskParamExt_filled (h : param.Filled) (m : Machine σ) :
    (getDiskParamExt env param m).val.2.Filled := by
  rw [run_getDiskParamExt m rfl]
  dsimp only
  split
  · exact h
  · exact ⟨h.cylinders, h.sectors⟩

/-! ### Conversions -/

/-- The number a recorded return was computed from, if it is one of `wipe_sectors_lba`. -/
def Call.offset? : Call → Option UInt64
  | .wipeSectorsLba offset _ => some offset
  | _ => none

/-- The linear numbers `lba2chs` is called with in a run: those of the calls of `wipe_sectors_lba`,
if the drive has no extensions. -/
def converted (param : DiskParam) (l : List Event) : List UInt64 :=
  if param.hasExt ≠ 0 then [] else (returns l).filterMap fun p ↦ p.1.offset?

theorem mem_converted {l : List Event} {lba : UInt64} (h : lba ∈ converted param l) :
    param.hasExt = 0 ∧ ∃ n ret, .returned (.wipeSectorsLba lba n) ret ∈ l := by
  rw [converted] at h
  split at h
  · exact absurd h List.not_mem_nil
  · next hext =>
    obtain ⟨⟨c, ret⟩, hmem, hc⟩ := List.mem_filterMap.1 h
    cases c with
    | wipeSectorsLba offset n =>
      obtain rfl : offset = lba := Option.some.inj hc
      exact ⟨not_not.1 hext, n, ret, mem_returns.1 hmem⟩
    | isSkipedDisk | passWrite | mbrWrite | wipeDisk => exact absurd hc (by simp [Call.offset?])

/-- `lba2chs` answers 0 for the number, with a triple of the geometry. -/
def Converts (param : DiskParam) (lba : UInt64) : Prop :=
  ∃ a, lba2chs param lba = some a ∧
    (0 ≤ a.cylinder ∧ a.cylinder ≤ param.lastCylinders.toNat) ∧
    (0 ≤ a.head ∧ a.head ≤ param.lastHeads.toNat) ∧
    1 ≤ a.sector ∧ a.sector ≤ param.lastSectorsPerTrack.toNat

/-- **A call that is due is converted** to a triple of the geometry. -/
theorem converts_of_due (hdec : param.Decoded) (hext : param.hasExt = 0) {offset : UInt64}
    {n : UInt32} (hdue : Due opt param (.wipeSectorsLba offset n)) : Converts param offset := by
  have hp : isCdrom param = 0 := isCdrom_eq_zero_iff.2 fun h ↦ absurd hext h
  have htotal := totalSec_toNat_chs opt (Or.inl hext) hdec.geometrySectors_lt
  obtain ⟨i, ⟨p, hmem, hoffset, -⟩, -⟩ := due_call hp hdue
  obtain ⟨-, hstart, -⟩ := mem_spans hmem
  obtain ⟨a, ha, haddr⟩ := lba2chs_of_lt hdec (show offset.toNat < geometrySectors param by omega)
  obtain ⟨hcylinder, hhead, hsector⟩ := inGeometry_iff.2 haddr.inside
  exact ⟨a, ha, hcylinder, hhead, hsector⟩

/-- **No division of a run of `wipe_disk` is by zero**, and with at most 255 heads every linear
number is converted to a triple of the geometry. -/
theorem divisions_defined (env : Env σ) (opt : Options) (param : DiskParam) (hfill : param.Filled)
    (m : Machine σ) :
    (∀ d, .divide d ∈ (wipeDisk env opt param m).events → d ≠ 0) ∧
      (param.lastHeads.toNat ≤ 254 →
        ∀ lba ∈ converted param (wipeDisk env opt param m).events, Converts param lba) := by
  refine ⟨fun d hd ↦ wipeDisk_regular hd trivial, fun hheads lba hlba ↦ ?_⟩
  obtain ⟨hext, n, ret, hmem⟩ := mem_converted hlba
  have hdue : Due opt param (.wipeSectorsLba lba n) := wipeDisk_regular hmem trivial
  exact converts_of_due ⟨hfill.cylinders, hfill.sectors, hheads⟩ hext hdue

/-- A drive of one cylinder with two heads of four sectors, as the BIOS describes it. -/
def smallDrive : DiskParam := decoded 0x80 ⟨0, 0, 0, 0, 4, 0, 1, 1, 0, 0⟩

/-- The wipe of the small drive converts one number, to a triple of its geometry. -/
theorem divisions_defined_small :
    converted smallDrive
        (wipeDisk failing Options.plain smallDrive (Machine.fresh () 1)).events = [0] ∧
      Converts smallDrive 0 ∧
      ∀ d, .divide d ∈ (wipeDisk failing Options.plain smallDrive (Machine.fresh () 1)).events →
        d ≠ 0 := by
  have hconverted : converted smallDrive
      (wipeDisk failing Options.plain smallDrive (Machine.fresh () 1)).events = [0] := by rfl
  have h := divisions_defined failing Options.plain smallDrive (decoded_filled _ _)
    (Machine.fresh () 1)
  refine ⟨hconverted, h.2 (by decide) 0 ?_, h.1⟩
  rw [hconverted]
  exact List.mem_singleton_self 0

end Dwipe

import Dwipe.Disk.Sizes
import Dwipe.Wipe.Runs
import Dwipe.Wipe.Walk

/-!
# Requests and tracks

Whether a CHS request stays on the track it starts on. `wipe_disk` cuts a disk into chunks of 16
sectors and converts the first sector of each to a triple; nothing in the program looks at the end
of the track. So a chunk runs over it wherever the track ends in the middle of a chunk.

That never happens on a drive whose tracks are a multiple of 16 sectors long, on a drive that is one
track, and on one whose tracks are too long to be addressed: there the wipe is given up at the first
sector beyond the 63rd, which is sector 65 (`within_tracks_iff`).
-/

namespace Dwipe

variable {σ : Type} {env : Env σ} {opt : Options} {param : DiskParam}

/-- The request is no CHS request, or it ends on the track it starts on. -/
def Exchange.InTrack (param : DiskParam) (x : Exchange) : Prop :=
  x.req.reg.ah = 0x02 ∨ x.req.reg.ah = 0x03 ∨ x.req.reg.ah = 0x04 →
    (getChsFromPack x.req.reg.cx).2 + x.req.reg.al.toNat ≤ param.lastSectorsPerTrack.toNat + 1

/-- **No CHS request of a run of `wipe_disk` crosses the end of a track**, whatever the options and
the BIOS are. -/
def WithinTracks (param : DiskParam) : Prop :=
  ∀ opt (σ : Type) (env : Env σ) m,
    ∀ x ∈ exchanges (wipeDisk env opt param m).events, x.InTrack param

/-! ### One transfer -/

section transfers

variable {a : Chs} {n size : UInt32} {buffer : Buffer} {isWrite : Bool}

/-- What a request of the CHS functions says about its sectors. -/
theorem inTrack_iff {x : Exchange} (hacc : ¬chsRefused isWrite param a n size)
    {ah : UInt8} {r : RealArea} (hx : x.req = chsRequest env param a n ah r)
    (hah : ah = 0x02 ∨ ah = 0x03 ∨ ah = 0x04) :
    x.InTrack param ↔ a.sector.toNat + n.toNat ≤ param.lastSectorsPerTrack.toNat + 1 := by
  obtain ⟨hn, -⟩ := chs_bounds hacc
  simp only [chsRefused, not_or] at hacc
  obtain ⟨hc0, hc1, -, -, hs0, hs1⟩ := varifyChs_eq_zero_iff.1 (varifyChs_nonneg_iff.1 hacc.1)
  have hpack : getChsFromPack x.req.reg.cx = (a.cylinder.toNat, a.sector.toNat) := by
    rw [hx, chsRequest_cx]
    exact getChsFromPack_setChsToPack (by omega) (by omega)
  have hal : x.req.reg.al.toNat = n.toNat := by
    rw [hx, chsRequest_al]
    exact toUInt8_toNat hn
  have hfun : x.req.reg.ah = 0x02 ∨ x.req.reg.ah = 0x03 ∨ x.req.reg.ah = 0x04 := by
    rw [hx, chsRequest_ah]
    exact hah
  rw [Exchange.InTrack, hpack, hal]
  exact ⟨fun h ↦ h hfun, fun h _ ↦ h⟩

/-- Every CHS request of the trace ends on its track. -/
def KeepsTracks (param : DiskParam) (l : List Event) : Prop := ∀ x ∈ exchanges l, x.InTrack param

theorem keepsTracks_framed (param : DiskParam) : Framed (KeepsTracks param) where
  nil := fun _ h ↦ absurd h List.not_mem_nil
  append h h' x hx := by
    rw [exchanges_append, List.mem_append] at hx
    exact hx.elim (h x) (h' x)
  incidental e he := by
    cases e with
    | returned | store | divide | account | progress => exact fun _ h ↦ absurd h List.not_mem_nil
    | int13 | transfer | copy => exact he.elim

theorem readSectorsChs_keepsTracks (h : ¬chsRefused false param a n size →
    a.sector.toNat + n.toNat ≤ param.lastSectorsPerTrack.toNat + 1) :
    TraceM.Records (KeepsTracks param) (fun _ ↦ True)
      (readSectorsChs env param a n buffer size) := by
  refine fun m ↦ ⟨fun x hx ↦ ?_, trivial⟩
  obtain ⟨hacc, rfl⟩ := eq_of_mem_readSectorsChs hx
  exact (inTrack_iff hacc rfl (Or.inl rfl)).2 (h hacc)

theorem writeSectorsChs_keepsTracks {check : Bool} (h : ¬chsRefused true param a n size →
    a.sector.toNat + n.toNat ≤ param.lastSectorsPerTrack.toNat + 1) :
    TraceM.Records (KeepsTracks param) (fun _ ↦ True)
      (writeSectorsChs env param a n buffer size check) := by
  refine fun m ↦ ⟨fun x hx ↦ ?_, trivial⟩
  by_cases href : chsRefused true param a n size
  · rw [writeSectorsChs, sectorChsRw_of_refused href] at hx
    exact absurd hx (by simp)
  obtain ⟨w, hw⟩ : ∃ w, w =
    exchangeAt env m (chsAsk env true param a n buffer size m.area) := ⟨_, rfl⟩
  obtain ⟨ys, hevents, hverify, -⟩ := writeSectorsChs_shape href m hw
  rw [hevents] at hx
  have hmem : x = w ∨ x ∈ ys := by simpa using hx
  rcases hmem with rfl | hy
  · exact (inTrack_iff href (congrArg Exchange.req hw) (Or.inr (Or.inl rfl))).2 (h href)
  · exact (inTrack_iff href (hverify x hy) (Or.inr (Or.inr rfl))).2 (h href)

theorem readSectorsLba_keepsTracks {offset : UInt64} :
    TraceM.Records (KeepsTracks param) (fun _ ↦ True)
      (readSectorsLba env param offset n buffer size) := by
  refine fun m ↦ ⟨fun x hx ↦ ?_, trivial⟩
  obtain ⟨-, rfl⟩ := eq_of_mem_readSectorsLba hx
  intro hah
  simp [exchangeAt, lbaAsk] at hah

/-- A request for one sector ends where it starts. -/
theorem one_sector_fits (h : ¬chsRefused isWrite param a 1 size) :
    a.sector.toNat + (1 : UInt32).toNat ≤ param.lastSectorsPerTrack.toNat + 1 := by
  simp only [chsRefused, not_or, outsideGeometry] at h
  have hone : (1 : UInt32).toNat = 1 := rfl
  omega

end transfers

/-! ### The calls that are due -/

/-- The sector of a call in the CHS addressing, counted from 1. -/
theorem sector_of_lba2chs {lba : UInt64} {a : Chs} (h : lba2chs param lba = some a) :
    a.sector.toNat = lba.toNat % param.lastSectorsPerTrack.toNat + 1 := by
  rw [lba2chs] at h
  split_ifs at h
  rw [← Option.some.inj h]
  rfl

/-- The geometries in which no chunk runs over the end of a track. -/
def TracksFit (param : DiskParam) : Prop :=
  63 < param.lastSectorsPerTrack.toNat ∨ param.lastSectorsPerTrack.toNat % 16 = 0 ∨
    (param.lastHeads = 0 ∧ param.lastCylinders = 0)

instance (param : DiskParam) : Decidable (TracksFit param) :=
  inferInstanceAs (Decidable (_ ∨ _ ∨ _))

/-- A chunk that starts beyond the addressable sectors of its track is refused. -/
theorem refused_beyond (hext : param.hasExt = 0) {p : Span} (hlen : p.start < 2 ^ 64)
    (h : 62 < p.start % param.lastSectorsPerTrack.toNat) : refused opt param (spanCall p) := by
  have hnat : (UInt64.ofNat p.start).toNat = p.start := by
    rw [UInt64.toNat_ofNat']
    omega
  show callRefused opt param (UInt64.ofNat p.start) (UInt32.ofNat p.len) wipeBufferSize
  rw [callRefused, if_neg (not_not.2 hext)]
  intro a ha
  have hsec := sector_of_lba2chs ha
  rw [hnat] at hsec
  refine Or.inl ?_
  by_contra hv
  obtain ⟨-, -, -, -, -, hs1⟩ := varifyChs_eq_zero_iff.1 (varifyChs_nonneg_iff.1 hv)
  omega

/-- Chunks of 16 sectors fit into tracks of a multiple of 16 sectors. -/
theorem mod_add_le_of_dvd {S i n : ℕ} (hS : 0 < S) (hdvd : S % 16 = 0) (hn : n ≤ 16) :
    16 * i % S + n ≤ S := by
  obtain ⟨j, rfl⟩ := Nat.dvd_of_mod_eq_zero hdvd
  have hlt := Nat.mod_lt i (show 0 < j by omega)
  rw [Nat.mul_mod_mul_left]
  omega

/-- **A call that is due** ends on the track it starts on, in such a geometry. -/
theorem due_fits (hext : param.hasExt = 0) (hfit : TracksFit param) {offset : UInt64} {n : UInt32}
    (hdue : Due opt param (.wipeSectorsLba offset n)) {a : Chs}
    (ha : lba2chs param offset = some a) {isWrite : Bool}
    (hacc : ¬chsRefused isWrite param a n wipeBufferSize) :
    a.sector.toNat + n.toNat ≤ param.lastSectorsPerTrack.toNat + 1 := by
  have hp : isCdrom param = 0 := isCdrom_eq_zero_iff.2 fun h ↦ absurd hext h
  obtain ⟨i, ⟨p, hmem, hoffset, hn, hstart⟩, hchunks⟩ := due_call hp hdue
  obtain ⟨hlen, hlt, hend⟩ := mem_spans hmem
  have hsec := sector_of_lba2chs ha
  rw [hoffset] at hsec
  simp only [chsRefused, not_or] at hacc
  obtain ⟨-, -, -, -, hs0, hs1⟩ := varifyChs_eq_zero_iff.1 (varifyChs_nonneg_iff.1 hacc.1)
  have hin := hacc.2.2.2.2.2
  simp only [outsideGeometry, not_or] at hin
  have hpos : 0 < param.lastSectorsPerTrack.toNat := by omega
  have hfits : p.start % param.lastSectorsPerTrack.toNat + p.len ≤
      param.lastSectorsPerTrack.toNat := by
    rcases hfit with hlong | hdvd | ⟨hheads, hcyls⟩
    · by_cases h64 : param.lastSectorsPerTrack.toNat = 64
      · rw [hstart]
        exact mod_add_le_of_dvd hpos (by omega) hlen
      · -- the fifth chunk would start at sector 65, so the call is one of the first four
        have hfour : i ≤ 4 := by
          by_contra hi
          refine hchunks 4 (by omega) (refused_beyond hext (by decide) ?_)
          show 62 < 64 % param.lastSectorsPerTrack.toNat
          rw [Nat.mod_eq_of_lt (by omega)]
          decide
        rw [Nat.mod_eq_of_lt (by omega)] at hsec ⊢
        omega
    · rw [hstart]
      exact mod_add_le_of_dvd hpos hdvd hlen
    · have hgeo : geometrySectors param = param.lastSectorsPerTrack.toNat := by
        simp [geometrySectors, hheads, hcyls]
      have hS := param.lastSectorsPerTrack.toNat_lt
      have htotal := totalSec_toNat_chs opt (Or.inl hext) (by omega)
      rw [Nat.mod_eq_of_lt (by omega)]
      omega
  omega

/-- **In such a geometry no request crosses the end of a track.** -/
theorem withinTracks_of_fit (hext : param.hasExt = 0) (hfit : TracksFit param) :
    WithinTracks param := by
  intro opt σ env m
  refine (wipeDisk_records ((keepsTracks_framed param).around _ _) (fun _ ↦ ?_) (fun _ ↦ ?_) m).1
  · exact ⟨fun a b _ ↦ readSectorsChs_keepsTracks one_sector_fits,
      fun offset b _ ↦ readSectorsLba_keepsTracks⟩
  · refine ⟨fun offset n hdue ↦ ?_, fun _ b _ ↦ writeSectorsChs_keepsTracks one_sector_fits⟩
    exact ⟨fun h ↦ absurd hext h, fun h ↦ absurd hext h,
      fun _ _ a ha b _ ↦ readSectorsChs_keepsTracks fun hacc ↦ due_fits hext hfit hdue ha hacc,
      fun _ _ a ha b _ ↦ writeSectorsChs_keepsTracks fun hacc ↦ due_fits hext hfit hdue ha hacc⟩

/-! ### A call that crosses -/

/-- The registers of a CHS write. -/
theorem of_write_chs {x : Exchange} {site : Site} {diskId : UInt8} {cx : UInt16} {dh al : UInt8}
    {payload : List UInt8} (h : x.write? = some ⟨site, diskId, .chs cx dh al, payload⟩) :
    x.req.reg.ah = 0x03 ∧ x.req.reg.cx = cx ∧ x.req.reg.al = al := by
  rw [Exchange.write?] at h
  split_ifs at h with hah
  · simp only [Option.some.injEq, Write.mk.injEq, Target.chs.injEq] at h
    exact ⟨hah, h.2.2.1.1, h.2.2.1.2.2⟩
  · simp at h

/-- The write requests of a run include those of its last step. -/
theorem mem_writes_of_last {mbrBin byte : ℕ → UInt8} {r : UInt64} {done : List Call} {c : Call}
    {ret : ℤ} {l : List Event} (h : Ran opt param mbrBin byte r (done ++ [c]) ret l) {w : Write}
    (hw : w ∈ stepWrites opt param mbrBin byte (runRand opt r done) c) : w ∈ writes l := by
  rw [h.writes, runWrites_append, List.mem_append]
  refine Or.inr ?_
  rw [runWrites, runWrites, List.append_nil]
  exact hw

/-- The request of the first pass of a call. -/
theorem exists_mem_stepWrites (hext : param.hasExt = 0) (htest : opt.test = false)
    {offset : UInt64} {n : UInt32} {a : Chs} (ha : lba2chs param offset = some a)
    (mbrBin byte : ℕ → UInt8) (r : UInt64) :
    ∃ payload, (⟨.pass 0, param.diskId, .chs (setChsToPack a.cylinder.toNat a.sector.toNat)
        (UInt8.ofNat a.head.toNat) n.toUInt8, payload⟩ : Write) ∈
      stepWrites opt param mbrBin byte r (.wipeSectorsLba offset n) := by
  have hpass : 0 ∈ List.range (passes opt) := List.mem_range.2 (passes_pos opt)
  have haim : aimedAt param offset n = some (.chs
      (setChsToPack a.cylinder.toNat a.sector.toNat) (UInt8.ofNat a.head.toNat) n.toUInt8) := by
    rw [aimedAt, if_neg (not_not.2 hext), ha]
    rfl
  have hwrites : stepWrites opt param mbrBin byte r (.wipeSectorsLba offset n) =
      passWrites param.diskId (.chs (setChsToPack a.cylinder.toNat a.sector.toNat)
        (UInt8.ofNat a.head.toNat) n.toUInt8) n.toNat
        (sentByte opt param byte wipeBufferSize.toNat r) (passes opt) := by
    rw [stepWrites, callWrites, htest, haim]
    simp
  rw [hwrites]
  exact ⟨_, List.mem_map.2 ⟨0, hpass, rfl⟩⟩

/-- A step that writes past the end of its track, behind accepted steps. -/
theorem exists_crossing (hext : param.hasExt = 0) {done : List Call} {p : Span}
    (hpre : done ++ [spanCall p] <+: plan Options.plain param)
    (hacc : ∀ c ∈ done ++ [spanCall p], ¬refused Options.plain param c)
    (hstart : p.start < param.lastSectorsPerTrack.toNat) (hlen : p.len ≤ 16)
    (hcross : param.lastSectorsPerTrack.toNat < p.start + p.len) :
    ¬∀ x ∈ exchanges (wipeDisk failing Options.plain param (Machine.fresh () 1)).events,
      x.InTrack param := by
  intro hall
  have hp : isCdrom param = 0 := isCdrom_eq_zero_iff.2 fun h ↦ absurd hext h
  have hS := param.lastSectorsPerTrack.toNat_lt
  have hoffset : (UInt64.ofNat p.start).toNat = p.start := by
    rw [UInt64.toNat_ofNat']
    omega
  have hcount : (UInt32.ofNat p.len).toNat = p.len := by
    rw [UInt32.toNat_ofNat']
    omega
  -- the address the call is converted to
  obtain ⟨a, ha, hchs⟩ : ∃ a, lba2chs param (UInt64.ofNat p.start) = some a ∧
      ¬chsRefused true param a (UInt32.ofNat p.len) wipeBufferSize := by
    have hcall : ¬callRefused Options.plain param (UInt64.ofNat p.start) (UInt32.ofNat p.len)
        wipeBufferSize := hacc (spanCall p) (by simp)
    have htest : (!Options.plain.test) = true := rfl
    rw [callRefused, if_neg (not_not.2 hext), htest] at hcall
    simpa using hcall
  have hsec := sector_of_lba2chs ha
  rw [hoffset, Nat.mod_eq_of_lt hstart] at hsec
  -- the request it makes
  obtain ⟨l₀, m', hrun, -, -⟩ := (starts_failing hp :
    Starts failing Options.plain param (Machine.fresh () 1) fun _ ↦ 0).split
  obtain ⟨ret, l₁, l₂, hl, hran⟩ := wipeBuffer_prefix hp hpre hacc failing
    ⟨wipeBufferSize.toNat, fun _ ↦ 0⟩ m'
  have htest : Options.plain.test = false := rfl
  obtain ⟨payload, hmem⟩ := exists_mem_stepWrites hext htest ha failing.mbrBin (fun _ ↦ 0)
    (runRand Options.plain m'.randNext done)
  have hw := mem_writes_of_last hran hmem
  obtain ⟨x, hx, hxw, -⟩ := exchange_of_write hw
  obtain ⟨hah, hcx, hal⟩ := of_write_chs hxw
  have hx' : x ∈ exchanges (wipeDisk failing Options.plain param (Machine.fresh () 1)).events := by
    rw [hrun, hl]
    simp [hx]
  have hfit := hall x hx' (Or.inr (Or.inl hah))
  have hv := hchs
  simp only [chsRefused, not_or] at hv
  obtain ⟨hc0, hc1, -, -, -, hs1⟩ := varifyChs_eq_zero_iff.1 (varifyChs_nonneg_iff.1 hv.1)
  rw [hcx, hal, getChsFromPack_setChsToPack (by omega) (by omega),
    toUInt8_toNat (by omega), hcount] at hfit
  simp only at hfit
  omega

/-- A call at the start of the disk, on the first track. -/
theorem accepted_of_start (hext : param.hasExt = 0) {p : Span} (hlen : p.len ≤ 16)
    (hstart : p.start < param.lastSectorsPerTrack.toNat)
    (hspt : param.lastSectorsPerTrack.toNat ≤ 63) : ¬refused opt param (spanCall p) := by
  have hp : isCdrom param = 0 := isCdrom_eq_zero_iff.2 fun h ↦ absurd hext h
  have hoffset : (UInt64.ofNat p.start).toNat = p.start := by
    rw [UInt64.toNat_ofNat']
    omega
  have hcount : (UInt32.ofNat p.len).toNat = p.len := by
    rw [UInt32.toNat_ofNat']
    omega
  have haddr : lba2chs param (UInt64.ofNat p.start) = some ⟨0, 0, (p.start + 1 : ℕ)⟩ := by
    have hmax : p.start ≤ maxLba := by
      have h63 : 63 ≤ maxLba := by decide
      omega
    have hcyl : p.start / (param.lastSectorsPerTrack.toNat * (param.lastHeads.toNat + 1)) = 0 :=
      Nat.div_eq_of_lt (Nat.lt_of_lt_of_le hstart (Nat.le_mul_of_pos_right _ (by omega)))
    rw [lba2chs, hoffset, if_pos hmax, hcyl, Nat.div_eq_of_lt hstart, Nat.mod_eq_of_lt hstart,
      Nat.zero_mod]
    rfl
  obtain ⟨h1, h2, h3⟩ := count_accepted (n := UInt32.ofNat p.len) (by omega)
  intro href
  have hcall : callRefused opt param (UInt64.ofNat p.start) (UInt32.ofNat p.len)
      wipeBufferSize := href
  rw [callRefused, if_neg (not_not.2 hext)] at hcall
  have hchs := hcall _ haddr
  rw [chsRefused, sectorSize_of_not_cdrom hp] at hchs
  rcases hchs with h | h | h | h | h | h
  · refine varifyChs_nonneg_iff.2 (varifyChs_eq_zero_iff.2 ?_) h
    refine ⟨?_, ?_, ?_, ?_, ?_, ?_⟩ <;> simp only <;> omega
  · exact h1 h
  · exact h2 h
  · exact h3 h
  · exact absurd h.2 (by decide)
  · rcases h with h | h | h | h | h | h <;> simp only at h <;> omega

/-- The chunk in which the first track ends, or the remainder of a smaller disk. -/
theorem exists_span_crossing {S N : ℕ} (hmod : S % 16 ≠ 0) (hN : 2 * S ≤ N) (hlt : N < 2 ^ 55) :
    ∃ p, (spans N)[S / 16]? = some p ∧ S < p.start + p.len := by
  by_cases hchunk : S / 16 < N % 2 ^ 55 / 16
  · refine ⟨⟨16 * (S / 16), 16⟩, ?_, ?_⟩
    · rw [spans, List.getElem?_append_left (by simpa using hchunk), List.getElem?_map,
        List.getElem?_range hchunk]
      rfl
    · simp only
      omega
  · -- fewer than 16 sectors in all
    have hzero : S / 16 = 0 ∧ N % 2 ^ 55 / 16 = 0 ∧ N % 16 = N := by omega
    refine ⟨⟨0, N⟩, ?_, ?_⟩
    · rw [spans, hzero.1, hzero.2.1, if_neg (by omega), hzero.2.2]
      rfl
    · simp only
      omega

/-- **Where the first track ends in the middle of a chunk**, that chunk runs over it. -/
theorem not_withinTracks (hext : param.hasExt = 0) (hfit : ¬TracksFit param) :
    ¬∀ x ∈ exchanges (wipeDisk failing Options.plain param (Machine.fresh () 1)).events,
      x.InTrack param := by
  simp only [TracksFit, not_or, not_lt] at hfit
  obtain ⟨hspt, hmod, hmore⟩ := hfit
  have hp : isCdrom param = 0 := isCdrom_eq_zero_iff.2 fun h ↦ absurd hext h
  obtain ⟨S, hS⟩ : ∃ S, S = param.lastSectorsPerTrack.toNat := ⟨_, rfl⟩
  -- the geometry has more than one track, and its product does not wrap
  have htracks : 2 ≤ (param.lastHeads.toNat + 1) * (param.lastCylinders.toNat + 1) := by
    by_contra hone
    have hheads := Nat.le_mul_of_pos_right (param.lastHeads.toNat + 1)
      (show 0 < param.lastCylinders.toNat + 1 by omega)
    have hcyls := Nat.le_mul_of_pos_left (param.lastCylinders.toNat + 1)
      (show 0 < param.lastHeads.toNat + 1 by omega)
    refine hmore ⟨UInt8.toNat_inj.1 ?_, UInt16.toNat_inj.1 ?_⟩
    · show param.lastHeads.toNat = 0
      omega
    · show param.lastCylinders.toNat = 0
      omega
  have hN : 2 * S ≤ geometrySectors param := by
    rw [geometrySectors, hS]
    exact Nat.mul_le_mul_right _ htracks
  have hlt : geometrySectors param < 2 ^ 31 := by
    have hheads := param.lastHeads.toNat_lt
    have hcyls := param.lastCylinders.toNat_lt
    calc geometrySectors param
        ≤ 256 * 65536 * 63 :=
          Nat.mul_le_mul (Nat.mul_le_mul (by omega) (by omega)) hspt
      _ < 2 ^ 31 := by decide
  have htotal : (totalSec Options.plain param).toNat = geometrySectors param :=
    totalSec_toNat_chs Options.plain (Or.inl hext) hlt
  obtain ⟨p, hget, hcross⟩ := exists_span_crossing (hS ▸ hmod) hN (by omega)
  obtain ⟨hstart, -⟩ := spans_getElem? hget
  obtain ⟨hlen, -, -⟩ := mem_spans (List.mem_of_getElem? hget)
  obtain ⟨done, hdone⟩ : ∃ done, done =
    ((spans (geometrySectors param)).take (S / 16)).map spanCall := ⟨_, rfl⟩
  have htake : done ++ [spanCall p] =
      ((spans (geometrySectors param)).take (S / 16 + 1)).map spanCall := by
    rw [hdone, List.take_add_one, hget, List.map_append]
    rfl
  have hpre : done ++ [spanCall p] <+: plan Options.plain param := by
    refine List.IsPrefix.trans ?_ (wipePlan_isPrefix Options.plain param)
    rw [htake, wipePlan_eq Options.plain hp, htotal]
    exact (List.take_prefix _ _).map spanCall
  have hacc : ∀ c ∈ done ++ [spanCall p], ¬refused Options.plain param c := by
    intro c hc
    rw [htake, List.mem_map] at hc
    obtain ⟨q, hq, rfl⟩ := hc
    obtain ⟨k, hk⟩ := List.mem_iff_getElem?.1 hq
    rw [List.getElem?_take] at hk
    split_ifs at hk with hle
    obtain ⟨hqstart, -⟩ := spans_getElem? hk
    obtain ⟨hqlen, -, -⟩ := mem_spans (List.mem_of_getElem? hk)
    exact accepted_of_start hext hqlen (by omega) hspt
  exact exists_crossing hext hpre hacc (by omega) hlen (by omega)

/-- **When no CHS request crosses the end of a track.** On a drive without extensions, whatever the
options and the BIOS are: exactly when the tracks are a multiple of 16 sectors long or longer than
63 sectors, or the drive is a single track. -/
theorem within_tracks_iff (param : DiskParam) (hext : param.hasExt = 0) :
    WithinTracks param ↔ TracksFit param := by
  refine ⟨fun h ↦ ?_, withinTracks_of_fit hext⟩
  by_contra hfit
  exact not_withinTracks hext hfit (h Options.plain Unit failing (Machine.fresh () 1))

/-- On the largest geometry the BIOS can address, the fourth chunk runs from sector 49 of the first
track over its end. -/
theorem largest_geometry_crosses :
    ¬∀ x ∈ exchanges (wipeDisk failing Options.plain (DiskParam.ofGeometry 254 1023 63)
      (Machine.fresh () 1)).events, x.InTrack (DiskParam.ofGeometry 254 1023 63) :=
  not_withinTracks rfl (by decide)

/-- Tracks of 32 sectors are kept. -/
theorem within_tracks_thirtytwo : WithinTracks (DiskParam.ofGeometry 15 1023 32) :=
  (within_tracks_iff (DiskParam.ofGeometry 15 1023 32) rfl).2 (by decide)

end Dwipe

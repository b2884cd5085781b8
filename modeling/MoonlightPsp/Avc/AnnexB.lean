import MoonlightPsp.Avc.Scanning

/-!
# Annex B streams

On every input the packetizer stays inside its buffers.  On a stream of
well-formed units it finds the units, whatever start codes and zero bytes
separate them.
-/

namespace MoonlightPsp.Avc

open CheckedMemory

variable {src dst w : List UInt8} {s : Progress} {p fuel cap start len : ℕ}

/-! ## Every input -/

/-- The output buffer holds what was written, from its start on. -/
structure Writes (dst w : List UInt8) (s : Progress) : Prop where
  out : s.dst = overlay dst 0 w
  used : s.used = w.length
  fits : w.length ≤ dst.length

theorem Writes.length_dst (h : Writes dst w s) : s.dst.length = dst.length := by
  rw [h.out, length_overlay (by simpa using h.fits)]

theorem writeSlice_eq (h : Writes dst w s) (hsrc : start + len ≤ src.length)
    (hroom : w.length + 4 + len ≤ dst.length) :
    ∃ s', writeSlice src s start len = some s' ∧
      Writes dst (w ++ be32 len ++ (src.drop start).take len) s' ∧
      s'.result = s.result ∧ s'.seen = s.seen := by
  have hlen : (be32 len).length = 4 := rfl
  have hhead : (w ++ be32 len).length = w.length + 4 := by
    rw [List.length_append, hlen]
  have hfits : 0 + (w ++ be32 len).length ≤ dst.length := by omega
  have hcopy : copy src (overlay dst 0 (w ++ be32 len)) start (w.length + 4) len
      = some (overlay dst 0 (w ++ be32 len ++ (src.drop start).take len)) := by
    rw [copy_eq_overlay hsrc (by rw [length_overlay hfits]; omega)]
    have hmore := overlay_overlay hfits ((src.drop start).take len)
    rw [Nat.zero_add, hhead] at hmore
    rw [hmore]
  refine ⟨{ s with
    dst := overlay dst 0 (w ++ be32 len ++ (src.drop start).take len)
    used := s.used + 4 + len }, ?_, ⟨rfl, ?_, ?_⟩, rfl, rfl⟩
  · rw [writeSlice, h.out, h.used]
    have h₀ := store_overlay dst w (by omega)
    have h₁ := store_overlay dst (w ++ [UInt8.ofNat (len >>> 24)])
      (by simp; omega)
    have h₂ := store_overlay dst
      (w ++ [UInt8.ofNat (len >>> 24), UInt8.ofNat (len >>> 16)])
      (by simp; omega)
    have h₃ := store_overlay dst
      (w ++ [UInt8.ofNat (len >>> 24), UInt8.ofNat (len >>> 16),
        UInt8.ofNat (len >>> 8)]) (by simp; omega)
    simp only [List.length_append, List.length_cons, List.length_nil,
      List.append_assoc, List.cons_append, List.nil_append] at h₁ h₂ h₃
    simp only [Option.bind_eq_bind, h₀, Option.bind_some, h₁, h₂, h₃]
    rw [show w ++ [UInt8.ofNat (len >>> 24), UInt8.ofNat (len >>> 16),
      UInt8.ofNat (len >>> 8), UInt8.ofNat len] = w ++ be32 len from rfl, hcopy]
    rfl
  · change s.used + 4 + len = _
    rw [List.length_append, hhead, h.used, List.length_take, List.length_drop]
    omega
  · rw [List.length_append, hhead, List.length_take, List.length_drop]
    omega

/-- A pointer with a size other than zero refers to bytes of the input. -/
def Spans (src : List UInt8) (ptr : Pointer) (size : ℕ) : Prop :=
  size ≠ 0 → ∃ offset, ptr = .input offset ∧ offset + size ≤ src.length

/-- Both parameter sets lie in the input. -/
structure Contained (src : List UInt8) (au : PacketizedAu) : Prop where
  sps : Spans src au.sps au.spsSize
  pps : Spans src au.pps au.ppsSize

theorem contained_zero (src : List UInt8) : Contained src .zero :=
  ⟨fun h => absurd rfl h, fun h => absurd rfl h⟩

/-- The loop stays inside its buffers: what it wrote, and what it points at. -/
structure Inside (src dst : List UInt8) (s : Progress) : Prop where
  writes : ∃ w, Writes dst w s
  contained : Contained src s.result

/-- A unit inside the input is looked at without a fault. -/
theorem addTyped_inside (h : Inside src dst s)
    (hsrc : start + len ≤ src.length) (type : UInt8) :
    ∃ code s', addTyped src dst.length s start len type = some (code, s') ∧
      Inside src dst s' := by
  obtain ⟨⟨w, hw⟩, hc⟩ := h
  have hspan : Spans src (.input start) len := fun _ => ⟨start, rfl, hsrc⟩
  rw [addTyped]
  split_ifs with _ _ _ hroom
  · exact ⟨0, _, rfl, ⟨w, hw.out, hw.used, hw.fits⟩, hspan, hc.pps⟩
  · exact ⟨0, _, rfl, ⟨w, hw.out, hw.used, hw.fits⟩, hc.sps, hspan⟩
  · exact ⟨-4, _, rfl, ⟨w, hw⟩, hc⟩
  · rw [hw.used] at hroom
    obtain ⟨s', hwrite, hw', hresult, -⟩ := writeSlice_eq hw hsrc (by omega)
    rw [hwrite]
    refine ⟨0, _, rfl, ⟨_, hw'.out, hw'.used, hw'.fits⟩, ?_⟩
    rw [noteSlice, hresult]
    exact ⟨hc.sps, hc.pps⟩
  · exact ⟨-5, _, rfl, ⟨w, hw⟩, hc⟩
  · exact ⟨0, _, rfl, ⟨w, hw.out, hw.used, hw.fits⟩, hc⟩

theorem addUnit_inside (h : Inside src dst s)
    (hsrc : start + len ≤ src.length) :
    ∃ code s', addUnit src dst.length s start len = some (code, s') ∧
      Inside src dst s' := by
  rw [addUnit]
  split
  · exact ⟨-3, s, rfl, h⟩
  · rw [List.getElem?_eq_getElem (by omega)]
    simp only [Option.bind_eq_bind, Option.bind_some]
    split
    · exact ⟨-3, s, rfl, h⟩
    · exact addTyped_inside h hsrc _

/-- One turn of the loop over the units. -/
theorem splitUnits_succ (hp : p < src.length) (hk : codeAt (src.drop p) ≠ 0)
    (hstart : p + codeAt (src.drop p) = start) (hin : start ≤ src.length) :
    splitUnits src cap (fuel + 1) p s =
      (addUnit src cap s start (unitOf (src.drop start)).length).bind fun r =>
        if r.1 ≠ 0 then some r
        else splitUnits src cap fuel (start + scanLen (src.drop start)) r.2 := by
  have hscan : start + scanLen (src.drop start) ≤ src.length := by
    have hle := scanLen_le_length (src.drop start)
    rw [List.length_drop] at hle
    omega
  have htrim := trimZeros_eq (Nat.le_add_right start _) hscan
  rw [Nat.add_sub_cancel_left] at htrim
  rw [splitUnits, if_pos hp]
  simp only [startCode_eq, Option.bind_eq_bind, Option.bind_some, if_neg hk,
    hstart, findEnd_eq hin (by omega : src.length - start < src.length + 1),
    htrim, Nat.add_sub_cancel_left]
  rfl

/-- The loop over the units ends, and stays inside the buffers. -/
theorem splitUnits_inside (h : Inside src dst s) (hp : p ≤ src.length)
    (hfuel : src.length - p < fuel) :
    ∃ code s', splitUnits src dst.length fuel p s = some (code, s') ∧
      Inside src dst s' := by
  induction fuel generalizing p s with
  | zero => omega
  | succ fuel ih =>
      by_cases hlt : p < src.length
      · by_cases hk : codeAt (src.drop p) = 0
        · refine ⟨-2, s, ?_, h⟩
          rw [splitUnits, if_pos hlt, startCode_eq]
          simp only [Option.bind_eq_bind, Option.bind_some, if_pos hk]
        · have hcode := codeAt_le_length (src.drop p)
          rw [List.length_drop] at hcode
          have hunit := length_unitOf_le
            (src.drop (p + codeAt (src.drop p)))
          have hscan := scanLen_le_length
            (src.drop (p + codeAt (src.drop p)))
          rw [List.length_drop] at hunit hscan
          rw [splitUnits_succ hlt hk rfl (by omega)]
          have hin : p + codeAt (src.drop p) +
              (unitOf (src.drop (p + codeAt (src.drop p)))).length ≤
              src.length := by omega
          obtain ⟨code, s', hadd, h'⟩ := addUnit_inside h hin
          rw [hadd, Option.bind_some]
          split
          · exact ⟨code, s', rfl, h'⟩
          · exact ih h' (by omega) (by omega)
      · refine ⟨0, s, ?_, h⟩
        rw [splitUnits, if_neg hlt]

theorem skipLeading_inside (hp : p ≤ src.length)
    (hfuel : src.length - p < fuel) :
    (∃ q ≤ src.length, skipLeading src fuel p = some (.inl q)) ∨
      skipLeading src fuel p = some (.inr (-2)) := by
  induction fuel generalizing p with
  | zero => omega
  | succ fuel ih =>
      rw [skipLeading]
      split
      · rename_i hlt
        simp only [startCode_eq, List.getElem?_eq_getElem hlt,
          Option.bind_eq_bind, Option.bind_some]
        split
        · exact Or.inl ⟨p, hp, rfl⟩
        · split
          · exact Or.inr rfl
          · exact ih hlt (by omega)
      · exact Or.inl ⟨p, hp, rfl⟩

/-- What a call that is not rejected leaves behind. -/
structure SafePacketized (src dst : List UInt8) (r : Packetized) : Prop where
  length_dst : r.dst.length = dst.length
  failed : r.code ≠ 0 → r.au = .zero
  fits : r.au.avccSize ≤ dst.length
  contained : Contained src r.au

theorem finish_safe (h : Inside src dst s) (code : ℤ) :
    SafePacketized src dst (finish code s) := by
  obtain ⟨⟨w, hw⟩, hc⟩ := h
  rw [finish]
  split_ifs
  · exact ⟨hw.length_dst, fun _ => rfl, Nat.zero_le _, contained_zero src⟩
  · exact ⟨hw.length_dst, fun _ => rfl, Nat.zero_le _, contained_zero src⟩
  · exact ⟨hw.length_dst, fun h => absurd rfl h, hw.used ▸ hw.fits,
      hc.sps, hc.pps⟩

theorem packetizeUnits_safe (hne : src ≠ []) (dst : List UInt8)
    (au : PacketizedAu) :
    ∃ r, packetizeUnits src dst au = some r ∧ SafePacketized src dst r := by
  have hstart : Inside src dst ⟨dst, 0, .zero, false⟩ :=
    ⟨⟨[], by simp, rfl, Nat.zero_le _⟩, contained_zero src⟩
  rw [packetizeUnits, if_neg (fun h => hne (List.length_eq_zero_iff.mp h))]
  obtain ⟨q, hq, hskip⟩ | hskip := skipLeading_inside
    (Nat.zero_le src.length) (Nat.lt_succ_self src.length)
  · obtain ⟨code, s', hsplit, h'⟩ :=
      splitUnits_inside hstart hq (Nat.lt_succ_of_le (Nat.sub_le _ q))
    rw [hskip]
    simp only [Option.bind_eq_bind, Option.bind_some, hsplit]
    exact ⟨_, rfl, finish_safe h' code⟩
  · rw [hskip]
    exact ⟨_, rfl, rfl, fun _ => rfl, Nat.zero_le _, contained_zero src⟩

/-- The arguments that are rejected before anything is written. -/
def Rejected (args : PacketizeArgs) : Prop :=
  args.src = none ∨ args.dst = none ∨ args.au = none ∨ args.src = some []

/-- What is left behind by any call. -/
structure SafeResult (args : PacketizeArgs) (code : ℤ)
    (dst : Option (List UInt8)) (au : Option PacketizedAu) : Prop where
  length_dst : dst.map List.length = args.dst.map List.length
  rejected : Rejected args → code = -1 ∧ dst = args.dst ∧ au = args.au
  failed : ¬Rejected args → code ≠ 0 → au = some .zero

theorem avcPacketize_safe (args : PacketizeArgs) :
    ∃ code dst au, avcPacketize args = some (code, dst, au) ∧
      SafeResult args code dst au := by
  obtain ⟨_ | src, _ | dst, _ | au⟩ := args
  case some.some.some =>
    by_cases hne : src = []
    · subst src
      exact ⟨-1, some dst, some au, rfl, rfl, fun _ => ⟨rfl, rfl, rfl⟩,
        fun h => absurd (Or.inr (Or.inr (Or.inr rfl))) h⟩
    · have hopen : ¬Rejected ⟨some src, some dst, some au⟩ := by
        simp [Rejected, hne]
      obtain ⟨r, hr, hsafe⟩ := packetizeUnits_safe hne dst au
      refine ⟨r.code, some r.dst, some r.au, ?_, ?_, ?_, ?_⟩
      · rw [avcPacketize, hr]
        rfl
      · simp [hsafe.length_dst]
      · exact fun h => absurd h hopen
      · exact fun _ hcode => congrArg some (hsafe.failed hcode)
  all_goals
    refine ⟨-1, _, _, rfl, rfl, fun _ => ⟨rfl, rfl, rfl⟩, fun h => ?_⟩
    exact absurd (by simp [Rejected]) h

/-! ## Well-formed units -/

/-- A NAL unit of a type that the packetizer knows. -/
structure NalUnit where
  bytes : List UInt8
  nonempty : bytes ≠ []
  forbiddenBit : bytes.head nonempty &&& 0x80 = 0
  knownType : bytes.head nonempty &&& 31 ∈ ([1, 5, 6, 7, 8, 9, 10, 11, 12] :
    List UInt8)
  noStartCode : ¬[0, 0, 1] <:+: bytes
  lastNonzero : bytes.getLast nonempty ≠ 0
  /-- Its length fits into the length field. -/
  length_le : bytes.length ≤ 0xffffffff

/-- `nal_unit_type`. -/
def NalUnit.type (u : NalUnit) : UInt8 := u.bytes.head u.nonempty &&& 31

def NalUnit.IsSlice (u : NalUnit) : Prop := u.type = 1 ∨ u.type = 5

instance (u : NalUnit) : Decidable u.IsSlice :=
  inferInstanceAs (Decidable (_ ∨ _))

/-- A unit in a stream: extra zero bytes, a start code of three or four bytes,
the unit. -/
structure CodedUnit where
  zeros : ℕ
  long : Bool
  unit : NalUnit

def CodedUnit.encode (c : CodedUnit) : List UInt8 :=
  List.replicate c.zeros 0 ++ (if c.long then [0, 0, 0, 1] else [0, 0, 1]) ++
    c.unit.bytes

/-- A stream of units, with zero bytes behind the last one. -/
def annexB (cs : List CodedUnit) (trailing : ℕ) : List UInt8 :=
  cs.flatMap CodedUnit.encode ++ List.replicate trailing 0

/-- The slices behind their lengths. -/
def avcc (us : List NalUnit) : List UInt8 :=
  (us.filter (·.IsSlice)).flatMap fun u => be32 u.bytes.length ++ u.bytes

/-- The bytes of the last unit of a type, none if there is none. -/
def lastOfType (type : UInt8) (us : List NalUnit) : List UInt8 :=
  ((us.filter (·.type = type)).getLast?.map NalUnit.bytes).getD []

/-- The bytes that a pointer into the input and a size refer to. -/
def pointed (src : List UInt8) (ptr : Pointer) (size : ℕ) : List UInt8 :=
  match ptr with
  | .input offset => (src.drop offset).take size
  | _ => []

theorem lastOfType_append_singleton (type : UInt8) (us : List NalUnit)
    (u : NalUnit) : lastOfType type (us ++ [u]) =
      if u.type = type then u.bytes else lastOfType type us := by
  rw [lastOfType, List.filter_append]
  by_cases h : u.type = type
  · simp [h]
  · simp [h, lastOfType]

theorem avcc_append (us vs : List NalUnit) :
    avcc (us ++ vs) = avcc us ++ avcc vs := by
  rw [avcc, List.filter_append, List.flatMap_append]
  rfl

theorem avcc_append_singleton (us : List NalUnit) (u : NalUnit) :
    avcc (us ++ [u]) = avcc us ++
      if u.IsSlice then be32 u.bytes.length ++ u.bytes else [] := by
  rw [avcc_append]
  by_cases h : u.IsSlice
  · simp [h, avcc]
  · simp [h, avcc]

/-- What the loop has produced from some units. -/
structure Collected (src dst : List UInt8) (us : List NalUnit) (s : Progress) :
    Prop where
  writes : Writes dst (avcc us) s
  sps : pointed src s.result.sps s.result.spsSize = lastOfType 7 us
  pps : pointed src s.result.pps s.result.ppsSize = lastOfType 8 us
  spsSize : s.result.spsSize = (lastOfType 7 us).length
  ppsSize : s.result.ppsSize = (lastOfType 8 us).length
  hasIdr : s.result.hasIdr = us.any (·.type = 5)
  hasPredictive : s.result.hasPredictive = us.any (·.type = 1)
  seen : s.seen = !us.isEmpty

/-- A unit that is no parameter set and no slice is skipped. -/
theorem Collected.skip {us : List NalUnit} (h : Collected src dst us s)
    {u : NalUnit} (hsps : u.type ≠ 7) (hpps : u.type ≠ 8)
    (hslice : ¬u.IsSlice) :
    Collected src dst (us ++ [u]) { s with seen := true } := by
  obtain ⟨hidr, hpred⟩ : u.type ≠ 5 ∧ u.type ≠ 1 :=
    ⟨fun h => hslice (Or.inr h), fun h => hslice (Or.inl h)⟩
  constructor
  · rw [avcc_append_singleton, if_neg hslice, List.append_nil]
    exact ⟨h.writes.out, h.writes.used, h.writes.fits⟩
  · rw [lastOfType_append_singleton, if_neg hsps]
    exact h.sps
  · rw [lastOfType_append_singleton, if_neg hpps]
    exact h.pps
  · rw [lastOfType_append_singleton, if_neg hsps]
    exact h.spsSize
  · rw [lastOfType_append_singleton, if_neg hpps]
    exact h.ppsSize
  · simp [h.hasIdr, hidr]
  · simp [h.hasPredictive, hpred]
  · simp

theorem Collected.noteSps {us : List NalUnit} (h : Collected src dst us s)
    {u : NalUnit} (hsps : u.type = 7)
    (hbytes : (src.drop start).take u.bytes.length = u.bytes) :
    Collected src dst (us ++ [u]) (noteSps s start u.bytes.length) := by
  have hslice : ¬u.IsSlice := by simp [NalUnit.IsSlice, hsps]
  have hpps : u.type ≠ 8 := by simp [hsps]
  constructor
  · rw [avcc_append_singleton, if_neg hslice, List.append_nil]
    exact ⟨h.writes.out, h.writes.used, h.writes.fits⟩
  · rw [lastOfType_append_singleton, if_pos hsps]
    exact hbytes
  · rw [lastOfType_append_singleton, if_neg hpps]
    exact h.pps
  · rw [lastOfType_append_singleton, if_pos hsps]
    rfl
  · rw [lastOfType_append_singleton, if_neg hpps]
    exact h.ppsSize
  · simp [Avc.noteSps, h.hasIdr, hsps]
  · simp [Avc.noteSps, h.hasPredictive, hsps]
  · simp [Avc.noteSps]

theorem Collected.notePps {us : List NalUnit} (h : Collected src dst us s)
    {u : NalUnit} (hpps : u.type = 8)
    (hbytes : (src.drop start).take u.bytes.length = u.bytes) :
    Collected src dst (us ++ [u]) (notePps s start u.bytes.length) := by
  have hslice : ¬u.IsSlice := by simp [NalUnit.IsSlice, hpps]
  have hsps : u.type ≠ 7 := by simp [hpps]
  constructor
  · rw [avcc_append_singleton, if_neg hslice, List.append_nil]
    exact ⟨h.writes.out, h.writes.used, h.writes.fits⟩
  · rw [lastOfType_append_singleton, if_neg hsps]
    exact h.sps
  · rw [lastOfType_append_singleton, if_pos hpps]
    exact hbytes
  · rw [lastOfType_append_singleton, if_neg hsps]
    exact h.spsSize
  · rw [lastOfType_append_singleton, if_pos hpps]
    rfl
  · simp [Avc.notePps, h.hasIdr, hpps]
  · simp [Avc.notePps, h.hasPredictive, hpps]
  · simp [Avc.notePps]

/-- A slice is appended to the output behind its length. -/
theorem Collected.noteSlice {us : List NalUnit} (h : Collected src dst us s)
    {s' : Progress} {u : NalUnit} (hslice : u.IsSlice)
    (hwrites : Writes dst (avcc us ++ (be32 u.bytes.length ++ u.bytes)) s')
    (hresult : s'.result = s.result) :
    Collected src dst (us ++ [u]) (noteSlice s' u.type) := by
  have hsps : u.type ≠ 7 := by
    rcases hslice with hslice | hslice <;> simp [hslice]
  have hpps : u.type ≠ 8 := by
    rcases hslice with hslice | hslice <;> simp [hslice]
  constructor
  · rw [avcc_append_singleton, if_pos hslice]
    exact ⟨hwrites.out, hwrites.used, hwrites.fits⟩
  · rw [lastOfType_append_singleton, if_neg hsps, Avc.noteSlice, hresult]
    exact h.sps
  · rw [lastOfType_append_singleton, if_neg hpps, Avc.noteSlice, hresult]
    exact h.pps
  · rw [lastOfType_append_singleton, if_neg hsps, Avc.noteSlice, hresult]
    exact h.spsSize
  · rw [lastOfType_append_singleton, if_neg hpps, Avc.noteSlice, hresult]
    exact h.ppsSize
  · simp [Avc.noteSlice, hresult, h.hasIdr]
  · simp [Avc.noteSlice, hresult, h.hasPredictive]
  · simp [Avc.noteSlice]

theorem Collected.addTyped {us : List NalUnit} (h : Collected src dst us s)
    {u : NalUnit} (hin : start + u.bytes.length ≤ src.length)
    (hbytes : (src.drop start).take u.bytes.length = u.bytes)
    (hroom : (avcc (us ++ [u])).length ≤ dst.length) :
    ∃ s', Avc.addTyped src dst.length s start u.bytes.length u.type =
        some (0, s') ∧ Collected src dst (us ++ [u]) s' := by
  rw [Avc.addTyped]
  by_cases hsps : u.type = 7
  · exact ⟨_, if_pos hsps, h.noteSps hsps hbytes⟩
  rw [if_neg hsps]
  by_cases hpps : u.type = 8
  · exact ⟨_, if_pos hpps, h.notePps hpps hbytes⟩
  rw [if_neg hpps]
  by_cases hslice : u.IsSlice
  · rw [avcc_append_singleton, if_pos hslice] at hroom
    have hfits : (avcc us).length + 4 + u.bytes.length ≤ dst.length := by
      simp only [List.length_append, be32, List.length_cons, List.length_nil]
        at hroom
      omega
    obtain ⟨s', hwrite, hwrites, hresult, -⟩ := writeSlice_eq h.writes hin hfits
    rw [hbytes, List.append_assoc] at hwrites
    have hlen := u.length_le
    have hcheck : ¬(u.bytes.length > 0xffffffff ∨ s.used > dst.length ∨
        dst.length - s.used < 4 ∨
          u.bytes.length > dst.length - s.used - 4) := by
      rw [h.writes.used]
      omega
    refine ⟨_, ?_, h.noteSlice hslice hwrites hresult⟩
    rw [if_pos (show u.type = 1 ∨ u.type = 5 from hslice), if_neg hcheck,
      hwrite]
    rfl
  · have hknown : ¬(u.type ≠ 6 ∧ u.type ≠ 9 ∧ u.type ≠ 10 ∧ u.type ≠ 11 ∧
        u.type ≠ 12) := by
      have htype := u.knownType
      simp only [List.mem_cons, List.not_mem_nil, or_false] at htype
      rw [NalUnit.IsSlice, NalUnit.type] at hslice
      rw [NalUnit.type] at hsps hpps ⊢
      tauto
    refine ⟨_, ?_, h.skip hsps hpps hslice⟩
    rw [if_neg (show ¬(u.type = 1 ∨ u.type = 5) from hslice), if_neg hknown]

theorem getElem?_of_take {bytes : List UInt8}
    (h : (src.drop start).take bytes.length = bytes) (hne : bytes ≠ []) :
    src[start]? = some (bytes.head hne) := by
  have hpos : bytes.length ≠ 0 := fun h => hne (List.length_eq_zero_iff.mp h)
  have h₀ := congrArg List.head? h
  rw [List.head?_take, if_neg hpos, List.head?_drop, List.head?_eq_some_head hne] at h₀
  exact h₀

/-- A well-formed unit is looked at by its type. -/
theorem addUnit_eq_addTyped {u : NalUnit}
    (hbytes : (src.drop start).take u.bytes.length = u.bytes) :
    addUnit src cap s start u.bytes.length =
      addTyped src cap s start u.bytes.length u.type := by
  have hpos : u.bytes.length ≠ 0 := fun h =>
    u.nonempty (List.length_eq_zero_iff.mp h)
  rw [addUnit, if_neg hpos, getElem?_of_take hbytes u.nonempty]
  simp only [Option.bind_eq_bind, Option.bind_some]
  rw [if_neg (by simpa using u.forbiddenBit)]
  rfl

theorem Collected.addUnit {us : List NalUnit} (h : Collected src dst us s)
    {u : NalUnit} (hin : start + u.bytes.length ≤ src.length)
    (hbytes : (src.drop start).take u.bytes.length = u.bytes)
    (hroom : (avcc (us ++ [u])).length ≤ dst.length) :
    ∃ s', Avc.addUnit src dst.length s start u.bytes.length =
        some (0, s') ∧ Collected src dst (us ++ [u]) s' := by
  rw [addUnit_eq_addTyped hbytes]
  exact h.addTyped hin hbytes hroom

/-! ## Zero bytes between units -/

theorem codeAt_zeros (k : ℕ) (l : List UInt8) :
    codeAt (List.replicate (k + 4) 0 ++ l) = 0 := rfl

/-- A run of zero bytes in front of a one ends in the longest start code. -/
theorem scanLen_zeros_one (k : ℕ) (l : List UInt8) :
    scanLen (List.replicate (k + 2) 0 ++ 1 :: l) = k - 1 := by
  match k with
  | 0 => rfl
  | 1 => rfl
  | k + 2 =>
      have ih := scanLen_zeros_one (k + 1) l
      rw [List.replicate_succ, List.cons_append, scanLen, ← List.cons_append,
        ← List.replicate_succ, codeAt_zeros]
      simp only [ne_eq, not_true_eq_false, if_false]
      rw [ih]
      rfl

theorem scanLen_zeros (k : ℕ) : scanLen (List.replicate k 0) = k := by
  induction k with
  | zero => rfl
  | succ k ih =>
      have hcode : codeAt (List.replicate (k + 1) 0) = 0 := by
        match k with
        | 0 | 1 | 2 => rfl
        | k + 3 => exact (List.append_nil (List.replicate _ (0 : UInt8))) ▸
            codeAt_zeros k []
      rw [List.replicate_succ] at hcode ⊢
      rw [scanLen, hcode, ih]
      rfl

/-- No start code begins in a unit, whatever follows it. -/
theorem codeAt_append_of_last {u : List UInt8} (hne : u ≠ [])
    (hcode : ¬[0, 0, 1] <:+: u) (hlast : u.getLast hne ≠ 0)
    (l : List UInt8) : codeAt (u ++ l) = 0 := by
  rcases u with - | ⟨a, - | ⟨b, - | ⟨c, - | ⟨d, u⟩⟩⟩⟩
  · exact absurd rfl hne
  · have ha : a ≠ 0 := hlast
    rcases l with - | ⟨-, - | -⟩
    · rfl
    · rfl
    · simp [codeAt, ha]
  · have hb : b ≠ 0 := hlast
    rcases l with - | -
    · rfl
    · simp [codeAt, hb]
  · have hc : c ≠ 0 := hlast
    have hnot : ¬(a = 0 ∧ b = 0 ∧ c = 1) := by
      rintro ⟨rfl, rfl, rfl⟩
      exact hcode (List.infix_refl _)
    simp [codeAt, hnot, hc]
  · have hnot : ¬(a = 0 ∧ b = 0 ∧ c = 1) := by
      rintro ⟨rfl, rfl, rfl⟩
      exact hcode ⟨[], d :: u, rfl⟩
    have hlong : ¬(b = 0 ∧ c = 0 ∧ d = 1) := by
      rintro ⟨rfl, rfl, rfl⟩
      exact hcode ⟨[a], u, rfl⟩
    simp only [List.cons_append, codeAt, hnot, List.head?_cons,
      Option.some.injEq, if_false]
    rw [if_neg]
    rintro ⟨-, hb, hc, hd⟩
    exact hlong ⟨hb, hc, hd⟩

theorem scanLen_append_of_last {u : List UInt8} (hne : u ≠ [])
    (hcode : ¬[0, 0, 1] <:+: u) (hlast : u.getLast hne ≠ 0)
    (l : List UInt8) : scanLen (u ++ l) = u.length + scanLen l := by
  induction u with
  | nil => exact absurd rfl hne
  | cons b u ih =>
      have hzero := codeAt_append_of_last hne hcode hlast l
      rw [List.cons_append] at hzero ⊢
      rw [scanLen, hzero]
      simp only [ne_eq, not_true_eq_false, if_false, List.length_cons]
      by_cases hu : u = []
      · subst u
        simp only [List.nil_append, List.length_nil]
        omega
      · rw [ih hu (fun h => hcode (h.trans ⟨[b], [], by simp⟩))
          (by rwa [List.getLast_cons hu] at hlast)]
        omega

theorem NalUnit.scanLen_append (u : NalUnit) (l : List UInt8) :
    scanLen (u.bytes ++ l) = u.bytes.length + scanLen l :=
  scanLen_append_of_last u.nonempty u.noStartCode u.lastNonzero l

/-- Behind a unit, zero bytes are trimmed off. -/
theorem NalUnit.trimmed_append (u : NalUnit) (k : ℕ) :
    trimmed (u.bytes ++ List.replicate k 0) = u.bytes := by
  induction k with
  | zero =>
      rw [List.replicate_zero, List.append_nil, trimmed,
        List.rdropWhile_eq_self_iff]
      intro hne
      simpa using u.lastNonzero
  | succ k ih =>
      rw [List.replicate_succ', ← List.append_assoc, trimmed,
        List.rdropWhile_concat_pos _ _ _ (by simp)]
      exact ih

/-! ## Streams -/

/-- The zero bytes between the unit before and the one that ends the start
code. -/
def CodedUnit.run (c : CodedUnit) : ℕ := c.zeros + if c.long then 3 else 2

theorem CodedUnit.encode_eq (c : CodedUnit) :
    c.encode = List.replicate c.run 0 ++ 1 :: c.unit.bytes := by
  rw [encode, run]
  cases c.long
  · simp [List.replicate_add]
  · simp [List.replicate_add]

theorem CodedUnit.two_le_run (c : CodedUnit) : 2 ≤ c.run := by
  rw [run]
  split <;> omega

theorem annexB_cons (c : CodedUnit) (cs : List CodedUnit) (trailing : ℕ) :
    annexB (c :: cs) trailing =
      List.replicate c.run 0 ++ 1 :: (c.unit.bytes ++ annexB cs trailing) := by
  rw [annexB, List.flatMap_cons, c.encode_eq, annexB]
  simp only [List.append_assoc, List.cons_append]

/-- Up to its first start code, a stream consists of zero bytes. -/
theorem annexB_scan (cs : List CodedUnit) (trailing : ℕ) :
    (annexB cs trailing).take (scanLen (annexB cs trailing)) =
      List.replicate (scanLen (annexB cs trailing)) 0 := by
  cases cs with
  | nil =>
      rw [annexB, List.flatMap_nil, List.nil_append, scanLen_zeros]
      simp
  | cons c cs =>
      obtain ⟨k, hk⟩ : ∃ k, c.run = k + 2 :=
        ⟨c.run - 2, by have := c.two_le_run; omega⟩
      rw [annexB_cons, hk, scanLen_zeros_one,
        List.take_append_of_le_length (by simp; omega), List.take_replicate,
        show min (k - 1) (k + 2) = k - 1 by omega]

/-- Behind the start code, the unit is what lies up to the next one, without
zero bytes at its end. -/
theorem unitOf_annexB (u : NalUnit) (cs : List CodedUnit) (trailing : ℕ) :
    unitOf (u.bytes ++ annexB cs trailing) = u.bytes := by
  rw [unitOf, u.scanLen_append, List.take_length_add_append, annexB_scan,
    u.trimmed_append]

/-- From its first start code on, a stream begins with a start code and a
unit. -/
theorem drop_annexB_cons (c : CodedUnit) (cs : List CodedUnit)
    (trailing : ℕ) :
    ∃ k, (k = 2 ∨ k = 3) ∧
      (annexB (c :: cs) trailing).drop (scanLen (annexB (c :: cs) trailing)) =
        List.replicate k 0 ++ 1 :: (c.unit.bytes ++ annexB cs trailing) := by
  obtain ⟨k, hk⟩ : ∃ k, c.run = k + 2 :=
    ⟨c.run - 2, by have := c.two_le_run; omega⟩
  refine ⟨k + 2 - (k - 1), by omega, ?_⟩
  rw [annexB_cons, hk, scanLen_zeros_one,
    List.drop_append_of_le_length (by simp; omega), List.drop_replicate]

/-- From the start code of a unit on, the loop collects all units. -/
theorem splitUnits_annexB (cs : List CodedUnit) (trailing : ℕ)
    {us : List NalUnit} (h : Collected src dst us s) (hp : p ≤ src.length)
    (hdrop : src.drop p =
      (annexB cs trailing).drop (scanLen (annexB cs trailing)))
    (hfuel : src.length - p < fuel)
    (hroom : (avcc (us ++ cs.map CodedUnit.unit)).length ≤ dst.length) :
    ∃ s', splitUnits src dst.length fuel p s = some (0, s') ∧
      Collected src dst (us ++ cs.map CodedUnit.unit) s' := by
  obtain ⟨fuel, rfl⟩ : ∃ n, fuel = n + 1 := ⟨fuel - 1, by omega⟩
  induction cs generalizing p s us fuel with
  | nil =>
      have hend : ¬p < src.length := by
        have hlen := congrArg List.length hdrop
        simp only [annexB, List.flatMap_nil, List.nil_append, scanLen_zeros,
          List.length_drop, List.length_replicate, Nat.sub_self] at hlen
        omega
      refine ⟨s, ?_, by simpa using h⟩
      rw [splitUnits, if_neg hend]
  | cons c cs ih =>
      obtain ⟨k, hk, hcode⟩ := drop_annexB_cons c cs trailing
      rw [hcode] at hdrop
      have hlen := congrArg List.length hdrop
      simp only [List.length_drop, List.length_append, List.length_replicate,
        List.length_cons] at hlen
      have hk' : codeAt (src.drop p) = k + 1 := by
        rw [hdrop]
        rcases hk with rfl | rfl <;> rfl
      have hrest : src.drop (p + (k + 1)) =
          c.unit.bytes ++ annexB cs trailing := by
        rw [← List.drop_drop, hdrop]
        rcases hk with rfl | rfl <;> rfl
      have hbytes : (src.drop (p + (k + 1))).take c.unit.bytes.length =
          c.unit.bytes := by
        rw [hrest, List.take_left]
      have happend : us ++ (c :: cs).map CodedUnit.unit =
          us ++ [c.unit] ++ cs.map CodedUnit.unit := by simp
      rw [happend] at hroom ⊢
      have hfirst : (avcc (us ++ [c.unit])).length ≤ dst.length := by
        rw [avcc_append, List.length_append] at hroom
        omega
      obtain ⟨s', hadd, h'⟩ := h.addUnit (by omega) hbytes hfirst
      rw [splitUnits_succ (by omega) (by omega) (congrArg (p + ·) hk')
        (by omega), hrest, unitOf_annexB, hadd, c.unit.scanLen_append]
      simp only [Option.bind_some, ne_eq, not_true_eq_false, if_false]
      have hscan := scanLen_le_length (annexB cs trailing)
      have hnext : src.drop (p + (k + 1) + (c.unit.bytes.length +
          scanLen (annexB cs trailing))) =
          (annexB cs trailing).drop (scanLen (annexB cs trailing)) := by
        rw [← List.drop_drop, hrest, List.drop_append]
        simp
      obtain ⟨fuel, rfl⟩ : ∃ n, fuel = n + 1 := ⟨fuel - 1, by omega⟩
      exact ih h' (by omega) hnext hroom _ (by omega)

/-- Zero bytes in front of the first start code are passed over. -/
theorem skipLeading_zeros (hp : p ≤ src.length)
    (hzeros : (src.drop p).take (scanLen (src.drop p)) =
      List.replicate (scanLen (src.drop p)) 0)
    (hfuel : src.length - p < fuel) :
    skipLeading src fuel p = some (.inl (p + scanLen (src.drop p))) := by
  induction fuel generalizing p with
  | zero => omega
  | succ fuel ih =>
      rw [skipLeading]
      split
      · rename_i hlt
        have hcons := List.drop_eq_getElem_cons hlt
        simp only [startCode_eq, List.getElem?_eq_getElem hlt,
          Option.bind_eq_bind, Option.bind_some]
        rw [hcons] at hzeros ⊢
        rw [scanLen] at hzeros ⊢
        split
        · rfl
        · rename_i hcode
          rw [if_neg hcode, List.take_succ_cons, List.replicate_succ] at hzeros
          obtain ⟨hzero, hrest⟩ := List.cons.inj hzeros
          rw [if_neg (by simpa using hzero), ih hlt hrest (by omega)]
          simp only [Nat.succ_eq_add_one, Nat.add_assoc, Nat.add_comm 1]
      · rw [List.drop_eq_nil_of_le (by omega)]
        rfl

/-- What the packetizer makes of a stream of units. -/
structure IsPacketizedStream (us : List NalUnit) (src dst dst' : List UInt8)
    (au : PacketizedAu) : Prop where
  avcc : dst'.take au.avccSize = avcc us
  avccSize : au.avccSize = (Avc.avcc us).length
  rest : dst'.drop au.avccSize = dst.drop au.avccSize
  sps : pointed src au.sps au.spsSize = lastOfType 7 us
  spsSize : au.spsSize = (lastOfType 7 us).length
  pps : pointed src au.pps au.ppsSize = lastOfType 8 us
  ppsSize : au.ppsSize = (lastOfType 8 us).length
  hasIdr : au.hasIdr = true ↔ ∃ u ∈ us, u.type = 5
  hasPredictive : au.hasPredictive = true ↔ ∃ u ∈ us, u.type = 1

theorem isPacketizedStream_of_collected {us : List NalUnit}
    (h : Collected src dst us s) :
    IsPacketizedStream us src dst s.dst
      { s.result with avccSize := s.used } := by
  have hfits := h.writes.fits
  have hout := h.writes.out
  constructor
  · simp only [h.writes.used, hout]
    have htake : (overlay dst 0 (avcc us)).take (0 + (avcc us).length) = _ :=
      take_overlay (by omega)
    simpa using htake
  · exact h.writes.used
  · simp only [h.writes.used, hout]
    have hdrop : (overlay dst 0 (avcc us)).drop (0 + (avcc us).length) = _ :=
      drop_overlay (by omega)
    simpa using hdrop
  · exact h.sps
  · exact h.spsSize
  · exact h.pps
  · exact h.ppsSize
  · simp [h.hasIdr]
  · simp [h.hasPredictive]

theorem packetizeUnits_annexB {cs : List CodedUnit} (hne : cs ≠ [])
    (hkinds : ¬((∃ c ∈ cs, c.unit.type = 1) ∧ ∃ c ∈ cs, c.unit.type = 5))
    (trailing : ℕ)
    (hroom : (avcc (cs.map CodedUnit.unit)).length ≤ dst.length)
    (au : PacketizedAu) :
    ∃ r, packetizeUnits (annexB cs trailing) dst au = some r ∧ r.code = 0 ∧
      IsPacketizedStream (cs.map CodedUnit.unit) (annexB cs trailing) dst
        r.dst r.au := by
  have hempty : Collected (annexB cs trailing) dst [] ⟨dst, 0, .zero, false⟩ :=
    ⟨⟨by simp [avcc], rfl, Nat.zero_le _⟩, rfl, rfl, rfl, rfl, rfl, rfl, rfl⟩
  have hscan := scanLen_le_length (annexB cs trailing)
  have hzeros := skipLeading_zeros (Nat.zero_le (annexB cs trailing).length)
    (annexB_scan cs trailing) (Nat.lt_succ_self _)
  obtain ⟨s', hsplit, h'⟩ := splitUnits_annexB cs trailing hempty hscan rfl
    (Nat.lt_succ_of_le (Nat.sub_le _ _)) (by simpa using hroom)
  rw [List.nil_append] at h'
  have hlen : (annexB cs trailing).length ≠ 0 := by
    cases cs with
    | nil => exact absurd rfl hne
    | cons c cs =>
        rw [annexB_cons]
        simp
  have hseen : s'.seen = true := by
    rw [h'.seen]
    cases cs with
    | nil => exact absurd rfl hne
    | cons c cs => rfl
  have hboth : ¬(s'.result.hasIdr = true ∧ s'.result.hasPredictive = true) := by
    rintro ⟨hidr, hpred⟩
    rw [h'.hasIdr] at hidr
    rw [h'.hasPredictive] at hpred
    exact hkinds ⟨by simpa using hpred, by simpa using hidr⟩
  have hfinish : finish 0 s' =
      ⟨0, s'.dst, { s'.result with avccSize := s'.used }⟩ := by
    rw [finish, if_neg (by simp), if_neg]
    rintro (hno | hno)
    · rw [hseen] at hno
      exact absurd hno (by decide)
    · exact hboth hno
  refine ⟨finish 0 s', ?_, ?_⟩
  · rw [packetizeUnits, if_neg hlen]
    simp only [List.drop_zero, Nat.zero_add, Nat.sub_zero] at hzeros
    rw [hzeros]
    simp only [Option.bind_eq_bind, Option.bind_some]
    rw [hsplit]
    rfl
  · rw [hfinish]
    exact ⟨rfl, isPacketizedStream_of_collected h'⟩

/-- On a stream of well-formed units, not both of type 1 and of type 5, with room
for the slices, the call succeeds and gives the slices behind their lengths, the
last parameter sets and the kinds of slices.  Every call ends inside its
buffers; one that fails leaves `*au` zero, unless its arguments are rejected. -/
theorem avcPacketize_correct :
    (∀ (cs : List CodedUnit) (trailing : ℕ) (dst : List UInt8)
      (au : PacketizedAu), cs ≠ [] →
      ¬((∃ c ∈ cs, c.unit.type = 1) ∧ ∃ c ∈ cs, c.unit.type = 5) →
      (avcc (cs.map CodedUnit.unit)).length ≤ dst.length →
      ∃ dst' au', avcPacketize
          ⟨some (annexB cs trailing), some dst, some au⟩ =
            some (0, some dst', some au') ∧
        IsPacketizedStream (cs.map CodedUnit.unit) (annexB cs trailing) dst
          dst' au') ∧
    ∀ args, ∃ code dst au, avcPacketize args = some (code, dst, au) ∧
      SafeResult args code dst au := by
  refine ⟨?_, avcPacketize_safe⟩
  intro cs trailing dst au hne hkinds hroom
  obtain ⟨r, hr, hcode, hstream⟩ :=
    packetizeUnits_annexB hne hkinds trailing hroom au
  refine ⟨r.dst, r.au, ?_, hstream⟩
  rw [avcPacketize, hr, ← hcode]
  rfl

/-- A key frame of two slices behind its parameter sets, with zeros before and between the
units. -/
def keyFrame : List CodedUnit :=
  [⟨1, true, ⟨[0x67, 0x42], by decide, by decide, by decide, by decide, by decide, by decide⟩⟩,
    ⟨0, false, ⟨[0x68, 0xce], by decide, by decide, by decide, by decide, by decide, by decide⟩⟩,
    ⟨2, false,
      ⟨[0x65, 0x88, 0x84], by decide, by decide, by decide, by decide, by decide, by decide⟩⟩,
    ⟨3, true, ⟨[0x65, 0x40], by decide, by decide, by decide, by decide, by decide, by decide⟩⟩]

theorem avcPacketize_correct_keyFrame :
    ∃ dst' au', avcPacketize ⟨some (annexB keyFrame 2), some (List.replicate 13 0), some .zero⟩ =
        some (0, some dst', some au') ∧
      IsPacketizedStream (keyFrame.map CodedUnit.unit) (annexB keyFrame 2)
        (List.replicate 13 0) dst' au' :=
  avcPacketize_correct.1 keyFrame 2 (List.replicate 13 0) .zero (by decide)
    (by
      simp only [keyFrame, List.mem_cons, List.not_mem_nil, or_false, exists_eq_or_imp,
        exists_eq_left]
      decide)
    (by decide)

/-- Rejected arguments leave `*au` as it was. -/
theorem au_not_zero_on_empty_input :
    ¬∀ args code dst au, avcPacketize args = some (code, dst, some au) →
      code ≠ 0 → au = .zero := by
  intro h
  have hzero := h ⟨some [], some [], some ⟨.null, .null, 0, 0, 1, true, false⟩⟩
    (-1) (some []) ⟨.null, .null, 0, 0, 1, true, false⟩ rfl (by decide)
  exact absurd hzero (by decide)

end MoonlightPsp.Avc

import MoonlightPsp.Sps.FormatRoundTrip
import MoonlightPsp.Sps.PicParameters

/-!
# The picture parameter sets that are accepted

The check of picture parameter sets accepts the Main syntax without slice groups
and nothing else, and what it does not accept leaves zeros in its outputs.
-/

namespace MoonlightPsp.Sps

open BitString EmulationPrevention StickyParser

/-! ## The outputs of a call -/

/-- What `entropy_coding_mode` and `parsed_pps_id` point to, if they are not null. -/
structure PpsOutputs where
  entropyCodingMode : Option ℕ
  ppsId : Option ℕ

/-- The outputs at the start of the function. -/
def PpsOutputs.cleared (out : PpsOutputs) : PpsOutputs :=
  ⟨out.entropyCodingMode.map fun _ => 0, out.ppsId.map fun _ => 0⟩

/-- The outputs behind a report. -/
def PpsOutputs.filled (out : PpsOutputs) (r : PpsReport) : PpsOutputs :=
  ⟨out.entropyCodingMode.map fun _ => r.entropyCodingMode,
    out.ppsId.map fun _ => r.ppsId⟩

/-- A call of `avc_pps_validate_main_ex`: the code it returns, and its outputs. -/
def callPpsValidateMainEx (nal : List UInt8) (expectedSpsId : ℕ)
    (out : PpsOutputs) : ℤ × PpsOutputs :=
  if out.entropyCodingMode = none then (-1, out.cleared)
  else
    match avcPpsValidateMainEx nal expectedSpsId with
    | .error code => (code, out.cleared)
    | .ok r => (0, out.filled r)

/-! ## The syntax -/

/-- The fields in front of `num_slice_groups_minus1`. -/
structure PpsHead where
  ppsId : ℕ
  spsId : ℕ
  entropy : Bool
  bottomFieldPicOrder : Bool

def PpsHead.encode (s : PpsHead) : List Bool :=
  ueCode s.ppsId ++ (ueCode s.spsId ++ [s.entropy, s.bottomFieldPicOrder])

/-- The fields behind it when there are no slice groups.  The signed numbers are
the parameters of the quantizer. -/
structure PpsTail where
  refIdxL0 : ℕ
  refIdxL1 : ℕ
  weightedPred : Bool
  weightedBipred : ℕ
  qp : ℤ
  qs : ℤ
  chromaQpOffset : ℤ
  deblocking : Bool
  constrainedIntra : Bool
  redundantPicCnt : Bool

def PpsTail.encode (s : PpsTail) : List Bool :=
  ueCode s.refIdxL0 ++ (ueCode s.refIdxL1 ++ s.weightedPred ::
    (bitsOf 2 s.weightedBipred ++ (ueCode (seNumber s.qp) ++
      (ueCode (seNumber s.qs) ++ (ueCode (seNumber s.chromaQpOffset) ++
        [s.deblocking, s.constrainedIntra, s.redundantPicCnt])))))

/-- A picture parameter set of the Main syntax without slice groups. -/
structure PictureParameterSet where
  head : PpsHead
  tail : PpsTail

namespace PictureParameterSet

def encode (s : PictureParameterSet) : List Bool :=
  s.head.encode ++ (ueCode 0 ++ s.tail.encode)

/-- The NAL unit, with the bits behind the parameter set and the emulation
prevention. -/
def nal (s : PictureParameterSet) (refIdc : ℕ) : List UInt8 :=
  nalOf (UInt8.ofNat (refIdc * 32 + 8)) (closing s.encode)

/-- The code of a number takes no more than sixty bits, and two bits hold the
weighted prediction of B slices. -/
structure Valid (s : PictureParameterSet) : Prop where
  ppsId : s.head.ppsId ≤ 255
  spsId : s.head.spsId < 2 ^ 30
  refIdxL0 : s.tail.refIdxL0 < 2 ^ 30
  refIdxL1 : s.tail.refIdxL1 < 2 ^ 30
  weightedBipred : s.tail.weightedBipred < 4
  qp : s.tail.qp.natAbs < 2 ^ 30
  qs : s.tail.qs.natAbs < 2 ^ 30
  chromaQpOffset : s.tail.chromaQpOffset.natAbs < 2 ^ 30

def report (s : PictureParameterSet) : PpsReport :=
  ⟨s.head.entropy.toNat, s.head.ppsId⟩

end PictureParameterSet

/-! ## What is rejected -/

/-- The bits in front of the stop bit are not a picture parameter set of the Main
syntax for the expected sequence parameter set. -/
inductive NotMain (expectedSpsId : ℕ) (payload : List Bool) : Prop
  | sliceGroups (head : PpsHead) (groups : ℕ) (h : groups ≠ 0)
      (hbits : head.encode ++ ueCode groups <+: payload)
  | otherSps (ppsId spsId : ℕ) (h : spsId ≠ expectedSpsId)
      (hbits : ueCode ppsId ++ ueCode spsId <+: payload)
  | moreBits (s : PictureParameterSet) (more : List Bool) (h : more ≠ [])
      (hbits : payload = s.encode ++ more)
  | truncated (s : PictureParameterSet) (hbits : payload <+: s.encode)
      (h : payload ≠ s.encode)

/-- The NAL unit of a picture parameter set that has to be rejected. -/
inductive Malformed (expectedSpsId : ℕ) (nal : List UInt8) : Prop
  | escape (h : IllegalEscape nal.tail)
  | noStopBit (rbsp : List UInt8) (hrbsp : IsRbsp nal 8 rbsp)
      (h : ∀ payload, ¬ IsPayload (toBits rbsp) payload)
  | payload (rbsp : List UInt8) (payload : List Bool) (hrbsp : IsRbsp nal 8 rbsp)
      (hpayload : IsPayload (toBits rbsp) payload) (h : NotMain expectedSpsId payload)

/-! ## The grammar -/

/-- The signed number of a code. -/
def seValue (v : ℕ) : ℤ := if v % 2 = 1 then (v + 1) / 2 else -(v / 2)

theorem seNumber_seValue (v : ℕ) : seNumber (seValue v) = v := by
  unfold seValue
  split
  · rw [seNumber, if_pos (by omega)]
    omega
  · rw [seNumber, if_neg (by omega)]
    omega

/-- The numbers in front of the slice groups can be read. -/
structure PpsHead.IsRead (s : PpsHead) : Prop where
  ppsId : IsUe s.ppsId
  spsId : IsUe s.spsId

/-- The numbers behind the slice groups can be read. -/
structure PpsTail.IsRead (s : PpsTail) : Prop where
  refIdxL0 : IsUe s.refIdxL0
  refIdxL1 : IsUe s.refIdxL1
  weightedBipred : s.weightedBipred < 4
  qp : IsUe (seNumber s.qp)
  qs : IsUe (seNumber s.qs)
  chromaQpOffset : IsUe (seNumber s.chromaQpOffset)

theorem parses_twoBits : Parses (readBits 2) fun v cs => v < 4 ∧ cs = bitsOf 2 v :=
  (parses_readBits 2).congr fun _ _ => by simp

/-- Up to the flag, the reads take a parameter set with any number of slice groups
whose groups have no fields. -/
theorem parses_ppsFields :
    Parses ppsFields fun f cs => ∃ (head : PpsHead) (groups : ℕ) (tail : PpsTail),
      head.IsRead ∧ IsUe groups ∧ tail.IsRead ∧
        cs = head.encode ++ (ueCode groups ++ tail.encode) ∧
        f = ⟨head.ppsId, head.spsId, head.entropy.toNat, groups⟩ := by
  refine (parses_ue.bind fun ppsId => parses_ue.bind fun spsId =>
    parses_readFlag.bind fun entropy => parses_readFlag.bind fun _ =>
    parses_ue.bind fun groups => parses_ue.bind fun _ => parses_ue.bind fun _ =>
    parses_readFlag.bind fun _ => parses_twoBits.bind fun _ =>
    parses_ue.bind fun _ => parses_ue.bind fun _ => parses_ue.bind fun _ =>
    parses_readFlag.bind fun _ => parses_readFlag.bind fun _ =>
    parses_readFlag.bind fun _ =>
    Parses.pure (PpsFields.mk ppsId spsId entropy groups)).congr fun f cs => ?_
  constructor
  · intro h
    obtain ⟨ppsId, -, _, ⟨hppsId, rfl⟩, h, rfl⟩ := h
    obtain ⟨spsId, -, _, ⟨hspsId, rfl⟩, h, rfl⟩ := h
    obtain ⟨-, -, _, ⟨entropy, rfl, rfl⟩, h, rfl⟩ := h
    obtain ⟨-, -, _, ⟨bottom, -, rfl⟩, h, rfl⟩ := h
    obtain ⟨groups, -, _, ⟨hgroups, rfl⟩, h, rfl⟩ := h
    obtain ⟨l0, -, _, ⟨hl0, rfl⟩, h, rfl⟩ := h
    obtain ⟨l1, -, _, ⟨hl1, rfl⟩, h, rfl⟩ := h
    obtain ⟨-, -, _, ⟨weighted, -, rfl⟩, h, rfl⟩ := h
    obtain ⟨bipred, -, _, ⟨hbipred, rfl⟩, h, rfl⟩ := h
    obtain ⟨qp, -, _, ⟨hqp, rfl⟩, h, rfl⟩ := h
    obtain ⟨qs, -, _, ⟨hqs, rfl⟩, h, rfl⟩ := h
    obtain ⟨chroma, -, _, ⟨hchroma, rfl⟩, h, rfl⟩ := h
    obtain ⟨-, -, _, ⟨deblocking, -, rfl⟩, h, rfl⟩ := h
    obtain ⟨-, -, _, ⟨constrained, -, rfl⟩, h, rfl⟩ := h
    obtain ⟨-, -, -, ⟨redundant, -, rfl⟩, ⟨rfl, rfl⟩, rfl⟩ := h
    refine ⟨⟨ppsId, spsId, entropy, bottom⟩, groups,
      ⟨l0, l1, weighted, bipred, seValue qp, seValue qs, seValue chroma, deblocking,
        constrained, redundant⟩, ⟨hppsId, hspsId⟩, hgroups,
      ⟨hl0, hl1, hbipred, ?_, ?_, ?_⟩, ?_, rfl⟩
    · rwa [seNumber_seValue]
    · rwa [seNumber_seValue]
    · rwa [seNumber_seValue]
    · simp [PpsHead.encode, PpsTail.encode, seNumber_seValue]
  · rintro ⟨head, groups, tail, hhead, hgroups, htail, rfl, rfl⟩
    exact ⟨head.ppsId, _, _, ⟨hhead.ppsId, rfl⟩, ⟨head.spsId, _, _, ⟨hhead.spsId, rfl⟩,
      ⟨_, _, _, ⟨head.entropy, rfl, rfl⟩, ⟨_, _, _, ⟨head.bottomFieldPicOrder, rfl, rfl⟩,
      ⟨groups, _, _, ⟨hgroups, rfl⟩, ⟨tail.refIdxL0, _, _, ⟨htail.refIdxL0, rfl⟩,
      ⟨tail.refIdxL1, _, _, ⟨htail.refIdxL1, rfl⟩,
      ⟨_, _, _, ⟨tail.weightedPred, rfl, rfl⟩,
      ⟨tail.weightedBipred, _, _, ⟨htail.weightedBipred, rfl⟩,
      ⟨_, _, _, ⟨htail.qp, rfl⟩, ⟨_, _, _, ⟨htail.qs, rfl⟩,
      ⟨_, _, _, ⟨htail.chromaQpOffset, rfl⟩, ⟨_, _, _, ⟨tail.deblocking, rfl, rfl⟩,
      ⟨_, _, _, ⟨tail.constrainedIntra, rfl, rfl⟩,
      ⟨_, _, [], ⟨tail.redundantPicCnt, rfl, rfl⟩, ⟨rfl, rfl⟩, rfl⟩, rfl⟩, rfl⟩, rfl⟩,
      rfl⟩, rfl⟩, rfl⟩, rfl⟩, rfl⟩, rfl⟩, rfl⟩, rfl⟩, rfl⟩, rfl⟩,
      by simp [PpsHead.encode, PpsTail.encode]⟩

/-! ## Prefix codes -/

variable {expectedSpsId : ℕ}

theorem PpsHead.encode_inj {s t : PpsHead} {as bs : List Bool}
    (h : s.encode ++ as = t.encode ++ bs) : s = t ∧ as = bs := by
  simp only [encode, List.append_assoc] at h
  obtain ⟨hppsId, h⟩ := ueCode_append_inj h
  obtain ⟨hspsId, h⟩ := ueCode_append_inj h
  simp only [List.cons_append, List.nil_append, List.cons.injEq] at h
  obtain ⟨hentropy, hbottom, hrest⟩ := h
  cases s
  cases t
  exact ⟨by simp_all only, hrest⟩

/-- What the two bits of the weighted prediction do not hold is not determined. -/
theorem PpsTail.encode_inj {s t : PpsTail} {as bs : List Bool}
    (h : s.encode ++ as = t.encode ++ bs) : s.encode = t.encode ∧ as = bs := by
  have hlen : s.encode.length = t.encode.length := by
    simp only [encode, List.append_assoc, List.cons_append, List.nil_append] at h
    obtain ⟨hl0, h⟩ := ueCode_append_inj h
    obtain ⟨hl1, h⟩ := ueCode_append_inj h
    obtain ⟨-, h⟩ := List.cons.inj h
    obtain ⟨-, h⟩ := List.append_inj h (by simp)
    obtain ⟨hqp, h⟩ := ueCode_append_inj h
    obtain ⟨hqs, h⟩ := ueCode_append_inj h
    obtain ⟨hchroma, -⟩ := ueCode_append_inj h
    simp [encode, hl0, hl1, hqp, hqs, hchroma]
  exact List.append_inj h hlen

theorem PictureParameterSet.encode_inj {s t : PictureParameterSet} {as bs : List Bool}
    (h : s.encode ++ as = t.encode ++ bs) :
    s.head = t.head ∧ s.encode = t.encode ∧ as = bs := by
  simp only [encode, List.append_assoc] at h
  obtain ⟨hhead, h⟩ := PpsHead.encode_inj h
  obtain ⟨-, h⟩ := ueCode_append_inj h
  obtain ⟨htail, h⟩ := PpsTail.encode_inj h
  exact ⟨hhead, by rw [encode, encode, hhead, htail], h⟩

/-! ## What is accepted -/

/-- The bounds of the code, with the expected sequence parameter set. -/
structure PictureParameterSet.Supported (s : PictureParameterSet)
    (expectedSpsId : ℕ) : Prop where
  head : s.head.IsRead
  ppsId : s.head.ppsId ≤ 255
  spsId : s.head.spsId = expectedSpsId
  tail : s.tail.IsRead

/-- The reads end at the stop bit if they have taken the whole payload. -/
theorem skip_pos_eq_iff {rbsp : List UInt8} {stop : ℕ} {cs p : List Bool}
    (hp : p.length = stop) (hcs : cs <+: p) :
    (Source.skip cs.length (Bits.start rbsp stop)).pos = stop ↔ cs = p := by
  have hle := hcs.length_le
  have hpos : (Source.skip cs.length (Bits.start rbsp stop)).pos = cs.length := by
    show min (0 + cs.length) stop = cs.length
    omega
  rw [hpos]
  constructor
  · intro heq
    exact hcs.eq_of_length (by omega)
  · rintro rfl
    exact hp

/-- The fields of the payload, with what the checks ask of them. -/
theorem ppsFields_checked {rbsp : List UInt8} {p : List Bool} {f : PpsFields} {b : Bits}
    (hp : IsPayload (toBits rbsp) p) :
    (ppsFields (.start rbsp p.length) = .ok (f, b) ∧
        ¬ (b.bad ∨ f.ppsId > 255 ∨ f.spsId ≠ expectedSpsId ∨ f.sliceGroups ≠ 0 ∨
          b.pos ≠ p.length)) ↔
      ∃ s : PictureParameterSet, s.Supported expectedSpsId ∧ p = s.encode ∧
        f = ⟨s.head.ppsId, s.head.spsId, s.head.entropy.toNat, 0⟩ ∧
        b = Source.skip p.length (Bits.start rbsp p.length) := by
  have hlen : p.length ≤ 8 * rbsp.length := by
    obtain ⟨k, hk⟩ := hp
    have := congrArg List.length hk
    simp only [length_toBits, List.length_append, List.length_cons] at this
    omega
  have hrest : Source.rest (Bits.start rbsp p.length) = p := by
    rw [rest_start hlen, (stopLoop_of_isPayload hp).2]
  constructor
  · rintro ⟨hfields, hchecks⟩
    simp only [not_or, ne_eq, not_not, Nat.not_lt] at hchecks
    obtain ⟨hbad, hppsId, hspsId, hgroups, hpos⟩ := hchecks
    obtain ⟨-, cs, ⟨head, groups, tail, hhead, -, htail, rfl, rfl⟩, hcs, rfl⟩ :=
      (parses_ppsFields _ _ _).mp ⟨hfields, Bool.eq_false_iff.mpr hbad⟩
    rw [hrest] at hcs
    obtain rfl : groups = 0 := hgroups
    have heq := (skip_pos_eq_iff rfl hcs).mp hpos
    exact ⟨⟨head, tail⟩, ⟨hhead, hppsId, hspsId, htail⟩, heq.symm, rfl, by rw [heq]⟩
  · rintro ⟨s, hs, hps, rfl, rfl⟩
    obtain ⟨hfields, hbad⟩ := (parses_ppsFields (.start rbsp p.length) _ _).mpr
      ⟨rfl, p, ⟨s.head, 0, s.tail, hs.head, isUe_zero, hs.tail, hps, rfl⟩,
        ⟨[], (List.append_nil p).trans hrest.symm⟩, rfl⟩
    have hpos : (Source.skip p.length (Bits.start rbsp p.length)).pos = p.length :=
      (skip_pos_eq_iff rfl (List.prefix_refl p)).mpr rfl
    refine ⟨hfields, ?_⟩
    simp only [not_or, ne_eq, not_not, Nat.not_lt]
    exact ⟨Bool.eq_false_iff.mp hbad, hs.ppsId, hs.spsId, trivial, hpos⟩

/-- Exactly the parameter sets within the bounds are accepted, and what they say is
reported. -/
theorem avcPpsValidateMainEx_eq_ok {nal : List UInt8} {r : PpsReport} :
    avcPpsValidateMainEx nal expectedSpsId = .ok r ↔ nal.length ≤ 1024 ∧
      ∃ (rbsp : List UInt8) (s : PictureParameterSet), IsRbsp nal 8 rbsp ∧
        s.Supported expectedSpsId ∧ IsPayload (toBits rbsp) s.encode ∧ r = s.report := by
  unfold avcPpsValidateMainEx
  constructor
  · intro h
    split at h
    · cases h
    · rename_i b hload
      obtain ⟨⟨-, hmax, htype⟩, rbsp, hrbsp, -, rfl⟩ := loadRbsp_eq_some.mp hload
      split at h
      · cases h
      · rename_i stop hstop
        obtain ⟨p, hpayload, rfl⟩ := rbspStopBit_start.mp hstop
        split at h
        · cases h
        · rename_i f b' hfields
          split at h
          · cases h
          · rename_i hchecks
            cases h
            obtain ⟨s, hs, hps, rfl, -⟩ := (ppsFields_checked hpayload).mp
              ⟨hfields, hchecks⟩
            exact ⟨hmax, rbsp, s, ⟨htype, hrbsp⟩, hs, by rwa [← hps], rfl⟩
  · rintro ⟨hmax, rbsp, s, ⟨htype, hrbsp⟩, hs, hpayload, rfl⟩
    have hne : rbsp ≠ [] := by
      rintro rfl
      obtain ⟨k, hk⟩ := hpayload
      simp at hk
    have hmin : 2 ≤ nal.length := by
      have hle := length_le_of_unescape hrbsp
      have hpos := List.length_pos_iff.mpr hne
      rw [List.length_tail] at hle
      omega
    have hload := loadRbsp_eq_some.mpr ⟨⟨hmin, hmax, htype⟩, rbsp, hrbsp, hne, rfl⟩
    obtain ⟨hfields, hchecks⟩ := (ppsFields_checked hpayload).mpr ⟨s, hs, rfl, rfl, rfl⟩
    have hstop := rbspStopBit_start.mpr ⟨_, hpayload, rfl⟩
    simp only [hload, hstop]
    simp only [Bits.start] at hfields hchecks ⊢
    simp only [hfields, if_neg hchecks]
    rfl

/-! ## What is written is accepted -/

theorem length_ueCode_le {v : ℕ} (hv : IsUe v) : (ueCode v).length ≤ 61 := by
  have hlog := (log2_le_iff v).mpr hv
  rw [length_ueCode]
  omega

theorem length_closing_le (p : List Bool) : 8 * (closing p).length ≤ p.length + 8 := by
  obtain ⟨k, hk, hclosing⟩ := closes_closing p
  have hlen := congrArg List.length hclosing
  simp only [length_toBits, List.length_append, List.length_cons,
    List.length_replicate] at hlen
  omega

theorem isUe_seNumber_of_lt {k : ℤ} (hk : k.natAbs < 2 ^ 30) : IsUe (seNumber k) :=
  isUe_seNumber.mpr (by omega)

namespace PictureParameterSet

variable {s : PictureParameterSet} {refIdc : ℕ}

theorem Valid.supported (hs : s.Valid) : s.Supported s.head.spsId := by
  have isUe_of_lt : ∀ {v : ℕ}, v < 2 ^ 30 → IsUe v := fun hv => by
    unfold IsUe
    omega
  have hppsId := hs.ppsId
  exact ⟨⟨isUe_of_lt (by omega), isUe_of_lt hs.spsId⟩, hppsId, rfl,
    ⟨isUe_of_lt hs.refIdxL0, isUe_of_lt hs.refIdxL1, hs.weightedBipred,
      isUe_seNumber_of_lt hs.qp, isUe_seNumber_of_lt hs.qs,
      isUe_seNumber_of_lt hs.chromaQpOffset⟩⟩

/-- Eight codes and nine bits. -/
theorem Supported.length_encode (hs : s.Supported expectedSpsId) :
    s.encode.length ≤ 498 := by
  have hppsId := length_ueCode_le hs.head.ppsId
  have hspsId := length_ueCode_le hs.head.spsId
  have hl0 := length_ueCode_le hs.tail.refIdxL0
  have hl1 := length_ueCode_le hs.tail.refIdxL1
  have hqp := length_ueCode_le hs.tail.qp
  have hqs := length_ueCode_le hs.tail.qs
  have hchroma := length_ueCode_le hs.tail.chromaQpOffset
  have hzero : (ueCode 0).length = 1 := rfl
  simp only [encode, PpsHead.encode, PpsTail.encode, List.length_append,
    List.length_cons, List.length_nil, length_bitsOf]
  omega

theorem length_nal (hs : s.Supported expectedSpsId) (refIdc : ℕ) :
    (s.nal refIdc).length ≤ 1024 := by
  have hencode := hs.length_encode
  have hclosing := length_closing_le s.encode
  have hescape := length_escapeFrom_le 0 (closing s.encode)
  rw [nal, nalOf, escape, List.length_cons]
  omega

theorem isRbsp_nal (s : PictureParameterSet) (hrefIdc : refIdc < 4) :
    IsRbsp (s.nal refIdc) 8 (closing s.encode) := by
  have hheader : ∀ refIdc < 4, UInt8.ofNat (refIdc * 32 + 8) &&& 0x9f = 8 := by
    decide
  exact isRbsp_nalOf (hheader refIdc hrefIdc) _

/-- The NAL unit of a parameter set is accepted. -/
theorem avcPpsValidateMainEx_nal (hs : s.Supported expectedSpsId)
    (hrefIdc : refIdc < 4) :
    avcPpsValidateMainEx (s.nal refIdc) expectedSpsId = .ok s.report :=
  avcPpsValidateMainEx_eq_ok.mpr ⟨length_nal hs refIdc, _, s, s.isRbsp_nal hrefIdc, hs,
    (closes_closing s.encode).isPayload, rfl⟩

end PictureParameterSet

/-! ## What is malformed is rejected -/

/-- A payload that is accepted has nothing wrong with it. -/
theorem not_notMain {s : PictureParameterSet} (hs : s.Supported expectedSpsId) :
    ¬ NotMain expectedSpsId s.encode := by
  intro h
  cases h with
  | sliceGroups head groups hgroups hbits =>
      obtain ⟨back, hback⟩ := hbits
      rw [PictureParameterSet.encode, List.append_assoc] at hback
      obtain ⟨-, hrest⟩ := PpsHead.encode_inj hback
      exact hgroups (ueCode_append_inj hrest).1
  | otherSps ppsId spsId hne hbits =>
      obtain ⟨back, hback⟩ := hbits
      rw [PictureParameterSet.encode, PpsHead.encode] at hback
      simp only [List.append_assoc] at hback
      obtain ⟨-, hrest⟩ := ueCode_append_inj hback
      have hspsId := (ueCode_append_inj hrest).1
      exact hne (hspsId.trans hs.spsId)
  | moreBits t more hne hbits =>
      have heq : s.encode ++ [] = t.encode ++ more := by
        rw [List.append_nil, hbits]
      exact hne (PictureParameterSet.encode_inj heq).2.2.symm
  | truncated t hbits hne =>
      obtain ⟨back, hback⟩ := hbits
      have heq : s.encode ++ back = t.encode ++ [] := by
        rw [hback, List.append_nil]
      exact hne (PictureParameterSet.encode_inj heq).2.1

theorem avcPpsValidateMainEx_malformed {nal : List UInt8}
    (h : Malformed expectedSpsId nal) (r : PpsReport) :
    avcPpsValidateMainEx nal expectedSpsId ≠ .ok r := by
  intro hok
  obtain ⟨-, rbsp, s, ⟨-, hrbsp⟩, hs, hpayload, -⟩ := avcPpsValidateMainEx_eq_ok.mp hok
  cases h with
  | escape hescape =>
      rw [unescape_of_illegalEscape hescape] at hrbsp
      cases hrbsp
  | noStopBit rbsp' hrbsp' hnone =>
      obtain rfl : rbsp = rbsp' := Option.some.inj (hrbsp.symm.trans hrbsp'.2)
      exact hnone _ hpayload
  | payload rbsp' p hrbsp' hp hnot =>
      obtain rfl : rbsp = rbsp' := Option.some.inj (hrbsp.symm.trans hrbsp'.2)
      rw [hp.unique hpayload] at hnot
      exact not_notMain hs hnot

/-- The code that a call returns is zero exactly when the set is accepted. -/
theorem avcPpsValidateMainEx_error {nal : List UInt8} {code : ℤ}
    (h : avcPpsValidateMainEx nal expectedSpsId = .error code) : code ≠ 0 := by
  have hthrows : OnlyThrows (fun _ : ℤ => False) ppsFields :=
    (onlyThrows_ue _).bind fun _ => (onlyThrows_ue _).bind fun _ =>
    (onlyThrows_readBits _ 1).bind fun _ => (onlyThrows_readBits _ 1).bind fun _ =>
    (onlyThrows_ue _).bind fun _ => (onlyThrows_ue _).bind fun _ =>
    (onlyThrows_ue _).bind fun _ => (onlyThrows_readBits _ 1).bind fun _ =>
    (onlyThrows_readBits _ 2).bind fun _ => (onlyThrows_ue _).bind fun _ =>
    (onlyThrows_ue _).bind fun _ => (onlyThrows_ue _).bind fun _ =>
    (onlyThrows_readBits _ 1).bind fun _ => (onlyThrows_readBits _ 1).bind fun _ =>
    (onlyThrows_readBits _ 1).bind fun _ => onlyThrows_pure _
  unfold avcPpsValidateMainEx at h
  split at h
  · cases h
    decide
  · split at h
    · cases h
      decide
    · split at h
      · rename_i hfields
        exact (hthrows _ _ hfields).elim
      · split at h
        · cases h
          decide
        · cases h

/-- The check accepts the Main syntax and nothing else.  Every parameter set without
slice groups is accepted for its sequence parameter set, with its entropy coding mode
and its number in the outputs.  Every malformed NAL unit is rejected with zeros in
the outputs.  What is accepted at all is the unit of such a parameter set. -/
theorem callPpsValidateMainEx_correct :
    (∀ (s : PictureParameterSet) (refIdc : ℕ) (out : PpsOutputs), s.Valid →
      refIdc < 4 → out.entropyCodingMode ≠ none →
        callPpsValidateMainEx (s.nal refIdc) s.head.spsId out =
          (0, out.filled s.report)) ∧
    (∀ (nal : List UInt8) (expectedSpsId : ℕ) (out : PpsOutputs),
      Malformed expectedSpsId nal →
        (callPpsValidateMainEx nal expectedSpsId out).1 ≠ 0 ∧
          (callPpsValidateMainEx nal expectedSpsId out).2 = out.cleared) ∧
    ∀ (nal : List UInt8) (expectedSpsId : ℕ) (out : PpsOutputs),
      (callPpsValidateMainEx nal expectedSpsId out).1 = 0 →
        ∃ (rbsp : List UInt8) (s : PictureParameterSet), IsRbsp nal 8 rbsp ∧
          s.Supported expectedSpsId ∧ IsPayload (toBits rbsp) s.encode ∧
            (callPpsValidateMainEx nal expectedSpsId out).2 = out.filled s.report := by
  refine ⟨fun s refIdc out hs hrefIdc hout => ?_, fun nal expectedSpsId out h => ?_,
    fun nal expectedSpsId out h => ?_⟩
  · rw [callPpsValidateMainEx, if_neg hout,
      PictureParameterSet.avcPpsValidateMainEx_nal hs.supported hrefIdc]
  · unfold callPpsValidateMainEx
    split
    · exact ⟨Int.neg_ne_zero.mpr Int.one_ne_zero, rfl⟩
    · split
      · rename_i code hcode
        exact ⟨avcPpsValidateMainEx_error hcode, rfl⟩
      · rename_i r hr
        exact absurd hr (avcPpsValidateMainEx_malformed h r)
  · unfold callPpsValidateMainEx at h ⊢
    split
    · rename_i hnull
      rw [if_pos hnull] at h
      cases h
    · rename_i hout
      rw [if_neg hout] at h
      split at h
      · rename_i code hcode
        exact absurd h (avcPpsValidateMainEx_error hcode)
      · rename_i r hr
        obtain ⟨-, rbsp, s, hrbsp, hs, hpayload, rfl⟩ := avcPpsValidateMainEx_eq_ok.mp hr
        exact ⟨rbsp, s, hrbsp, hs, hpayload, rfl⟩

/-- A parameter set for CABAC with a quantizer of 20. -/
def cabacSet : PictureParameterSet where
  head := ⟨0, 0, true, false⟩
  tail := ⟨0, 0, false, 0, -6, 0, 0, true, false, false⟩

theorem callPpsValidateMainEx_correct_cabacSet :
    callPpsValidateMainEx [0x68, 0xee, 0x06, 0xf2] 0 ⟨some 7, some 7⟩ =
        (0, ⟨some 1, some 0⟩) ∧
      (callPpsValidateMainEx [0x68, 0, 0, 1] 0 ⟨some 7, some 7⟩).2 =
        ⟨some 0, some 0⟩ ∧
      ∃ (rbsp : List UInt8) (s : PictureParameterSet),
        IsRbsp [0x68, 0xee, 0x06, 0xf2] 8 rbsp ∧ s.Supported 0 ∧
          IsPayload (toBits rbsp) s.encode := by
  have hnal : cabacSet.nal 3 = [0x68, 0xee, 0x06, 0xf2] := by decide +kernel
  have hok := callPpsValidateMainEx_correct.1 cabacSet 3 ⟨some 7, some 7⟩
    ⟨by decide, by decide, by decide, by decide, by decide, by decide, by decide,
      by decide⟩ (by decide) (by simp)
  have hbad := callPpsValidateMainEx_correct.2.1 [0x68, 0, 0, 1] 0 ⟨some 7, some 7⟩
    (.escape (.run [] [] 1 (by decide) rfl))
  rw [hnal] at hok
  obtain ⟨rbsp, s, hrbsp, hs, hpayload, -⟩ := callPpsValidateMainEx_correct.2.2
    [0x68, 0xee, 0x06, 0xf2] 0 ⟨some 7, some 7⟩ (congrArg Prod.fst hok)
  exact ⟨hok, hbad.2, rbsp, s, hrbsp, hs, hpayload⟩

end MoonlightPsp.Sps

import MoonlightPsp.Sps.FormatChecked
import MoonlightPsp.Sps.LimitRefs

/-!
# Parameter sets are read back

What the format parser accepts makes sense, and from the NAL unit of a parameter
set it reads what was written, as long as the unit and the numbers in it are not
too large.
-/

namespace MoonlightPsp.Sps

open BitString EmulationPrevention

/-! ## The syntax of a parameter set -/

/-- The number of the code `se(v)` of a signed number. -/
def seNumber (k : ℤ) : ℕ := if 0 < k then 2 * k.toNat - 1 else 2 * (-k).toNat

/-- The type of the picture order count and the fields that depend on it. -/
inductive PicOrderCnt where
  | type0 (log2MaxLsb : ℕ)
  | type1 (deltaAlwaysZero : Bool) (offsetNonRef offsetTopToBottom : ℤ)
      (offsets : List ℤ)
  | type2

def PicOrderCnt.coded : PicOrderCnt → PocSyntax
  | type0 log2MaxLsb => .type0 log2MaxLsb
  | type1 deltaAlwaysZero offsetNonRef offsetTopToBottom offsets =>
      .type1 deltaAlwaysZero (seNumber offsetNonRef) (seNumber offsetTopToBottom)
        (offsets.map seNumber)
  | type2 => .type2

/-- The bounds of the standard, with one for the signed numbers. -/
def PicOrderCnt.Within (limit : ℕ) : PicOrderCnt → Prop
  | type0 log2MaxLsb => log2MaxLsb ≤ 12
  | type1 _ offsetNonRef offsetTopToBottom offsets =>
      offsetNonRef.natAbs ≤ limit ∧ offsetTopToBottom.natAbs ≤ limit ∧
        offsets.length ≤ 255 ∧ ∀ k ∈ offsets, k.natAbs ≤ limit
  | type2 => True

/-- A parameter set of the Baseline or Main profile for progressive frames.  The
numbers `w` and `h` are those of the macroblocks less one, and `vui` has the bits
behind the flag, if it is set. -/
structure ParameterSet where
  refIdc : ℕ
  profile : ℕ
  constraints : ℕ
  level : ℕ
  spsId : ℕ
  log2MaxFrameNum : ℕ
  poc : PicOrderCnt
  refs : ℕ
  gapsAllowed : Bool
  w : ℕ
  h : ℕ
  direct8x8 : Bool
  crop : Option Crop
  vui : Option (List Bool)

namespace ParameterSet

def head (s : ParameterSet) : SpsHead :=
  ⟨s.profile, s.constraints, s.level, s.spsId, s.log2MaxFrameNum, s.poc.coded⟩

def tail (s : ParameterSet) : SpsTail :=
  ⟨s.gapsAllowed, s.w, s.h, s.direct8x8, s.crop, s.vui.isSome⟩

/-- `seq_parameter_set_data`. -/
def encode (s : ParameterSet) : List Bool :=
  s.head.encode ++ (ueCode s.refs ++ (s.tail.encode ++ s.vui.getD []))

/-- The NAL unit, with the bits behind the parameter set and the emulation
prevention. -/
def nal (s : ParameterSet) : List UInt8 :=
  nalOf (UInt8.ofNat (s.refIdc * 32 + 7)) (closing s.encode)

/-- The bounds of the standard, and those of the decoder. -/
structure Valid (s : ParameterSet) : Prop where
  refIdc : s.refIdc < 4
  profile : s.profile = 66 ∨ s.profile = 77
  constraints : s.constraints < 256 ∧ s.constraints &&& 3 = 0
  level : s.level < 256
  spsId : s.spsId ≤ 31
  log2MaxFrameNum : s.log2MaxFrameNum ≤ 12
  poc : s.poc.Within (2 ^ 31 - 1)
  refs : s.refs ≤ 4
  w : s.w < 30
  h : s.h < 17
  crop : s.tail.rectangle.Fits ((s.w + 1) * 16) ((s.h + 1) * 16)

/-- What a decoder makes of it, with a cropping rectangle in units of two
pixels. -/
def format (s : ParameterSet) : StreamFormat where
  profile := s.profile
  level := s.level
  refs := s.refs
  spsId := s.spsId
  codedWidth := (s.w + 1) * 16
  codedHeight := (s.h + 1) * 16
  width := (s.w + 1) * 16 - 2 * (s.tail.rectangle.left + s.tail.rectangle.right)
  height := (s.h + 1) * 16 - 2 * (s.tail.rectangle.top + s.tail.rectangle.bottom)
  cropLeft := 2 * s.tail.rectangle.left
  cropTop := 2 * s.tail.rectangle.top

end ParameterSet

/-- A picture of whole macroblocks, not more than a PSP decodes, with the shown
part inside. -/
structure StreamFormat.Sound (f : StreamFormat) : Prop where
  codedWidth : f.codedWidth % 16 = 0 ∧ 16 ≤ f.codedWidth ∧ f.codedWidth ≤ 480
  codedHeight : f.codedHeight % 16 = 0 ∧ 16 ≤ f.codedHeight ∧ f.codedHeight ≤ 272
  width : 0 < f.width ∧ f.width ≤ f.codedWidth
  height : 0 < f.height ∧ f.height ≤ f.codedHeight
  cropLeft : f.cropLeft + f.width ≤ f.codedWidth
  cropTop : f.cropTop + f.height ≤ f.codedHeight
  refs : f.refs ≤ 4

/-! ## What is accepted -/

theorem StreamFormat.Sound.of_ok {nal : List UInt8} {f : StreamFormat}
    (h : avcStreamFormat nal = .ok f) : f.Sound := by
  obtain ⟨-, -, rbsp, head, refs, tail, -, -, hrefs, ⟨hw, hh, hcrop⟩, -, rfl⟩ :=
    avcStreamFormat_eq_ok.mp h
  obtain ⟨-, hwidth, hheight⟩ := hcrop
  constructor
  all_goals
    simp only [SpsHead.format, formatOf]
    omega

/-! ## What is read back -/

theorem isUe_seNumber {k : ℤ} : IsUe (seNumber k) ↔ k.natAbs ≤ 2 ^ 30 - 1 := by
  rw [IsUe, seNumber]
  split
  · omega
  · omega

theorem PicOrderCnt.coded_within {p : PicOrderCnt} :
    p.coded.Within (· ≤ 12) ↔ p.Within (2 ^ 30 - 1) := by
  cases p with
  | type0 log2MaxLsb => rfl
  | type1 flag first second offsets =>
      simp only [coded, PocSyntax.Within, Within, isUe_seNumber, List.length_map,
        List.forall_mem_map]
  | type2 => exact Iff.rfl

theorem flatMap_ueCode_inj {vs ws : List ℕ} {as bs : List Bool}
    (hlen : vs.length = ws.length)
    (h : vs.flatMap ueCode ++ as = ws.flatMap ueCode ++ bs) : vs = ws := by
  induction vs generalizing ws with
  | nil => exact (List.length_eq_zero_iff.mp hlen.symm).symm
  | cons v vs ih =>
      cases ws with
      | nil => exact nomatch hlen
      | cons w ws =>
          simp only [List.flatMap_cons, List.append_assoc] at h
          obtain ⟨rfl, hrest⟩ := ueCode_append_inj h
          rw [ih (Nat.succ.inj hlen) hrest]

/-- The fields of a picture order count are read in one way. -/
theorem PocSyntax.encode_inj {p q : PocSyntax} {as bs : List Bool}
    (h : p.encode ++ as = q.encode ++ bs) : p = q := by
  cases p with
  | type0 lsb =>
      cases q with
      | type0 lsb' =>
          simp only [encode, List.append_assoc] at h
          obtain ⟨-, hrest⟩ := ueCode_append_inj h
          rw [(ueCode_append_inj hrest).1]
      | type1 flag first second offsets =>
          simp only [encode, List.append_assoc] at h
          exact absurd (ueCode_append_inj h).1 (by decide)
      | type2 =>
          simp only [encode, List.append_assoc] at h
          exact absurd (ueCode_append_inj h).1 (by decide)
  | type1 flag first second offsets =>
      cases q with
      | type0 lsb =>
          simp only [encode, List.append_assoc] at h
          exact absurd (ueCode_append_inj h).1 (by decide)
      | type1 flag' first' second' offsets' =>
          simp only [encode, List.append_assoc, List.cons_append] at h
          obtain ⟨-, hfields⟩ := ueCode_append_inj h
          obtain ⟨hflag, hnumbers⟩ := List.cons.inj hfields
          obtain ⟨hfirst, hrest⟩ := ueCode_append_inj hnumbers
          obtain ⟨hsecond, hlist⟩ := ueCode_append_inj hrest
          obtain ⟨hlen, hoffsets⟩ := ueCode_append_inj hlist
          rw [hflag, hfirst, hsecond, flatMap_ueCode_inj hlen hoffsets]
      | type2 =>
          simp only [encode, List.append_assoc] at h
          exact absurd (ueCode_append_inj h).1 (by decide)
  | type2 =>
      cases q with
      | type0 lsb =>
          simp only [encode, List.append_assoc] at h
          exact absurd (ueCode_append_inj h).1 (by decide)
      | type1 flag first second offsets =>
          simp only [encode, List.append_assoc] at h
          exact absurd (ueCode_append_inj h).1 (by decide)
      | type2 => rfl

/-- In front of `max_num_ref_frames` the picture order count is where it was
written. -/
theorem SpsHead.poc_inj {s t : SpsHead} {as bs : List Bool}
    (h : s.encode ++ as = t.encode ++ bs) : s.poc = t.poc := by
  simp only [encode, List.append_assoc] at h
  obtain ⟨-, h⟩ := List.append_inj h (by simp)
  obtain ⟨-, h⟩ := List.append_inj h (by simp)
  obtain ⟨-, h⟩ := List.append_inj h (by simp)
  obtain ⟨-, h⟩ := ueCode_append_inj h
  obtain ⟨-, h⟩ := ueCode_append_inj h
  exact PocSyntax.encode_inj h

namespace ParameterSet

variable {s : ParameterSet}

theorem Valid.supported (hs : s.Valid) (hpoc : s.poc.Within (2 ^ 30 - 1)) :
    s.head.Supported :=
  ⟨hs.profile, hs.constraints, hs.level, hs.spsId, hs.log2MaxFrameNum,
    PicOrderCnt.coded_within.mpr hpoc⟩

theorem Valid.isRbsp (hs : s.Valid) : IsRbsp s.nal 7 (closing s.encode) := by
  have hheader : ∀ refIdc < 4, UInt8.ofNat (refIdc * 32 + 7) &&& 0x9f = 7 := by
    decide
  exact isRbsp_nalOf (hheader s.refIdc hs.refIdc) _

theorem five_le_length_nal (s : ParameterSet) : 5 ≤ s.nal.length := by
  have hescape : (closing s.encode).length ≤
      (escape (closing s.encode)).length :=
    length_le_of_unescape (unescape_escape _)
  have hbits : 24 ≤ s.encode.length := by
    simp only [encode, SpsHead.encode, List.length_append, length_bitsOf]
    omega
  obtain ⟨k, hk, hclosing⟩ := closes_closing s.encode
  have hlen := congrArg List.length hclosing
  simp only [length_toBits, List.length_append, List.length_cons,
    List.length_replicate] at hlen
  rw [nal, nalOf, List.length_cons]
  omega

theorem prefix_closing (s : ParameterSet) :
    s.head.encode ++ (ueCode s.refs ++ s.tail.encode) <+:
      toBits (closing s.encode) := by
  obtain ⟨k, -, hclosing⟩ := closes_closing s.encode
  refine ⟨s.vui.getD [] ++ true :: List.replicate k false, ?_⟩
  rw [hclosing, encode]
  simp only [List.append_assoc]

/-- A parameter set is read back if and only if its signed numbers have no more
than thirty bits and the unit no more than 1024 bytes. -/
theorem avcStreamFormat_nal (hs : s.Valid) :
    avcStreamFormat s.nal = .ok s.format ↔
      s.poc.Within (2 ^ 30 - 1) ∧ s.nal.length ≤ 1024 := by
  rw [avcStreamFormat_eq_ok]
  constructor
  · rintro ⟨-, hmax, rbsp, head, refs, tail, hrbsp, hhead, -, -, hfront, -⟩
    have hsame : closing s.encode = rbsp :=
      Option.some.inj (hs.isRbsp.2.symm.trans hrbsp.2)
    obtain ⟨as, has⟩ := hfront
    obtain ⟨bs, hbs⟩ := s.prefix_closing
    rw [hsame, ← has] at hbs
    simp only [List.append_assoc] at hbs
    have hpoc : s.head.poc = head.poc := SpsHead.poc_inj hbs
    have hwithin := hhead.poc
    rw [← hpoc] at hwithin
    exact ⟨PicOrderCnt.coded_within.mp hwithin, hmax⟩
  · rintro ⟨hpoc, hmax⟩
    exact ⟨s.five_le_length_nal, hmax, _, s.head, s.refs, s.tail, hs.isRbsp,
      hs.supported hpoc, hs.refs, ⟨hs.w, hs.h, hs.crop⟩, s.prefix_closing, rfl⟩

end ParameterSet

/-- The format parser stays inside its buffers and terminates without a number
that wraps; what it accepts makes sense, and what is written is read back. -/
theorem avcStreamFormatIn_correct :
    (∀ nal : List UInt8, ∃ r, avcStreamFormatIn nal = some r ∧
      ∀ f, r = .ok f → f.Sound) ∧
    ∀ s : ParameterSet, s.Valid →
      (avcStreamFormatIn s.nal = some (.ok s.format) ↔
        s.poc.Within (2 ^ 30 - 1) ∧ s.nal.length ≤ 1024) := by
  refine ⟨fun nal => ⟨_, avcStreamFormatIn_eq nal, fun f hf => .of_ok hf⟩,
    fun s hs => ?_⟩
  rw [avcStreamFormatIn_eq, Option.some.injEq]
  exact s.avcStreamFormat_nal hs

/-- A Baseline parameter set for 480×272 pixels in a picture of 480×272, whose
picture order counts have an offset. -/
def withOffset (k : ℤ) : ParameterSet where
  refIdc := 3
  profile := 66
  constraints := 0xc0
  level := 30
  spsId := 0
  log2MaxFrameNum := 0
  poc := .type1 false k 0 []
  refs := 1
  gapsAllowed := false
  w := 29
  h := 16
  direct8x8 := true
  crop := none
  vui := none

theorem withOffset_valid {k : ℤ} (hk : k.natAbs ≤ 2 ^ 31 - 1) :
    (withOffset k).Valid := by
  refine ⟨?_, .inl rfl, ?_, ?_, ?_, ?_, ⟨hk, ?_, ?_, ?_⟩, ?_, ?_, ?_, ?_⟩
  all_goals simp [withOffset, ParameterSet.tail, SpsTail.rectangle, Crop.Fits]

theorem avcStreamFormatIn_correct_withOffset :
    avcStreamFormatIn (withOffset 1).nal = some (.ok (withOffset 1).format) :=
  (avcStreamFormatIn_correct.2 (withOffset 1) (withOffset_valid (by decide))).mpr
    ⟨⟨by decide, by decide, by decide, fun _ h => nomatch h⟩, by decide⟩

/-- An offset of thirty-one bits is not read. -/
theorem withOffset_rejected :
    ¬∀ s : ParameterSet, s.Valid →
      avcStreamFormatIn s.nal = some (.ok s.format) := by
  intro hall
  have hok := hall (withOffset (2 ^ 30)) (withOffset_valid (by decide))
  exact absurd hok (by decide +kernel)

end MoonlightPsp.Sps

import MoonlightPsp.Sps.BitReader

/-!
# The stream format of a sequence parameter set

`avc_stream_format.c` reads a Baseline or Main parameter set.  What it accepts
is the H.264 syntax of such a set, with the bounds the code puts on its values.
-/

namespace MoonlightPsp.Sps

open BitString EmulationPrevention StickyParser

/-! ## The model -/

/-- `AvcStreamFormat`. -/
structure StreamFormat where
  profile : ℕ
  level : ℕ
  refs : ℕ
  spsId : ℕ
  codedWidth : ℕ
  codedHeight : ℕ
  width : ℕ
  height : ℕ
  cropLeft : ℕ
  cropTop : ℕ
  deriving DecidableEq

/-- The numbers in `crop[4]`. -/
structure Crop where
  left : ℕ
  right : ℕ
  top : ℕ
  bottom : ℕ
  deriving DecidableEq

/-- Return from the function if frames are not progressive. -/
def rejectInterlaced (frameMbsOnly : ℕ) : Parser Unit := fun b =>
  if frameMbsOnly = 0 then .error (if b.bad then -1 else -2) else .ok ((), b)

/-- The type of the picture order count and the fields that depend on it, where
`lsb` reads those of type zero. -/
def pocSyntax (lsb : Parser Unit) : Parser Unit := do
  let poc ← ue
  if poc = 0 then lsb
  else if poc = 1 then do
    let _ ← readBits 1
    let _ ← ue
    let _ ← ue
    let cycle ← ue
    rejectIf (cycle > 255) (-1)
    skipMany ue cycle
  else rejectIf (poc ≠ 2) (-1)

/-- The size of the least significant bits, within its bound. -/
def boundedLsb : Parser Unit := do
  let log2MaxLsb ← ue
  rejectIf (log2MaxLsb > 12) (-1)

/-- What is read in front of `max_num_ref_frames`. -/
structure HeadFields where
  profile : ℕ
  level : ℕ
  spsId : ℕ

/-- The fields in front of `max_num_ref_frames`. -/
def headFields : Parser HeadFields := do
  let profile ← readBits 8
  let constraints ← readBits 8
  rejectIf (constraints &&& 3 ≠ 0) (-1)
  let level ← readBits 8
  let spsId ← ue
  rejectIf (profile ≠ 66 ∧ profile ≠ 77) (-2)
  rejectIf (spsId > 31) (-1)
  let log2MaxFrameNum ← ue
  rejectIf (log2MaxFrameNum > 12) (-1)
  pocSyntax boundedLsb
  pure ⟨profile, level, spsId⟩

/-- The reference frames and the size in macroblocks less one. -/
structure SizeFields where
  refs : ℕ
  w : ℕ
  h : ℕ

/-- The fields from `max_num_ref_frames` to the size. -/
def sizeFields : Parser SizeFields := do
  let refs ← ue
  let _ ← readBits 1
  let w ← ue
  let h ← ue
  rejectFailed (-1)
  rejectIf (w ≥ 30 ∨ h ≥ 17 ∨ refs > 4) (-2)
  pure ⟨refs, w, h⟩

/-- The four numbers of the cropping rectangle, if there is one. -/
def cropRectangle (cropping : ℕ) : Parser Crop :=
  if cropping ≠ 0 then do
    let left ← ue
    let right ← ue
    let top ← ue
    let bottom ← ue
    pure ⟨left, right, top, bottom⟩
  else pure ⟨0, 0, 0, 0⟩

/-- The fields behind the size. -/
def cropFields : Parser Crop := do
  let frameMbsOnly ← readBits 1
  rejectInterlaced frameMbsOnly
  let _ ← readBits 1
  let cropping ← readBits 1
  let crop ← cropRectangle cropping
  let _ ← readBits 1
  rejectFailed (-1)
  pure crop

/-- Whether the cropping rectangle leaves something of the picture. -/
def Crop.Fits (c : Crop) (codedWidth codedHeight : ℕ) : Prop :=
  (c.left ≤ 240 ∧ c.right ≤ 240 ∧ c.top ≤ 240 ∧ c.bottom ≤ 240) ∧
    2 * (c.left + c.right) < codedWidth ∧ 2 * (c.top + c.bottom) < codedHeight

instance (c : Crop) (w h : ℕ) : Decidable (c.Fits w h) := by
  unfold Crop.Fits
  infer_instance

/-- What is reported for the fields of a parameter set. -/
def formatOf (head : HeadFields) (size : SizeFields) (crop : Crop) :
    StreamFormat :=
  { profile := head.profile
    level := head.level
    refs := size.refs
    spsId := head.spsId
    codedWidth := (size.w + 1) * 16
    codedHeight := (size.h + 1) * 16
    width := (size.w + 1) * 16 - 2 * (crop.left + crop.right)
    height := (size.h + 1) * 16 - 2 * (crop.top + crop.bottom)
    cropLeft := 2 * crop.left
    cropTop := 2 * crop.top }

/-- The fields that `avc_stream_format` reads, and what it reports. -/
def formatFields : Parser StreamFormat := do
  let head ← headFields
  let size ← sizeFields
  let crop ← cropFields
  rejectIf (¬ crop.Fits ((size.w + 1) * 16) ((size.h + 1) * 16)) (-1)
  pure (formatOf head size crop)

/-- `avc_stream_format` with no null pointer among its arguments: what it writes
to `*out`, or the code it returns with `*out` zeroed. -/
def avcStreamFormat (nal : List UInt8) : Except ℤ StreamFormat :=
  if nal.length < 5 ∨ nal.length > 1024 ∨ nal.headD 0 &&& 0x9f ≠ 7 then .error (-1)
  else
    match rbspLoop (fun _ => false) 0 [] nal.tail with
    | none => .error (-1)
    | some out => (formatFields (.start out (out.length * 8))).map Prod.fst

/-! ## The syntax -/

/-- The fields of a picture order count.  Signed numbers stand as the numbers of
their codes. -/
inductive PocSyntax where
  | type0 (log2MaxLsb : ℕ)
  | type1 (deltaAlwaysZero : Bool) (offsetNonRef offsetTopToBottom : ℕ)
      (offsets : List ℕ)
  | type2

/-- `pic_order_cnt_type` and the fields behind it. -/
def PocSyntax.encode : PocSyntax → List Bool
  | type0 log2MaxLsb => ueCode 0 ++ ueCode log2MaxLsb
  | type1 deltaAlwaysZero offsetNonRef offsetTopToBottom offsets =>
      ueCode 1 ++ deltaAlwaysZero :: (ueCode offsetNonRef ++
        (ueCode offsetTopToBottom ++
          (ueCode offsets.length ++ offsets.flatMap ueCode)))
  | type2 => ueCode 2

/-- Numbers whose codes are read. -/
def IsUe (v : ℕ) : Prop := v < 2 ^ 31 - 1

theorem isUe_zero : IsUe 0 := by
  unfold IsUe
  decide

/-- The bounds of a picture order count, with one for the number of type zero. -/
def PocSyntax.Within (lsb : ℕ → Prop) : PocSyntax → Prop
  | type0 log2MaxLsb => lsb log2MaxLsb
  | type1 _ offsetNonRef offsetTopToBottom offsets =>
      IsUe offsetNonRef ∧ IsUe offsetTopToBottom ∧ offsets.length ≤ 255 ∧
        ∀ v ∈ offsets, IsUe v
  | type2 => True

/-- The syntax in front of `max_num_ref_frames`. -/
structure SpsHead where
  profile : ℕ
  constraints : ℕ
  level : ℕ
  spsId : ℕ
  log2MaxFrameNum : ℕ
  poc : PocSyntax

def SpsHead.encode (s : SpsHead) : List Bool :=
  bitsOf 8 s.profile ++ (bitsOf 8 s.constraints ++ (bitsOf 8 s.level ++
    (ueCode s.spsId ++ (ueCode s.log2MaxFrameNum ++ s.poc.encode))))

/-- Baseline or Main, with the bounds of the code. -/
structure SpsHead.Supported (s : SpsHead) : Prop where
  profile : s.profile = 66 ∨ s.profile = 77
  constraints : s.constraints < 256 ∧ s.constraints &&& 3 = 0
  level : s.level < 256
  spsId : s.spsId ≤ 31
  log2MaxFrameNum : s.log2MaxFrameNum ≤ 12
  poc : s.poc.Within (· ≤ 12)

/-- The syntax of the cropping rectangle. -/
def encodeCrop : Option Crop → List Bool
  | none => [false]
  | some c => true :: (ueCode c.left ++ (ueCode c.right ++
      (ueCode c.top ++ ueCode c.bottom)))

/-- The syntax behind `max_num_ref_frames` of a progressive parameter set. -/
structure SpsTail where
  gapsAllowed : Bool
  w : ℕ
  h : ℕ
  direct8x8 : Bool
  crop : Option Crop
  vui : Bool

def SpsTail.encode (s : SpsTail) : List Bool :=
  s.gapsAllowed :: (ueCode s.w ++ (ueCode s.h ++ true :: s.direct8x8 ::
    (encodeCrop s.crop ++ [s.vui])))

/-- The cropping rectangle, which is empty if it is left out. -/
def SpsTail.rectangle (s : SpsTail) : Crop := s.crop.getD ⟨0, 0, 0, 0⟩

structure SpsTail.Supported (s : SpsTail) : Prop where
  w : s.w < 30
  h : s.h < 17
  crop : s.rectangle.Fits ((s.w + 1) * 16) ((s.h + 1) * 16)

/-- What is reported for a parameter set. -/
def SpsHead.format (s : SpsHead) (refs : ℕ) (tail : SpsTail) : StreamFormat :=
  formatOf ⟨s.profile, s.level, s.spsId⟩ ⟨refs, tail.w, tail.h⟩ tail.rectangle

/-! ## What is read -/

theorem parses_readFlag :
    Parses (readBits 1) fun v cs => ∃ flag : Bool, v = flag.toNat ∧ cs = [flag] := by
  refine (parses_readBits 1).congr fun v cs => ?_
  constructor
  · rintro ⟨-, hv, rfl⟩
    refine ⟨v.testBit 0, ?_, rfl⟩
    obtain rfl | rfl : v = 0 ∨ v = 1 := by omega
    · rfl
    · rfl
  · rintro ⟨flag, rfl, rfl⟩
    cases flag
    · exact ⟨by decide, by decide, rfl⟩
    · exact ⟨by decide, by decide, rfl⟩

theorem parses_byte : Parses (readBits 8) fun v cs => v < 256 ∧ cs = bitsOf 8 v :=
  (parses_readBits 8).congr fun _ _ => by simp

theorem parses_rejectInterlaced (frameMbsOnly : ℕ) :
    Parses (rejectInterlaced frameMbsOnly) fun _ cs => frameMbsOnly ≠ 0 ∧ cs = [] := by
  by_cases h : frameMbsOnly = 0
  · intro b a b'
    simp [rejectInterlaced, h]
  · have heq : rejectInterlaced frameMbsOnly = pure () := by
      funext b
      rw [rejectInterlaced, if_neg h]
      rfl
    rw [heq]
    exact (Parses.pure ()).congr fun _ _ => by simp [h]

theorem parses_skipUes (n : ℕ) :
    Parses (skipMany ue n) fun _ cs => ∃ vs : List ℕ,
      vs.length = n ∧ (∀ v ∈ vs, IsUe v) ∧ cs = vs.flatMap ueCode :=
  parses_skipMany parses_ue n

theorem parses_boundedLsb :
    Parses boundedLsb fun _ cs => ∃ v, v ≤ 12 ∧ cs = ueCode v := by
  refine (parses_ue.bind fun log2MaxLsb =>
    parses_rejectIf (log2MaxLsb > 12) (-1)).congr fun _ cs => ?_
  constructor
  · rintro ⟨v, -, -, ⟨-, rfl⟩, ⟨hle, rfl⟩, rfl⟩
    exact ⟨v, Nat.not_lt.mp hle, List.append_nil _⟩
  · rintro ⟨v, hle, rfl⟩
    exact ⟨v, _, [], ⟨by omega, rfl⟩, ⟨by omega, rfl⟩, (List.append_nil _).symm⟩

theorem parses_pocSyntax {lsb : Parser Unit} {ok : ℕ → Prop}
    (hlsb : Parses lsb fun _ cs => ∃ v, ok v ∧ cs = ueCode v) :
    Parses (pocSyntax lsb) fun _ cs =>
      ∃ p : PocSyntax, p.Within ok ∧ cs = p.encode := by
  refine (parses_ue.bind fun poc => hlsb.ite
      ((parses_readFlag.bind fun _ => parses_ue.bind fun _ => parses_ue.bind fun _ =>
        parses_ue.bind fun cycle => (parses_rejectIf (cycle > 255) (-1)).bind fun _ =>
          parses_skipUes cycle).ite
        (parses_rejectIf (poc ≠ 2) (-1)))).congr fun _ cs => ?_
  constructor
  · rintro ⟨poc, -, fields, ⟨-, rfl⟩, hfields, rfl⟩
    split at hfields
    · obtain ⟨log2MaxLsb, hok, rfl⟩ := hfields
      subst poc
      exact ⟨.type0 log2MaxLsb, hok, rfl⟩
    · split at hfields
      · obtain ⟨-, -, -, ⟨flag, -, rfl⟩, ⟨first, -, -, ⟨hfirst, rfl⟩,
          ⟨second, -, -, ⟨hsecond, rfl⟩, ⟨cycle, -, -, ⟨-, rfl⟩,
          ⟨-, -, -, ⟨hcycle, rfl⟩, ⟨vs, rfl, hvs, rfl⟩, rfl⟩, rfl⟩, rfl⟩, rfl⟩, rfl⟩ :=
          hfields
        subst poc
        exact ⟨.type1 flag first second vs,
          ⟨hfirst, hsecond, Nat.not_lt.mp hcycle, hvs⟩, by simp [PocSyntax.encode]⟩
      · obtain ⟨htwo, rfl⟩ := hfields
        obtain rfl := not_not.mp htwo
        exact ⟨.type2, trivial, by simp [PocSyntax.encode]⟩
  · rintro ⟨p, hp, rfl⟩
    cases p with
    | type0 log2MaxLsb =>
        exact ⟨0, _, _, ⟨by decide, rfl⟩, ⟨log2MaxLsb, hp, rfl⟩, rfl⟩
    | type1 flag first second vs =>
        obtain ⟨hfirst, hsecond, hlen, hvs⟩ := hp
        exact ⟨1, _, _, ⟨by decide, rfl⟩, ⟨_, [flag], _, ⟨flag, rfl, rfl⟩,
          ⟨first, _, _, ⟨hfirst, rfl⟩, ⟨second, _, _, ⟨hsecond, rfl⟩,
            ⟨vs.length, _, _, ⟨by omega, rfl⟩, ⟨(), [], _, ⟨by omega, rfl⟩,
              ⟨vs, rfl, hvs, rfl⟩, rfl⟩, rfl⟩, rfl⟩, rfl⟩, rfl⟩,
          by simp [PocSyntax.encode]⟩
    | type2 =>
        exact ⟨2, _, [], ⟨by decide, rfl⟩, ⟨by simp, rfl⟩, by simp [PocSyntax.encode]⟩

theorem parses_headFields :
    Parses headFields fun f cs => ∃ s : SpsHead, s.Supported ∧ cs = s.encode ∧
      f = ⟨s.profile, s.level, s.spsId⟩ := by
  refine (parses_byte.bind fun profile => parses_byte.bind fun constraints =>
    (parses_rejectIf (constraints &&& 3 ≠ 0) (-1)).bind fun _ =>
    parses_byte.bind fun level => parses_ue.bind fun spsId =>
    (parses_rejectIf (profile ≠ 66 ∧ profile ≠ 77) (-2)).bind fun _ =>
    (parses_rejectIf (spsId > 31) (-1)).bind fun _ =>
    parses_ue.bind fun log2MaxFrameNum =>
    (parses_rejectIf (log2MaxFrameNum > 12) (-1)).bind fun _ =>
    (parses_pocSyntax parses_boundedLsb).bind fun _ =>
    Parses.pure (HeadFields.mk profile level spsId)).congr fun f cs => ?_
  constructor
  · rintro ⟨profile, -, -, ⟨-, rfl⟩, ⟨constraints, -, -, ⟨hconstraints, rfl⟩,
      ⟨-, -, -, ⟨hreserved, rfl⟩, ⟨level, -, -, ⟨hlevel, rfl⟩,
      ⟨spsId, -, -, ⟨-, rfl⟩, ⟨-, -, -, ⟨hprofile, rfl⟩,
      ⟨-, -, -, ⟨hspsId, rfl⟩, ⟨log2MaxFrameNum, -, -, ⟨-, rfl⟩,
      ⟨-, -, -, ⟨hlog, rfl⟩, ⟨-, -, -, ⟨poc, hpoc, rfl⟩, ⟨rfl, rfl⟩, rfl⟩, rfl⟩, rfl⟩,
      rfl⟩, rfl⟩, rfl⟩, rfl⟩, rfl⟩, rfl⟩, rfl⟩
    refine ⟨⟨profile, constraints, level, spsId, log2MaxFrameNum, poc⟩,
      ⟨?_, ⟨hconstraints, not_not.mp hreserved⟩, hlevel, Nat.not_lt.mp hspsId,
        Nat.not_lt.mp hlog, hpoc⟩, ?_, rfl⟩
    · show profile = 66 ∨ profile = 77
      omega
    · simp [SpsHead.encode]
  · rintro ⟨s, hs, rfl, rfl⟩
    have hprofile := hs.profile
    have hspsId := hs.spsId
    have hlog := hs.log2MaxFrameNum
    exact ⟨s.profile, _, _, ⟨by omega, rfl⟩, ⟨s.constraints, _, _,
      ⟨hs.constraints.1, rfl⟩, ⟨(), [], _, ⟨not_not.mpr hs.constraints.2, rfl⟩,
      ⟨s.level, _, _, ⟨hs.level, rfl⟩, ⟨s.spsId, _, _, ⟨by omega, rfl⟩,
      ⟨(), [], _, ⟨by omega, rfl⟩, ⟨(), [], _, ⟨by omega, rfl⟩,
      ⟨s.log2MaxFrameNum, _, _, ⟨by omega, rfl⟩, ⟨(), [], _, ⟨by omega, rfl⟩,
      ⟨(), _, [], ⟨s.poc, hs.poc, rfl⟩, ⟨rfl, rfl⟩, rfl⟩, rfl⟩, rfl⟩, rfl⟩, rfl⟩,
      rfl⟩, rfl⟩, rfl⟩, rfl⟩, by simp [SpsHead.encode]⟩

theorem parses_sizeFields :
    Parses sizeFields fun f cs => f.refs ≤ 4 ∧ f.w < 30 ∧ f.h < 17 ∧
      ∃ gapsAllowed : Bool,
        cs = ueCode f.refs ++ gapsAllowed :: (ueCode f.w ++ ueCode f.h) := by
  refine (parses_ue.bind fun refs => parses_readFlag.bind fun _ =>
    parses_ue.bind fun w => parses_ue.bind fun h =>
    (parses_rejectFailed (-1)).bind fun _ =>
    (parses_rejectIf (w ≥ 30 ∨ h ≥ 17 ∨ refs > 4) (-2)).bind fun _ =>
    Parses.pure (SizeFields.mk refs w h)).congr fun f cs => ?_
  constructor
  · rintro ⟨refs, -, -, ⟨-, rfl⟩, ⟨-, -, -, ⟨gaps, -, rfl⟩, ⟨w, -, -, ⟨-, rfl⟩,
      ⟨h, -, -, ⟨-, rfl⟩, ⟨-, -, -, rfl, ⟨-, -, -, ⟨hbounds, rfl⟩, ⟨rfl, rfl⟩, rfl⟩,
      rfl⟩, rfl⟩, rfl⟩, rfl⟩, rfl⟩
    simp only [not_or, Nat.not_le, Nat.not_lt] at hbounds
    exact ⟨hbounds.2.2, hbounds.1, hbounds.2.1, gaps, by simp⟩
  · rintro ⟨hrefs, hw, hh, gaps, rfl⟩
    exact ⟨f.refs, _, _, ⟨by omega, rfl⟩, ⟨_, [gaps], _, ⟨gaps, rfl, rfl⟩,
      ⟨f.w, _, _, ⟨by omega, rfl⟩, ⟨f.h, _, _, ⟨by omega, rfl⟩, ⟨(), [], _, rfl,
      ⟨(), [], [], ⟨by omega, rfl⟩, ⟨rfl, rfl⟩, rfl⟩, rfl⟩, rfl⟩, rfl⟩, rfl⟩,
      by simp⟩

/-- The numbers of a cropping rectangle can be read. -/
def Crop.IsRead (c : Crop) : Prop :=
  IsUe c.left ∧ IsUe c.right ∧ IsUe c.top ∧ IsUe c.bottom

theorem Crop.Fits.isRead {c : Crop} {w h : ℕ} (hc : c.Fits w h) : c.IsRead := by
  obtain ⟨⟨hleft, hright, htop, hbottom⟩, -⟩ := hc
  unfold Crop.IsRead IsUe
  omega

theorem parses_cropRectangle (cropping : ℕ) :
    Parses (cropRectangle cropping) fun c cs =>
      if cropping ≠ 0 then c.IsRead ∧ cs = ueCode c.left ++ (ueCode c.right ++
        (ueCode c.top ++ ueCode c.bottom))
      else c = ⟨0, 0, 0, 0⟩ ∧ cs = [] := by
  refine Parses.ite ((parses_ue.bind fun left => parses_ue.bind fun right =>
    parses_ue.bind fun top => parses_ue.bind fun bottom =>
    Parses.pure (Crop.mk left right top bottom)).congr fun c cs => ?_) (Parses.pure _)
  constructor
  · rintro ⟨left, -, -, ⟨hleft, rfl⟩, ⟨right, -, -, ⟨hright, rfl⟩,
      ⟨top, -, -, ⟨htop, rfl⟩, ⟨bottom, -, -, ⟨hbottom, rfl⟩, ⟨rfl, rfl⟩, rfl⟩, rfl⟩,
      rfl⟩, rfl⟩
    exact ⟨⟨hleft, hright, htop, hbottom⟩, by simp⟩
  · rintro ⟨⟨hleft, hright, htop, hbottom⟩, rfl⟩
    exact ⟨c.left, _, _, ⟨hleft, rfl⟩, ⟨c.right, _, _, ⟨hright, rfl⟩,
      ⟨c.top, _, _, ⟨htop, rfl⟩, ⟨c.bottom, _, [], ⟨hbottom, rfl⟩, ⟨rfl, rfl⟩, rfl⟩,
      rfl⟩, rfl⟩, by simp⟩

theorem parses_cropFields :
    Parses cropFields fun c cs => ∃ (direct8x8 : Bool) (crop : Option Crop) (vui : Bool),
      c = crop.getD ⟨0, 0, 0, 0⟩ ∧ c.IsRead ∧
        cs = true :: direct8x8 :: (encodeCrop crop ++ [vui]) := by
  refine (parses_readFlag.bind fun frameMbsOnly =>
    (parses_rejectInterlaced frameMbsOnly).bind fun _ =>
    parses_readFlag.bind fun _ => parses_readFlag.bind fun cropping =>
    (parses_cropRectangle cropping).bind fun crop => parses_readFlag.bind fun _ =>
    (parses_rejectFailed (-1)).bind fun _ =>
    Parses.pure crop).congr fun c cs => ?_
  constructor
  · rintro ⟨-, -, -, ⟨progressive, rfl, rfl⟩, ⟨-, -, -, ⟨honly, rfl⟩,
      ⟨-, -, -, ⟨direct8x8, -, rfl⟩, ⟨-, -, -, ⟨cropping, rfl, rfl⟩,
      ⟨crop, as, -, hcrop, ⟨-, -, -, ⟨vui, -, rfl⟩, ⟨-, -, -, rfl, ⟨rfl, rfl⟩, rfl⟩,
      rfl⟩, rfl⟩, rfl⟩, rfl⟩, rfl⟩, rfl⟩
    cases progressive with
    | false => exact absurd rfl honly
    | true =>
        cases cropping with
        | true =>
            rw [if_pos (by decide)] at hcrop
            obtain ⟨hread, rfl⟩ := hcrop
            exact ⟨direct8x8, some c, vui, rfl, hread, by simp [encodeCrop]⟩
        | false =>
            rw [if_neg (by decide)] at hcrop
            obtain ⟨rfl, rfl⟩ := hcrop
            exact ⟨direct8x8, none, vui, rfl,
              ⟨isUe_zero, isUe_zero, isUe_zero, isUe_zero⟩, by simp [encodeCrop]⟩
  · rintro ⟨direct8x8, crop, vui, rfl, hread, rfl⟩
    refine ⟨1, [true], _, ⟨true, rfl, rfl⟩, ⟨(), [], _, ⟨by decide, rfl⟩,
      ⟨_, [direct8x8], _, ⟨direct8x8, rfl, rfl⟩, ⟨_, [crop.isSome], _,
      ⟨crop.isSome, rfl, rfl⟩, ⟨_, (encodeCrop crop).tail, _, ?_, ⟨_, [vui], _,
      ⟨vui, rfl, rfl⟩, ⟨(), [], [], rfl, ⟨rfl, rfl⟩, rfl⟩, rfl⟩, rfl⟩, rfl⟩, rfl⟩, rfl⟩,
      ?_⟩
    · cases crop with
      | none => exact ⟨rfl, rfl⟩
      | some c => exact ⟨hread, rfl⟩
    · cases crop with
      | none => rfl
      | some c => rfl

theorem checked_cropFields : Checked cropFields :=
  Checked.bind fun _ => Checked.bind fun _ => Checked.bind fun _ =>
    Checked.bind fun _ => Checked.bind fun _ => Checked.bind fun _ =>
      (checked_rejectFailed _).bind_still fun _ => still_pure _

/-- The syntax of the parameter sets that are accepted. -/
theorem parses_formatFields :
    Parses formatFields fun f cs => ∃ (head : SpsHead) (refs : ℕ) (tail : SpsTail),
      head.Supported ∧ refs ≤ 4 ∧ tail.Supported ∧
        cs = head.encode ++ (ueCode refs ++ tail.encode) ∧
        f = head.format refs tail := by
  refine (parses_headFields.bind fun head => parses_sizeFields.bind fun size =>
    parses_cropFields.bind fun crop =>
    (parses_rejectIf (¬ crop.Fits ((size.w + 1) * 16) ((size.h + 1) * 16)) (-1)).bind
      fun _ => Parses.pure (formatOf head size crop)).congr fun f cs => ?_
  constructor
  · rintro ⟨-, -, -, ⟨head, hhead, rfl, rfl⟩, ⟨size, -, -, ⟨hrefs, hw, hh, gaps, rfl⟩,
      ⟨-, -, -, ⟨direct8x8, crop, vui, rfl, -, rfl⟩, ⟨-, -, -, ⟨hfits, rfl⟩,
      ⟨rfl, rfl⟩, rfl⟩, rfl⟩, rfl⟩, rfl⟩
    exact ⟨head, size.refs, ⟨gaps, size.w, size.h, direct8x8, crop, vui⟩, hhead, hrefs,
      ⟨hw, hh, not_not.mp hfits⟩, by simp [SpsTail.encode], rfl⟩
  · rintro ⟨head, refs, tail, hhead, hrefs, htail, rfl, rfl⟩
    exact ⟨_, _, _, ⟨head, hhead, rfl, rfl⟩, ⟨⟨refs, tail.w, tail.h⟩, _, _,
      ⟨hrefs, htail.w, htail.h, tail.gapsAllowed, rfl⟩, ⟨_, _, _,
      ⟨tail.direct8x8, tail.crop, tail.vui, rfl, htail.crop.isRead, rfl⟩,
      ⟨(), [], [], ⟨not_not.mpr htail.crop, rfl⟩, ⟨rfl, rfl⟩, rfl⟩, rfl⟩, rfl⟩,
      by simp [SpsTail.encode]⟩

theorem checked_formatFields : Checked formatFields :=
  Checked.bind fun head => Checked.bind fun size =>
    (checked_cropFields).bind_still fun crop =>
      (still_rejectIf _ _).bind fun _ => still_pure (formatOf head size crop)

/-! ## The whole function -/

/-- The raw bytes of a NAL unit of a type, without the emulation prevention. -/
def IsRbsp (nal : List UInt8) (nalType : UInt8) (rbsp : List UInt8) : Prop :=
  nal.headD 0 &&& 0x9f = nalType ∧ unescape nal.tail = some rbsp

/-- The loop that never refuses a byte takes the emulation prevention out. -/
theorem rbspLoop_unbounded (bytes : List UInt8) :
    rbspLoop (fun _ => false) 0 [] bytes = unescape bytes := by
  rw [rbspLoop_eq bytes.length (fun _ _ => rfl) (by simp), unescape]
  simp

/-- At the start of whole bytes all of them are left. -/
theorem rest_bytes (out : List UInt8) :
    Source.rest (Bits.start out (out.length * 8)) = toBits out := by
  rw [rest_start (by omega), List.take_of_length_le (by simp; omega)]

/-- What is accepted, and what is reported then. -/
theorem avcStreamFormat_eq_ok {nal : List UInt8} {f : StreamFormat} :
    avcStreamFormat nal = .ok f ↔ 5 ≤ nal.length ∧ nal.length ≤ 1024 ∧
      ∃ (rbsp : List UInt8) (head : SpsHead) (refs : ℕ) (tail : SpsTail),
        IsRbsp nal 7 rbsp ∧ head.Supported ∧ refs ≤ 4 ∧ tail.Supported ∧
          head.encode ++ (ueCode refs ++ tail.encode) <+: toBits rbsp ∧
          f = head.format refs tail := by
  unfold avcStreamFormat
  split
  · rename_i hbad
    simp only [reduceCtorEq, false_iff]
    rintro ⟨hmin, hmax, rbsp, head, refs, tail, ⟨htype, -⟩, -⟩
    rcases hbad with h | h | h
    · omega
    · omega
    · exact h htype
  · rename_i hgood
    simp only [not_or, Nat.not_lt, ne_eq, not_not] at hgood
    rw [rbspLoop_unbounded]
    constructor
    · intro h
      split at h
      · cases h
      · rename_i rbsp hrbsp
        cases hfields : formatFields (Bits.start rbsp (rbsp.length * 8)) with
        | error code => rw [hfields] at h; cases h
        | ok result =>
            rw [hfields] at h
            cases h
            obtain ⟨-, cs, ⟨head, refs, tail, hhead, hrefs, htail, rfl, hf⟩, hcs, -⟩ :=
              (parses_formatFields _ _ _).mp ⟨hfields, checked_formatFields _ _ _ hfields⟩
            rw [rest_bytes] at hcs
            exact ⟨hgood.1, hgood.2.1, rbsp, head, refs, tail, ⟨hgood.2.2, hrbsp⟩,
              hhead, hrefs, htail, hcs, hf⟩
    · rintro ⟨-, -, rbsp, head, refs, tail, ⟨-, hrbsp⟩, hhead, hrefs, htail, hcs, rfl⟩
      rw [← rest_bytes] at hcs
      obtain ⟨hfields, -⟩ := (parses_formatFields _ _ _).mpr
        ⟨rfl, _, ⟨head, refs, tail, hhead, hrefs, htail, rfl, rfl⟩, hcs, rfl⟩
      rw [hrbsp]
      simp only [hfields]
      rfl

end MoonlightPsp.Sps

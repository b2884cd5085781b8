import MoonlightPsp.Avc.Session
import MoonlightPsp.Sps.StreamFormat

/-!
# Submitting an access unit

`psp_avc_submit` hands an access unit and three output buffers to the firmware,
and `psp_avc_drain` gets the last pictures out of it.  An error of the firmware
makes the session unusable.
-/

namespace MoonlightPsp.Avc

open Sps

/-! ## Output buffers -/

/-- `PspAvcPictures`. -/
structure PspAvcPictures where
  rgba : ℕ → UInt32
  count : ℤ

/-- `AVC_CSC_MAX_BYTES`. -/
def avcCscMaxBytes : UInt32 := 512 * 272 * 4

/-- Whether two buffers are far enough apart. -/
def apart (a b : UInt32) : Bool :=
  (if a > b then a - b else b - a) ≥ avcCscMaxBytes

/-- The checks of a buffer in `prepare`. -/
def goodBuffer (p : PspAvcPictures) (i : ℕ) : Bool :=
  p.rgba i != 0 && p.rgba i &&& 63 == 0 &&
    (List.range i).all fun j => apart (p.rgba i) (p.rgba j)

/-- `prepare`; the pictures are there and have no count any more. -/
def prepare (s : PspAvcSession) (w h : ℕ) (p : PspAvcPictures) : Bool :=
  s.ready && decide (0 < w ∧ w ≤ 480 ∧ 0 < h ∧ h ≤ 272 ∧ w % 16 = 0 ∧
    h % 16 = 0) && (List.range 3).all (goodBuffer p)

/-! ## Conversion -/

/-- What the firmware says about the pictures: whether `d`, `d->info` and
`d->yuv` are there, the sizes, and the results of `sceMpegBaseCscAvc`. -/
structure ConvertAnswers where
  detail : ℤ
  given : Bool
  width : ℕ → ℕ
  height : ℕ → ℕ
  csc : ℕ → ℤ

/-- The size that the firmware reports is that of the format, cropped or not. -/
def sizeMatches (format : StreamFormat) (a : ConvertAnswers) (i : ℕ) : Bool :=
  (a.width i == format.width && a.height i == format.height) ||
    (a.width i == format.codedWidth && a.height i == format.codedHeight)

/-- The loop of `convert` from picture `i` on. -/
def convertLoop (format : StreamFormat) (a : ConvertAnswers) :
    ℕ → ℕ → ℤ
  | 0, _ => 0
  | left + 1, i =>
      if !sizeMatches format a i then -1
      else if a.csc i ≠ 0 then a.csc i
      else convertLoop format a left (i + 1)

/-- `convert`: its result and the pictures. -/
def convert (format : StreamFormat) (a : ConvertAnswers) (p : PspAvcPictures)
    (count : ℤ) : ℤ × PspAvcPictures :=
  if count < 0 ∨ count > 3 then (-1, p)
  else if count = 0 then (0, p)
  else if format.codedHeight = 0 ∨ format.codedHeight > 272 ∨
      format.codedHeight % 16 ≠ 0 then (-1, p)
  else if a.detail ≠ 0 ∨ !a.given then
    (if a.detail ≠ 0 then a.detail else -1, p)
  else
    let r := convertLoop format a count.toNat 0
    if r ≠ 0 then (r, p) else (0, { p with count })

/-! ## `psp_avc_submit` -/

/-- An access unit for the firmware, by the bytes that its pointers refer to. -/
structure DecoderUnit where
  sps : List UInt8
  pps : List UInt8
  avccSize : ℕ
  hasIdr : Bool
  hasPredictive : Bool
deriving DecidableEq

/-- What the firmware returns in `psp_avc_submit`; `pictures` is what it leaves
in `s->decode_state`. -/
structure SubmitAnswers where
  getNalAu : ℤ
  avcDecode : ℤ
  pictures : ℤ
  convert : ConvertAnswers

/-- The profile is not one that the session was opened for. -/
def profileMismatch (s : PspAvcSession) (format : StreamFormat) : Bool :=
  (format.profile == 66 && !s.mainProfile &&
      !(s.owns .helperStarted || s.baselineBooted)) ||
    (format.profile == 77 && (!s.mainProfile || s.baselineBooted ||
      s.owns .helperStarted))

/-- The checks at the start of `psp_avc_submit`: the format, if they pass. -/
def preflight (s : PspAvcSession) (au : DecoderUnit) (p : PspAvcPictures) :
    Option StreamFormat :=
  if au.sps.isEmpty ∨ au.pps.isEmpty ∨ au.avccSize = 0 ∨
      au.avccSize > 262144 ∨ au.hasIdr = au.hasPredictive then none
  else
    match avcStreamFormat au.sps with
    | .error _ => none
    | .ok format =>
        if !prepare s format.codedWidth format.codedHeight p then none
        else if format.codedWidth > 480 ∨ format.codedHeight > 272 ∨
            format.cropLeft ≠ 0 ∨ format.cropTop ≠ 0 then none
        else if profileMismatch s format then none
        else some format

/-- An error makes the session unusable. -/
def PspAvcSession.fail (s : PspAvcSession) (r : ℤ) : PspAvcSession :=
  if r ≠ 0 then { s with ready := false } else s

/-- `psp_avc_submit` with no null pointer among its arguments. -/
def pspAvcSubmit (s : PspAvcSession) (au : DecoderUnit) (p : PspAvcPictures)
    (a : SubmitAnswers) : ℤ × PspAvcSession × PspAvcPictures :=
  let p := { p with count := 0 }
  match preflight s au p with
  | none => (-1, s, p)
  | some format =>
      if a.getNalAu ≠ 0 then (a.getNalAu, s.fail a.getNalAu, p)
      else if a.avcDecode ≠ 0 then (a.avcDecode, s.fail a.avcDecode, p)
      else
        let r := convert format a.convert p a.pictures
        (r.1, s.fail r.1, r.2)

/-- What the firmware returns in `psp_avc_drain`. -/
structure DrainAnswers where
  decodeStop : ℤ
  pictures : ℤ
  convert : ConvertAnswers

/-- `psp_avc_drain`. -/
def pspAvcDrain (s : PspAvcSession) (format : StreamFormat)
    (p : PspAvcPictures) (a : DrainAnswers) :
    ℤ × PspAvcSession × PspAvcPictures :=
  let p := { p with count := 0 }
  if !prepare s format.codedWidth format.codedHeight p then (-1, s, p)
  else if a.decodeStop ≠ 0 then (a.decodeStop, s.fail a.decodeStop, p)
  else
    let r := convert format a.convert p a.pictures
    (r.1, s.fail r.1, r.2)

/-! ## Results -/

variable {s : PspAvcSession} {format : StreamFormat} {p : PspAvcPictures}

/-- A conversion that succeeds reports at most three pictures. -/
theorem convert_count (a : ConvertAnswers) {count : ℤ} (hp : p.count = 0) :
    0 ≤ (convert format a p count).2.count ∧
      (convert format a p count).2.count ≤ 3 ∧
      (convert format a p count).2.rgba = p.rgba := by
  have hzero : 0 ≤ p.count ∧ p.count ≤ 3 ∧ p.rgba = p.rgba := by
    rw [hp]
    exact ⟨by decide, by decide, rfl⟩
  rw [convert]
  dsimp only
  split_ifs with hrange hnone hheight hdetail hcode hloop
  · exact hzero
  · exact hzero
  · exact hzero
  · exact hzero
  · exact hzero
  · exact hzero
  · simp only [not_or, Int.not_lt] at hrange
    exact ⟨hrange.1, hrange.2, rfl⟩

theorem fail_cases (s : PspAvcSession) (r : ℤ) :
    s.fail r = s ∨ s.fail r = { s with ready := false } := by
  rw [PspAvcSession.fail]
  split
  · exact .inr rfl
  · exact .inl rfl

/-- What a submission leaves. -/
theorem submit_spec (au : DecoderUnit) (a : SubmitAnswers) :
    let r := pspAvcSubmit s au p a
    (r.2.1 = s ∨ r.2.1 = { s with ready := false }) ∧
      0 ≤ r.2.2.count ∧ r.2.2.count ≤ 3 ∧ r.2.2.rgba = p.rgba := by
  have hzero : (0 : ℤ) ≤ 0 ∧ (0 : ℤ) ≤ 3 ∧ p.rgba = p.rgba :=
    ⟨by decide, by decide, rfl⟩
  rw [pspAvcSubmit]
  dsimp only
  split
  · exact ⟨.inl rfl, hzero⟩
  · split_ifs
    · exact ⟨fail_cases s _, hzero⟩
    · exact ⟨fail_cases s _, hzero⟩
    · exact ⟨fail_cases s _, convert_count a.convert rfl⟩

/-- What a drain leaves of the session. -/
theorem drain_session (a : DrainAnswers) :
    let r := pspAvcDrain s format p a
    r.2.1 = s ∨ r.2.1 = { s with ready := false } := by
  rw [pspAvcDrain]
  dsimp only
  split_ifs
  · exact .inl rfl
  · exact fail_cases s _
  · exact fail_cases s _

end MoonlightPsp.Avc

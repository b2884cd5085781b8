import MoonlightPsp.Sps.BitReader

/-!
# The check of picture parameter sets

`avc_pps_validate_main_ex` reads a picture parameter set of the Main syntax and
reports its entropy coding mode.
-/

namespace MoonlightPsp.Sps

open StickyParser

/-- The fields that the checks look at. -/
structure PpsFields where
  ppsId : ℕ
  spsId : ℕ
  entropy : ℕ
  sliceGroups : ℕ

/-- The reads of `avc_pps_validate_main_ex`.  A signed number is read as the
number of its code. -/
def ppsFields : Parser PpsFields := do
  let ppsId ← ue
  let spsId ← ue
  let entropy ← readBits 1
  let _ ← readBits 1
  let sliceGroups ← ue
  let _ ← ue
  let _ ← ue
  let _ ← readBits 1
  let _ ← readBits 2
  let _ ← ue
  let _ ← ue
  let _ ← ue
  let _ ← readBits 1
  let _ ← readBits 1
  let _ ← readBits 1
  pure ⟨ppsId, spsId, entropy, sliceGroups⟩

/-- What `avc_pps_validate_main_ex` reports. -/
structure PpsReport where
  entropyCodingMode : ℕ
  ppsId : ℕ

/-- `avc_pps_validate_main_ex`: what it reports, or the code it returns. -/
def avcPpsValidateMainEx (nal : List UInt8) (expectedSpsId : ℕ) :
    Except ℤ PpsReport :=
  match loadRbsp nal 8 with
  | none => .error (-1)
  | some b =>
      match rbspStopBit b with
      | none => .error (-1)
      | some stop =>
          match ppsFields (.start b.bytes stop) with
          | .error code => .error code
          | .ok (f, b') =>
              if b'.bad ∨ f.ppsId > 255 ∨ f.spsId ≠ expectedSpsId ∨
                  f.sliceGroups ≠ 0 ∨ b'.pos ≠ stop then .error (-2)
              else .ok ⟨f.entropy, f.ppsId⟩

end MoonlightPsp.Sps

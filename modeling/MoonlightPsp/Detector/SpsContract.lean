import MoonlightPsp.Detector.NalReader
import MoonlightPsp.Detector.NalSearch
import MoonlightPsp.Detector.Rbsp
import Mathlib.Algebra.Group.Int.Defs
import Mathlib.Algebra.Group.Nat.Defs

/-!
# The contract of the sequence parameter set

`check_nal_for_sps_contract` looks for the first sequence parameter set and checks that
it asks for no more than the decoder has: the Baseline profile, at most four references,
no reordering and at most four buffered pictures.  Where its parser fails, a second one
reads the references alone.
-/

namespace MoonlightPsp.Detector

open StickyParser

/-! ## The parser -/

/-- The fields of `SpsLowLatencyInfo` that the check looks at. -/
structure SpsLowLatencyInfo where
  oldRefs : ℕ
  vuiPresent : Bool
  bsrPresent : Bool
  bsrValid : Bool
  oldNumReorderFrames : ℕ
  oldMaxDecFrameBuffering : ℕ
  deriving DecidableEq

/-- The fields before anything is read. -/
def SpsLowLatencyInfo.initial : SpsLowLatencyInfo :=
  ⟨0, false, false, false, 0xffffffff, 0xffffffff⟩

/-- A part of a function that returns early, with what it has by then. -/
def orReturn {α : Type} (p : Reader α) (a : α) : Reader α := fun b =>
  match p b with
  | .ok r => .ok r
  | .error _ => .ok (a, b)

/-- Bits of known widths, which are dropped. -/
def skipBits : List ℕ → Reader Unit
  | [] => pure ()
  | n :: widths => do
      let _ ← nalReadBits n
      skipBits widths

/-- Read what a flag announces. -/
def ifFlag (flag : ℕ) (p : Reader Unit) : Reader Unit :=
  if flag ≠ 0 then p else pure ()

/-- The profiles with a chroma format. -/
def isHighProfile (profile : ℕ) : Bool :=
  profile ∈ [100, 110, 122, 244, 44, 83, 86, 118, 128, 138, 144]

/-- The fields of these profiles; what is left is `scaling_matrix_present`. -/
def highFields (profile : ℕ) : Reader ℕ :=
  if isHighProfile profile then do
    let chroma ← nalReadUe
    if chroma = 3 then do
      let _ ← nalReadBits 1
      pure ()
    let _ ← nalReadUe
    let _ ← nalReadUe
    let _ ← nalReadBits 1
    nalReadBits 1
  else pure 0

/-- The fields that depend on the type of the picture order count, where `offsets` reads
those of a cycle. -/
def pocFields (offsets : ℕ → Reader Unit) : Reader Unit := do
  let poc ← nalReadUe
  if poc = 0 then do
    let _ ← nalReadUe
    pure ()
  else if poc = 1 then do
    let _ ← nalReadBits 1
    let _ ← nalReadUe
    let _ ← nalReadUe
    let cycle ← nalReadUe
    offsets cycle
  else pure ()

/-- The offsets of a cycle of at most 32. -/
def boundedOffsets (cycle : ℕ) : Reader Unit :=
  if cycle > 32 then throw () else skipMany nalReadUe cycle

/-- `nal_skip_hrd_parameters`. -/
def nalSkipHrdParameters : Reader Unit := do
  let cpbCnt ← nalReadUe
  skipBits [4, 4]
  skipMany (do
    let _ ← nalReadUe
    let _ ← nalReadUe
    nalReadBits 1) (min (cpbCnt + 1) 32)
  skipBits [5, 5, 5, 5]

/-- The shape of a sample. -/
def aspectFields : Reader Unit := do
  let aspectRatio ← nalReadBits 8
  if aspectRatio = 255 then skipBits [16, 16] else pure ()

/-- The type of the video signal. -/
def signalFields : Reader Unit := do
  skipBits [3, 1]
  let colourDescription ← nalReadBits 1
  ifFlag colourDescription (skipBits [8, 8, 8])

/-- The fields of the VUI in front of `bitstream_restriction_flag`. -/
def vuiFront : Reader Unit := do
  ifFlag (← nalReadBits 1) aspectFields
  ifFlag (← nalReadBits 1) (skipBits [1])
  ifFlag (← nalReadBits 1) signalFields
  ifFlag (← nalReadBits 1) (skipMany nalReadUe 2)
  ifFlag (← nalReadBits 1) (skipBits [32, 32, 1])
  let nalHrd ← nalReadBits 1
  ifFlag nalHrd nalSkipHrdParameters
  let vclHrd ← nalReadBits 1
  ifFlag vclHrd nalSkipHrdParameters
  if nalHrd ≠ 0 ∨ vclHrd ≠ 0 then skipBits [1] else pure ()
  skipBits [1]

/-- The restrictions of the bit stream. -/
def restrictionFields (info : SpsLowLatencyInfo) : Reader SpsLowLatencyInfo :=
  orReturn (do
    skipBits [1]
    skipMany nalReadUe 4
    let reorder ← nalReadUe
    let info := { info with oldNumReorderFrames := reorder }
    orReturn (do
      let buffering ← nalReadUe
      pure { info with oldMaxDecFrameBuffering := buffering }) info) info

/-- `sps_parse_vui_low_latency_fields`, whose result is not looked at. -/
def spsParseVuiLowLatencyFields (info : SpsLowLatencyInfo) : Reader SpsLowLatencyInfo :=
  orReturn (do
    vuiFront
    let present ← nalReadBits 1
    let info := { info with bsrPresent := present ≠ 0, bsrValid := true }
    if present ≠ 0 then restrictionFields info else pure info) info

/-- The fields behind `max_num_ref_frames`. -/
def sizeAndVui (info : SpsLowLatencyInfo) : Reader SpsLowLatencyInfo :=
  orReturn (do
    let _ ← nalReadBits 1
    let _ ← nalReadUe
    let _ ← nalReadUe
    let frameMbsOnly ← nalReadBits 1
    if frameMbsOnly = 0 then skipBits [1] else pure ()
    let _ ← nalReadBits 1
    let cropping ← nalReadBits 1
    ifFlag cropping (skipMany nalReadUe 4)
    let vui ← nalReadBits 1
    let info := { info with vuiPresent := vui ≠ 0 }
    if vui ≠ 0 then spsParseVuiLowLatencyFields info else pure info) info

/-- The profile, the constraints, the level and the number of the set. -/
def spsHeader : Reader ℕ := do
  let profile ← nalReadBits 8
  let _ ← nalReadBits 8
  let _ ← nalReadBits 8
  let _ ← nalReadUe
  pure profile

/-- `sps_parse_low_latency_fields` up to `max_num_ref_frames`. -/
def spsRefs : Reader ℕ := do
  let profile ← spsHeader
  let scalingMatrix ← highFields profile
  rejectIf (scalingMatrix ≠ 0) ()
  let _ ← nalReadUe
  pocFields boundedOffsets
  nalReadUe

/-- `sps_parse_low_latency_fields`. -/
def spsParseLowLatencyFields : Reader SpsLowLatencyInfo := do
  let refs ← spsRefs
  sizeAndVui { SpsLowLatencyInfo.initial with oldRefs := refs }

/-! ## The check -/

/-- `s_sps_checked`, `g_refs_corrupted` and `g_idr_fully_decoded`, and how many key frames
were requested by force. -/
structure SpsState where
  spsChecked : Bool
  refsCorrupted : Bool
  idrFullyDecoded : Bool
  idrForced : ℕ
  deriving DecidableEq

/-- What the check takes for the values of the parameter set, as it logs them. -/
structure ContractReport where
  profile : ℕ
  level : ℕ
  refs : ℕ
  reorder : ℤ
  buffering : ℤ
  ok : Bool
  deriving DecidableEq

/-- `nal_payload_to_rbsp` behind the bytes that are stored. -/
def nalPayloadToRbsp (cap : ℕ) (out : List UInt8) : List UInt8 → List UInt8
  | a :: b :: c :: l =>
      if out.length ≥ cap then out
      else if a = 0 ∧ b = 0 ∧ c = 3 then
        if out.length + 1 ≥ cap then out ++ [0]
        else nalPayloadToRbsp cap (out ++ [0, 0]) l
      else nalPayloadToRbsp cap (out ++ [a]) (b :: c :: l)
  | a :: l =>
      if out.length ≥ cap then out else nalPayloadToRbsp cap (out ++ [a]) l
  | [] => out

/-- `rbsp_meaningful_bits`: the bits up to and with the last one. -/
def rbspMeaningfulBits (rbsp : List UInt8) : ℕ :=
  match Sps.stopLoop rbsp (rbsp.length * 8) with
  | none => 0
  | some stop => stop + 1

/-- `(int)` of an unsigned number. -/
def toInt (v : ℕ) : ℤ := if v < 2 ^ 31 then v else v - 2 ^ 32

/-- What is reported for the fields that are read. -/
def SpsLowLatencyInfo.report (info : SpsLowLatencyInfo) (rbsp : List UInt8) :
    ContractReport :=
  let profile := (rbsp.getD 0 0).toNat
  let present := info.vuiPresent && info.bsrValid && info.bsrPresent
  let reorder := if present then toInt info.oldNumReorderFrames else -1
  let buffering := if present then toInt info.oldMaxDecFrameBuffering else -1
  { profile := profile
    level := (rbsp.getD 2 0).toNat
    refs := info.oldRefs
    reorder := reorder
    buffering := buffering
    ok := ¬ (info.oldRefs > 4 ∨ profile ≠ 66 ∨ reorder > 0 ∨ buffering > 4) }

/-- The header of the second parser: the profile and the level. -/
def fallbackHeader : Reader (ℕ × ℕ) := do
  let profile ← nalReadBits 8
  let _ ← nalReadBits 8
  let level ← nalReadBits 8
  let _ ← nalReadUe
  pure (profile, level)

/-- The second parser behind its header: whether there is no scaling matrix, and the
references, zero where they are not reached. -/
def fallbackRefs (profile : ℕ) : Reader (Bool × ℕ) :=
  orReturn (do
    let scalingMatrix ← highFields profile
    if scalingMatrix ≠ 0 then pure (false, 0)
    else do
      let _ ← nalReadUe
      pocFields fun cycle => skipMany nalReadUe (min cycle 32)
      let refs ← nalReadUe
      pure (true, refs)) (true, 0)

/-- The second parser. -/
def fallbackFields : Reader ContractReport := do
  let (profile, level) ← fallbackHeader
  let (ok, refs) ← fallbackRefs profile
  pure { profile, level, refs, reorder := -1, buffering := -1,
         ok := ok ∧ ¬ (refs > 4 ∨ profile ≠ 66) }

/-- What is reported by the second parser, if it gets past its header. -/
def fallbackReport (rbsp : List UInt8) : Option ContractReport :=
  if rbsp.length < 4 then none
  else
    match fallbackFields (.start rbsp (8 * rbsp.length) (Nat.le_refl _)) with
    | .error _ => none
    | .ok (report, _) => some report

/-- What is reported for an unescaped payload. -/
def contractReport (rbsp : List UInt8) : Option ContractReport :=
  if h : 0 < rbspMeaningfulBits rbsp ∧ rbspMeaningfulBits rbsp ≤ 8 * rbsp.length then
    match spsParseLowLatencyFields (.start rbsp (rbspMeaningfulBits rbsp) h.2) with
    | .ok (info, _) => some (info.report rbsp)
    | .error _ => fallbackReport rbsp
  else fallbackReport rbsp

/-- The state behind a report. -/
def SpsState.judged (s : SpsState) : Option ContractReport → SpsState
  | some report =>
      if report.ok then { s with spsChecked := true }
      else ⟨true, true, false, s.idrForced + 1⟩
  | none => { s with spsChecked := true }

/-- `check_nal_for_sps_contract`: the state it leaves, and what it reports. -/
def checkNalForSpsContract (nal : List UInt8) (s : SpsState) :
    Option (SpsState × Option ContractReport) :=
  if s.spsChecked then some (s, none)
  else do
    match ← nalFindPayload nal 7 with
    | none => some (s, none)
    | some (start, len) =>
        let report := contractReport (nalPayloadToRbsp 256 [] ((nal.drop start).take len))
        some (s.judged report, report)

end MoonlightPsp.Detector

import MoonlightPsp.Avc.StreamInput
import MoonlightPsp.Avc.Submit
import MoonlightPsp.Sps.LimitRefs
import MoonlightPsp.Sps.NormalizeMain
import MoonlightPsp.Sps.PicParameters

/-!
# The backend of the hardware decoder

`psp_avc_backend.c` joins the input gate, the parameter sets and the firmware
session.  The first access unit with both parameter sets decides which of Sony's
modes is needed; if it is the other one, the unit is given up and the caller has
to switch before the stream goes on.
-/

namespace MoonlightPsp.Avc

open Sps

/-! ## The state -/

/-- `PspAvcBackend` without its session.  The source parameter sets are as long
as their sizes say. -/
structure PspAvcBackend where
  input : StreamInput
  format : StreamFormat
  avcc : Option (List UInt8)
  avccUid : ℤ
  sourceSps : List UInt8
  sourcePps : List UInt8
  firmwareSps : List UInt8
  firmwareSpsSize : ℕ
  sourceEntropyMode : ℤ
  baselineHelper : Bool
  mainProfile : Bool
  firstIdrSubmitted : Bool
  profileChangePending : Bool
  requestedMainProfile : Bool
  expectedWidth : ℕ
  expectedHeight : ℕ
  failed : Bool

/-- `sizeof(b->source_sps)` and so on. -/
def parameterSetSize : ℕ := 1024

/-- A backend that is all zero. -/
def PspAvcBackend.zero : PspAvcBackend where
  input := { avcStreamInputInit false with needIdr := false }
  format := ⟨0, 0, 0, 0, 0, 0, 0, 0, 0, 0⟩
  avcc := none
  avccUid := 0
  sourceSps := []
  sourcePps := []
  firmwareSps := List.replicate parameterSetSize 0
  firmwareSpsSize := 0
  sourceEntropyMode := 0
  baselineHelper := false
  mainProfile := false
  firstIdrSubmitted := false
  profileChangePending := false
  requestedMainProfile := false
  expectedWidth := 0
  expectedHeight := 0
  failed := false

/-- What is noted of a run: the opens of a session that returned 0, with the
profile, and the units that were handed to `psp_avc_submit`, with the session at
that point and the result. -/
inductive BackendEvent where
  | sessionOpened (mainProfile : Bool)
  | submitted (session : PspAvcSession) (unit : DecoderUnit) (result : ℤ)

/-- The backend and the firmware behind it. -/
structure Hardware where
  backend : PspAvcBackend
  firmware : Firmware
  log : List BackendEvent

/-- Before the first open. -/
def Hardware.start : Hardware where
  backend := .zero
  firmware := .start
  log := []

/-- Set `b->failed` and return. -/
def Hardware.fail (h : Hardware) (r : ℤ) : ℤ × Hardware :=
  (r, { h with backend.failed := true })

/-- Note whether a session was opened. -/
def Hardware.noteOpen (h : Hardware) (mainProfile : Bool) (r : ℤ × Firmware) :
    ℤ × Hardware :=
  (r.1, { h with
    firmware := r.2
    log := if r.1 = 0 then h.log ++ [.sessionOpened mainProfile] else h.log })

/-- `psp_avc_session_open`. -/
def Hardware.openSession (h : Hardware) (helper mainProfile : Bool)
    (a : OpenAnswers) : ℤ × Hardware :=
  h.noteOpen mainProfile (pspAvcSessionOpen h.firmware helper mainProfile a)

/-- `psp_avc_session_close`. -/
def Hardware.closeSession (h : Hardware) (a : CloseAnswers) : ℤ × Hardware :=
  let r := pspAvcSessionClose h.firmware a
  (r.1, { h with firmware := r.2 })

/-- `memset(b, 0, sizeof(*b))`. -/
def Hardware.clear (h : Hardware) : Hardware :=
  { h with backend := .zero, firmware.session := .zero }

/-! ## `psp_avc_backend_open` and `psp_avc_backend_close` -/

/-- Everything that a session can hold. -/
def Resource.all : List Resource :=
  [.avcodec, .vshLoaded, .vshStarted, .helperLoaded, .helperStarted,
    .initialized, .ddr, .context, .created]

/-- `session_has_resources`. -/
def sessionHasResources (s : PspAvcSession) : Bool :=
  Resource.all.any s.owns || s.ready || s.baselineBooted || s.mainProfile

/-- What the calls in `psp_avc_backend_open` return; `fill` is what the arena
holds when it is allocated. -/
structure BackendOpenAnswers where
  session : OpenAnswers
  arena : AllocateAnswers
  fill : ℕ → UInt8
  cleanup : CloseAnswers

/-- The size of the arena. -/
def arenaSize : ℕ := 262144

/-- The checks at the start of `psp_avc_backend_open`. -/
def backendOpens (h : Hardware) (width height : ℕ) (helper mainProfile : Bool) :
    Bool :=
  !(mainProfile && helper) && h.backend.avcc.isNone &&
    !sessionHasResources h.firmware.session &&
    decide (0 < width ∧ width ≤ 480 ∧ width % 2 = 0 ∧
      0 < height ∧ height ≤ 272 ∧ height % 2 = 0)

/-- The backend as `psp_avc_backend_open` sets it up before it opens the
session. -/
def PspAvcBackend.setUp (b : PspAvcBackend) (width height : ℕ)
    (helper mainProfile : Bool) : PspAvcBackend :=
  { b with
    expectedWidth := width
    expectedHeight := height
    baselineHelper := helper
    mainProfile := mainProfile
    failed := false
    firstIdrSubmitted := false
    profileChangePending := false
    requestedMainProfile := mainProfile
    sourceEntropyMode := -1
    avccUid := -1
    input := avcStreamInputInit false }

/-- `psp_avc_backend_open` behind its checks. -/
def openBackend (h : Hardware) (width height : ℕ) (helper mainProfile : Bool)
    (a : BackendOpenAnswers) : ℤ × Hardware :=
  let h := { h with
    backend := h.backend.setUp width height helper mainProfile }
  let opened := h.openSession helper mainProfile a.session
  if opened.1 ≠ 0 then opened
  else
    let h := opened.2
    match pspAvcAllocateAligned a.arena with
    | some uid =>
        (0, { h with
          backend.avcc := some ((List.range arenaSize).map a.fill)
          backend.avccUid := uid })
    | none =>
        let closed := h.closeSession a.cleanup
        if closed.1 ≠ 0 then closed else (-1, closed.2.clear)

/-- The profiles that the functions take. -/
def profileOf (mainProfile : ℤ) : Option Bool :=
  if mainProfile = 0 then some false
  else if mainProfile = 1 then some true
  else none

/-- `psp_avc_backend_open`, for a backend that is there. -/
def pspAvcBackendOpen (h : Hardware) (width height : ℕ) (helper : Bool)
    (mainProfile : ℤ) (a : BackendOpenAnswers) : ℤ × Hardware :=
  match profileOf mainProfile with
  | none => (-1, h)
  | some mainProfile =>
      if !backendOpens h width height helper mainProfile then (-1, h)
      else openBackend h width height helper mainProfile a

/-- `psp_avc_backend_close`; `free` is what freeing the arena returns. -/
def pspAvcBackendClose (h : Hardware) (a : CloseAnswers) (free : ℤ) :
    ℤ × Hardware :=
  let h := { h with backend.failed := true }
  let closed := h.closeSession a
  if closed.1 ≠ 0 then closed
  else
    let h := closed.2
    if h.backend.avcc.isSome ∧ pspAvcReleaseAligned h.backend.avccUid free < 0
    then (pspAvcReleaseAligned h.backend.avccUid free, h)
    else (0, h.clear)

/-! ## `psp_avc_backend_decode` -/

/-- The sequence parameter set of the unit: whether it is taken, and the
backend. -/
def takeSps (b : PspAvcBackend) (sps : List UInt8) :
    Option (Bool × PspAvcBackend) :=
  if sps.length > parameterSetSize then some (false, b)
  else if sps = b.sourceSps then some (true, b)
  else do
    let n ← normalizeMain false sps b.firmwareSps sps.length parameterSetSize
    let b := { b with firmwareSps := n.dst }
    if n.code ≠ 0 then some (false, b)
    else
      match avcStreamFormat (n.dst.take n.dstSize) with
      | .error _ => some (false, b)
      | .ok format =>
          if format.width ≠ b.expectedWidth ∨ format.height ≠ b.expectedHeight ∨
              format.cropLeft ≠ 0 ∨ format.cropTop ≠ 0 then some (false, b)
          else do
            let b := { b with firmwareSpsSize := n.dstSize }
            if format.refs > 1 then
              let l ← limitRefs true b.firmwareSps b.firmwareSps
                b.firmwareSpsSize parameterSetSize
              let b := { b with
                firmwareSps := l.dst
                firmwareSpsSize := l.dstSize }
              if l.code ≠ 0 then some (false, b)
              else some (true, { b with sourceSps := sps, format := format })
            else some (true, { b with sourceSps := sps, format := format })

/-- The picture parameter set of the unit. -/
def takePps (b : PspAvcBackend) (pps : List UInt8) : Bool × PspAvcBackend :=
  if pps.length > parameterSetSize then (false, b)
  else if pps = [] ∨ pps = b.sourcePps then (true, b)
  else
    match avcPpsValidateMainEx pps b.format.spsId with
    | .error _ => (false, b)
    | .ok report =>
        (true, { b with
          sourcePps := pps
          sourceEntropyMode := report.entropyCodingMode })

/-- The mode that a stream needs. -/
def requestedMain (format : StreamFormat) (entropyMode : ℤ) : Bool :=
  format.profile != 66 || entropyMode == 1

/-- `PSP_AVC_PROFILE_CHANGE_REQUIRED`. -/
def profileChangeRequired : ℤ := 4

/-- The part of `psp_avc_backend_decode` behind the parameter sets. -/
def submitUnit (h : Hardware) (au : DecoderUnit) (p : PspAvcPictures)
    (a : SubmitAnswers) : (ℤ × Hardware) × PspAvcPictures :=
  let b := h.backend
  if b.sourceEntropyMode < 0 then (h.fail (-1), p)
  else
    let requested := requestedMain b.format b.sourceEntropyMode
    if requested ≠ b.mainProfile then
      if b.firstIdrSubmitted then (h.fail (-1), p)
      else
        ((profileChangeRequired, { h with
          backend.requestedMainProfile := requested
          backend.profileChangePending := true }), p)
    else if !h.firmware.session.ready then (h.fail (-1), p)
    else
      let r := pspAvcSubmit h.firmware.session au p a
      let h := { h with
        firmware.session := r.2.1
        log := h.log ++ [BackendEvent.submitted h.firmware.session au r.1] }
      if r.1 ≠ 0 then (h.fail r.1, r.2.2)
      else
        ((r.1, { h with backend.firstIdrSubmitted :=
          h.backend.firstIdrSubmitted || au.hasIdr }), r.2.2)

/-- `psp_avc_backend_decode` for a unit that is ready. -/
def decodeReady (h : Hardware) (au : PacketizedAu) (p : PspAvcPictures)
    (a : SubmitAnswers) : Option ((ℤ × Hardware) × PspAvcPictures) := do
  let s := h.backend.input
  let sps := s.pointed au.sps au.spsSize
  let pps := s.pointed au.pps au.ppsSize
  let (taken, b) ← takeSps h.backend sps
  let h := { h with backend := b }
  if !taken then some (h.fail (-1), p)
  else
    let (taken, b) := takePps h.backend pps
    let h := { h with backend := b }
    if !taken then some (h.fail (-1), p)
    else
      let unit : DecoderUnit :=
        ⟨b.firmwareSps.take b.firmwareSpsSize, pps, au.avccSize, au.hasIdr,
          au.hasPredictive⟩
      some (submitUnit h unit p a)

/-- `psp_avc_backend_decode`, with no null pointer but that of the input. -/
def pspAvcBackendDecode (h : Hardware) (src : Option (List UInt8))
    (p : PspAvcPictures) (a : SubmitAnswers) :
    Option ((ℤ × Hardware) × PspAvcPictures) :=
  let p := { p with count := 0 }
  if h.backend.avcc.isNone ∨ h.backend.failed then some ((-1, h), p)
  else do
    let r ← prepareUnit h.backend.input src h.backend.avcc
    let h := { h with backend.input := r.state, backend.avcc := r.dst }
    if r.result ≠ .ready then
      if r.result.value < 0 then some (h.fail r.result.value, p)
      else some ((r.result.value, h), p)
    else decodeReady h r.au p a

/-! ## `psp_avc_backend_switch_profile` and `psp_avc_backend_reset` -/

/-- `psp_avc_backend_switch_profile` behind its checks. -/
def switchBackend (h : Hardware) (mainProfile : Bool) (c : CloseAnswers)
    (a : OpenAnswers) : ℤ × Hardware :=
  let switched := h.noteOpen mainProfile (pspAvcSessionSwitchProfile h.firmware
    h.backend.baselineHelper mainProfile c a)
  if switched.1 ≠ 0 then switched.2.fail switched.1
  else
    let h := switched.2
    (0, { h with
      backend.mainProfile := mainProfile
      backend.profileChangePending := false
      backend.firstIdrSubmitted := false
      backend.input := avcStreamInputInvalidate h.backend.input })

/-- `psp_avc_backend_switch_profile`. -/
def pspAvcBackendSwitchProfile (h : Hardware) (mainProfile : ℤ)
    (c : CloseAnswers) (a : OpenAnswers) : ℤ × Hardware :=
  match profileOf mainProfile with
  | none => (-1, h)
  | some mainProfile =>
      let b := h.backend
      if b.avcc.isNone ∨ !b.profileChangePending ∨ b.firstIdrSubmitted ∨
          mainProfile ≠ b.requestedMainProfile then (-1, h)
      else switchBackend h mainProfile c a

/-- `psp_avc_backend_reset`. -/
def pspAvcBackendReset (h : Hardware) (c : CloseAnswers) (a : OpenAnswers) :
    ℤ × Hardware :=
  if h.backend.avcc.isNone then (-1, h)
  else
    let h := { h with backend.failed := true }
    let closed := h.closeSession c
    if closed.1 ≠ 0 then closed
    else
      let h : Hardware := { closed.2 with
        backend.input := avcStreamInputInvalidate closed.2.backend.input }
      let opened := h.openSession h.backend.baselineHelper h.backend.mainProfile a
      if opened.1 ≠ 0 then opened
      else (0, { opened.2 with backend.failed := false })

/-! ## Runs -/

/-- A call, with what the firmware returns in it. -/
inductive BackendCall where
  | backendOpen (width height : ℕ) (helper : Bool) (mainProfile : ℤ)
      (a : BackendOpenAnswers)
  | decode (src : Option (List UInt8)) (pictures : PspAvcPictures)
      (a : SubmitAnswers)
  | switchProfile (mainProfile : ℤ) (c : CloseAnswers) (a : OpenAnswers)
  | reset (c : CloseAnswers) (a : OpenAnswers)
  | backendClose (a : CloseAnswers) (free : ℤ)

/-- The state after a call; `none` is an access outside of a buffer. -/
def Hardware.call (h : Hardware) : BackendCall → Option Hardware
  | .backendOpen width height helper mainProfile a =>
      some (pspAvcBackendOpen h width height helper mainProfile a).2
  | .decode src pictures a =>
      (pspAvcBackendDecode h src pictures a).map fun r => r.1.2
  | .switchProfile mainProfile c a =>
      some (pspAvcBackendSwitchProfile h mainProfile c a).2
  | .reset c a => some (pspAvcBackendReset h c a).2
  | .backendClose a free => some (pspAvcBackendClose h a free).2

/-- The state after a run. -/
def Hardware.runCalls (h : Hardware) : List BackendCall → Option Hardware
  | [] => some h
  | c :: calls => do
      let h ← h.call c
      h.runCalls calls

end MoonlightPsp.Avc

import MoonlightPsp.Lib.SerialNumber
import MoonlightPsp.Wire

/-!
# The RTP depacketizer

`rtp_reassembly.c`: packets are filtered, collected into one access unit at a
time, and handed to the decoder callback.  Around the assembly buffer stand two
waits that hold frames back after a loss, one for a frame that repairs the
references and one for a sync frame.

The statics are grouped by purpose.  What a call does to the rest of the program
is collected in `out`, which every call starts anew.
-/

namespace MoonlightPsp.Reassembly

open SerialNumber

/-! ## Configuration -/

/-- The settings that the thresholds depend on, with the entropy mode of the
stream, `-1` while it is unknown. -/
structure StreamConfig where
  avcEntropyMode : ℤ
  cabacTestMode : Bool
  audioEnabled : Bool
  fps : ℤ
  width : ℤ
  height : ℤ

/-- `rtp_stream_is_cabac`. -/
def rtpStreamIsCabac (c : StreamConfig) : Bool :=
  if c.avcEntropyMode = 0 ∨ c.avcEntropyMode = 1 then c.avcEntropyMode = 1
  else c.cabacTestMode

/-- `rtp_is_cavlc_performance_mode`. -/
def rtpIsCavlcPerformanceMode (c : StreamConfig) : Bool :=
  !rtpStreamIsCabac c && c.fps ≥ 30 && c.width ≤ 320 && c.height ≤ 180

/-- `rtp_is_cabac_performance_mode`. -/
def rtpIsCabacPerformanceMode (c : StreamConfig) : Bool :=
  rtpStreamIsCabac c && !c.audioEnabled && c.fps ≥ 30 && c.width ≤ 320 &&
    c.height ≤ 180

/-- `rtp_is_cabac_quality_audio_mode`. -/
def rtpIsCabacQualityAudioMode (c : StreamConfig) : Bool :=
  rtpStreamIsCabac c && c.audioEnabled && c.width = 480 && c.height = 272 &&
    c.fps > 0 && c.fps ≤ 15

/-- `rtp_rfi_wait_min_us`. -/
def rtpRfiWaitMinUs (c : StreamConfig) : ℕ :=
  if rtpIsCavlcPerformanceMode c then 500000
  else if rtpIsCabacPerformanceMode c then 450000
  else if rtpIsCabacQualityAudioMode c then 650000
  else if rtpStreamIsCabac c then 400000
  else 200000

/-- `rtp_rfi_wait_ref_span_max`. -/
def rtpRfiWaitRefSpanMax (c : StreamConfig) : ℕ :=
  if rtpIsCavlcPerformanceMode c then 90
  else if rtpIsCabacPerformanceMode c then 36
  else if rtpIsCabacQualityAudioMode c then 36
  else if rtpStreamIsCabac c then 24
  else 6

/-- `rtp_frame_span`. -/
def rtpFrameSpan (startFrame endFrame : UInt32) : UInt32 :=
  if startFrame = 0 ∨ delta endFrame startFrame < 0 then 1
  else endFrame - startFrame + 1

/-- `rtp_rfi_span_exceeds_window`. -/
def rtpRfiSpanExceedsWindow (c : StreamConfig) (startFrame endFrame : UInt32) :
    Bool :=
  if rtpIsCavlcPerformanceMode c then false
  else (rtpFrameSpan startFrame endFrame).toNat > rtpRfiWaitRefSpanMax c

/-- `rtp_rfi_wait_max_drops`. -/
def rtpRfiWaitMaxDrops (c : StreamConfig) : ℕ :=
  if rtpIsCavlcPerformanceMode c then 4
  else if rtpIsCabacPerformanceMode c then 18
  else if rtpIsCabacQualityAudioMode c then 20
  else if rtpStreamIsCabac c then 12
  else
    let limit := if c.fps > 0 then c.fps.toNat else 20
    min (max limit 4) 4

/-- `rtp_idr_wait_max_drops`. -/
def rtpIdrWaitMaxDrops (c : StreamConfig) : ℕ :=
  let fps := if c.fps > 0 then c.fps.toNat else 20
  min (max (fps * 2) 20) 60

/-- `MAX_ASSEMBLY_SIZE`. -/
def maxAssemblySize : ℕ := 256 * 1024

/-- `IDR_WAIT_MIN_US`. -/
def idrWaitMinUs : ℕ := 2000000

/-- `IDR_WAIT_LOG_INTERVAL`. -/
def idrWaitLogInterval : ℕ := 30

/-- `CABAC_PERF_IDR_RETRY_MIN_US`. -/
def cabacPerfIdrRetryMinUs : ℕ := 500000

/-- `CABAC_PERF_IDR_RETRY_DROPS`. -/
def cabacPerfIdrRetryDrops : ℕ := 8

/-- `CABAC_PERF_CONTIG_FRAME_SKIP_MAX`. -/
def cabacPerfContigFrameSkipMax : ℤ := 3

/-! ## State -/

/-- The assembly buffer and the sequence tracking around it. -/
structure Assembly where
  buffer : List UInt8
  currentFrameId : UInt32
  lastSeenFrameId : UInt32
  expectedSeq : UInt16
  reassembling : Bool
  frameHadGaps : Bool
  sawFirstSof : Bool
  frameOverflow : Bool

/-- The two waits, the loss an accepted sync frame answers, and the count of
gapped frames in a row. -/
structure Waits where
  waitingForRefInvalFrame : Bool
  refInvalStart : UInt32
  refInvalEnd : UInt32
  refInvalWaitStartUs : UInt32
  rfiWaitDropCount : UInt32
  waitingForIdrFrame : Bool
  idrWaitLossStart : UInt32
  idrWaitLossEnd : UInt32
  idrWaitStartUs : UInt32
  idrWaitDropCount : UInt32
  currentFrameIdrRecovery : Bool
  currentIdrLossStart : UInt32
  currentIdrLossEnd : UInt32
  consecGapFrames : UInt32

/-- The flags shared with the decoder and the FEC layer. -/
structure DecodeFlags where
  refsCorrupted : Bool
  idrFullyDecoded : Bool
  currentFrameIsCorrupt : Bool
  avcLastInputAccepted : Bool
  fecRecoveryClean : Bool
  lastGoodFrame : UInt32

/-- The host latency parsed from frame headers. -/
structure HostProcessing where
  us : UInt32
  sampleUs : UInt32
  valid : Bool

/-- What the first packet tells about a frame: whether it is a sync frame, and
whether it repairs the references. -/
structure FrameKind where
  isSync : Bool
  isRefRecovery : Bool
  deriving DecidableEq

/-- How a frame gets past the waits: none was pending, it repairs what an IDR or
an RFI wait is for, or an RFI wait has timed out. -/
inductive Passage where
  | unhindered
  | idrRecovery
  | rfiRecovery
  | rfiTimeout
  deriving DecidableEq

/-- What a call does outside this module. -/
inductive Effect where
  /-- `rtp_frame_complete_callback` with this buffer. -/
  | deliver (frameId : UInt32) (buffer : List UInt8)
  /-- A frame passed the waits. -/
  | opened (frameId : UInt32) (kind : FrameKind) (passage : Passage)
  | rfiWaitStarted (startFrame endFrame : UInt32)
  | idrWaitStarted (startFrame endFrame : UInt32)
  | requestIdr
  | requestIdrForce
  | requestIdrRecoveryFast
  | requestRfi (startFrame endFrame : UInt32)
  | reportFrameDrop
  | packetLoss
  | usable (bytes : ℕ)
  deriving DecidableEq

structure Depacketizer where
  asm : Assembly
  waits : Waits
  flags : DecodeFlags
  host : HostProcessing
  out : List Effect

/-- The circumstances of one call: the settings, the clock, and the flags as the
decoder callback leaves them should it run. -/
structure Env where
  config : StreamConfig
  now : UInt32
  cbRefsCorrupted : Bool
  cbIdrFullyDecoded : Bool
  cbInputAccepted : Bool

def Waits.none : Waits :=
  ⟨false, 0, 0, 0, 0, false, 0, 0, 0, 0, false, 0, 0, 0⟩

def Assembly.empty : Assembly :=
  ⟨[], noFrame, noFrame, 0, false, false, false, false⟩

/-- The statics before the first packet. -/
def Depacketizer.initial : Depacketizer :=
  ⟨Assembly.empty, Waits.none, ⟨false, false, false, false, false, 0⟩,
    ⟨0, 0, false⟩, []⟩

def Depacketizer.emit (s : Depacketizer) (e : Effect) : Depacketizer :=
  { s with out := s.out ++ [e] }

/-! ## The waits -/

/-- `rtp_wait_elapsed`. -/
def rtpWaitElapsed (now startUs : UInt32) (minUs : ℕ) : Bool :=
  if startUs = 0 then false else (now - startUs).toNat ≥ minUs

/-- `rtp_request_idr_force_for_mode`. -/
def rtpRequestIdrForceForMode (c : StreamConfig) (s : Depacketizer) :
    Depacketizer :=
  if rtpIsCabacPerformanceMode c then s.emit .requestIdrRecoveryFast
  else s.emit .requestIdrForce

/-- `rtp_clear_ref_inval_wait`. -/
def rtpClearRefInvalWait (s : Depacketizer) : Depacketizer :=
  { s with
    waits.waitingForRefInvalFrame := false
    waits.refInvalStart := 0
    waits.refInvalEnd := 0
    waits.refInvalWaitStartUs := 0
    waits.rfiWaitDropCount := 0 }

/-- `rtp_clear_idr_wait`. -/
def rtpClearIdrWait (s : Depacketizer) : Depacketizer :=
  { s with
    waits.waitingForIdrFrame := false
    waits.idrWaitLossStart := 0
    waits.idrWaitLossEnd := 0
    waits.idrWaitStartUs := 0
    waits.idrWaitDropCount := 0 }

/-- `rtp_clear_current_idr_recovery`. -/
def rtpClearCurrentIdrRecovery (s : Depacketizer) : Depacketizer :=
  { s with
    waits.currentFrameIdrRecovery := false
    waits.currentIdrLossStart := 0
    waits.currentIdrLossEnd := 0 }

/-- The start of a loss, at most its end. -/
def lossStart (startFrame endFrame : UInt32) : UInt32 :=
  if startFrame = 0 ∨ delta endFrame startFrame < 0 then endFrame
  else startFrame

/-- Widen the loss that an IDR wait stands for. -/
def widenIdrLoss (s : Depacketizer) (startFrame endFrame : UInt32) :
    Depacketizer :=
  { s with
    waits.idrWaitLossStart := earlier startFrame s.waits.idrWaitLossStart
    waits.idrWaitLossEnd := later endFrame s.waits.idrWaitLossEnd }

/-- `rtp_start_idr_wait`. -/
def rtpStartIdrWait (env : Env) (s : Depacketizer)
    (startFrame endFrame : UInt32) : Depacketizer :=
  let wasWaiting := s.waits.waitingForIdrFrame
  let startFrame := lossStart startFrame endFrame
  let s :=
    if !wasWaiting then
      { s with
        waits.idrWaitLossStart := startFrame
        waits.idrWaitLossEnd := endFrame
        waits.idrWaitDropCount := 0
        waits.idrWaitStartUs := env.now
        out := s.out ++ [.idrWaitStarted startFrame endFrame] }
    else widenIdrLoss s startFrame endFrame
  let s := rtpClearRefInvalWait { s with waits.waitingForIdrFrame := true }
  let s :=
    { s with
      flags.refsCorrupted := true
      flags.idrFullyDecoded := false }
  if wasWaiting then s.emit .requestIdr
  else rtpRequestIdrForceForMode env.config s

/-- `rtp_mark_waiting_for_ref_inval`. -/
def rtpMarkWaitingForRefInval (env : Env) (s : Depacketizer)
    (startFrame endFrame : UInt32) : Depacketizer :=
  let startFrame := lossStart startFrame endFrame
  if rtpRfiSpanExceedsWindow env.config startFrame endFrame ∧
      s.flags.lastGoodFrame ≠ 0 then
    rtpStartIdrWait env s startFrame endFrame
  else if !s.waits.waitingForRefInvalFrame then
    { s with
      waits.refInvalStart := startFrame
      waits.refInvalEnd := endFrame
      waits.waitingForRefInvalFrame := true
      waits.rfiWaitDropCount := 0
      waits.refInvalWaitStartUs := env.now
      out := s.out ++ [.rfiWaitStarted startFrame endFrame] }
  else
    let refStart := earlier startFrame s.waits.refInvalStart
    let refEnd := later endFrame s.waits.refInvalEnd
    let s :=
      { s with waits.refInvalStart := refStart, waits.refInvalEnd := refEnd }
    if rtpRfiSpanExceedsWindow env.config refStart refEnd ∧
        s.flags.lastGoodFrame ≠ 0 then
      rtpStartIdrWait env s refStart refEnd
    else s

/-- `rtp_reassembly_note_frame_loss`. -/
def rtpReassemblyNoteFrameLoss (env : Env) (s : Depacketizer)
    (startFrame endFrame : UInt32) : Depacketizer :=
  let startFrame := lossStart startFrame endFrame
  if s.waits.waitingForIdrFrame then widenIdrLoss s startFrame endFrame
  else if (s.flags.refsCorrupted ∨ !s.flags.idrFullyDecoded) ∧
      s.flags.lastGoodFrame = 0 then
    rtpStartIdrWait env s startFrame endFrame
  else rtpMarkWaitingForRefInval env s startFrame endFrame

/-! ## Looking into payloads -/

/-- `is_annexb_start` at the start of `d`: the length of the start code. -/
def isAnnexbStart (d : List UInt8) : ℕ :=
  if 3 < d.length ∧ byteAt d 0 = 0 ∧ byteAt d 1 = 0 ∧ byteAt d 2 = 1 then 3
  else if 4 < d.length ∧ byteAt d 0 = 0 ∧ byteAt d 1 = 0 ∧ byteAt d 2 = 0 ∧
      byteAt d 3 = 1 then 4
  else 0

/-- The scan for a start code followed by an IDR slice; `skip` bytes are still
passed over. -/
def scanIdrNal (skip : ℕ) : List UInt8 → Bool
  | [] => false
  | b :: rest =>
      if skip > 0 then scanIdrNal (skip - 1) rest
      else
        let d := b :: rest
        let sc := isAnnexbStart d
        if sc > 0 ∧ sc < d.length then
          if byteAt d sc &&& 0x1F = 5 then true else scanIdrNal sc rest
        else scanIdrNal 0 rest

/-- `payload_contains_idr_nal`. -/
def payloadContainsIdrNal (d : List UInt8) : Bool :=
  if d.length = 0 then false
  else if scanIdrNal 0 d then true
  else
    let nalType := byteAt d 0 &&& 0x1F
    nalType = 5 ||
      (nalType = 28 && d.length ≥ 2 && byteAt d 1 &&& 0x80 ≠ 0 &&
        byteAt d 1 &&& 0x1F = 5)

/-- The Sunshine header of a first packet: its length and the frame type, `-1`
when there is none. -/
def sunshineHeader (payload : List UInt8) : ℕ × ℤ :=
  let frameType : ℤ :=
    if payload.length ≥ 4 then ((byteAt payload 3).toNat : ℤ) else -1
  if payload.length ≥ 1 ∧ byteAt payload 0 = 0x01 then (8, frameType)
  else if payload.length ≥ 1 ∧ byteAt payload 0 = 0x81 then (44, frameType)
  else (0, -1)

/-! ## Parsing -/

/-- What `rtp_reassembly_process_packet` reads from a packet. -/
structure VideoPacket where
  seq : UInt16
  marker : Bool
  frameId : UInt32
  firstPacket : Bool
  lastPacket : Bool
  payload : List UInt8

/-- The length and flag checks at the start of
`rtp_reassembly_process_packet`. -/
def parsePacket (packet : Packet) : Option VideoPacket :=
  let extension := byteAt packet 0 &&& 0x10 ≠ 0
  let dataOffset := if extension then 12 + 4 else 12
  if packet.length < 12 then none
  else if extension ∧ packet.length < 12 + 4 then none
  else if packet.length < dataOffset + 16 then none
  else
    let flags := byteAt packet (dataOffset + 8)
    let fecBlockNum := (byteAt packet (dataOffset + 11) >>> 4) &&& 0x03
    if flags &&& ~~~(0x01 ||| 0x02 ||| 0x04) ≠ 0 then none
    else
      some {
        seq := readBe16 packet 2
        marker := byteAt packet 1 &&& 0x80 ≠ 0
        frameId := readLe32 packet (dataOffset + 4)
        firstPacket := flags &&& 0x04 ≠ 0 ∧ fecBlockNum = 0
        lastPacket := flags &&& 0x02 ≠ 0
        payload := packet.drop (dataOffset + 16) }

/-- The deduplication check: the frame is not newer than the last good one. -/
def isDuplicate (flags : DecodeFlags) (frameId : UInt32) : Bool :=
  flags.idrFullyDecoded && flags.lastGoodFrame ≠ 0 &&
    delta frameId flags.lastGoodFrame ≤ 0

/-- The packet, if it gets past the filters. -/
def passFilters (flags : DecodeFlags) (packet : Packet) : Option VideoPacket :=
  match parsePacket packet with
  | none => none
  | some p => if isDuplicate flags p.frameId then none else some p

/-! ## One packet -/

/-- What is known about the transport when a packet arrives. -/
structure Transport where
  prevSeenFrameId : UInt32
  frameDelta : ℤ
  frameGap : Bool
  seqGapAtFrameBoundary : Bool

def transportOf (a : Assembly) (p : VideoPacket) : Transport :=
  let seen := a.lastSeenFrameId ≠ noFrame
  let frameDelta := if seen then delta p.frameId a.lastSeenFrameId else 0
  { prevSeenFrameId := a.lastSeenFrameId
    frameDelta
    frameGap := seen ∧ frameDelta > 1
    seqGapAtFrameBoundary :=
      p.frameId ≠ a.currentFrameId ∧ a.currentFrameId ≠ noFrame ∧
        p.seq ≠ a.expectedSeq }

/-- Forward jump protection, and the newest frame seen. -/
def noteTransport (env : Env) (s : Depacketizer) (t : Transport)
    (p : VideoPacket) : Depacketizer :=
  let s :=
    if t.frameDelta > 100 ∧ t.seqGapAtFrameBoundary ∧
        !s.waits.waitingForIdrFrame ∧ !s.waits.waitingForRefInvalFrame then
      let lossStart := t.prevSeenFrameId + 1
      (rtpMarkWaitingForRefInval env s lossStart p.frameId).emit
        (.requestRfi lossStart p.frameId)
    else s
  if s.asm.lastSeenFrameId = noFrame ∨
      delta p.frameId s.asm.lastSeenFrameId > 0 then
    { s with asm.lastSeenFrameId := p.frameId }
  else s

/-- Start over when the packet belongs to another frame. -/
def switchFrame (s : Depacketizer) (p : VideoPacket) : Depacketizer :=
  if p.frameId ≠ s.asm.currentFrameId then
    let s :=
      if s.asm.reassembling ∧ s.asm.buffer.length > 0 then
        let s :=
          if s.flags.lastGoodFrame = 0 then s.emit .requestIdr
          else s.emit
            (.requestRfi s.asm.currentFrameId s.asm.currentFrameId)
        s.emit .reportFrameDrop
      else s
    { s with
      asm.buffer := []
      asm.currentFrameId := p.frameId
      asm.reassembling := false
      asm.frameHadGaps := false
      asm.frameOverflow := false
      asm.sawFirstSof := false
      asm.expectedSeq := p.seq }
  else s

/-- Note a gap in the sequence numbers. -/
def trackSeq (s : Depacketizer) (p : VideoPacket) : Depacketizer :=
  let s :=
    if p.seq ≠ s.asm.expectedSeq then
      { s with asm.frameHadGaps := true, out := s.out ++ [.packetLoss] }
    else s
  { s with asm.expectedSeq := p.seq + 1 }

/-- The start of a frame: the buffer is emptied for its first packet. -/
def startFrame (env : Env) (s : Depacketizer) (payload : List UInt8) :
    Depacketizer :=
  let s := rtpClearCurrentIdrRecovery
    { s with
      asm.reassembling := true
      asm.buffer := []
      asm.sawFirstSof := true
      asm.frameOverflow := false }
  if payload.length ≥ 8 ∧ byteAt payload 0 = 0x01 then
    { s with host := ⟨readLe32 payload 4, env.now, true⟩ }
  else s

/-- `is_sync_frame` and `is_ref_recovery_frame`. -/
def frameKind (payload : List UInt8) : FrameKind :=
  let (headerSkip, frameType) := sunshineHeader payload
  let containsIdr := payload.length ≥ headerSkip ∧
    payloadContainsIdrNal (payload.drop headerSkip) = true
  let isSync := frameType = 2 ∨ containsIdr
  { isSync, isRefRecovery := isSync ∨ frameType = 4 ∨ frameType = 5 }

/-- A gap in the frame ids at the start of a frame. -/
def noteFrameGap (env : Env) (s : Depacketizer) (t : Transport)
    (p : VideoPacket) (kind : FrameKind) : Depacketizer :=
  if t.frameGap ∧ !s.waits.waitingForIdrFrame ∧
      !s.waits.waitingForRefInvalFrame ∧ s.flags.idrFullyDecoded ∧
      s.flags.lastGoodFrame ≠ 0 then
    let lossStart := t.prevSeenFrameId + 1
    let lossEnd := p.frameId - 1
    if rtpIsCabacPerformanceMode env.config ∧ !t.seqGapAtFrameBoundary ∧
        t.frameDelta > 1 ∧
        t.frameDelta - 1 ≤ cabacPerfContigFrameSkipMax then s
    else if rtpStreamIsCabac env.config ∧ !kind.isRefRecovery then
      ((rtpMarkWaitingForRefInval env s lossStart lossEnd).emit
        (.requestRfi lossStart lossEnd)).emit .reportFrameDrop
    else if !t.seqGapAtFrameBoundary then s
    else if kind.isRefRecovery then s
    else if rtpIsCavlcPerformanceMode env.config then
      ((rtpMarkWaitingForRefInval env s lossStart lossEnd).emit
        (.requestRfi lossStart lossEnd)).emit .reportFrameDrop
    else
      (rtpMarkWaitingForRefInval env s lossStart lossEnd).emit .reportFrameDrop
  else s

/-- Corrupt references turn into an IDR wait at the next frame start. -/
def noteCorruptRefs (env : Env) (s : Depacketizer) (p : VideoPacket) :
    Depacketizer :=
  if s.flags.refsCorrupted ∧ !s.waits.waitingForIdrFrame then
    rtpStartIdrWait env s
      (if s.flags.lastGoodFrame ≠ 0 then s.flags.lastGoodFrame + 1
        else p.frameId) p.frameId
  else s

/-- Drop the frame that was just started. -/
def holdFrame (s : Depacketizer) : Depacketizer :=
  { s with
    asm.reassembling := false
    asm.buffer := []
    asm.sawFirstSof := false
    flags.fecRecoveryClean := false }

/-- Accept a sync frame during an IDR wait. -/
def acceptIdr (s : Depacketizer) : Depacketizer :=
  rtpClearIdrWait
    { s with
      waits.currentFrameIdrRecovery := true
      waits.currentIdrLossStart := s.waits.idrWaitLossStart
      waits.currentIdrLossEnd := s.waits.idrWaitLossEnd }

/-- The requests that an IDR wait repeats while it drops frames. -/
def repeatIdrRequests (env : Env) (s : Depacketizer) : Depacketizer :=
  let drops := s.waits.idrWaitDropCount.toNat
  let elapsed := rtpWaitElapsed env.now s.waits.idrWaitStartUs
  let maxDrops := rtpIdrWaitMaxDrops env.config
  let s :=
    if drops ≥ maxDrops ∧ elapsed idrWaitMinUs ∧ drops % maxDrops = 0 then
      s.emit .requestIdr
    else s
  if rtpIsCabacPerformanceMode env.config then
    if drops = 1 ∨ (elapsed cabacPerfIdrRetryMinUs ∧
        drops % cabacPerfIdrRetryDrops = 0) then
      s.emit .requestIdrRecoveryFast
    else s
  else if drops = 1 ∨ (elapsed idrWaitMinUs ∧
      drops % (idrWaitLogInterval * 2) = 0) then
    s.emit .requestIdrForce
  else if elapsed idrWaitMinUs ∧ drops % idrWaitLogInterval = 0 then
    s.emit .requestIdr
  else s

/-- A frame start during an IDR wait: how it passes, if it does. -/
def gateIdr (env : Env) (s : Depacketizer) (kind : FrameKind) :
    Option Passage × Depacketizer :=
  if kind.isSync then (some .idrRecovery, acceptIdr s)
  else
    let s :=
      { s with waits.idrWaitDropCount := s.waits.idrWaitDropCount + 1 }
    (none, holdFrame (repeatIdrRequests env s))

/-- End an RFI wait with the references taken as intact. -/
def endRfiWait (s : Depacketizer) : Depacketizer :=
  let s := rtpClearRefInvalWait s
  { s with flags.refsCorrupted := false, flags.idrFullyDecoded := true }

/-- Count a frame that an RFI wait drops, and widen the loss to it. -/
def countRfiDrop (s : Depacketizer) (p : VideoPacket) : Depacketizer :=
  { s with
    waits.rfiWaitDropCount := s.waits.rfiWaitDropCount + 1
    waits.refInvalEnd := later p.frameId s.waits.refInvalEnd }

/-- A frame start during an RFI wait that repairs nothing, counted already: how
it passes, if it does. -/
def holdForRfi (env : Env) (s : Depacketizer) :
    Option Passage × Depacketizer :=
  let refStart := s.waits.refInvalStart
  let refEnd := s.waits.refInvalEnd
  let reqEnd := if refEnd < refStart then refStart else refEnd
  if rtpRfiSpanExceedsWindow env.config refStart refEnd then
    (none, holdFrame (rtpStartIdrWait env s refStart refEnd))
  else if s.waits.rfiWaitDropCount.toNat ≥ rtpRfiWaitMaxDrops env.config ∧
      rtpWaitElapsed env.now s.waits.refInvalWaitStartUs
        (rtpRfiWaitMinUs env.config) then
    if rtpStreamIsCabac env.config then
      (none, holdFrame (rtpStartIdrWait env s refStart reqEnd))
    else
      (some .rfiTimeout, (endRfiWait s).emit (.requestRfi refStart reqEnd))
  else if s.waits.rfiWaitDropCount = 1 ∨
      ((rtpIsCavlcPerformanceMode env.config ∨
        rtpStreamIsCabac env.config) ∧
        s.waits.rfiWaitDropCount % 4 = 0) ∨
      s.waits.rfiWaitDropCount % 10 = 0 then
    (none, holdFrame (s.emit (.requestRfi refStart reqEnd)))
  else (none, holdFrame s)

/-- A frame start during an RFI wait: how it passes, if it does. -/
def gateRfi (env : Env) (s : Depacketizer) (p : VideoPacket)
    (kind : FrameKind) : Option Passage × Depacketizer :=
  if kind.isRefRecovery then (some .rfiRecovery, endRfiWait s)
  else holdForRfi env (countRfiDrop s p)

/-- The waits at a frame start: how the frame passes, if it does. -/
def gateFrame (env : Env) (s : Depacketizer) (p : VideoPacket)
    (kind : FrameKind) : Option Passage × Depacketizer :=
  if s.waits.waitingForIdrFrame then gateIdr env s kind
  else if s.waits.waitingForRefInvalFrame then gateRfi env s p kind
  else (some .unhindered, s)

/-- The first packet of a frame: what is left of its payload behind the Sunshine
header, or none if the frame is held. -/
def firstPacket (env : Env) (s : Depacketizer) (t : Transport)
    (p : VideoPacket) : Option (List UInt8) × Depacketizer :=
  let kind := frameKind p.payload
  let s := startFrame env s p.payload
  let s := noteFrameGap env s t p kind
  let s := noteCorruptRefs env s p
  match gateFrame env s p kind with
  | (some passage, s) =>
      (some (p.payload.drop (sunshineHeader p.payload).1),
        s.emit (.opened p.frameId kind passage))
  | (none, s) => (none, s)

/-- `append_to_frame`. -/
def appendToFrame (s : Depacketizer) (data : List UInt8) : Depacketizer :=
  if data.length = 0 then s
  else if s.asm.buffer.length + data.length > maxAssemblySize then
    { s with asm.frameOverflow := true }
  else { s with asm.buffer := s.asm.buffer ++ data }

/-- `append_start_code`. -/
def appendStartCode (s : Depacketizer) : Depacketizer :=
  appendToFrame s [0, 0, 0, 1]

/-- `rtp_advance_decoded_frame`. -/
def rtpAdvanceDecodedFrame (s : Depacketizer) (frameId : UInt32) :
    Depacketizer :=
  if s.flags.avcLastInputAccepted ∧ s.flags.idrFullyDecoded ∧
      !s.flags.currentFrameIsCorrupt ∧
      (s.flags.lastGoodFrame = 0 ∨
        delta frameId s.flags.lastGoodFrame > 0) then
    { s with flags.lastGoodFrame := frameId }
  else s

/-- `rtp_frame_complete_callback` as far as this module sees it. -/
def rtpFrameCompleteCallback (env : Env) (s : Depacketizer)
    (frameId : UInt32) : Depacketizer :=
  { s with
    flags.refsCorrupted := env.cbRefsCorrupted
    flags.idrFullyDecoded := env.cbIdrFullyDecoded
    flags.avcLastInputAccepted := env.cbInputAccepted
    out := s.out ++ [.deliver frameId s.asm.buffer] }

/-- The callback, and the bookkeeping after it. -/
def deliverFrame (env : Env) (s : Depacketizer) (frameId : UInt32) :
    Depacketizer :=
  rtpAdvanceDecodedFrame (rtpFrameCompleteCallback env s frameId) frameId

/-- Count a gapped frame that is not decoded. -/
def countGap (s : Depacketizer) : Depacketizer :=
  { s with
    waits.consecGapFrames := s.waits.consecGapFrames + 1
    flags.currentFrameIsCorrupt := false }

/-- Four gapped frames in a row cost the references. -/
def escalateGaps (s : Depacketizer) : Depacketizer :=
  if s.waits.consecGapFrames.toNat ≥ 4 then
    { s with flags.refsCorrupted := true, flags.idrFullyDecoded := false }
  else s

/-- Nothing is decoded yet: ask for an IDR frame. -/
def requestFirstIdr (s : Depacketizer) : Depacketizer :=
  { s with
    flags.idrFullyDecoded := false
    out := s.out ++ [.requestIdrForce] }

/-- The recovery that a gapped frame calls for. -/
def recoverGap (env : Env) (s : Depacketizer) (frameId : UInt32) :
    Depacketizer :=
  if s.flags.lastGoodFrame = 0 then requestFirstIdr s
  else if s.waits.currentFrameIdrRecovery then
    rtpStartIdrWait env s
      (if s.waits.currentIdrLossStart ≠ 0 then s.waits.currentIdrLossStart
        else s.flags.lastGoodFrame + 1) frameId
  else
    let lossStart := s.flags.lastGoodFrame + 1
    escalateGaps ((rtpMarkWaitingForRefInval env s lossStart frameId).emit
      (.requestRfi lossStart frameId))

/-- A frame whose gaps FEC did not vouch for, at its end. -/
def noteGappedFrame (env : Env) (s : Depacketizer) (frameId : UInt32) :
    Depacketizer :=
  (recoverGap env (countGap s) frameId).emit .reportFrameDrop

/-- A frame that is decoded, at its end. -/
def noteIntactFrame (s : Depacketizer) : Depacketizer :=
  if s.asm.frameHadGaps then
    { s with
      flags.currentFrameIsCorrupt := false
      waits.consecGapFrames := 0 }
  else { s with waits.consecGapFrames := 0 }

/-- `g_fec_recovery_clean` and the sync frame's loss are forgotten with the
frame. -/
def forgetFrame (s : Depacketizer) : Depacketizer :=
  rtpClearCurrentIdrRecovery { s with flags.fecRecoveryClean := false }

/-- The end of a frame that did not overflow: it is delivered, unless it has
gaps that FEC did not vouch for. -/
def finishFrame (env : Env) (s : Depacketizer) (frameId : UInt32) :
    Depacketizer :=
  if s.asm.frameHadGaps && !s.flags.fecRecoveryClean then
    forgetFrame (noteGappedFrame env s frameId)
  else deliverFrame env (forgetFrame (noteIntactFrame s)) frameId

/-- The end of a frame that overflowed the buffer. -/
def overflowedFrame (s : Depacketizer) : Depacketizer :=
  { s with
    flags.refsCorrupted := true
    flags.currentFrameIsCorrupt := true
    flags.idrFullyDecoded := false
    flags.fecRecoveryClean := false
    waits.consecGapFrames := 0
    out := s.out ++ [.requestIdr] }

/-- The end of a frame; the buffer is free afterwards. -/
def completeFrame (env : Env) (s : Depacketizer) (frameId : UInt32) :
    Depacketizer :=
  let s :=
    if s.asm.buffer.length > 0 ∧ s.asm.reassembling then
      if s.asm.frameOverflow then overflowedFrame s
      else finishFrame env s frameId
    else s
  { s with
    asm.reassembling := false
    asm.buffer := []
    asm.frameOverflow := false }

/-- Add a payload to the frame, with a start code in front if the first one has
none, and complete the frame on its last packet. -/
def addPayload (env : Env) (s : Depacketizer) (p : VideoPacket)
    (payload : List UInt8) : Depacketizer :=
  if !s.asm.reassembling ∨ payload.length = 0 then s
  else
    let s :=
      if p.firstPacket ∧ isAnnexbStart payload = 0 then appendStartCode s
      else s
    let s := appendToFrame (s.emit (.usable payload.length)) payload
    if p.lastPacket ∨ p.marker then completeFrame env s p.frameId else s

/-- `rtp_reassembly_process_packet` behind the filters. -/
def processAdmitted (env : Env) (s : Depacketizer) (p : VideoPacket) :
    Depacketizer :=
  let t := transportOf s.asm p
  let s := noteTransport env s t p
  let s := switchFrame s p
  let s := trackSeq s p
  if p.firstPacket then
    if s.asm.sawFirstSof then s
    else
      match firstPacket env s t p with
      | (none, s) => s
      | (some payload, s) => addPayload env s p payload
  else addPayload env s p p.payload

/-- `rtp_reassembly_process_packet`. -/
def rtpReassemblyProcessPacket (env : Env) (s : Depacketizer)
    (packet : Packet) : Depacketizer :=
  match passFilters s.flags packet with
  | none => s
  | some p => processAdmitted env s p

/-! ## The other entry points -/

/-- `rtp_reassembly_reset`. -/
def rtpReassemblyReset (s : Depacketizer) : Depacketizer :=
  { s with
    asm := Assembly.empty
    waits := Waits.none
    host := ⟨0, 0, false⟩ }

/-- `rtp_reassembly_prepare_fec_frame`. -/
def rtpReassemblyPrepareFecFrame (s : Depacketizer) (frameId : UInt32) :
    Depacketizer :=
  if s.asm.currentFrameId ≠ frameId then s
  else
    { s with
      asm.buffer := []
      asm.reassembling := false
      asm.frameHadGaps := false
      asm.frameOverflow := false
      asm.sawFirstSof := false
      asm.expectedSeq := 0 }

/-- `rtp_reassembly_note_fec_frame_complete`. -/
def rtpReassemblyNoteFecFrameComplete (s : Depacketizer)
    (nextSeqAfterFec : UInt16) : Depacketizer :=
  { s with asm.expectedSeq := nextSeqAfterFec }

end MoonlightPsp.Reassembly

import MoonlightPsp.Audio.Pcm
import MoonlightPsp.Lib.PastTime

/-!
# The playback thread

The receive thread stages and pushes samples, and keeps a clock of the RTP timestamps.  The
playback thread of `audio_thread.c` hands one block after the other to the audio hardware:
a chunk from the ring, the last chunk once more, or silence.

The steps of the two threads come in any order.  A step of the playback thread ends where
the other one may go on: in front of each look at the ring, and in front of each wait for
the semaphore of the clock.  A log notes what both threads do.
-/

namespace MoonlightPsp.Audio

open PastTime

/-! ## Blocks -/

/-- What `sceAudioSRCOutputBlocking` gets, with the kind that the caller names. -/
structure OutputBlock where
  samples : List Int16
  kind : ℕ

/-- `s_silence`. -/
def silenceBlock (kind : ℕ) : OutputBlock := ⟨List.replicate (audioChunkSamples * 2) 0, kind⟩

/-- `audio_src_output_chunk`: each sample goes to both channels. -/
def audioSrcOutputChunk (pcm : Chunk) (kind : ℕ) : OutputBlock :=
  ⟨pcm.samples.flatMap fun x => [x, x], kind⟩

/-- The scale of `audio_copy_faded_hold`. -/
def fadeScale (holdIndex : ℕ) : ℤ :=
  let scale := 256 - (holdIndex : ℤ) * 24
  if scale < 128 then 128 else scale

/-- A sample that is scaled, in 256ths. -/
def fadedSample (scale : ℤ) (x : Int16) : Int16 := Int16.ofInt ((x.toInt * scale).shiftRight 8)

/-- `audio_copy_faded_hold`. -/
def audioCopyFadedHold (src : Chunk) (holdIndex : ℕ) : Chunk where
  samples := src.samples.map (fadedSample (fadeScale holdIndex))
  length_eq := by rw [List.length_map, src.length_eq]

/-! ## The log -/

/-- Why a block goes out. -/
inductive Cause where
  | played (chunk : Chunk)
  | driftHold
  | emptyHold
  | idle
  | underrun
  | dialog
  | last

/-- What is noted: samples staged and chunks pushed; the arrival of a data packet, and its
timestamp where the clock takes it, with the scale behind that; then the turns of the
playback thread. -/
inductive PlayEvent where
  | staged (samples : List Int16)
  | pushed (chunk : Chunk)
  | arrived (now : UInt32)
  | clocked (anchors : Bool) (ts scale : UInt32)
  | looked (idle dialog : Bool) (now : UInt32)
  | ticked
  | drained (chunk : Chunk)
  | trimmed (chunk : Chunk)
  | advanced (locked : Bool)
  | put (block : OutputBlock) (cause : Cause)

/-! ## The state -/

/-- The statics under `s_audio_sync_sem`. -/
structure RtpClock where
  anchorTs : UInt32
  anchorValid : Bool
  elapsedSamples : UInt32
  elapsedOffsetSamples : UInt32
  timestampScale : UInt32
  timelineSamples : UInt32

/-- `audio_sync_reset_state`. -/
def RtpClock.zero : RtpClock := ⟨0, false, 0, 0, 0, 0⟩

/-- `AudioStats`, as far as the playback thread writes it. -/
structure AudioStats where
  framesPlayed : UInt32
  underruns : UInt32
  emptyHolds : UInt32

/-- Where the playback thread is. -/
inductive PlayPoint where
  | prebuffer
  | top
  | drain
  | dialogSilence
  | correct (idle : Bool)
  | pop (idle : Bool)
  | popAgain
  | advance (next : PlayPoint)
  | ended

/-- The statics of both threads, what is local to the receive thread (`lastRtpTs` and
`resumed`) and to the playback thread, and the log. -/
structure Playback where
  pcm : Pcm
  clock : RtpClock
  stats : AudioStats
  lastDataUs : UInt32
  lastRtpTs : Option UInt32
  resumed : Bool
  lastPlayChunk : Option Chunk
  consecutiveEmptyHolds : ℕ
  driftTick : UInt32
  point : PlayPoint
  log : List PlayEvent

/-- `audio_thread_init`, behind which both threads are at their beginning. -/
def Playback.start : Playback where
  pcm := Pcm.init
  clock := .zero
  stats := ⟨0, 0, 0⟩
  lastDataUs := 0
  lastRtpTs := none
  resumed := false
  lastPlayChunk := none
  consecutiveEmptyHolds := 0
  driftTick := 0
  point := .prebuffer
  log := []

variable (s : Playback)

/-- One event more. -/
def Playback.emit (e : PlayEvent) : Playback := { s with log := s.log ++ [e] }

/-- A block goes to the hardware. -/
def Playback.put (block : OutputBlock) (cause : Cause) : Playback := s.emit (.put block cause)

/-- Whether the last data packet came `AUDIO_SOURCE_IDLE_US` ago. -/
def sourceIdle (lastDataUs now : UInt32) : Bool := lastDataUs != 0 && now - lastDataUs ≥ 750000

/-! ## The receive thread -/

/-- A round of the loop of `audio_flush_stage_to_ring`, with what it pushes. -/
def Pcm.flushRound (p : Pcm) : Option Chunk × Pcm :=
  if h : audioChunkSamples ≤ p.stage.length then
    let chunk := stageChunk p.stage h
    let pushed := ringPushPcm p chunk
    if pushed.1 then (some chunk, { pushed.2 with stage := p.stage.drop audioChunkSamples })
    else (none, pushed.2)
  else (none, p)

/-- The copy of `audio_stage_append_and_flush`, where the samples fit. -/
def Pcm.stageIn (p : Pcm) (src : List Int16) : Option Pcm :=
  if p.stage.length + src.length ≤ audioStageCapacity then
    some { p with stage := p.stage ++ src }
  else none

/-- The scale for a first step of the timestamps: they count milliseconds, or samples. -/
def detectScale (packetMs step : UInt32) : UInt32 :=
  let expected := (packetMs.toUInt64 * 48000 / 1000).toUInt32
  if 5 ≤ packetMs ∧ packetMs ≤ 60 ∧ packetMs / 2 ≤ step ∧ step ≤ packetMs * 4 then 48
  else if 120 ≤ expected ∧ expected / 2 ≤ step ∧ step ≤ expected * 4 then 1
  else 0

/-- `AUDIO_DRIFT_TARGET_CHUNKS * AUDIO_CHUNK_SAMPLES`. -/
def driftTargetSamples : UInt32 := 6 * UInt32.ofNat audioChunkSamples

/-- What `audio_thread_func` does to the clock for a data packet; `true` where the packet
becomes the anchor. -/
def RtpClock.take (c : RtpClock) (rtpTs packetMs : UInt32) (lastRtpTs : Option UInt32)
    (resumed : Bool) : Bool × RtpClock :=
  if !c.anchorValid then
    (true, { c with
      anchorTs := rtpTs
      elapsedOffsetSamples := driftTargetSamples
      elapsedSamples := driftTargetSamples
      timelineSamples := 0
      anchorValid := true })
  else if resumed && c.timestampScale != 0 then
    (true, { c with
      anchorTs := rtpTs
      elapsedOffsetSamples := c.timelineSamples + driftTargetSamples
      elapsedSamples := c.timelineSamples + driftTargetSamples })
  else
    let step := (lastRtpTs.map (rtpTs - ·)).getD 0
    let scale :=
      if c.timestampScale = 0 ∧ step ≠ 0 then detectScale packetMs step else c.timestampScale
    (false, { c with
      timestampScale := scale
      elapsedSamples :=
        if scale ≠ 0 then c.elapsedOffsetSamples + (rtpTs - c.anchorTs) * scale
        else c.elapsedSamples })

/-- A step of the receive thread.  `queued` is a data packet that waits in the pending
queue, or that the video socket got. -/
inductive ReceiveStep where
  | stage (src : List Int16)
  | flushRound
  | queued (now : UInt32)
  | data (now : UInt32)
  | clock (rtpTs packetMs : UInt32) (locked : Bool)

/-- The state behind a step of the receive thread. -/
def Playback.receive : ReceiveStep → Playback
  | .stage src =>
      match s.pcm.stageIn src with
      | none => s
      | some p => { s with pcm := p }.emit (.staged src)
  | .flushRound =>
      match s.pcm.flushRound with
      | (none, p) => { s with pcm := p }
      | (some chunk, p) => { s with pcm := p }.emit (.pushed chunk)
  | .queued now => { s with lastDataUs := now }.emit (.arrived now)
  | .data now =>
      { s with
        resumed := sourceIdle s.lastDataUs now
        lastDataUs := now }.emit (.arrived now)
  | .clock rtpTs packetMs locked =>
      let s' := { s with lastRtpTs := some rtpTs }
      if !locked then s'
      else
        let taken := s.clock.take rtpTs packetMs s.lastRtpTs s.resumed
        { s' with clock := taken.2 }.emit (.clocked taken.1 rtpTs taken.2.timestampScale)

/-! ## The playback thread -/

/-- What a step of the playback thread finds: the time, `s_running`,
`g_cabac_dialog_active`, and whether the semaphore was got. -/
structure Seen where
  now : UInt32
  running : Bool
  dialog : Bool
  locked : Bool

/-- `(int)(s_ring.head - s_ring.tail)`. -/
def Playback.queuedChunks : ℤ := (s.pcm.ring.head - s.pcm.ring.tail).toInt32.toInt

/-- `drift_error`; the differences of the source wrap. -/
def RtpClock.driftError (c : RtpClock) : ℤ :=
  (c.elapsedSamples - c.timelineSamples - driftTargetSamples).toInt32.toInt

/-- The chunk of a successful `ring_pop_pcm` is played. -/
def Playback.play (chunk : Chunk) (p : Pcm) : Playback :=
  { s with
    pcm := p
    lastPlayChunk := some chunk
    stats := { s.stats with framesPlayed := s.stats.framesPlayed + 1 }
    consecutiveEmptyHolds := 0
    point := .advance .top }.put (audioSrcOutputChunk chunk 1) (.played chunk)

/-- What is played where the ring was empty. -/
def Playback.playEmpty (idle : Bool) : Playback :=
  let underrun : Playback :=
    { s with
      stats := { s.stats with underruns := s.stats.underruns + 1 }
      consecutiveEmptyHolds := s.consecutiveEmptyHolds + 1
      point := .top }.put (silenceBlock 0) .underrun
  if idle then
    { s with consecutiveEmptyHolds := 0, point := .top }.put (silenceBlock 0) .idle
  else
    match s.lastPlayChunk with
    | none => underrun
    | some chunk =>
        -- `AUDIO_EMPTY_HOLD_MAX_CHUNKS`
        if s.consecutiveEmptyHolds < 12 then
          { s with
            stats := { s.stats with
              framesPlayed := s.stats.framesPlayed + 1
              emptyHolds := s.stats.emptyHolds + 1 }
            consecutiveEmptyHolds := s.consecutiveEmptyHolds + 1
            point := .top }.put
              (audioSrcOutputChunk (audioCopyFadedHold chunk s.consecutiveEmptyHolds) 3) .emptyHold
        else underrun

/-- The pop in front of the output. -/
def Playback.popToPlay (idle : Bool) : Playback :=
  match ringPopPcm s.pcm with
  | (some chunk, p) => s.play chunk p
  | (none, _) =>
      if !idle && s.lastPlayChunk.isSome then { s with point := .popAgain }
      else s.playEmpty idle

/-- The second pop, in case that the receive thread has pushed meanwhile. -/
def Playback.popAgain : Playback :=
  match ringPopPcm s.pcm with
  | (some chunk, p) => s.play chunk p
  | (none, _) => s.playEmpty false

/-- The last chunk goes out again, so that the source can catch up. -/
def Playback.driftHold (chunk : Chunk) : Playback :=
  { s with
    stats := { s.stats with framesPlayed := s.stats.framesPlayed + 1 }
    point := .top }.put (audioSrcOutputChunk chunk 3) .driftHold

/-- The correction of a turn that counts, behind the tick. -/
def Playback.correctDrift : Playback :=
  let onward : Playback := { s with point := .pop false }
  if s.driftTick % 128 ≠ 0 then onward
  else if s.queuedChunks > 6 + 1 ∧ s.driftTick % 256 = 0 then
    match ringPopPcm s.pcm with
    | (some chunk, p) =>
        { s with pcm := p, point := .advance (.pop false) }.emit (.trimmed chunk)
    | (none, _) => onward
  else if s.clock.driftError < -(512 * 5) ∧ s.queuedChunks ≤ 3 then
    match s.lastPlayChunk with
    | some chunk => s.driftHold chunk
    | none => onward
  else onward

/-- The look at the clock. -/
def Playback.correct (idle locked : Bool) : Playback :=
  if locked && s.clock.anchorValid && s.clock.timestampScale != 0 && !idle then
    ({ s with driftTick := s.driftTick + 1 }.emit .ticked).correctDrift
  else { s with point := .pop idle }

/-- `audio_advance_consumed_chunk`. -/
def Playback.advance (next : PlayPoint) (locked : Bool) : Playback :=
  { s with
    clock := if locked then
        { s.clock with
          timelineSamples := s.clock.timelineSamples + UInt32.ofNat audioChunkSamples }
      else s.clock
    point := next }.emit (.advanced locked)

/-- The beginning of a turn. -/
def Playback.look (seen : Seen) : Playback :=
  if !seen.running then
    { s with point := .ended }.put (silenceBlock 2) .last
  else
    let idle := sourceIdle s.lastDataUs seen.now
    { s with point := if seen.dialog then .drain else .correct idle }.emit
      (.looked idle seen.dialog seen.now)

/-- `audio_play_thread_func`, up to the next point where it may be interrupted. -/
def Playback.playTurn (seen : Seen) : Playback :=
  match s.point with
  | .prebuffer =>
      -- `AUDIO_PREBUFFER_TARGET_CHUNKS`
      if seen.running ∧ s.pcm.ring.head - s.pcm.ring.tail < 8 then s
      else { s with point := .top }
  | .top => s.look seen
  | .drain =>
      match ringPopPcm s.pcm with
      | (some chunk, p) =>
          { s with pcm := p, point := .advance .dialogSilence }.emit (.drained chunk)
      | (none, _) => { s with point := .dialogSilence }
  | .dialogSilence => { s with point := .top }.put (silenceBlock 0) .dialog
  | .correct idle => s.correct idle seen.locked
  | .pop idle => s.popToPlay idle
  | .popAgain => s.popAgain
  | .advance next => s.advance next seen.locked
  | .ended => s

/-! ## Runs -/

/-- A step of either thread. -/
inductive PlayStep where
  | receive (step : ReceiveStep)
  | play (seen : Seen)

/-- The state behind a step. -/
def Playback.step : PlayStep → Playback
  | .receive r => s.receive r
  | .play seen => s.playTurn seen

/-- A run of both threads. -/
def Playback.run (steps : List PlayStep) : Playback := steps.foldl Playback.step s

/-! ## What the log says -/

namespace PlayEvent

/-- The samples that were staged. -/
def staged? : PlayEvent → List Int16
  | .staged samples => samples
  | _ => []

/-- The chunk that was pushed. -/
def pushed? : PlayEvent → Option Chunk
  | .pushed chunk => some chunk
  | _ => none

/-- The chunk that was played. -/
def played? : PlayEvent → Option Chunk
  | .put _ (.played chunk) => some chunk
  | _ => none

/-- The chunk that was taken from the ring. -/
def consumed? : PlayEvent → Option Chunk
  | .drained chunk => some chunk
  | .trimmed chunk => some chunk
  | .put _ (.played chunk) => some chunk
  | _ => none

/-- Of a look: whether the source was idle, and whether the dialog was there. -/
def look? : PlayEvent → Option (Bool × Bool)
  | .looked idle dialog _ => some (idle, dialog)
  | _ => none

/-- Whether the event begins a turn, or ends one with a block. -/
def inTurn? : PlayEvent → Option Bool
  | .looked _ _ _ => some true
  | .put _ _ => some false
  | _ => none

/-- The time of a data packet. -/
def arrival? : PlayEvent → Option UInt32
  | .arrived now => some now
  | _ => none

/-- The timestamp of an anchor. -/
def anchor? : PlayEvent → Option UInt32
  | .clocked true ts _ => some ts
  | _ => none

/-- The timestamp that the clock took, and the scale behind it. -/
def clock? : PlayEvent → Option (UInt32 × UInt32)
  | .clocked _ ts scale => some (ts, scale)
  | _ => none

/-- A new chunk was played, or the source was idle. -/
def endsEmpty : PlayEvent → Bool
  | .put _ (.played _) => true
  | .put _ .idle => true
  | _ => false

/-- The ring of a live source was empty. -/
def isEmpty : PlayEvent → Bool
  | .put _ .emptyHold => true
  | .put _ .underrun => true
  | _ => false

/-- The clock got an anchor. -/
def anchors : PlayEvent → Bool
  | .clocked anchors _ _ => anchors
  | _ => false

/-- The clock was advanced. -/
def advances : PlayEvent → Bool
  | .advanced locked => locked
  | _ => false

/-- A call of `audio_advance_consumed_chunk`. -/
def isAdvance : PlayEvent → Bool
  | .advanced _ => true
  | _ => false

/-- A turn that counts for the corrections. -/
def isTick : PlayEvent → Bool
  | .ticked => true
  | _ => false

/-- A chunk was trimmed. -/
def isTrim : PlayEvent → Bool
  | .trimmed _ => true
  | _ => false

/-- A block that `frames_played` counts. -/
def isFrame : PlayEvent → Bool
  | .put _ (.played _) => true
  | .put _ .driftHold => true
  | .put _ .emptyHold => true
  | _ => false

/-- A block that `underruns` counts. -/
def isUnderrun : PlayEvent → Bool
  | .put _ .underrun => true
  | _ => false

/-- A block that `empty_holds` counts. -/
def isEmptyHold : PlayEvent → Bool
  | .put _ .emptyHold => true
  | _ => false

end PlayEvent

section History

variable (log : List PlayEvent)

/-- All samples that were staged. -/
def stagedIn : List Int16 := log.flatMap PlayEvent.staged?

/-- The chunks that were pushed. -/
def pushedIn : List Chunk := log.filterMap PlayEvent.pushed?

/-- The chunks that were taken from the ring. -/
def consumedIn : List Chunk := log.filterMap PlayEvent.consumed?

/-- The number of chunks in the ring. -/
def queuedIn : ℕ := (pushedIn log).length - (consumedIn log).length

/-- The chunk that was played last. -/
def lastPlayed : Option Chunk := latest PlayEvent.played? log

/-- The latest look. -/
def lastLook : Option (Bool × Bool) := latest PlayEvent.look? log

/-- The time of the latest data packet. -/
def lastArrival : UInt32 := (latest PlayEvent.arrival? log).getD 0

/-- A turn has begun, and no block went out since. -/
def inTurn : Bool := (latest PlayEvent.inTurn? log).getD false

/-- The turns without a new chunk since the last one with one, or with an idle source. -/
def emptySince : ℕ := countSince PlayEvent.endsEmpty PlayEvent.isEmpty log

/-- The turns that count for the corrections. -/
def ticksIn : ℕ := log.countP PlayEvent.isTick

/-- The chunks that were trimmed. -/
def trimsIn : ℕ := log.countP PlayEvent.isTrim

/-- The calls of `audio_advance_consumed_chunk`. -/
def advancesIn : ℕ := log.countP PlayEvent.isAdvance

/-- The timestamp of the anchor. -/
def lastAnchor : Option UInt32 := latest PlayEvent.anchor? log

/-- The latest timestamp that the clock took, and the scale behind it. -/
def lastClock : UInt32 × UInt32 := (latest PlayEvent.clock? log).getD (0, 0)

/-- The chunks that advanced the clock since the anchor. -/
def advancedSince : ℕ := countSince PlayEvent.anchors PlayEvent.advances log

/-- The samples that the source has sent since the anchor, minus those consumed since. -/
def driftIn : ℤ :=
  (((lastClock log).1 - (lastAnchor log).getD 0) * (lastClock log).2 -
    UInt32.ofNat (audioChunkSamples * advancedSince log)).toInt32.toInt

/-- The latest event is a tick, in a turn with a live source. -/
def JustTicked : Prop :=
  log.getLast? = some .ticked ∧ lastLook log = some (false, false)

/-- The statistics. -/
def statsIn : AudioStats where
  framesPlayed := UInt32.ofNat (log.countP PlayEvent.isFrame)
  underruns := UInt32.ofNat (log.countP PlayEvent.isUnderrun)
  emptyHolds := UInt32.ofNat (log.countP PlayEvent.isEmptyHold)

end History

/-- Only the last block goes out between two turns. -/
def Cause.inTurn : Cause → Bool
  | .last => false
  | _ => true

/-- A queue that is trimmed: at every 256th tick, with more than 7 chunks. -/
def Trims (before : List PlayEvent) : Prop := ticksIn before % 256 = 0 ∧ 7 < queuedIn before

/-- A drift hold: at every 128th tick without a trim, where the source is more than five
chunks behind what was consumed, and the ring nearly empty. -/
def HoldsForDrift (before : List PlayEvent) : Prop :=
  ticksIn before % 128 = 0 ∧ ¬ Trims before ∧ driftIn before < -(512 * 5) ∧ queuedIn before ≤ 3

/-- When a block goes out for a cause, and which block it is. -/
def Fits (before : List PlayEvent) (block : OutputBlock) : Cause → Prop
  | .played chunk =>
      block = audioSrcOutputChunk chunk 1 ∧ 0 < queuedIn before ∧
        ∃ idle, lastLook before = some (idle, false)
  | .driftHold =>
      JustTicked before ∧ HoldsForDrift before ∧
        ∃ chunk, lastPlayed before = some chunk ∧ block = audioSrcOutputChunk chunk 3
  | .emptyHold =>
      queuedIn before = 0 ∧ lastLook before = some (false, false) ∧ emptySince before < 12 ∧
        ∃ chunk, lastPlayed before = some chunk ∧
          block = audioSrcOutputChunk (audioCopyFadedHold chunk (emptySince before)) 3
  | .idle =>
      block = silenceBlock 0 ∧ queuedIn before = 0 ∧ lastLook before = some (true, false)
  | .underrun =>
      block = silenceBlock 0 ∧ queuedIn before = 0 ∧ lastLook before = some (false, false) ∧
        (lastPlayed before = none ∨ 12 ≤ emptySince before)
  | .dialog => block = silenceBlock 0 ∧ ∃ idle, lastLook before = some (idle, true)
  | .last => block = silenceBlock 2

/-- What must have happened before an event.  One block goes out in each turn, and the clock
is advanced once for each chunk that is taken from the ring. -/
def Orderly (before : List PlayEvent) : PlayEvent → Prop
  | .looked idle _ now =>
      idle = sourceIdle (lastArrival before) now ∧ inTurn before = false ∧
        advancesIn before = (consumedIn before).length
  | .ticked => lastLook before = some (false, false) ∧ (lastClock before).2 ≠ 0
  | .drained _ => inTurn before ∧ ∃ idle, lastLook before = some (idle, true)
  | .trimmed _ => inTurn before ∧ JustTicked before ∧ Trims before
  | .advanced _ => (consumedIn before).length = advancesIn before + 1
  | .put block cause =>
      Fits before block cause ∧ inTurn before = cause.inTurn ∧
        advancesIn before = (consumedIn before).length
  | _ => True

end MoonlightPsp.Audio

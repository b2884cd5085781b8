import MoonlightPsp.RtpFec.Recovery

/-!
# The FEC layer: taking a packet

A packet of the current frame goes into its slot, and the frame is submitted as
soon as its data packets are there.  A packet of a newer frame ends the current
one.  In a CABAC stream it is put aside first, as long as the current frame is
incomplete and the newer one is next, and is replayed afterwards.

`s_replaying_deferred` is set only while the queue is drained, and a replayed
packet does not reach the branch that drains the queue.
-/

namespace MoonlightPsp.RtpFec

open SerialNumber ReedSolomon

/-! ## A packet that is not put aside -/

/-- The current frame is over, unless it is submitted or nothing came in. -/
def concludeFrame (env : FecEnv) (s : Fec) : Fec :=
  if s.currentFrame ≠ noFrame ∧ !s.frameSubmitted ∧ s.receivedCount > 0 then
    attemptRecoveryAndSubmit env s
  else s

/-- The frame transition. -/
def enterFrame (env : FecEnv) (s : Fec) (h : FecHeader) : Fec :=
  if h.frameIndex ≠ s.currentFrame then openFrame (concludeFrame env s) h
  else s

/-- The frame is submitted once all its data packets are there. -/
def submitIfReady (env : FecEnv) (s : Fec) : Fec :=
  if !s.frameSubmitted ∧ frameReady s then attemptRecoveryAndSubmit env s else s

/-- The end of `rtp_fec_add_packet_inner`, from the slot index on. -/
def placePacket (env : FecEnv) (s : Fec) (h : FecHeader) (packet : Packet) :
    Bool × Fec :=
  let s := registerBlock s h
  match slotIndex s h with
  | none => (false, s)
  | some index => (true, submitIfReady env (storePacket s h index packet))

/-- `rtp_fec_add_packet_inner` with `allow_defer` clear. -/
def replayPacket (env : FecEnv) (s : Fec) (packet : Packet) : Bool × Fec :=
  match screenPacket env.config s.currentFrame packet with
  | .bypass => (false, s)
  | .stale frame => (true, s.emit (.late frame true))
  | .junk => (true, s)
  | .taken h => placePacket env (enterFrame env s h) h packet

/-! ## The deferred queue -/

/-- `CABAC_DEFERRED_PACKET_LIMIT`. -/
def cabacDeferredPacketLimit : ℕ := 24

/-- `CABAC_DEFERRED_FRAME_SPAN_MAX`. -/
def cabacDeferredFrameSpanMax : ℕ := 1

/-- Whether the current frame is incomplete, as far as
`current_frame_needs_cabac_defer` counts. -/
def frameIncomplete (s : Fec) : Bool :=
  if s.numFecBlocks > 1 then
    (List.range s.numFecBlocks).any fun b =>
      let blk := s.fecBlocks b
      !blk.seen || decide (blk.receivedDataCount < blk.dataPackets) ||
        decide (blk.receivedCount < blk.dataPackets)
  else
    let missing := missingDataPackets s
    if missing = 0 then false
    else decide (s.receivedCount < s.dataPackets) ||
      decide (s.receivedParityCount < missing)

/-- `current_frame_needs_cabac_defer`. -/
def currentFrameNeedsCabacDefer (c : FecConfig) (s : Fec) : Bool :=
  fecStreamIsCabac c && s.currentFrame != noFrame && !s.frameSubmitted &&
    decide (s.receivedCount ≠ 0) && decide (s.dataPackets ≠ 0) &&
    frameIncomplete s

/-- The `span` in `defer_cabac_newer_packet`. -/
def deferSpan (s : Fec) (frameIndex : UInt32) : ℕ :=
  if s.currentFrame ≠ noFrame ∧ delta frameIndex s.currentFrame > 0 then
    (frameIndex - s.currentFrame).toNat
  else 0

/-- `defer_cabac_newer_packet`: the state with the packet put aside, if the
queue takes it. -/
def deferCabacNewerPacket (s : Fec) (packet : Packet) (frameIndex : UInt32) :
    Option Fec :=
  if packet.length = 0 ∨ packet.length > maxPktSize ∨
      deferSpan s frameIndex = 0 ∨
      deferSpan s frameIndex > cabacDeferredFrameSpanMax ∨
      s.deferred.length ≥ cabacDeferredPacketLimit then none
  else some (s.setDeferred (s.deferred ++ [packet]))

/-- `drop_submitted_deferred_frame_packets`. -/
def dropSubmittedDeferredFramePackets (s : Fec) : Fec :=
  s.setDeferred (s.deferred.dropWhile fun p =>
    s.frameSubmitted && packetFrameIndex p == s.currentFrame)

/-- Whether the packet at the front of the queue may be replayed. -/
def canReplay (s : Fec) (front : Packet) : Prop :=
  s.currentFrame = noFrame ∨ s.frameSubmitted ∨
    packetFrameIndex front = s.currentFrame

instance (s : Fec) (front : Packet) : Decidable (canReplay s front) :=
  inferInstanceAs (Decidable (_ ∨ _ ∨ _))

/-- `drain_deferred_cabac_packets`, with at most `fuel` rounds. -/
def drainDeferredCabacPackets (env : FecEnv) : ℕ → Fec → Option Fec
  | 0, _ => none
  | fuel + 1, s =>
      let s := dropSubmittedDeferredFramePackets s
      match s.deferred with
      | [] => some s
      | front :: rest =>
          if canReplay s front then
            drainDeferredCabacPackets env fuel
              (replayPacket env (s.setDeferred rest) front).2
          else some s

/-! ## A packet that arrives -/

/-- `process_frame_transition` with `allow_defer` set and what follows it, with
at most `fuel` passes. -/
def processFrameTransition (env : FecEnv) (h : FecHeader) (packet : Packet) :
    ℕ → Fec → Option (Bool × Fec)
  | 0, _ => none
  | fuel + 1, s =>
      if h.frameIndex ≠ s.currentFrame ∧ h.frameIndex > s.currentFrame ∧
          currentFrameNeedsCabacDefer env.config s then
        match deferCabacNewerPacket s packet h.frameIndex with
        | some s => some (true, s)
        | none => do
            let s ← drainDeferredCabacPackets env (s.deferred.length + 1)
              (concludeFrame env s)
            processFrameTransition env h packet fuel s
      else some (placePacket env (enterFrame env s h) h packet)

/-- `rtp_fec_add_packet_inner` with `allow_defer` set. -/
def arrivingPacket (env : FecEnv) (s : Fec) (packet : Packet) :
    Option (Bool × Fec) :=
  match screenPacket env.config s.currentFrame packet with
  | .bypass => some (false, s)
  | .stale frame => some (true, s.emit (.late frame false))
  | .junk => some (true, s)
  | .taken h =>
      processFrameTransition env h packet (s.deferred.length + 2) s

/-- `rtp_fec_add_packet`; the fuel of the loops in it comes from the length of
the queue. -/
def rtpFecAddPacket (env : FecEnv) (s : Fec) (packet : Packet) :
    Option (Bool × Fec) := do
  let s ← drainDeferredCabacPackets env (s.deferred.length + 1) s
  let (consumed, s) ← arrivingPacket env s packet
  let s ← drainDeferredCabacPackets env (s.deferred.length + 1) s
  pure (consumed, s)

/-! ## The ways through a call -/

section

variable {env : FecEnv} {s : Fec} {packet : Packet} {h : FecHeader} {fuel : ℕ}
  {r : Bool × Fec}

/-- The ways in which a packet gets past the frame transition: it is put aside, or
the current frame ends for it, or it is placed. -/
inductive Passed (env : FecEnv) (h : FecHeader) (packet : Packet) (fuel : ℕ) (s : Fec) :
    Bool × Fec → Prop where
  | deferred {t : Fec}
      (hwaits : h.frameIndex ≠ s.currentFrame ∧ h.frameIndex > s.currentFrame ∧
        currentFrameNeedsCabacDefer env.config s)
      (hdefer : deferCabacNewerPacket s packet h.frameIndex = some t) :
      Passed env h packet fuel s (true, t)
  | refused {t : Fec} {r : Bool × Fec}
      (hwaits : h.frameIndex ≠ s.currentFrame ∧ h.frameIndex > s.currentFrame ∧
        currentFrameNeedsCabacDefer env.config s)
      (hrefused : deferCabacNewerPacket s packet h.frameIndex = none)
      (hdrain : drainDeferredCabacPackets env (s.deferred.length + 1)
        (concludeFrame env s) = some t)
      (hr : processFrameTransition env h packet fuel t = some r) :
      Passed env h packet fuel s r
  | placed
      (hgoes : ¬(h.frameIndex ≠ s.currentFrame ∧ h.frameIndex > s.currentFrame ∧
        currentFrameNeedsCabacDefer env.config s)) :
      Passed env h packet fuel s (placePacket env (enterFrame env s h) h packet)

theorem passed_of_eq
    (hr : processFrameTransition env h packet (fuel + 1) s = some r) :
    Passed env h packet fuel s r := by
  rw [processFrameTransition] at hr
  split at hr
  · rename_i hwaits
    split at hr
    · rename_i t hdefer
      obtain rfl := Option.some.inj hr
      exact .deferred hwaits hdefer
    · rename_i hrefused
      obtain ⟨t, hdrain, hr⟩ := Option.bind_eq_some_iff.mp hr
      exact .refused hwaits hrefused hdrain hr
  · rename_i hgoes
    obtain rfl := Option.some.inj hr
    exact .placed hgoes

/-- The ways in which a packet arrives. -/
inductive Arrived (env : FecEnv) (s : Fec) (packet : Packet) : Bool × Fec → Prop where
  | bypass (hscreen : screenPacket env.config s.currentFrame packet = .bypass) :
      Arrived env s packet (false, s)
  | stale (frame : UInt32)
      (hscreen : screenPacket env.config s.currentFrame packet = .stale frame) :
      Arrived env s packet (true, s.emit (.late frame false))
  | junk (hscreen : screenPacket env.config s.currentFrame packet = .junk) :
      Arrived env s packet (true, s)
  | taken (h : FecHeader) {r : Bool × Fec}
      (hscreen : screenPacket env.config s.currentFrame packet = .taken h)
      (hr : processFrameTransition env h packet (s.deferred.length + 2) s = some r) :
      Arrived env s packet r

theorem arrived_of_eq (hr : arrivingPacket env s packet = some r) :
    Arrived env s packet r := by
  rw [arrivingPacket] at hr
  split at hr
  · rename_i hscreen
    obtain rfl := Option.some.inj hr
    exact .bypass hscreen
  · rename_i frame hscreen
    obtain rfl := Option.some.inj hr
    exact .stale frame hscreen
  · rename_i hscreen
    obtain rfl := Option.some.inj hr
    exact .junk hscreen
  · rename_i h hscreen
    exact .taken h hscreen hr

/-- A call drains the queue, takes its packet, and drains the queue. -/
theorem exists_of_rtpFecAddPacket (hr : rtpFecAddPacket env s packet = some r) :
    ∃ t o v, drainDeferredCabacPackets env (s.deferred.length + 1) s = some t ∧
      arrivingPacket env t packet = some o ∧
      drainDeferredCabacPackets env (o.2.deferred.length + 1) o.2 = some v ∧
      r = (o.1, v) := by
  rw [rtpFecAddPacket] at hr
  obtain ⟨t, hfirst, hr⟩ := Option.bind_eq_some_iff.mp hr
  obtain ⟨o, harrive, hr⟩ := Option.bind_eq_some_iff.mp hr
  obtain ⟨v, hlast, hr⟩ := Option.bind_eq_some_iff.mp hr
  exact ⟨t, o, v, hfirst, harrive, hlast, (Option.some.inj hr).symm⟩

end

/-! ## Runs -/

/-- `rtp_fec_reset`. -/
def rtpFecReset (s : Fec) : Fec :=
  { s with
    slots := fun _ => none
    receivedFromNetwork := fun _ => false
    currentFrame := noFrame
    lowestSeq := 0
    dataPackets := 0
    parityPackets := 0
    totalPackets := 0
    receivedCount := 0
    receivedDataCount := 0
    receivedParityCount := 0
    frameSubmitted := false
    numFecBlocks := 1
    fecBlocks := fun b =>
      { s.fecBlocks b with
        seen := false
        receivedCount := 0
        receivedDataCount := 0 }
    deferred := []
    consecUnrecoverable := 0
    consecutiveFrameDrops := 0
    rs := rtpFecResetContext s.rs
    out := s.out ++ [.recoveryClean false] }

/-- What happens to the layer: a packet is handed to it, the audio side recovers
a block with the context they share, or the layer is reset. -/
inductive FecInput where
  | packet (env : FecEnv) (packet : Packet)
  | audio (block : AudioRtpFecBlock)
  | reset

/-- One input. -/
def Fec.step (s : Fec) : FecInput → Option Fec
  | .packet env packet => (rtpFecAddPacket env s packet).map Prod.snd
  | .audio block => some (s.setRs (audioRtpFecComplete s.rs block).1)
  | .reset => some (rtpFecReset s)

/-- A run of the layer. -/
def Fec.run (s : Fec) : List FecInput → Option Fec
  | [] => some s
  | i :: rest => (s.step i).bind fun s => s.run rest

/-- What the layer does in a run from the start. -/
def fecTrace (inputs : List FecInput) : Option (List FecEvent) :=
  (Fec.initial.run inputs).map Fec.out

/-! ## Sample inputs -/

/-- A packet without a payload, `blocks` being the byte `multiFecBlocks`. -/
def barePacket (seq : UInt16) (frame : UInt32) (blocks : UInt8)
    (dataPkts fecIndex fecPct : UInt32) : Packet :=
  let rtp : Packet := [0x80, 0x60, (seq >>> 8).toUInt8, seq.toUInt8,
    0, 0, 0, 0, 0, 0, 0, 0]
  let nv : Packet := [0, 0, 0, 0, 0, 0, 0, 0, 0x01, 0, 0x10, blocks, 0, 0, 0, 0]
  rtp ++ writeLe32 (writeLe32 nv 4 frame) 12
    (dataPkts <<< 22 ||| fecIndex <<< 12 ||| fecPct <<< 4)

/-- A call at 500 kbit/s and 15 frames a second, with nothing decoded yet. -/
def sampleEnv (avcEntropyMode : ℤ) : FecEnv where
  config := ⟨avcEntropyMode, false, 15, 500, 1024⟩
  flags := fun _ => ⟨0, false, false⟩

end MoonlightPsp.RtpFec

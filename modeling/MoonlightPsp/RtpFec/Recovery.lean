import MoonlightPsp.RtpFec.Model

/-!
# The FEC layer: recovering, submitting and dropping a frame

A frame ends in one of two ways.  Its data packets are handed to reassembly,
those that were lost having been rebuilt from the parity packets, or it is
dropped, and the losses are reported.
-/

namespace MoonlightPsp.RtpFec

open SerialNumber ReedSolomon

/-! ## Dropping -/

/-- `CONSECUTIVE_DROP_IDR_LIMIT`. -/
def consecutiveDropIdrLimit : ℕ := 120

/-- `UNRECOVERABLE_IDR_THRESHOLD`. -/
def unrecoverableIdrThreshold : ℕ := 4

/-- `CATASTROPHIC_LOSS_THRESHOLD`. -/
def catastrophicLossThreshold : ℕ := 3

/-- `note_current_frame_drop_for_recovery`. -/
def noteCurrentFrameDropForRecovery (s : Fec) (flags : FlagsView) :
    List Request :=
  if flags.lastGoodFrame ≠ 0 ∧ s.currentFrame ≠ noFrame then
    [.noteFrameLoss s.currentFrame s.currentFrame]
  else []

/-- `request_current_frame_rfi`. -/
def requestCurrentFrameRfi (s : Fec) : List Request :=
  if s.currentFrame ≠ noFrame then
    [.requestRfi s.currentFrame s.currentFrame]
  else []

/-- `drop_current_frame_strict`; `before` are the flags set ahead of it. -/
def dropCurrentFrameStrict (env : FecEnv) (s : Fec) (reason : DropReason)
    (missing : ℕ) (before : List Request) : Fec :=
  let flags := env.flags s.out
  let drops := s.consecutiveFrameDrops + 1
  let refsCorrupted := flags.refsCorrupted || before.contains .refsCorrupted
  let strict := decide (flags.lastGoodFrame = 0) || refsCorrupted ||
    decide (drops.toNat ≥ consecutiveDropIdrLimit)
  let requests := before ++ noteCurrentFrameDropForRecovery s flags ++
    if strict then [.idrLost, .requestIdr] else requestCurrentFrameRfi s
  { s with
    frameSubmitted := true
    consecutiveFrameDrops :=
      if strict ∧ drops.toNat ≥ consecutiveDropIdrLimit then 0 else drops
    out := s.out ++ [.recoveryClean false,
      .dropped s.currentFrame reason missing requests] }

/-- The requests of a frame too few packets of which came in, and whether the
two counters start over. -/
def unrecoverableRequests (s : Fec) (flags : FlagsView)
    (missing : ℕ) (consecUnrecoverable : Int32)
    (consecutiveFrameDrops : UInt32) : List Request × Bool × Bool :=
  let bad := consecUnrecoverable.toInt ≥ unrecoverableIdrThreshold ∨
    missing ≥ catastrophicLossThreshold * 2
  let rfiFromLast := .requestRfi (flags.lastGoodFrame + 1) s.currentFrame
  if flags.lastGoodFrame = 0 then ([.idrLost, .requestIdr], true, false)
  else if flags.refsCorrupted then
    if bad then ([.idrLost, .requestIdr], true, false)
    else if flags.waitingForIdr then ([.requestIdr], false, false)
    else ([rfiFromLast], false, false)
  else if consecutiveFrameDrops.toNat ≥ consecutiveDropIdrLimit then
    ([.idrLost, .requestIdr], true, true)
  else
    let first := if flags.waitingForIdr then [.requestIdr]
      else requestCurrentFrameRfi s
    let escalation := if bad then
        [.refsCorrupted, .idrLost,
          .noteFrameLoss (flags.lastGoodFrame + 1) s.currentFrame]
      else []
    (first ++ escalation, false, false)

/-- The drop in `attempt_recovery_and_submit` when too few packets came in. -/
def dropUnrecoverable (env : FecEnv) (s : Fec) (missing : ℕ) : Fec :=
  let flags := env.flags s.out
  let unrecoverable := s.consecUnrecoverable + 1
  let drops := s.consecutiveFrameDrops + 1
  let response := unrecoverableRequests s flags missing unrecoverable drops
  { s with
    frameSubmitted := true
    consecUnrecoverable := if response.2.1 then 0 else unrecoverable
    consecutiveFrameDrops := if response.2.2 then 0 else drops
    out := s.out ++ [.dropped s.currentFrame .unrecoverable missing
      (noteCurrentFrameDropForRecovery s flags ++ response.1)] }

/-! ## Submitting -/

/-- The frame index is written into a packet before it is handed on. -/
def patchFrameId (packet : Packet) (frame : UInt32) : Packet :=
  match rtpNvOffsetFromPacket packet with
  | none => packet
  | some off =>
      if packet.length > off + 8 then writeLe32 packet (off + 4) frame
      else packet

/-- The shard at a place of the frame, if its slot holds a packet. -/
def shardAt (s : Fec) (block index slot : ℕ) : Option Shard :=
  if slot < fecMaxPackets then
    match s.slots slot with
    | some packet =>
        if packet.length > 0 then
          some ⟨block, index, patchFrameId packet s.currentFrame⟩
        else none
    | none => none
  else none

/-- The shards of a block of a multi-block frame. -/
def blockShards (s : Fec) (b : ℕ) : List Shard :=
  let blk := s.fecBlocks b
  if blk.seen then
    (List.range (min blk.dataPackets blk.maxSlots)).filterMap fun i =>
      shardAt s b i (blk.baseSlot + i)
  else []

/-- The numbers of data packets of the frame's blocks. -/
def blockSizes (s : Fec) : List ℕ :=
  if s.numFecBlocks > 1 then
    (List.range s.numFecBlocks).map fun b => (s.fecBlocks b).dataPackets
  else [s.dataPackets]

/-- The frame is handed on and counts as submitted. -/
def handOver (s : Fec) (shards : List Shard) (nextSeq : Option UInt16) : Fec :=
  { s with
    frameSubmitted := true
    out := s.out ++
      [.submitted ⟨s.currentFrame, s.lowestSeq, blockSizes s, shards, nextSeq⟩] }

/-- `submit_frame_packets` after `rtp_reassembly_prepare_fec_frame`. -/
def submitSlots (env : FecEnv) (s : Fec) : Fec :=
  if s.numFecBlocks > 1 then
    handOver s ((List.range s.numFecBlocks).flatMap (blockShards s)) none
  else if (s.slots 0).isNone ∧ s.dataPackets > 1 then
    dropCurrentFrameStrict env s .missingSof 1 []
  else
    handOver s
      ((List.range s.dataPackets).filterMap fun i => shardAt s 0 i i)
      (if s.totalPackets > 0 then
        some (s.lowestSeq + UInt16.ofNat s.totalPackets) else none)

/-- `submit_frame_packets`. -/
def submitFramePackets (env : FecEnv) (s : Fec) : Fec :=
  submitSlots env (s.emit (.prepare s.currentFrame))

/-! ## Rebuilt packets -/

/-- The buffer of a packet, padded with zeros. -/
def bufOfPacket (packet : Packet) : Buf := fun t => ⟨byteAt packet t⟩

/-- The first bytes of a buffer. -/
def packetOfBuf (buf : Buf) (size : ℕ) : Packet :=
  (List.range size).map fun t => (buf t).byte

/-- `fec_recovered_data_len`. -/
def fecRecoveredDataLen (c : FecConfig) (packet : Packet)
    (receiveSize : ℕ) : ℕ :=
  let off := if hasExtension packet then 12 + 4 else 12
  min (min (off + fecConfiguredPacketSize c) receiveSize) maxPktSize

/-- The received packet whose header a rebuilt one takes over: the first one
from the network, or else the first one. -/
def headerReference (s : Fec) (slot : ℕ) : Option Packet :=
  let usable (i : ℕ) : Option Packet :=
    if i ≠ slot then (s.slots i).filter (·.length ≥ 12) else none
  let limit := min s.totalPackets fecMaxPackets
  match (List.range limit).findSome? fun i =>
      if s.receivedFromNetwork i then usable i else none with
  | some ref => some ref
  | none => (List.range limit).findSome? usable

/-- `fec_patch_recovered_packet_header` on the packet rebuilt for a slot. -/
def fecPatchRecoveredPacketHeader (s : Fec) (slot blockNum lastBlockNum : ℕ)
    (dst : Packet) : Packet :=
  if slot ≥ fecMaxPackets ∨ dst.length < 12 then dst
  else
    match headerReference s slot with
    | none => dst
    | some ref =>
        let dst := dst.set 0 (byteAt ref 0)
        let dst := dst.set 1
          ((byteAt dst 1 &&& 0x80) ||| (byteAt ref 1 &&& 0x7F))
        let dst := writeBe16 dst 2 (s.lowestSeq + UInt16.ofNat slot)
        let dst := copyBytes dst ref 4 8
        match rtpNvOffsetFromPacket dst with
        | none => dst
        | some off =>
            (writeLe32 dst (off + 4) s.currentFrame).set (off + 11)
              (((UInt8.ofNat lastBlockNum &&& 0x03) <<< 2 |||
                (UInt8.ofNat blockNum &&& 0x03)) <<< 4)

/-- Put a rebuilt packet into its slot, patched and cut to its length. -/
def requeueRecovered (c : FecConfig) (s : Fec) (slot blockNum lastBlockNum : ℕ)
    (rebuilt : Buf) (receiveSize : ℕ) : Fec :=
  let packet := fecPatchRecoveredPacketHeader s slot blockNum lastBlockNum
    (packetOfBuf rebuilt receiveSize)
  { s with
    slots := Function.update s.slots slot
      (some (packet.take (fecRecoveredDataLen c packet receiveSize))) }

/-- `fec_slot_nv`: the packet in a slot and where its `NV_VIDEO_PACKET` is. -/
def fecSlotNv (s : Fec) (slot : ℕ) : Option (Packet × ℕ) :=
  if slot ≥ fecMaxPackets then none
  else
    match s.slots slot with
    | none => none
    | some packet =>
        match rtpNvOffsetFromPacket packet with
        | none => none
        | some off => some (packet, off)

/-- `fec_nv_stream_packet_index`. -/
def fecNvStreamPacketIndex (nv : Packet × ℕ) : UInt32 :=
  (readLe32 nv.1 nv.2 >>> 8) &&& 0x00FFFFFF

/-- Whether the second packet follows the first one in the stream, if both are
there. -/
def spiFollows (first second : Option (Packet × ℕ)) : Bool :=
  match first, second with
  | some a, some b =>
      fecNvStreamPacketIndex b = (fecNvStreamPacketIndex a + 1) &&& 0x00FFFFFF
  | _, _ => true

/-- `fec_validate_recovered_data_packet`. -/
def fecValidateRecoveredDataPacket (s : Fec) (slot dataPackets : ℕ) : Bool :=
  match fecSlotNv s slot with
  | none => false
  | some nv =>
      let flags := byteAt nv.1 (nv.2 + 8)
      if flags &&& ~~~(0x04 ||| 0x02 ||| 0x01) ≠ 0 then false
      else if slot = 0 ∧ flags &&& 0x04 = 0 then false
      else if slot ≠ 0 ∧ flags &&& 0x04 ≠ 0 then false
      else if slot + 1 = dataPackets ∧ flags &&& 0x02 = 0 then false
      else if slot + 1 ≠ dataPackets ∧ flags &&& 0x02 ≠ 0 then false
      else if slot > 0 ∧ slot + 1 < dataPackets ∧ flags &&& 0x01 = 0 then false
      else
        (slot = 0 || spiFollows (fecSlotNv s (slot - 1)) (some nv)) &&
          (slot + 1 ≥ dataPackets ||
            spiFollows (some nv) (fecSlotNv s (slot + 1)))

/-! ## Recovery of one block of many -/

/-- What becomes of a block. -/
inductive BlockOutcome where
  | ready
  | unrecoverable
  | rsFailed
  deriving DecidableEq

/-- The number of data packets of a block that are not there. -/
def blockMissing (s : Fec) (blk : FecBlock) : ℕ :=
  ((List.range (min blk.dataPackets blk.maxSlots)).filter fun i =>
    decide (blk.baseSlot + i < fecMaxPackets) &&
      (s.slots (blk.baseSlot + i)).isNone).length

/-- The shards that are marked as erased. -/
def blockMarks (s : Fec) (blk : FecBlock) : ℕ → Bool := fun i =>
  !decide (i < min blk.totalPackets blk.maxSlots ∧
    blk.baseSlot + i < fecMaxPackets ∧ (s.slots (blk.baseSlot + i)).isSome)

/-- The shard buffers of the slots from `base` on: the packets padded with
zeros, cleared recovery buffers elsewhere. -/
def shardBuffers (s : Fec) (base : ℕ) : ℕ → Buf := fun i =>
  match s.slots (base + i) with
  | some packet => bufOfPacket packet
  | none => fun _ => 0

/-- Copy the rebuilt packets of a block to its slots. -/
def requeueBlock (c : FecConfig) (s : Fec) (b : ℕ) (blk : FecBlock)
    (marks : ℕ → Bool) (rebuilt : ℕ → Buf) (receiveSize : ℕ) : Fec :=
  Nat.fold (min blk.dataPackets blk.maxSlots) (fun i _ s =>
    if blk.baseSlot + i < fecMaxPackets ∧ marks i then
      requeueRecovered c s (blk.baseSlot + i) b (s.numFecBlocks - 1)
        (rebuilt i) receiveSize
    else s) s

/-- What a reconstruction makes of a block. -/
def finishBlock (c : FecConfig) (s : Fec) (b : ℕ) (blk : FecBlock) :
    SharedRs × Option Reconstruction → BlockOutcome × Fec
  | (rs, none) => (.rsFailed, s.setRs rs)
  | (rs, some r) =>
      if r.ret = 0 then
        (.ready, requeueBlock c (s.setRs rs) b blk (blockMarks s blk) r.shards
          (fecRecoverySymbolSize c))
      else (.rsFailed, s.setRs rs)

/-- One block in `attempt_multi_block_recovery_and_submit`. -/
def recoverBlock (c : FecConfig) (s : Fec) (b : ℕ) : BlockOutcome × Fec :=
  let blk := s.fecBlocks b
  if !blk.seen ∨ blk.totalPackets = 0 then (.unrecoverable, s)
  else if blockMissing s blk = 0 then (.ready, s)
  else if blk.receivedCount < blk.dataPackets then (.unrecoverable, s)
  else
    finishBlock c s b blk
      (videoReconstruct s.rs blk.dataPackets blk.parityPackets blk.totalPackets
        (shardBuffers s blk.baseSlot) (blockMarks s blk)
        (fecRecoverySymbolSize c))

/-- The loop over the blocks: the state, and whether a block was unrecoverable
or failed. -/
structure BlockScan where
  s : Fec
  anyUnrecoverable : Bool
  anyRsFailed : Bool

def scanBlock (c : FecConfig) (b : ℕ) (r : BlockScan) : BlockScan :=
  let o := recoverBlock c r.s b
  ⟨o.2, r.anyUnrecoverable || o.1 = .unrecoverable,
    r.anyRsFailed || o.1 = .rsFailed⟩

def scanBlocks (c : FecConfig) (s : Fec) : BlockScan :=
  Nat.fold s.numFecBlocks (fun b _ r => scanBlock c b r) ⟨s, false, false⟩

/-- `attempt_multi_block_recovery_and_submit`. -/
def attemptMultiBlockRecoveryAndSubmit (env : FecEnv) (s : Fec) : Fec :=
  let r := scanBlocks env.config s
  if r.anyUnrecoverable ∨ r.anyRsFailed then
    dropCurrentFrameStrict env r.s
      (if r.anyRsFailed then .multiBlockRsFailed else .multiBlockMissing) 1 []
  else
    submitFramePackets env
      ((r.s.setCounters 0 r.s.consecutiveFrameDrops).emit (.recoveryClean true))

/-! ## Recovery of a frame in one block -/

/-- The number of data packets that are not there. -/
def missingDataPackets (s : Fec) : ℕ :=
  ((List.range s.dataPackets).filter fun i => (s.slots i).isNone).length

/-- The number of parity packets that are there. -/
def parityReceived (s : Fec) : ℕ :=
  ((List.range' s.dataPackets (s.totalPackets - s.dataPackets)).filter fun i =>
    (s.slots i).isSome).length

/-- The loop that requeues the rebuilt packets: the state, and whether a packet
was found invalid, which ends the loop. -/
structure RequeueState where
  s : Fec
  invalid : Bool

def requeueOne (c : FecConfig) (marks : ℕ → Bool) (rebuilt : ℕ → Buf)
    (receiveSize : ℕ) (i : ℕ) (r : RequeueState) : RequeueState :=
  if r.invalid ∨ !marks i then r
  else
    let s := requeueRecovered c r.s i 0 0 (rebuilt i) receiveSize
    if fecValidateRecoveredDataPacket s i s.dataPackets then ⟨s, false⟩
    else ⟨s.clearSlot i, true⟩

def requeueFrame (c : FecConfig) (s : Fec) (marks : ℕ → Bool)
    (rebuilt : ℕ → Buf) (receiveSize : ℕ) : RequeueState :=
  Nat.fold s.dataPackets
    (fun i _ r => requeueOne c marks rebuilt receiveSize i r) ⟨s, false⟩

/-- The shards that are marked as erased. -/
def frameMarks (s : Fec) : ℕ → Bool := fun i => (s.slots i).isNone

/-- What a reconstruction makes of the frame. -/
def finishFrame (env : FecEnv) (s : Fec) (missing : ℕ) :
    SharedRs × Option Reconstruction → Fec
  | (rs, none) =>
      dropCurrentFrameStrict env (s.setRs rs) .rsUnavailable missing
        [.refsCorrupted, .frameCorrupt]
  | (rs, some r) =>
      if r.ret = 0 then
        let q := requeueFrame env.config (s.setRs rs) (frameMarks s) r.shards
          (fecRecoverySymbolSize env.config)
        if q.invalid then
          dropCurrentFrameStrict env (q.s.emit (.recoveryClean false))
            .recoveredInvalid missing []
        else submitFramePackets env (q.s.emit (.recoveryClean true))
      else
        dropCurrentFrameStrict env ((s.setRs rs).emit (.recoveryClean false))
          .rsFailed missing [.refsCorrupted, .frameCorrupt, .idrLost]

/-- The end of `attempt_recovery_and_submit`, once the frame goes through
`reed_solomon_reconstruct`. -/
def reconstructAndSubmit (env : FecEnv) (s : Fec) (missing : ℕ) : Fec :=
  finishFrame env s missing
    (videoReconstruct s.rs s.dataPackets s.parityPackets s.totalPackets
      (shardBuffers s 0) (frameMarks s) (fecRecoverySymbolSize env.config))

/-- `attempt_recovery_and_submit` for a frame in one block. -/
def attemptSingleBlock (env : FecEnv) (s : Fec) : Fec :=
  let missing := missingDataPackets s
  if s.dataPackets = 0 ∨ s.totalPackets = 0 ∨
      s.totalPackets > fecMaxPackets then submitFramePackets env s
  else if missing = 0 then
    submitFramePackets env ((s.setCounters 0 0).emit (.recoveryClean true))
  else if s.receivedCount < s.dataPackets then dropUnrecoverable env s missing
  else
    let s := s.setCounters 0 0
    if parityReceived s < missing then
      dropCurrentFrameStrict env s .insufficientParity missing []
    else reconstructAndSubmit env s missing

/-- `attempt_recovery_and_submit`. -/
def attemptRecoveryAndSubmit (env : FecEnv) (s : Fec) : Fec :=
  if s.numFecBlocks > 1 then attemptMultiBlockRecoveryAndSubmit env s
  else attemptSingleBlock env s

end MoonlightPsp.RtpFec

import MoonlightPsp.Lib.SerialNumber
import MoonlightPsp.ReedSolomon.SharedContext
import MoonlightPsp.Wire

/-!
# The FEC layer: frames and slots

`rtp_fec.c` collects the packets of one frame in slots, the data packets first
and the parity packets after them.  A large frame comes in up to four blocks,
each with slots of its own.  This module has the state of the layer, how a
packet is read and checked, and how it is put into its slot.

Counters that only feed statistics, the FEC status messages and the advisory
loss predictor are left out.
-/

namespace MoonlightPsp.RtpFec

open SerialNumber ReedSolomon

/-- `FEC_MAX_PACKETS`. -/
def fecMaxPackets : ℕ := 128

/-- `MAX_PKT_SIZE`. -/
def maxPktSize : ℕ := 1500

/-- `MAX_FEC_MULTI_BLOCKS`. -/
def maxFecMultiBlocks : ℕ := 4

/-- `MAX_RTP_HEADER_SIZE`. -/
def maxRtpHeaderSize : ℕ := 16

/-! ## Configuration -/

/-- The settings that the layer reads. -/
structure FecConfig where
  avcEntropyMode : ℤ
  cabacTestMode : Bool
  fps : ℤ
  bitrate : ℤ
  packetSize : ℤ

/-- `fec_stream_is_cabac`. -/
def fecStreamIsCabac (c : FecConfig) : Bool :=
  if c.avcEntropyMode = 0 ∨ c.avcEntropyMode = 1 then c.avcEntropyMode = 1
  else c.cabacTestMode

/-- `fec_max_reasonable_data_packets`. -/
def fecMaxReasonableDataPackets (c : FecConfig) : ℕ :=
  let fps := if c.fps > 0 then c.fps.toNat else 15
  let bitrateKbps := if c.bitrate > 0 then c.bitrate.toNat else 500
  let avgBytesPerFrame := bitrateKbps * 1000 % 0x100000000 / 8 / fps
  let avgPkts := max (avgBytesPerFrame / 900) 1
  min (max (avgPkts * 20) 32) fecMaxPackets

/-- `fec_configured_packet_size`. -/
def fecConfiguredPacketSize (c : FecConfig) : ℕ :=
  let packetSize := if c.packetSize > 0 then c.packetSize.toNat else 1200
  min (max (packetSize - packetSize % 16) 512) 1392

/-- `fec_recovery_symbol_size`. -/
def fecRecoverySymbolSize (c : FecConfig) : ℕ :=
  max (min (fecConfiguredPacketSize c + maxRtpHeaderSize) maxPktSize) (12 + 16)

/-! ## State -/

/-- `fec_block_t`. -/
structure FecBlock where
  dataPackets : ℕ
  parityPackets : ℕ
  totalPackets : ℕ
  receivedCount : ℕ
  receivedDataCount : ℕ
  baseSlot : ℕ
  maxSlots : ℕ
  seen : Bool

/-- What `rtp_fec_add_packet_inner` reads from a packet. -/
structure FecHeader where
  seq : UInt16
  frameIndex : UInt32
  dataPkts : ℕ
  fecIndex : ℕ
  parityPkts : ℕ
  totalPkts : ℕ
  fecBlockNum : ℕ
  multiFecTotal : ℕ
  deriving DecidableEq

/-- A data packet handed to reassembly, with its place in the frame. -/
structure Shard where
  block : ℕ
  index : ℕ
  packet : Packet
  deriving DecidableEq

/-- What `submit_frame_packets` hands to `rtp_reassembly_process_packet`, in
this order, and the sequence number for
`rtp_reassembly_note_fec_frame_complete`.  The packet that opened the frame tells
its first sequence number; the block sizes are the numbers of data packets of its
blocks. -/
structure Submission where
  frame : UInt32
  firstSeq : UInt16
  blockSizes : List ℕ
  shards : List Shard
  nextSeq : Option UInt16
  deriving DecidableEq

/-- The reasons for which a frame is dropped. -/
inductive DropReason where
  | unrecoverable
  | missingSof
  | multiBlockMissing
  | multiBlockRsFailed
  | insufficientParity
  | rsUnavailable
  | recoveredInvalid
  | rsFailed
  deriving DecidableEq

/-- What else a dropped frame leads to. -/
inductive Request where
  | noteFrameLoss (startFrame endFrame : UInt32)
  | requestIdr
  | requestRfi (startFrame endFrame : UInt32)
  | idrLost
  | refsCorrupted
  | frameCorrupt
  deriving DecidableEq

/-- What a call does outside the layer, and what becomes of frames. -/
inductive FecEvent where
  | becameCurrent (frame : UInt32)
  /-- `log_late_frame_packet`: a packet of an older frame is dropped, when it
  arrives or when it is replayed. -/
  | late (frame : UInt32) (replayed : Bool)
  /-- A packet of the current frame was put into a slot. -/
  | stored (frame : UInt32) (slot : ℕ) (h : FecHeader)
  /-- `g_fec_recovery_clean` is set or cleared. -/
  | recoveryClean (clean : Bool)
  /-- `rtp_reassembly_prepare_fec_frame`. -/
  | prepare (frame : UInt32)
  | submitted (sub : Submission)
  | dropped (frame : UInt32) (reason : DropReason) (missing : ℕ)
      (requests : List Request)
  deriving DecidableEq

/-- The flags that the layer shares with the decoder and with reassembly, as it
finds them when it drops a frame, with the loss already noted. -/
structure FlagsView where
  lastGoodFrame : UInt32
  refsCorrupted : Bool
  waitingForIdr : Bool

/-- The circumstances of one call.  The flags may change with every packet that
the call hands on, so they are a view on what it has done so far. -/
structure FecEnv where
  config : FecConfig
  flags : List FecEvent → FlagsView

/-- The statics.  A slot that is not received holds nothing; the front of the
deferred queue determines `s_deferred_frame`. -/
structure Fec where
  slots : ℕ → Option Packet
  receivedFromNetwork : ℕ → Bool
  currentFrame : UInt32
  lowestSeq : UInt16
  dataPackets : ℕ
  parityPackets : ℕ
  totalPackets : ℕ
  receivedCount : ℕ
  receivedDataCount : ℕ
  receivedParityCount : ℕ
  frameSubmitted : Bool
  numFecBlocks : ℕ
  fecBlocks : ℕ → FecBlock
  deferred : List Packet
  consecUnrecoverable : Int32
  consecutiveFrameDrops : UInt32
  rs : SharedRs
  out : List FecEvent

/-- The statics after `rtp_fec_init`. -/
def Fec.initial : Fec where
  slots := fun _ => none
  receivedFromNetwork := fun _ => false
  currentFrame := noFrame
  lowestSeq := 0
  dataPackets := 0
  parityPackets := 0
  totalPackets := 0
  receivedCount := 0
  receivedDataCount := 0
  receivedParityCount := 0
  frameSubmitted := false
  numFecBlocks := 1
  fecBlocks := fun _ => ⟨0, 0, 0, 0, 0, 0, 0, false⟩
  deferred := []
  consecUnrecoverable := 0
  consecutiveFrameDrops := 0
  rs := SharedRs.initial
  out := []

def Fec.emit (s : Fec) (e : FecEvent) : Fec := { s with out := s.out ++ [e] }

def Fec.setRs (s : Fec) (rs : SharedRs) : Fec := { s with rs }

def Fec.clearSlot (s : Fec) (i : ℕ) : Fec :=
  { s with slots := Function.update s.slots i none }

def Fec.setDeferred (s : Fec) (deferred : List Packet) : Fec :=
  { s with deferred }

/-- Set `s_consec_unrecoverable` and `g_consecutive_frame_drops`. -/
def Fec.setCounters (s : Fec) (consecUnrecoverable : Int32)
    (consecutiveFrameDrops : UInt32) : Fec :=
  { s with consecUnrecoverable, consecutiveFrameDrops }

/-! ## Reading a packet -/

/-- `packet_frame_index`. -/
def packetFrameIndex (packet : Packet) : UInt32 :=
  match rtpNvOffsetFromPacket packet with
  | none => noFrame
  | some off => readLe32 packet (off + 4)

/-- The parsing at the start of `rtp_fec_add_packet_inner`. -/
def parseFecHeader (packet : Packet) : Option FecHeader :=
  match rtpNvOffsetFromPacket packet with
  | none => none
  | some off =>
      let fecInfo := readLe32 packet (off + 12)
      let dataPkts := ((fecInfo &&& 0xFFC00000) >>> 22).toNat
      let fecPct := ((fecInfo &&& 0xFF0) >>> 4).toNat
      let parityPkts := (dataPkts * fecPct + 99) / 100
      let multiFecBlocks := byteAt packet (off + 11)
      some {
        seq := readBe16 packet 2
        frameIndex := readLe32 packet (off + 4)
        dataPkts
        fecIndex := ((fecInfo &&& 0x3FF000) >>> 12).toNat
        parityPkts
        totalPkts := dataPkts + parityPkts
        fecBlockNum := ((multiFecBlocks >>> 4) &&& 0x03).toNat
        multiFecTotal := ((multiFecBlocks >>> 6) &&& 0x03).toNat + 1 }

/-- What the checks make of a packet: it is left to reassembly, dropped because
its frame is over or because it makes no sense, or taken. -/
inductive Screened where
  | bypass
  | stale (frame : UInt32)
  | junk
  | taken (h : FecHeader)

/-- The checks before the frame transition. -/
def screenPacket (c : FecConfig) (currentFrame : UInt32) (packet : Packet) :
    Screened :=
  match parseFecHeader packet with
  | none => .bypass
  | some h =>
      if h.fecBlockNum ≥ maxFecMultiBlocks then .bypass
      else if currentFrame ≠ noFrame ∧ delta h.frameIndex currentFrame < 0 then
        .stale h.frameIndex
      else if currentFrame ≠ noFrame ∧
          (delta h.frameIndex currentFrame > 1000 ∨
            delta h.frameIndex currentFrame < -1000) then .junk
      else if h.dataPkts > fecMaxPackets ∨
          h.dataPkts > fecMaxReasonableDataPackets c ∨
          h.totalPkts > fecMaxPackets ∨ h.fecIndex ≥ fecMaxPackets then .junk
      else if h.dataPkts > 0 ∧ h.fecIndex ≥ h.totalPkts then .junk
      else if h.dataPkts = 0 ∨ h.totalPkts > fecMaxPackets ∨
          h.totalPkts = 0 then
        if h.fecIndex ≥ h.dataPkts ∧ h.dataPkts > 0 then .junk else .bypass
      else .taken h

/-! ## Slots -/

/-- The slots of each block, when a frame has `num` blocks. -/
def slotsPerBlock (num : ℕ) : ℕ :=
  if num > 1 then fecMaxPackets / num else fecMaxPackets

/-- The blocks of a new frame. -/
def newBlocks (num : ℕ) (h : FecHeader) : ℕ → FecBlock := fun b =>
  let blank : FecBlock :=
    ⟨0, 0, 0, 0, 0, b * slotsPerBlock num, slotsPerBlock num, false⟩
  if num = 1 ∧ b = 0 then
    { blank with
      dataPackets := h.dataPkts
      parityPackets := h.parityPkts
      totalPackets := h.totalPkts
      seen := true }
  else blank

/-- The reset for a new frame. -/
def openFrame (s : Fec) (h : FecHeader) : Fec :=
  let num := min h.multiFecTotal maxFecMultiBlocks
  { s with
    slots := fun _ => none
    receivedFromNetwork := fun _ => false
    currentFrame := h.frameIndex
    lowestSeq := h.seq - UInt16.ofNat h.fecIndex
    dataPackets := h.dataPkts
    parityPackets := h.parityPkts
    totalPackets := h.totalPkts
    receivedCount := 0
    receivedDataCount := 0
    receivedParityCount := 0
    frameSubmitted := false
    numFecBlocks := num
    fecBlocks := newBlocks num h
    out := s.out ++ [.becameCurrent h.frameIndex] }

/-- The first packet of a block tells its size. -/
def registerBlock (s : Fec) (h : FecHeader) : Fec :=
  if s.numFecBlocks > 1 ∧ !(s.fecBlocks h.fecBlockNum).seen then
    { s with
      fecBlocks := Function.update s.fecBlocks h.fecBlockNum
        { s.fecBlocks h.fecBlockNum with
          dataPackets := h.dataPkts
          parityPackets := h.parityPkts
          totalPackets := h.totalPkts
          receivedCount := 0
          receivedDataCount := 0
          seen := true } }
  else s

/-- The slot of a packet of the current frame, if there is one. -/
def slotIndex (s : Fec) (h : FecHeader) : Option ℕ :=
  let index :=
    if s.numFecBlocks > 1 then
      let blk := s.fecBlocks h.fecBlockNum
      if h.fecIndex ≥ blk.maxSlots then none
      else some (blk.baseSlot + h.fecIndex)
    else
      let index := (h.seq - s.lowestSeq).toNat
      if index ≥ s.totalPackets then none else some index
  index.filter (· < fecMaxPackets)

/-- Whether the packet counts as one of the data packets. -/
def isDataPacket (s : Fec) (h : FecHeader) (index : ℕ) : Bool :=
  if s.numFecBlocks > 1 then
    h.fecIndex < (s.fecBlocks h.fecBlockNum).dataPackets
  else index < s.dataPackets

/-- `mark_frame_packet_received`. -/
def markFramePacketReceived (s : Fec) (index : ℕ) (isData : Bool) : Fec :=
  if index ≥ fecMaxPackets ∨ s.receivedFromNetwork index then s
  else
    { s with
      receivedFromNetwork := Function.update s.receivedFromNetwork index true
      receivedDataCount := s.receivedDataCount + isData.toNat
      receivedParityCount := s.receivedParityCount + (!isData).toNat }

/-- Count a packet for its block. -/
def countForBlock (s : Fec) (h : FecHeader) : Fec :=
  if s.numFecBlocks > 1 then
    let blk := s.fecBlocks h.fecBlockNum
    { s with
      fecBlocks := Function.update s.fecBlocks h.fecBlockNum
        { blk with
          receivedCount := blk.receivedCount + 1
          receivedDataCount := blk.receivedDataCount +
            (decide (h.fecIndex < blk.dataPackets)).toNat } }
  else s

/-- Copy a packet into a slot. -/
def fillSlot (s : Fec) (index : ℕ) (packet : Packet) : Fec :=
  { s with
    slots := Function.update s.slots index (some (packet.take maxPktSize)) }

/-- Count a packet for the frame. -/
def countForFrame (s : Fec) (h : FecHeader) (index : ℕ) : Fec :=
  { s with
    receivedCount := s.receivedCount + 1
    out := s.out ++ [.stored s.currentFrame index h] }

/-- Put a packet into its slot, unless the slot is taken. -/
def storePacket (s : Fec) (h : FecHeader) (index : ℕ) (packet : Packet) :
    Fec :=
  if (s.slots index).isSome then s
  else
    let s := fillSlot s index packet
    let s := markFramePacketReceived s index (isDataPacket s h index)
    countForBlock (countForFrame s h index) h

/-- Whether all data packets of the frame are there. -/
def frameReady (s : Fec) : Bool :=
  if s.numFecBlocks ≤ 1 then s.receivedDataCount ≥ s.dataPackets
  else
    (List.range s.numFecBlocks).all fun b =>
      (s.fecBlocks b).seen &&
        decide ((s.fecBlocks b).receivedDataCount ≥
          (s.fecBlocks b).dataPackets)

end MoonlightPsp.RtpFec

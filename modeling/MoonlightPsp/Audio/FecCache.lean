import MoonlightPsp.ReedSolomon.SharedContext
import MoonlightPsp.Wire

/-!
# The cache of audio recovery blocks

`audio_thread.c` keeps the last few blocks of four audio packets and their two
parity packets.  A block is found by the sequence number of its first packet; a
packet of another shape under the same number throws the block away, and a new
block takes a free slot or the one that was not used for the longest time, by a
clock of 32 bits.

A packet that is too late for the decoder is then computed from any four shards
of its block.
-/

namespace MoonlightPsp.Audio

open ReedSolomon

/-! ## The state -/

/-- `AUDIO_RTP_FEC_CACHE_BLOCKS`. -/
def audioRtpFecCacheBlocks : ℕ := 8

/-- `AUDIO_RTP_FEC_PAYLOAD_MAX`, which is `AUDIO_MAX_RTP_SIZE`. -/
def audioRtpFecPayloadMax : ℕ := 1400

/-- `RTP_PT_AUDIO_OPUS`. -/
def rtpPtAudioOpus : UInt8 := 97

/-- `AUDIO_SAMPLE_RATE`. -/
def audioSampleRate : ℤ := 48000

/-- `AudioRtpFecBlock`: to the shards, their header. -/
structure FecBlock extends AudioRtpFecBlock where
  baseSeq : UInt16
  baseTs : UInt32
  ssrc : UInt32
  payloadType : UInt8
  lastUseUs : UInt32

/-- `s_audio_fec_blocks`, `s_audio_packet_duration_ms`, the two counters, and the
Reed-Solomon context that the video stream uses as well. -/
structure AudioFec where
  blocks : ℕ → FecBlock
  packetDurationMs : ℤ
  recovered : UInt32
  failed : UInt32
  rs : SharedRs

/-- A block of zeros. -/
def FecBlock.cleared : FecBlock where
  valid := false
  marks := fun _ => false
  data := fun _ _ => 0
  fec := fun _ _ => 0
  blockSize := 0
  baseSeq := 0
  baseTs := 0
  ssrc := 0
  payloadType := 0
  lastUseUs := 0

/-- The statics before the first packet; 60 is `PSP_AUDIO_PACKET_DURATION_MS`. -/
def AudioFec.init : AudioFec where
  blocks := fun _ => .cleared
  packetDurationMs := 60
  recovered := 0
  failed := 0
  rs := .initial

/-- What `audio_rtp_fec_reset` does to the cache. -/
def audioRtpFecReset (s : AudioFec) : AudioFec :=
  { s with blocks := fun _ => .cleared, recovered := 0, failed := 0 }

/-- `audio_thread_set_packet_duration_ms`. -/
def setPacketDurationMs (s : AudioFec) (durationMs : ℤ) : AudioFec :=
  { s with
    packetDurationMs :=
      if durationMs < 5 then 5 else if durationMs > 60 then 60
      else durationMs }

/-! ## Finding a block -/

/-- A shard on its way into the cache: what `audio_rtp_fec_get_block` is called
with, the number of the shard and its bytes. -/
structure FecShard where
  baseSeq : UInt16
  baseTs : UInt32
  ssrc : UInt32
  payloadType : UInt8
  blockSize : ℕ
  shard : ℕ
  src : Buf

/-- The block in a slot is one of this sequence number. -/
def FecBlock.hasBase (b : FecBlock) (baseSeq : UInt16) : Bool :=
  b.valid && b.baseSeq == baseSeq

/-- The block has the shape of the shard. -/
def FecBlock.fits (b : FecBlock) (x : FecShard) : Bool :=
  b.blockSize == x.blockSize && b.payloadType == x.payloadType &&
    b.ssrc == x.ssrc

/-- The first slot with a block of this sequence number. -/
def findBlock (blocks : ℕ → FecBlock) (baseSeq : UInt16) : Option ℕ :=
  (List.range audioRtpFecCacheBlocks).find? fun i =>
    (blocks i).hasBase baseSeq

/-- The second loop of `audio_rtp_fec_get_block` over the slots that are left,
with `pick` and `oldest`. -/
def pickLoop (blocks : ℕ → FecBlock) : List ℕ → Option ℕ → UInt32 → Option ℕ
  | [], pick, _ => pick
  | i :: is, pick, oldest =>
      let b := blocks i
      if !b.valid then some i
      else if pick = none ∨ b.lastUseUs - oldest > 0x80000000 then
        pickLoop blocks is (some i) b.lastUseUs
      else pickLoop blocks is pick oldest

/-- The block that the last part of `audio_rtp_fec_get_block` writes into a
slot. -/
def FecBlock.renew (b : FecBlock) (now : UInt32) (x : FecShard) : FecBlock :=
  { b with
    valid := true
    baseSeq := x.baseSeq
    baseTs := x.baseTs
    ssrc := x.ssrc
    payloadType := x.payloadType
    blockSize := x.blockSize
    lastUseUs := now
    marks := fun _ => true }

/-- From the second loop of `audio_rtp_fec_get_block` to its end. -/
def placeBlock (blocks : ℕ → FecBlock) (now : UInt32) (x : FecShard) :
    Option ℕ × (ℕ → FecBlock) :=
  match pickLoop blocks (List.range audioRtpFecCacheBlocks) none 0 with
  | none => (none, blocks)
  | some i => (some i, Function.update blocks i ((blocks i).renew now x))

/-- `audio_rtp_fec_get_block`: the slot of the block, and the blocks. -/
def audioRtpFecGetBlock (blocks : ℕ → FecBlock) (now : UInt32)
    (x : FecShard) : Option ℕ × (ℕ → FecBlock) :=
  if x.blockSize = 0 ∨ x.blockSize > audioRtpFecPayloadMax then (none, blocks)
  else
    match findBlock blocks x.baseSeq with
    | none => placeBlock blocks now x
    | some i =>
        if (blocks i).fits x then
          (some i,
            Function.update blocks i { blocks i with lastUseUs := now })
        else
          placeBlock
            (Function.update blocks i { blocks i with valid := false }) now x

/-! ## Packets -/

/-- The fields of `RtpHeader` that the cache reads, in host order. -/
structure RtpHeader where
  seq : UInt16
  timestamp : UInt32
  ssrc : UInt32

/-- `audio_fec_base_seq`. -/
def audioFecBaseSeq (seq : UInt16) : UInt16 :=
  seq &&& ~~~(UInt16.ofNat (audioDataShards - 1))

/-- The bytes of a packet from an offset on. -/
def bytesFrom (p : Packet) (off : ℕ) : Buf := fun t => ⟨byteAt p (off + t)⟩

/-- The first part of `audio_rtp_fec_cache_data`. -/
def dataShard (packetDurationMs : ℤ) (hdr : RtpHeader) (payload : Packet) :
    Option FecShard :=
  let base := audioFecBaseSeq hdr.seq
  let pos := (hdr.seq - base).toNat
  let stepMs :=
    if packetDurationMs < 5 ∨ packetDurationMs > 60 then 10
    else packetDurationMs
  let stepSamples := audioSampleRate * stepMs / 1000
  if pos ≥ audioDataShards then none
  else if stepSamples ≤ 0 then none
  else
    some {
      baseSeq := base
      baseTs := hdr.timestamp - UInt32.ofInt (pos * stepSamples)
      ssrc := hdr.ssrc
      payloadType := rtpPtAudioOpus
      blockSize := payload.length
      shard := pos
      src := bytesFrom payload 0 }

/-- `sizeof(AudioFecHeader)`. -/
def audioFecHeaderSize : ℕ := 12

/-- A field of four bytes, in network order. -/
def readBe32 (p : Packet) (off : ℕ) : UInt32 :=
  ((readBe16 p off).toUInt32 <<< 16) ||| (readBe16 p (off + 2)).toUInt32

/-- The first part of `audio_rtp_fec_cache_parity`. -/
def parityShard (payload : Packet) : Option FecShard :=
  if payload.length < audioFecHeaderSize then none
  else
    let shard := (byteAt payload 0).toNat
    let payloadType := byteAt payload 1
    let baseSeq := readBe16 payload 2
    if shard ≥ audioParityShards ∨ payloadType ≠ rtpPtAudioOpus then none
    else if baseSeq &&& UInt16.ofNat (audioDataShards - 1) ≠ 0 then none
    else
      some {
        baseSeq
        baseTs := readBe32 payload 4
        ssrc := readBe32 payload 8
        payloadType
        blockSize := payload.length - audioFecHeaderSize
        shard := audioDataShards + shard
        src := bytesFrom payload audioFecHeaderSize }

/-- Copy a shard into its buffer and clear its mark. -/
def FecBlock.keep (b : FecBlock) (x : FecShard) : FecBlock :=
  { b with
    data := fun i =>
      if x.shard < audioDataShards ∧ i = x.shard then
        (b.data i).memcpy x.src x.blockSize
      else b.data i
    fec := fun i =>
      if audioDataShards + i = x.shard then
        (b.fec i).memcpy x.src x.blockSize
      else b.fec i
    marks := Function.update b.marks x.shard false }

/-- The last part of `audio_rtp_fec_cache_data` and of
`audio_rtp_fec_cache_parity`. -/
def cacheShard (s : AudioFec) (now : UInt32) (x : FecShard) : AudioFec :=
  match audioRtpFecGetBlock s.blocks now x with
  | (none, blocks) => { s with blocks }
  | (some i, blocks) =>
      if (blocks i).marks x.shard then
        { s with blocks := Function.update blocks i ((blocks i).keep x) }
      else { s with blocks }

/-- `audio_rtp_fec_cache_data`. -/
def audioRtpFecCacheData (s : AudioFec) (now : UInt32) (hdr : RtpHeader)
    (payload : Packet) : AudioFec :=
  match dataShard s.packetDurationMs hdr payload with
  | none => s
  | some x => cacheShard s now x

/-- `audio_rtp_fec_cache_parity`. -/
def audioRtpFecCacheParity (s : AudioFec) (now : UInt32)
    (payload : Packet) : AudioFec :=
  match parityShard payload with
  | none => s
  | some x => cacheShard s now x

/-! ## Recovery -/

/-- `audio_rtp_fec_complete` on the block of a slot, with its counters. -/
def completeBlock (s : AudioFec) (i : ℕ) : Int × AudioFec :=
  let b := s.blocks i
  let (rs, _, ret, shards) := audioRtpFecComplete s.rs b.toAudioRtpFecBlock
  let locked := b.reachesLock
  (ret, { s with
    blocks := Function.update s.blocks i
      { b with toAudioRtpFecBlock := shards }
    recovered :=
      if locked ∧ ret = 0 then s.recovered + UInt32.ofNat b.missingData
      else s.recovered
    failed := if locked ∧ ret ≠ 0 then s.failed + 1 else s.failed
    rs })

/-- `audio_rtp_fec_recover_payload`: the payload it copies out when it returns 0,
and none when it returns −1. -/
def audioRtpFecRecoverPayload (s : AudioFec) (seq : UInt16) :
    Option Packet × AudioFec :=
  let base := audioFecBaseSeq seq
  let pos := (seq - base).toNat
  if pos ≥ audioDataShards then (none, s)
  else
    match findBlock s.blocks base with
    | none => (none, s)
    | some i =>
        let (ret, s) := completeBlock s i
        let b := s.blocks i
        if ret ≠ 0 ∨ b.marks pos then (none, s)
        else
          (some ((List.range b.blockSize).map fun t => (b.data pos t).byte), s)

end MoonlightPsp.Audio

import MoonlightPsp.Lib.RingWindow
import MoonlightPsp.Wire

/-!
# The packet ring between receiver and decoder

The network thread publishes packets in a ring of slots and the decoder thread
drains it.  Both read the indices of the other, so a run is a sequence of
single reads and writes of either thread.  While a packet is being processed the
access-unit callback may run; in the software build it can flush the ring.  The
network thread flushes it too, after many drops, when it takes the decoder for
dead.

The state keeps, besides the ring, the history that the invariants speak about:
everything published, what was processed, consumed and flushed, and how far the
tail has moved in total.
-/

namespace MoonlightPsp.PacketRing

open RingWindow

/-- `RING_BUFFER_SLOTS`. -/
def ringBufferSlots : ℕ := 512

/-! ## Trimming a live queue -/

/-- `LIVE_TRIM_RTP_HEADER_SIZE`. -/
def liveTrimRtpHeaderSize : ℕ := 12

/-- `LIVE_TRIM_NV_PACKET_SIZE`. -/
def liveTrimNvPacketSize : ℕ := 16

/-- `LIVE_TRIM_FRAME_SPAN_MAX`. -/
def liveTrimFrameSpanMax : ℕ := 120

/-- `decoder_packet_sof_frame_id`: the frame of a packet that opens one. -/
def decoderPacketSofFrameId (packet : Packet) : Option UInt32 :=
  let packetLen := packet.length
  let first := byteAt packet 0
  if packetLen < liveTrimRtpHeaderSize + liveTrimNvPacketSize then none
  else if (first >>> 6) &&& 0x03 ≠ 2 then none
  else
    let dataOffset := if first &&& 0x10 ≠ 0 then liveTrimRtpHeaderSize + 4
      else liveTrimRtpHeaderSize
    let flags := byteAt packet (dataOffset + 8)
    let fecBlockNum := (byteAt packet (dataOffset + 11) >>> 4) &&& 0x03
    if packetLen < dataOffset + liveTrimNvPacketSize then none
    else if flags &&& ~~~(0x01 ||| 0x02 ||| 0x04) ≠ 0 then none
    else if flags &&& 0x01 = 0 then none
    else if flags &&& 0x04 = 0 ∨ fecBlockNum ≠ 0 then none
    else some (readLe32 packet (dataOffset + 4))

/-- What the drain loop knows when it looks at a backlog. -/
structure DrainEnv where
  cavlcPerformance : Bool
  cabac : Bool
  sawFirstIdr : Bool
  lastGoodFrame : UInt32

/-- `PACKET_BACKLOG_TRIM_CAVLC_PERF`. -/
def packetBacklogTrimCavlcPerf : ℕ := 20

/-- `PACKET_BACKLOG_TRIM_CABAC`. -/
def packetBacklogTrimCabac : ℕ := 56

/-- `decoder_flush_threshold_packets`. -/
def decoderFlushThresholdPackets (env : DrainEnv) : ℕ :=
  if env.cavlcPerformance then 160 else if env.cabac then 224 else 384

/-- A frame ahead of the last good one, by no more than the span limit. -/
def frameAhead (lastGoodFrame sofFrameId : UInt32) : Bool :=
  let frameDelta := (sofFrameId - lastGoodFrame).toNat
  decide (frameDelta ≠ 0 ∧ frameDelta < 2 ^ 31 ∧
    frameDelta ≤ liveTrimFrameSpanMax)

/-- `decoder_trim_live_queue` with the head it reads: the return value, and the
new tail if it moves it. -/
def decoderTrimLiveQueue (env : DrainEnv) (slots : ℕ → Packet)
    (head queued trimThreshold : ℕ) : Bool × Option ℕ :=
  if queued ≤ trimThreshold then (true, none)
  else if !env.sawFirstIdr ∨ env.lastGoodFrame = 0 then (false, none)
  else
    let sof := (List.range' 1 (min queued (ringBufferSlots - 1))).find?
      fun scan =>
        match decoderPacketSofFrameId
          (slots ((head + ringBufferSlots - scan) % ringBufferSlots)) with
        | none => false
        | some sofFrameId => frameAhead env.lastGoodFrame sofFrameId
    match sof with
    | none => (false, none)
    | some scan =>
        let sofIdx := (head + ringBufferSlots - scan) % ringBufferSlots
        let keep := (head + ringBufferSlots - sofIdx) % ringBufferSlots
        if keep = 0 ∨ keep ≥ queued then (true, none) else (true, some sofIdx)

/-- What the backlog check after a drain decides about the tail. -/
inductive TailMove where
  | stay
  /-- Set the tail to an index computed from the head just read. -/
  | to (tail : ℕ)
  /-- Set the tail to the head, read once more. -/
  | flush

/-- Trim above `trimThreshold`, and flush when the queue could not be trimmed
and is beyond the flush threshold. -/
def trimOrFlush (env : DrainEnv) (slots : ℕ → Packet)
    (head queued trimThreshold : ℕ) : TailMove :=
  if queued > trimThreshold then
    match decoderTrimLiveQueue env slots head queued trimThreshold with
    | (_, some tail) => .to tail
    | (true, none) => .stay
    | (false, none) =>
        if queued > decoderFlushThresholdPackets env then .flush else .stay
  else .stay

/-- The backlog check after a drain, with the head its trim reads. -/
def drainBacklog (env : DrainEnv) (slots : ℕ → Packet) (head queued : ℕ) :
    TailMove :=
  let flushThreshold := decoderFlushThresholdPackets env
  if env.cavlcPerformance then
    trimOrFlush env slots head queued packetBacklogTrimCavlcPerf
  else if env.cabac then
    trimOrFlush env slots head queued packetBacklogTrimCabac
  else if queued > flushThreshold then
    if env.sawFirstIdr ∧ env.lastGoodFrame ≠ 0 then
      let keep := max (flushThreshold / 2) 32
      let keep := min keep queued
      .to ((head + ringBufferSlots - keep) % ringBufferSlots)
    else .flush
  else .stay

/-! ## The two threads -/

/-- Where the network thread is between two packets. -/
inductive Producer where
  | ready
  /-- A packet was received, directly into the slot at the head if `direct`. -/
  | received (packet : Packet) (direct : Bool)
  /-- The packet is in the slot at the head, which is not advanced yet. -/
  | written (packet : Packet)
  /-- The packet found no slot. -/
  | dropped
  /-- The decoder is taken for dead, and the tail is about to be set. -/
  | emptying

/-- Where the decoder thread is in its loop.  Packets are numbered in the order
of publication: `number` is that of the packet being processed, and `seen` how
many were published when the head was last read. -/
inductive Consumer where
  | idle
  /-- The ring was seen not to be empty. -/
  | pending
  | processing (number : ℕ)
  /-- The callback has read the head to flush to it. -/
  | callbackFlush (number head seen : ℕ)
  /-- The tail was read after `moved` moves, and is about to be advanced. -/
  | advancing (number tail moved : ℕ)
  /-- The head was read, to be compared with the tail. -/
  | measuring (head seen : ℕ)
  | drained (queued : ℕ)
  /-- The tail is about to be set, from a head read before. -/
  | moving (tail head seen : ℕ)
  | flushing

/-- The ring, the two threads, and the history of the run. -/
structure RingState where
  slots : ℕ → Packet
  head : ℕ
  tail : ℕ
  /-- `s_drop_count`, which no start of the thread resets. -/
  dropCount : UInt32
  producer : Producer
  consumer : Consumer
  published : List Packet
  /-- By how many slots the tail has moved since the start. -/
  tailMoved : ℕ
  /-- Number and content of the packets handed to the depacketizer. -/
  processed : List (ℕ × Packet)
  consumed : List ℕ
  flushed : List ℕ

/-- An empty ring, with what earlier threads have counted. -/
def RingState.initial (dropCount : UInt32) : RingState :=
  ⟨fun _ => [], 0, 0, dropCount, .ready, .idle, [], 0, [], [], []⟩

/-- One read or write of either thread. -/
inductive Action where
  | receive (packet : Packet)
  | discard
  | checkRoom
  | publish
  /-- The network thread reads `g_decoder_ready`. -/
  | checkReady (decoderReady : Bool)
  | emergencyFlush
  | find
  | take
  | callbackRead
  | callbackWrite
  | finish
  | advance
  | measure
  | readTail
  | checkBacklog (env : DrainEnv)
  | readHead
  | moveTail

/-- Set the tail to `tail`, an index not after the head that was read when
`seen` packets were published.  Everything the tail moves over is flushed. -/
def RingState.moveTail (s : RingState) (tail head seen : ℕ) : RingState :=
  let moved := seen - queued ringBufferSlots head tail
  { s with
    tail
    tailMoved := moved
    flushed := s.flushed ++ List.range' s.tailMoved (moved - s.tailMoved) }

/-- The steps of the network thread: a packet is received into the free slot at
the head if there is one, discarded by a filter, or checked once more for a free
slot, written and published.  If there is none, the drop is counted, and after
2000 of them a ring whose decoder is not ready is emptied. -/
def stepProducer (s : RingState) : Action → Option RingState
  | .receive packet =>
      match s.producer with
      | .ready =>
          let direct := decide ((s.head + 1) % ringBufferSlots ≠ s.tail)
          some { s with
            slots := if direct then Function.update s.slots s.head packet
              else s.slots
            producer := .received packet direct }
      | _ => none
  | .discard =>
      match s.producer with
      | .received _ _ => some { s with producer := .ready }
      | _ => none
  | .checkRoom =>
      match s.producer with
      | .received packet direct =>
          if (s.head + 1) % ringBufferSlots = s.tail then
            some { s with dropCount := s.dropCount + 1, producer := .dropped }
          else
            some { s with
              slots := if direct then s.slots
                else Function.update s.slots s.head packet
              producer := .written packet }
      | _ => none
  | .publish =>
      match s.producer with
      | .written packet =>
          some { s with
            head := (s.head + 1) % ringBufferSlots
            producer := .ready
            published := s.published ++ [packet] }
      | _ => none
  | .checkReady decoderReady =>
      match s.producer with
      | .dropped =>
          some { s with
            producer := if 2000 ≤ s.dropCount ∧ decoderReady = false then
                .emptying
              else .ready }
      | _ => none
  | .emergencyFlush =>
      match s.producer with
      | .emptying =>
          some { s.moveTail s.head s.head s.published.length with
            dropCount := 0
            producer := .ready }
      | _ => none
  | _ => none

/-- The steps of the decoder thread.  With `hardwareAvc` the callback returns
before any of its flushes. -/
def stepConsumer (hardwareAvc : Bool) (s : RingState) :
    Action → Option RingState
  | .find =>
      match s.consumer with
      | .idle =>
          if s.tail ≠ s.head then some { s with consumer := .pending } else none
      | _ => none
  | .take =>
      match s.consumer with
      | .pending =>
          let packet := s.slots s.tail
          some { s with
            consumer := .processing s.tailMoved
            processed := if packet.length > 0 then
                s.processed ++ [(s.tailMoved, packet)]
              else s.processed }
      | _ => none
  | .callbackRead =>
      match s.consumer with
      | .processing number =>
          if hardwareAvc then none
          else some { s with
            consumer := .callbackFlush number s.head s.published.length }
      | _ => none
  | .callbackWrite =>
      match s.consumer with
      | .callbackFlush number head seen =>
          some { s.moveTail head head seen with
            consumer := .processing number }
      | _ => none
  | .finish =>
      match s.consumer with
      | .processing number =>
          some { s with consumer := .advancing number s.tail s.tailMoved }
      | _ => none
  | .advance =>
      match s.consumer with
      | .advancing number tail moved =>
          some { s with
            tail := (tail + 1) % ringBufferSlots
            tailMoved := moved + 1
            consumer := .idle
            consumed := s.consumed ++ [number] }
      | _ => none
  | .measure =>
      match s.consumer with
      | .idle =>
          some { s with consumer := .measuring s.head s.published.length }
      | _ => none
  | .readTail =>
      match s.consumer with
      | .measuring head _ =>
          some { s with
            consumer := .drained (queued ringBufferSlots head s.tail) }
      | _ => none
  | .checkBacklog env =>
      match s.consumer with
      | .drained queued =>
          match drainBacklog env s.slots s.head queued with
          | .stay => some { s with consumer := .idle }
          | .to tail =>
              some { s with
                consumer := .moving tail s.head s.published.length }
          | .flush => some { s with consumer := .flushing }
      | _ => none
  | .readHead =>
      match s.consumer with
      | .flushing =>
          some { s with
            consumer := .moving s.head s.head s.published.length }
      | _ => none
  | .moveTail =>
      match s.consumer with
      | .moving tail head seen =>
          some { s.moveTail tail head seen with consumer := .idle }
      | _ => none
  | _ => none

def step (hardwareAvc : Bool) (s : RingState) (a : Action) :
    Option RingState :=
  match stepProducer s a with
  | some s' => some s'
  | none => stepConsumer hardwareAvc s a

/-- A run of both threads from `s`, if every step is possible. -/
def run (hardwareAvc : Bool) (s : RingState) :
    List Action → Option RingState
  | [] => some s
  | a :: as => (step hardwareAvc s a).bind fun s' => run hardwareAvc s' as

/-- A step that does not set the tail under the drain loop: no flush of the
callback, and the network thread flushes only between two turns of the loop. -/
def Calm (s : RingState) (a : Action) : Prop :=
  a ≠ .callbackRead ∧ (a = .emergencyFlush → s.consumer = .idle)

/-- Every step of the run is calm in the state before it. -/
def CalmRun (hardwareAvc : Bool) (s : RingState) : List Action → Prop
  | [] => True
  | a :: as =>
      Calm s a ∧ ∀ s', step hardwareAvc s a = some s' → CalmRun hardwareAvc s' as

/-! ## What the ring is for -/

/-- The packets published and neither consumed nor flushed, in order. -/
def RingState.remaining (s : RingState) : List Packet :=
  (List.range s.published.length).filterMap fun k =>
    if k ∈ s.consumed ∨ k ∈ s.flushed then none else s.published[k]?

/-- The ring holds what it should, and what was processed came in order. -/
structure Sound (s : RingState) : Prop where
  tail_le : s.tailMoved ≤ s.published.length
  contents : contents ringBufferSlots s.slots s.head s.tail = s.remaining
  ordered : (s.processed.map Prod.fst).Pairwise (· < ·)
  genuine : ∀ kp ∈ s.processed, s.published[kp.1]? = some kp.2

end MoonlightPsp.PacketRing

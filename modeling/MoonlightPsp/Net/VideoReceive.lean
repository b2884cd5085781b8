import MoonlightPsp.Net.Rtcp
import MoonlightPsp.PacketRing.Spsc
import MoonlightPsp.Lib.PastTime

/-!
# The receive thread of the video socket

The thread polls the socket and puts what it gets in the packet ring.  Audio that comes this way is
handed over, and as the ring fills, parity is dropped first and then what opens no frame.  A full
ring or a silent socket makes it ask the host for a new start.

The decoder thread moves between the reads of the tail; its steps are those of the packet ring.
-/

namespace MoonlightPsp.Net

open PacketRing RingWindow

/-! ## Packets -/

/-- `MAX_PACKET_SIZE`. -/
def maxPacketSize : ℕ := 1500

/-- What one call of `recv` returns. -/
structure Datagram where
  bytes : Packet
  pos : 0 < bytes.length
  le : bytes.length ≤ maxPacketSize

/-- A call of `recv` or `recvfrom`; nothing is there yet with `EAGAIN`, `EWOULDBLOCK` or no
error. -/
inductive SocketRead where
  | data (d : Datagram)
  | empty
  | failed

/-- `net_rtp_nv_offset`. -/
def netRtpNvOffset (p : Packet) : Option ℕ := rtpNvOffsetFromPacket p

/-- Audio by its version and payload type, `NET_RTP_PT_AUDIO_OPUS` or `NET_RTP_PT_AUDIO_FEC`. -/
def isAudioRtp (p : Packet) : Bool :=
  12 ≤ p.length ∧ (byteAt p 0 >>> 6) &&& 0x03 = 2 ∧
    (byteAt p 1 &&& 0x7F = 97 ∨ byteAt p 1 &&& 0x7F = 127)

/-- A NAL unit of the highest importance behind the header of the payload. -/
def startsIdr (p : Packet) (payloadOff : ℕ) : Bool :=
  let nalOff :=
    if byteAt p payloadOff = 0x01 then payloadOff + 8
    else if byteAt p payloadOff = 0x81 then payloadOff + 44
    else payloadOff
  payloadOff + 4 < p.length ∧ nalOff + 5 < p.length ∧ byteAt p nalOff = 0x00 ∧
    byteAt p (nalOff + 1) = 0x00 ∧ byteAt p (nalOff + 2) = 0x00 ∧ byteAt p (nalOff + 3) = 0x01 ∧
      (byteAt p (nalOff + 4) >>> 5) &&& 0x03 = 3

/-- `pkt_priority`: parity, the body of a frame, its start, or that of an IDR picture. -/
def pktPriority (p : Packet) : ℕ :=
  if p.length < 12 + 16 then 1
  else
    match netRtpNvOffset p with
    | none => 1
    | some nvOff =>
        let nvFecInfo := readLe32 p (nvOff + 12)
        let nvDataPkts := (nvFecInfo >>> 22) &&& 0x3FF
        let nvFecIdx := (nvFecInfo >>> 12) &&& 0x3FF
        let priority := if startsIdr p (nvOff + 16) then 3 else 1
        let priority :=
          if byteAt p (nvOff + 8) &&& 0x04 ≠ 0 ∧ priority < 2 then 2 else priority
        -- Parity counts as such even if its bytes look like an IDR picture.
        if 0 < nvDataPkts ∧ nvDataPkts ≤ nvFecIdx then 0 else priority

/-! ## The state -/

/-- What the thread has done. -/
inductive RecvEvent where
  | empty (nowUs : UInt32)
  | failed
  | hotPathDisabled
  /-- A packet, with the port that `from_addr` holds at that time. -/
  | packet (nowUs : UInt32) (p : Packet) (port : UInt16)
  /-- Audio is counted, and dropped because it is not wanted. -/
  | audioCounted (p : Packet) (payload : ℕ) (fec : Bool)
  /-- `audio_thread_queue_external_rtp`, and whether the packet was taken. -/
  | queueAudio (p : Packet) (taken : Bool)
  | videoRx (nowUs : UInt32) (p : Packet)
  /-- `signal_strength_report_jitter`. -/
  | jitter (delta : UInt32)
  /-- A drop, with the number of packets that wait in the ring, for want of a slot if `full`. -/
  | videoDrop (p : Packet) (waiting : ℕ) (full : Bool)
  | videoAccept (p : Packet)
  /-- `control_stream_request_idr`. -/
  | idr
  /-- `control_stream_request_idr_force`. -/
  | idrForce
  /-- `send_ping_burst_internal`, and when it is done. -/
  | pings (doneUs : UInt32)
  | delay (us : ℕ)
  /-- The ring of a dead decoder is emptied, with its thread between two turns if `atRest`. -/
  | flush (atRest : Bool)
  deriving DecidableEq

/-- The variables of the loop, the statics it writes, the ring, and the log. -/
structure RecvState where
  ring : RingState
  rtcp : RtcpStats
  pktCount : UInt32
  consecutiveEmpty : UInt32
  lastDataUs : UInt32
  lastIdlePingUs : UInt32
  lastRecvUs : UInt32
  recvHotPathDisabled : Bool
  idleIdrRequested : Bool
  fromPort : UInt16
  log : List RecvEvent

/-- A start of the thread, with the ring and the static of the threads before it. -/
def RecvState.start (ring : RingState) (lastRecvUs nowUs : UInt32) : RecvState where
  ring
  rtcp := .initial
  pktCount := 0
  consecutiveEmpty := 0
  lastDataUs := nowUs
  lastIdlePingUs := 0
  lastRecvUs
  recvHotPathDisabled := false
  idleIdrRequested := false
  fromPort := 0
  log := []

/-- What one turn of the loop meets: the socket, the clock, the rest of the program, and the steps
of the decoder thread between its own. -/
structure Turn where
  recv : SocketRead
  recvfrom : SocketRead
  port : UInt16
  nowUs : UInt32
  pingsDoneUs : UInt32
  audioEnabled : Bool
  audioTaken : Bool
  decoderReady : Bool
  beforeRecv : List Action
  beforeAdmission : List Action
  beforeRoom : List Action
  beforePublish : List Action
  beforeFlush : List Action

namespace RecvState

def record (s : RecvState) (e : RecvEvent) : RecvState := { s with log := s.log ++ [e] }

/-- A step of the receive thread on the ring. -/
def produce (s : RecvState) (a : Action) : Option RecvState :=
  (stepProducer s.ring a).map fun ring => { s with ring }

/-- Steps of the decoder thread, in the build that decodes in hardware. -/
def consume (s : RecvState) (as : List Action) : Option RecvState :=
  (as.foldlM (stepConsumer true) s.ring).map fun ring => { s with ring }

/-- The packets that wait for the decoder. -/
def waiting (s : RecvState) : ℕ := s.ring.published.length - s.ring.tailMoved

/-- The decoder thread is between two turns of its loop. -/
def atRest (s : RecvState) : Bool :=
  match s.ring.consumer with
  | .idle => true
  | _ => false

end RecvState

/-! ## A turn of the loop -/

/-- `recvfrom` clears the address before it writes it. -/
def pollAddress (t : Turn) (s : RecvState) : SocketRead × RecvState :=
  match t.recvfrom with
  | .data d => (.data d, { s with fromPort := t.port })
  | r => (r, { s with fromPort := 0 })

/-- The socket is polled; behind the first packet without asking for the address. -/
def poll (t : Turn) (s : RecvState) : SocketRead × RecvState :=
  if s.pktCount ≠ 0 ∧ s.recvHotPathDisabled = false then
    match t.recv with
    | .failed => pollAddress t { s.record .hotPathDisabled with recvHotPathDisabled := true }
    | r => (r, s)
  else pollAddress t s

/-- The pause after an empty poll. -/
def emptyDelayUs (s : RecvState) : ℕ :=
  if s.pktCount ≠ 0 then
    if s.consecutiveEmpty < 8 then 250 else 500
  else if s.consecutiveEmpty < 5 then 500
  else if s.consecutiveEmpty < 20 then 1000
  else 2000

/-- A socket that has been silent for long is asked for a new start, and pinged. -/
def recoverIdle (t : Turn) (s : RecvState) : RecvState :=
  if 2500000 ≤ t.nowUs - s.lastDataUs then
    let s := if s.idleIdrRequested then s else { s.record .idrForce with idleIdrRequested := true }
    if s.lastIdlePingUs = 0 ∨ 5000000 ≤ t.nowUs - s.lastIdlePingUs then
      { s.record (.pings t.pingsDoneUs) with lastIdlePingUs := t.pingsDoneUs }
    else s
  else s

/-- Nothing was there. -/
def pollEmpty (t : Turn) (s : RecvState) : RecvState :=
  let s := { s.record (.empty t.nowUs) with consecutiveEmpty := s.consecutiveEmpty + 1 }
  let s := if s.pktCount ≠ 0 then recoverIdle t s else s
  s.record (.delay (emptyDelayUs s))

/-- Audio on the video socket. -/
def routeAudio (t : Turn) (p : Packet) (s : RecvState) : RecvState :=
  if t.audioEnabled then s.record (.queueAudio p t.audioTaken)
  else s.record (.audioCounted p (p.length - 12) (byteAt p 1 &&& 0x7F ≠ 97))

/-- The statistics of a video packet. -/
def countVideo (t : Turn) (p : Packet) (s : RecvState) : RecvState :=
  let s := s.record (.videoRx t.nowUs p)
  let s := if s.lastRecvUs ≠ 0 then s.record (.jitter (t.nowUs - s.lastRecvUs)) else s
  { s with lastRecvUs := t.nowUs, rtcp := s.rtcp.receive t.nowUs p }

/-- The ring is emptied in place of the decoder, which may still move. -/
def flushRing (t : Turn) (s : RecvState) : Option RecvState := do
  let s ← s.consume t.beforeFlush
  let s ← (s.record (.flush s.atRest)).produce .emergencyFlush
  return s.record .idr

/-- After so many drops a new start is needed. -/
def recoverFull (t : Turn) (s : RecvState) : Option RecvState := do
  let s := if s.ring.dropCount = 256 then s.record .idr else s
  let dead : Bool := 2000 ≤ s.ring.dropCount ∧ t.decoderReady = false
  let s ← s.produce (.checkReady t.decoderReady)
  if dead then flushRing t s else return s

/-- The packet is written and published, or finds no slot. -/
def publishPacket (t : Turn) (p : Packet) (s : RecvState) : Option RecvState := do
  if (s.ring.head + 1) % ringBufferSlots = s.ring.tail then
    let s ← (s.record (.videoDrop p s.waiting true)).produce .checkRoom
    recoverFull t s
  else
    let s ← s.produce .checkRoom
    let s ← s.consume t.beforePublish
    let s ← s.produce .publish
    return s.record (.videoAccept p)

/-- How full the ring is, in percent. -/
def ringPct (s : RecvState) : ℕ :=
  queued ringBufferSlots s.ring.head s.ring.tail * 100 / ringBufferSlots

/-- As the ring fills, what matters least is dropped. -/
def admitPacket (t : Turn) (p : Packet) (s : RecvState) : Option RecvState :=
  if 90 < ringPct s ∧ pktPriority p = 0 ∨ 95 < ringPct s ∧ pktPriority p ≤ 1 then
    (s.record (.videoDrop p s.waiting false)).produce .discard
  else do
    let s ← s.consume t.beforeRoom
    publishPacket t p s

/-- A packet has come. -/
def receivePacket (audioServerPort : UInt16) (t : Turn) (d : Datagram) (s : RecvState) :
    Option RecvState := do
  let s := { s.record (.packet t.nowUs d.bytes s.fromPort) with
    pktCount := s.pktCount + 1
    consecutiveEmpty := 0
    lastDataUs := t.nowUs
    idleIdrRequested := false }
  let s ← s.produce (.receive d.bytes)
  if s.fromPort = audioServerPort ∧ isAudioRtp d.bytes then
    (routeAudio t d.bytes s).produce .discard
  else
    let s ← (countVideo t d.bytes s).consume t.beforeAdmission
    admitPacket t d.bytes s

/-- One turn of `network_recv_thread`. -/
def recvTurn (audioServerPort : UInt16) (s : RecvState) (t : Turn) : Option RecvState := do
  let s ← s.consume t.beforeRecv
  match poll t s with
  | (.data d, s) => receivePacket audioServerPort t d s
  | (.empty, s) => return pollEmpty t s
  | (.failed, s) => return s.record .failed

/-- `network_recv_thread`, if every step of the decoder thread is possible. -/
def networkRecvThread (audioServerPort : UInt16) (s : RecvState) (ts : List Turn) :
    Option RecvState :=
  ts.foldlM (recvTurn audioServerPort) s

end MoonlightPsp.Net

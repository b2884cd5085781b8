import MoonlightPsp.Control.Threads
import MoonlightPsp.Lib.BufferWalk
import MoonlightPsp.Lib.CheckedMemory

/-!
# The receive thread of the control channel

A datagram from the server holds a header and a sequence of ENet commands.  The
thread walks over them: it acknowledges each that asks for it, and then does what
the command says.  The payload of a reliable command is a control message, in
clear or encrypted.

All reads of the datagram and of a message are checked: one behind the end has no
result.  What the system calls for the command at a position return is an
argument, as is what other threads know of the video.
-/

namespace MoonlightPsp.Control

open BufferWalk CheckedMemory

/-! ## Constants -/

/-- `ENET_FLAG_COMPRESSED`. -/
def enetFlagCompressed : UInt16 := 0x4000

/-- `ENET_FLAG_MASK`. -/
def enetFlagMask : UInt16 := enetFlagCompressed ||| enetFlagSentTime

/-- `ENET_CMD_ACK`. -/
def enetCmdAck : UInt8 := 1

/-- `ENET_CMD_CONNECT`. -/
def enetCmdConnect : UInt8 := 2

/-- `ENET_CMD_VERIFY`. -/
def enetCmdVerify : UInt8 := 3

/-- `ENET_CMD_DISCONNECT`. -/
def enetCmdDisconnect : UInt8 := 4

/-- `ENET_CMD_PING`. -/
def enetCmdPing : UInt8 := 5

/-- `ENET_CMD_SEND_UNRELIABLE`. -/
def enetCmdSendUnreliable : UInt8 := 7

/-- `ENET_CMD_SEND_FRAGMENT`. -/
def enetCmdSendFragment : UInt8 := 8

/-- `ENET_CMD_BANDWIDTH_LIMIT`. -/
def enetCmdBandwidthLimit : UInt8 := 10

/-- `ENET_CMD_THROTTLE_CONFIGURE`. -/
def enetCmdThrottleConfigure : UInt8 := 11

/-- `ENET_CMD_SEND_UNRELIABLE_FRAGMENT`. -/
def enetCmdSendUnreliableFragment : UInt8 := 12

/-! ## Numbers on the wire -/

/-- `get_be16`. -/
def getBe16 (data : List UInt8) (i : ℕ) : Option UInt16 := do
  let high ← data[i]?
  let low ← data[i + 1]?
  some (high.toUInt16 <<< 8 ||| low.toUInt16)

/-- `get_le16`. -/
def getLe16 (data : List UInt8) (i : ℕ) : Option UInt16 := do
  let low ← data[i]?
  let high ← data[i + 1]?
  some (low.toUInt16 ||| high.toUInt16 <<< 8)

/-- `get_le32`. -/
def getLe32 (data : List UInt8) (i : ℕ) : Option UInt32 := do
  let low ← getLe16 data i
  let high ← getLe16 data (i + 2)
  some (low.toUInt32 ||| high.toUInt32 <<< 16)

/-- Four bytes in big-endian order. -/
def getBe32 (data : List UInt8) (i : ℕ) : Option UInt32 := do
  let high ← getBe16 data i
  let low ← getBe16 data (i + 2)
  some (high.toUInt32 <<< 16 ||| low.toUInt32)

/-! ## State -/

/-- The statics of the IDR backoff. -/
structure IdrPacing where
  lastIdrTick : UInt64
  idrCount : Int32
  idrBackoffUs : UInt32
  idrPrevDecoded : Bool
  intraIdrSuppressed : UInt32

/-- What the receive thread works on.  `replies` are the hello echoes and IDR
requests that went to the socket, and `acks` the ACKs, with the position of the
command. -/
structure Receiver where
  globals : Globals
  serverHelloSeen : Bool
  idr : IdrPacing
  receivedDisconnect : Bool
  serverIncomingBw : UInt32
  serverOutgoingBw : UInt32
  throttleInterval : UInt32
  throttleAccel : UInt32
  throttleDecel : UInt32
  replies : List Packet
  acks : List (ℕ × Packet)

/-! ## IDR requests -/

/-- What an IDR request reads: the state of the video, the clock in
`control_stream_request_idr_force` or `control_stream_request_idr_recovery_fast` and
in `control_stream_request_idr`, and the system calls of the send. -/
structure IdrEnv where
  idrFullyDecoded : Bool
  lastGoodFrame : UInt32
  waitingForIdr : Bool
  intraRefreshActive : Bool
  forceTick : UInt64
  tick : UInt64
  build : BuildEnv
  tx : ℤ
  now : UInt32

/-- No frame was decoded yet. -/
def IdrEnv.startupWait (env : IdrEnv) : Bool :=
  !env.idrFullyDecoded && env.lastGoodFrame == 0

/-- `control_stream_reset_idr_backoff`. -/
def IdrPacing.reset : IdrPacing := ⟨0, 0, 500000, false, 0⟩

/-- The backoff is relaxed when an IDR frame was decoded, and during startup. -/
def IdrPacing.relax (i : IdrPacing) (env : IdrEnv) : IdrPacing :=
  let backoff := if env.idrFullyDecoded ∧ !i.idrPrevDecoded then
      let half := if i.idrBackoffUs > 500000 then i.idrBackoffUs / 2
        else i.idrBackoffUs
      if half < 500000 then 500000 else half
    else i.idrBackoffUs
  { i with
    idrBackoffUs := if env.startupWait ∧ backoff > 500000 then 500000
      else backoff
    idrPrevDecoded := env.idrFullyDecoded }

/-- A request came too soon after the last one. -/
def IdrPacing.throttled (i : IdrPacing) (tick : UInt64) : Bool :=
  decide (i.idrCount ≥ 1 ∧ i.lastIdrTick ≠ 0 ∧
    tick - i.lastIdrTick < i.idrBackoffUs.toUInt64)

/-- A request is made, and doubles the backoff of the next one. -/
def IdrPacing.count (i : IdrPacing) (env : IdrEnv) : IdrPacing :=
  let doubled := i.idrBackoffUs * 2
  { i with
    lastIdrTick := env.tick
    idrCount := i.idrCount + 1
    idrBackoffUs := if !env.startupWait ∧ i.idrCount + 1 ≥ 2 then
        if doubled > 2000000 then 2000000 else doubled
      else i.idrBackoffUs }

/-- `control_stream_request_idr`: the return value and the state after. -/
def controlStreamRequestIdr (gcm : Gcm) (env : IdrEnv) (r : Receiver) :
    ℤ × Receiver :=
  if env.intraRefreshActive && !env.startupWait && !env.waitingForIdr then
    (0, { r with
      idr := { r.idr with
        intraIdrSuppressed := r.idr.intraIdrSuppressed + 1 } })
  else if !r.globals.socketOpen || !r.globals.ctrlRunning then (-1, r)
  else
    let idr := r.idr.relax env
    if idr.throttled env.tick then (0, { r with idr })
    else
      match buildSite gcm env.build r.globals .idrRequest with
      | (none, c) => (-2, { r with globals := c, idr := idr.count env })
      | (some pkt, c) =>
          (if env.tx > 0 then 0 else -3, { r with
            globals := finishSite c pkt env.tx env.now
            idr := idr.count env
            replies := r.replies ++ [pkt] })

/-- `control_stream_request_idr_force`. -/
def controlStreamRequestIdrForce (gcm : Gcm) (env : IdrEnv) (r : Receiver) :
    ℤ × Receiver :=
  let last := r.idr.lastIdrTick
  if !env.startupWait then
    if last ≠ 0 ∧ env.forceTick - last < 2000000 then (0, r)
    else if r.idr.idrBackoffUs < 2000000 then
      controlStreamRequestIdr gcm env
        { r with idr := { r.idr with idrBackoffUs := 2000000 } }
    else controlStreamRequestIdr gcm env r
  else if last ≠ 0 ∧ env.forceTick - last < 500000 then (0, r)
  else
    controlStreamRequestIdr gcm env
      { r with idr := { r.idr with idrCount := 0, idrBackoffUs := 500000 } }

/-- `control_stream_request_idr_startup`. -/
def controlStreamRequestIdrStartup (gcm : Gcm) (env : IdrEnv) (r : Receiver) :
    ℤ × Receiver :=
  if env.idrFullyDecoded || env.lastGoodFrame != 0 then (0, r)
  else controlStreamRequestIdrForce gcm env r

/-! ## Control messages -/

/-- `mbedtls_gcm_auth_decrypt` with the key of the session: the plaintext, if the
tag is right. -/
abbrev AuthDecrypt := (iv tag ciphertext : List UInt8) →
  Option { plaintext : List UInt8 // plaintext.length = ciphertext.length }

/-- A decoded message. -/
structure ControlMessage where
  msgType : UInt16
  payload : List UInt8
deriving DecidableEq

/-- The initialisation vector of the host: the sequence number, six zeros and
`HC`. -/
def hostIv (seq : UInt32) : List UInt8 :=
  putLe32 seq ++ [0, 0, 0, 0, 0, 0, 0x48, 0x43]

/-- `sizeof(scratch)`. -/
def scratchSize : ℕ := 256

/-- The encrypted form in `decode_control_message`. -/
def decodeEncrypted (authDecrypt : AuthDecrypt) (gcmTaken : Bool)
    (data : List UInt8) : Option (Option ControlMessage) := do
  if data.length < 24 then some none
  else
    let encLen ← getLe16 data 2
    if encLen < 24 ∨ encLen.toNat + 4 > data.length then some none
    else
      let seq ← getLe32 data 4
      let tag ← slice data 8 16
      let ciphertextLen := encLen.toNat - 20
      if ciphertextLen = 0 ∨ ciphertextLen > scratchSize then some none
      else if !gcmTaken then some none
      else
        let ciphertext ← slice data 24 ciphertextLen
        match authDecrypt (hostIv seq) tag ciphertext with
        | none => some none
        | some scratch =>
            if ciphertextLen < 4 then some none
            else
              let msgType ← getLe16 scratch.1 0
              let payloadLen ← getLe16 scratch.1 2
              if payloadLen.toNat > ciphertextLen - 4 then some none
              else
                let payload ← slice scratch.1 4 payloadLen.toNat
                some (some ⟨msgType, payload⟩)

/-- `decode_control_message`; the inner option is the return value. -/
def decodeControlMessage (authDecrypt : AuthDecrypt) (gcmTaken : Bool)
    (data : List UInt8) : Option (Option ControlMessage) := do
  if data.length < 4 then some none
  else
    let marker ← getLe16 data 0
    if marker = 0x0001 then decodeEncrypted authDecrypt gcmTaken data
    else
      let payload ← slice data 2 (data.length - 2)
      some (some ⟨marker, payload⟩)

/-- What the system calls for one message return. -/
structure MessageEnv where
  gcmTaken : Bool
  replyBuild : BuildEnv
  replyTx : ℤ
  replyNow : UInt32
  idr : IdrEnv

/-- The server hello is echoed, and the first one asks for an IDR frame if none
was decoded. -/
def handleHello (gcm : Gcm) (env : MessageEnv) (r : Receiver)
    (payload : List UInt8) : Receiver :=
  match buildSite gcm env.replyBuild r.globals (.helloEcho payload) with
  | (none, c) => { r with globals := c }
  | (some pkt, c) =>
      let r := { r with
        globals := finishSite c pkt env.replyTx env.replyNow
        replies := r.replies ++ [pkt] }
      if r.serverHelloSeen then r
      else
        let r := { r with serverHelloSeen := true }
        if env.idr.startupWait then
          (controlStreamRequestIdrStartup gcm env.idr
            { r with idr := .reset }).2
        else r

/-- The end of the stream: paused for type 0x0109, else stopped. -/
def handleTermination (r : Receiver) (msgType : UInt16) : Receiver :=
  { r with
    globals := { r.globals with
      streamStatus := if msgType = 0x0109 then 2 else 1
      meRunning := false } }

/-- What is read for the log lines: the reason of a termination, or the start of
the payload of an unknown message. -/
def readForLog (m : ControlMessage) : Option Unit := do
  if m.msgType = 0x0109 ∧ m.payload.length ≥ 4 then
    let _ ← getBe32 m.payload 0
  else if m.msgType = 0x0100 ∨ m.msgType = 0x0109 then
    if m.payload.length ≥ 2 then
      let _ ← getLe16 m.payload 0
  else
    let _ ← slice m.payload 0 (min m.payload.length 16)

/-- What a decoded message does. -/
def handleMessage (gcm : Gcm) (env : MessageEnv) (r : Receiver)
    (m : ControlMessage) : Receiver :=
  if m.msgType = 0x010E then handleHello gcm env r m.payload
  else if m.msgType = 0x0100 ∨ m.msgType = 0x0109 then
    handleTermination r m.msgType
  else r

/-! ## Commands -/

/-- What the system calls for one command return. -/
structure CommandEnv where
  inputTaken : Bool
  now : UInt32
  message : MessageEnv

/-- A datagram, with what the system calls for the command at a position
return. -/
structure Delivery where
  datagram : Packet
  env : ℕ → CommandEnv

/-- `build_ack_packet`. -/
def buildAckPacket (c : Globals) (buflen : ℕ) (channelId : UInt8)
    (relSeq recvTime : UInt16) : Option Packet :=
  if buflen < 4 then none
  else if buflen - 4 < 8 then none
  else
    some (enetHeader c ++ ([enetCmdAck, channelId] ++ (putBe16 0 ++
      (putBe16 relSeq ++ putBe16 recvTime))))

/-- The ACK of the command at a position is sent, from a buffer of 32 bytes. -/
def Receiver.sendAck (r : Receiver) (p : ℕ) (channelId : UInt8)
    (relSeq recvTime : UInt16) : Receiver :=
  match buildAckPacket r.globals 32 channelId relSeq recvTime with
  | none => r
  | some pkt => { r with acks := r.acks ++ [(p, pkt)] }

/-- An ACK. -/
def recvAck (x : Delivery) (r : Receiver) (p : ℕ) (channelId : UInt8) :
    Option (Receiver × Option ℕ) := do
  if p + 8 > x.datagram.length then some (r, none)
  else
    let ackedSeq ← getBe16 x.datagram (p + 4)
    some ({ r with
      globals := retxAck r.globals channelId ackedSeq (x.env p).now
        (x.env p).inputTaken }, some (p + 8))

/-- A command of fixed size that is skipped. -/
def skipFixed (x : Delivery) (r : Receiver) (p size : ℕ) :
    Option (Receiver × Option ℕ) :=
  if p + size > x.datagram.length then some (r, none)
  else some (r, some (p + size))

/-- A disconnect, which ends the walk; its bytes are logged. -/
def recvDisconnect (x : Delivery) (r : Receiver) (p : ℕ) :
    Option (Receiver × Option ℕ) := do
  if p + 8 > x.datagram.length then some (r, none)
  else
    let _ ← slice x.datagram p 8
    some ({ r with receivedDisconnect := true }, none)

/-- The control message in the payload of a reliable command. -/
def recvMessage (gcm : Gcm) (authDecrypt : AuthDecrypt) (env : MessageEnv)
    (r : Receiver) (payload : List UInt8) : Option Receiver := do
  if payload.length ≥ 4 then
    match ← decodeControlMessage authDecrypt env.gcmTaken payload with
    | none => some r
    | some m =>
        let _ ← readForLog m
        some (handleMessage gcm env r m)
  else some r

/-- A reliable command. -/
def recvReliable (gcm : Gcm) (authDecrypt : AuthDecrypt) (x : Delivery)
    (r : Receiver) (p : ℕ) : Option (Receiver × Option ℕ) := do
  if p + 6 > x.datagram.length then some (r, none)
  else
    let payloadLen ← getBe16 x.datagram (p + 4)
    if p + 6 + payloadLen.toNat > x.datagram.length then some (r, none)
    else
      let payload ← slice x.datagram (p + 6) payloadLen.toNat
      let r ← recvMessage gcm authDecrypt (x.env p).message r payload
      some (r, some (p + 6 + payloadLen.toNat))

/-- A command with a payload that is skipped; the length is at offset `field` of
its header. -/
def skipPayload (x : Delivery) (r : Receiver) (p header field : ℕ) :
    Option (Receiver × Option ℕ) := do
  if p + header > x.datagram.length then some (r, none)
  else
    let payloadLen ← getBe16 x.datagram (p + field)
    if p + header + payloadLen.toNat > x.datagram.length then some (r, none)
    else some (r, some (p + header + payloadLen.toNat))

/-- A bandwidth limit. -/
def recvBandwidthLimit (x : Delivery) (r : Receiver) (p : ℕ) :
    Option (Receiver × Option ℕ) := do
  if p + 12 > x.datagram.length then some (r, none)
  else
    let serverIncomingBw ← getBe32 x.datagram (p + 4)
    let serverOutgoingBw ← getBe32 x.datagram (p + 8)
    some ({ r with serverIncomingBw, serverOutgoingBw }, some (p + 12))

/-- A throttle configuration. -/
def recvThrottleConfigure (x : Delivery) (r : Receiver) (p : ℕ) :
    Option (Receiver × Option ℕ) := do
  if p + 16 > x.datagram.length then some (r, none)
  else
    let throttleInterval ← getBe32 x.datagram (p + 4)
    let throttleAccel ← getBe32 x.datagram (p + 8)
    let throttleDecel ← getBe32 x.datagram (p + 12)
    some ({ r with throttleInterval, throttleAccel, throttleDecel },
      some (p + 16))

/-- What comes behind the ACK: the branch of the command. -/
def dispatch (gcm : Gcm) (authDecrypt : AuthDecrypt) (x : Delivery)
    (r : Receiver) (p : ℕ) (cmdNum channelId : UInt8) :
    Option (Receiver × Option ℕ) :=
  if cmdNum = enetCmdAck then recvAck x r p channelId
  else if cmdNum = enetCmdConnect then skipFixed x r p 48
  else if cmdNum = enetCmdVerify then skipFixed x r p 44
  else if cmdNum = enetCmdDisconnect then recvDisconnect x r p
  else if cmdNum = enetCmdPing then some (r, some (p + 4))
  else if cmdNum = enetCmdSendReliable then
    recvReliable gcm authDecrypt x r p
  else if cmdNum = enetCmdSendUnreliable then skipPayload x r p 8 6
  else if cmdNum = enetCmdSendFragment then skipPayload x r p 24 4
  else if cmdNum = enetCmdSendUnsequenced then skipPayload x r p 8 6
  else if cmdNum = enetCmdBandwidthLimit then recvBandwidthLimit x r p
  else if cmdNum = enetCmdThrottleConfigure then recvThrottleConfigure x r p
  else if cmdNum = enetCmdSendUnreliableFragment then skipPayload x r p 24 4
  else some (r, none)

/-- One turn of the loop over the commands. -/
def commandTurn (gcm : Gcm) (authDecrypt : AuthDecrypt) (x : Delivery)
    (recvSentTime : UInt16) (r : Receiver) (p : ℕ) :
    Option (Receiver × Option ℕ) := do
  let cmd ← x.datagram[p]?
  let channelId ← x.datagram[p + 1]?
  let relSeq ← getBe16 x.datagram (p + 2)
  let r := if cmd &&& enetCmdFlagAck ≠ 0 then
      r.sendAck p channelId relSeq recvSentTime
    else r
  dispatch gcm authDecrypt x r p (cmd &&& 0x0F) channelId

/-- The loop over the commands. -/
def commandWalk (gcm : Gcm) (authDecrypt : AuthDecrypt) (x : Delivery)
    (recvSentTime : UInt16) : Walk Receiver where
  length := x.datagram.length
  header := 4
  turn := commandTurn gcm authDecrypt x recvSentTime

/-! ## Datagrams -/

/-- Where the commands of a datagram start and the sent time of its header, if
the walk gets to them. -/
def readHeader (d : Packet) : Option (Option (ℕ × UInt16)) := do
  if d.length < 4 then some none
  else
    let peerHeader ← getBe16 d 0
    let headerFlags := peerHeader &&& enetFlagMask
    let headerSize := if headerFlags &&& enetFlagSentTime ≠ 0 then 4 else 2
    if d.length < headerSize then some none
    else if headerFlags &&& enetFlagCompressed ≠ 0 then some none
    else if headerFlags &&& enetFlagSentTime ≠ 0 then
      let recvSentTime ← getBe16 d 2
      some (some (headerSize, recvSentTime))
    else some (some (headerSize, 0))

/-- What `ctrl_recv_thread` does with a datagram. -/
def receiveDatagram (gcm : Gcm) (authDecrypt : AuthDecrypt) (r : Receiver)
    (x : Delivery) : Option Receiver := do
  match ← readHeader x.datagram with
  | none => some r
  | some (start, recvSentTime) =>
      (commandWalk gcm authDecrypt x recvSentTime).run x.datagram.length r start

/-- The loop of `ctrl_recv_thread`. -/
def ctrlRecvThread (gcm : Gcm) (authDecrypt : AuthDecrypt) (r : Receiver) :
    List Delivery → Option Receiver
  | [] => some r
  | x :: xs =>
      if r.globals.ctrlRunning ∧ r.globals.meRunning then do
        let r ← receiveDatagram gcm authDecrypt r x
        ctrlRecvThread gcm authDecrypt r xs
      else some r

end MoonlightPsp.Control

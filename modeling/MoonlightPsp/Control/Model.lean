import Mathlib.Algebra.GroupWithZero.Nat
import Mathlib.Logic.Function.Basic
import Mathlib.Tactic.Common
import MoonlightPsp.Wire

/-!
# Packets of the control channel

The control channel speaks ENet to the server.  A message is encrypted under a
sequence number of its own, and goes out either reliably, under the next
reliable sequence number of its ENet channel, or unsequenced.

The system calls a builder makes are its environment: whether a semaphore was
taken in time, and what the cipher returns.
-/

namespace MoonlightPsp.Control

/-! ## Constants -/

/-- `ENET_FLAG_SENT_TIME`. -/
def enetFlagSentTime : UInt16 := 0x8000

/-- `ENET_CMD_SEND_RELIABLE`. -/
def enetCmdSendReliable : UInt8 := 6

/-- `ENET_CMD_SEND_UNSEQUENCED`. -/
def enetCmdSendUnsequenced : UInt8 := 9

/-- `ENET_CMD_FLAG_ACK`. -/
def enetCmdFlagAck : UInt8 := 0x80

/-- `CTRL_CHANNEL_COUNT`. -/
def ctrlChannelCount : UInt8 := 0x30

/-- `RETX_SLOTS`. -/
abbrev retxSlots : ℕ := 32

theorem retxSlots_pos : 0 < retxSlots := by decide

instance neZero_retxSlots : NeZero retxSlots := ⟨Nat.ne_of_gt retxSlots_pos⟩

/-- `RETX_PKT_MAX`. -/
def retxPktMax : ℕ := 128

/-! ## State -/

/-- `retx_entry_t`; `data` is as long as the packet in it. -/
structure RetxEntry where
  data : Packet
  channel : UInt8
  seq : UInt16
  sendTimeUs : UInt32
  retries : UInt8
  acked : Bool
  active : Bool

/-- A slot after `memset`. -/
def RetxEntry.zero : RetxEntry := ⟨[], 0, 0, 0, 0, false, false⟩

/-- The round trip estimator. -/
structure Rtt where
  srttUs : UInt32
  rttvarUs : UInt32
  rtoUs : UInt32
  initialized : Bool

/-- The estimator of a new session. -/
def Rtt.reset : Rtt := ⟨0, 150000, 300000, false⟩

/-- The globals of the control channel. -/
structure Globals where
  cryptoReady : Bool
  socketOpen : Bool
  ctrlRunning : Bool
  meRunning : Bool
  streamStatus : ℕ
  serverPeerId : UInt16
  sessionBits : UInt8
  reliableSeqPerCh : UInt8 → UInt16
  nextCtrlEncSeq : UInt32
  unsequencedGroup : UInt16
  retxRing : Fin retxSlots → RetxEntry
  retxHead : Fin retxSlots
  inputRetxRing : Fin retxSlots → RetxEntry
  inputFirstSendUs : Fin retxSlots → UInt32
  inputQueued : UInt32
  inputAcked : UInt32
  inputRetries : UInt32
  rtt : Rtt

/-! ## The cipher -/

/-- What AES-GCM makes of `n` bytes. -/
structure Sealed (n : ℕ) where
  tag : List UInt8
  ciphertext : List UInt8
  tag_length : tag.length = 16
  ciphertext_length : ciphertext.length = n

/-- `mbedtls_gcm_crypt_and_tag` with the key of the session: nothing if it
reports an error. -/
abbrev Gcm := (iv plaintext : List UInt8) → Option (Sealed plaintext.length)

/-- The system calls of a builder: the semaphore for the encryption sequence,
the one for the cipher, the one for the reliable sequence. -/
structure BuildEnv where
  encSeqTaken : Bool
  gcmTaken : Bool
  relSeqTaken : Bool

/-! ## Numbers on the wire -/

/-- `put_be16`. -/
def putBe16 (v : UInt16) : List UInt8 := [(v >>> 8).toUInt8, v.toUInt8]

/-- A `u16` in little-endian order. -/
def putLe16 (v : UInt16) : List UInt8 := [v.toUInt8, (v >>> 8).toUInt8]

/-- A `u32` in little-endian order. -/
def putLe32 (v : UInt32) : List UInt8 :=
  [v.toUInt8, (v >>> 8).toUInt8, (v >>> 16).toUInt8, (v >>> 24).toUInt8]

/-! ## Sequence numbers -/

/-- The state after a reliable sequence number of `channel` is taken. -/
def Globals.takeReliableSeq (c : Globals) (channel : UInt8) : Globals :=
  { c with
    reliableSeqPerCh := Function.update c.reliableSeqPerCh channel
      (c.reliableSeqPerCh channel + 1) }

/-- `alloc_reliable_seq_ch`. -/
def allocReliableSeqCh (c : Globals) (channel : UInt8) (taken : Bool) :
    Option (UInt16 × Globals) :=
  if channel ≥ ctrlChannelCount then none
  else if !taken then none
  else some (c.reliableSeqPerCh channel, c.takeReliableSeq channel)

/-- `alloc_ctrl_enc_seq`. -/
def allocCtrlEncSeq (c : Globals) (taken : Bool) : Option (UInt32 × Globals) :=
  if !taken then none
  else some (c.nextCtrlEncSeq, { c with nextCtrlEncSeq := c.nextCtrlEncSeq + 1 })

/-! ## ENet packets -/

/-- The protocol header: peer, session bits, flags, and a sent time of 0. -/
def enetHeader (c : Globals) : List UInt8 :=
  putBe16 (c.serverPeerId &&& (0x0FFF : UInt16) |||
    (c.sessionBits &&& (0x03 : UInt8)).toUInt16 <<< 12 |||
    enetFlagSentTime) ++ putBe16 0

/-- The packet `build_reliable_raw` writes. -/
def reliablePacket (c : Globals) (channel : UInt8) (relSeq : UInt16)
    (raw : List UInt8) : Packet :=
  enetHeader c ++ ([enetCmdSendReliable ||| enetCmdFlagAck, channel] ++
    (putBe16 relSeq ++ (putBe16 (UInt16.ofNat raw.length) ++ raw)))

/-- `build_reliable_raw`: the packet, and the state with the sequence number
taken. -/
def buildReliableRaw (c : Globals) (buflen : ℕ) (raw : List UInt8)
    (channel : UInt8) (taken : Bool) : Option (Packet × Globals) :=
  if buflen < 10 + 4 + raw.length then none
  else
    match allocReliableSeqCh c channel taken with
    | none => none
    | some (relSeq, c') => some (reliablePacket c channel relSeq raw, c')

/-- `pkt_get_channel_seq`. -/
def pktGetChannelSeq (pkt : Packet) : UInt8 × UInt16 :=
  if pkt.length ≥ 8 then (byteAt pkt 5, readBe16 pkt 6) else (0, 0)

/-- `build_unsequenced_raw`. -/
def buildUnsequencedRaw (c : Globals) (buflen : ℕ) (raw : List UInt8)
    (channel : UInt8) : Option (Packet × Globals) :=
  if buflen < 12 + raw.length then none
  else
    some (enetHeader c ++ ([enetCmdSendUnsequenced, channel] ++ (putBe16 0 ++
        (putBe16 c.unsequencedGroup ++
          (putBe16 (UInt16.ofNat raw.length) ++ raw)))),
      { c with unsequencedGroup := c.unsequencedGroup + 1 })

/-! ## Encrypted messages -/

/-- The largest payload, `sizeof(plaintext) - 4`. -/
def payloadMax : ℕ := 96 - 4

/-- What is encrypted: type, length and payload. -/
def controlPlaintext (msgType : UInt16) (payload : List UInt8) : List UInt8 :=
  putLe16 msgType ++ (putLe16 (UInt16.ofNat payload.length) ++ payload)

/-- The initialisation vector: the sequence number, six zeros and `CC`. -/
def controlIv (seq : UInt32) : List UInt8 :=
  putLe32 seq ++ [0, 0, 0, 0, 0, 0, 0x43, 0x43]

/-- The encrypted message: its header, the tag and the ciphertext. -/
def encryptedBlob (gcm : Gcm) (seq : UInt32) (msgType : UInt16)
    (payload : List UInt8) : Option (List UInt8) :=
  let plaintext := controlPlaintext msgType payload
  match gcm (controlIv seq) plaintext with
  | none => none
  | some out =>
      some ([0x01, 0x00] ++ (putLe16 (UInt16.ofNat (4 + 16 + plaintext.length)) ++
        (putLe32 seq ++ (out.tag ++ out.ciphertext))))

/-- The part the two builders share: a sequence number is taken, and the message
encrypted under it. -/
def encryptMsg (gcm : Gcm) (env : BuildEnv) (c : Globals) (msgType : UInt16)
    (payload : List UInt8) : Option (List UInt8) × Globals :=
  if !c.cryptoReady then (none, c)
  else if payload.length > payloadMax then (none, c)
  else
    match allocCtrlEncSeq c env.encSeqTaken with
    | none => (none, c)
    | some (seq, c') =>
        if !env.gcmTaken then (none, c')
        else (encryptedBlob gcm seq msgType payload, c')

/-- `build_encrypted_control_msg`. -/
def buildEncryptedControlMsg (gcm : Gcm) (env : BuildEnv) (c : Globals)
    (buflen : ℕ) (msgType : UInt16) (payload : List UInt8) (channel : UInt8) :
    Option Packet × Globals :=
  match encryptMsg gcm env c msgType payload with
  | (none, c') => (none, c')
  | (some blob, c') =>
      match buildReliableRaw c' buflen blob channel env.relSeqTaken with
      | none => (none, c')
      | some (pkt, c'') => (some pkt, c'')

/-- `build_encrypted_unsequenced_msg`. -/
def buildEncryptedUnsequencedMsg (gcm : Gcm) (env : BuildEnv) (c : Globals)
    (buflen : ℕ) (msgType : UInt16) (payload : List UInt8) (channel : UInt8) :
    Option Packet × Globals :=
  match encryptMsg gcm env c msgType payload with
  | (none, c') => (none, c')
  | (some blob, c') =>
      match buildUnsequencedRaw c' buflen blob channel with
      | none => (none, c')
      | some (pkt, c'') => (some pkt, c'')

/-! ## What the builders change -/

theorem allocReliableSeqCh_eq_some {c c' : Globals} {channel : UInt8}
    {taken : Bool} {seq : UInt16}
    (h : allocReliableSeqCh c channel taken = some (seq, c')) :
    channel < ctrlChannelCount ∧ seq = c.reliableSeqPerCh channel ∧
      c' = c.takeReliableSeq channel := by
  unfold allocReliableSeqCh at h
  split_ifs at h with hchannel htaken
  simp only [Option.some.injEq, Prod.mk.injEq] at h
  exact ⟨by simpa using hchannel, h.1.symm, h.2.symm⟩

/-- A built reliable packet carries the sequence number that was taken for it. -/
theorem buildReliableRaw_eq_some {c c' : Globals} {buflen : ℕ}
    {raw : List UInt8} {channel : UInt8} {taken : Bool} {pkt : Packet}
    (h : buildReliableRaw c buflen raw channel taken = some (pkt, c')) :
    10 + 4 + raw.length ≤ buflen ∧
      pkt = reliablePacket c channel (c.reliableSeqPerCh channel) raw ∧
      c' = c.takeReliableSeq channel := by
  unfold buildReliableRaw at h
  split_ifs at h with hlen
  split at h
  · cases h
  · rename_i relSeq c₁ halloc
    obtain ⟨-, rfl, rfl⟩ := allocReliableSeqCh_eq_some halloc
    simp only [Option.some.injEq, Prod.mk.injEq] at h
    exact ⟨by omega, h.1.symm, h.2.symm⟩

/-- Encrypting changes nothing but the counter of the encryption. -/
theorem encryptMsg_snd (gcm : Gcm) (env : BuildEnv) (c : Globals)
    (msgType : UInt16) (payload : List UInt8) :
    ∃ n, (encryptMsg gcm env c msgType payload).2 =
      { c with nextCtrlEncSeq := n } := by
  unfold encryptMsg allocCtrlEncSeq
  split_ifs <;> exact ⟨_, rfl⟩

/-- A reliable build either fails, and then takes at most an encryption number,
or takes the next reliable number of its channel and puts it in the packet. -/
theorem buildEncryptedControlMsg_cases (gcm : Gcm) (env : BuildEnv)
    (c : Globals) (buflen : ℕ) (msgType : UInt16) (payload : List UInt8)
    (channel : UInt8) :
    ∃ n, (buildEncryptedControlMsg gcm env c buflen msgType payload channel =
        (none, { c with nextCtrlEncSeq := n }) ∨
      ∃ raw : List UInt8, 10 + 4 + raw.length ≤ buflen ∧
        buildEncryptedControlMsg gcm env c buflen msgType payload channel =
          (some (reliablePacket c channel (c.reliableSeqPerCh channel) raw),
            { c.takeReliableSeq channel with nextCtrlEncSeq := n })) := by
  obtain ⟨n, hn⟩ := encryptMsg_snd gcm env c msgType payload
  refine ⟨n, ?_⟩
  unfold buildEncryptedControlMsg
  split
  · rename_i c' heq
    rw [heq] at hn
    exact .inl (by rw [← hn])
  · rename_i blob c' heq
    rw [heq] at hn
    obtain rfl : c' = { c with nextCtrlEncSeq := n } := hn
    split
    · exact .inl rfl
    · rename_i pkt c'' hbuild
      obtain ⟨hlen, rfl, rfl⟩ := buildReliableRaw_eq_some hbuild
      exact .inr ⟨blob, hlen, rfl⟩

/-- An unsequenced build takes an encryption number and a group number. -/
theorem buildEncryptedUnsequencedMsg_snd (gcm : Gcm) (env : BuildEnv)
    (c : Globals) (buflen : ℕ) (msgType : UInt16) (payload : List UInt8)
    (channel : UInt8) :
    ∃ n g, (buildEncryptedUnsequencedMsg gcm env c buflen msgType payload
      channel).2 = { c with nextCtrlEncSeq := n, unsequencedGroup := g } := by
  obtain ⟨n, hn⟩ := encryptMsg_snd gcm env c msgType payload
  unfold buildEncryptedUnsequencedMsg
  split
  · rename_i c' heq
    rw [heq] at hn
    exact ⟨n, c.unsequencedGroup, hn⟩
  · rename_i blob c' heq
    rw [heq] at hn
    obtain rfl : c' = { c with nextCtrlEncSeq := n } := hn
    unfold buildUnsequencedRaw
    split
    · exact ⟨n, c.unsequencedGroup, rfl⟩
    · rename_i pkt c'' hbuild
      split_ifs at hbuild
      simp only [Option.some.injEq, Prod.mk.injEq] at hbuild
      exact ⟨n, c.unsequencedGroup + 1, hbuild.2.symm⟩

/-! ## Reading a packet back -/

theorem reliablePacket_length (c : Globals) (channel : UInt8) (seq : UInt16)
    (raw : List UInt8) :
    (reliablePacket c channel seq raw).length = 10 + raw.length := by
  simp only [reliablePacket, enetHeader, putBe16, List.length_append,
    List.length_cons, List.length_nil]
  omega

theorem byteAt_reliablePacket_channel (c : Globals) (channel : UInt8)
    (seq : UInt16) (raw : List UInt8) :
    byteAt (reliablePacket c channel seq raw) 5 = channel := rfl

theorem readBe16_reliablePacket (c : Globals) (channel : UInt8)
    (seq : UInt16) (raw : List UInt8) :
    readBe16 (reliablePacket c channel seq raw) 6 = seq :=
  be16_roundTrip seq

/-- The channel and the sequence number read back from a built packet. -/
theorem pktGetChannelSeq_reliablePacket (c : Globals) (channel : UInt8)
    (seq : UInt16) (raw : List UInt8) :
    pktGetChannelSeq (reliablePacket c channel seq raw) = (channel, seq) := by
  unfold pktGetChannelSeq
  rw [if_pos (by rw [reliablePacket_length]; omega),
    byteAt_reliablePacket_channel, readBe16_reliablePacket]

end MoonlightPsp.Control

import MoonlightPsp.Control.Receive

/-!
# Only what was received whole is acted on

The walk over the commands of a datagram should send an ACK only for a command
whose bytes are all there, and stop at the first other one without acting on it.
The ACK goes out before any length is checked, and the length of a fragment is
read from the field before it.  Apart from this the walk stays inside of the
datagram, and ends.
-/

namespace MoonlightPsp.Control

open BufferWalk CheckedMemory

/-! ## Commands -/

/-- The number of the command at a position. -/
def cmdNumAt (d : Packet) (p : ℕ) : UInt8 := byteAt d p &&& 0x0F

/-- A command of fixed size that is there. -/
def fixedSize (d : Packet) (p size : ℕ) : Option ℕ :=
  if p + size ≤ d.length then some size else none

/-- A command with a payload that is there; the length of the payload is at
offset `field` of the header. -/
def payloadSize (d : Packet) (p header field : ℕ) : Option ℕ :=
  let size := header + (readBe16 d (p + field)).toNat
  if p + header ≤ d.length ∧ p + size ≤ d.length then some size else none

/-- The size that the walk takes for that of a command with this number, if the
number is known and all of it is in the datagram. -/
def commandSize (d : Packet) (p : ℕ) (cmdNum : UInt8) : Option ℕ :=
  match cmdNum.toNat with
  | 1 => fixedSize d p 8
  | 2 => fixedSize d p 48
  | 3 => fixedSize d p 44
  | 4 => fixedSize d p 8
  | 5 => fixedSize d p 4
  | 6 => payloadSize d p 6 4
  | 7 => payloadSize d p 8 6
  | 8 => payloadSize d p 24 4
  | 9 => payloadSize d p 8 6
  | 10 => fixedSize d p 12
  | 11 => fixedSize d p 16
  | 12 => payloadSize d p 24 4
  | _ => none

/-- The size of a command as ENet lays it out, header and declared payload.  The
header of a fragment has its start sequence number at offset 4, and the length of
its payload behind that. -/
def enetSize (d : Packet) (p : ℕ) (cmdNum : UInt8) : Option ℕ :=
  match cmdNum.toNat with
  | 8 => payloadSize d p 24 6
  | 12 => payloadSize d p 24 6
  | _ => commandSize d p cmdNum

/-- The size of the command at a position, as the walk takes it. -/
def walkSize (d : Packet) (p : ℕ) : Option ℕ := commandSize d p (cmdNumAt d p)

/-- Its size as ENet lays it out. -/
def wholeSize (d : Packet) (p : ℕ) : Option ℕ := enetSize d p (cmdNumAt d p)

/-- The command at a position was received whole. -/
def Whole (d : Packet) (p : ℕ) : Prop := (wholeSize d p).isSome = true

/-- The command at a position wants an ACK. -/
def AsksAck (d : Packet) (p : ℕ) : Prop := byteAt d p &&& enetCmdFlagAck ≠ 0

instance (d : Packet) (p : ℕ) : Decidable (Whole d p) :=
  inferInstanceAs (Decidable (_ = true))

instance (d : Packet) (p : ℕ) : Decidable (AsksAck d p) :=
  inferInstanceAs (Decidable (_ ≠ _))

/-- Behind a command. -/
def behind (p : ℕ) (size : Option ℕ) : Option ℕ := size.map fun n => p + n

/-- Where the walk goes from a command with this number: behind it, but nowhere
after a disconnect. -/
def nextAfter (d : Packet) (p : ℕ) (cmdNum : UInt8) : Option ℕ :=
  if cmdNum = enetCmdDisconnect then none else behind p (commandSize d p cmdNum)

/-- Where the walk goes from a position. -/
def nextCommand (d : Packet) (p : ℕ) : Option ℕ := nextAfter d p (cmdNumAt d p)

/-- The positions behind the header of a datagram, each `next` to the one
before. -/
def positionsBy (next : Packet → ℕ → Option ℕ) (d : Packet) : List ℕ :=
  match readHeader d with
  | some (some (start, _)) => positions d.length 4 (next d) d.length start
  | _ => []

/-- The positions of the commands that the walk looks at. -/
def commandPositions (d : Packet) : List ℕ := positionsBy nextCommand d

/-- The positions at which the host has put a command. -/
def enetPositions (d : Packet) : List ℕ :=
  positionsBy (fun d p => behind p (wholeSize d p)) d

/-! ## What should hold -/

/-- A turn of the walk is about a command of the host, and reads nothing behind
the end; it sends an ACK only for a command that is there as a whole, and leaves
the state alone and stops where it is not. -/
structure TurnObeys (gcm : Gcm) (authDecrypt : AuthDecrypt) (x : Delivery)
    (recvSentTime : UInt16) (r : Receiver) (p : ℕ) : Prop where
  command : p ∈ enetPositions x.datagram
  inside : (commandTurn gcm authDecrypt x recvSentTime r p).isSome = true
  acks : ∀ r' o, commandTurn gcm authDecrypt x recvSentTime r p = some (r', o) →
    r'.acks ≠ r.acks → Whole x.datagram p
  stops : ¬Whole x.datagram p →
    commandTurn gcm authDecrypt x recvSentTime r p = some (r, none)

/-- The walk over a datagram has a result, and its turns are as they should
be. -/
def WalkObeys (gcm : Gcm) (authDecrypt : AuthDecrypt) (r : Receiver)
    (x : Delivery) : Prop :=
  (∃ t, receiveDatagram gcm authDecrypt r x = some t) ∧
    ∀ start recvSentTime, readHeader x.datagram = some (some (start, recvSentTime)) →
      (commandWalk gcm authDecrypt x recvSentTime).AtEachTurn
        (TurnObeys gcm authDecrypt x recvSentTime) x.datagram.length r start

/-! ## Reads -/

variable {d : Packet} {i p : ℕ}

theorem getElem?_eq_byteAt (h : i < d.length) : d[i]? = some (byteAt d i) := by
  rw [byteAt, List.getD_eq_getElem?_getD, List.getElem?_eq_getElem h]
  rfl

theorem getBe16_eq (h : i + 2 ≤ d.length) : getBe16 d i = some (readBe16 d i) := by
  rw [getBe16, getElem?_eq_byteAt (by omega), getElem?_eq_byteAt (by omega)]
  rfl

theorem getLe16_isSome (h : i + 2 ≤ d.length) : ∃ v, getLe16 d i = some v := by
  rw [getLe16, getElem?_eq_byteAt (by omega), getElem?_eq_byteAt (by omega)]
  exact ⟨_, rfl⟩

theorem getLe32_isSome (h : i + 4 ≤ d.length) : ∃ v, getLe32 d i = some v := by
  obtain ⟨low, hlow⟩ := getLe16_isSome (d := d) (i := i) (by omega)
  obtain ⟨high, hhigh⟩ := getLe16_isSome (d := d) (i := i + 2) (by omega)
  rw [getLe32, hlow, Option.bind_eq_bind, Option.bind_some, hhigh]
  exact ⟨_, rfl⟩

theorem getBe32_isSome (h : i + 4 ≤ d.length) : ∃ v, getBe32 d i = some v := by
  rw [getBe32, getBe16_eq (by omega), getBe16_eq (by omega)]
  exact ⟨_, rfl⟩

theorem bind_eq_of_eq {α β : Type} {o : Option α} {f : α → Option β} {a : α}
    (ho : o = some a) : (o >>= f) = f a := by
  rw [ho]
  rfl

/-! ## Messages -/

/-- GCM gives a plaintext for the sequence number, the tag and the ciphertext of
an encrypted payload, and the message is in it. -/
def Opens (authDecrypt : AuthDecrypt) (data : List UInt8) (m : ControlMessage) :
    Prop :=
  ∃ seq encLen scratch, getLe32 data 4 = some seq ∧
    getLe16 data 2 = some encLen ∧
    authDecrypt (hostIv seq) ((data.drop 8).take 16)
      ((data.drop 24).take (encLen.toNat - 20)) = some scratch ∧
    getLe16 scratch.1 0 = some m.msgType ∧ m.payload <+: scratch.1.drop 4

/-- Decoding stays inside of the message, and what it gives was opened by GCM. -/
theorem decodeEncrypted_spec (authDecrypt : AuthDecrypt) (gcmTaken : Bool)
    (data : List UInt8) :
    ∃ o, decodeEncrypted authDecrypt gcmTaken data = some o ∧
      ∀ m, o = some m → Opens authDecrypt data m := by
  have hnone : ∃ o : Option ControlMessage, some none = some o ∧
      ∀ m, o = some m → Opens authDecrypt data m :=
    ⟨none, rfl, fun m h => by cases h⟩
  rw [decodeEncrypted]
  split
  · exact hnone
  · rename_i hheader
    obtain ⟨encLen, hencLen⟩ := getLe16_isSome (d := data) (i := 2) (by omega)
    rw [bind_eq_of_eq hencLen]
    split
    · exact hnone
    · rename_i hwhole
      rw [not_or, UInt16.not_lt, not_lt] at hwhole
      have hmin : 24 ≤ encLen.toNat := UInt16.le_iff_toNat_le.mp hwhole.1
      obtain ⟨seq, hseq⟩ := getLe32_isSome (d := data) (i := 4) (by omega)
      rw [bind_eq_of_eq hseq, bind_eq_of_eq (slice_eq (by omega))]
      dsimp only
      split
      · exact hnone
      · split
        · exact hnone
        · rw [bind_eq_of_eq (slice_eq (by omega))]
          split
          · exact hnone
          · rename_i scratch hopened
            split
            · exact hnone
            · have hlength : ((data.drop 24).take (encLen.toNat - 20)).length =
                  encLen.toNat - 20 := by
                rw [List.length_take, List.length_drop]
                omega
              have hscratch := scratch.2.trans hlength
              obtain ⟨msgType, hmsgType⟩ := getLe16_isSome (d := scratch.1)
                (i := 0) (by omega)
              obtain ⟨payloadLen, hpayloadLen⟩ := getLe16_isSome
                (d := scratch.1) (i := 2) (by omega)
              rw [bind_eq_of_eq hmsgType, bind_eq_of_eq hpayloadLen]
              split
              · exact hnone
              · rw [bind_eq_of_eq (slice_eq (by omega))]
                refine ⟨_, rfl, fun m hm => ?_⟩
                obtain rfl := Option.some.inj hm
                exact ⟨seq, encLen, scratch, hseq, hencLen, hopened, hmsgType,
                  List.take_prefix _ _⟩

/-- Decoding stays inside of the message. -/
theorem decodeControlMessage_isSome (authDecrypt : AuthDecrypt)
    (gcmTaken : Bool) (data : List UInt8) :
    ∃ m, decodeControlMessage authDecrypt gcmTaken data = some m := by
  rw [decodeControlMessage]
  split
  · exact ⟨none, rfl⟩
  · rename_i hlength
    obtain ⟨marker, hmarker⟩ := getLe16_isSome (d := data) (i := 0) (by omega)
    rw [bind_eq_of_eq hmarker]
    split
    · obtain ⟨o, ho, -⟩ := decodeEncrypted_spec authDecrypt gcmTaken data
      exact ⟨o, ho⟩
    · rw [bind_eq_of_eq (slice_eq (by omega))]
      exact ⟨_, rfl⟩

theorem readForLog_isSome (m : ControlMessage) : readForLog m = some () := by
  rw [readForLog]
  split
  · rename_i hlong
    obtain ⟨v, hv⟩ := getBe32_isSome (d := m.payload) (i := 0) (by omega)
    rw [hv]
    rfl
  · split
    · split
      · rename_i hshort
        obtain ⟨v, hv⟩ := getLe16_isSome (d := m.payload) (i := 0) (by omega)
        rw [hv]
        rfl
      · rfl
    · rw [slice_eq (by omega)]
      rfl

/-! ## Acknowledgements -/

/-- Neither messages nor what they cause touch the list of ACKs. -/
theorem controlStreamRequestIdr_acks (gcm : Gcm) (env : IdrEnv)
    (r : Receiver) : (controlStreamRequestIdr gcm env r).2.acks = r.acks := by
  rw [controlStreamRequestIdr]
  split
  · rfl
  · split
    · rfl
    · dsimp only
      split
      · rfl
      · split
        · rfl
        · rfl

theorem controlStreamRequestIdrStartup_acks (gcm : Gcm) (env : IdrEnv)
    (r : Receiver) :
    (controlStreamRequestIdrStartup gcm env r).2.acks = r.acks := by
  rw [controlStreamRequestIdrStartup]
  split
  · rfl
  · rw [controlStreamRequestIdrForce]
    dsimp only
    split
    · split
      · rfl
      · split
        · exact controlStreamRequestIdr_acks gcm env _
        · exact controlStreamRequestIdr_acks gcm env _
    · split
      · rfl
      · exact controlStreamRequestIdr_acks gcm env _

theorem handleMessage_acks (gcm : Gcm) (env : MessageEnv) (r : Receiver)
    (m : ControlMessage) : (handleMessage gcm env r m).acks = r.acks := by
  rw [handleMessage]
  split
  · rw [handleHello]
    split
    · rfl
    · dsimp only
      split
      · rfl
      · split
        · exact controlStreamRequestIdrStartup_acks gcm env.idr _
        · rfl
  · split
    · rfl
    · rfl

/-! ## The session -/

/-- The globals that messages depend on. -/
def Globals.session (c : Globals) : Globals :=
  { c with
    retxRing := fun _ => .zero
    retxHead := ⟨0, retxSlots_pos⟩
    inputRetxRing := fun _ => .zero
    inputFirstSendUs := fun _ => 0
    inputQueued := 0
    inputAcked := 0
    inputRetries := 0
    rtt := Rtt.reset }

/-- The part of the receiver that messages depend on: all but the rings that wait
for ACKs, and what other commands leave. -/
def Receiver.session (r : Receiver) : Receiver :=
  { r with
    globals := r.globals.session
    receivedDisconnect := false
    serverIncomingBw := 0
    serverOutgoingBw := 0
    throttleInterval := 0
    throttleAccel := 0
    throttleDecel := 0
    acks := [] }

theorem retxAck_session (c : Globals) (channel : UInt8) (seq : UInt16)
    (now : UInt32) (taken : Bool) :
    (retxAck c channel seq now taken).session = c.session := by
  have hcontrol : ∀ c : Globals,
      (controlRetxAck c channel seq now).session = c.session := by
    intro c
    rw [controlRetxAck]
    split
    · rfl
    · rfl
  have hinput : (inputRetxAck c channel seq).session = c.session := by
    rw [inputRetxAck]
    split
    · rfl
    · rfl
  rw [retxAck, hcontrol]
  split
  · exact hinput
  · rfl

theorem session_of_globals {r : Receiver} {c : Globals}
    (h : c.session = r.globals.session) :
    Receiver.session { r with globals := c } = r.session := by
  rw [Receiver.session, Receiver.session]
  dsimp only
  rw [h]

/-! ## Branches -/

/-- What a branch of the walk does with a command of a size: it goes on at `next`
and sends no ACK; it leaves the state alone if the command is not whole, and the
session if the command is a `quiet` one. -/
def Handles (quiet : Prop) (r : Receiver) (size next : Option ℕ)
    (result : Option (Receiver × Option ℕ)) : Prop :=
  ∃ r', result = some (r', next) ∧ r'.acks = r.acks ∧
    (size = none → r' = r) ∧ (quiet → r'.session = r.session)

variable {x : Delivery} {r : Receiver}

theorem handles_stop {quiet : Prop} {size : Option ℕ} (h : size = none) :
    Handles quiet r size (behind p size) (some (r, none)) :=
  ⟨r, by rw [h]; rfl, rfl, fun _ => rfl, fun _ => rfl⟩

theorem handles_go {quiet : Prop} {size : Option ℕ} {n : ℕ} {r' : Receiver}
    (h : size = some n) (hacks : r'.acks = r.acks)
    (hsession : quiet → r'.session = r.session) :
    Handles quiet r size (behind p size) (some (r', some (p + n))) := by
  refine ⟨r', by rw [h]; rfl, hacks, fun hnone => ?_, hsession⟩
  rw [h] at hnone
  cases hnone

theorem Handles.mono {quiet quiet' : Prop} {size next : Option ℕ}
    {result : Option (Receiver × Option ℕ)} (h : Handles quiet r size next result)
    (himp : quiet' → quiet) : Handles quiet' r size next result := by
  obtain ⟨r', hresult, hacks, hpart, hsession⟩ := h
  exact ⟨r', hresult, hacks, hpart, hsession ∘ himp⟩

theorem fixedSize_of_lt {n : ℕ} (h : p + n > d.length) : fixedSize d p n = none :=
  if_neg (by omega)

theorem fixedSize_of_le {n : ℕ} (h : ¬p + n > d.length) :
    fixedSize d p n = some n := if_pos (by omega)

theorem recvAck_handles (channelId : UInt8) :
    Handles True r (fixedSize x.datagram p 8) (behind p (fixedSize x.datagram p 8))
      (recvAck x r p channelId) := by
  rw [recvAck]
  split
  · rename_i hshort
    exact handles_stop (fixedSize_of_lt hshort)
  · rename_i hwhole
    rw [bind_eq_of_eq (getBe16_eq (by omega))]
    exact handles_go (fixedSize_of_le hwhole) rfl fun _ =>
      session_of_globals (retxAck_session _ _ _ _ _)

theorem skipFixed_handles (n : ℕ) :
    Handles True r (fixedSize x.datagram p n) (behind p (fixedSize x.datagram p n))
      (skipFixed x r p n) := by
  rw [skipFixed]
  split
  · rename_i hshort
    exact handles_stop (fixedSize_of_lt hshort)
  · rename_i hwhole
    exact handles_go (fixedSize_of_le hwhole) rfl fun _ => rfl

theorem recvBandwidthLimit_handles :
    Handles True r (fixedSize x.datagram p 12)
      (behind p (fixedSize x.datagram p 12)) (recvBandwidthLimit x r p) := by
  rw [recvBandwidthLimit]
  split
  · rename_i hshort
    exact handles_stop (fixedSize_of_lt hshort)
  · rename_i hwhole
    obtain ⟨incoming, hincoming⟩ := getBe32_isSome (d := x.datagram) (i := p + 4)
      (by omega)
    obtain ⟨outgoing, houtgoing⟩ := getBe32_isSome (d := x.datagram) (i := p + 8)
      (by omega)
    rw [hincoming, houtgoing]
    exact handles_go (fixedSize_of_le hwhole) rfl fun _ => rfl

theorem recvThrottleConfigure_handles :
    Handles True r (fixedSize x.datagram p 16)
      (behind p (fixedSize x.datagram p 16)) (recvThrottleConfigure x r p) := by
  rw [recvThrottleConfigure]
  split
  · rename_i hshort
    exact handles_stop (fixedSize_of_lt hshort)
  · rename_i hwhole
    obtain ⟨interval, hinterval⟩ := getBe32_isSome (d := x.datagram) (i := p + 4)
      (by omega)
    obtain ⟨accel, haccel⟩ := getBe32_isSome (d := x.datagram) (i := p + 8)
      (by omega)
    obtain ⟨decel, hdecel⟩ := getBe32_isSome (d := x.datagram) (i := p + 12)
      (by omega)
    rw [hinterval, haccel, hdecel]
    exact handles_go (fixedSize_of_le hwhole) rfl fun _ => rfl

theorem skipPayload_handles {header field : ℕ} (hfield : field + 2 ≤ header) :
    Handles True r (payloadSize x.datagram p header field)
      (behind p (payloadSize x.datagram p header field))
      (skipPayload x r p header field) := by
  rw [skipPayload]
  split
  · exact handles_stop (if_neg (by omega))
  · rw [bind_eq_of_eq (getBe16_eq (by omega))]
    split
    · exact handles_stop (if_neg (by omega))
    · rw [Nat.add_assoc p]
      exact handles_go (if_pos (by omega)) rfl fun _ => rfl

theorem recvMessage_spec (gcm : Gcm) (authDecrypt : AuthDecrypt)
    (env : MessageEnv) (r : Receiver) (payload : List UInt8) :
    ∃ r', recvMessage gcm authDecrypt env r payload = some r' ∧
      r'.acks = r.acks := by
  rw [recvMessage]
  split
  · obtain ⟨m, hm⟩ := decodeControlMessage_isSome authDecrypt env.gcmTaken payload
    rw [hm, Option.bind_eq_bind, Option.bind_some]
    cases m with
    | none => exact ⟨r, rfl, rfl⟩
    | some m =>
        simp only [readForLog_isSome m, Option.bind_eq_bind, Option.bind_some]
        exact ⟨_, rfl, handleMessage_acks gcm env r m⟩
  · exact ⟨r, rfl, rfl⟩

theorem recvReliable_handles (gcm : Gcm) (authDecrypt : AuthDecrypt) :
    Handles False r (payloadSize x.datagram p 6 4)
      (behind p (payloadSize x.datagram p 6 4))
      (recvReliable gcm authDecrypt x r p) := by
  rw [recvReliable]
  split
  · exact handles_stop (if_neg (by omega))
  · rw [bind_eq_of_eq (getBe16_eq (by omega))]
    split
    · exact handles_stop (if_neg (by omega))
    · rename_i hwhole
      rw [bind_eq_of_eq (slice_eq (by omega))]
      obtain ⟨r', hr', hacks⟩ := recvMessage_spec gcm authDecrypt
        (x.env p).message r ((x.datagram.drop (p + 6)).take
          (readBe16 x.datagram (p + 4)).toNat)
      rw [bind_eq_of_eq hr', Nat.add_assoc p]
      exact handles_go (if_pos (by omega)) hacks False.elim

theorem recvDisconnect_handles :
    Handles True r (fixedSize x.datagram p 8) none (recvDisconnect x r p) := by
  rw [recvDisconnect]
  split
  · exact ⟨r, rfl, rfl, fun _ => rfl, fun _ => rfl⟩
  · rename_i hwhole
    rw [bind_eq_of_eq (slice_eq (by omega))]
    refine ⟨_, rfl, rfl, fun hnone => ?_, fun _ => rfl⟩
    rw [fixedSize_of_le hwhole] at hnone
    cases hnone

theorem commandSize_unknown {n : UInt8} (hack : n ≠ enetCmdAck)
    (hconnect : n ≠ enetCmdConnect) (hverify : n ≠ enetCmdVerify)
    (hdisconnect : n ≠ enetCmdDisconnect) (hping : n ≠ enetCmdPing)
    (hreliable : n ≠ enetCmdSendReliable)
    (hunreliable : n ≠ enetCmdSendUnreliable)
    (hfragment : n ≠ enetCmdSendFragment)
    (hunsequenced : n ≠ enetCmdSendUnsequenced)
    (hbandwidth : n ≠ enetCmdBandwidthLimit)
    (hthrottle : n ≠ enetCmdThrottleConfigure)
    (hpart : n ≠ enetCmdSendUnreliableFragment) : commandSize d p n = none := by
  rw [commandSize]
  split
  · exact absurd (UInt8.toNat_inj.mp ‹n.toNat = 1›) hack
  · exact absurd (UInt8.toNat_inj.mp ‹n.toNat = 2›) hconnect
  · exact absurd (UInt8.toNat_inj.mp ‹n.toNat = 3›) hverify
  · exact absurd (UInt8.toNat_inj.mp ‹n.toNat = 4›) hdisconnect
  · exact absurd (UInt8.toNat_inj.mp ‹n.toNat = 5›) hping
  · exact absurd (UInt8.toNat_inj.mp ‹n.toNat = 6›) hreliable
  · exact absurd (UInt8.toNat_inj.mp ‹n.toNat = 7›) hunreliable
  · exact absurd (UInt8.toNat_inj.mp ‹n.toNat = 8›) hfragment
  · exact absurd (UInt8.toNat_inj.mp ‹n.toNat = 9›) hunsequenced
  · exact absurd (UInt8.toNat_inj.mp ‹n.toNat = 10›) hbandwidth
  · exact absurd (UInt8.toNat_inj.mp ‹n.toNat = 11›) hthrottle
  · exact absurd (UInt8.toNat_inj.mp ‹n.toNat = 12›) hpart
  · rfl

/-- Every branch handles its command. -/
theorem dispatch_handles (gcm : Gcm) (authDecrypt : AuthDecrypt)
    (hin : p + 4 ≤ x.datagram.length) (n channelId : UInt8) :
    Handles (n ≠ enetCmdSendReliable) r (commandSize x.datagram p n)
      (nextAfter x.datagram p n) (dispatch gcm authDecrypt x r p n channelId) := by
  by_cases hack : n = enetCmdAck
  · subst hack
    exact (recvAck_handles channelId).mono fun _ => trivial
  by_cases hconnect : n = enetCmdConnect
  · subst hconnect
    exact (skipFixed_handles 48).mono fun _ => trivial
  by_cases hverify : n = enetCmdVerify
  · subst hverify
    exact (skipFixed_handles 44).mono fun _ => trivial
  by_cases hdisconnect : n = enetCmdDisconnect
  · subst hdisconnect
    exact recvDisconnect_handles.mono fun _ => trivial
  by_cases hping : n = enetCmdPing
  · subst hping
    exact handles_go (if_pos hin) rfl fun _ => rfl
  by_cases hreliable : n = enetCmdSendReliable
  · subst hreliable
    exact (recvReliable_handles gcm authDecrypt).mono fun hne => hne rfl
  by_cases hunreliable : n = enetCmdSendUnreliable
  · subst hunreliable
    exact (skipPayload_handles (by decide)).mono fun _ => trivial
  by_cases hfragment : n = enetCmdSendFragment
  · subst hfragment
    exact (skipPayload_handles (by decide)).mono fun _ => trivial
  by_cases hunsequenced : n = enetCmdSendUnsequenced
  · subst hunsequenced
    exact (skipPayload_handles (by decide)).mono fun _ => trivial
  by_cases hbandwidth : n = enetCmdBandwidthLimit
  · subst hbandwidth
    exact recvBandwidthLimit_handles.mono fun _ => trivial
  by_cases hthrottle : n = enetCmdThrottleConfigure
  · subst hthrottle
    exact recvThrottleConfigure_handles.mono fun _ => trivial
  by_cases hpart : n = enetCmdSendUnreliableFragment
  · subst hpart
    exact (skipPayload_handles (by decide)).mono fun _ => trivial
  have hnone := commandSize_unknown (d := x.datagram) (p := p) hack hconnect
    hverify hdisconnect hping hreliable hunreliable hfragment hunsequenced
    hbandwidth hthrottle hpart
  rw [nextAfter, if_neg hdisconnect, dispatch, if_neg hack, if_neg hconnect,
    if_neg hverify, if_neg hdisconnect, if_neg hping, if_neg hreliable,
    if_neg hunreliable, if_neg hfragment, if_neg hunsequenced,
    if_neg hbandwidth, if_neg hthrottle, if_neg hpart]
  exact handles_stop hnone

/-! ## Turns -/

/-- The state behind the ACK of the command at a position. -/
def acknowledged (x : Delivery) (recvSentTime : UInt16) (r : Receiver)
    (p : ℕ) : Receiver :=
  if AsksAck x.datagram p then
    r.sendAck p (byteAt x.datagram (p + 1)) (readBe16 x.datagram (p + 2))
      recvSentTime
  else r

theorem sendAck_acks (r : Receiver) (p : ℕ) (channelId : UInt8)
    (relSeq recvTime : UInt16) :
    (r.sendAck p channelId relSeq recvTime).acks ≠ r.acks := by
  have hbuilt : ∃ pkt, buildAckPacket r.globals 32 channelId relSeq recvTime =
      some pkt := ⟨_, rfl⟩
  obtain ⟨pkt, hpkt⟩ := hbuilt
  rw [Receiver.sendAck, hpkt]
  intro hsame
  exact List.cons_ne_nil _ _ (List.append_right_eq_self.mp hsame)

theorem commandTurn_eq (gcm : Gcm) (authDecrypt : AuthDecrypt)
    (recvSentTime : UInt16) (r : Receiver) (hin : p + 4 ≤ x.datagram.length) :
    commandTurn gcm authDecrypt x recvSentTime r p =
      dispatch gcm authDecrypt x (acknowledged x recvSentTime r p) p
        (cmdNumAt x.datagram p) (byteAt x.datagram (p + 1)) := by
  rw [commandTurn, getElem?_eq_byteAt (by omega), getElem?_eq_byteAt (by omega),
    getBe16_eq (by omega)]
  rfl

/-- A turn acknowledges the command and handles it. -/
theorem commandTurn_handles (gcm : Gcm) (authDecrypt : AuthDecrypt)
    (recvSentTime : UInt16) (r : Receiver) (hin : p + 4 ≤ x.datagram.length) :
    Handles (cmdNumAt x.datagram p ≠ enetCmdSendReliable)
      (acknowledged x recvSentTime r p) (walkSize x.datagram p)
      (nextCommand x.datagram p)
      (commandTurn gcm authDecrypt x recvSentTime r p) := by
  rw [commandTurn_eq gcm authDecrypt recvSentTime r hin]
  exact dispatch_handles gcm authDecrypt hin _ _

theorem fixedSize_pos {size n : ℕ} (hsize : 0 < size)
    (h : fixedSize d p size = some n) : 0 < n := by
  rw [fixedSize] at h
  split at h
  · obtain rfl := Option.some.inj h
    exact hsize
  · cases h

theorem payloadSize_pos {header field n : ℕ} (hheader : 0 < header)
    (h : payloadSize d p header field = some n) : 0 < n := by
  rw [payloadSize] at h
  split at h
  · obtain rfl := Option.some.inj h
    exact Nat.lt_of_lt_of_le hheader (Nat.le_add_right _ _)
  · cases h

theorem commandSize_pos {cmdNum : UInt8} {n : ℕ}
    (h : commandSize d p cmdNum = some n) : 0 < n := by
  rw [commandSize] at h
  split at h
  all_goals first
    | exact fixedSize_pos (by decide) h
    | exact payloadSize_pos (by decide) h
    | cases h

/-- The walk goes forward, and where it goes depends on the datagram alone. -/
theorem commandWalk_steady (gcm : Gcm) (authDecrypt : AuthDecrypt)
    (x : Delivery) (recvSentTime : UInt16) :
    (commandWalk gcm authDecrypt x recvSentTime).Steady
      (nextCommand x.datagram) where
  turn := fun r p hin => by
    obtain ⟨r', hr', -⟩ := commandTurn_handles gcm authDecrypt recvSentTime r hin
    exact ⟨r', hr'⟩
  forward := fun p q hnext => by
    rw [nextCommand, nextAfter] at hnext
    split at hnext
    · cases hnext
    · obtain ⟨n, hn, rfl⟩ := Option.map_eq_some_iff.mp hnext
      exact Nat.lt_add_of_pos_right (commandSize_pos hn)

/-- Apart from the fragments, the walk knows the sizes of ENet. -/
theorem walkSize_of_not_whole_disconnect
    (hcmd : cmdNumAt d p = enetCmdDisconnect) (hpart : ¬Whole d p) :
    walkSize d p = none := by
  have hsize : walkSize d p = wholeSize d p := by
    rw [walkSize, wholeSize, hcmd]
    rfl
  rwa [hsize, ← Option.not_isSome_iff_eq_none, ← Whole]

/-- What a turn needs of the bytes at its position. -/
def Acceptable (d : Packet) (p : ℕ) : Prop :=
  p ∈ enetPositions d ∧
    (Whole d p ∨ ¬AsksAck d p ∧ walkSize d p = none)

instance (d : Packet) (p : ℕ) : Decidable (Acceptable d p) :=
  inferInstanceAs (Decidable (_ ∧ _))

/-- A turn is as it should be exactly if a command starts there, and is whole or
neither wants an ACK nor has a size for the walk. -/
theorem turnObeys_iff (gcm : Gcm) (authDecrypt : AuthDecrypt)
    (recvSentTime : UInt16) (r : Receiver) (hin : p + 4 ≤ x.datagram.length) :
    TurnObeys gcm authDecrypt x recvSentTime r p ↔ Acceptable x.datagram p := by
  obtain ⟨r', hr', hacks, hsame, -⟩ := commandTurn_handles gcm authDecrypt
    recvSentTime r hin
  constructor
  · intro hobeys
    refine ⟨hobeys.command, ?_⟩
    by_cases hwhole : Whole x.datagram p
    · exact Or.inl hwhole
    · have hstops := hobeys.stops hwhole
      rw [hr', Option.some.injEq, Prod.mk.injEq] at hstops
      obtain ⟨hstate, hnext⟩ := hstops
      refine Or.inr ⟨fun hasks => ?_, ?_⟩
      · rw [hstate, acknowledged, if_pos hasks] at hacks
        exact sendAck_acks r p _ _ _ hacks.symm
      · rw [nextCommand, nextAfter] at hnext
        split at hnext
        · rename_i hcmd
          exact walkSize_of_not_whole_disconnect hcmd hwhole
        · exact Option.map_eq_none_iff.mp hnext
  · rintro ⟨hcommand, hok⟩
    refine ⟨hcommand, by rw [hr']; rfl, fun r'' o hturn hchanged => ?_,
      fun hpart => ?_⟩
    · rw [hr', Option.some.injEq, Prod.mk.injEq] at hturn
      refine hok.resolve_right fun hquiet => hchanged ?_
      rw [← hturn.1, hacks, acknowledged, if_neg hquiet.1]
    · obtain ⟨hquiet, hnone⟩ := hok.resolve_left hpart
      rw [hr', hsame hnone, acknowledged, if_neg hquiet, nextCommand, nextAfter]
      split
      · rfl
      · rw [← walkSize, hnone]
        rfl

/-! ## Datagrams -/

/-- The header is read inside of the datagram, and the commands are behind it. -/
theorem readHeader_spec (d : Packet) :
    ∃ h, readHeader d = some h ∧ ∀ found, h = some found → 0 < found.1 := by
  by_cases hshort : d.length < 4
  · rw [readHeader, if_pos hshort]
    exact ⟨none, rfl, fun found h => by cases h⟩
  · rw [readHeader, if_neg hshort, getBe16_eq (by omega), getBe16_eq (by omega)]
    simp only [Option.bind_eq_bind, Option.bind_some]
    generalize readBe16 d 0 &&& enetFlagMask = flags
    by_cases htime : flags &&& enetFlagSentTime ≠ 0
    · simp only [if_pos htime, if_neg hshort]
      split
      · exact ⟨none, rfl, fun found h => by cases h⟩
      · exact ⟨_, rfl, fun found h => by cases h; exact Nat.zero_lt_succ 3⟩
    · have hroom : ¬d.length < 2 := by omega
      simp only [if_neg htime, if_neg hroom]
      split
      · exact ⟨none, rfl, fun found h => by cases h⟩
      · exact ⟨_, rfl, fun found h => by cases h; exact Nat.zero_lt_succ 1⟩

/-- Every datagram is received without a read behind its end, and the walk over
it ends. -/
theorem receiveDatagram_isSome (gcm : Gcm) (authDecrypt : AuthDecrypt)
    (r : Receiver) (x : Delivery) :
    ∃ t, receiveDatagram gcm authDecrypt r x = some t := by
  obtain ⟨header, hheader, hpos⟩ := readHeader_spec x.datagram
  rw [receiveDatagram, hheader]
  cases header with
  | none => exact ⟨r, rfl⟩
  | some found =>
      exact (commandWalk_steady gcm authDecrypt x found.2).run_isSome
        (Nat.lt_add_of_pos_right (hpos found rfl))

/-- The walk over a datagram is as it should be exactly if each position that it
looks at starts a command which is whole, or neither wants an ACK nor has a size
for the walk. -/
theorem walkObeys_iff (gcm : Gcm) (authDecrypt : AuthDecrypt) (r : Receiver)
    (x : Delivery) :
    WalkObeys gcm authDecrypt r x ↔
      ∀ p ∈ commandPositions x.datagram, Acceptable x.datagram p := by
  rw [WalkObeys, commandPositions, positionsBy]
  obtain ⟨header, hheader, -⟩ := readHeader_spec x.datagram
  rw [hheader]
  simp only [receiveDatagram_isSome, true_and, Option.some.injEq]
  cases header with
  | none => simp
  | some found =>
      obtain ⟨start, recvSentTime⟩ := found
      have hiff := (commandWalk_steady gcm authDecrypt x recvSentTime).atEachTurn_iff
        (n := x.datagram.length) (s := r) (p := start)
        (P := TurnObeys gcm authDecrypt x recvSentTime)
        (Q := Acceptable x.datagram)
        (fun r p hin => turnObeys_iff gcm authDecrypt recvSentTime r hin)
      constructor
      · exact fun hwalk => hiff.mp (hwalk start recvSentTime rfl)
      · rintro hwhole _ _ ⟨⟩
        exact hiff.mpr hwhole

/-! ## A command that was cut off -/

/-- A reliable command that wants an ACK, without the length of its payload. -/
def cutOffCommand : Packet := [0, 0, 0x86, 0, 0, 7]

/-- What nothing depends on where no message is handled. -/
def quietDelivery (d : Packet) : Delivery where
  datagram := d
  env := fun _ => ⟨true, 0, ⟨true, ⟨true, true, true⟩, 1, 0,
    ⟨false, 0, false, false, 0, 0, ⟨true, true, true⟩, 1, 0⟩⟩⟩

/-- A receiver behind the handshake. -/
def Receiver.start : Receiver where
  globals := Globals.fresh
  serverHelloSeen := false
  idr := .reset
  receivedDisconnect := false
  serverIncomingBw := 0
  serverOutgoingBw := 0
  throttleInterval := 5000
  throttleAccel := 2
  throttleDecel := 2
  replies := []
  acks := []

/-- The command is acknowledged though its header is not there as a whole. -/
theorem cutOffCommand_acknowledged :
    ¬WalkObeys Gcm.identity (fun _ _ _ => none) .start
      (quietDelivery cutOffCommand) := by
  rintro ⟨-, hwalk⟩
  obtain ⟨hobeys, -⟩ := hwalk 2 0 rfl (by decide)
  have hstops := hobeys.stops (by decide)
  have hacks := congrArg (Option.map fun r => r.1.acks.length) hstops
  revert hacks
  decide +kernel

/-- A fragment that wants an ACK, with a payload of 100 bytes that are not
there. -/
def cutOffFragment : Packet :=
  [0, 0, 0x88, 0, 0, 7, 0, 0, 0, 100] ++ List.replicate 16 0

/-- It is acknowledged, and the walk takes it for whole. -/
theorem cutOffFragment_acknowledged :
    ¬WalkObeys Gcm.identity (fun _ _ _ => none) .start
        (quietDelivery cutOffFragment) ∧ walkSize cutOffFragment 2 = some 24 := by
  refine ⟨?_, by decide +kernel⟩
  rintro ⟨-, hwalk⟩
  obtain ⟨hobeys, -⟩ := hwalk 2 0 rfl (by decide)
  have hstops := hobeys.stops (by decide)
  have hacks := congrArg (Option.map fun r => r.1.acks.length) hstops
  revert hacks
  decide +kernel

end MoonlightPsp.Control

import MoonlightPsp.Control.ReceiveBounds

/-!
# Messages that were not authenticated

Only messages that AES-GCM authenticated under the key of the session should
change the stream or make the client send something.  The decoder also takes
messages in clear, and the handlers do not know the difference.  Where no hello
and no termination comes in clear, the session is a function of the
authenticated messages.
-/

namespace MoonlightPsp.Control

open BufferWalk CheckedMemory

/-! ## Messages of a datagram -/

/-- The payload of a whole reliable command. -/
def messageAt (d : Packet) (p : ℕ) : Option (List UInt8) :=
  if cmdNumAt d p = enetCmdSendReliable ∧ Whole d p then
    some ((d.drop (p + 6)).take (readBe16 d (p + 4)).toNat)
  else none

/-- The first two bytes of a message: the mark of an encrypted one, else its
type. -/
def markerOf (data : List UInt8) : UInt16 := (getLe16 data 0).getD 0

/-- A message in clear that has a handler. -/
def PlainCommand (d : Packet) (p : ℕ) : Prop :=
  ∃ data ∈ messageAt d p, 4 ≤ data.length ∧
    (markerOf data = 0x010E ∨ markerOf data = 0x0100 ∨ markerOf data = 0x0109)

instance (d : Packet) (p : ℕ) : Decidable (PlainCommand d p) :=
  inferInstanceAs (Decidable (∃ data ∈ messageAt d p, _))

/-- No command that the walk looks at has such a message. -/
def NoPlainCommand (d : Packet) : Prop :=
  ∀ p ∈ commandPositions d, ¬PlainCommand d p

instance (d : Packet) : Decidable (NoPlainCommand d) :=
  inferInstanceAs (Decidable (∀ p ∈ commandPositions d, _))

/-- The message in a payload, if it is encrypted and GCM authenticated it. -/
def authenticate (authDecrypt : AuthDecrypt) (gcmTaken : Bool)
    (data : List UInt8) : Option ControlMessage :=
  if 4 ≤ data.length ∧ markerOf data = 0x0001 then
    (decodeEncrypted authDecrypt gcmTaken data).join
  else none

/-- The authenticated message at a position, with what the system calls for it
return. -/
def authenticatedAt (authDecrypt : AuthDecrypt) (x : Delivery) (p : ℕ) :
    Option (ControlMessage × MessageEnv) :=
  (messageAt x.datagram p).bind fun data =>
    (authenticate authDecrypt (x.env p).message.gcmTaken data).map fun m =>
      (m, (x.env p).message)

/-- The authenticated messages of a datagram. -/
def authenticatedMessages (authDecrypt : AuthDecrypt) (x : Delivery) :
    List (ControlMessage × MessageEnv) :=
  (commandPositions x.datagram).filterMap (authenticatedAt authDecrypt x)

/-! ## What should hold -/

/-- The state of the stream. -/
structure StreamState where
  meRunning : Bool
  streamStatus : ℕ
  serverHelloSeen : Bool
deriving DecidableEq

/-- The state of the stream as the receiver sees it. -/
def Receiver.stream (r : Receiver) : StreamState :=
  ⟨r.globals.meRunning, r.globals.streamStatus, r.serverHelloSeen⟩

/-- A turn of the walk changes the stream, replies or asks for an IDR frame only
for a message that was decrypted and authenticated. -/
def TurnAuthentic (gcm : Gcm) (authDecrypt : AuthDecrypt) (x : Delivery)
    (recvSentTime : UInt16) (r : Receiver) (p : ℕ) : Prop :=
  ∀ r' o, commandTurn gcm authDecrypt x recvSentTime r p = some (r', o) →
    (r'.stream ≠ r.stream ∨ r'.replies ≠ r.replies ∨ r'.idr ≠ r.idr) →
      ∃ data m, messageAt x.datagram p = some data ∧ Opens authDecrypt data m

/-- All turns of a run are authentic. -/
def RunAuthentic (gcm : Gcm) (authDecrypt : AuthDecrypt) :
    Receiver → List Delivery → Prop
  | _, [] => True
  | r, x :: xs =>
      (∀ start recvSentTime,
        readHeader x.datagram = some (some (start, recvSentTime)) →
          (commandWalk gcm authDecrypt x recvSentTime).AtEachTurn
            (TurnAuthentic gcm authDecrypt x recvSentTime) x.datagram.length r
            start) ∧
        ∀ r', receiveDatagram gcm authDecrypt r x = some r' →
          RunAuthentic gcm authDecrypt r' xs

/-! ## The session -/

theorem allocCtrlEncSeq_session (c : Globals) (taken : Bool) :
    allocCtrlEncSeq c.session taken =
      (allocCtrlEncSeq c taken).map fun a => (a.1, a.2.session) := by
  cases taken with
  | false => rfl
  | true => rfl

theorem allocReliableSeqCh_session (c : Globals) (channel : UInt8)
    (taken : Bool) :
    allocReliableSeqCh c.session channel taken =
      (allocReliableSeqCh c channel taken).map fun a => (a.1, a.2.session) := by
  rw [allocReliableSeqCh, allocReliableSeqCh]
  split
  · rfl
  · cases taken with
    | false => rfl
    | true => rfl

theorem encryptMsg_session (gcm : Gcm) (env : BuildEnv) (c : Globals)
    (msgType : UInt16) (payload : List UInt8) :
    encryptMsg gcm env c.session msgType payload =
      ((encryptMsg gcm env c msgType payload).1,
        (encryptMsg gcm env c msgType payload).2.session) := by
  rw [encryptMsg, encryptMsg, allocCtrlEncSeq_session]
  change (if !c.cryptoReady then _ else _) = _
  split
  · rfl
  · split
    · rfl
    · generalize allocCtrlEncSeq c env.encSeqTaken = allocated
      cases allocated with
      | none => rfl
      | some allocated =>
          simp only [Option.map_some]
          split
          · rfl
          · rfl

theorem buildReliableRaw_session (c : Globals) (buflen : ℕ) (raw : List UInt8)
    (channel : UInt8) (taken : Bool) :
    buildReliableRaw c.session buflen raw channel taken =
      (buildReliableRaw c buflen raw channel taken).map fun b =>
        (b.1, b.2.session) := by
  rw [buildReliableRaw, buildReliableRaw, allocReliableSeqCh_session]
  split
  · rfl
  · generalize allocReliableSeqCh c channel taken = allocated
    cases allocated with
    | none => rfl
    | some allocated => rfl

/-- A packet is built from the session, and changes only it. -/
theorem buildSite_session (gcm : Gcm) (env : BuildEnv) (c : Globals)
    (site : Site) :
    buildSite gcm env c.session site =
      ((buildSite gcm env c site).1, (buildSite gcm env c site).2.session) := by
  rw [buildSite, buildSite, buildEncryptedControlMsg, buildEncryptedControlMsg,
    encryptMsg_session]
  generalize encryptMsg gcm env c site.msgType site.payload = r
  obtain ⟨blob, c'⟩ := r
  cases blob with
  | none => rfl
  | some blob =>
      dsimp only
      rw [buildReliableRaw_session]
      generalize buildReliableRaw c' site.buflen blob site.channel
        env.relSeqTaken = built
      cases built with
      | none => rfl
      | some built => rfl

theorem finishSite_session (c : Globals) (pkt : Packet) (tx : ℤ)
    (now : UInt32) : (finishSite c pkt tx now).session = c.session := by
  rw [finishSite, retxStore]
  split
  · split
    · rfl
    · rfl
  · rfl

/-! ## Messages and the session -/

variable {r : Receiver} {p : ℕ}

theorem controlStreamRequestIdr_session (gcm : Gcm) (env : IdrEnv)
    (r : Receiver) :
    (controlStreamRequestIdr gcm env r.session).2.session =
      (controlStreamRequestIdr gcm env r).2.session := by
  rw [controlStreamRequestIdr, controlStreamRequestIdr]
  split
  · rfl
  · change (if !r.globals.socketOpen || !r.globals.ctrlRunning then _
      else _ : ℤ × Receiver).2.session = _
    split
    · rfl
    · change (if (r.idr.relax env).throttled env.tick then _
        else _ : ℤ × Receiver).2.session = _
      dsimp only
      split
      · rfl
      · have hglobals : r.session.globals = r.globals.session := rfl
        rw [hglobals, buildSite_session]
        generalize buildSite gcm env.build r.globals .idrRequest = built
        obtain ⟨pkt, c⟩ := built
        cases pkt with
        | none => rfl
        | some pkt =>
            simp only [Receiver.session, finishSite_session]
            rfl

theorem controlStreamRequestIdrStartup_session (gcm : Gcm) (env : IdrEnv)
    (r : Receiver) :
    (controlStreamRequestIdrStartup gcm env r.session).2.session =
      (controlStreamRequestIdrStartup gcm env r).2.session := by
  rw [controlStreamRequestIdrStartup, controlStreamRequestIdrStartup]
  split
  · rfl
  · rw [controlStreamRequestIdrForce, controlStreamRequestIdrForce]
    change (if !env.startupWait then
        if r.idr.lastIdrTick ≠ 0 ∧ env.forceTick - r.idr.lastIdrTick < 2000000
        then _ else if r.idr.idrBackoffUs < 2000000 then _ else _
      else if r.idr.lastIdrTick ≠ 0 ∧
        env.forceTick - r.idr.lastIdrTick < 500000 then _
      else _ : ℤ × Receiver).2.session = _
    dsimp only
    split
    · split
      · rfl
      · split
        · exact controlStreamRequestIdr_session gcm env
            { r with idr := { r.idr with idrBackoffUs := 2000000 } }
        · exact controlStreamRequestIdr_session gcm env r
    · split
      · rfl
      · exact controlStreamRequestIdr_session gcm env
          { r with idr := { r.idr with idrCount := 0, idrBackoffUs := 500000 } }

/-- What a message does to the session depends on the session alone. -/
theorem handleMessage_session (gcm : Gcm) (env : MessageEnv) (r : Receiver)
    (m : ControlMessage) :
    (handleMessage gcm env r.session m).session =
      (handleMessage gcm env r m).session := by
  rw [handleMessage, handleMessage]
  split
  · rw [handleHello, handleHello]
    have hglobals : r.session.globals = r.globals.session := rfl
    rw [hglobals, buildSite_session]
    generalize buildSite gcm env.replyBuild r.globals (.helloEcho m.payload) =
      built
    obtain ⟨pkt, c⟩ := built
    cases pkt with
    | none => rfl
    | some pkt =>
        have hsame : Receiver.session { r.session with
              globals := finishSite c.session pkt env.replyTx env.replyNow
              replies := r.session.replies ++ [pkt] } =
            Receiver.session { r with
              globals := finishSite c pkt env.replyTx env.replyNow
              replies := r.replies ++ [pkt] } := by
          simp only [Receiver.session, finishSite_session]
          rfl
        dsimp only
        change (if r.serverHelloSeen then _ else _ : Receiver).session = _
        split
        · exact hsame
        · split
          · rw [← controlStreamRequestIdrStartup_session,
              ← controlStreamRequestIdrStartup_session gcm env.idr
                { r with
                  globals := finishSite c pkt env.replyTx env.replyNow
                  replies := r.replies ++ [pkt]
                  serverHelloSeen := true
                  idr := .reset }]
            exact congrArg (fun s => (controlStreamRequestIdrStartup gcm env.idr
              { s with serverHelloSeen := true, idr := .reset }).2.session) hsame
          · exact congrArg (fun s => { s with serverHelloSeen := true }) hsame
  · split
    · rfl
    · rfl

/-! ## Decoding -/

theorem markerOf_eq {data : List UInt8} (h : 4 ≤ data.length) :
    getLe16 data 0 = some (markerOf data) := by
  obtain ⟨v, hv⟩ := getLe16_isSome (d := data) (i := 0) (by omega)
  rw [markerOf, hv]
  rfl

theorem opens_of_authenticate {authDecrypt : AuthDecrypt} {gcmTaken : Bool}
    {data : List UInt8} {m : ControlMessage}
    (h : authenticate authDecrypt gcmTaken data = some m) :
    Opens authDecrypt data m := by
  rw [authenticate] at h
  split at h
  · obtain ⟨o, ho, hopens⟩ := decodeEncrypted_spec authDecrypt gcmTaken data
    rw [ho, Option.join_some] at h
    exact hopens m h
  · cases h

/-! ## Turns and the session -/

/-- What an authenticated message does to the session. -/
def messageEffect (gcm : Gcm) (s : Receiver)
    (m : ControlMessage × MessageEnv) : Receiver :=
  (handleMessage gcm m.2 s m.1).session

/-- What a turn does to the session. -/
def turnEffect (gcm : Gcm) (s : Receiver) :
    Option (ControlMessage × MessageEnv) → Receiver
  | none => s
  | some m => messageEffect gcm s m

/-- A payload changes the session as the authenticated message in it says, unless
it is a message in clear that has a handler. -/
theorem recvMessage_session {gcm : Gcm} {authDecrypt : AuthDecrypt}
    {env : MessageEnv} {r r' : Receiver} {payload : List UInt8}
    (hplain : 4 ≤ payload.length → ¬(markerOf payload = 0x010E ∨
      markerOf payload = 0x0100 ∨ markerOf payload = 0x0109))
    (h : recvMessage gcm authDecrypt env r payload = some r') :
    r'.session = turnEffect gcm r.session
      ((authenticate authDecrypt env.gcmTaken payload).map fun m => (m, env)) := by
  rw [recvMessage] at h
  rw [authenticate]
  split at h
  · rename_i hlength
    rw [decodeControlMessage, if_neg (by omega),
      bind_eq_of_eq (markerOf_eq hlength)] at h
    by_cases hmarker : markerOf payload = 0x0001
    · rw [if_pos hmarker] at h
      rw [if_pos ⟨hlength, hmarker⟩]
      obtain ⟨m, hm, -⟩ := decodeEncrypted_spec authDecrypt env.gcmTaken payload
      rw [bind_eq_of_eq hm] at h
      rw [hm]
      cases m with
      | none =>
          obtain rfl := Option.some.inj h
          rfl
      | some m =>
          simp only [bind_eq_of_eq (readForLog_isSome m), Option.some.injEq] at h
          rw [← h]
          exact (handleMessage_session gcm env r m).symm
    · rw [if_neg hmarker, bind_eq_of_eq (slice_eq (by omega)),
        Option.bind_eq_bind, Option.bind_some] at h
      rw [if_neg fun hboth => hmarker hboth.2]
      simp only [bind_eq_of_eq (readForLog_isSome _), Option.some.injEq] at h
      have hnone := hplain hlength
      rw [not_or] at hnone
      rw [handleMessage, if_neg hnone.1, if_neg hnone.2] at h
      rw [← h]
      rfl
  · rename_i hshort
    obtain rfl := Option.some.inj h
    rw [if_neg fun hboth => hshort hboth.1]
    rfl

/-- What the session has of the stream, replies and IDR requests. -/
theorem changes_session {r r' : Receiver} (hchanged : r'.stream ≠ r.stream ∨
    r'.replies ≠ r.replies ∨ r'.idr ≠ r.idr) : r'.session ≠ r.session := by
  intro hsame
  have hstream := congrArg Receiver.stream hsame
  have hreplies := congrArg Receiver.replies hsame
  have hidr := congrArg Receiver.idr hsame
  rcases hchanged with h | h | h
  · exact h hstream
  · exact h hreplies
  · exact h hidr

/-- An ACK leaves the session alone. -/
theorem acknowledged_session (x : Delivery) (recvSentTime : UInt16)
    (r : Receiver) (p : ℕ) :
    (acknowledged x recvSentTime r p).session = r.session := by
  rw [acknowledged]
  split
  · rw [Receiver.sendAck]
    split
    · rfl
    · rfl
  · rfl

/-- A reliable command changes the session as its authenticated message says. -/
theorem recvReliable_session {gcm : Gcm} {authDecrypt : AuthDecrypt}
    {x : Delivery} {r r' : Receiver} {o : Option ℕ}
    (hcmd : cmdNumAt x.datagram p = enetCmdSendReliable)
    (hplain : ¬PlainCommand x.datagram p)
    (h : recvReliable gcm authDecrypt x r p = some (r', o)) :
    r'.session = turnEffect gcm r.session (authenticatedAt authDecrypt x p) := by
  have hsize : wholeSize x.datagram p = payloadSize x.datagram p 6 4 := by
    rw [wholeSize, hcmd]
    rfl
  have hpart : payloadSize x.datagram p 6 4 = none →
      authenticatedAt authDecrypt x p = none := by
    intro hnone
    rw [authenticatedAt, messageAt, if_neg]
    · rfl
    · rintro ⟨-, hwhole⟩
      rw [Whole, hsize, hnone] at hwhole
      cases hwhole
  rw [recvReliable] at h
  split at h
  · rw [hpart (if_neg (by omega))]
    cases h
    rfl
  · rw [bind_eq_of_eq (getBe16_eq (by omega))] at h
    split at h
    · rw [hpart (if_neg (by omega))]
      cases h
      rfl
    · have hmessage : messageAt x.datagram p = some ((x.datagram.drop
          (p + 6)).take (readBe16 x.datagram (p + 4)).toNat) := by
        refine if_pos ⟨hcmd, ?_⟩
        rw [Whole, hsize, payloadSize, if_pos (by omega)]
        rfl
      rw [bind_eq_of_eq (slice_eq (by omega))] at h
      obtain ⟨t, ht, h⟩ := Option.bind_eq_some_iff.mp h
      cases h
      rw [authenticatedAt, hmessage, Option.bind_some]
      refine recvMessage_session (fun hlength htype => ?_) ht
      exact hplain ⟨_, hmessage, hlength, htype⟩

/-- What a turn does to the session. -/
theorem commandTurn_session {gcm : Gcm} {authDecrypt : AuthDecrypt}
    {x : Delivery} {recvSentTime : UInt16} {r r' : Receiver} {o : Option ℕ}
    (hin : p + 4 ≤ x.datagram.length) (hplain : ¬PlainCommand x.datagram p)
    (h : commandTurn gcm authDecrypt x recvSentTime r p = some (r', o)) :
    r'.session = turnEffect gcm r.session (authenticatedAt authDecrypt x p) := by
  rw [← acknowledged_session x recvSentTime r p]
  by_cases hcmd : cmdNumAt x.datagram p = enetCmdSendReliable
  · rw [commandTurn_eq gcm authDecrypt recvSentTime r hin, hcmd] at h
    exact recvReliable_session hcmd hplain h
  · obtain ⟨t, ht, -, -, hsession⟩ := commandTurn_handles gcm authDecrypt
      recvSentTime r hin
    rw [ht, Option.some.injEq, Prod.mk.injEq] at h
    rw [← h.1, hsession hcmd, authenticatedAt, messageAt,
      if_neg fun hboth => hcmd hboth.1]
    rfl

/-- A turn without a message in clear that has a handler is authentic. -/
theorem turnAuthentic (gcm : Gcm) (authDecrypt : AuthDecrypt) (x : Delivery)
    (recvSentTime : UInt16) (r : Receiver) (hin : p + 4 ≤ x.datagram.length)
    (hplain : ¬PlainCommand x.datagram p) :
    TurnAuthentic gcm authDecrypt x recvSentTime r p := by
  intro r' o hturn hchanged
  have hsession := commandTurn_session hin hplain hturn
  cases hmessage : messageAt x.datagram p with
  | none =>
      exfalso
      rw [authenticatedAt, hmessage] at hsession
      exact changes_session hchanged hsession
  | some data =>
      cases hopened : authenticate authDecrypt (x.env p).message.gcmTaken data with
      | none =>
          exfalso
          rw [authenticatedAt, hmessage, Option.bind_some, hopened] at hsession
          exact changes_session hchanged hsession
      | some m => exact ⟨data, m, rfl, opens_of_authenticate hopened⟩

/-! ## Datagrams -/

/-- What a datagram without such messages does to the session is what its
authenticated messages do. -/
theorem receiveDatagram_session (gcm : Gcm) (authDecrypt : AuthDecrypt)
    (r : Receiver) {x : Delivery} (hplain : NoPlainCommand x.datagram) :
    ∃ t, receiveDatagram gcm authDecrypt r x = some t ∧
      t.session = (authenticatedMessages authDecrypt x).foldl (messageEffect gcm)
        r.session := by
  obtain ⟨header, hheader, hpos⟩ := readHeader_spec x.datagram
  rw [receiveDatagram, authenticatedMessages, hheader]
  rw [NoPlainCommand] at hplain
  rw [commandPositions, positionsBy, hheader] at hplain ⊢
  cases header with
  | none => exact ⟨r, rfl, rfl⟩
  | some found =>
      obtain ⟨start, recvSentTime⟩ := found
      have hsteady := commandWalk_steady gcm authDecrypt x recvSentTime
      obtain ⟨t, ht, hsession⟩ := hsteady.run_part Receiver.session
        (fun s p => turnEffect gcm s (authenticatedAt authDecrypt x p))
        (n := x.datagram.length) (p := start) (s := r)
        (fun p hp hin s s' o hturn =>
          commandTurn_session hin (hplain p hp) hturn)
        (Nat.lt_add_of_pos_right (hpos _ rfl))
      refine ⟨t, ht, hsession.trans ?_⟩
      rw [List.foldl_filterMap]
      refine congrArg (fun f => List.foldl f r.session _) (funext fun s => ?_)
      funext p
      cases authenticatedAt authDecrypt x p with
      | none => rfl
      | some m => rfl

/-! ## Runs -/

/-- All turns of a run without such messages are authentic. -/
theorem runAuthentic (gcm : Gcm) (authDecrypt : AuthDecrypt) (r : Receiver)
    {xs : List Delivery} (hxs : ∀ x ∈ xs, NoPlainCommand x.datagram) :
    RunAuthentic gcm authDecrypt r xs := by
  induction xs generalizing r with
  | nil => trivial
  | cons x xs ih =>
      refine ⟨fun start recvSentTime hheader => ?_, fun r' _ =>
        ih r' fun y hy => hxs y (List.mem_cons_of_mem x hy)⟩
      have hplain := hxs x List.mem_cons_self
      rw [NoPlainCommand, commandPositions, positionsBy, hheader] at hplain
      exact (commandWalk_steady gcm authDecrypt x recvSentTime).atEachTurn
        fun p hp hin s => turnAuthentic gcm authDecrypt x recvSentTime s hin
          (hplain p hp)

/-- Two runs from the same session whose datagrams have the same authenticated
messages end in the same session. -/
theorem ctrlRecvThread_session (gcm : Gcm) (authDecrypt : AuthDecrypt)
    {r u : Receiver} (hsession : r.session = u.session) {xs ys : List Delivery}
    (hxs : ∀ x ∈ xs, NoPlainCommand x.datagram)
    (hys : ∀ y ∈ ys, NoPlainCommand y.datagram)
    (hsame : List.Forall₂ (fun x y => authenticatedMessages authDecrypt x =
      authenticatedMessages authDecrypt y) xs ys) :
    ∃ t v, ctrlRecvThread gcm authDecrypt r xs = some t ∧
      ctrlRecvThread gcm authDecrypt u ys = some v ∧ t.session = v.session := by
  induction hsame generalizing r u with
  | nil => exact ⟨r, u, rfl, rfl, hsession⟩
  | @cons x y xs ys hxy hrest ih =>
      have hrunning := congrArg (fun s => s.globals.ctrlRunning) hsession
      have hstream := congrArg (fun s => s.globals.meRunning) hsession
      change r.globals.ctrlRunning = u.globals.ctrlRunning at hrunning
      change r.globals.meRunning = u.globals.meRunning at hstream
      rw [ctrlRecvThread, ctrlRecvThread, ← hrunning, ← hstream]
      split
      · obtain ⟨r', hr', hsession'⟩ := receiveDatagram_session gcm authDecrypt r
          (hxs x List.mem_cons_self)
        obtain ⟨u', hu', hsession''⟩ := receiveDatagram_session gcm authDecrypt u
          (hys y List.mem_cons_self)
        rw [bind_eq_of_eq hr', bind_eq_of_eq hu']
        refine ih ?_ (fun z hz => hxs z (List.mem_cons_of_mem x hz))
          fun z hz => hys z (List.mem_cons_of_mem y hz)
        rw [hsession', hsession'', hxy, hsession]
      · exact ⟨r, u, rfl, rfl, hsession⟩

/-- In runs in which no hello and no termination comes in clear, only
authenticated messages change the stream or cause a reply or an IDR request; and
two such runs whose datagrams have the same authenticated messages reach the same
state of the stream, with the same replies. -/
theorem stream_of_authenticatedMessages (gcm : Gcm) (authDecrypt : AuthDecrypt)
    (r : Receiver) {xs ys : List Delivery}
    (hxs : ∀ x ∈ xs, NoPlainCommand x.datagram)
    (hys : ∀ y ∈ ys, NoPlainCommand y.datagram)
    (hsame : List.Forall₂ (fun x y => authenticatedMessages authDecrypt x =
      authenticatedMessages authDecrypt y) xs ys) :
    RunAuthentic gcm authDecrypt r xs ∧
      ∃ t v, ctrlRecvThread gcm authDecrypt r xs = some t ∧
        ctrlRecvThread gcm authDecrypt r ys = some v ∧ t.stream = v.stream ∧
        t.replies = v.replies := by
  refine ⟨runAuthentic gcm authDecrypt r hxs, ?_⟩
  obtain ⟨t, v, ht, hv, hsession⟩ := ctrlRecvThread_session gcm authDecrypt
    (r := r) rfl hxs hys hsame
  have hstream := congrArg Receiver.stream hsession
  have hreplies := congrArg Receiver.replies hsession
  exact ⟨t, v, ht, hv, hstream, hreplies⟩

/-! ## A forged message -/

/-- A cipher that authenticates nothing. -/
def AuthDecrypt.refusing : AuthDecrypt := fun _ _ _ => none

/-- A termination in clear. -/
def plainTermination : Packet := [0, 0, 6, 0, 0, 7, 0, 4, 0x00, 0x01, 0, 0]

/-- A message in clear that has no handler. -/
def plainUnknown : Packet := [0, 0, 6, 0, 0, 7, 0, 4, 0x00, 0x02, 0, 0]

/-- A message with the mark of an encrypted one, and nothing else. -/
def brokenEncrypted : Packet := [0, 0, 6, 0, 0, 7, 0, 4, 0x01, 0x00, 0, 0]

/-- What GCM gives of a termination, under the key `00 01 .. 0f` and with the number 1. -/
def terminationTag : List UInt8 :=
  [0x7c, 0x12, 0x15, 0x5b, 0x31, 0xad, 0x22, 0xd0, 0x98, 0xeb, 0x08, 0xed, 0x2c, 0x5f, 0x5d,
    0x86]

def terminationCipher : List UInt8 := [0x28, 0x32, 0x03, 0x70, 0x09, 0x3d, 0x85, 0xfb]

/-- GCM under this key, as far as it is needed: one message is authenticated. -/
def AuthDecrypt.sample : AuthDecrypt := fun iv tag ciphertext =>
  if h : ciphertext = terminationCipher then
    if iv = hostIv 1 ∧ tag = terminationTag then
      some ⟨[0x09, 0x01, 4, 0, 0x80, 3, 0, 0x23], by rw [h]; rfl⟩
    else none
  else none

/-- The termination as the host sends it. -/
def encryptedTermination : Packet :=
  [0, 0, 6, 0, 0, 8, 0, 32, 0x01, 0x00, 28, 0, 1, 0, 0, 0] ++ terminationTag ++
    terminationCipher

/-- A forged message before the termination, or a plain one that nobody handles. -/
theorem stream_of_encryptedTermination :
    (authenticatedMessages .sample (quietDelivery encryptedTermination)).map (·.1) =
        [⟨0x0109, [0x80, 3, 0, 0x23]⟩] ∧
      RunAuthentic .identity .sample .start
        [quietDelivery brokenEncrypted, quietDelivery encryptedTermination] ∧
      ∃ t v, ctrlRecvThread .identity .sample .start
          [quietDelivery brokenEncrypted, quietDelivery encryptedTermination] = some t ∧
        ctrlRecvThread .identity .sample .start
          [quietDelivery plainUnknown, quietDelivery encryptedTermination] = some v ∧
        t.stream = v.stream ∧ t.replies = v.replies :=
  ⟨by decide +kernel, stream_of_authenticatedMessages .identity .sample .start
    (by simp only [List.mem_cons, List.not_mem_nil, or_false, forall_eq_or_imp, forall_eq]
        decide +kernel)
    (by simp only [List.mem_cons, List.not_mem_nil, or_false, forall_eq_or_imp, forall_eq]
        decide +kernel)
    (.cons ((List.isEmpty_iff.mp (by decide +kernel)).trans
      (List.isEmpty_iff.mp (by decide +kernel)).symm) (.cons rfl .nil))⟩

/-- None of the two messages is authenticated, but one ends the stream. -/
theorem plainTermination_ends_stream :
    authenticatedMessages .refusing (quietDelivery plainTermination) = [] ∧
      authenticatedMessages .refusing (quietDelivery plainUnknown) = [] ∧
      (ctrlRecvThread .identity .refusing .start
        [quietDelivery plainTermination]).map Receiver.stream =
          some ⟨false, 1, false⟩ ∧
      (ctrlRecvThread .identity .refusing .start
        [quietDelivery plainUnknown]).map Receiver.stream =
          some ⟨true, 0, false⟩ :=
  ⟨List.isEmpty_iff.mp (by decide +kernel),
    List.isEmpty_iff.mp (by decide +kernel), by decide +kernel,
    by decide +kernel⟩

end MoonlightPsp.Control

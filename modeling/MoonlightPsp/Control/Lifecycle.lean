import MoonlightPsp.Control.Receive
import MoonlightPsp.Lib.HandleLedger

/-!
# Starting and stopping the control channel

`control_stream_start` makes a cipher context, three semaphores, a socket and two threads,
with the handshake between the socket and the threads; each failure on the way frees what
was made.  A thread deletes itself when it ends.  `control_stream_stop` waits for that, but
not forever, and then asks for a deletion that is always refused.
-/

namespace MoonlightPsp.Control

open HandleLedger

/-! ## VERIFY_CONNECT -/

/-- `server_peer_id` and `session_bits`. -/
structure ServerPeer where
  serverPeerId : UInt16
  sessionBits : UInt8

/-- The loop of `parse_verify_connect`, from an offset on, with what it returns. -/
def verifyLoop (data : Packet) (myConnectId : UInt32) (peer : ServerPeer) (p : ℕ) :
    Option (ServerPeer × ℤ) :=
  if p + 4 ≤ data.length then do
    let cmd ← data[p]?
    if cmd &&& 0x0F = enetCmdAck then
      if p + 8 > data.length then some (peer, -1)
      else verifyLoop data myConnectId peer (p + 8)
    else if cmd &&& 0x0F = enetCmdVerify then
      if p + 44 > data.length then some (peer, -1)
      else
        let serverPeerId ← getBe16 data (p + 4)
        let session ← data[p + 6]?
        let verifyCid ← getBe32 data (p + 40)
        some (⟨serverPeerId, session &&& 0x03⟩, if verifyCid ≠ myConnectId then -2 else 0)
    else some (peer, -1)
  else some (peer, -1)
termination_by data.length - p

/-- `parse_verify_connect`; none where it reads behind the packet. -/
def parseVerifyConnect (data : Packet) (myConnectId : UInt32) (peer : ServerPeer) :
    Option (ServerPeer × ℤ) :=
  if data.length < 48 then some (peer, -1)
  else do
    let _ ← getBe16 data 0
    let _ ← getBe16 data 2
    verifyLoop data myConnectId peer 4

/-- The attempts of the handshake, with what was received in each, up to five. -/
def connectAttempts (myConnectId : UInt32) (peer : ServerPeer) :
    List (Option Packet) → Option (ServerPeer × Bool)
  | [] => some (peer, false)
  | none :: rest => connectAttempts myConnectId peer rest
  | some data :: rest => do
      let r ← parseVerifyConnect (data.take 128) myConnectId peer
      if r.2 = 0 then some (r.1, true) else connectAttempts myConnectId r.1 rest

/-! ## The resources -/

/-- What the control channel holds: `ctrl_gcm_ctx`, `ctrl_seq_sem_id`, `ctrl_gcm_sem_id`,
`ctrl_input_sem_id`, `ctrl_socket`, `ctrl_recv_thread_id` and `ctrl_thread_id`. -/
inductive CtrlResource where
  | gcm
  | seqSem
  | gcmSem
  | inputSem
  | socket
  | recvThread
  | pingThread
  deriving DecidableEq

/-- What deletes itself at its end. -/
def CtrlResource.IsThread (k : CtrlResource) : Prop := k = .recvThread ∨ k = .pingThread

instance (k : CtrlResource) : Decidable k.IsThread := inferInstanceAs (Decidable (_ ∨ _))

/-- The handles, `ctrl_running` and the server of the control channel. -/
structure Lifecycle where
  handles : HandleTable CtrlResource
  ctrlRunning : Bool
  peer : ServerPeer

/-- `delete_ctrl_gcm_sem`. -/
def deleteCtrlGcmSem (w : HandleTable CtrlResource) : HandleTable CtrlResource :=
  (w.freeHeld .inputSem).free .gcmSem

/-- What every failure from the input semaphore on ends with. -/
def releaseSession (w : HandleTable CtrlResource) : HandleTable CtrlResource :=
  ((deleteCtrlGcmSem w).free .seqSem).free .gcm

/-- Whether the threads end within the two seconds that the stop waits. -/
structure StopAnswers where
  recvEnds : Bool
  pingEnds : Bool

/-- The end of a thread is waited for, and the thread deleted.  The system refuses that: the
thread has deleted itself with `sceKernelExitDeleteThread`, or still runs. -/
def joinThread (w : HandleTable CtrlResource) (k : CtrlResource) (ends : Bool) :
    HandleTable CtrlResource :=
  if w.Has k then (if ends then w.expireHeld k else w).discard k else w

/-- `control_stream_stop`. -/
def Lifecycle.controlStreamStop (s : Lifecycle) (a : StopAnswers) : Lifecycle :=
  let w := s.handles.freeHeld .socket
  let w := joinThread w .recvThread a.recvEnds
  let w := joinThread w .pingThread a.pingEnds
  let w := w.freeHeld .gcm
  let w := if w.Has .gcmSem then deleteCtrlGcmSem w else w
  { s with ctrlRunning := false, handles := w.freeHeld .seqSem }

/-- `control_stream_abort`. -/
def Lifecycle.controlStreamAbort (s : Lifecycle) : Lifecycle :=
  { s with ctrlRunning := false, handles := s.handles.freeHeld .socket }

/-- What the system and the server answer to a start: whether the key is there and is
accepted, what can be made, the connect number, what is received in the five attempts,
and whether the first two messages can be built. -/
structure StartAnswers where
  stop : StopAnswers
  keyValid : Bool
  keyAccepted : Bool
  seqSem : Bool
  gcmSem : Bool
  inputSem : Bool
  socket : Bool
  connectId : UInt32
  responses : List (Option Packet)
  startA : Bool
  startB : Bool
  recvCreated : Bool
  recvStarted : Bool
  pingCreated : Bool
  pingStarted : Bool

/-- The last step: the two threads.  A thread that does not start is deleted, and one that
did is waited for without a limit. -/
def startThreads (s : Lifecycle) (a : StartAnswers) : Lifecycle × ℤ :=
  if !a.recvCreated then
    ({ s with ctrlRunning := false, handles := releaseSession (s.handles.free .socket) }, -5)
  else
    let w := s.handles.make .recvThread
    if !a.recvStarted then
      ({ s with
        ctrlRunning := false
        handles := releaseSession ((w.free .recvThread).free .socket) }, -5)
    else if !a.pingCreated then
      ({ s with
        ctrlRunning := false
        handles := releaseSession (joinThread (w.freeHeld .socket) .recvThread true) }, -5)
    else
      let w := w.make .pingThread
      if !a.pingStarted then
        ({ s with
          ctrlRunning := false
          handles := releaseSession
            (joinThread ((w.free .pingThread).freeHeld .socket) .recvThread true) }, -5)
      else ({ s with handles := w }, 0)

/-- The handshake, and what follows. -/
def startHandshake (s : Lifecycle) (a : StartAnswers) : Option (Lifecycle × ℤ) := do
  let r ← connectAttempts a.connectId s.peer (a.responses.take 5)
  let s := { s with peer := r.1 }
  let closed := { s with handles := releaseSession (s.handles.free .socket) }
  if !r.2 then return (closed, -2)
  if !a.startA then return (closed, -3)
  if !a.startB then return (closed, -4)
  return startThreads { s with ctrlRunning := true } a

/-- The resources in front of the handshake, and then the handshake. -/
def startResources (s : Lifecycle) (a : StartAnswers) : Option (Lifecycle × ℤ) :=
  let w := s.handles.make .gcm
  if !a.keyAccepted then some ({ s with handles := w.free .gcm }, -1)
  else if !a.seqSem then some ({ s with handles := w.free .gcm }, -1)
  else
    let w := w.make .seqSem
    if !a.gcmSem then some ({ s with handles := (w.free .seqSem).free .gcm }, -1)
    else
      let w := w.make .gcmSem
      if !a.inputSem then some ({ s with handles := releaseSession w }, -1)
      else
        let w := w.make .inputSem
        if !a.socket then some ({ s with handles := releaseSession w }, -1)
        else startHandshake { s with handles := w.make .socket } a

/-- `control_stream_start`. -/
def Lifecycle.controlStreamStart (s : Lifecycle) (a : StartAnswers) : Option (Lifecycle × ℤ) :=
  let s :=
    if s.handles.Has .socket ∨ s.handles.Has .recvThread then s.controlStreamStop a.stop
    else s
  if !a.keyValid then some (s, -1) else startResources s a

/-! ## Runs -/

/-- What is called, and a thread that ends. -/
inductive LifecycleCall where
  | start (a : StartAnswers)
  | stop (a : StopAnswers)
  | abort
  | threadEnds (h : Handle CtrlResource) (isThread : h.kind.IsThread)

/-- One call. -/
def Lifecycle.call (s : Lifecycle) : LifecycleCall → Option Lifecycle
  | .start a => (s.controlStreamStart a).map Prod.fst
  | .stop a => some (s.controlStreamStop a)
  | .abort => some s.controlStreamAbort
  | .threadEnds h _ => some { s with handles := s.handles.expire h }

/-- Nothing was started yet. -/
def Lifecycle.initial (peer : ServerPeer) : Lifecycle := ⟨.empty, false, peer⟩

/-- The threads of a call end in time. -/
def LifecycleCall.Joins : LifecycleCall → Prop
  | .start a => a.stop.recvEnds = true ∧ a.stop.pingEnds = true
  | .stop a => a.recvEnds = true ∧ a.pingEnds = true
  | _ => True

/-- All kinds, and all but the socket. -/
def allResources : List CtrlResource :=
  [.pingThread, .recvThread, .socket, .inputSem, .gcmSem, .seqSem, .gcm]

/-- A packet holds a VERIFY_CONNECT, behind ACKs, with this connect number, and it names
this peer. -/
def Verifies (data : Packet) (connectId : UInt32) (peer : ServerPeer) : Prop :=
  ∃ p, p + 44 ≤ data.length ∧ (∃ cmd, data[p]? = some cmd ∧ cmd &&& 0x0F = enetCmdVerify) ∧
    getBe16 data (p + 4) = some peer.serverPeerId ∧
    (∃ session, data[p + 6]? = some session ∧ session &&& 0x03 = peer.sessionBits) ∧
    getBe32 data (p + 40) = some connectId

/-- A start that succeeds holds everything and has a peer that verified the connection; one
that does not holds nothing. -/
structure StartLaw (a : StartAnswers) (r : Lifecycle × ℤ) : Prop where
  held : ∀ k, r.1.handles.Has k ↔ r.2 = 0
  verified : r.2 = 0 → ∃ data, some data ∈ a.responses.take 5 ∧
    Verifies (data.take 128) a.connectId r.1.peer

/-- What is true between the calls: the ledger is sound, where only threads end by
themselves, and every variable is set, or none, or all but the socket's. -/
structure Kept (s : Lifecycle) : Prop where
  sound : s.handles.Sound CtrlResource.IsThread
  phase : (∀ k, ¬ s.handles.Has k) ∨ (∀ k, s.handles.Has k) ∨
    ∀ k, s.handles.Has k ↔ k ≠ .socket

end MoonlightPsp.Control

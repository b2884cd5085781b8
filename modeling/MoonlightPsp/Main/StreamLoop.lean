import MoonlightPsp.Main.Teardown
import MoonlightPsp.Pad

/-!
# The streaming loop

One turn of the loop in `main`, with all that leaves it.  Its state is in static
variables, which outlive the session.  What the other threads, the player, the pad
and the clock show in a turn is an argument.
-/

namespace MoonlightPsp.Main

/-- The static variables of the loop and the flags that it shares. -/
structure LoopState where
  streamReadyFlag : Bool
  videoStarted : Bool
  dispCount : ℕ
  idleCount : ℕ
  creditCounter : ℕ
  watchdogRestarts : ℕ
  modeBSoftCount : ℕ
  forceRestartNoProgress : ℕ
  videoSeenThisSession : Bool
  modeDPhase : ℕ
  comboStartUs : UInt32
  streamWaitStart : UInt32
  remoteButtons : UInt32
  remoteExitRequest : Bool
  remoteAppExitRequest : Bool

/-- Where `main` is: at the list of hosts, in the steps of a connection and of the
start of a stream, in the loop, or at its end. -/
inductive Place where
  | hostSelect
  | connecting
  | decoder
  | network
  | control
  | entering
  | streaming
  | ended
  deriving DecidableEq

/-- One call of `moonlight_prepare_process_exit`. -/
structure ExitCall where
  before : StreamSession
  prepared : Bool
  after : StreamSession

/-- The process.  Of its history, which nothing reads, there are the frames that were
displayed before the session, and the exits. -/
structure Process where
  session : StreamSession
  loop : LoopState
  running : Bool
  place : Place
  shownBefore : ℕ
  calls : List ExitCall

/-- What a turn of the loop meets.  In the hardware build `presented` is `taken`; in
the other one the pacing is in between. -/
structure Iteration where
  videoIdleMs : UInt32
  screenButtons : UInt32
  decodePaused : Bool
  profileChange : Option ℤ
  taken : Bool
  presented : Bool
  fecRecoveryPct : ℕ
  bitrate : ℤ
  decodeActiveUs : UInt32
  watchdogUs : UInt32
  settledActiveUs : UInt32
  settledUs : UInt32
  lastFrameDecodeUs : UInt32
  modeBUs : UInt32
  decoderReady : Bool
  modeDMs : UInt32
  pokedButtons : Option UInt32
  pokedExit : Bool
  buttons : UInt32
  comboUs : UInt32
  hudReturn : ℤ
  buttonsHeld : Bool
  exit : StreamSession.ExitOutcome

/-- A turn in which nothing happens. -/
def Iteration.quiet : Iteration where
  videoIdleMs := 0
  screenButtons := 0
  decodePaused := false
  profileChange := none
  taken := false
  presented := false
  fecRecoveryPct := 100
  bitrate := 1000
  decodeActiveUs := 0
  watchdogUs := 0
  settledActiveUs := 0
  settledUs := 0
  lastFrameDecodeUs := 0
  modeBUs := 0
  decoderReady := true
  modeDMs := 0
  pokedButtons := none
  pokedExit := false
  buttons := 0
  comboUs := 0
  hudReturn := 0
  buttonsHeld := false
  exit := .good

namespace Process

/-- Back to the list of hosts: `abort_stream_to_menu` and `goto host_select_loop`. -/
def toHostSelect (m : Process) : Process :=
  { m with session := m.session.abortStreamToMenu, place := .hostSelect }

/-- `moonlight_prepare_process_exit`, noted in the history. -/
def prepareExit (o : StreamSession.ExitOutcome) (m : Process) : Bool × Process :=
  let r := m.session.prepareProcessExit o
  (r.1, { m with session := r.2, calls := m.calls ++ [⟨m.session, r.1, r.2⟩] })

/-- `moonlight_main_exit_to_psplink`, behind which `main` returns. -/
def exitToPsplink (o : StreamSession.ExitOutcome) (m : Process) : Process :=
  { (m.prepareExit o).2 with place := .ended }

/-- A stream without media for ten seconds is ended. -/
def idleRule (i : Iteration) (m : Process) : Process :=
  if m.session.meRunning ∧ m.loop.streamReadyFlag ∧ i.videoIdleMs ≥ 10000 then
    { m with session := { m.session with streamStatus := 1, meRunning := false } }
  else m

/-- The host has ended the stream. -/
def hostEnded (m : Process) : Except Process Process :=
  if !m.session.meRunning ∧ m.session.streamStatus = 1 then .error m.toHostSelect
  else .ok m

/-- The screen of a stream that is stopped or paused, until Circle or Cross. -/
def stoppedScreen (i : Iteration) (m : Process) : Except Process Process :=
  if m.session.meRunning then .ok m
  else
    let buttons := i.screenButtons ||| m.loop.remoteButtons
    let m := { m with loop := { m.loop with remoteButtons := 0 } }
    if held buttons (ctrlCircle ||| ctrlCross) then
      .error { m with session := { m.session with streamStatus := 0 } }.toHostSelect
    else .error m

/-- What may leave the loop before the frame. -/
def earlyExits (i : Iteration) (m : Process) : Except Process Process :=
  if m.loop.remoteAppExitRequest then
    .error (exitToPsplink i.exit { m with
      loop := { m.loop with remoteAppExitRequest := false, remoteButtons := 0 } })
  else if m.loop.remoteExitRequest then
    .error (toHostSelect { m with
      loop := { m.loop with remoteExitRequest := false, remoteButtons := 0 } })
  else if !i.decodePaused ∧ exitCombo m.loop.remoteButtons then
    .error (toHostSelect { m with loop := { m.loop with remoteButtons := 0 } })
  else .ok m

/-- A change of the profile that fails asks for an exit. -/
def profileChange (i : Iteration) (m : Process) : Process :=
  match i.profileChange with
  | none => m
  | some ret =>
      if ret < 0 then { m with loop := { m.loop with remoteExitRequest := true } }
      else m

/-- A frame was taken. -/
def takeFrame (i : Iteration) (m : Process) : Process :=
  if i.taken then { m with loop := { m.loop with videoSeenThisSession := true } } else m

end Process

namespace LoopState

/-- A healthy stream gets back the restarts of its watchdog. -/
def credit (fecRecoveryPct : ℕ) (l : LoopState) : LoopState :=
  let threshold :=
    if fecRecoveryPct > 90 then 600 else if fecRecoveryPct < 70 then 1200 else 900
  if l.creditCounter + 1 ≥ threshold then
    { l with
      creditCounter := 0
      watchdogRestarts := l.watchdogRestarts - 1
      modeBSoftCount := 0 }
  else { l with creditCounter := l.creditCounter + 1 }

/-- A frame is displayed. -/
def display (fecRecoveryPct : ℕ) (l : LoopState) : LoopState :=
  let l := if !l.videoStarted then { l with streamReadyFlag := true } else l
  credit fecRecoveryPct { l with
    videoStarted := true
    dispCount := l.dispCount + 1
    idleCount := 0 }

/-- The decoder hangs in one frame: a restart. -/
def watchdogA (i : Iteration) (l : LoopState) : LoopState :=
  let timeout : UInt32 := if 0 < i.bitrate ∧ i.bitrate < 300 then 5000000 else 3000000
  if l.watchdogRestarts < 5 ∧ i.decodeActiveUs ≠ 0 ∧
      i.watchdogUs - i.decodeActiveUs > timeout ∧ i.settledActiveUs ≠ 0 ∧
      i.settledUs - i.settledActiveUs > timeout then
    { l with watchdogRestarts := l.watchdogRestarts + 1, idleCount := 0 }
  else l

/-- A soft recovery, unless a frame was decoded within four seconds. -/
def softRecovery (i : Iteration) (l : LoopState) : LoopState :=
  if i.lastFrameDecodeUs ≠ 0 ∧ i.modeBUs - i.lastFrameDecodeUs < 4000000 then
    { l with modeBSoftCount := 0, forceRestartNoProgress := 0 }
  else if l.modeBSoftCount + 1 ≥ 3 then
    { l with
      idleCount := 0
      modeBSoftCount := 0
      forceRestartNoProgress := l.forceRestartNoProgress + 1 }
  else { l with modeBSoftCount := l.modeBSoftCount + 1 }

/-- No frames: key frames are asked for, and in the end the exit. -/
def watchdogB (i : Iteration) (l : LoopState) : LoopState :=
  let backoff := if l.forceRestartNoProgress > 0 then 900 else 600
  if l.idleCount > backoff ∧ l.idleCount % backoff < 2 then
    let l := l.softRecovery i
    if l.videoSeenThisSession ∧ l.forceRestartNoProgress ≥ 1 then
      { l with remoteExitRequest := true }
    else l
  else l

/-- The decoder is dead: another restart. -/
def watchdogC (i : Iteration) (l : LoopState) : LoopState :=
  if !i.decoderReady ∧ l.idleCount > 600 ∧ l.idleCount % 600 < 2 ∧
      l.watchdogRestarts < 3 then
    { l with watchdogRestarts := l.watchdogRestarts + 1, idleCount := 0 }
  else l

/-- No frame, while there were some. -/
def stall (i : Iteration) (l : LoopState) : LoopState :=
  watchdogC i (watchdogB i (watchdogA i { l with idleCount := l.idleCount + 1 }))

end LoopState

namespace Process

/-- Mode D of the watchdog, as long as no video has started. -/
def watchdogD (i : Iteration) (m : Process) : Except Process Process :=
  let elapsed := i.modeDMs - m.loop.streamWaitStart
  if elapsed > 20000 ∧ m.loop.modeDPhase < 3 then
    .error { m.toHostSelect with
      loop := { m.loop with videoStarted := false, modeDPhase := 0 } }
  else if elapsed > 15000 ∧ m.loop.modeDPhase < 2 then
    .ok { m with loop := { m.loop with modeDPhase := 2 } }
  else if elapsed > 10000 ∧ m.loop.modeDPhase < 1 then
    .ok { m with loop := { m.loop with modeDPhase := 1 } }
  else .ok m

/-- The frame is displayed, or waited for. -/
def present (i : Iteration) (m : Process) : Except Process Process :=
  if i.presented then .ok { m with loop := m.loop.display i.fecRecoveryPct }
  else if m.loop.videoStarted then .ok { m with loop := m.loop.stall i }
  else watchdogD i m

/-- The combination is held for half a second. -/
def heldCombo (i : Iteration) (buttons : UInt32) (m : Process) :
    Except Process Process :=
  if !i.decodePaused ∧ exitCombo buttons then
    if m.loop.comboStartUs = 0 then
      .ok { m with loop := { m.loop with comboStartUs := i.comboUs } }
    else if i.comboUs - m.loop.comboStartUs ≥ 500000 then
      .error (toHostSelect { m with loop := { m.loop with comboStartUs := 0 } })
    else .ok m
  else .ok { m with loop := { m.loop with comboStartUs := 0 } }

/-- The overlay: a pause, which `continue`s, or the end. -/
def hud (i : Iteration) (m : Process) : Except Process Process :=
  if i.hudReturn = 2 then
    .error { m with session := { m.session with streamStatus := 2, meRunning := false } }
  else if i.hudReturn = 1 then .error m.toHostSelect
  else .ok m

/-- What may leave the loop behind the frame.  `snapshot` has the remote buttons from
the start of the turn. -/
def lateExits (i : Iteration) (snapshot : UInt32) (m : Process) :
    Except Process Process := do
  let remoteButtons := i.pokedButtons.getD m.loop.remoteButtons
  let m := { m with loop := { m.loop with
    remoteButtons
    remoteExitRequest := m.loop.remoteExitRequest || i.pokedExit } }
  let snapshot := snapshot ||| remoteButtons
  let buttons := i.buttons ||| snapshot
  if m.loop.remoteExitRequest then
    .error (toHostSelect { m with loop := { m.loop with remoteExitRequest := false } })
  else if !i.decodePaused ∧ exitCombo snapshot then .error m.toHostSelect
  else
    let m ← heldCombo i buttons m
    let m ← hud i m
    if i.buttonsHeld then .ok m
    else .ok { m with loop := { m.loop with remoteButtons := 0 } }

/-- One turn of the loop, as far as it comes. -/
def turn (i : Iteration) (m : Process) : Except Process Process := do
  let m ← hostEnded (idleRule i m)
  let m ← stoppedScreen i m
  let snapshot := m.loop.remoteButtons
  let m ← earlyExits i m
  let m ← present i (takeFrame i (profileChange i m))
  lateExits i snapshot m

/-- One turn of the loop, or what comes behind it. -/
def iterate (i : Iteration) (m : Process) : Process :=
  if m.running then
    match turn i m with
    | .ok m => m
    | .error m => m
  else exitToPsplink i.exit m

end Process

end MoonlightPsp.Main

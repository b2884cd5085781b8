import MoonlightPsp.Main.StreamLoop

/-!
# The sessions of a process

`main` goes from the list of hosts through a connection and the start of a stream
into the loop, and back.  The end of the process may be asked for at any time by the
module manager, and other threads write to the flags of the loop.
-/

namespace MoonlightPsp.Main

open StreamSession (ExitOutcome)

/-- What happens, one call after the other.  An event of `main` that does not fit the
place where it is does nothing. -/
inductive Event where
  /-- A host is chosen. -/
  | hostChosen
  /-- The connection starts the audio thread. -/
  | audioStarted
  /-- `network_connect_all` fails, and is tried again or given up. -/
  | connectFailed (again : Bool)
  | connected
  /-- `sw_decoder_thread_init`; a failure halts. -/
  | decoderStarted (ret : ℤ) (o : ExitOutcome)
  /-- `network_me_init`, with what a failure leaves in `me_running`. -/
  | networkStarted
  | networkFailed (meRunning : Bool)
  | controlStarted (ret : ℤ)
  /-- The rest of the start, up to the loop. -/
  | loopEntered (inputSocket : ℤ) (nowMs : UInt32)
  | iterated (i : Iteration)
  /-- The list of hosts asks for the end. -/
  | quit (o : ExitOutcome)
  /-- Calls that `main` does not make. -/
  | aborted
  | exitedProcessNow (o : ExitOutcome)
  | moduleStopped (o : ExitOutcome)
  | exitCallback
  /-- Other threads write to `me_running` and `g_stream_status`. -/
  | written (meRunning : Bool) (streamStatus : ℕ)
  /-- The remote control writes to its words. -/
  | poked (buttons : UInt32) (exitRequest appExitRequest : Bool)

namespace Process

/-- What the process starts with. -/
def init : Process where
  session := .init
  loop := {
    streamReadyFlag := false
    videoStarted := false
    dispCount := 0
    idleCount := 0
    creditCounter := 0
    watchdogRestarts := 0
    modeBSoftCount := 0
    forceRestartNoProgress := 0
    videoSeenThisSession := false
    modeDPhase := 0
    comboStartUs := 0
    streamWaitStart := 0
    remoteButtons := 0
    remoteExitRequest := false
    remoteAppExitRequest := false }
  running := true
  place := .hostSelect
  shownBefore := 0
  calls := []

/-- The way into a connection. -/
def chooseHost (m : Process) : Process :=
  { m with
    loop := { m.loop with streamReadyFlag := false }
    place := .connecting
    shownBefore := m.loop.dispCount }

def startAudio (m : Process) : Process :=
  { m with session := m.session.start .audio }

/-- The steps of a failed connection. -/
def connectFailed (again : Bool) (m : Process) : Process :=
  let session := m.session.stopAll [.networkMe, .controlStream, .audio]
  { m with
    session := { session with meRunning := false }
    place := if again then .connecting else .hostSelect }

def startDecoder (ret : ℤ) (o : ExitOutcome) (m : Process) : Process :=
  if ret < 0 then m.exitToPsplink o
  else { m with session := { m.session with meRunning := true }, place := .network }

def startNetwork (m : Process) : Process :=
  { m with
    session := { m.session.start .networkMe with meRunning := true }
    place := .control }

def networkFailed (meRunning : Bool) (m : Process) : Process :=
  { m with session := { m.session with meRunning }, place := .control }

def startControl (ret : ℤ) (m : Process) : Process :=
  if ret < 0 then m.toHostSelect
  else { m with session := m.session.start .controlStream, place := .entering }

/-- The start of the loop. -/
def enterLoop (inputSocket : ℤ) (nowMs : UInt32) (m : Process) : Process :=
  let session := m.session.start .safetyBuffer
  { m with
    session := if inputSocket ≥ 0 then session.start .input else session
    loop := { m.loop with
      videoSeenThisSession := false
      modeBSoftCount := 0
      forceRestartNoProgress := 0
      streamWaitStart := nowMs }
    place := .streaming }

/-- `moonlight_exit_process_now`. -/
def exitProcessNow (o : ExitOutcome) (m : Process) : Process :=
  if m.session.xmbExitInProgress then m
  else
    let r := prepareExit o
      { m with session := { m.session with xmbExitInProgress := true } }
    if r.1 then r.2
    else { r.2 with session := { r.2.session with xmbExitInProgress := false } }

/-- What `exit_callback` and `module_stop` write first. -/
def callback (m : Process) : Process :=
  { m with
    running := false
    loop := { m.loop with
      remoteButtons := 0
      remoteExitRequest := false
      remoteAppExitRequest := false } }

/-- `module_stop`. -/
def moduleStop (o : ExitOutcome) (m : Process) : Process :=
  let m := m.callback
  let r := prepareExit o
    { m with session := { m.session with meRunning := false, streamStatus := 0 } }
  { r.2 with session := { r.2.session with meRunning := false, streamStatus := 0 } }

/-- A step of `main` at its place. -/
def atPlace (p : Place) (f : Process → Process) (m : Process) : Process :=
  if m.place = p then f m else m

/-- One event. -/
def step (m : Process) : Event → Process
  | .hostChosen => m.atPlace .hostSelect chooseHost
  | .audioStarted => m.atPlace .connecting startAudio
  | .connectFailed again => m.atPlace .connecting (connectFailed again)
  | .connected => m.atPlace .connecting fun m => { m with place := .decoder }
  | .decoderStarted ret o => m.atPlace .decoder (startDecoder ret o)
  | .networkStarted => m.atPlace .network startNetwork
  | .networkFailed meRunning => m.atPlace .network (networkFailed meRunning)
  | .controlStarted ret => m.atPlace .control (startControl ret)
  | .loopEntered inputSocket nowMs => m.atPlace .entering (enterLoop inputSocket nowMs)
  | .iterated i => m.atPlace .streaming (iterate i)
  | .quit o => m.atPlace .hostSelect (exitToPsplink o)
  | .aborted => { m with session := m.session.abortStreamToMenu }
  | .exitedProcessNow o => m.exitProcessNow o
  | .moduleStopped o => m.moduleStop o
  | .exitCallback => m.callback
  | .written meRunning streamStatus =>
      { m with session := { m.session with meRunning, streamStatus } }
  | .poked remoteButtons remoteExitRequest remoteAppExitRequest =>
      { m with loop := { m.loop with
        remoteButtons, remoteExitRequest, remoteAppExitRequest } }

/-- A run. -/
def run (m : Process) (events : List Event) : Process := events.foldl step m

/-- A step of `main` keeps what its function keeps. -/
theorem atPlace_invariant {I : Process → Prop} {m : Process} (h : I m) {p : Place}
    {f : Process → Process} (hf : I (f m)) : I (m.atPlace p f) := by
  rw [atPlace]
  split
  · exact hf
  · exact h

/-- The start of a session, up to the loop. -/
def sessionStart : List Event :=
  [.hostChosen, .audioStarted, .connected, .decoderStarted 0 .good, .networkStarted,
    .controlStarted 0, .loopEntered 5 1000]

end Process

end MoonlightPsp.Main

import MoonlightPsp.Lib.GuardedRun

/-!
# The power switch

`power_handler.c` is told by a callback that the power switch was used.  The callback
leaves the event in `g_power_event`; a thread looks there now and then, runs a handler
for what it finds, and clears the variable.  The callback may come between any two steps
of the thread.

The log is not part of the program: it tells which events were delivered and which
handlers were started.
-/

namespace MoonlightPsp.Power

/-- `PowerState`. -/
inductive PowerState where
  | awake
  | suspending
  | suspended
  | resuming
  | resumeFailed
  deriving DecidableEq

/-- `PowerHandlerStats`. -/
structure PowerHandlerStats where
  suspendCount : UInt32
  resumeCount : UInt32
  quickReconnectSuccess : UInt32
  quickReconnectFailed : UInt32
  lastSuspendTime : UInt32
  lastResumeTime : UInt32
  totalSuspendDurationMs : UInt32
  deriving DecidableEq

/-- What `load_session_token` checks of a `SessionToken`. -/
structure SessionToken where
  cacheTimestamp : UInt32
  isValid : Bool
  deriving DecidableEq

/-- The events that `power_callback` knows. -/
inductive PowerEvent where
  | suspending
  | standby
  | resumeComplete
  deriving DecidableEq

/-- The handlers of `power_thread`. -/
inductive Handler where
  | suspend
  | resume
  deriving DecidableEq

/-- What the log tells. -/
inductive LogEntry where
  | delivered (e : PowerEvent)
  | started (h : Handler)
  deriving DecidableEq

/-- What `power_thread` does next, also within a handler. -/
inductive Place where
  | testSuspend
  | testResume
  | suspend
  | cacheToken
  | suspendWait
  | resume
  | reconnect
  | clear
  | delay
  deriving DecidableEq

/-- The statics, with the variables of the stream that the handlers set.  A token file
that is short cannot be read either. -/
structure PowerStatics where
  place : Place
  powerEvent : ℕ
  powerState : PowerState
  stats : PowerHandlerStats
  tokenFile : Option SessionToken
  meRunning : Bool
  isPaired : Bool
  log : List LogEntry

/-- What a step of the thread finds: the time in microseconds, and whether the token can
be opened for writing, is written, can be read, and whether the server answers. -/
structure ThreadEnv where
  now : UInt64
  opensToken : Bool
  writesToken : Bool
  readsToken : Bool
  connects : Bool
  plays : Bool

/-! ## The callback -/

/-- The value that stands for an event in `g_power_event`. -/
def PowerEvent.value : PowerEvent → ℕ
  | .suspending => 1
  | .standby => 1
  | .resumeComplete => 2

/-- The event that the flags tell. -/
def flaggedEvent (powerFlags : UInt32) : Option PowerEvent :=
  if powerFlags &&& 0x00010000 ≠ 0 then some .suspending
  else if powerFlags &&& 0x00080000 ≠ 0 then some .standby
  else if powerFlags &&& 0x00040000 ≠ 0 then some .resumeComplete
  else none

/-- `power_callback`. -/
def powerCallback (s : PowerStatics) (powerFlags : UInt32) : PowerStatics :=
  match flaggedEvent powerFlags with
  | some e => { s with powerEvent := e.value, log := s.log ++ [.delivered e] }
  | none => s

/-! ## The handlers -/

/-- `save_session_token`. -/
def saveSessionToken (s : PowerStatics) (env : ThreadEnv) : PowerStatics :=
  if env.opensToken then
    { s with
      tokenFile :=
        if env.writesToken then some ⟨(env.now / 1000000).toUInt32, true⟩ else none }
  else s

/-- `load_session_token`, and whether it succeeds. -/
def loadSessionToken (s : PowerStatics) (env : ThreadEnv) : Bool :=
  match s.tokenFile with
  | none => false
  | some token =>
      env.readsToken && token.isValid &&
        decide (env.now / 1000000 - token.cacheTimestamp.toUInt64 ≤ 3600)

/-- `power_handler_quick_reconnect`. -/
def powerHandlerQuickReconnect (s : PowerStatics) (env : ThreadEnv) : Bool × PowerStatics :=
  if loadSessionToken s env && env.connects && env.plays then
    (true, { s with meRunning := true, isPaired := true })
  else (false, s)

/-- The time in milliseconds. -/
def ThreadEnv.ms (env : ThreadEnv) : UInt32 := (env.now / 1000).toUInt32

/-- `handle_suspend` until it caches the token. -/
def beginSuspend (s : PowerStatics) (env : ThreadEnv) : PowerStatics :=
  { s with
    powerState := .suspending
    stats := { s.stats with
      suspendCount := s.stats.suspendCount + 1
      lastSuspendTime := env.ms } }

/-- `handle_resume` until it reconnects. -/
def beginResume (s : PowerStatics) (env : ThreadEnv) : PowerStatics :=
  { s with
    powerState := .resuming
    stats := { s.stats with
      resumeCount := s.stats.resumeCount + 1
      lastResumeTime := env.ms
      totalSuspendDurationMs :=
        if s.stats.lastSuspendTime > 0 then
          s.stats.totalSuspendDurationMs + (env.ms - s.stats.lastSuspendTime)
        else s.stats.totalSuspendDurationMs } }

/-- The rest of `handle_resume`. -/
def finishResume (s : PowerStatics) (env : ThreadEnv) : PowerStatics :=
  match powerHandlerQuickReconnect s env with
  | (true, s) =>
      { s with
        powerState := .awake
        stats := { s.stats with
          quickReconnectSuccess := s.stats.quickReconnectSuccess + 1 } }
  | (false, s) =>
      { s with
        powerState := .resumeFailed
        stats := { s.stats with
          quickReconnectFailed := s.stats.quickReconnectFailed + 1 } }

/-! ## The thread -/

/-- The thread goes on somewhere. -/
def PowerStatics.goTo (s : PowerStatics) (place : Place) : PowerStatics := { s with place }

/-- A handler is called. -/
def PowerStatics.enter (s : PowerStatics) (h : Handler) (place : Place) : PowerStatics :=
  { s with place, log := s.log ++ [.started h] }

/-- `power_thread`, from one access to `g_power_event` or wait to the next. -/
def powerThread (s : PowerStatics) (env : ThreadEnv) : PowerStatics :=
  match s.place with
  | .testSuspend =>
      if s.powerEvent = 1 then s.enter .suspend .suspend else s.goTo .testResume
  | .testResume =>
      if s.powerEvent = 2 then s.enter .resume .resume else s.goTo .delay
  | .suspend => (beginSuspend s env).goTo .cacheToken
  | .cacheToken => { saveSessionToken s env with meRunning := false, place := .suspendWait }
  | .suspendWait => { s with powerState := .suspended, place := .clear }
  | .resume => (beginResume s env).goTo .reconnect
  | .reconnect => (finishResume s env).goTo .clear
  | .clear => { s with powerEvent := 0, place := .delay }
  | .delay => s.goTo .testSuspend

/-- What happens: the callback is invoked, or the thread takes a step. -/
inductive PowerInput where
  | callback (powerFlags : UInt32)
  | thread (env : ThreadEnv)

/-- One input. -/
def PowerStatics.step (s : PowerStatics) : PowerInput → PowerStatics
  | .callback powerFlags => powerCallback s powerFlags
  | .thread env => powerThread s env

/-- The statics when the thread enters its loop, `tokenFile` being what an earlier run
of the program left. -/
def PowerStatics.initial (tokenFile : Option SessionToken) (meRunning isPaired : Bool) : PowerStatics where
  place := .testSuspend
  powerEvent := 0
  powerState := .awake
  stats := ⟨0, 0, 0, 0, 0, 0, 0⟩
  tokenFile := tokenFile
  meRunning := meRunning
  isPaired := isPaired
  log := []

end MoonlightPsp.Power

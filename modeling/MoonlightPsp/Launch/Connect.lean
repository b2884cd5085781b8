import MoonlightPsp.Launch.Session

/-!
# Connecting to a host

The pairing is verified, or made anew; then an application is selected and launched, and the RTSP
session is set up.  Where that fails for want of the network, the whole is tried again with the
same application, and what was launched is cancelled before.
-/

namespace MoonlightPsp.Launch

open Rtsp Config
open Pairing (tagValue)

/-! ## The state -/

/-- The application of the last failure is kept with its host. -/
structure ConnectState extends LaunchState where
  retryAppId : ℤ
  retryHost : Text

/-- How the pairing with a PIN ends; where it fails, `g_is_paired` is what its thread left. -/
inductive PairingEnd where
  | paired
  | failed (isPaired : Bool)

/-- What the connection meets. -/
structure ConnectEnv extends LaunchEnv where
  network : Rtsp.Env
  /-- Whether an earlier cancellation goes on. -/
  cancelActive : List LaunchEvent → Bool
  pairing : List LaunchEvent → PairingEnd
  /-- `game_grid_ui_run`. -/
  select : List LaunchEvent → ℤ

/-- A result of the function, and the state that it leaves. -/
abbrev ConnectExit : Type := ℤ × ConnectState

/-- A step of the launch. -/
def ConnectState.within (s : ConnectState) (t : LaunchState) : ConnectState :=
  { s with toLaunchState := t }

/-- One event more. -/
def ConnectState.record (s : ConnectState) (e : LaunchEvent) : ConnectState :=
  { s with log := s.log ++ [e] }

/-- `network_connect_clear_retry_app`. -/
def networkConnectClearRetryApp (s : ConnectState) : ConnectState :=
  { s with retryAppId := -1, retryHost := [] }

/-- `rtsp_session_close`; no socket persists, so nothing is sent. -/
def rtspSessionClose (s : RtspState) : RtspState := { s with sessionId := [] }

/-- The pairing is no longer taken for granted. -/
def ConnectState.unpair (s : ConnectState) : ConnectState :=
  { s with isPaired := false, lastPairedHost := [] }

/-! ## The steps of `network_connect_all` -/

/-- What the server information says about the pairing. -/
inductive PairVerdict where
  | verified
  | rejected
  | unknown
  deriving DecidableEq

/-- The verdict on an answer. -/
def pairVerdict (reply : Reply) : PairVerdict :=
  let status := if reply.ok then xmlGetStatusCodeAttr reply.resp else 0
  let pairStatus := tagValue "PairStatus".toList 16 reply.resp
  if status = 401 ∨ status = 403 ∨ (status = 200 ∧ pairStatus = some "0".toList) then .rejected
  else if status ≠ 200 ∨ pairStatus ≠ some "1".toList then .unknown
  else .verified

/-- A cached pairing is verified. -/
def verifyPairing (env : ConnectEnv) (s : ConnectState) : Except ConnectExit ConnectState :=
  if s.isPaired then
    let (reply, t) := ask env.toLaunchEnv (.serverInfo true) [] s.toLaunchState
    match pairVerdict reply with
    | .verified => .ok (s.within t)
    | .rejected => .ok (s.within t).unpair
    | .unknown => .error (-1, s.within t)
  else .ok s

/-- Step 1. -/
def ensurePaired (env : ConnectEnv) (s : ConnectState) : Except ConnectExit ConnectState :=
  if s.isPaired then .ok s
  else
    match env.pairing s.log with
    | .paired =>
        .ok { s.record (.paired true) with
          isPaired := true
          lastPairedHost := env.sunshineHost.text }
    | .failed isPaired => .error (-1, { s.record (.paired false) with isPaired })

/-- Step 4: the application. -/
def selectApp (env : ConnectEnv) (s : ConnectState) : Except ConnectExit (ℤ × ConnectState) :=
  let s := if 0 ≤ s.retryAppId ∧ s.retryHost ≠ env.sunshineHost.text then
      networkConnectClearRetryApp s
    else s
  if 0 ≤ s.retryAppId then .ok (s.retryAppId, s)
  else
    let appId := env.select s.log
    let s := s.record (.selected appId)
    if appId = -3 then .error (-1, (networkConnectClearRetryApp s).unpair)
    else if appId < 0 then .error (-2, networkConnectClearRetryApp s)
    else .ok (appId, { s with retryAppId := appId, retryHost := env.sunshineHost.text })

/-- The launch, which is tried twice. -/
def launchTwice (env : ConnectEnv) (appId : ℤ) (s : ConnectState) : ℤ × ConnectState :=
  let (ret, t) := sunshineLaunchSession env.toLaunchEnv appId s.toLaunchState
  if ret ≠ 0 ∧ ret ≠ -401 then
    let (ret, t) := sunshineLaunchSession env.toLaunchEnv appId (wait 2000 t)
    (ret, s.within t)
  else (ret, s.within t)

/-- Step 4: the launch. -/
def launchApp (env : ConnectEnv) (appId : ℤ) (s : ConnectState) :
    Except ConnectExit ConnectState :=
  let (ret, s) := launchTwice env appId s
  if ret = -401 then .error (-1, networkConnectClearRetryApp s)
  else if ret < 0 then .error (-3, s)
  else .ok s

/-- An attempt of `rtsp_session`. -/
def tryRtsp (env : ConnectEnv) (s : ConnectState) : ℤ × ConnectState :=
  let (ret, rtsp) := rtspSession env.network s.rtsp
  (ret, { s.record (.rtsp ret) with rtsp })

/-- The attempts of step 2, with the pauses in front of those that follow. -/
def rtspTries (env : ConnectEnv) (s : ConnectState) : List ℕ → ℤ × ConnectState
  | [] => tryRtsp env s
  | pause :: pauses =>
      let (ret, s) := tryRtsp env s
      if ret < 0 then rtspTries env (s.within (wait pause s.toLaunchState)) pauses
      else (ret, s)

/-- Step 2. -/
def setUpRtsp (env : ConnectEnv) (s : ConnectState) : ℤ × ConnectState :=
  let (ret, s) := rtspTries env (s.within (wait 500 s.toLaunchState)) [1000, 2000]
  if ret < 0 then
    let (_, t) := askTwice env.toLaunchEnv 3000 Reply.ok .cancel [] s.toLaunchState
    (-3, s.within (wait 8000 t))
  else (0, networkConnectClearRetryApp s)

/-- The steps in their order. -/
def connectSteps (env : ConnectEnv) (s : ConnectState) : Except ConnectExit ConnectExit := do
  let s ← verifyPairing env (s.within (wait 100 s.toLaunchState))
  let s ← ensurePaired env s
  let (appId, s) ← selectApp env (s.within (wait 100 s.toLaunchState))
  let s ← launchApp env appId s
  return setUpRtsp env s

/-- `network_connect_all`. -/
def networkConnectAll (env : ConnectEnv) (s : ConnectState) : ℤ × ConnectState :=
  if env.cancelActive s.log then (-3, s)
  else
    match connectSteps env s with
    | .ok r => r
    | .error e => e

/-! ## The loop around it -/

/-- The loop of `main`, with the attempts that are left. -/
def connectLoop (env : ConnectEnv) : ℕ → ConnectState → ℤ × ConnectState
  | 0, s => (-3, s)
  | attempts + 1, s =>
      let (ret, s) := networkConnectAll env s
      if ret = -3 ∧ attempts ≠ 0 then
        connectLoop env attempts
          (s.within (wait 5000 { s.toLaunchState with rtsp := rtspSessionClose s.rtsp }))
      else (ret, s)

/-- The connection of `main` to a host that was selected; what failed is not tried again later. -/
def connectToHost (env : ConnectEnv) (s : ConnectState) : ℤ × ConnectState :=
  let (ret, s) := connectLoop env 3 s
  if ret < 0 then
    (ret, networkConnectClearRetryApp { s with rtsp := rtspSessionClose s.rtsp })
  else (ret, s)

end MoonlightPsp.Launch

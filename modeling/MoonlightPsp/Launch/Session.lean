import MoonlightPsp.Config.LoadSave
import MoonlightPsp.Identity.Digest
import MoonlightPsp.Launch.Target
import MoonlightPsp.Lib.EarlyExit
import MoonlightPsp.Lib.PastTime
import MoonlightPsp.Pairing.Decoding
import MoonlightPsp.Rtsp.Framing

/-!
# Launching a session

Before the RTSP session, the host is asked what it runs, and then to launch the application or
to resume the one that runs.  What runs is stopped only where the user wants that, or wants to
resume it and the host does not.

The host answers each request as it likes, and sees all that was asked before.
-/

namespace MoonlightPsp.Launch

open Rtsp Config EarlyExit
open Identity (byteDigits hexLower)
open Pairing (tagValue)

/-! ## Requests -/

/-- `rikey` and `rikeyid`. -/
structure SessionKey where
  riKey : Vector UInt8 16
  riKeyId : UInt32
  deriving DecidableEq

/-- What a launch asks for. -/
structure LaunchMode where
  appId : ℤ
  width : ℤ
  height : ℤ
  fps : ℤ
  sops : ℤ
  corever : ℤ
  slices : ℤ
  deriving DecidableEq

inductive Request where
  | serverInfo (secure : Bool)
  | resume (key : SessionKey)
  | cancel
  | launch (mode : LaunchMode) (key : SessionKey)
  deriving DecidableEq

/-- `AUDIO_STREAM_SURROUND_INFO`. -/
def audioStreamSurroundInfo : ℤ := 65537

/-- `&rikey=%s&rikeyid=%d`. -/
def SessionKey.text (key : SessionKey) : Text :=
  "&rikey=".toList ++ key.riKey.toList.flatMap (byteDigits hexLower) ++ "&rikeyid=".toList ++
    decimal key.riKeyId.toNat

/-- The path of a request, for the ids of the client. -/
def Request.path (uid uuid : Text) (r : Request) : Text :=
  let ids := "?uniqueid=".toList ++ uid ++ "&uuid=".toList ++ uuid
  snprintf 1024 <|
    match r with
    | serverInfo _ => "/serverinfo".toList ++ ids
    | resume key =>
        "/resume".toList ++ ids ++ key.text ++ "&surroundAudioInfo=".toList ++
          signed audioStreamSurroundInfo ++ "&continuousAudio=0".toList
    | cancel => "/cancel".toList ++ ids
    | launch mode key =>
        "/launch".toList ++ ids ++ "&appid=".toList ++ signed mode.appId ++ "&mode=".toList ++
          signed mode.width ++ "x".toList ++ signed mode.height ++ "x".toList ++
          signed mode.fps ++ "&sops=".toList ++ signed mode.sops ++ key.text ++
          "&localAudioPlayMode=0&additionalStates=0&surroundAudioInfo=".toList ++
          signed audioStreamSurroundInfo ++
          "&remoteControllersBitmap=1&gcmap=1&continuousAudio=0&corever=".toList ++
          signed mode.corever ++
          "&supportedVideoFormats=1&videoCapabilities=2&videoEncoderSlicesPerFrame=".toList ++
          signed mode.slices

/-! ## Responses -/

/-- `xml_get_status_code_attr`. -/
def xmlGetStatusCodeAttr (buf : Text) : ℤ :=
  match after "status_code=".toList buf with
  | none => -1
  | some p =>
      let value :=
        match p with
        | [] => []
        | c :: rest =>
            if c = '"' ∨ c = '\'' then rest.takeWhile (· ≠ c)
            else p.takeWhile fun c => c ≠ ' ' ∧ c ≠ '>'
      let tmp := value.take 15
      if tmp = [] then -1 else atoi32 tmp

/-- The game that the server information names, unless the server is not busy. -/
def currentGame (resp : Text) : ℤ :=
  let game := ((tagValue "currentgame".toList 16 resp).map atoi32).getD 0
  if 0 < game then
    match tagValue "state".toList 64 resp with
    | none => game
    | some state => if contains "_SERVER_BUSY".toList state then game else 0
  else game

/-- What comes of a request.  It fails, perhaps with an empty response; or it returns 0, with a
response or without one, where the certificate was not the one that is pinned. -/
inductive Answer where
  | failed
  | empty
  | silent
  | body (resp : Text)

/-- The request returns 0. -/
def Answer.ok : Answer → Bool
  | failed | empty => false
  | silent | body _ => true

/-- The buffer of the caller then. -/
def Answer.leave (resp : Text) : Answer → Text
  | failed | silent => resp
  | empty => []
  | body resp => resp

/-- Nothing is read behind a cancellation. -/
def Request.read (r : Request) (answer : Answer) : Answer :=
  match r, answer with
  | cancel, .empty => .failed
  | cancel, .body _ => .silent
  | _, answer => answer

/-- The buffer is cleared before the request. -/
def Request.clears : Request → Bool
  | serverInfo _ | cancel => true
  | resume _ | launch _ _ => false

/-- What came of a request, and what the buffer holds then. -/
structure Reply where
  answer : Answer
  resp : Text

def Reply.ok (reply : Reply) : Bool := reply.answer.ok

/-- 0, with a text of status 200 in the buffer. -/
def Reply.isOk (reply : Reply) : Bool := reply.ok && xmlGetStatusCodeAttr reply.resp = 200

/-! ## The choice of the user -/

/-- `UIEvent`. -/
inductive UIEvent where
  | none | up | down | left | right | select | back | start | scan | menu | lHeld | rHeld

/-- What is to become of the session that runs. -/
inductive SessionAction where
  | resume
  | quit
  | back
  deriving DecidableEq

/-- The loop of `prompt_existing_session_action`, until the user has decided. -/
def promptLoop (quit : Bool) : List UIEvent → Option SessionAction
  | [] => none
  | e :: events =>
      match e with
      | .left | .up => promptLoop false events
      | .right | .down => promptLoop true events
      | .select | .start => some (if quit then .quit else .resume)
      | .back => some .back
      | _ => promptLoop quit events

/-- The input up to a decision. -/
structure Decision where
  events : List UIEvent
  action : SessionAction
  decided : promptLoop true events = some action

/-! ## The state -/

/-- What was done since the start of the program. -/
inductive LaunchEvent where
  | asked (r : Request) (reply : Reply)
  | waited (ms : ℕ)
  | prompted (action : SessionAction)
  /-- The pairing has ended. -/
  | paired (ok : Bool)
  /-- The user was shown the games. -/
  | selected (appId : ℤ)
  | rtsp (ret : ℤ)

/-- The variables of the connection, the calls of `saveConfig`, and the log. -/
structure LaunchState where
  remoteInputKey : Option (Vector UInt8 16)
  avRiKeyId : UInt32
  isPaired : Bool
  lastPairedHost : Text
  config : PspConfig
  saved : List PspConfig
  rtsp : RtspState
  log : List LaunchEvent

/-- The client, the host, the user, and the random numbers. -/
structure LaunchEnv where
  sunshineHost : Field 16
  uid : Text
  uuid : Text
  /-- `RESOLUTION_WIDTHS` and `RESOLUTION_HEIGHTS`. -/
  resolutions : Vector (ℤ × ℤ) 4
  host : List LaunchEvent → Text → Answer
  user : List LaunchEvent → Decision
  drawKey : List LaunchEvent → Option (Vector UInt8 16)
  drawId : List LaunchEvent → Option UInt32

/-- A result of the function, and the state that it leaves. -/
abbrev Exit : Type := ℤ × LaunchState

/-- `https_launch_get`, or `http_pair_get` of a URL with the same path, into a buffer. -/
def ask (env : LaunchEnv) (r : Request) (resp : Text) (s : LaunchState) : Reply × LaunchState :=
  let answer := r.read (env.host s.log (r.path env.uid env.uuid))
  let reply := ⟨answer, answer.leave (if r.clears then [] else resp)⟩
  (reply, { s with log := s.log ++ [.asked r reply] })

/-- `sceKernelDelayThread`. -/
def wait (ms : ℕ) (s : LaunchState) : LaunchState := { s with log := s.log ++ [.waited ms] }

/-- A request that is made again after a pause if its answer will not do. -/
def askTwice (env : LaunchEnv) (pause : ℕ) (good : Reply → Bool) (r : Request) (resp : Text)
    (s : LaunchState) : Reply × LaunchState :=
  let (reply, s) := ask env r resp s
  if good reply then (reply, s) else ask env r reply.resp (wait pause s)

/-! ## The steps of `sunshine_launch_session` -/

/-- Step A. -/
def queryServerInfo (env : LaunchEnv) (s : LaunchState) : Except Exit (Text × LaunchState) :=
  let (reply, s) := askTwice env 750 Reply.isOk (.serverInfo true) [] s
  if reply.isOk then .ok (reply.resp, s) else fallback reply.resp s
where
  /-- The plain port. -/
  fallback (resp : Text) (s : LaunchState) : Except Exit (Text × LaunchState) :=
    let (reply, s) := askTwice env 750 Reply.isOk (.serverInfo false) resp s
    if reply.isOk then .ok (reply.resp, s) else .error (-1, s)

/-- Step B. -/
def drawKeys (env : LaunchEnv) (s : LaunchState) : Except Exit (SessionKey × LaunchState) :=
  match env.drawKey s.log with
  | none => .error (-1, s)
  | some riKey =>
      let s := { s with remoteInputKey := some riKey }
      match env.drawId s.log with
      | none => .error (-1, s)
      | some drawn =>
          let riKeyId := if drawn &&& 0x7FFFFFFF = 0 then 1 else drawn &&& 0x7FFFFFFF
          .ok (⟨riKey, riKeyId⟩, { s with avRiKeyId := riKeyId })

/-- The first entry of a host leaves the list of paired hosts. -/
def removePairedHost (host : Text) (config : PairedHosts) : PairedHosts :=
  let pi := config.hosts.idxOf host
  if pi < config.pairedHostCount then
    { pairedHostCount := config.pairedHostCount - 1
      pairedHostIps := Vector.ofFn fun i : Fin 8 =>
        if i < pi ∨ config.pairedHostCount ≤ i then config.pairedHostIps.get i
        else if i.val + 1 < config.pairedHostCount then
          config.pairedHostIps[i.val + 1]?.getD (.cleared 16)
        else .cleared 16 }
  else config

/-- What a 401 does. -/
def forgetPairing (env : LaunchEnv) (s : LaunchState) : LaunchState :=
  let config :=
    { s.config with toPairedHosts := removePairedHost env.sunshineHost.text s.config.toPairedHosts }
  { s with
    isPaired := false
    lastPairedHost := []
    config
    saved := s.saved ++ [config] }

/-- Whether a launch is needed, with the buffer of the responses. -/
abbrev Course : Type := Bool × Text

/-- The session that runs is quit; the cancellation has a buffer of its own. -/
def quitCurrent (env : LaunchEnv) (resp : Text) (s : LaunchState) :
    Except Exit (Course × LaunchState) :=
  let (reply, s) := askTwice env 3000 Reply.ok .cancel [] s
  if reply.ok ∧ xmlGetStatusCodeAttr reply.resp = 401 then .error (-401, forgetPairing env s)
  else .ok ((true, resp), wait 6000 s)

/-- Step C. -/
def settleExisting (env : LaunchEnv) (key : SessionKey) (resp : Text) (s : LaunchState) :
    Except Exit (Course × LaunchState) :=
  let action := (env.user s.log).action
  let s := { s with log := s.log ++ [.prompted action] }
  match action with
  | .back => .error (-1, s)
  | .quit => quitCurrent env resp s
  | .resume =>
      let (reply, s) := askTwice env 3000 Reply.ok (.resume key) resp s
      if reply.isOk then .ok ((false, reply.resp), s) else quitCurrent env reply.resp s

/-- The size and the index of the resolution are made to agree. -/
def fixResolution (env : LaunchEnv) (config : PspConfig) : PspConfig :=
  let ri := if config.resolutionIndex < 0 ∨ 4 ≤ config.resolutionIndex then 0
    else config.resolutionIndex.toNat
  match env.resolutions.toList.findIdx? (· = (config.width, config.height)) with
  | some matched =>
      if ri ≠ matched then { config with resolutionIndex := matched } else config
  | none =>
      let size := env.resolutions.toList.getD ri (0, 0)
      { config with width := size.1, height := size.2 }

/-- `network_video_slices_per_frame`. -/
def networkVideoSlicesPerFrame (cabacMode audioEnabled width height fps : ℤ) : ℤ :=
  if cabacMode ≠ 0 ∧ audioEnabled = 0 ∧ width ≤ 320 ∧ height ≤ 180 ∧ 30 ≤ fps then 2 else 1

/-- What the configuration asks for. -/
def launchMode (appId : ℤ) (config : PspConfig) : LaunchMode where
  appId
  width := config.width
  height := config.height
  fps := config.fps
  sops := if config.controlMode = .xbox then 1 else 0
  corever := if config.disableEncryption ≠ 0 then 0 else 1
  slices := networkVideoSlicesPerFrame config.cabacTestMode config.audioEnabled config.width
    config.height (if 0 < config.fps then config.fps else 30)

/-- Step D. -/
def launchFresh (env : LaunchEnv) (appId : ℤ) (key : SessionKey) (resp : Text)
    (s : LaunchState) : Except Exit (Text × LaunchState) :=
  let s := { s with config := fixResolution env s.config }
  let (reply, s) :=
    askTwice env 2000 Reply.ok (.launch (launchMode appId s.config) key) resp s
  if reply.ok then
    let status := xmlGetStatusCodeAttr reply.resp
    if status = 200 then .ok (reply.resp, s)
    else if status = 401 then .error (-401, forgetPairing env s)
    else .error (-1, s)
  else .error (-1, s)

/-- The target of the session, and the encryption that its URL asks for. -/
def enterSession (env : LaunchEnv) (url : Text) (s : RtspState) : RtspState :=
  let s := if contains "rtspenc://".toList url then launchEncrypted s
    else { s with rtspEncrypted := false }
  rtspSetTargetFromSessionUrl env.sunshineHost url s

/-- Step E. -/
def takeSession (env : LaunchEnv) (resp : Text) (s : LaunchState) :
    Except Exit (Unit × LaunchState) :=
  match tagValue "sessionUrl0".toList 256 resp with
  | none => .error (-1, s)
  | some url => .ok ((), { s with rtsp := enterSession env url s.rtsp })

/-- What the server information says about step C. -/
def settle (env : LaunchEnv) (key : SessionKey) (info : Text) (s : LaunchState) :
    Except Exit (Course × LaunchState) :=
  let game := currentGame info
  if 0 < game then settleExisting env key info s
  -- A negative number passes for a session that was resumed.
  else .ok ((game = 0, info), s)

/-- The steps in their order. -/
def launchSteps (env : LaunchEnv) (appId : ℤ) (s : LaunchState) :
    Except Exit (Unit × LaunchState) := do
  let (info, s) ← queryServerInfo env s
  let (key, s) ← drawKeys env s
  match ← settle env key info s with
  | ((false, resp), s) => takeSession env resp s
  | ((true, resp), s) =>
      let (resp, s) ← launchFresh env appId key resp s
      takeSession env resp s

/-- `sunshine_launch_session`. -/
def sunshineLaunchSession (env : LaunchEnv) (appId : ℤ) (s : LaunchState) : ℤ × LaunchState :=
  match launchSteps env appId s with
  | .ok (_, s) => (0, s)
  | .error e => e

end MoonlightPsp.Launch

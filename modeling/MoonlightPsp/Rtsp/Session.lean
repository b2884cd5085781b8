import MoonlightPsp.Control.Model
import MoonlightPsp.Rtsp.Text

/-!
# The RTSP handshake

A session is a fixed chain of requests, each on a connection of its own and most
of them tried twice.  When the launch asked for it, the requests are encrypted
under a counter.

The network is an environment that answers by the time of the question: whether
a connection comes about, what a request gets as its response, which ports are
free.  The state counts the questions.
-/

namespace MoonlightPsp.Rtsp

/-! ## State and environment -/

/-- The globals of the handshake, and the requests encrypted since the launch,
each with its sequence number. -/
structure RtspState where
  clock : ℕ
  rtspEncrypted : Bool
  lastRespEncrypted : Bool
  encTxSeq : UInt32
  cseq : ℕ
  sessionId : Text
  targetUrl : Text
  connectHost : Text
  hostHeader : Text
  rtspPort : ℕ
  localBindIp : Text
  audioStreamId : Text
  videoStreamId : Text
  controlStreamId : Text
  sdp : Text
  videoClientPort : ℕ
  audioRtspOk : Bool
  encrypted : List (UInt32 × Text)

/-- What a request gets: the response, if it arrives whole, and whether a frame
of it was decrypted. -/
structure Reply where
  response : Option Text
  decrypted : Bool

/-- The network and the rest of the program. -/
structure Env where
  /-- Whether `rtsp_connect_port` gets a connection. -/
  connects : ℕ → Bool
  reply : ℕ → Reply
  /-- `audio_thread_reserve_client_port`. -/
  audioPort : ℕ → Option ℕ
  /-- `network_me_reserve_client_port`. -/
  videoPort : ℕ → Option ℕ
  /-- Whether there is an input key and `stream_crypto_init` accepts it. -/
  cryptoInit : ℕ → Bool
  /-- `audio_thread_init`. -/
  audioInit : ℕ → ℤ
  /-- The SDP of `rtsp_announce`, by encryption flags, video port and audio
  port. -/
  announceSdp : UInt32 → ℕ → Option ℕ → Text
  disableEncryption : Bool
  audioEnabled : Bool

/-! ## Transport -/

/-- `RTSP_ERR_PLAY_SESSION_DEAD`. -/
def rtspErrPlaySessionDead : ℤ := -610

/-- `SUNSHINE_RTSP_PORT_PRIMARY`. -/
def sunshineRtspPortPrimary : ℕ := 48010

/-- `CLIENT_VERSION`. -/
def clientVersion : ℕ := 19

/-- `MOONLIGHT_VIDEO_PORT`. -/
def moonlightVideoPort : ℕ := 47998

/-- The initialisation vector of a request. -/
def rtspIv (seq : UInt32) : List UInt8 :=
  Control.putLe32 seq ++ [0, 0, 0, 0, 0, 0, 0x43, 0x52]

/-- The request is encrypted under the next number. -/
def RtspState.encrypt (s : RtspState) (request : Text) : RtspState :=
  { s with
    encTxSeq := s.encTxSeq + 1
    encrypted := s.encrypted ++ [(s.encTxSeq + 1, request)] }

/-- `rtsp_send_and_recv`: the response, if there is one. -/
def rtspSendAndRecv (env : Env) (s : RtspState) (request : Text) :
    Option Text × RtspState :=
  let s := if s.rtspEncrypted then s.encrypt request else s
  let reply := env.reply s.clock
  (reply.response,
    { s with
      clock := s.clock + 1
      lastRespEncrypted := s.rtspEncrypted && reply.decrypted })

/-- `rtsp_rewrite_target_authority`, with the host and the port of the
connection. -/
def rtspRewriteTargetAuthority (s : RtspState) (port : ℕ) : RtspState :=
  if s.connectHost = [] ∨ port = 0 then s
  else
    let authority := s.connectHost ++ ":".toList ++ decimal port
    let targetUrl :=
      match after "://".toList s.targetUrl with
      | none => "rtsp://".toList ++ authority
      | some rest =>
          let scheme := before "://".toList s.targetUrl
          let scheme := if scheme = [] ∨ scheme.length ≥ 16 then "rtsp".toList
            else scheme
          let pathPart := ((strstr "/".toList rest).getD []).take 159
          scheme ++ "://".toList ++ authority ++ pathPart
    { s with targetUrl := snprintf 256 targetUrl, hostHeader := "0.0.0.0".toList }

/-- The ports `rtsp_connect_with_policy` tries in turn. -/
def rtspPorts (s : RtspState) : List ℕ :=
  (if s.rtspPort > 0 then [s.rtspPort] else []) ++
    if s.rtspPort ≠ sunshineRtspPortPrimary then [sunshineRtspPortPrimary]
    else []

/-- The attempts to connect, in order, until one succeeds. -/
def connectTo (env : Env) (s : RtspState) : List ℕ → Bool × RtspState
  | [] => (false, s)
  | port :: ports =>
      let s' := { s with clock := s.clock + 1 }
      if env.connects s.clock then
        (true, rtspRewriteTargetAuthority { s' with rtspPort := port } port)
      else connectTo env s' ports

/-- `rtsp_connect_post_setup`: all ports, twice. -/
def rtspConnectPostSetup (env : Env) (s : RtspState) : Bool × RtspState :=
  connectTo env s (rtspPorts s ++ rtspPorts s)

/-! ## Responses -/

/-- `rtsp_response_is_200`. -/
def rtspResponseIs200 (response : Text) : Bool :=
  "RTSP/1.0 200".toList.isPrefixOf response ||
    "RTSP/1.1 200".toList.isPrefixOf response

/-- `rtsp_response_status_code`. -/
def rtspResponseStatusCode (response : Text) : ℤ :=
  if "RTSP/".toList.isPrefixOf response then
    match scanInt (response.drop 5) with
    | some (_, '.' :: rest) =>
        match scanInt rest with
        | some (_, rest') =>
            match scanInt rest' with
            | some (code, _) => code
            | none => 0
        | none => 0
    | _ => 0
  else 0

/-- `rtsp_parse_session_id`. -/
def rtspParseSessionId (response : Text) : Text :=
  match after "Session:".toList response with
  | none => []
  | some line =>
      let line := line.dropWhile (· == ' ')
      let id :=
        if contains ";".toList line then before ";".toList line
        else before "\r\n".toList line
      if id.length ≥ 64 then [] else id

/-- The last occurrence of `needle`. -/
def lastStrstr (needle : Text) : Text → Option Text
  | [] => none
  | c :: cs =>
      match lastStrstr needle cs with
      | some rest => some rest
      | none =>
          if needle.isPrefixOf (c :: cs) then some (c :: cs) else none

/-- The control attribute of a media block of an SDP, if it is usable. -/
def streamIdOf (block sdp : Text) : Option Text :=
  (lastStrstr block sdp).bind fun m =>
    (after "a=control:".toList m).bind fun ctrl =>
      if contains "\r\n".toList ctrl then
        let id := before "\r\n".toList ctrl
        if id ≠ [] ∧ id.length < 63 then some id else none
      else none

/-- `rtsp_parse_stream_ids`. -/
def rtspParseStreamIds (s : RtspState) : RtspState :=
  { s with
    videoStreamId := (streamIdOf "m=video".toList s.sdp).getD s.videoStreamId
    audioStreamId := (streamIdOf "m=audio".toList s.sdp).getD s.audioStreamId }

/-- A mask of the SDP, zero if it is not there. -/
def sdpMask (tag sdp : Text) : UInt32 :=
  match after tag sdp with
  | none => 0
  | some rest => UInt32.ofNat (atoi rest % 4294967296).toNat

/-! ## Requests -/

/-- A line of a request. -/
def line (name value : Text) : Text := name ++ value ++ "\r\n".toList

/-- The lines every request has after its sequence number. -/
def clientLines (s : RtspState) : Text :=
  line "X-GS-ClientVersion: ".toList (decimal clientVersion) ++
    line "Host: ".toList s.hostHeader

/-- A request carries the next `CSeq`. -/
def RtspState.nextCseq (s : RtspState) : RtspState := { s with cseq := s.cseq + 1 }

/-- The text of `rtsp_options`. -/
def optionsText (s : RtspState) : Text :=
  snprintf 512 (line ("OPTIONS ".toList ++ s.targetUrl) " RTSP/1.0".toList ++
    line "CSeq: ".toList (decimal s.cseq) ++ clientLines s ++
    line "User-Agent: ".toList
      "Moonlight-common-c/v4.2.0 (Sunshine; Desktop)".toList ++ "\r\n".toList)

/-- `rtsp_options`. -/
def rtspOptions (env : Env) (s : RtspState) : ℤ × RtspState :=
  match rtspSendAndRecv env s.nextCseq (optionsText s) with
  | (none, s') => (-1, s')
  | (some response, s') =>
      if rtspResponseIs200 response then (0, s') else (-1, s')

/-- The text of `rtsp_describe`. -/
def describeText (s : RtspState) : Text :=
  snprintf 512 (line ("DESCRIBE ".toList ++ s.targetUrl) " RTSP/1.0".toList ++
    line "CSeq: ".toList (decimal s.cseq) ++
    line "User-Agent: ".toList "psp-moonlight".toList ++ clientLines s ++
    line "Accept: ".toList "application/sdp".toList ++
    line "If-Modified-Since: ".toList "Thu, 01 Jan 1970 00:00:00 GMT".toList ++
    "\r\n".toList)

/-- `rtsp_describe`; the SDP goes to the state. -/
def rtspDescribe (env : Env) (s : RtspState) : ℤ × RtspState :=
  match rtspSendAndRecv env s.nextCseq (describeText s) with
  | (none, s') => (-1, s')
  | (some response, s') =>
      if !rtspResponseIs200 response then (-1, s')
      else
        match after "\r\n\r\n".toList response with
        | none => (-1, s')
        | some sdp => (0, { s' with sdp := sdp.take 2047 })

/-- The text of `rtsp_setup_stream` with the client's ports. -/
def setupText (s : RtspState) (streamId : Text) (portLo portHi : ℕ) : Text :=
  let session := if s.sessionId = [] then []
    else snprintf 96 (line "Session: ".toList s.sessionId)
  let ports := decimal portLo ++ "-".toList ++ decimal portHi
  let transport := if s.localBindIp = [] then ports
    else ports ++ ";destination=".toList ++ s.localBindIp
  snprintf 512 (line ("SETUP ".toList ++ streamId) " RTSP/1.0".toList ++
    line "CSeq: ".toList (decimal s.cseq) ++
    line "User-Agent: ".toList "psp-moonlight".toList ++ clientLines s ++
    session ++
    line "Transport: unicast;X-GS-ClientPort=".toList transport ++
    line "If-Modified-Since: ".toList "Thu, 01 Jan 1970 00:00:00 GMT".toList ++
    "\r\n".toList)

/-- The ports of a stream: those of the socket reserved for it. -/
def clientPorts (env : Env) (s : RtspState) (streamId : Text) :
    Option (ℕ × ℕ) × RtspState :=
  let s' := { s with clock := s.clock + 1 }
  if contains "audio".toList streamId then
    match env.audioPort s.clock with
    | some (port + 1) => (some (port + 1, port + 2), s')
    | _ => (none, s')
  else if contains "video".toList streamId then
    match env.videoPort s.clock with
    | some (port + 1) =>
        (some (port + 1, if port + 1 < 65535 then port + 2 else port + 1),
          { s' with videoClientPort := port + 1 })
    | _ => (none, s')
  else (some (57999, 58000), s)

/-- `rtsp_setup_stream`. -/
def rtspSetupStream (env : Env) (streamId : RtspState → Text) (s : RtspState) :
    ℤ × RtspState :=
  match clientPorts env s (streamId s) with
  | (none, s') => (-1, s')
  | (some (portLo, portHi), s') =>
      match rtspSendAndRecv env s'.nextCseq
        (setupText s' (streamId s) portLo portHi) with
      | (none, s'') => (-1, s'')
      | (some response, s'') =>
          if !rtspResponseIs200 response then (-1, s'')
          else (0, { s'' with sessionId := rtspParseSessionId response })

/-- The text of `rtsp_announce` with its SDP. -/
def announceText (s : RtspState) (sdp : Text) : Text :=
  snprintf 4096 (line "ANNOUNCE streamid=control/13/0".toList
      " RTSP/1.0".toList ++
    line "CSeq: ".toList (decimal s.cseq) ++ clientLines s ++
    line "Session: ".toList s.sessionId ++
    line "Content-type: ".toList "application/sdp".toList ++
    line "Content-length: ".toList (decimal sdp.length) ++ "\r\n".toList ++ sdp)

/-- The encryption the handshake settles on. -/
def encToUse (env : Env) (s : RtspState) : UInt32 :=
  let supported := sdpMask "encryptionSupported:".toList s.sdp
  let requested := sdpMask "encryptionRequested:".toList s.sdp
  let both := supported &&& requested
  let video := if !env.disableEncryption then both &&& 0x02 else 0
  let audio := if !env.disableEncryption && env.audioEnabled && s.audioRtspOk
    then both &&& 0x04 else 0
  (supported &&& 0x01) ||| video ||| audio

/-- `rtsp_announce`. -/
def rtspAnnounce (env : Env) (s : RtspState) : ℤ × RtspState :=
  let videoPort := if s.videoClientPort > 0 then s.videoClientPort
    else moonlightVideoPort
  let audioPort := if env.audioEnabled && s.audioRtspOk then
      (env.audioPort s.clock).filter (0 < ·)
    else none
  let sdp := snprintf 4096 (env.announceSdp (encToUse env s) videoPort audioPort)
  let s := { s with clock := s.clock + 1 }
  match rtspSendAndRecv env s.nextCseq (announceText s sdp) with
  | (none, s') => (-510, s')
  | (some response, s') =>
      if rtspResponseIs200 response then (0, s')
      else if rtspResponseStatusCode response = 500 then (-500, s')
      else (-1, s')

/-- The text of `rtsp_play`. -/
def playText (s : RtspState) : Text :=
  snprintf 512 (line "PLAY /".toList " RTSP/1.0".toList ++
    line "CSeq: ".toList (decimal s.cseq) ++
    line "User-Agent: ".toList "psp-moonlight".toList ++ clientLines s ++
    line "Session: ".toList s.sessionId ++ "\r\n".toList)

/-- `rtsp_play`. -/
def rtspPlay (env : Env) (s : RtspState) : ℤ × RtspState :=
  match rtspSendAndRecv env s.nextCseq (playText s) with
  | (none, s') => (rtspErrPlaySessionDead, s')
  | (some response, s') =>
      if rtspResponseIs200 response then (0, s')
      else (rtspErrPlaySessionDead, s')

/-! ## The session -/

/-- Go on if the step did not fail. -/
def andThen (r : ℤ × RtspState) (next : RtspState → ℤ × RtspState) :
    ℤ × RtspState :=
  if r.1 < 0 then r else next r.2

/-- A request that failed is tried once more, on a new connection.  `onTwice`
is what a second failure returns. -/
def retryOnce (env : Env) (request : RtspState → ℤ × RtspState)
    (onTwice : ℤ → ℤ) (r : ℤ × RtspState) : ℤ × RtspState :=
  if r.1 < 0 then
    match rtspConnectPostSetup env r.2 with
    | (false, s) => (-1, s)
    | (true, s) =>
        let again := request s
        if again.1 < 0 then (onTwice again.1, again.2) else again
  else r

/-- A request on a connection of its own, tried twice. -/
def transaction (env : Env) (request : RtspState → ℤ × RtspState)
    (onTwice : ℤ → ℤ) (s : RtspState) : ℤ × RtspState :=
  match rtspConnectPostSetup env s with
  | (false, s') => (-1, s')
  | (true, s') => retryOnce env request onTwice (request s')

/-- SETUP audio: the session goes on without it if it fails. -/
def setupAudio (env : Env) (s : RtspState) : RtspState :=
  let s := { s with audioRtspOk := false }
  match rtspConnectPostSetup env s with
  | (false, s') => s'
  | (true, s') =>
      let first := rtspSetupStream env RtspState.audioStreamId s'
      if first.1 < 0 then
        match rtspConnectPostSetup env first.2 with
        | (false, s'') => s''
        | (true, s'') =>
            let again := rtspSetupStream env RtspState.audioStreamId s''
            { again.2 with audioRtspOk := decide (again.1 ≥ 0) }
      else { first.2 with audioRtspOk := true }

/-- The crypto and the audio consumer are made ready before PLAY. -/
def prepareMedia (env : Env) (s : RtspState) : ℤ × RtspState :=
  let s' := { s with clock := s.clock + 1 }
  if !env.cryptoInit s.clock then (-1, s')
  else if s.audioRtspOk && env.audioEnabled then (env.audioInit s.clock, s')
  else (0, s')

/-- PLAY: a failure is final. -/
def play (env : Env) (s : RtspState) : ℤ × RtspState :=
  match rtspConnectPostSetup env s with
  | (false, s') => (-1, s')
  | (true, s') => rtspPlay env s'

/-- A server that answers OPTIONS in plain text gets plain text. -/
def detectPlaintext (s : RtspState) : RtspState :=
  if s.rtspEncrypted && !s.lastRespEncrypted then
    { s with rtspEncrypted := false }
  else s

/-- What a second failure of most requests returns. -/
def sessionDead (_ : ℤ) : ℤ := rtspErrPlaySessionDead

/-- The requests after the connection for OPTIONS. -/
def handshake (env : Env) (s : RtspState) : ℤ × RtspState :=
  andThen (retryOnce env (rtspOptions env) sessionDead (rtspOptions env s))
    fun s => andThen (transaction env (rtspDescribe env) sessionDead
      { detectPlaintext s with sdp := [] })
    fun s => andThen (transaction env
      (rtspSetupStream env RtspState.videoStreamId) sessionDead
      (setupAudio env (rtspParseStreamIds s)))
    fun s => andThen (transaction env
      (rtspSetupStream env RtspState.controlStreamId) sessionDead s)
    fun s => andThen (transaction env (rtspAnnounce env) id s)
    fun s => andThen (prepareMedia env s) (play env)

/-- What a session sets up first. -/
def resetSession (s : RtspState) : RtspState :=
  { s with
    sessionId := []
    cseq := 1
    encTxSeq := 0
    videoClientPort := 0 }

/-- The cleanup at `rtsp_fail`. -/
def failSession (s : RtspState) : RtspState :=
  { s with audioRtspOk := false, videoClientPort := 0 }

/-- `rtsp_session`. -/
def rtspSession (env : Env) (s : RtspState) : ℤ × RtspState :=
  match rtspConnectPostSetup env (resetSession s) with
  | (false, s') => (rtspErrPlaySessionDead, s')
  | (true, s') =>
      let r := handshake env s'
      if r.1 < 0 then (r.1, failSession r.2) else r

/-- The sessions `network_connect_all` tries after a launch, at most
`attempts` of them. -/
def rtspAttempts (env : Env) : ℕ → RtspState → ℤ × RtspState
  | 0, s => (-1, s)
  | attempts + 1, s =>
      let r := rtspSession env s
      if r.1 < 0 ∧ attempts > 0 then rtspAttempts env attempts r.2 else r

/-- What `sunshine_launch_session` leaves when the session URL asks for
encryption: a new key, under which nothing was encrypted. -/
def launchEncrypted (s : RtspState) : RtspState :=
  { s with rtspEncrypted := true, encTxSeq := 0, encrypted := [] }

/-- The sessions of `network_connect_all` after such a launch. -/
def networkRtsp (env : Env) (s : RtspState) : ℤ × RtspState :=
  rtspAttempts env 3 (launchEncrypted s)

end MoonlightPsp.Rtsp

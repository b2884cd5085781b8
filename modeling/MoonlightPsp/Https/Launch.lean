import MoonlightPsp.Https.Pins

/-!
# A request over TLS

`https_launch_get` opens a connection, checks the pin of the host and only then sends its
request.  One local holds the result of whatever was called last, and is what the function
returns.
-/

namespace MoonlightPsp.Https

open Rtsp (Text snprintf decimal strstr)

/-! ## The model -/

/-- `MBEDTLS_ERR_SSL_WANT_READ` and so on. -/
def sslWantRead : ℤ := -0x6900

def sslWantWrite : ℤ := -0x6880

def sslPeerCloseNotify : ℤ := -0x7880

/-- A call that may be repeated. -/
def isWant (r : ℤ) : Bool := r == sslWantRead || r == sslWantWrite

/-- What `mbedtls_ssl_read` gives: characters, at least one of them, or a code that is not
positive. -/
inductive ReadAnswer where
  | data (first : Char) (rest : Text)
  | code (r : ℤ) (late : Bool)

/-- What `mbedtls_ssl_write` gives: it took one character and some more, or it failed. -/
inductive WriteAnswer where
  | wrote (more : ℕ)
  | code (r : ℤ) (negative : r < 0) (late : Bool)

/-- What the calls return; `late` says that the clock is past the limit then.  `connected`
stands for the calls that wait for the connection. -/
structure LaunchAnswers where
  identity : Bool
  seed : ℤ
  certFits : Bool
  certParse : ℤ
  keyParse : ℤ
  socket : Bool
  connected : Bool
  configDefaults : ℤ
  ownCert : ℤ
  setup : ℤ
  handshake : List (ℤ × Bool)
  peer : Option (List UInt8)
  pin : PinAnswers
  writes : List WriteAnswer
  reads : List ReadAnswer

/-- What the function leaves: its result, `resp` if it was written, what was sent, and the
files with the pins. -/
structure LaunchReturn where
  result : ℤ
  resp : Option Text
  sent : Text
  files : Files

/-- The loop around `mbedtls_ssl_handshake`, with what is left in `ret`; nothing while it has
not ended. -/
def handshakeLoop : List (ℤ × Bool) → Option ℤ
  | [] => none
  | (r, late) :: rest =>
      if r = 0 then some 0
      else if !isWant r then some r
      else if late then some r
      else handshakeLoop rest

/-- The loop around `mbedtls_ssl_write`: what is left in `ret` if it failed, and what was
sent. -/
def writeLoop (request : Text) : ℕ → List WriteAnswer → Option (Option ℤ × Text)
  | sent, [] => if request.length ≤ sent then some (none, request) else none
  | sent, answer :: rest =>
      if request.length ≤ sent then some (none, request)
      else
        match answer with
        | .wrote more => writeLoop request (sent + 1 + more) rest
        | .code r _ late =>
            if !isWant r then some (some r, request.take sent)
            else if late then some (some r, request.take sent)
            else writeLoop request sent rest

/-- `raw_size-1`. -/
def rawCapacity : ℕ := 512 + 4096 - 1

/-- The loop around `mbedtls_ssl_read`: what was read. -/
def readLoop : Text → List ReadAnswer → Option Text
  | raw, [] => if rawCapacity ≤ raw.length then some raw else none
  | raw, answer :: rest =>
      if rawCapacity ≤ raw.length then some raw
      else
        match answer with
        | .data first more => readLoop (raw ++ (first :: more).take (rawCapacity - raw.length)) rest
        | .code r late =>
            if !isWant r then some raw
            else if late then some raw
            else readLoop raw rest

/-- The text behind the first empty line, or all of it, as far as it fits; the string
functions stop at a null character. -/
def extractBody (raw : Text) (respSize : ℕ) : Text :=
  let seen := raw.takeWhile (· ≠ '\x00')
  match strstr "\r\n\r\n".toList seen with
  | some rest => (raw.drop (seen.length - rest.length + 4)).take (respSize - 1)
  | none => raw.take (respSize - 1)

/-- The request. -/
def launchRequest (host : Text) (port : ℕ) (path : Text) : Text :=
  snprintf 1536 ("GET ".toList ++ path ++ " HTTP/1.0\r\nHost: ".toList ++ host ++ ":".toList ++
    decimal port ++ "\r\nUser-Agent: PSPMoonlight/1.0\r\nConnection: close\r\n\r\n".toList)

/-- `is_cancel_request`. -/
def isCancelRequest (path : Text) : Bool := "/cancel?".toList.isPrefixOf path

/-- The calls before the handshake: the first result that is not zero. -/
def LaunchAnswers.prepares (a : LaunchAnswers) : Option ℤ :=
  if !a.identity then some (-1)
  else if a.seed ≠ 0 then some a.seed
  else if !a.certFits then some (-1)
  else if a.certParse ≠ 0 then some a.certParse
  else if a.keyParse ≠ 0 then some a.keyParse
  else if !a.socket then some (-1)
  else if !a.connected then some (-1)
  else if a.configDefaults ≠ 0 then some a.configDefaults
  else if a.ownCert ≠ 0 then some a.ownCert
  else if a.setup ≠ 0 then some a.setup
  else none

/-- The part of the function behind the pin. -/
def exchange (files : Files) (request : Text) (cancel : Bool) (respSize : ℕ)
    (a : LaunchAnswers) : Option LaunchReturn := do
  let w ← writeLoop request 0 a.writes
  match w.1 with
  | some r => some ⟨r, none, w.2, files⟩
  | none =>
      if cancel then some ⟨0, none, w.2, files⟩
      else do
        let raw ← readLoop [] a.reads
        some ⟨if raw = [] then -1 else 0, some (extractBody raw respSize), w.2, files⟩

/-- `https_launch_get`; nothing while one of its loops has not ended. -/
def httpsLaunchGet (files : Files) (host : Text) (port : ℕ) (path : Text) (respSize : ℕ)
    (a : LaunchAnswers) : Option LaunchReturn :=
  match a.prepares with
  | some r => some ⟨r, none, [], files⟩
  | none => do
      let ret ← handshakeLoop a.handshake
      if ret ≠ 0 then some ⟨ret, none, [], files⟩
      else
        let pin := tlsVerifyOrStorePin files host a.peer a.pin
        -- `ret` is not set where the pin is refused.
        if !pin.1 then some ⟨ret, none, [], pin.2⟩
        else exchange pin.2 (launchRequest host port path) (isCancelRequest path) respSize a

/-! ## Results -/

variable {files : Files} {host path request : Text} {port respSize : ℕ} {a : LaunchAnswers}
  {r : LaunchReturn}

/-- The connection is there, and the pin is looked at. -/
def LaunchAnswers.Connects (a : LaunchAnswers) : Prop :=
  a.prepares = none ∧ handshakeLoop a.handshake = some 0

/-- The pin of the host lets the peer pass. -/
def Accepts (files : Files) (host : Text) (a : LaunchAnswers) : Prop :=
  (tlsVerifyOrStorePin files host a.peer a.pin).1 = true

/-- What is true of a return: characters of the request only go to a peer that was accepted;
the result is 0 where the request was sent whole and something was read, or nothing needed to
be, and also where the pin was refused; and `resp` is only written where the request was sent
and was not for a cancel. -/
structure LaunchLaw (files : Files) (host request : Text) (cancel : Bool) (a : LaunchAnswers)
    (r : LaunchReturn) : Prop where
  sent : r.sent <+: request
  accepted : r.sent ≠ [] → a.Connects ∧ Accepts files host a
  zero : r.result = 0 ↔ a.Connects ∧ (¬ Accepts files host a ∨
    r.sent = request ∧ (cancel = true ∨ ∃ raw, readLoop [] a.reads = some raw ∧ raw ≠ []))
  resp : r.resp ≠ none → Accepts files host a ∧ r.sent = request ∧ cancel = false
  refused : a.Connects → ¬ Accepts files host a →
    r.result = 0 ∧ r.resp = none ∧ r.sent = []

theorem prepares_ne_zero {x : ℤ} (h : a.prepares = some x) : x ≠ 0 := by
  rw [LaunchAnswers.prepares] at h
  split_ifs at h
  all_goals
    obtain rfl := Option.some.inj h
    first
      | assumption
      | decide

/-- A write loop that fails leaves a result below zero and a part of the request unsent;
one that does not has sent it all. -/
theorem writeLoop_spec (request : Text) (sent : ℕ) (answers : List WriteAnswer)
    {w : Option ℤ × Text} (h : writeLoop request sent answers = some w) :
    w.2 <+: request ∧ (w.1 = none → w.2 = request) ∧
      ∀ x, w.1 = some x → x < 0 ∧ w.2 ≠ request := by
  have hall : w = (none, request) → w.2 <+: request ∧ (w.1 = none → w.2 = request) ∧
      ∀ x, w.1 = some x → x < 0 ∧ w.2 ≠ request := by
    rintro rfl
    exact ⟨List.prefix_rfl, fun _ => rfl, fun x hx => nomatch hx⟩
  induction answers generalizing sent with
  | nil =>
      rw [writeLoop] at h
      split at h
      · exact hall (Option.some.inj h).symm
      · exact nomatch h
  | cons answer answers ih =>
      by_cases hdone : request.length ≤ sent
      · rw [writeLoop.eq_def] at h
        dsimp only at h
        rw [if_pos hdone] at h
        exact hall (Option.some.inj h).symm
      · cases answer with
        | wrote more =>
            rw [writeLoop, if_neg hdone] at h
            exact ih _ h
        | code x negative late =>
            have hpart : w = (some x, request.take sent) → w.2 <+: request ∧
                (w.1 = none → w.2 = request) ∧
                ∀ y, w.1 = some y → y < 0 ∧ w.2 ≠ request := by
              rintro rfl
              refine ⟨List.take_prefix _ _, (fun hno => nomatch hno), fun y hy => ?_⟩
              obtain rfl := Option.some.inj hy
              refine ⟨negative, fun hwhole => hdone ?_⟩
              rw [← hwhole]
              exact List.length_take_le sent request
            rw [writeLoop, if_neg hdone] at h
            split at h
            · exact hpart (Option.some.inj h).symm
            · split at h
              · exact hpart (Option.some.inj h).symm
              · exact ih _ h

/-- Behind the pin, the result is 0 exactly where everything was sent and something was read
or nothing needed to be. -/
theorem exchange_spec {cancel : Bool} (h : exchange files request cancel respSize a = some r) :
    r.sent <+: request ∧
      (r.result = 0 ↔ r.sent = request ∧
        (cancel = true ∨ ∃ raw, readLoop [] a.reads = some raw ∧ raw ≠ [])) ∧
      (r.resp ≠ none → r.sent = request ∧ cancel = false) := by
  rw [exchange, Option.bind_eq_bind, Option.bind_eq_some_iff] at h
  obtain ⟨w, hw, h⟩ := h
  obtain ⟨hfront, hwhole, hfailed⟩ := writeLoop_spec request 0 a.writes hw
  split at h
  · rename_i x hx
    obtain rfl := Option.some.inj h
    obtain ⟨hnegative, hpart⟩ := hfailed x hx
    refine ⟨hfront, iff_of_false (Int.ne_of_lt hnegative) fun hno => hpart hno.1, ?_⟩
    exact fun hno => absurd rfl hno
  · rename_i hx
    have hsent := hwhole hx
    split at h
    · rename_i hcancel
      obtain rfl := Option.some.inj h
      exact ⟨hfront, iff_of_true rfl ⟨hsent, .inl hcancel⟩, fun hno => absurd rfl hno⟩
    · rename_i hcancel
      rw [Option.bind_eq_bind, Option.bind_eq_some_iff] at h
      obtain ⟨raw, hraw, h⟩ := h
      obtain rfl := Option.some.inj h
      have hno : cancel = false := by simpa using hcancel
      refine ⟨hfront, ?_, fun _ => ⟨hsent, hno⟩⟩
      by_cases hempty : raw = []
      · simp [hempty, hno, hraw]
      · simp [hempty, hsent, hraw]

theorem handshakeLoop_ne_zero {answers : List (ℤ × Bool)} {x : ℤ}
    (h : handshakeLoop answers = some x) (hx : x ≠ 0) : handshakeLoop answers ≠ some 0 := by
  rw [h]
  exact fun hzero => hx (Option.some.inj hzero)

/-- The connection was not made: nothing is sent or written, and the result is not 0. -/
theorem launchLaw_of_unconnected {cancel : Bool} {x : ℤ} (hconnects : ¬ a.Connects)
    (hx : x ≠ 0) : LaunchLaw files host request cancel a ⟨x, none, [], files⟩ where
  sent := List.nil_prefix
  accepted := fun hno => absurd rfl hno
  zero := iff_of_false hx fun hno => hconnects hno.1
  resp := fun hno => absurd rfl hno
  refused := fun hno => absurd hno hconnects

/-- Every return of `https_launch_get` obeys the law; with a refused pin it returns 0 and
leaves `resp` as it was. -/
theorem httpsLaunchGet_law (h : httpsLaunchGet files host port path respSize a = some r) :
    LaunchLaw files host (launchRequest host port path) (isCancelRequest path) a r := by
  rw [httpsLaunchGet] at h
  split at h
  · rename_i x hx
    obtain rfl := Option.some.inj h
    exact launchLaw_of_unconnected (fun hno => nomatch hno.1.symm.trans hx)
      (prepares_ne_zero hx)
  · rename_i hready
    rw [Option.bind_eq_bind, Option.bind_eq_some_iff] at h
    obtain ⟨ret, hret, h⟩ := h
    split at h
    · rename_i hfailed
      obtain rfl := Option.some.inj h
      exact launchLaw_of_unconnected (fun hno => handshakeLoop_ne_zero hret hfailed hno.2)
        hfailed
    · rename_i hzero
      have hzero := not_not.mp hzero
      have hconnects : a.Connects := ⟨hready, hzero ▸ hret⟩
      dsimp only at h
      split at h
      · rename_i hrefused
        have hrefused : ¬ Accepts files host a := by simpa [Accepts] using hrefused
        obtain rfl := Option.some.inj h
        exact ⟨List.nil_prefix, fun hno => absurd rfl hno,
          iff_of_true hzero ⟨hconnects, .inl hrefused⟩, fun hno => absurd rfl hno,
          fun _ _ => ⟨hzero, rfl, rfl⟩⟩
      · rename_i haccepted
        have haccepted : Accepts files host a := by simpa [Accepts] using haccepted
        obtain ⟨hsent, hresult, hresp⟩ := exchange_spec h
        refine ⟨hsent, fun _ => ⟨hconnects, haccepted⟩, ?_, fun hfilled =>
          ⟨haccepted, hresp hfilled⟩, fun _ hno => absurd haccepted hno⟩
        rw [hresult]
        simp [hconnects, haccepted]

/-- A peer with another certificate than the one on file. -/
def otherPeer : LaunchAnswers where
  identity := true
  seed := 0
  certFits := true
  certParse := 0
  keyParse := 0
  socket := true
  connected := true
  configDefaults := 0
  ownCert := 0
  setup := 0
  handshake := [(sslWantRead, false), (0, false)]
  peer := some [0x30]
  pin := ⟨⟨true, 64, true⟩, true⟩
  writes := []
  reads := []

/-- The request to it ends with the result 0 and nothing sent. -/
theorem httpsLaunchGet_law_otherPeer :
    LaunchLaw (fun _ => some ['0']) ['h'] (launchRequest ['h'] 47984 ['/']) false otherPeer
      ⟨0, none, [], fun _ => some ['0']⟩ := by
  have hpin : tlsVerifyOrStorePin (fun _ => some ['0']) ['h'] (some [0x30])
      ⟨⟨true, 64, true⟩, true⟩ = (false, fun _ => some ['0']) := by
    have hlong : ['0'] ≠ fingerprint [0x30] := by
      intro heq
      have hlen := congrArg List.length heq
      rw [length_fingerprint] at hlen
      exact absurd hlen (by decide)
    have hload : loadTlsPinFile (some ['0']) true 80 = some ['0'] := by decide
    rw [tlsVerifyOrStorePin, if_neg (by decide), hload]
    simp [hlong]
  apply @httpsLaunchGet_law (fun _ => some ['0']) ['h'] ['/'] 47984 1
  have hhandshake : handshakeLoop otherPeer.handshake = some 0 := by decide
  have hready : otherPeer.prepares = none := by decide
  rw [httpsLaunchGet, hready]
  simp only [hhandshake, Option.bind_eq_bind, Option.bind_some]
  rw [if_neg (by decide)]
  simp only [otherPeer, hpin]
  rfl

end MoonlightPsp.Https

import MoonlightPsp.Control.Nonces
import MoonlightPsp.Rtsp.Session

/-!
# Initialisation vectors of the handshake

The requests are encrypted under a counter that every session sets back to zero,
while the key stays that of the launch.  As long as no session finds the counter
in use, the requests are numbered one after the other.
-/

namespace MoonlightPsp.Rtsp

/-! ## Numbered requests -/

/-- The encrypted requests are numbered from one, and the counter is at the last
of them while encryption is on. -/
structure Numbered (s : RtspState) : Prop where
  numbers : ∀ k p, s.encrypted[k]? = some p → p.1 = UInt32.ofNat (k + 1)
  counter : s.rtspEncrypted = true →
    s.encTxSeq = UInt32.ofNat s.encrypted.length

/-- What a part of the handshake that encrypts at most `n` requests does. -/
structure Extends (n : ℕ) (s t : RtspState) : Prop where
  length : t.encrypted.length ≤ s.encrypted.length + n
  numbered : Numbered s → Numbered t

theorem Extends.refl (s : RtspState) : Extends 0 s s := ⟨le_rfl, id⟩

theorem Extends.trans {m n : ℕ} {s t u : RtspState} (h : Extends m s t)
    (h' : Extends n t u) : Extends (m + n) s u :=
  ⟨by have := h.length; have := h'.length; omega,
    fun hs => h'.numbered (h.numbered hs)⟩

theorem Extends.mono {m n : ℕ} {s t : RtspState} (h : Extends m s t)
    (hmn : m ≤ n) : Extends n s t :=
  ⟨by have := h.length; omega, h.numbered⟩

/-- Nothing is encrypted, and encryption is not turned on. -/
def SameLog (s t : RtspState) : Prop :=
  t.encrypted = s.encrypted ∧ t.encTxSeq = s.encTxSeq ∧
    (t.rtspEncrypted = true → s.rtspEncrypted = true)

theorem SameLog.numbered {s t : RtspState} (h : SameLog s t)
    (hs : Numbered s) : Numbered t := by
  obtain ⟨hlog, hseq, hon⟩ := h
  exact ⟨by rw [hlog]; exact hs.numbers,
    fun ht => by rw [hlog, hseq]; exact hs.counter (hon ht)⟩

theorem SameLog.extends {s t : RtspState} (h : SameLog s t) (n : ℕ) :
    Extends n s t :=
  ⟨by rw [h.1]; exact Nat.le_add_right _ _, h.numbered⟩

/-- Something that does not touch the log, and then a part of the handshake. -/
theorem Extends.left {n : ℕ} {s t u : RtspState} (h : Extends n t u)
    (hsame : SameLog s t) : Extends n s u :=
  ⟨by rw [← hsame.1]; exact h.length, fun hs => h.numbered (hsame.numbered hs)⟩

/-- A part of the handshake, and then something that does not touch the log. -/
theorem Extends.right {n : ℕ} {s t u : RtspState} (h : Extends n s t)
    (hsame : SameLog t u) : Extends n s u :=
  ⟨by rw [hsame.1]; exact h.length, fun hs => hsame.numbered (h.numbered hs)⟩

theorem extends_encrypt {s : RtspState} (hon : s.rtspEncrypted = true)
    (request : Text) : Extends 1 s (s.encrypt request) := by
  refine ⟨by simp [RtspState.encrypt], fun h => ⟨fun k p hp => ?_, fun _ => ?_⟩⟩
  · simp only [RtspState.encrypt, List.getElem?_append] at hp
    split_ifs at hp with hlt
    · exact h.numbers k p hp
    · obtain ⟨hlen, rfl⟩ := List.getElem?_eq_some_iff.mp hp
      simp only [List.length_singleton] at hlen
      obtain rfl : k = s.encrypted.length := by omega
      simp only [List.getElem_singleton]
      rw [h.counter hon, UInt32.ofNat_add]
      rfl
  · simp only [RtspState.encrypt, List.length_append, List.length_singleton]
    rw [h.counter hon, UInt32.ofNat_add]
    rfl

/-! ## The parts of the handshake -/

/-- The one place where requests are encrypted. -/
theorem extends_sendAndRecv (env : Env) (s : RtspState) (request : Text) :
    Extends 1 s (rtspSendAndRecv env s request).2 := by
  unfold rtspSendAndRecv
  split
  · rename_i hon
    exact (extends_encrypt hon request).right ⟨rfl, rfl, id⟩
  · refine SameLog.extends ?_ 1
    exact ⟨rfl, rfl, id⟩

theorem rewriteTarget_same (s : RtspState) (port : ℕ) :
    SameLog s (rtspRewriteTargetAuthority s port) := by
  unfold rtspRewriteTargetAuthority
  split <;> exact ⟨rfl, rfl, id⟩

theorem connectTo_same (env : Env) (s : RtspState) (ports : List ℕ) :
    SameLog s (connectTo env s ports).2 := by
  induction ports generalizing s with
  | nil => exact ⟨rfl, rfl, id⟩
  | cons port ports ih =>
      simp only [connectTo]
      split
      · exact rewriteTarget_same { s with
          clock := s.clock + 1, rtspPort := port } port
      · exact ih { s with clock := s.clock + 1 }

theorem connect_same {env : Env} {s t : RtspState} {connected : Bool}
    (h : rtspConnectPostSetup env s = (connected, t)) : SameLog s t := by
  have hsame := connectTo_same env s (rtspPorts s ++ rtspPorts s)
  rwa [show connectTo env s (rtspPorts s ++ rtspPorts s) = (connected, t) from h]
    at hsame

/-- A request with the next `CSeq` and what it gets. -/
theorem extends_of_send {env : Env} {s t : RtspState} {request : Text}
    {response : Option Text}
    (h : rtspSendAndRecv env s.nextCseq request = (response, t)) :
    Extends 1 s t := by
  have hsend := extends_sendAndRecv env s.nextCseq request
  rw [h] at hsend
  exact hsend.left ⟨rfl, rfl, id⟩

theorem extends_options (env : Env) (s : RtspState) :
    Extends 1 s (rtspOptions env s).2 := by
  unfold rtspOptions
  split
  · exact extends_of_send ‹_›
  · split <;> exact extends_of_send ‹_›

theorem extends_describe (env : Env) (s : RtspState) :
    Extends 1 s (rtspDescribe env s).2 := by
  unfold rtspDescribe
  split
  · exact extends_of_send ‹_›
  · rename_i heq
    split
    · exact extends_of_send heq
    · split
      · exact extends_of_send heq
      · exact (extends_of_send heq).right ⟨rfl, rfl, id⟩

theorem clientPorts_same (env : Env) (s : RtspState) (streamId : Text) :
    SameLog s (clientPorts env s streamId).2 := by
  unfold clientPorts
  dsimp only
  split
  · split <;> exact ⟨rfl, rfl, id⟩
  · split
    · split <;> exact ⟨rfl, rfl, id⟩
    · exact ⟨rfl, rfl, id⟩

theorem extends_setupStream (env : Env) (streamId : RtspState → Text)
    (s : RtspState) : Extends 1 s (rtspSetupStream env streamId s).2 := by
  have hports := clientPorts_same env s (streamId s)
  unfold rtspSetupStream
  split
  · rename_i heq
    rw [heq] at hports
    exact hports.extends 1
  · rename_i heq
    rw [heq] at hports
    split
    · rename_i hsend
      exact (extends_of_send hsend).left hports
    · rename_i hsend
      split
      · exact (extends_of_send hsend).left hports
      · exact ((extends_of_send hsend).left hports).right ⟨rfl, rfl, id⟩

theorem extends_announce (env : Env) (s : RtspState) :
    Extends 1 s (rtspAnnounce env s).2 := by
  have hclock : SameLog s { s with clock := s.clock + 1 } := ⟨rfl, rfl, id⟩
  unfold rtspAnnounce
  dsimp only
  split
  · exact (extends_of_send ‹_›).left hclock
  · rename_i hsend
    split
    · exact (extends_of_send hsend).left hclock
    · split <;> exact (extends_of_send hsend).left hclock

theorem extends_rtspPlay (env : Env) (s : RtspState) :
    Extends 1 s (rtspPlay env s).2 := by
  unfold rtspPlay
  split
  · exact extends_of_send ‹_›
  · split <;> exact extends_of_send ‹_›

theorem prepareMedia_same (env : Env) (s : RtspState) :
    SameLog s (prepareMedia env s).2 := by
  unfold prepareMedia
  dsimp only
  split
  · exact ⟨rfl, rfl, id⟩
  · split <;> exact ⟨rfl, rfl, id⟩

/-! ## Chains of requests -/

theorem extends_andThen {m n : ℕ} {s : RtspState} {r : ℤ × RtspState}
    {next : RtspState → ℤ × RtspState} (h : Extends m s r.2)
    (hnext : ∀ t, Extends n t (next t).2) :
    Extends (m + n) s (andThen r next).2 := by
  unfold andThen
  split
  · exact h.mono (by omega)
  · exact h.trans (hnext r.2)

theorem extends_retryOnce {env : Env} {request : RtspState → ℤ × RtspState}
    {onTwice : ℤ → ℤ} {s : RtspState} {r : ℤ × RtspState}
    (h : Extends 1 s r.2) (hrequest : ∀ t, Extends 1 t (request t).2) :
    Extends 2 s (retryOnce env request onTwice r).2 := by
  unfold retryOnce
  split
  · split
    · rename_i hconnect
      exact (h.right (connect_same hconnect)).mono (by decide)
    · rename_i hconnect
      have hagain := (h.right (connect_same hconnect)).trans (hrequest _)
      dsimp only
      split <;> exact hagain
  · exact h.mono (by decide)

theorem extends_transaction {env : Env} {request : RtspState → ℤ × RtspState}
    {onTwice : ℤ → ℤ} (hrequest : ∀ t, Extends 1 t (request t).2)
    (s : RtspState) : Extends 2 s (transaction env request onTwice s).2 := by
  unfold transaction
  split
  · rename_i hconnect
    exact (connect_same hconnect).extends 2
  · rename_i hconnect
    exact extends_retryOnce ((hrequest _).left (connect_same hconnect)) hrequest

theorem extends_setupAudio (env : Env) (s : RtspState) :
    Extends 2 s (setupAudio env s) := by
  have hoff : SameLog s { s with audioRtspOk := false } := ⟨rfl, rfl, id⟩
  unfold setupAudio
  dsimp only
  split
  · rename_i hconnect
    exact ((connect_same hconnect).extends 2).left hoff
  · rename_i s' hconnect
    have hfirst := ((extends_setupStream env RtspState.audioStreamId s').left
      (connect_same hconnect)).left hoff
    split
    · split
      · rename_i hconnect'
        exact (hfirst.right (connect_same hconnect')).mono (by decide)
      · rename_i hconnect'
        exact ((hfirst.right (connect_same hconnect')).trans
          (extends_setupStream env _ _)).right ⟨rfl, rfl, id⟩
    · exact (hfirst.mono (n := 2) (by decide)).right ⟨rfl, rfl, id⟩

theorem extends_play (env : Env) (s : RtspState) :
    Extends 1 s (play env s).2 := by
  unfold play
  split
  · rename_i hconnect
    exact (connect_same hconnect).extends 1
  · rename_i hconnect
    exact (extends_rtspPlay env _).left (connect_same hconnect)

theorem detectPlaintext_same (s : RtspState) :
    SameLog s (detectPlaintext s) := by
  unfold detectPlaintext
  split
  · exact ⟨rfl, rfl, nofun⟩
  · exact ⟨rfl, rfl, id⟩

/-- A handshake has at most thirteen requests. -/
theorem extends_handshake (env : Env) (s : RtspState) :
    Extends 13 s (handshake env s).2 := by
  refine extends_andThen (m := 2) (n := 11)
    (extends_retryOnce (extends_options env s) (extends_options env)) fun s => ?_
  refine extends_andThen (m := 2) (n := 9) ?_ fun s => ?_
  · exact ((extends_transaction (extends_describe env) _).left
      (t := { detectPlaintext s with sdp := [] }) ⟨rfl, rfl, id⟩).left
        (detectPlaintext_same s)
  refine extends_andThen (m := 4) (n := 5) ?_ fun s => ?_
  · have haudio : Extends 2 s (setupAudio env (rtspParseStreamIds s)) :=
      (extends_setupAudio env _).left ⟨rfl, rfl, id⟩
    exact haudio.trans (extends_transaction (extends_setupStream env _) _)
  refine extends_andThen (m := 2) (n := 3)
    (extends_transaction (extends_setupStream env _) s) fun s => ?_
  refine extends_andThen (m := 2) (n := 1)
    (extends_transaction (extends_announce env) s) fun s => ?_
  exact extends_andThen (m := 0) (n := 1) ((prepareMedia_same env s).extends 0)
    (extends_play env)

/-! ## Sessions -/

/-- The session does not find the counter of the encryption in use. -/
def CounterUnused (s : RtspState) : Prop :=
  s.encTxSeq = 0 ∨ s.rtspEncrypted = false

theorem extends_resetSession {s : RtspState} (h : CounterUnused s) :
    Extends 0 s (resetSession s) := by
  refine ⟨le_rfl, fun hs => ⟨hs.numbers, fun hon => ?_⟩⟩
  rcases h with hzero | hoff
  · have hcounter := hs.counter hon
    rw [hzero] at hcounter
    exact hcounter
  · exact absurd (hoff.symm.trans hon) Bool.false_ne_true

theorem extends_session (env : Env) {s : RtspState} (h : CounterUnused s) :
    Extends 13 s (rtspSession env s).2 := by
  have hreset := extends_resetSession h
  unfold rtspSession
  split
  · rename_i hconnect
    exact (hreset.right (connect_same hconnect)).mono (by decide)
  · rename_i hconnect
    have hhandshake := (hreset.right (connect_same hconnect)).trans
      (extends_handshake env _)
    dsimp only
    split
    · exact (hhandshake.mono (n := 13) (by decide)).right ⟨rfl, rfl, id⟩
    · exact hhandshake.mono (by decide)

/-- No session of the run finds the counter in use. -/
def CountersUnused (env : Env) : ℕ → RtspState → Prop
  | 0, _ => True
  | attempts + 1, s => CounterUnused s ∧
      ((rtspSession env s).1 < 0 →
        CountersUnused env attempts (rtspSession env s).2)

theorem extends_attempts (env : Env) (attempts : ℕ) {s : RtspState}
    (h : CountersUnused env attempts s) :
    Extends (13 * attempts) s (rtspAttempts env attempts s).2 := by
  induction attempts generalizing s with
  | zero => exact .refl s
  | succ attempts ih =>
      have hsession := extends_session env h.1
      simp only [rtspAttempts]
      split
      · rename_i hfailed
        exact (hsession.trans (ih (h.2 hfailed.1))).mono (by omega)
      · exact hsession.mono (by omega)

/-- No two different texts were encrypted under one vector. -/
def VectorsUnique (s : RtspState) : Prop :=
  ∀ p ∈ s.encrypted, ∀ q ∈ s.encrypted, rtspIv p.1 = rtspIv q.1 → p.2 = q.2

theorem rtspIv_inj {a b : UInt32} (h : rtspIv a = rtspIv b) : a = b := by
  have hread := congrArg (fun p => readLe32 p 0) h
  simpa only [rtspIv, Control.readLe32_putLe32] using hread

theorem Numbered.vectorsUnique {s : RtspState} (h : Numbered s)
    (hlength : s.encrypted.length < 4294967295) : VectorsUnique s := by
  intro p hp q hq heq
  obtain ⟨k, hk⟩ := List.mem_iff_getElem?.mp hp
  obtain ⟨l, hl⟩ := List.mem_iff_getElem?.mp hq
  have hnumber := rtspIv_inj heq
  rw [h.numbers k p hk, h.numbers l q hl] at hnumber
  have hklt := (List.getElem?_eq_some_iff.mp hk).1
  have hllt := (List.getElem?_eq_some_iff.mp hl).1
  have hkl : k + 1 = l + 1 := by
    have := congrArg UInt32.toNat hnumber
    rwa [UInt32.toNat_ofNat', UInt32.toNat_ofNat', Nat.mod_eq_of_lt (by omega),
      Nat.mod_eq_of_lt (by omega)] at this
  obtain rfl : k = l := by omega
  rw [hk] at hl
  rw [Option.some.inj hl]

/-! ## Runs -/

/-- A state before the launch. -/
def RtspState.idle : RtspState where
  clock := 0
  rtspEncrypted := false
  lastRespEncrypted := false
  encTxSeq := 0
  cseq := 1
  sessionId := []
  targetUrl := "rtspenc://10.0.0.2:48010".toList
  connectHost := "10.0.0.2".toList
  hostHeader := "0.0.0.0".toList
  rtspPort := 48010
  localBindIp := []
  audioStreamId := "streamid=audio/0/0".toList
  videoStreamId := "streamid=video/0/0".toList
  controlStreamId := "streamid=control/13/0".toList
  sdp := []
  videoClientPort := 0
  audioRtspOk := false
  encrypted := []

/-- A server that answers the requests at these times, and no others. -/
def answersAt (times : List ℕ) (videoPort : Option ℕ) : Env where
  connects := fun _ => true
  reply := fun clock =>
    if clock ∈ times then ⟨some "RTSP/1.0 200 OK\r\n\r\n".toList, true⟩
    else ⟨none, false⟩
  audioPort := fun _ => some 50000
  videoPort := fun _ => videoPort
  cryptoInit := fun _ => true
  audioInit := fun _ => 0
  announceSdp := fun _ _ _ => []
  disableEncryption := false
  audioEnabled := true

/-! ## The result -/

/-- In every run of `network_connect_all` after an encrypted launch in which no
session finds the counter in use, no two different requests are encrypted under
the same vector. -/
theorem vectorsUnique_of_countersUnused (env : Env) (s : RtspState)
    (h : CountersUnused env 3 (launchEncrypted s)) :
    VectorsUnique (networkRtsp env s).2 := by
  have hextends := extends_attempts env 3 h
  refine (hextends.numbered ⟨nofun, fun _ => rfl⟩).vectorsUnique ?_
  have hlength := hextends.length
  rw [show (launchEncrypted s).encrypted.length = 0 from rfl] at hlength
  exact Nat.lt_of_le_of_lt hlength (by decide)

/-- A handshake that succeeds at once encrypts seven requests. -/
theorem vectorsUnique_of_countersUnused_atOnce :
    (networkRtsp (answersAt (List.range 20) (some 50010)) .idle).2.encrypted.length
        = 7 ∧
      VectorsUnique
        (networkRtsp (answersAt (List.range 20) (some 50010)) .idle).2 := by
  refine ⟨by decide, vectorsUnique_of_countersUnused _ _ ⟨.inl rfl, ?_⟩⟩
  exact fun hfailed => absurd hfailed (by decide)

/-- The first session gets no answer to DESCRIBE, the second does: its SETUP is
encrypted under the vector of the second DESCRIBE of the first. -/
theorem vectors_repeat_after_failed_describe :
    ¬ ∀ (env : Env) (s : RtspState), VectorsUnique (networkRtsp env s).2 := by
  intro hall
  have hdescribe : (networkRtsp (answersAt [1, 7, 9] none)
      .idle).2.encrypted[2]?.map (fun p => (p.1, p.2.head?)) =
        some (3, some 'D') := by decide
  have hsetup : (networkRtsp (answersAt [1, 7, 9] none)
      .idle).2.encrypted[5]?.map (fun p => (p.1, p.2.head?)) =
        some (3, some 'S') := by decide
  obtain ⟨p, hp, hpeq⟩ := Option.map_eq_some_iff.mp hdescribe
  obtain ⟨q, hq, hqeq⟩ := Option.map_eq_some_iff.mp hsetup
  simp only [Prod.mk.injEq] at hpeq hqeq
  have htext := hall (answersAt [1, 7, 9] none) .idle p
    (List.mem_of_getElem? hp) q (List.mem_of_getElem? hq)
    (by rw [hpeq.1, hqeq.1])
  rw [htext, hqeq.2] at hpeq
  exact absurd hpeq.2 (by decide)

end MoonlightPsp.Rtsp

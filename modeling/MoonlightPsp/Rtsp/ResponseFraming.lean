import MoonlightPsp.Rtsp.PlainResponse

/-!
# The framing of any stream

A stream is framed rightly in every way of cutting it, except when a frame in it
declares so much that the sum with the length of its header is no `int` and yet
passes, when nothing is encrypted in a genuine frame, or when the code does not
find the end of a plain response.
-/

namespace MoonlightPsp.Rtsp

open CheckedMemory
open MoonlightPsp.Control (getBe32)

/-- What one call is for: it returns what the server has sent, and stays inside. -/
structure Framed (c : RecvCall) (stream : List UInt8) (events : List RecvEvent) :
    Prop where
  frame : ∀ plaintext, EncryptedFrame c stream plaintext →
    Delivers events stream.length → Returns plaintext (rtspRecv c stream events)
  plain : ∀ head body, stream = head ++ body → PlainResponse c head body →
    Delivers events stream.length → Returns stream (rtspRecv c stream events)
  contained : Contained (rtspRecv c stream events)

/-- The stream starts with an encrypted frame whose length and 24 are more than an
`int` holds, and the comparison lets it pass with what there is room for. -/
def Oversized (c : RecvCall) (stream : List UInt8) : Prop :=
  c.encrypted = true ∧ 25 ≤ c.respSize ∧ 24 ≤ stream.length ∧
    ∃ typeLen, getBe32 stream 0 = some typeLen ∧ typeLen ≥ 0xFFFFFFE8 ∧
      c.overflow (declaredLen typeLen + 24) ≤ min stream.length (c.respSize - 1)

variable {c : RecvCall} {s t : RecvState} {whole : List UInt8} {k : ℕ}

/-! ## What a turn that goes on leaves as it was -/

theorem plainTurn_again {late : Bool} (h : plainTurn c late s = some (.again t)) :
    ∃ text, t = findHeader text s := by
  simp only [plainTurn, Option.bind_eq_bind, Option.bind_eq_some_iff] at h
  obtain ⟨text, -, h⟩ := h
  refine ⟨text, ?_⟩
  split at h
  · split at h
    · split at h
      · cases h
      · exact (Turn.again.inj (Option.some.inj h)).symm
    · split at h
      · cases h
      · split at h
        · cases h
        · exact (Turn.again.inj (Option.some.inj h)).symm
  · exact (Turn.again.inj (Option.some.inj h)).symm

theorem decryptFrame_again {typeLen : UInt32}
    (h : decryptFrame c typeLen s = some (.again t)) :
    ∃ decrypts, t = { s with decrypts } := by
  rw [decryptFrame] at h
  dsimp only at h
  split at h
  · simp only [Option.bind_eq_bind, Option.bind_eq_some_iff] at h
    obtain ⟨seq, -, tag, -, ciphertext, -, decBuf, -, h⟩ := h
    split at h
    · simp only [Option.bind_eq_some_iff] at h
      obtain ⟨copied, -, response, -, h⟩ := h
      cases h
    · exact ⟨_, (Turn.again.inj (Option.some.inj h)).symm⟩
  · exact ⟨s.decrypts, (Turn.again.inj (Option.some.inj h)).symm⟩

theorem Received.examine {late : Bool} (hs : Received c whole k s)
    (h : examine c late s = some (.again t)) : Received c whole k t := by
  have hplain : plainTurn c late s = some (.again t) → Received c whole k t := by
    intro h
    obtain ⟨text, rfl⟩ := plainTurn_again h
    exact hs.findHeader text
  rw [Rtsp.examine] at h
  split at h
  · simp only [Option.bind_eq_bind, Option.bind_eq_some_iff] at h
    obtain ⟨typeLen, -, h⟩ := h
    split at h
    · obtain ⟨decrypts, rfl⟩ := decryptFrame_again h
      exact ⟨hs.response, hs.totalRecv, hs.stream⟩
    · exact hplain h
  · exact hplain h

/-! ## The sum -/

/-- What was read overflows only if the stream does. -/
theorem Received.oversized (hreceived : Received c whole k s) (hs : Sound c s)
    (hk : k ≤ whole.length) (hover : Overflows c s) : Oversized c whole := by
  obtain ⟨hon, htotal, typeLen, htype, hge, hpass⟩ := hover
  have hroom := hs.room
  have hlen := hreceived.totalRecv
  rw [hreceived.getBe32 hk (by omega)] at htype
  exact ⟨hon, by omega, by omega, typeLen, htype, hge, by omega⟩

/-- The reads of a stream that does not are all right. -/
theorem eachRead_of_not_oversized (hsize : c.respSize ≤ rtspBufSize)
    (hstream : ¬Oversized c whole) (events : List RecvEvent)
    (hk : k ≤ whole.length) (hs : Sound c s) (hreceived : Received c whole k s) :
    EachRead (fun t => ¬Overflows c t) c events s := by
  induction events generalizing k s with
  | nil => trivial
  | cons e es ih =>
      intro hroom
      have hmore (more : ℕ) : k + (piece c more s).length ≤ whole.length :=
        (hreceived.take_append_piece hk more).2
      refine ⟨?_, ?_⟩
      · intro more late t _ _ hread hover
        rw [recvBytes_eq hs more hroom] at hread
        obtain rfl := Option.some.inj hread
        exact hstream ((hreceived.withPiece hk more).oversized
          (hs.withPiece more hroom) (hmore more) hover)
      · intro t hturn
        rcases recvTurn_cases hs hsize hroom e with
          ⟨u, hu, hsound, -⟩ | ⟨hnone, -⟩
        · rw [hu] at hturn
          obtain rfl := Option.some.inj hturn
          cases e with
          | timeout => cases hu
          | waitFailed => cases hu
          | recvFailed ret => cases hu
          | idle =>
              cases hu
              exact ih hk hs hreceived
          | ready more late =>
              by_cases hend : s.stream = []
              · rw [recvTurn, if_pos hend] at hu
                cases hu
              · rw [recvTurn_ready hs more late hroom hend] at hu
                exact ih (hmore more) hsound
                  ((hreceived.withPiece hk more).examine hu)
        · rw [hnone] at hturn
          cases hturn

/-- The call stays inside in every way of cutting the stream, or leaves its buffers
when all that there is room for comes at once. -/
theorem contained_iff_not_oversized (hpos : 0 < c.respSize)
    (hsize : c.respSize ≤ rtspBufSize) :
    (∀ events, Contained (rtspRecv c whole events)) ↔ ¬Oversized c whole := by
  have hsound := sound_start hpos whole
  have hstart := received_start c whole
  constructor
  · intro h hover
    obtain ⟨hon, hroom, hlen, typeLen, htype, hge, hpass⟩ := hover
    have hnow : (RecvState.start c whole).totalRecv < c.respSize - 1 := by
      show 0 < c.respSize - 1
      omega
    have hread := (recvLoop_contained_iff hsize [.ready c.respSize false] hsound).mp
      (h _) hnow
    have hpiece := hstart.withPiece (Nat.zero_le _) c.respSize
    have hall : 0 + (piece c c.respSize (.start c whole)).length =
        min whole.length (c.respSize - 1) := by
      rw [piece_eq hstart, List.length_take, List.length_drop]
      omega
    rw [hall] at hpiece
    refine hread.1 c.respSize false _ rfl ?_ (recvBytes_eq hsound c.respSize hnow)
      ⟨hon, ?_, typeLen, ?_, hge, ?_⟩
    · intro hnil
      have hwhole : whole = [] := hnil
      rw [hwhole] at hlen
      exact absurd hlen (by decide)
    · rw [hpiece.totalRecv]
      omega
    · rw [hpiece.getBe32 (Nat.min_le_left _ _) (by omega), htype]
    · rw [hpiece.totalRecv]
      exact_mod_cast hpass
  · intro h events
    exact (recvLoop_contained_iff hsize events hsound).mpr
      (eachRead_of_not_oversized hsize h events (Nat.zero_le _) hsound hstart)

/-! ## Every way of cutting -/

/-- A stream is framed rightly in every way of cutting it, if and only if it does not
declare too much, is no frame with nothing in it, and is no plain response whose end is
not found. -/
theorem rtspRecv_framed_iff (c : RecvCall) (hpos : 0 < c.respSize)
    (hsize : c.respSize ≤ rtspBufSize) (stream : List UInt8) :
    (∀ events, Framed c stream events) ↔
      ¬Oversized c stream ∧ ¬EncryptedFrame c stream [] ∧
        ∀ head body, stream = head ++ body → PlainResponse c head body →
          EndFound c head body := by
  rw [← contained_iff_not_oversized hpos hsize]
  constructor
  · intro h
    refine ⟨fun events => (h events).contained, ?_, ?_⟩
    · intro hempty
      obtain ⟨n, hn⟩ : ∃ n, stream.length = n + 1 := by
        obtain ⟨typeLen, seq, -, -, -, hlen, -⟩ := hempty.genuine
        exact ⟨declaredLen typeLen + 23, hlen⟩
      have hall : Delivers [.ready n false] stream.length := by
        rw [hn]
        exact delivers_ready delivers_none
      exact (hempty.returns_iff hsize hall).mp ((h _).frame [] hempty hall) rfl
    · rintro head body rfl hresponse
      refine hresponse.toPlainMessage.returns_iff.mp fun events hall => ?_
      exact (h events).plain head body rfl hresponse hall
  · rintro ⟨hcontained, hempty, hfound⟩ events
    refine ⟨?_, ?_, hcontained events⟩
    · intro plaintext hframe hall
      refine (hframe.returns_iff hsize hall).mpr ?_
      rintro rfl
      exact hempty hframe
    · rintro head body rfl hresponse hall
      exact hresponse.toPlainMessage.returns (hfound head body rfl hresponse) hall

/-- `RTSP/1.0 200 OK` with the blank line. -/
def sampleText : List UInt8 :=
  [0x52, 0x54, 0x53, 0x50, 0x2f, 0x31, 0x2e, 0x30, 0x20, 0x32, 0x30, 0x30, 0x20, 0x4f,
    0x4b, 0x0d, 0x0a, 0x0d, 0x0a]

/-- A call whose cipher knows one frame: the key is zero, and the number of the frame is
one.  The comparison of a frame is compiled as `total_recv > len + 23`, and its sum
wraps. -/
def sampleCall : RecvCall where
  encrypted := true
  request := "OPTIONS ".toList
  respSize := rtspBufSize
  authDecrypt := fun iv tag ciphertext =>
    if h : iv = hostRtspIv 1 ∧
        tag = [0xd6, 0xc6, 0xeb, 0x69, 0x4c, 0x68, 0x11, 0x8b, 0x81, 0x3c, 0xca, 0xe5,
          0x4c, 0xcd, 0xf6, 0x5a] ∧
        ciphertext = [0x1e, 0x61, 0xb7, 0x41, 0x18, 0x32, 0x58, 0xe5, 0x87, 0xcd, 0x23,
          0x62, 0x49, 0x80, 0x5f, 0xdf, 0x67, 0x1f, 0xc4] then
      ⟨true, sampleText, by rw [h.2.2]; rfl⟩
    else .wrong ciphertext.length
  overflow := fun n => if n = 2 ^ 31 then n else n - 2 ^ 32

/-- The frame. -/
def sampleFrame : List UInt8 :=
  [0x80, 0x00, 0x00, 0x13, 0x00, 0x00, 0x00, 0x01, 0xd6, 0xc6, 0xeb, 0x69, 0x4c, 0x68,
    0x11, 0x8b, 0x81, 0x3c, 0xca, 0xe5, 0x4c, 0xcd, 0xf6, 0x5a, 0x1e, 0x61, 0xb7, 0x41,
    0x18, 0x32, 0x58, 0xe5, 0x87, 0xcd, 0x23, 0x62, 0x49, 0x80, 0x5f, 0xdf, 0x67, 0x1f,
    0xc4]

/-- A response that spells its field `Content-Length: 1`. -/
def spelledHead : List UInt8 :=
  [0x52, 0x54, 0x53, 0x50, 0x2f, 0x31, 0x2e, 0x30, 0x20, 0x32, 0x30, 0x30, 0x20, 0x4f,
    0x4b, 0x0d, 0x0a, 0x43, 0x6f, 0x6e, 0x74, 0x65, 0x6e, 0x74, 0x2d, 0x4c, 0x65, 0x6e,
    0x67, 0x74, 0x68, 0x3a, 0x20, 0x31, 0x0d, 0x0a, 0x0d, 0x0a]

/-- With one byte behind it. -/
theorem spelledHead_response : PlainResponse sampleCall spelledHead [0x78] where
  fits := by decide
  noZero := by decide
  first := by decide
  blank := by decide
  length := ⟨"RTSP/1.0 200 OK".toList, "Content-Length".toList, [' '], ['1'], [],
    "\r\n".toList, by decide, by decide, List.forall_mem_singleton.mpr (by decide), by decide,
    List.forall_mem_singleton.mpr (by decide), by decide⟩

theorem rtspRecv_framed_iff_sampleFrame :
    (EncryptedFrame sampleCall sampleFrame sampleText ∧
      ∀ events, Framed sampleCall sampleFrame events) ∧
    PlainResponse sampleCall spelledHead [0x78] ∧
      ∀ events, Framed sampleCall (spelledHead ++ [0x78]) events := by
  refine ⟨⟨⟨rfl, by decide, 0x80000013, 1, rfl, rfl, by decide, rfl, rfl, rfl⟩,
    (rtspRecv_framed_iff sampleCall (by decide) (by decide) sampleFrame).mpr
      ⟨?_, ?_, ?_⟩⟩, spelledHead_response,
    (rtspRecv_framed_iff sampleCall (by decide) (by decide) _).mpr ⟨?_, ?_, ?_⟩⟩
  · rintro ⟨-, -, -, typeLen, htype, hge, -⟩
    obtain rfl : 0x80000013 = typeLen := Option.some.inj htype
    exact absurd hge (by decide)
  · intro hempty
    obtain ⟨typeLen, seq, -, -, -, -, -, houtput⟩ := hempty.genuine
    have hlen := congrArg List.length houtput
    rw [Control.Decrypted.output_length] at hlen
    exact absurd hlen (by decide)
  · intro head body heq hresponse
    have hfirst := hresponse.first
    have hfour := hresponse.toPlainMessage.blank_le
    cases head with
    | nil => exact absurd hfour (by decide)
    | cons x xs =>
        obtain rfl : 0x80 = x := (List.cons.inj heq).1
        exact absurd hfirst (UInt8.lt_irrefl 0x80)
  · rintro ⟨-, -, -, typeLen, htype, hge, -⟩
    obtain rfl : 0x52545350 = typeLen := Option.some.inj htype
    exact absurd hge (by decide)
  · intro hempty
    obtain ⟨typeLen, seq, htype, -, hmark, -⟩ := hempty.genuine
    obtain rfl : 0x52545350 = typeLen := Option.some.inj htype
    exact absurd hmark (by decide)
  · intro head body heq hresponse
    have hlength : head.length = 38 := by
      have hle : 39 = (head ++ body).length := congrArg List.length heq
      have hall : ∀ k < 40, strstr blankLine
          (toText ((spelledHead ++ [0x78]).take k)) = some blankLine → k = 38 := by
        decide
      have hblank := hresponse.blank
      rw [List.length_append] at hle
      refine hall head.length (by omega) ?_
      rw [heq, List.take_left]
      exact hblank
    obtain ⟨rfl, rfl⟩ := List.append_inj heq (hlength ▸ rfl)
    have hafter : after "Content-Length:".toList (toText spelledHead) =
        some ([' '] ++ (['1'] ++ ("\r\n".toList ++ "\r\n".toList))) := by decide
    exact hresponse.toPlainMessage.endFound (by decide) hafter
      (List.forall_mem_singleton.mpr (by decide)) (by decide)
      (List.forall_mem_singleton.mpr (by decide)) (by decide)

/-- Twenty-four bytes that are all set in the first four. -/
def oversizedStream : List UInt8 := [0xff, 0xff, 0xff, 0xff] ++ List.replicate 20 0

/-- They are more than the call can bear. -/
theorem oversizedStream_not_framed :
    ¬∀ events, Framed sampleCall oversizedStream events := by
  intro h
  have hcontained := (@contained_iff_not_oversized sampleCall oversizedStream
    (by decide) (by decide)).mp fun events => (h events).contained
  exact hcontained ⟨rfl, by decide, by decide, 0xffffffff, rfl, by decide, by decide⟩

/-- A response that spells its field `Content-length: 1`. -/
def respelledHead : List UInt8 :=
  [0x52, 0x54, 0x53, 0x50, 0x2f, 0x31, 0x2e, 0x30, 0x20, 0x32, 0x30, 0x30, 0x20, 0x4f,
    0x4b, 0x0d, 0x0a, 0x43, 0x6f, 0x6e, 0x74, 0x65, 0x6e, 0x74, 0x2d, 0x6c, 0x65, 0x6e,
    0x67, 0x74, 0x68, 0x3a, 0x20, 0x31, 0x0d, 0x0a, 0x0d, 0x0a]

/-- It is left at the end of its header. -/
theorem respelledHead_not_framed :
    PlainResponse sampleCall respelledHead [0x78] ∧
      ¬∀ events, Framed sampleCall (respelledHead ++ [0x78]) events := by
  have hresponse : PlainResponse sampleCall respelledHead [0x78] := {
    fits := by decide
    noZero := by decide
    first := by decide
    blank := by decide
    length := ⟨"RTSP/1.0 200 OK".toList, "Content-length".toList, [' '], ['1'], [],
      "\r\n".toList, by decide, by decide, List.forall_mem_singleton.mpr (by decide),
      by decide, List.forall_mem_singleton.mpr (by decide), by decide⟩ }
  refine ⟨hresponse, fun h => ?_⟩
  have hend := hresponse.toPlainMessage.returns_iff.mp fun events hall =>
    (h events).plain respelledHead [0x78] rfl hresponse hall
  have huntold := hend.untold respelledHead.length (Nat.le_refl _) (by decide)
    (by decide)
  exact absurd huntold (by decide)

end MoonlightPsp.Rtsp

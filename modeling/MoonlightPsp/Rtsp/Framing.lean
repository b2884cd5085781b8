import MoonlightPsp.Control.MessageRoundTrip
import MoonlightPsp.Rtsp.Text
import Mathlib.Data.Int.ModEq

/-!
# The frames of RTSP responses

`rtsp_send_and_recv` reads a response in pieces.  After each piece it looks at all
that it has, for an encrypted frame that is complete, or for a header with the
length of what follows.  The length that a frame declares is added to 24 in `int`,
and for a frame that declares almost 2^31 bytes the sum is none: the language does
not say how the comparison with what is there comes out then.

What the network and the clock do is an argument, and so are the cipher and what
the compiled comparisons make of such a sum.  All reads and copies are checked: one
outside of its buffer has no result.
-/

namespace MoonlightPsp.Rtsp

open CheckedMemory
open MoonlightPsp.Control (GcmAuthDecrypt getBe32 putLe32)

/-! ## The model -/

/-- `RTSP_BUF_SIZE`, also the size of `dec_buf`. -/
def rtspBufSize : ℕ := 4096

/-- What a call works with; `overflow` tells what a sum that is no `int` counts as
where it is compared. -/
structure RecvCall where
  encrypted : Bool
  request : Text
  respSize : ℕ
  authDecrypt : GcmAuthDecrypt
  overflow : ℤ → ℤ

/-- A sum of numbers of type `int` that are not negative, in a comparison. -/
def RecvCall.sum (c : RecvCall) (n : ℤ) : ℤ :=
  if n < 2 ^ 31 then n else c.overflow n

/-- What one turn of the loop meets: the time is over, waiting fails, nothing is
there, a read fails, or a read gives up to `more + 1` bytes, and none at the end of
the stream.  In the last case `late` tells that two seconds have passed since a
header without a length was first there. -/
inductive RecvEvent where
  | timeout
  | waitFailed
  | idle
  | recvFailed (ret : ℤ)
  | ready (more : ℕ) (late : Bool)

/-- The locals of the loop, with what the server still has to send and, for each
call of `mbedtls_gcm_auth_decrypt`, its length and `total_recv`. -/
structure RecvState where
  response : List UInt8
  totalRecv : ℕ
  headerEndPos : ℤ
  contentLength : ℤ
  respEncrypted : Bool
  stream : List UInt8
  decrypts : List (ℕ × ℕ)

/-- The buffer is cleared. -/
def RecvState.start (c : RecvCall) (stream : List UInt8) : RecvState where
  response := List.replicate c.respSize 0
  totalRecv := 0
  headerEndPos := -1
  contentLength := -1
  respEncrypted := false
  stream
  decrypts := []

/-- How a turn ends: the loop goes on, is left, or the function returns. -/
inductive Turn where
  | again (s : RecvState)
  | leave (s : RecvState)
  | fail (ret : ℤ)

/-- `atoi`, which stops at the largest and the smallest number. -/
def atoi32 (text : Text) : ℤ := max (-2 ^ 31) (min (2 ^ 31 - 1) (atoi text))

/-- The C string at the start of a buffer, which has to end in it. -/
def cString (m : List UInt8) : Option Text :=
  if 0 ∈ m then some ((m.takeWhile (· ≠ 0)).map fun x => Char.ofNat x.toNat)
  else none

/-- What `sceNetInetRecv` gives for the room that is left. -/
def piece (c : RecvCall) (more : ℕ) (s : RecvState) : List UInt8 :=
  s.stream.take (min (more + 1) (c.respSize - 1 - s.totalRecv))

/-- One piece of the stream is read, and the terminator put behind it. -/
def recvBytes (c : RecvCall) (more : ℕ) (s : RecvState) : Option RecvState := do
  let bytes := piece c more s
  let response ← copy bytes s.response 0 s.totalRecv bytes.length
  let response ← store response (s.totalRecv + bytes.length) 0
  some { s with
    response
    totalRecv := s.totalRecv + bytes.length
    stream := s.stream.drop bytes.length }

/-- The vector of the host: the sequence number, six zeros and `HR`. -/
def hostRtspIv (seq : UInt32) : List UInt8 :=
  putLe32 seq ++ [0, 0, 0, 0, 0, 0, 0x48, 0x52]

/-- An encrypted frame, whose first number is `typeLen`. -/
def decryptFrame (c : RecvCall) (typeLen : UInt32) (s : RecvState) :
    Option Turn := do
  let len := (typeLen &&& 0x7FFFFFFF).toNat
  if (s.totalRecv : ℤ) ≥ c.sum (len + 24) then
    let seq ← getBe32 s.response 4
    let tag ← slice s.response 8 16
    let ciphertext ← slice s.response 24 len
    let decrypted := c.authDecrypt (hostRtspIv seq) tag ciphertext
    let decBuf ← copy decrypted.output (List.replicate rtspBufSize 0) 0 0 len
    let s := { s with decrypts := s.decrypts ++ [(len, s.totalRecv)] }
    if decrypted.right then
      let response ← copy decBuf s.response 0 0 len
      let response ← store response len 0
      some (.leave { s with response, totalRecv := len, respEncrypted := true })
    else some (.again s)
  else some (.again s)

/-- The number behind the first `Content-Length:`. -/
def contentLengthOf (text : Text) : Option ℤ :=
  (after "Content-Length:".toList text).map fun value =>
    let length := atoi32 (value.dropWhile (· == ' '))
    if length < 0 then -1 else length

/-- Look for the end of the header, and then for the length of the body. -/
def findHeader (text : Text) (s : RecvState) : RecvState :=
  if s.headerEndPos < 0 then
    match strstr "\r\n\r\n".toList text with
    | none => s
    | some rest => { s with
        headerEndPos := ((text.length - rest.length : ℕ) : ℤ) + 4
        contentLength := (contentLengthOf text).getD s.contentLength }
  else s

/-- `header_end_pos + content_length`. -/
def wholeLength (c : RecvCall) (s : RecvState) : ℤ :=
  c.sum (s.headerEndPos + s.contentLength)

/-- A response in clear. -/
def plainTurn (c : RecvCall) (late : Bool) (s : RecvState) : Option Turn := do
  let text ← cString s.response
  let s := findHeader text s
  if s.headerEndPos ≥ 0 then
    if s.contentLength ≥ 0 then
      if (s.totalRecv : ℤ) ≥ wholeLength c s then some (.leave s)
      else some (.again s)
    else if !contains "DESCRIBE ".toList c.request then some (.leave s)
    else if late then some (.leave s)
    else some (.again s)
  else some (.again s)

/-- What is there after a read is looked at. -/
def examine (c : RecvCall) (late : Bool) (s : RecvState) : Option Turn := do
  if c.encrypted ∧ s.totalRecv ≥ 24 then
    let typeLen ← getBe32 s.response 0
    if typeLen &&& 0x80000000 ≠ 0 then decryptFrame c typeLen s
    else plainTurn c late s
  else plainTurn c late s

/-- One turn of the loop. -/
def recvTurn (c : RecvCall) (s : RecvState) : RecvEvent → Option Turn
  | .timeout => some (.leave s)
  | .waitFailed => some (.fail (-1))
  | .idle => some (.again s)
  | .recvFailed ret => some (.fail ret)
  | .ready more late =>
      if s.stream = [] then some (.leave s)
      else do
        let s ← recvBytes c more s
        examine c late s

/-- What comes behind the loop: the return value and the state. -/
def finishRecv (c : RecvCall) (s : RecvState) : Option (ℤ × RecvState) := do
  let response ← store s.response s.totalRecv 0
  let s := { s with response }
  if s.headerEndPos ≥ 0 ∧ s.contentLength ≥ 0 ∧ (s.totalRecv : ℤ) < wholeLength c s
  then some (-1, s)
  else if s.totalRecv = 0 then some (-1, s)
  else some (s.totalRecv, s)

/-- The loop.  When nothing more happens, the time is over at last. -/
def recvLoop (c : RecvCall) : List RecvEvent → RecvState → Option (ℤ × RecvState)
  | [], s => finishRecv c s
  | e :: es, s =>
      if s.totalRecv < c.respSize - 1 then do
        match ← recvTurn c s e with
        | .again s => recvLoop c es s
        | .leave s => finishRecv c s
        | .fail ret => some (ret, s)
      else finishRecv c s

/-- `rtsp_send_and_recv` behind the sending, in all the circumstances. -/
def rtspRecv (c : RecvCall) (stream : List UInt8) (events : List RecvEvent) :
    Option (ℤ × RecvState) :=
  recvLoop c events (.start c stream)

/-! ## Staying inside -/

/-- The call stays inside its buffers, and is never told to decrypt more than there
is. -/
def Contained (r : Option (ℤ × RecvState)) : Prop :=
  ∃ ret s, r = some (ret, s) ∧ ∀ d ∈ s.decrypts, d.1 + 24 ≤ d.2

/-- The length that a frame declares. -/
def declaredLen (typeLen : UInt32) : ℕ := (typeLen &&& 0x7FFFFFFF).toNat

/-- What was read starts with an encrypted frame whose length and 24 are more than
an `int` holds, and the comparison lets it pass. -/
def Overflows (c : RecvCall) (s : RecvState) : Prop :=
  c.encrypted = true ∧ s.totalRecv ≥ 24 ∧
    ∃ typeLen, getBe32 s.response 0 = some typeLen ∧ typeLen ≥ 0xFFFFFFE8 ∧
      c.overflow (declaredLen typeLen + 24) ≤ s.totalRecv

/-- A property of the state after each read. -/
def EachRead (P : RecvState → Prop) (c : RecvCall) :
    List RecvEvent → RecvState → Prop
  | [], _ => True
  | e :: es, s => s.totalRecv < c.respSize - 1 →
      (∀ more late t, e = .ready more late → s.stream ≠ [] →
        recvBytes c more s = some t → P t) ∧
      ∀ t, recvTurn c s e = some (.again t) → EachRead P c es t

/-- The invariant of the loop. -/
structure Sound (c : RecvCall) (s : RecvState) : Prop where
  length : s.response.length = c.respSize
  room : s.totalRecv < c.respSize
  terminated : s.response[s.totalRecv]? = some 0
  decrypts : ∀ d ∈ s.decrypts, d.1 + 24 ≤ d.2

theorem sound_start {c : RecvCall} (hpos : 0 < c.respSize) (stream : List UInt8) :
    Sound c (.start c stream) where
  length := List.length_replicate
  room := hpos
  terminated := by
    rw [RecvState.start, List.getElem?_replicate_of_lt hpos]
  decrypts := fun _ h => nomatch h

theorem sum_of_lt (c : RecvCall) {n : ℤ} (h : n < 2 ^ 31) : c.sum n = n := if_pos h

theorem sum_of_ge (c : RecvCall) {n : ℤ} (h : 2 ^ 31 ≤ n) : c.sum n = c.overflow n :=
  if_neg (not_lt_of_ge h)

variable {c : RecvCall} {s : RecvState}

theorem length_piece (c : RecvCall) (more : ℕ) (s : RecvState) :
    (piece c more s).length ≤ c.respSize - 1 - s.totalRecv := by
  rw [piece, List.length_take]
  omega

/-- The state after a read. -/
def RecvState.withPiece (s : RecvState) (bytes : List UInt8) : RecvState :=
  { s with
    response := (overlay s.response s.totalRecv bytes).set
      (s.totalRecv + bytes.length) 0
    totalRecv := s.totalRecv + bytes.length
    stream := s.stream.drop bytes.length }

theorem recvBytes_eq (hs : Sound c s) (more : ℕ)
    (hroom : s.totalRecv < c.respSize - 1) :
    recvBytes c more s = some (s.withPiece (piece c more s)) := by
  have hlen := hs.length
  have hpiece := length_piece c more s
  have hcopy : copy (piece c more s) s.response 0 s.totalRecv (piece c more s).length =
      some (overlay s.response s.totalRecv
        (((piece c more s).drop 0).take (piece c more s).length)) :=
    copy_eq_overlay (by rw [Nat.zero_add]) (by omega)
  rw [List.drop_zero, List.take_length] at hcopy
  have hover : (overlay s.response s.totalRecv (piece c more s)).length =
      c.respSize := by
    rw [length_overlay (by omega), hlen]
  rw [recvBytes, hcopy, Option.bind_eq_bind, Option.bind_some, store,
    if_pos (by omega)]
  rfl

theorem Sound.withPiece (hs : Sound c s) (more : ℕ)
    (hroom : s.totalRecv < c.respSize - 1) :
    Sound c (s.withPiece (piece c more s)) := by
  have hlen := hs.length
  have hpiece := length_piece c more s
  have hover : (overlay s.response s.totalRecv (piece c more s)).length =
      c.respSize := by
    rw [length_overlay (by omega), hlen]
  refine ⟨?_, ?_, ?_, hs.decrypts⟩
  · rw [RecvState.withPiece, List.length_set, hover]
  · show s.totalRecv + (piece c more s).length < c.respSize
    omega
  · rw [RecvState.withPiece, List.getElem?_set_self (by omega)]

theorem Sound.cString (hs : Sound c s) : ∃ text, cString s.response = some text := by
  have hmem : 0 ∈ s.response := List.mem_of_getElem? hs.terminated
  exact ⟨_, if_pos hmem⟩

theorem findHeader_memory (text : Text) (s : RecvState) :
    (findHeader text s).response = s.response ∧
      (findHeader text s).totalRecv = s.totalRecv ∧
      (findHeader text s).decrypts = s.decrypts := by
  rw [findHeader]
  split
  · split
    · exact ⟨rfl, rfl, rfl⟩
    · exact ⟨rfl, rfl, rfl⟩
  · exact ⟨rfl, rfl, rfl⟩

theorem findHeader_stream (text : Text) (s : RecvState) :
    (findHeader text s).stream = s.stream := by
  rw [findHeader]
  split
  · split
    · rfl
    · rfl
  · rfl

theorem Sound.findHeader (hs : Sound c s) (text : Text) :
    Sound c (findHeader text s) := by
  obtain ⟨hresponse, htotal, hdecrypts⟩ := findHeader_memory text s
  obtain ⟨hlen, hroom, hterm, hdec⟩ := hs
  refine ⟨?_, ?_, ?_, ?_⟩
  · rwa [hresponse]
  · rwa [htotal]
  · rwa [hresponse, htotal]
  · rwa [hdecrypts]

/-- How a turn may end. -/
def Turn.Sound (c : RecvCall) : Turn → Prop
  | .again s => Rtsp.Sound c s
  | .leave s => Rtsp.Sound c s
  | .fail _ => True

theorem plainTurn_sound (hs : Sound c s) (late : Bool) :
    ∃ t, plainTurn c late s = some t ∧ t.Sound c := by
  obtain ⟨text, htext⟩ := hs.cString
  have hfound := hs.findHeader text
  rw [plainTurn, htext, Option.bind_eq_bind, Option.bind_some]
  dsimp only
  split
  · split
    · split
      · exact ⟨_, rfl, hfound⟩
      · exact ⟨_, rfl, hfound⟩
    · split
      · exact ⟨_, rfl, hfound⟩
      · split
        · exact ⟨_, rfl, hfound⟩
        · exact ⟨_, rfl, hfound⟩
  · exact ⟨_, rfl, hfound⟩

theorem declaredLen_eq (typeLen : UInt32) :
    declaredLen typeLen = typeLen.toNat % 2 ^ 31 := by
  rw [declaredLen, UInt32.toNat_and]
  exact Nat.and_two_pow_sub_one_eq_mod typeLen.toNat 31

/-- The mark of an encrypted frame is the highest bit. -/
theorem isFrame_iff (typeLen : UInt32) :
    typeLen &&& 0x80000000 ≠ 0 ↔ 2 ^ 31 ≤ typeLen.toNat := by
  have hlt := typeLen.toNat_lt
  have hmask : (typeLen &&& 0x80000000).toNat = typeLen.toNat &&& 2 ^ 31 :=
    UInt32.toNat_and ..
  rw [Ne, ← UInt32.toNat_inj, hmask]
  constructor
  · intro hne
    by_contra hsmall
    refine hne (Nat.eq_of_testBit_eq fun i => ?_)
    rw [Nat.testBit_and, Nat.testBit_two_pow]
    by_cases hi : 31 = i
    · subst hi
      simp [Nat.testBit_lt_two_pow (Nat.lt_of_not_le hsmall)]
    · simp [hi]
  · intro hge hzero
    have hbit := Nat.testBit_of_two_pow_le_and_two_pow_add_one_gt hge hlt
    have hand := congrArg (fun n => n.testBit 31) hzero
    rw [Nat.testBit_and, hbit, Nat.testBit_two_pow] at hand
    exact absurd hand (by decide)

theorem declaredLen_of_lt {typeLen : UInt32} (hframe : typeLen &&& 0x80000000 ≠ 0)
    (h : typeLen < 0xFFFFFFE8) : declaredLen typeLen + 24 < 2 ^ 31 := by
  have hlt : typeLen.toNat < 0xFFFFFFE8 := UInt32.lt_iff_toNat_lt.mp h
  have hge := (isFrame_iff typeLen).mp hframe
  rw [declaredLen_eq]
  omega

theorem declaredLen_of_ge {typeLen : UInt32} (h : typeLen ≥ 0xFFFFFFE8) :
    typeLen &&& 0x80000000 ≠ 0 ∧ 2 ^ 31 ≤ declaredLen typeLen + 24 ∧
      declaredLen typeLen + 24 < 2 ^ 32 := by
  have hge : 0xFFFFFFE8 ≤ typeLen.toNat := UInt32.le_iff_toNat_le.mp h
  have hlt := typeLen.toNat_lt
  rw [isFrame_iff, declaredLen_eq]
  omega

/-- Nothing is decrypted while the frame is not all there, unless the sum
overflows. -/
theorem decryptFrame_waits {typeLen : UInt32} (hframe : typeLen &&& 0x80000000 ≠ 0)
    (hfits : typeLen ≥ 0xFFFFFFE8 →
      s.totalRecv < c.overflow (declaredLen typeLen + 24))
    (hmore : s.totalRecv < declaredLen typeLen + 24) :
    decryptFrame c typeLen s = some (.again s) := by
  have hsum : s.totalRecv < c.sum (declaredLen typeLen + 24) := by
    by_cases hlt : typeLen < 0xFFFFFFE8
    · have hlen := declaredLen_of_lt hframe hlt
      rw [sum_of_lt c (by omega)]
      omega
    · have hge := UInt32.not_lt.mp hlt
      have hlen := (declaredLen_of_ge hge).2.1
      rw [sum_of_ge c (by omega)]
      exact hfits hge
  rw [declaredLen] at hsum
  rw [decryptFrame]
  dsimp only
  rw [if_neg (not_le_of_gt hsum)]

/-- What a decrypted frame leaves. -/
def decrypted (c : RecvCall) (s : RecvState) (len : ℕ) (seq : UInt32) : Turn :=
  let d := c.authDecrypt (hostRtspIv seq) ((s.response.drop 8).take 16)
    ((s.response.drop 24).take len)
  let s := { s with decrypts := s.decrypts ++ [(len, s.totalRecv)] }
  if d.right then
    .leave { s with
      response := (d.output ++ s.response.drop len).set len 0
      totalRecv := len
      respEncrypted := true }
  else .again s

theorem decryptFrame_eq (hs : Sound c s) (hsize : c.respSize ≤ rtspBufSize)
    {typeLen : UInt32} (hlen : declaredLen typeLen + 24 < 2 ^ 31)
    (hall : declaredLen typeLen + 24 ≤ s.totalRecv) {seq : UInt32}
    (hseq : getBe32 s.response 4 = some seq) :
    decryptFrame c typeLen s = some (decrypted c s (declaredLen typeLen) seq) := by
  have hsum : c.sum (declaredLen typeLen + 24) = declaredLen typeLen + 24 :=
    sum_of_lt c (by omega)
  have hlength := hs.length
  have hroom := hs.room
  rw [declaredLen] at hsum
  rw [declaredLen] at hall hlen ⊢
  have hcipher : ((s.response.drop 24).take
      (typeLen &&& 0x7FFFFFFF).toNat).length = (typeLen &&& 0x7FFFFFFF).toNat := by
    rw [List.length_take, List.length_drop]
    omega
  have houtput := (c.authDecrypt (hostRtspIv seq) ((s.response.drop 8).take 16)
    ((s.response.drop 24).take
      (typeLen &&& 0x7FFFFFFF).toNat)).output_length.trans hcipher
  obtain ⟨decBuf, hdec, hdecBuf, hdecLen⟩ := @Control.copy_to_start
    (c.authDecrypt (hostRtspIv seq) ((s.response.drop 8).take 16)
      ((s.response.drop 24).take (typeLen &&& 0x7FFFFFFF).toNat)).output
    (List.replicate rtspBufSize 0) (typeLen &&& 0x7FFFFFFF).toNat (by omega)
    (by rw [List.length_replicate]; omega)
  rw [List.length_replicate] at hdecLen
  rw [List.take_of_length_le (by omega)] at hdecBuf
  obtain ⟨response, hcopy, hresponse, hresponseLen⟩ := @Control.copy_to_start decBuf
    s.response (typeLen &&& 0x7FFFFFFF).toNat (by omega) (by omega)
  rw [hdecBuf, List.take_append_of_le_length (by omega),
    List.take_of_length_le (by omega)] at hresponse
  rw [decryptFrame]
  dsimp only
  rw [if_pos (by rw [hsum]; omega), hseq, slice_eq (by omega), slice_eq (by omega)]
  simp only [Option.bind_eq_bind, Option.bind_some]
  rw [hdec, decrypted]
  simp only [Option.bind_some]
  split
  · rw [hcopy, Option.bind_some, store, if_pos (by omega), hresponse]
    rfl
  · rfl

/-- If the comparison lets it pass, a frame is decrypted that is not there. -/
theorem decryptFrame_stuck (hs : Sound c s) (hsize : c.respSize ≤ rtspBufSize)
    {typeLen : UInt32} (hlen : 2 ^ 31 ≤ declaredLen typeLen + 24)
    (hpass : c.overflow (declaredLen typeLen + 24) ≤ s.totalRecv)
    (htotal : s.totalRecv ≥ 24) : decryptFrame c typeLen s = none := by
  have hsum : c.sum (declaredLen typeLen + 24) ≤ s.totalRecv := by
    rwa [sum_of_ge c (by omega)]
  have hlength := hs.length
  have hroom := hs.room
  have hbuf : rtspBufSize = 4096 := rfl
  rw [declaredLen] at hsum hlen
  obtain ⟨seq, hseq⟩ := Control.getBe32_isSome (d := s.response) (i := 4) (by omega)
  rw [decryptFrame]
  dsimp only
  rw [if_pos hsum, hseq, slice_eq (by omega), Option.bind_eq_bind, Option.bind_some,
    Option.bind_eq_bind, Option.bind_some, slice, if_neg (by omega)]
  rfl

theorem decrypted_sound (hs : Sound c s) {len : ℕ} (hall : len + 24 ≤ s.totalRecv)
    (seq : UInt32) : (decrypted c s len seq).Sound c := by
  have hlength := hs.length
  have hroom := hs.room
  have hcipher : ((s.response.drop 24).take len).length = len := by
    rw [List.length_take, List.length_drop]
    omega
  have houtput := (c.authDecrypt (hostRtspIv seq) ((s.response.drop 8).take 16)
    ((s.response.drop 24).take len)).output_length.trans hcipher
  have hdecrypts : ∀ d ∈ s.decrypts ++ [(len, s.totalRecv)], d.1 + 24 ≤ d.2 := by
    intro d hd
    rcases List.mem_append.mp hd with hold | hnew
    · exact hs.decrypts d hold
    · rw [List.mem_singleton.mp hnew]
      exact hall
  rw [decrypted]
  dsimp only
  split
  · refine ⟨?_, ?_, ?_, hdecrypts⟩
    · rw [List.length_set, List.length_append, List.length_drop, houtput]
      omega
    · show len < c.respSize
      omega
    · rw [List.getElem?_set_self (by
        rw [List.length_append, List.length_drop, houtput]
        omega)]
  · exact ⟨hlength, hroom, hs.terminated, hdecrypts⟩

/-- What is there is looked at without leaving a buffer, unless a sum passes that
is none. -/
theorem examine_sound (hs : Sound c s) (hsize : c.respSize ≤ rtspBufSize)
    (hfits : ¬Overflows c s) (late : Bool) :
    ∃ t, examine c late s = some t ∧ t.Sound c := by
  rw [examine]
  split
  · rename_i henc
    have hlength := hs.length
    have hroom := hs.room
    obtain ⟨typeLen, htype⟩ := Control.getBe32_isSome (d := s.response) (i := 0)
      (by omega)
    rw [htype, Option.bind_eq_bind, Option.bind_some]
    split
    · rename_i hframe
      have hbuf : rtspBufSize = 4096 := rfl
      by_cases hall : declaredLen typeLen + 24 ≤ s.totalRecv
      · obtain ⟨seq, hseq⟩ := Control.getBe32_isSome (d := s.response) (i := 4)
          (by omega)
        exact ⟨_, decryptFrame_eq hs hsize (by omega) hall hseq,
          decrypted_sound hs hall seq⟩
      · have hpass (hge : typeLen ≥ 0xFFFFFFE8) :
            s.totalRecv < c.overflow (declaredLen typeLen + 24) := by
          by_contra hle
          exact hfits ⟨henc.1, henc.2, typeLen, htype, hge, not_lt.mp hle⟩
        exact ⟨_, decryptFrame_waits hframe hpass (Nat.lt_of_not_le hall), hs⟩
    · exact plainTurn_sound hs late
  · exact plainTurn_sound hs late

theorem examine_stuck (hs : Sound c s) (hsize : c.respSize ≤ rtspBufSize)
    (hover : Overflows c s) (late : Bool) : examine c late s = none := by
  obtain ⟨henc, htotal, typeLen, htype, hge, hpass⟩ := hover
  obtain ⟨hframe, hlen, -⟩ := declaredLen_of_ge hge
  rw [examine, if_pos ⟨henc, htotal⟩, htype, Option.bind_eq_bind, Option.bind_some,
    if_pos hframe, decryptFrame_stuck hs hsize hlen hpass htotal]

theorem finishRecv_contained (hs : Sound c s) : Contained (finishRecv c s) := by
  have hlength := hs.length
  have hroom := hs.room
  rw [finishRecv, store, if_pos (by omega), Option.bind_eq_bind, Option.bind_some]
  dsimp only
  split
  · exact ⟨_, _, rfl, hs.decrypts⟩
  · split
    · exact ⟨_, _, rfl, hs.decrypts⟩
    · exact ⟨_, _, rfl, hs.decrypts⟩

theorem recvTurn_ready (hs : Sound c s) (more : ℕ) (late : Bool)
    (hroom : s.totalRecv < c.respSize - 1) (hstream : s.stream ≠ []) :
    recvTurn c s (.ready more late) =
      examine c late (s.withPiece (piece c more s)) := by
  rw [recvTurn, if_neg hstream, recvBytes_eq hs more hroom, Option.bind_eq_bind,
    Option.bind_some]

/-- A turn gets stuck if and only if its read overflows. -/
theorem recvTurn_cases (hs : Sound c s) (hsize : c.respSize ≤ rtspBufSize)
    (hroom : s.totalRecv < c.respSize - 1) (e : RecvEvent) :
    (∃ t, recvTurn c s e = some t ∧ t.Sound c ∧
      ∀ more late u, e = .ready more late → s.stream ≠ [] →
        recvBytes c more s = some u → ¬Overflows c u) ∨
    (recvTurn c s e = none ∧ ∃ more late u, e = .ready more late ∧
      s.stream ≠ [] ∧ recvBytes c more s = some u ∧ Overflows c u) := by
  cases e with
  | timeout => exact .inl ⟨_, rfl, hs, fun _ _ _ h => nomatch h⟩
  | waitFailed => exact .inl ⟨_, rfl, trivial, fun _ _ _ h => nomatch h⟩
  | idle => exact .inl ⟨_, rfl, hs, fun _ _ _ h => nomatch h⟩
  | recvFailed ret => exact .inl ⟨_, rfl, trivial, fun _ _ _ h => nomatch h⟩
  | ready more late =>
      by_cases hend : s.stream = []
      · exact .inl ⟨.leave s, if_pos hend, hs, fun _ _ _ _ h => absurd hend h⟩
      · have hread := recvBytes_eq hs more hroom
        have hpiece := hs.withPiece more hroom
        have hturn := recvTurn_ready hs more late hroom hend
        by_cases hover : Overflows c (s.withPiece (piece c more s))
        · exact .inr ⟨hturn.trans (examine_stuck hpiece hsize hover late), more,
            late, _, rfl, hend, hread, hover⟩
        · obtain ⟨t, ht, hsound⟩ := examine_sound hpiece hsize hover late
          refine .inl ⟨t, hturn.trans ht, hsound, ?_⟩
          intro more' late' u he _ hu
          cases he
          rw [hread] at hu
          cases hu
          exact hover

/-- A call stays inside if and only if no read overflows. -/
theorem recvLoop_contained_iff (hsize : c.respSize ≤ rtspBufSize)
    (events : List RecvEvent) (hs : Sound c s) :
    Contained (recvLoop c events s) ↔
      EachRead (fun t => ¬Overflows c t) c events s := by
  induction events generalizing s with
  | nil => exact iff_of_true (finishRecv_contained hs) trivial
  | cons e es ih =>
      rw [recvLoop, EachRead]
      by_cases hroom : s.totalRecv < c.respSize - 1
      · rw [if_pos hroom]
        rcases recvTurn_cases hs hsize hroom e with
          ⟨t, hturn, hsound, hfits⟩ |
          ⟨hturn, more, late, u, he, hend, hread, hover⟩
        · rw [hturn, Option.bind_eq_bind, Option.bind_some]
          cases t with
          | again t =>
              constructor
              · intro h
                refine fun _ => ⟨hfits, fun t' ht' => ?_⟩
                cases ht'
                exact (ih hsound).mp h
              · intro h
                exact (ih hsound).mpr ((h hroom).2 t rfl)
          | leave t =>
              exact iff_of_true (finishRecv_contained hsound) fun _ =>
                ⟨hfits, fun _ h => nomatch h⟩
          | fail ret =>
              exact iff_of_true ⟨ret, s, rfl, hs.decrypts⟩ fun _ =>
                ⟨hfits, fun _ h => nomatch h⟩
        · rw [hturn]
          refine iff_of_false ?_ fun h => (h hroom).1 more late u he hend hread hover
          rintro ⟨ret, t, hnone, -⟩
          exact nomatch hnone
      · rw [if_neg hroom]
        exact iff_of_true (finishRecv_contained hs) fun h => absurd h hroom

end MoonlightPsp.Rtsp

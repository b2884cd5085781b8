import MoonlightPsp.Rtsp.Framing

/-!
# Frames come out whole

What comes piece by piece is together in the buffer, and a genuine encrypted frame
is opened when all of it is there, whatever the pieces are.
-/

namespace MoonlightPsp.Rtsp

open CheckedMemory
open MoonlightPsp.Control (getBe32 getBe16)

/-! ## What a server sends -/

/-- Characters of bytes. -/
def toText (xs : List UInt8) : Text := xs.map fun x => Char.ofNat x.toNat

/-- The blank line. -/
def blankLine : Text := "\r\n\r\n".toList

/-- One encrypted frame, which declares its own length and is genuine. -/
structure EncryptedFrame (c : RecvCall) (frame plaintext : List UInt8) : Prop where
  encrypted : c.encrypted = true
  fits : plaintext.length + 25 ≤ c.respSize
  genuine : ∃ typeLen seq, getBe32 frame 0 = some typeLen ∧
    getBe32 frame 4 = some seq ∧ typeLen &&& 0x80000000 ≠ 0 ∧
    frame.length = declaredLen typeLen + 24 ∧
    (c.authDecrypt (hostRtspIv seq) ((frame.drop 8).take 16)
      (frame.drop 24)).right = true ∧
    (c.authDecrypt (hostRtspIv seq) ((frame.drop 8).take 16)
      (frame.drop 24)).output = plaintext

/-- Neither is a time over nor does anything fail. -/
def RecvEvent.Calm : RecvEvent → Prop
  | .idle => True
  | .ready _ late => late = false
  | _ => False

/-- How many bytes the reads take at most. -/
def readable : List RecvEvent → ℕ
  | [] => 0
  | .ready more _ :: es => more + 1 + readable es
  | _ :: es => readable es

/-- Without a timeout or an error, the events give this many bytes. -/
structure Delivers (events : List RecvEvent) (n : ℕ) : Prop where
  calm : ∀ e ∈ events, e.Calm
  enough : n ≤ readable events

/-- The function returns these bytes, with a terminator behind them. -/
def Returns (bytes : List UInt8) (r : Option (ℤ × RecvState)) : Prop :=
  ∃ s : RecvState, r = some ((bytes.length : ℤ), s) ∧
    s.response.take bytes.length = bytes ∧ s.response[bytes.length]? = some 0

/-! ## The loop -/

/-- So many bytes of the whole are there. -/
structure Received (c : RecvCall) (whole : List UInt8) (k : ℕ) (s : RecvState) :
    Prop where
  response : s.response = whole.take k ++ List.replicate (c.respSize - k) 0
  totalRecv : s.totalRecv = k
  stream : s.stream = whole.drop k

variable {c : RecvCall} {s : RecvState} {whole : List UInt8} {k : ℕ}

theorem received_start (c : RecvCall) (whole : List UInt8) :
    Received c whole 0 (.start c whole) :=
  ⟨rfl, rfl, rfl⟩

theorem piece_eq (hs : Received c whole k s) (more : ℕ) :
    piece c more s = (whole.drop k).take (min (more + 1) (c.respSize - 1 - k)) := by
  rw [piece, hs.stream, hs.totalRecv]

theorem length_piece_of_fits (hs : Received c whole k s)
    (hfits : whole.length < c.respSize) (more : ℕ) :
    k + (piece c more s).length = min (k + (more + 1)) (max k whole.length) := by
  rw [piece_eq hs, List.length_take, List.length_drop]
  omega

theorem Received.take_append_piece (hs : Received c whole k s)
    (hk : k ≤ whole.length) (more : ℕ) :
    whole.take k ++ piece c more s = whole.take (k + (piece c more s).length) ∧
      k + (piece c more s).length ≤ whole.length := by
  have hfront : piece c more s <+: whole.drop k := by
    rw [piece_eq hs]
    exact List.take_prefix ..
  have hle := hfront.length_le
  rw [List.length_drop] at hle
  refine ⟨?_, by omega⟩
  rw [List.take_add, ← List.prefix_iff_eq_take.mp hfront]

/-- Zeros over zeros. -/
theorem set_zero {xs : List UInt8} {m i : ℕ} (hi : xs.length = i) :
    (xs ++ List.replicate m 0).set i 0 = xs ++ List.replicate m 0 := by
  subst hi
  rw [List.set_append_right _ _ (Nat.le_refl _), Nat.sub_self]
  cases m with
  | zero => rfl
  | succ m => rfl

/-- One more piece. -/
theorem Received.withPiece (hs : Received c whole k s) (hk : k ≤ whole.length)
    (more : ℕ) :
    Received c whole (k + (piece c more s).length) (s.withPiece (piece c more s)) := by
  obtain ⟨htake, hle⟩ := hs.take_append_piece hk more
  have hfront : (whole.take k).length = k := List.length_take_of_le hk
  refine ⟨?_, ?_, ?_⟩
  · have hover : overlay s.response s.totalRecv (piece c more s) =
        whole.take (k + (piece c more s).length) ++
          List.replicate (c.respSize - (k + (piece c more s).length)) 0 := by
      rw [overlay, hs.response, hs.totalRecv, List.take_left' hfront, htake,
        List.drop_append, List.drop_eq_nil_of_le (by omega), List.nil_append,
        hfront, List.drop_replicate]
      congr 2
      omega
    show (overlay s.response s.totalRecv (piece c more s)).set
      (s.totalRecv + (piece c more s).length) 0 = _
    rw [hover, hs.totalRecv, set_zero]
    exact List.length_take_of_le hle
  · show s.totalRecv + (piece c more s).length = _
    rw [hs.totalRecv]
  · show s.stream.drop (piece c more s).length = _
    rw [hs.stream, List.drop_drop]

/-- When all is there, nothing more comes. -/
theorem recvLoop_rest {events : List RecvEvent} (hcalm : ∀ e ∈ events, e.Calm)
    (hstream : s.stream = []) : recvLoop c events s = finishRecv c s := by
  induction events with
  | nil => rfl
  | cons e es ih =>
      have hrest := ih fun e he => hcalm e (List.mem_cons_of_mem _ he)
      have he := hcalm e List.mem_cons_self
      rw [recvLoop]
      split
      · cases e with
        | idle => exact hrest
        | ready more late =>
            rw [recvTurn, if_pos hstream, Option.bind_eq_bind, Option.bind_some]
        | timeout => exact he.elim
        | waitFailed => exact he.elim
        | recvFailed ret => exact he.elim
      · rfl

/-- The loop brings the whole, if each look at a part of it goes on, and the last one
leaves the loop or leaves the whole as it is. -/
theorem recvLoop_whole {I Q : RecvState → Prop} (hfits : whole.length < c.respSize)
    (hkeep : ∀ s bytes, I s → I (s.withPiece bytes))
    (hstep : ∀ k s, k < whole.length → Sound c s → Received c whole k s →
      I s → ∃ s', examine c false s = some (.again s') ∧ Sound c s' ∧
        Received c whole k s' ∧ I s')
    (hlast : ∀ s, Sound c s → Received c whole whole.length s → I s → ∃ s', Q s' ∧
      (examine c false s = some (.leave s') ∨
        examine c false s = some (.again s') ∧ s'.stream = []))
    (events : List RecvEvent) {k : ℕ} {s : RecvState}
    (hevents : Delivers events (whole.length - k)) (hk : k < whole.length)
    (hs : Sound c s) (hreceived : Received c whole k s) (hI : I s) :
    ∃ s', recvLoop c events s = finishRecv c s' ∧ Q s' := by
  induction events generalizing k s with
  | nil =>
      have hnone : whole.length - k ≤ 0 := hevents.enough
      omega
  | cons e es ih =>
      have he := hevents.calm e List.mem_cons_self
      have hcalm (e') (h : e' ∈ es) : e'.Calm :=
        hevents.calm e' (List.mem_cons_of_mem _ h)
      have henough := hevents.enough
      have hroom : s.totalRecv < c.respSize - 1 := by
        rw [hreceived.totalRecv]
        omega
      rw [recvLoop, if_pos hroom]
      cases e with
      | timeout => exact he.elim
      | waitFailed => exact he.elim
      | recvFailed ret => exact he.elim
      | idle => exact ih ⟨hcalm, henough⟩ hk hs hreceived hI
      | ready more late =>
          obtain rfl : late = false := he
          rw [readable] at henough
          have hstream : s.stream ≠ [] := by
            rw [hreceived.stream]
            intro hnil
            have := List.drop_eq_nil_iff.mp hnil
            omega
          rw [recvTurn_ready hs more false hroom hstream]
          have hsound := hs.withPiece more hroom
          have hmore := hreceived.withPiece hk.le more
          have hIpiece := hkeep s (piece c more s) hI
          rw [length_piece_of_fits hreceived hfits, Nat.max_eq_right hk.le] at hmore
          by_cases hall : k + (more + 1) < whole.length
          · rw [Nat.min_eq_left hall.le] at hmore
            obtain ⟨s', hexamine, hs', hreceived', hI'⟩ :=
              hstep _ _ hall hsound hmore hIpiece
            rw [hexamine, Option.bind_eq_bind, Option.bind_some]
            exact ih (k := k + (more + 1)) ⟨hcalm, by omega⟩ hall hs' hreceived' hI'
          · rw [Nat.min_eq_right (Nat.le_of_not_lt hall)] at hmore
            obtain ⟨s', hQ, hexamine | ⟨hexamine, hend⟩⟩ :=
              hlast _ hsound hmore hIpiece
            · rw [hexamine, Option.bind_eq_bind, Option.bind_some]
              exact ⟨s', rfl, hQ⟩
            · rw [hexamine, Option.bind_eq_bind, Option.bind_some]
              exact ⟨s', recvLoop_rest hcalm hend, hQ⟩

/-! ## Reading what is there -/

theorem getBe32_append {xs : List UInt8} {i : ℕ} (h : i + 4 ≤ xs.length)
    (rest : List UInt8) : getBe32 (xs ++ rest) i = getBe32 xs i := by
  simp only [getBe32, getBe16]
  rw [List.getElem?_append_left (by omega), List.getElem?_append_left (by omega),
    List.getElem?_append_left (by omega), List.getElem?_append_left (by omega)]

theorem Received.getBe32 (hs : Received c whole k s) (hk : k ≤ whole.length) {i : ℕ}
    (hi : i + 4 ≤ k) : getBe32 s.response i = getBe32 whole i := by
  have hlen : (whole.take k).length = k := List.length_take_of_le hk
  have hinside : i + 4 ≤ (whole.take k).length := by omega
  have hwhole := getBe32_append hinside (whole.drop k)
  rw [List.take_append_drop] at hwhole
  rw [hs.response, getBe32_append (by omega), hwhole]

theorem toNat_be16 (a b : UInt8) :
    (a.toUInt16 <<< 8 ||| b.toUInt16).toNat = a.toNat * 2 ^ 8 + b.toNat := by
  have ha := a.toNat_lt
  have hb := b.toNat_lt
  have hshift : (a.toUInt16 <<< 8).toNat = a.toNat <<< 8 := by
    simp only [UInt16.toNat_shiftLeft, UInt8.toNat_toUInt16, UInt16.toNat_ofNat,
      Nat.shiftLeft_eq, Nat.reduceMod, Nat.reducePow]
    omega
  rw [UInt16.toNat_or, hshift, UInt8.toNat_toUInt16,
    ← Nat.shiftLeft_add_eq_or_of_lt (by omega), Nat.shiftLeft_eq]

theorem toNat_be32 (high low : UInt16) :
    (high.toUInt32 <<< 16 ||| low.toUInt32).toNat =
      high.toNat * 2 ^ 16 + low.toNat := by
  have hhigh := high.toNat_lt
  have hlow := low.toNat_lt
  have hshift : (high.toUInt32 <<< 16).toNat = high.toNat <<< 16 := by
    simp only [UInt32.toNat_shiftLeft, UInt16.toNat_toUInt32, UInt32.toNat_ofNat,
      Nat.shiftLeft_eq, Nat.reduceMod, Nat.reducePow]
    omega
  rw [UInt32.toNat_or, hshift, UInt16.toNat_toUInt32,
    ← Nat.shiftLeft_add_eq_or_of_lt (by omega), Nat.shiftLeft_eq]

/-- The value of a number, by its bytes. -/
theorem toNat_of_getBe32 {xs : List UInt8} {v : UInt32}
    (h : getBe32 xs 0 = some v) : ∃ a b x y : UInt8, xs[0]? = some a ∧
      xs[1]? = some b ∧
      v.toNat = a.toNat * 2 ^ 24 + b.toNat * 2 ^ 16 + x.toNat * 2 ^ 8 + y.toNat := by
  simp only [getBe32, getBe16, Option.bind_eq_bind, Option.bind_eq_some_iff,
    Option.some.injEq] at h
  obtain ⟨high, ⟨a, ha, b, hb, rfl⟩, low, ⟨x, hx, y, hy, rfl⟩, rfl⟩ := h
  refine ⟨a, b, x, y, ha, hb, ?_⟩
  rw [toNat_be32, toNat_be16, toNat_be16]
  omega

/-- The text that the C functions see. -/
theorem cString_eq {xs : List UInt8} (hs : Sound c s)
    (h : s.response.takeWhile (· ≠ 0) = xs) : cString s.response = some (toText xs) := by
  have hmem : 0 ∈ s.response := List.mem_of_getElem? hs.terminated
  rw [cString, if_pos hmem, h, toText]

/-! ## An encrypted frame -/

/-- The second byte of a frame that fits is zero, so that its text is too short for
a blank line. -/
theorem EncryptedFrame.second_zero {frame plaintext : List UInt8}
    (hframe : EncryptedFrame c frame plaintext) (hsize : c.respSize ≤ rtspBufSize) :
    frame[1]? = some 0 := by
  obtain ⟨-, hfits, typeLen, seq, htype, -, hmark, hlen, -, hplain⟩ := hframe
  obtain ⟨a, b, x, y, -, hb, hvalue⟩ := toNat_of_getBe32 htype
  have hbuf : rtspBufSize = 4096 := rfl
  have hplainLen : plaintext.length = declaredLen typeLen := by
    rw [← hplain, Control.Decrypted.output_length, List.length_drop, hlen]
    omega
  have hge := (isFrame_iff typeLen).mp hmark
  have hdeclared := declaredLen_eq typeLen
  have hlt := typeLen.toNat_lt
  have ha := a.toNat_lt
  have hsmall := b.toNat_lt
  have hx := x.toNat_lt
  have hy := y.toNat_lt
  have hzero : b = 0 := by
    apply UInt8.toNat_inj.mp
    show b.toNat = 0
    omega
  rw [hb, hzero]

theorem length_takeWhile_le {xs : List UInt8} {i : ℕ} (h : xs[i]? = some 0) :
    (xs.takeWhile (· ≠ 0)).length ≤ i := by
  induction xs generalizing i with
  | nil => exact nomatch h
  | cons x xs ih =>
      cases i with
      | zero =>
          obtain rfl : x = 0 := Option.some.inj h
          rfl
      | succ i =>
          have htail := ih (i := i) h
          rw [List.takeWhile_cons]
          split
          · exact Nat.succ_le_succ htail
          · exact Nat.zero_le _

/-- Nothing was found of a header. -/
def NoHeader (s : RecvState) : Prop := s.headerEndPos = -1 ∧ s.contentLength = -1

theorem plainTurn_short (hs : Sound c s) (hheader : NoHeader s)
    (hzero : s.response[1]? = some 0) (late : Bool) :
    plainTurn c late s = some (.again s) := by
  have hlen := length_takeWhile_le hzero
  have hnone : strstr blankLine (toText (s.response.takeWhile (· ≠ 0))) = none := by
    cases hfirst : strstr blankLine (toText (s.response.takeWhile (· ≠ 0))) with
    | none => rfl
    | some rest =>
        obtain ⟨hfront, hsuffix⟩ := strstr_spec hfirst
        have hle := Nat.le_trans hfront.length_le hsuffix.length_le
        rw [toText, List.length_map] at hle
        exact absurd (Nat.le_trans hle hlen) (by decide)
  have hfind : findHeader (toText (s.response.takeWhile (· ≠ 0))) s = s := by
    rw [findHeader, if_pos (by rw [hheader.1]; decide), ← blankLine, hnone]
  rw [plainTurn, cString_eq hs rfl, Option.bind_eq_bind, Option.bind_some]
  dsimp only
  rw [hfind, if_neg (by rw [hheader.1]; decide)]

theorem Received.second_zero (hs : Received c whole k s)
    (hsize : 2 ≤ c.respSize) (hzero : whole[1]? = some 0) :
    s.response[1]? = some 0 := by
  obtain ⟨hlen, -⟩ := List.getElem?_eq_some_iff.mp hzero
  rw [hs.response]
  by_cases hk : 1 < (whole.take k).length
  · rw [List.getElem?_append_left hk, List.getElem?_take_of_lt
      (by rw [List.length_take] at hk; omega), hzero]
  · rw [List.getElem?_append_right (Nat.le_of_not_lt hk),
      List.getElem?_replicate_of_lt]
    rw [List.length_take] at hk ⊢
    omega

/-- Until all of it is there, a frame is waited for. -/
theorem EncryptedFrame.examine_again {frame plaintext : List UInt8}
    (hframe : EncryptedFrame c frame plaintext) (hsize : c.respSize ≤ rtspBufSize)
    (late : Bool) (hk : k < frame.length) (hs : Sound c s)
    (hreceived : Received c frame k s) (hheader : NoHeader s) :
    examine c late s = some (.again s) := by
  have hzero := hframe.second_zero hsize
  obtain ⟨-, hfits, typeLen, seq, htype, -, hmark, hlen, -, hplain⟩ := hframe
  have hplainLen : plaintext.length = declaredLen typeLen := by
    rw [← hplain, Control.Decrypted.output_length, List.length_drop, hlen]
    omega
  have hbuf : rtspBufSize = 4096 := rfl
  rw [examine]
  split
  · rename_i henc
    have hfew := henc.2
    rw [hreceived.totalRecv] at hfew
    rw [hreceived.getBe32 hk.le (by omega), htype, Option.bind_eq_bind,
      Option.bind_some, if_pos hmark]
    refine decryptFrame_waits hmark (fun hge => ?_) (by rw [hreceived.totalRecv]; omega)
    have hlarge := (declaredLen_of_ge hge).2.1
    omega
  · exact plainTurn_short hs hheader
      (hreceived.second_zero (by omega) hzero) late

theorem authDecrypt_congr (iv : List UInt8) {tag tag' text text' : List UInt8}
    (htag : tag = tag') (htext : text = text') :
    (c.authDecrypt iv tag text).right = (c.authDecrypt iv tag' text').right ∧
      (c.authDecrypt iv tag text).output = (c.authDecrypt iv tag' text').output := by
  subst htag htext
  exact ⟨rfl, rfl⟩

/-- What the loop leaves of a frame. -/
structure Opened (plaintext : List UInt8) (s : RecvState) : Prop where
  header : NoHeader s
  totalRecv : s.totalRecv = plaintext.length
  front : s.response.take plaintext.length = plaintext

theorem EncryptedFrame.examine_leave {frame plaintext : List UInt8}
    (hframe : EncryptedFrame c frame plaintext) (hsize : c.respSize ≤ rtspBufSize)
    (late : Bool) (hs : Sound c s) (hreceived : Received c frame frame.length s)
    (hheader : NoHeader s) :
    ∃ s', examine c late s = some (.leave s') ∧ Sound c s' ∧ Opened plaintext s' := by
  obtain ⟨hon, hfits, typeLen, seq, htype, hseq, hmark, hlen, hright, hplain⟩ := hframe
  have hplainLen : plaintext.length = declaredLen typeLen := by
    rw [← hplain, Control.Decrypted.output_length, List.length_drop, hlen]
    omega
  have hbuf : rtspBufSize = 4096 := rfl
  have htotal := hreceived.totalRecv
  have htag : (s.response.drop 8).take 16 = (frame.drop 8).take 16 := by
    rw [hreceived.response, List.take_length,
      List.drop_append_of_le_length (by omega),
      List.take_append_of_le_length (by rw [List.length_drop]; omega)]
  have hcipher : (s.response.drop 24).take (declaredLen typeLen) = frame.drop 24 := by
    rw [hreceived.response, List.take_length,
      List.drop_append_of_le_length (by omega),
      List.take_left' (by rw [List.length_drop]; omega)]
  obtain ⟨hrightHere, hplainHere⟩ := authDecrypt_congr (c := c)
    (hostRtspIv seq) htag hcipher
  rw [hright] at hrightHere
  rw [hplain] at hplainHere
  have hexamine : examine c late s =
      some (decrypted c s (declaredLen typeLen) seq) := by
    rw [examine, if_pos ⟨hon, by omega⟩, hreceived.getBe32 (Nat.le_refl _) (by omega),
      htype, Option.bind_eq_bind, Option.bind_some, if_pos hmark]
    refine decryptFrame_eq hs hsize (by omega) (by omega) ?_
    rw [hreceived.getBe32 (Nat.le_refl _) (by omega), hseq]
  have hall : declaredLen typeLen + 24 ≤ s.totalRecv := by omega
  have hsound := decrypted_sound hs hall seq
  rw [decrypted] at hexamine hsound
  simp only [hrightHere, hplainHere, if_true] at hexamine hsound
  refine ⟨_, hexamine, hsound, hheader, hplainLen.symm, ?_⟩
  rw [← hplainLen, List.take_set_of_le (Nat.le_refl _), List.take_left]

/-- The terminator is there already. -/
theorem finishRecv_eq (hs : Sound c s) : finishRecv c s = some
    ((if s.headerEndPos ≥ 0 ∧ s.contentLength ≥ 0 ∧
        (s.totalRecv : ℤ) < wholeLength c s then (-1 : ℤ)
      else if s.totalRecv = 0 then (-1 : ℤ) else (s.totalRecv : ℤ)), s) := by
  have hlen := hs.length
  have hroom := hs.room
  have hset : s.response.set s.totalRecv 0 = s.response := by
    obtain ⟨hlt, hzero⟩ := List.getElem?_eq_some_iff.mp hs.terminated
    rw [← hzero, List.set_getElem_self]
  rw [finishRecv, store, if_pos (by omega), hset, Option.bind_eq_bind,
    Option.bind_some]
  dsimp only
  split
  · rfl
  · split
    · rfl
    · rfl

/-- A genuine frame is returned if and only if there is something in it. -/
theorem EncryptedFrame.returns_iff {frame plaintext : List UInt8}
    (hframe : EncryptedFrame c frame plaintext) (hsize : c.respSize ≤ rtspBufSize)
    {events : List RecvEvent} (hevents : Delivers events frame.length) :
    Returns plaintext (rtspRecv c frame events) ↔ plaintext ≠ [] := by
  have hfits := hframe.fits
  obtain ⟨typeLen, seq, htype, -, -, hlen, -, hplain⟩ := hframe.genuine
  have hplainLen : plaintext.length = declaredLen typeLen := by
    rw [← hplain, Control.Decrypted.output_length, List.length_drop, hlen]
    omega
  obtain ⟨s', hloop, hs', hheader, htotal, hfront⟩ := @recvLoop_whole c frame NoHeader
    (fun s => Sound c s ∧ Opened plaintext s) (by omega) (fun _ _ h => h)
    (fun k s hk hs hreceived hheader => ⟨s,
      hframe.examine_again hsize false hk hs hreceived hheader, hs, hreceived,
      hheader⟩)
    (fun s hs hreceived hheader =>
      have ⟨s', hleave, hopened⟩ :=
        hframe.examine_leave hsize false hs hreceived hheader
      ⟨s', hopened, .inl hleave⟩)
    events 0 (.start c frame) hevents (by omega) (sound_start (by omega) frame)
    (received_start c frame) ⟨rfl, rfl⟩
  rw [rtspRecv, hloop, finishRecv_eq hs', if_neg (by rw [hheader.1]; simp), htotal]
  constructor
  · rintro ⟨t, ht, -⟩ rfl
    have hret : (-1 : ℤ) = ((0 : ℕ) : ℤ) := congrArg Prod.fst (Option.some.inj ht)
    exact absurd hret (by decide)
  · intro hne
    have hpos : plaintext.length ≠ 0 := fun hzero =>
      hne (List.length_eq_zero_iff.mp hzero)
    rw [if_neg hpos]
    refine ⟨s', rfl, hfront, ?_⟩
    rw [← htotal]
    exact hs'.terminated

end MoonlightPsp.Rtsp

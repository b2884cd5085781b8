import MoonlightPsp.Rtsp.WholeResponse

/-!
# Plain responses

A response in clear is a header up to its blank line and a body.  Where the code sees
the end of the body hangs on the text that is there when the blank line is: it takes
the number behind the first `Content-Length:` in that text, with this spelling and
wherever it stands.  The response comes out whole, however it is cut, if and only if
that leads to its end every time.
-/

namespace MoonlightPsp.Rtsp

open CheckedMemory

/-! ## What a server sends -/

/-- A line of the header gives the length of the body: its name in any spelling, a
colon, and digits with blanks around them. -/
def CarriesLength (head : Text) (n : ℕ) : Prop :=
  ∃ front name blanks digits trail rest,
    head = front ++ ("\r\n".toList ++ (name ++
      ':' :: (blanks ++ (digits ++ (trail ++ ("\r\n".toList ++ rest)))))) ∧
    name.map Char.toLower = "content-length".toList ∧
    (∀ x ∈ blanks ++ trail, x = ' ' ∨ x = '\t') ∧ digits ≠ [] ∧
    (∀ x ∈ digits, x.isDigit = true) ∧ leadingNumber digits = n

/-- A header without a zero, which ends with its first blank line, and a body. -/
structure PlainMessage (c : RecvCall) (head body : List UInt8) : Prop where
  fits : (head ++ body).length + 1 ≤ c.respSize
  noZero : 0 ∉ head
  first : head.headD 0 < 0x80
  blank : strstr blankLine (toText head) = some blankLine

/-- One plain response. -/
structure PlainResponse (c : RecvCall) (head body : List UInt8) : Prop
    extends PlainMessage c head body where
  length : CarriesLength (toText head) body.length

/-! ## Where the code sees the end -/

/-- The text that `k` bytes are. -/
def textAt (whole : List UInt8) (k : ℕ) : Text :=
  toText ((whole.take k).takeWhile (· ≠ 0))

/-- The number behind the first `Content-Length:` in it, or -1. -/
def announced (whole : List UInt8) (k : ℕ) : ℤ :=
  (contentLengthOf (textAt whole k)).getD (-1)

/-- The end that it leads to. -/
def endAt (c : RecvCall) (head body : List UInt8) (k : ℕ) : ℤ :=
  c.sum (head.length + announced (head ++ body) k)

/-- However many bytes are there when the header is: the number leads to the end, or
not beyond it if that is reached; and without a number, the request is one for which
more is waited for. -/
structure EndFound (c : RecvCall) (head body : List UInt8) : Prop where
  told : ∀ k, head.length ≤ k → k < (head ++ body).length →
    0 ≤ announced (head ++ body) k → endAt c head body k = (head ++ body).length
  whole : 0 ≤ announced (head ++ body) (head ++ body).length →
    endAt c head body (head ++ body).length ≤ (head ++ body).length
  untold : ∀ k, head.length ≤ k → k < (head ++ body).length →
    announced (head ++ body) k < 0 → contains "DESCRIBE ".toList c.request = true

variable {c : RecvCall} {s t : RecvState} {whole head body : List UInt8} {k m : ℕ}
  {length : ℤ}

theorem takeWhile_nonzero {xs : List UInt8} (hxs : 0 ∉ xs) (rest : List UInt8) :
    (xs ++ rest).takeWhile (· ≠ 0) = xs ++ rest.takeWhile (· ≠ 0) :=
  List.takeWhile_append_of_pos fun x hx => by
    simp only [ne_eq, decide_not, Bool.not_eq_true', decide_eq_false_iff_not]
    rintro rfl
    exact hxs hx

theorem toText_append (xs ys : List UInt8) :
    toText (xs ++ ys) = toText xs ++ toText ys := List.map_append

/-- The zeros behind what is there end the text. -/
theorem Received.cString (hs : Sound c s) (hreceived : Received c whole k s) :
    cString s.response = some (textAt whole k) := by
  refine cString_eq hs ?_
  have hzeros :
      (List.replicate (c.respSize - k) (0 : UInt8)).takeWhile (· ≠ 0) = [] := by
    cases c.respSize - k with
    | zero => rfl
    | succ n => rfl
  rw [hreceived.response, List.takeWhile_append, hzeros, List.append_nil]
  split
  · rename_i hall
    exact ((List.takeWhile_prefix _).eq_of_length hall).symm
  · rfl

theorem Received.findHeader (hs : Received c whole k s) (text : Text) :
    Received c whole k (findHeader text s) := by
  obtain ⟨hresponse, htotal, -⟩ := findHeader_memory text s
  refine ⟨hresponse.trans hs.response, htotal.trans hs.totalRecv, ?_⟩
  rw [findHeader_stream, hs.stream]

theorem PlainMessage.blank_le (h : PlainMessage c head body) : 4 ≤ head.length := by
  have hle := (strstr_spec h.blank).2.length_le
  rwa [toText, List.length_map] at hle

/-- A part of the header is all text. -/
theorem PlainMessage.textAt_part (h : PlainMessage c head body) (hk : k < head.length) :
    textAt (head ++ body) k = toText (head.take k) := by
  have hnone : 0 ∉ head.take k := fun hmem => h.noZero (List.mem_of_mem_take hmem)
  have htext := takeWhile_nonzero hnone []
  rw [List.takeWhile_nil, List.append_nil] at htext
  rw [textAt, List.take_append_of_le_length hk.le, htext]

/-- And so is the header, with what there is behind it. -/
theorem PlainMessage.textAt_whole (h : PlainMessage c head body)
    (hk : head.length ≤ k) :
    ∃ more, textAt (head ++ body) k = toText head ++ toText more := by
  refine ⟨(body.take (k - head.length)).takeWhile (· ≠ 0), ?_⟩
  rw [textAt, List.take_append, List.take_of_length_le hk, takeWhile_nonzero h.noZero,
    toText_append]

/-- A part of the header has no end. -/
theorem PlainMessage.findHeader_part (h : PlainMessage c head body)
    (hk : k < head.length) (hs : NoHeader s) :
    findHeader (textAt (head ++ body) k) s = s := by
  have hnone : strstr blankLine (toText (head.take k)) = none := by
    have htake := strstr_take h.blank (k := k) (by rwa [toText, List.length_map])
    rwa [toText, ← List.map_take] at htake
  rw [h.textAt_part hk, findHeader, if_pos (by rw [hs.1]; decide), ← blankLine, hnone]

/-- The header is known, and this is the number. -/
def KnownHeader (head : List UInt8) (length : ℤ) (s : RecvState) : Prop :=
  s.headerEndPos = head.length ∧ s.contentLength = length

/-- The header is found as soon as it is there. -/
theorem PlainMessage.findHeader_whole (h : PlainMessage c head body)
    (hk : head.length ≤ k) (hs : NoHeader s) :
    KnownHeader head (announced (head ++ body) k)
      (findHeader (textAt (head ++ body) k) s) := by
  obtain ⟨more, htext⟩ := h.textAt_whole hk
  have hblank := strstr_append h.blank (toText more)
  have hfour := h.blank_le
  rw [announced, htext, findHeader, if_pos (by rw [hs.1]; decide), ← blankLine, hblank]
  refine ⟨?_, by rw [hs.2]⟩
  show (((toText head ++ toText more).length -
    (blankLine ++ toText more).length : ℕ) : ℤ) + 4 = head.length
  have hlen : blankLine.length = 4 := rfl
  rw [List.length_append, List.length_append, toText, toText, List.length_map,
    List.length_map]
  omega

/-! ## A look at what is there -/

/-- A header keeps its first byte apart from the mark of a frame. -/
theorem PlainMessage.examine_eq (h : PlainMessage c head body)
    (hk : k ≤ (head ++ body).length) (hs : Received c (head ++ body) k s)
    (late : Bool) : examine c late s = plainTurn c late s := by
  rw [examine]
  split
  · rename_i hmany
    have hfew := hmany.2
    rw [hs.totalRecv] at hfew
    obtain ⟨typeLen, htype⟩ := Control.getBe32_isSome (d := head ++ body) (i := 0)
      (by omega)
    obtain ⟨a, b, x, y, ha, -, hvalue⟩ := toNat_of_getBe32 htype
    have hclear : ¬(typeLen &&& 0x80000000 ≠ 0) := by
      have hfirst := h.first
      have hne := h.blank_le
      have hb := b.toNat_lt
      have hx := x.toNat_lt
      have hy := y.toNat_lt
      cases head with
      | nil => exact absurd hne (by decide)
      | cons z zs =>
          obtain rfl : z = a := Option.some.inj ha
          have hsmall : z.toNat < 128 := UInt8.lt_iff_toNat_lt.mp hfirst
          rw [isFrame_iff]
          omega
    rw [hs.getBe32 hk (by omega), htype, Option.bind_eq_bind, Option.bind_some,
      if_neg hclear]
  · rfl

/-- The loop is left with a known header. -/
def Leaves (c : RecvCall) (s : RecvState) : Prop :=
  if s.contentLength ≥ 0 then (s.totalRecv : ℤ) ≥ wholeLength c s
  else contains "DESCRIBE ".toList c.request = false

theorem plainTurn_known {text : Text} (htext : cString s.response = some text)
    (hknown : KnownHeader head length (findHeader text s)) :
    (Leaves c (findHeader text s) →
        plainTurn c false s = some (.leave (findHeader text s))) ∧
      (¬Leaves c (findHeader text s) →
        plainTurn c false s = some (.again (findHeader text s))) := by
  have htotal := (findHeader_memory text s).2.1
  rw [plainTurn, htext, Option.bind_eq_bind, Option.bind_some]
  dsimp only
  rw [if_pos (by rw [hknown.1]; omega), Leaves, htotal]
  split
  · exact ⟨fun h => if_pos h, fun h => if_neg h⟩
  · cases contains "DESCRIBE ".toList c.request with
    | false => exact ⟨fun _ => rfl, fun h => absurd rfl h⟩
    | true => exact ⟨fun h => Bool.noConfusion h, fun _ => rfl⟩

/-- The header is found now, or is known. -/
def Seen (head body : List UInt8) (k : ℕ) (length : ℤ) (s : RecvState) : Prop :=
  NoHeader s ∧ head.length ≤ k ∧ announced (head ++ body) k = length ∨
    KnownHeader head length s

/-- A look at the text, once the header is there. -/
theorem PlainMessage.look (h : PlainMessage c head body)
    (hk : k ≤ (head ++ body).length) (hs : Sound c s)
    (hreceived : Received c (head ++ body) k s) (hseen : Seen head body k length s) :
    ∃ t, Sound c t ∧ Received c (head ++ body) k t ∧ KnownHeader head length t ∧
      (Leaves c t → examine c false s = some (.leave t)) ∧
      (¬Leaves c t → examine c false s = some (.again t)) := by
  have htext := hreceived.cString hs
  have hknown : KnownHeader head length
      (Rtsp.findHeader (textAt (head ++ body) k) s) := by
    rcases hseen with ⟨hnone, hhead, rfl⟩ | hknown
    · exact h.findHeader_whole hhead hnone
    · rw [findHeader, if_neg (by rw [hknown.1]; omega)]
      exact hknown
  rw [h.examine_eq hk hreceived]
  exact ⟨_, hs.findHeader _, hreceived.findHeader _, hknown,
    plainTurn_known htext hknown⟩

/-- What a known header and its number come to. -/
theorem KnownHeader.leaves_iff (hknown : KnownHeader head length s)
    (htotal : s.totalRecv = k) :
    Leaves c s ↔ (0 ≤ length → c.sum (head.length + length) ≤ k) ∧
      (length < 0 → contains "DESCRIBE ".toList c.request = false) := by
  rw [Leaves, wholeLength, hknown.1, hknown.2, htotal]
  split
  · exact ⟨fun h => ⟨fun _ => h, fun hneg => by omega⟩, fun h => h.1 ‹_›⟩
  · exact ⟨fun h => ⟨fun hpos => by omega, fun _ => h⟩, fun h => h.2 (by omega)⟩

/-! ## The whole is returned -/

/-- More is waited for until the end. -/
def Waits (c : RecvCall) (head body : List UInt8) (length : ℤ) : Prop :=
  if 0 ≤ length then c.sum (head.length + length) = (head ++ body).length
  else contains "DESCRIBE ".toList c.request = true

/-- Of the header nothing was found, or a number that waits for the end. -/
def OnTheWay (c : RecvCall) (head body : List UInt8) (s : RecvState) : Prop :=
  NoHeader s ∨ ∃ length, KnownHeader head length s ∧ Waits c head body length

theorem EndFound.waits (hend : EndFound c head body) (hhead : head.length ≤ k)
    (hk : k < (head ++ body).length) :
    Waits c head body (announced (head ++ body) k) := by
  rw [Waits]
  split
  · exact hend.told k hhead hk ‹_›
  · exact hend.untold k hhead hk (by omega)

/-- A part of the response is waited on. -/
theorem PlainMessage.examine_part (h : PlainMessage c head body)
    (hend : EndFound c head body) (hk : k < (head ++ body).length) (hs : Sound c s)
    (hreceived : Received c (head ++ body) k s) (hway : OnTheWay c head body s) :
    ∃ t, examine c false s = some (.again t) ∧ Sound c t ∧
      Received c (head ++ body) k t ∧ OnTheWay c head body t := by
  have hseen : (k < head.length ∧ NoHeader s) ∨
      ∃ length, Seen head body k length s ∧ Waits c head body length := by
    rcases hway with hnone | ⟨length, hknown, hwaits⟩
    · by_cases hhead : k < head.length
      · exact .inl ⟨hhead, hnone⟩
      · have hle := Nat.le_of_not_lt hhead
        exact .inr ⟨_, .inl ⟨hnone, hle, rfl⟩, hend.waits hle hk⟩
    · exact .inr ⟨length, .inr hknown, hwaits⟩
  rcases hseen with ⟨hhead, hnone⟩ | ⟨length, hseen, hwaits⟩
  · rw [h.examine_eq hk.le hreceived, plainTurn, hreceived.cString hs,
      Option.bind_eq_bind, Option.bind_some]
    dsimp only
    rw [h.findHeader_part hhead hnone, if_neg (by rw [hnone.1]; decide)]
    exact ⟨s, rfl, hs, hreceived, .inl hnone⟩
  · obtain ⟨t, hsound, ht, hknown, -, hagain⟩ := h.look hk.le hs hreceived hseen
    refine ⟨t, hagain ?_, hsound, ht, .inr ⟨length, hknown, hwaits⟩⟩
    rw [hknown.leaves_iff ht.totalRecv]
    rintro ⟨hle, hno⟩
    rw [Waits] at hwaits
    split at hwaits
    · have hreached := hle ‹_›
      rw [hwaits] at hreached
      omega
    · rw [hno (by omega)] at hwaits
      cases hwaits

/-- No more is missing than the number tells. -/
def Complete (c : RecvCall) (s : RecvState) : Prop :=
  0 ≤ s.contentLength → wholeLength c s ≤ s.totalRecv

/-- All of it is enough. -/
theorem PlainMessage.examine_whole (h : PlainMessage c head body)
    (hend : EndFound c head body) (hs : Sound c s)
    (hreceived : Received c (head ++ body) (head ++ body).length s)
    (hway : OnTheWay c head body s) :
    ∃ t, (Sound c t ∧ Received c (head ++ body) (head ++ body).length t ∧
        Complete c t) ∧
      (examine c false s = some (.leave t) ∨
        examine c false s = some (.again t) ∧ t.stream = []) := by
  have hseen : ∃ length, Seen head body (head ++ body).length length s ∧
      (0 ≤ length → c.sum (head.length + length) ≤ (head ++ body).length) := by
    rcases hway with hnone | ⟨length, hknown, hwaits⟩
    · have hhead : head.length ≤ (head ++ body).length := by
        rw [List.length_append]
        omega
      exact ⟨_, .inl ⟨hnone, hhead, rfl⟩, hend.whole⟩
    · refine ⟨length, .inr hknown, fun hpos => ?_⟩
      rw [Waits, if_pos hpos] at hwaits
      exact hwaits.le
  obtain ⟨length, hseen, hle⟩ := hseen
  obtain ⟨t, hsound, ht, hknown, hleave, hagain⟩ :=
    h.look (Nat.le_refl _) hs hreceived hseen
  have hcomplete : Complete c t := by
    rw [Complete, wholeLength, hknown.1, hknown.2, ht.totalRecv]
    exact hle
  refine ⟨t, ⟨hsound, ht, hcomplete⟩, ?_⟩
  by_cases hleaves : Leaves c t
  · exact .inl (hleave hleaves)
  · refine .inr ⟨hagain hleaves, ?_⟩
    rw [ht.stream, List.drop_length]

/-- A plain response whose end is found is returned. -/
theorem PlainMessage.returns (h : PlainMessage c head body)
    (hend : EndFound c head body) {events : List RecvEvent}
    (hevents : Delivers events (head ++ body).length) :
    Returns (head ++ body) (rtspRecv c (head ++ body) events) := by
  have hfits := h.fits
  have hfour := h.blank_le
  have hlen : (head ++ body).length = head.length + body.length := List.length_append
  obtain ⟨t, hloop, ht, hreceived, hcomplete⟩ := @recvLoop_whole c (head ++ body)
    (OnTheWay c head body) (fun s => Sound c s ∧
      Received c (head ++ body) (head ++ body).length s ∧ Complete c s)
    (by omega) (fun _ _ h => h)
    (fun k s hk hs hreceived hway => h.examine_part hend hk hs hreceived hway)
    (fun s hs hreceived hway => h.examine_whole hend hs hreceived hway)
    events 0 (.start c (head ++ body)) hevents (by omega)
    (sound_start (by omega) (head ++ body)) (received_start c (head ++ body))
    (.inl ⟨rfl, rfl⟩)
  have hnot : ¬(t.headerEndPos ≥ 0 ∧ t.contentLength ≥ 0 ∧
      (t.totalRecv : ℤ) < wholeLength c t) :=
    fun ⟨_, hpos, hlt⟩ => absurd hlt (not_lt_of_ge (hcomplete hpos))
  rw [rtspRecv, hloop, finishRecv_eq ht, if_neg hnot, hreceived.totalRecv,
    if_neg (by omega)]
  refine ⟨t, rfl, ?_, ?_⟩
  · rw [hreceived.response, List.take_length, List.take_left]
  · rw [← hreceived.totalRecv]
    exact ht.terminated

/-! ## And nothing else is -/

/-- One read of a part of the stream, with its look. -/
theorem PlainMessage.read (h : PlainMessage c head body) (hs : Sound c s)
    (hreceived : Received c (head ++ body) k s) (hseen : Seen head body m length s)
    (hk : k < m) (hm : m ≤ (head ++ body).length) :
    ∃ t, Sound c t ∧ Received c (head ++ body) m t ∧ KnownHeader head length t ∧
      (Leaves c t → ∀ es, recvLoop c (.ready (m - k - 1) false :: es) s =
        finishRecv c t) ∧
      (¬Leaves c t → ∀ es, recvLoop c (.ready (m - k - 1) false :: es) s =
        recvLoop c es t) := by
  have hfits := h.fits
  have hroom : s.totalRecv < c.respSize - 1 := by
    rw [hreceived.totalRecv]
    omega
  have hstream : s.stream ≠ [] := by
    rw [hreceived.stream]
    intro hnil
    have := List.drop_eq_nil_iff.mp hnil
    omega
  have hmore := hreceived.withPiece (by omega) (m - k - 1)
  have hbytes : k + (piece c (m - k - 1) s).length = m := by
    rw [length_piece_of_fits hreceived (by omega)]
    omega
  rw [hbytes] at hmore
  obtain ⟨t, hsound, ht, hknown, hleave, hagain⟩ :=
    h.look hm (hs.withPiece (m - k - 1) hroom) hmore hseen
  have hturn := recvTurn_ready hs (m - k - 1) false hroom hstream
  refine ⟨t, hsound, ht, hknown, ?_, ?_⟩
  · intro hleaves es
    rw [recvLoop, if_pos hroom, hturn, hleave hleaves, Option.bind_eq_bind,
      Option.bind_some]
  · intro hleaves es
    rw [recvLoop, if_pos hroom, hturn, hagain hleaves, Option.bind_eq_bind,
      Option.bind_some]

/-- The first read brings the header. -/
theorem PlainMessage.firstRead (h : PlainMessage c head body) (hhead : head.length ≤ k)
    (hk : k ≤ (head ++ body).length) :
    ∃ t, Sound c t ∧ Received c (head ++ body) k t ∧
      KnownHeader head (announced (head ++ body) k) t ∧
      (Leaves c t → ∀ es, rtspRecv c (head ++ body) (.ready (k - 1) false :: es) =
        finishRecv c t) ∧
      (¬Leaves c t → ∀ es, rtspRecv c (head ++ body) (.ready (k - 1) false :: es) =
        recvLoop c es t) := by
  have hfits := h.fits
  have hfour := h.blank_le
  obtain ⟨t, hs, ht, hknown, hleave, hagain⟩ := h.read (m := k)
    (sound_start (by omega) (head ++ body)) (received_start c (head ++ body))
    (.inl ⟨⟨rfl, rfl⟩, hhead, rfl⟩) (by omega) hk
  rw [Nat.sub_zero] at hleave hagain
  exact ⟨t, hs, ht, hknown, hleave, hagain⟩

/-- Fewer bytes than the whole are not the whole. -/
theorem finishRecv_short (hs : Sound c s) (hk : s.totalRecv < whole.length) :
    ¬Returns whole (finishRecv c s) := by
  rintro ⟨t, ht, -⟩
  rw [finishRecv_eq hs] at ht
  have hret := congrArg Prod.fst (Option.some.inj ht)
  dsimp only at hret
  split at hret
  · omega
  · split at hret
    · omega
    · omega

/-- And an error is no response. -/
theorem finishRecv_incomplete (hs : Sound c s) (hknown : KnownHeader head length s)
    (hpos : 0 ≤ length) (hlt : s.totalRecv < c.sum (head.length + length)) :
    ¬Returns whole (finishRecv c s) := by
  rintro ⟨t, ht, -⟩
  have hmissing : s.headerEndPos ≥ 0 ∧ s.contentLength ≥ 0 ∧
      (s.totalRecv : ℤ) < wholeLength c s := by
    rw [wholeLength, hknown.1, hknown.2]
    exact ⟨by omega, hpos, hlt⟩
  rw [finishRecv_eq hs, if_pos hmissing] at ht
  have hret : (-1 : ℤ) = whole.length := congrArg Prod.fst (Option.some.inj ht)
  omega

theorem delivers_ready {a b : ℕ} {es : List RecvEvent} (h : Delivers es b) :
    Delivers (.ready a false :: es) (a + 1 + b) where
  calm := fun e he => (List.mem_cons.mp he).elim (fun h => h ▸ rfl) (h.calm e)
  enough := Nat.add_le_add_left h.enough (a + 1)

theorem delivers_none : Delivers [] 0 where
  calm := fun _ h => nomatch h
  enough := Nat.le_refl 0

section Necessity

variable (h : PlainMessage c head body)
  (hall : ∀ events, Delivers events (head ++ body).length →
    Returns (head ++ body) (rtspRecv c (head ++ body) events))
include h hall

/-- The loop is not left early. -/
theorem PlainMessage.not_leaves (hhead : head.length ≤ k)
    (hk : k < (head ++ body).length) {t : RecvState} (hs : Sound c t)
    (ht : Received c (head ++ body) k t)
    (hleave : Leaves c t → ∀ es,
      rtspRecv c (head ++ body) (.ready (k - 1) false :: es) = finishRecv c t) :
    ¬Leaves c t := by
  intro hleaves
  have hfour := h.blank_le
  have hevents := delivers_ready (a := k - 1)
    (delivers_ready (a := (head ++ body).length - k - 1) delivers_none)
  rw [show k - 1 + 1 + ((head ++ body).length - k - 1 + 1 + 0) =
    (head ++ body).length by omega] at hevents
  have hreturns := hall _ hevents
  rw [hleave hleaves] at hreturns
  exact finishRecv_short hs (by rw [ht.totalRecv]; omega) hreturns

/-- A number that is found early leads to the end. -/
theorem PlainMessage.told (hhead : head.length ≤ k) (hk : k < (head ++ body).length)
    (hpos : 0 ≤ announced (head ++ body) k) :
    endAt c head body k = (head ++ body).length := by
  have hfour := h.blank_le
  obtain ⟨t, hs, ht, hknown, hleave, hagain⟩ := h.firstRead hhead hk.le
  have hstays := h.not_leaves hall hhead hk hs ht hleave
  have hloop := hagain hstays
  have hlater : (k : ℤ) < endAt c head body k := by
    rw [hknown.leaves_iff ht.totalRecv] at hstays
    by_contra hle
    exact hstays ⟨fun _ => not_lt.mp hle, fun hneg => by omega⟩
  rcases lt_trichotomy (endAt c head body k) (head ++ body).length with
    hbefore | hat | hbehind
  · -- the second read stops at the wrong end
    obtain ⟨m, hm⟩ : ∃ m : ℕ, endAt c head body k = m :=
      ⟨(endAt c head body k).toNat, by omega⟩
    rw [hm] at hbefore hlater
    obtain ⟨u, hu, hmore, hknown', hleave', -⟩ :=
      h.read (m := m) hs ht (.inr hknown) (by omega) (by omega)
    have hleaves : Leaves c u :=
      (hknown'.leaves_iff hmore.totalRecv).mpr ⟨fun _ => hm.le, fun hneg => by omega⟩
    have hevents := delivers_ready (a := k - 1) (delivers_ready (a := m - k - 1)
      (delivers_ready (a := (head ++ body).length - m - 1) delivers_none))
    rw [show k - 1 + 1 + (m - k - 1 + 1 +
      ((head ++ body).length - m - 1 + 1 + 0)) = (head ++ body).length by omega]
      at hevents
    have hreturns := hall _ hevents
    rw [hloop, hleave' hleaves] at hreturns
    exact absurd hreturns (finishRecv_short hu (by rw [hmore.totalRecv]; omega))
  · exact hat
  · -- more is waited for than there is
    obtain ⟨u, hu, hmore, hknown', -, hagain'⟩ :=
      h.read hs ht (.inr hknown) hk (Nat.le_refl _)
    have hstays' : ¬Leaves c u := by
      rw [hknown'.leaves_iff hmore.totalRecv]
      rintro ⟨hle, -⟩
      exact absurd (hle hpos) (not_le_of_gt hbehind)
    have hevents := delivers_ready (a := k - 1)
      (delivers_ready (a := (head ++ body).length - k - 1) delivers_none)
    rw [show k - 1 + 1 + ((head ++ body).length - k - 1 + 1 + 0) =
      (head ++ body).length by omega] at hevents
    have hreturns := hall _ hevents
    rw [hloop, hagain' hstays', recvLoop] at hreturns
    refine absurd hreturns (finishRecv_incomplete hu hknown' hpos ?_)
    rw [hmore.totalRecv]
    exact hbehind

/-- A number that is found at the end does not lead beyond it. -/
theorem PlainMessage.told_whole
    (hpos : 0 ≤ announced (head ++ body) (head ++ body).length) :
    endAt c head body (head ++ body).length ≤ (head ++ body).length := by
  have hfour := h.blank_le
  have hhead : head.length ≤ (head ++ body).length := by
    rw [List.length_append]
    omega
  obtain ⟨t, hs, ht, hknown, -, hagain⟩ := h.firstRead hhead (Nat.le_refl _)
  by_contra hgt
  have hstays : ¬Leaves c t := by
    rw [hknown.leaves_iff ht.totalRecv]
    exact fun hle => hgt (hle.1 hpos)
  have hevents := delivers_ready (a := (head ++ body).length - 1) delivers_none
  rw [show (head ++ body).length - 1 + 1 + 0 = (head ++ body).length by omega]
    at hevents
  have hreturns := hall _ hevents
  rw [hagain hstays, recvLoop] at hreturns
  refine finishRecv_incomplete hs hknown hpos ?_ hreturns
  rw [ht.totalRecv]
  exact not_le.mp hgt

/-- Without a number, more is waited for. -/
theorem PlainMessage.untold (hhead : head.length ≤ k)
    (hk : k < (head ++ body).length) (hneg : announced (head ++ body) k < 0) :
    contains "DESCRIBE ".toList c.request = true := by
  obtain ⟨t, hs, ht, hknown, hleave, -⟩ := h.firstRead hhead hk.le
  have hstays := h.not_leaves hall hhead hk hs ht hleave
  rw [hknown.leaves_iff ht.totalRecv] at hstays
  by_contra hno
  exact hstays ⟨fun hpos => by omega, fun _ => Bool.eq_false_of_not_eq_true hno⟩

end Necessity

/-- A plain response is returned in every way of cutting it, if and only if its end is
found. -/
theorem PlainMessage.returns_iff (h : PlainMessage c head body) :
    (∀ events, Delivers events (head ++ body).length →
        Returns (head ++ body) (rtspRecv c (head ++ body) events)) ↔
      EndFound c head body :=
  ⟨fun hall => ⟨fun _ hhead hk hpos => h.told hall hhead hk hpos,
      h.told_whole hall, fun _ hhead hk hneg => h.untold hall hhead hk hneg⟩,
    fun hend _ hevents => h.returns hend hevents⟩

/-- If the first `Content-Length:` is the field that gives the length of the body, the
end is found. -/
theorem PlainMessage.endFound (h : PlainMessage c head body)
    (hsize : c.respSize ≤ rtspBufSize) {spaces digits rest : Text}
    (hafter : after "Content-Length:".toList (toText head) =
      some (spaces ++ (digits ++ ("\r\n".toList ++ rest))))
    (hspaces : ∀ x ∈ spaces, x = ' ') (hne : digits ≠ [])
    (hdigits : ∀ x ∈ digits, x.isDigit = true)
    (hvalue : leadingNumber digits = body.length) : EndFound c head body := by
  have hbuf : rtspBufSize = 4096 := rfl
  have hfits := h.fits
  have hlen : (head ++ body).length = head.length + body.length := List.length_append
  have hannounced {k : ℕ} (hk : head.length ≤ k) :
      announced (head ++ body) k = body.length := by
    obtain ⟨more, htext⟩ := h.textAt_whole hk
    have hdrop : (spaces ++ (digits ++ ("\r\n".toList ++ rest)) ++
        toText more).dropWhile (· == ' ') =
          digits ++ ("\r\n".toList ++ (rest ++ toText more)) := by
      simp only [List.append_assoc]
      exact dropSpaces_append hspaces hne hdigits _
    have hatoi : atoi32 (digits ++ ("\r\n".toList ++ (rest ++ toText more))) =
        body.length := by
      rw [atoi32, atoi_digits hne hdigits, hvalue]
      omega
    rw [announced, htext, contentLengthOf, after_append hafter, Option.map_some,
      Option.getD_some, hdrop, hatoi, if_neg (by omega)]
  have hat {k : ℕ} (hk : head.length ≤ k) :
      endAt c head body k = (head ++ body).length := by
    rw [endAt, hannounced hk, sum_of_lt c (by omega), hlen, Nat.cast_add]
  refine ⟨fun k hk _ _ => hat hk, fun _ => (hat (by omega)).le, ?_⟩
  intro k hk _ hneg
  rw [hannounced hk] at hneg
  omega

end MoonlightPsp.Rtsp

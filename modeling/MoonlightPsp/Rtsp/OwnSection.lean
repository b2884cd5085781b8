import MoonlightPsp.Rtsp.OwnLine

/-!
# The sections of the stream ids

`rtsp_parse_stream_ids` takes the last `m=video` of an SDP and the first `a=control:`
behind it, wherever that stands.  The id comes from its own section exactly where this
text is a line of such a section.
-/

namespace MoonlightPsp.Rtsp

variable {needle text rest media ctrl id : Text}

/-! ## The media blocks -/

/-- The scan for the media blocks: every `m=`, the last one of each kind kept. -/
def huntBlocks (p : Text) (mVideo mAudio : Option Text) : Option Text × Option Text :=
  match _hfound : strstr "m=".toList p with
  | none => (mVideo, mAudio)
  | some q =>
      huntBlocks (q.drop 2)
        (if "m=video".toList.isPrefixOf q then some q else mVideo)
        (if "m=audio".toList.isPrefixOf q then some q else mAudio)
termination_by p.length
decreasing_by
  obtain ⟨hfront, hsuffix⟩ := strstr_spec _hfound
  have hlong : 2 ≤ q.length := hfront.length_le
  have hshort := hsuffix.length_le
  rw [List.length_drop]
  omega

/-- The usable control attribute behind a place in an SDP. -/
def controlOf (m : Text) : Option Text :=
  (after "a=control:".toList m).bind fun ctrl =>
    if contains "\r\n".toList ctrl then
      let id := before "\r\n".toList ctrl
      if id ≠ [] ∧ id.length < 63 then some id else none
    else none

theorem lastStrstr_spec (h : lastStrstr needle text = some rest) :
    needle <+: rest ∧ rest <:+ text := by
  induction text with
  | nil => exact nomatch h
  | cons c cs ih =>
      rw [lastStrstr] at h
      split at h
      · rename_i found hfound
        obtain rfl := Option.some.inj h
        obtain ⟨hfront, hsuffix⟩ := ih hfound
        exact ⟨hfront, hsuffix.trans (List.suffix_cons c cs)⟩
      · split at h
        · rename_i hfront
          obtain rfl := Option.some.inj h
          exact ⟨List.isPrefixOf_iff_prefix.mp hfront, List.suffix_rfl⟩
        · exact nomatch h

theorem lastStrstr_cons (needle : Text) (c : Char) (cs : Text) :
    lastStrstr needle (c :: cs) = (lastStrstr needle cs).or
      (if needle.isPrefixOf (c :: cs) then some (c :: cs) else none) := by
  rw [lastStrstr]
  cases lastStrstr needle cs with
  | none => rfl
  | some rest => rfl

/-- What starts with `needle` is searched from the first `needle` on. -/
theorem lastStrstr_from (hneedle : needle <+: media) (text : Text) :
    lastStrstr media text = (strstr needle text).bind (lastStrstr media) := by
  induction text with
  | nil =>
      rw [strstr]
      split
      · rfl
      · rfl
  | cons c cs ih =>
      by_cases hfront : needle.isPrefixOf (c :: cs) = true
      · rw [strstr, if_pos hfront, Option.bind_some]
      · have hno : ¬media.isPrefixOf (c :: cs) = true := by
          intro hlong
          exact hfront (List.isPrefixOf_iff_prefix.mpr
            (hneedle.trans (List.isPrefixOf_iff_prefix.mp hlong)))
        rw [lastStrstr_cons, if_neg hno, Option.or_none, ih, strstr, if_neg hfront]

/-- Behind an `m=` the search goes on two characters further. -/
theorem lastStrstr_two (more : Text) (hrest : "m=".toList <+: rest) :
    lastStrstr ("m=".toList ++ more) rest =
      (lastStrstr ("m=".toList ++ more) (rest.drop 2)).or
        (if ("m=".toList ++ more).isPrefixOf rest then some rest else none) := by
  obtain ⟨tail, rfl⟩ := hrest
  have hno : ("m=".toList ++ more).isPrefixOf ('=' :: tail) = false := rfl
  have hcons : "m=".toList ++ tail = 'm' :: '=' :: tail := rfl
  rw [hcons, lastStrstr_cons, lastStrstr_cons, hno, if_neg Bool.false_ne_true, Option.or_none]
  rfl

/-- The last block of a kind, one `m=` at a time. -/
theorem lastStrstr_hunt (more : Text) (hfound : strstr "m=".toList text = some rest)
    (other : Option Text) :
    (lastStrstr ("m=".toList ++ more) text).or other =
      (lastStrstr ("m=".toList ++ more) (rest.drop 2)).or
        (if ("m=".toList ++ more).isPrefixOf rest then some rest else other) := by
  rw [lastStrstr_from (List.prefix_append _ more), hfound, Option.bind_some,
    lastStrstr_two more (strstr_spec hfound).1, Option.or_assoc]
  split
  · rfl
  · rfl

/-- The scan finds the last block of each kind. -/
theorem huntBlocks_eq (p : Text) (mVideo mAudio : Option Text) :
    huntBlocks p mVideo mAudio =
      ((lastStrstr "m=video".toList p).or mVideo,
        (lastStrstr "m=audio".toList p).or mAudio) := by
  have hvideo : "m=video".toList = "m=".toList ++ "video".toList := rfl
  have haudio : "m=audio".toList = "m=".toList ++ "audio".toList := rfl
  induction hlen : p.length using Nat.strongRecOn generalizing p mVideo mAudio with
  | ind len ih =>
      rw [huntBlocks, hvideo, haudio]
      split
      · rename_i hnone
        rw [lastStrstr_from (List.prefix_append _ _), lastStrstr_from (List.prefix_append _ _),
          hnone]
        rfl
      · rename_i q hfound
        obtain ⟨hfront, hsuffix⟩ := strstr_spec hfound
        have hlong : 2 ≤ q.length := hfront.length_le
        have hshort := hsuffix.length_le
        rw [ih (q.drop 2).length (by rw [List.length_drop]; omega) _ _ _ rfl,
          lastStrstr_hunt _ hfound, lastStrstr_hunt _ hfound]
        rfl

/-- The model searches the last blocks as the scan does. -/
theorem rtspParseStreamIds_eq (s : RtspState) :
    rtspParseStreamIds s =
      { s with
        videoStreamId :=
          ((huntBlocks s.sdp none none).1.bind controlOf).getD s.videoStreamId
        audioStreamId :=
          ((huntBlocks s.sdp none none).2.bind controlOf).getD s.audioStreamId } := by
  rw [huntBlocks_eq, Option.or_none, Option.or_none]
  rfl

/-! ## Sections -/

/-- `ctrl` is what follows `a=control:` in a line of a section of this kind: in front of
it, an `m=` line of the kind and no further `m=` line. -/
def ControlLine (media sdp ctrl : Text) : Prop :=
  ∃ front between, sdp = front ++ (media ++ (between ++ ("a=control:".toList ++ ctrl))) ∧
    (front = [] ∨ "\r\n".toList <:+ front) ∧ "\r\n".toList <:+ between ∧
    ¬"\r\nm=".toList <:+: between

/-- The id is the one before, or the value of a control line of its section. -/
def OwnSection (media sdp former id : Text) : Prop :=
  id = former ∨ ∃ ctrl, ControlLine media sdp ctrl ∧ id = before "\r\n".toList ctrl

/-- Both ids after the SDP was parsed. -/
def OwnSections (s : RtspState) : Prop :=
  OwnSection "m=video".toList s.sdp s.videoStreamId (rtspParseStreamIds s).videoStreamId ∧
  OwnSection "m=audio".toList s.sdp s.audioStreamId (rtspParseStreamIds s).audioStreamId

/-- A value that ends, is not empty and fits into an id. -/
def Usable (ctrl : Text) : Prop :=
  contains "\r\n".toList ctrl = true ∧ before "\r\n".toList ctrl ≠ [] ∧
    (before "\r\n".toList ctrl).length < 63

/-- The first `a=control:` behind the last block of this kind, if its value is usable,
is a line of a section of this kind. -/
def ControlInSection (media sdp : Text) : Prop :=
  ∀ m ctrl, lastStrstr media sdp = some m → after "a=control:".toList m = some ctrl →
    Usable ctrl → ControlLine media sdp ctrl

/-- Different control attributes have different values. -/
def DistinctControls (sdp : Text) : Prop :=
  ∀ ctrl other, "a=control:".toList ++ ctrl <:+ sdp → "a=control:".toList ++ other <:+ sdp →
    before "\r\n".toList ctrl = before "\r\n".toList other → ctrl = other

theorem streamIdOf_eq_some {sdp : Text} :
    streamIdOf media sdp = some id ↔
      ∃ m ctrl, lastStrstr media sdp = some m ∧ after "a=control:".toList m = some ctrl ∧
        Usable ctrl ∧ id = before "\r\n".toList ctrl := by
  rw [streamIdOf]
  simp only [Option.bind_eq_some_iff]
  constructor
  · rintro ⟨m, hm, ctrl, hctrl, hid⟩
    refine ⟨m, ctrl, hm, hctrl, ?_⟩
    split at hid
    · rename_i hends
      split at hid
      · rename_i hfits
        exact ⟨⟨hends, hfits⟩, (Option.some.inj hid).symm⟩
      · exact nomatch hid
    · exact nomatch hid
  · rintro ⟨m, ctrl, hm, hctrl, ⟨hends, hfits⟩, rfl⟩
    refine ⟨m, hm, ctrl, hctrl, ?_⟩
    rw [if_pos hends, if_pos hfits]

theorem after_suffix (h : after needle text = some rest) : needle ++ rest <:+ text := by
  rw [after, Option.map_eq_some_iff] at h
  obtain ⟨found, hfound, rfl⟩ := h
  obtain ⟨⟨tail, rfl⟩, hsuffix⟩ := strstr_spec hfound
  rwa [List.drop_left]

/-- What one id is where its control attribute stands in its section. -/
theorem ownSection_of_inSection {sdp : Text} (h : ControlInSection media sdp) (former : Text) :
    OwnSection media sdp former ((streamIdOf media sdp).getD former) := by
  cases hid : streamIdOf media sdp with
  | none => exact .inl rfl
  | some id =>
      obtain ⟨m, ctrl, hm, hctrl, husable, rfl⟩ := streamIdOf_eq_some.mp hid
      exact .inr ⟨ctrl, h m ctrl hm hctrl husable, rfl⟩

/-- Where control attributes differ, an id from its section is one whose attribute
stands there. -/
theorem inSection_of_ownSection {sdp : Text} (hdistinct : DistinctControls sdp)
    (h : OwnSection media sdp [] ((streamIdOf media sdp).getD [])) :
    ControlInSection media sdp := by
  intro m ctrl hm hctrl husable
  have hid := streamIdOf_eq_some.mpr ⟨m, ctrl, hm, hctrl, husable, rfl⟩
  rw [hid, Option.getD_some] at h
  obtain hempty | ⟨other, hline, heq⟩ := h
  · exact absurd hempty husable.2.1
  · have hthere : "a=control:".toList ++ ctrl <:+ sdp :=
      (after_suffix hctrl).trans (lastStrstr_spec hm).2
    have hother : "a=control:".toList ++ other <:+ sdp := by
      obtain ⟨front, between, hsdp, _⟩ := hline
      refine ⟨front ++ (media ++ between), ?_⟩
      rw [hsdp]
      simp only [List.append_assoc]
    rw [hdistinct ctrl other hthere hother heq]
    exact hline

/-- The session id comes from its own line exactly where its value ends there, and the
stream ids come from their own sections where the control attributes behind the last
`m=video` and the last `m=audio` stand in them.  Where all control attributes differ this
is needed, too. -/
theorem rtspFields_ownLine (response : Text) (s : RtspState) :
    (OwnLine response (rtspParseSessionId response) ↔ SessionInLine response) ∧
      (ControlInSection "m=video".toList s.sdp ∧ ControlInSection "m=audio".toList s.sdp →
        OwnSections s) ∧
      (DistinctControls s.sdp →
        ((∀ video audio, OwnSections { s with
            videoStreamId := video
            audioStreamId := audio }) ↔
          ControlInSection "m=video".toList s.sdp ∧
            ControlInSection "m=audio".toList s.sdp)) := by
  refine ⟨sessionId_ownLine_iff response, ?_⟩
  have hsuffices {t : RtspState} (hvideo : ControlInSection "m=video".toList t.sdp)
      (haudio : ControlInSection "m=audio".toList t.sdp) : OwnSections t :=
    ⟨ownSection_of_inSection hvideo _, ownSection_of_inSection haudio _⟩
  refine ⟨fun h => hsuffices h.1 h.2, ?_⟩
  intro hdistinct
  constructor
  · intro h
    obtain ⟨hvideo, haudio⟩ := h [] []
    exact ⟨inSection_of_ownSection hdistinct hvideo, inSection_of_ownSection hdistinct haudio⟩
  · intro h video audio
    exact hsuffices h.1 h.2

/-! ## Responses of a server -/

/-- A session without parameters in front of a header that has one. -/
def sessionThenTransport : Text :=
  "RTSP/1.0 200 OK\r\nSession: 42\r\nTransport: unicast;server_port=47998\r\n\r\n".toList

/-- A video section without a control attribute. -/
def sdpWithoutVideoControl : Text :=
  "m=video 0\r\nm=audio 0\r\na=control:streamid=audio/0/0\r\n".toList

/-- The only place of `needle` in a text. -/
theorem front_length {k : ℕ} (honly : ∀ n ∈ List.range (text.length + 1),
      needle.isPrefixOf (text.drop n) = true → n = k)
    {front more : Text} (h : text = front ++ (needle ++ more)) : front.length = k := by
  apply honly
  · rw [List.mem_range, h, List.length_append]
    omega
  · rw [h, List.drop_left]
    exact List.isPrefixOf_iff_prefix.mpr (List.prefix_append needle more)

/-- The parameter of the later header ends the session id, and the video id becomes that
of the audio section. -/
theorem rtspFields_later :
    ¬OwnLine sessionThenTransport (rtspParseSessionId sessionThenTransport) ∧
    ¬OwnSections { RtspState.idle with sdp := sdpWithoutVideoControl } := by
  constructor
  · intro hown
    exact absurd hown.noLineEnd.1 (by decide)
  · rintro ⟨hvideo, _⟩
    obtain hsame | ⟨ctrl, ⟨front, between, hsdp, _, _, hno⟩, _⟩ := hvideo
    · exact absurd hsame (by decide)
    · have hfront := front_length (k := 0) (by decide +kernel) hsdp
      obtain rfl := List.eq_nil_of_length_eq_zero hfront
      have hbetween : (" 0\r\nm=audio 0\r\na=control:streamid=audio/0/0\r\n".toList : Text) =
          between ++ ("a=control:".toList ++ ctrl) :=
        @List.append_cancel_left _ "m=video".toList _ _ hsdp
      have hlen := front_length (k := 15) (by decide +kernel) hbetween
      have hwhole := congrArg (List.take 15) hbetween
      rw [← hlen, List.take_left, hlen] at hwhole
      rw [← hwhole] at hno
      exact hno ⟨" 0".toList, "audio 0\r\n".toList, rfl⟩

/-- A section with its control attribute. -/
def sdpWithVideoControl : Text := "m=video 0\r\na=control:streamid=video/0/0\r\n".toList

theorem distinctControls_one : DistinctControls sdpWithVideoControl := by
  have honly {ctrl : Text} (h : "a=control:".toList ++ ctrl <:+ sdpWithVideoControl) :
      ctrl = sdpWithVideoControl.drop 21 := by
    obtain ⟨front, hsdp⟩ := h
    have hlen := front_length (k := 11) (by decide +kernel) hsdp.symm
    have hdrop := congrArg (List.drop (front.length + 10)) hsdp
    rw [← List.drop_drop, List.drop_left] at hdrop
    rw [hlen] at hdrop
    exact hdrop
  intro ctrl other hctrl hother _
  rw [honly hctrl, honly hother]

/-- The ids of a section with its control attribute. -/
theorem rtspFields_ownLine_video :
    OwnLine "Session: 42;timeout=90\r\n".toList
      (rtspParseSessionId "Session: 42;timeout=90\r\n".toList) ∧
    OwnSections { RtspState.idle with sdp := sdpWithVideoControl } ∧
    ∀ video audio, OwnSections { RtspState.idle with
      videoStreamId := video
      audioStreamId := audio
      sdp := sdpWithVideoControl } := by
  have hcontrols : ControlInSection "m=video".toList sdpWithVideoControl ∧
      ControlInSection "m=audio".toList sdpWithVideoControl := by
    constructor
    · intro m ctrl hm hctrl _
      obtain rfl : m = sdpWithVideoControl := Option.some.inj hm.symm
      obtain rfl : ctrl = "streamid=video/0/0\r\n".toList := Option.some.inj hctrl.symm
      exact ⟨[], " 0\r\n".toList, rfl, .inl rfl, ⟨" 0".toList, rfl⟩, by decide⟩
    · intro m ctrl hm
      exact nomatch hm
  obtain ⟨hsession, hsuffices, hiff⟩ := rtspFields_ownLine "Session: 42;timeout=90\r\n".toList
    { RtspState.idle with sdp := sdpWithVideoControl }
  refine ⟨?_, hsuffices hcontrols, (hiff distinctControls_one).mpr hcontrols⟩
  rw [hsession]
  intro rest hrest
  obtain rfl : rest = " 42;timeout=90\r\n".toList := Option.some.inj hrest.symm
  exact .inl (.inr (.inl rfl))

end MoonlightPsp.Rtsp

import MoonlightPsp.Config.IniText
import MoonlightPsp.Rtsp.Session
import MoonlightPsp.Upnp.Message

/-!
# Where a session is

The host answers a launch with the URL of the session.  Its authority says where the RTSP
connection goes, but a host that was selected by a public address is not left for an address
behind its router.
-/

namespace MoonlightPsp.Launch

open Rtsp Config
open MoonlightPsp.Upnp (parseIpv4Octets scanUnsigned)

/-! ## Addresses -/

/-- `parse_ipv4_literal`, the same function as in `upnp_client.c`. -/
abbrev parseIpv4Literal : Text → Option (ℕ × ℕ × ℕ × ℕ) := parseIpv4Octets

/-- `ipv4_is_private_or_unroutable`. -/
def ipv4IsPrivateOrUnroutable (ip : Text) : Bool :=
  match parseIpv4Literal ip with
  | none => false
  | some (a, b, _, _) =>
      decide (a = 0 ∨ a = 10 ∨ a = 127 ∨ (a = 169 ∧ b = 254) ∨ (a = 192 ∧ b = 168) ∨
        (a = 172 ∧ 16 ≤ b ∧ b ≤ 31) ∨ (a = 100 ∧ 64 ≤ b ∧ b ≤ 127) ∨ 224 ≤ a)

/-- `ipv4_is_public_literal`. -/
def ipv4IsPublicLiteral (ip : Text) : Bool :=
  (parseIpv4Literal ip).isSome && !ipv4IsPrivateOrUnroutable ip

/-- `rtsp_should_force_selected_host`, for the host that was selected. -/
def rtspShouldForceSelectedHost (selected sessionHost : Text) : Bool :=
  ipv4IsPublicLiteral selected && ipv4IsPrivateOrUnroutable sessionHost

/-! ## The target -/

/-- `rtsp_update_host_header`. -/
def rtspUpdateHostHeader (s : RtspState) : RtspState :=
  { s with hostHeader := "0.0.0.0".toList }

/-- `rtsp_set_default_target`. -/
def rtspSetDefaultTarget (selected : Field 16) (s : RtspState) : RtspState :=
  rtspUpdateHostHeader { s with
    connectHost := selected.text
    rtspPort := sunshineRtspPortPrimary
    targetUrl := snprintf 256 ("rtsp://".toList ++ selected.text ++ ":".toList ++
      decimal sunshineRtspPortPrimary) }

/-- The part of a URL up to its path. -/
def authorityOf (url : Text) : Text :=
  ((after "://".toList url).getD url).takeWhile (· ≠ '/')

/-- The texts around the last colon, where there is one. -/
def atLastColon : Text → Option (Text × Text)
  | [] => none
  | c :: cs =>
      match atLastColon cs with
      | some (front, back) => some (c :: front, back)
      | none => if c = ':' then some ([], cs) else none

/-- A port that is one replaces the former. -/
def takePort (text : Text) (s : RtspState) : RtspState :=
  let parsed := atoi text
  if 0 < parsed ∧ parsed ≤ 65535 then { s with rtspPort := parsed.toNat } else s

/-- The host of an authority in brackets, and its port. -/
def setBracketed (authority : Text) (s : RtspState) : RtspState :=
  if ']' ∈ authority then
    let host := authority.takeWhile (· ≠ ']') ++ [']']
    let s := if host.length < 64 then { s with connectHost := host } else s
    match authority.drop host.length with
    | ':' :: port => takePort port s
    | _ => s
  else s

/-- The host of another authority. -/
def setHost (selected : Field 16) (host : Text) (s : RtspState) : RtspState :=
  if host = [] then rtspUpdateHostHeader s
  else if rtspShouldForceSelectedHost selected.text host then
    rtspRewriteTargetAuthority { s with connectHost := selected.text } s.rtspPort
  else rtspUpdateHostHeader { s with connectHost := host.take 63 }

/-- `rtsp_set_target_from_session_url`. -/
def rtspSetTargetFromSessionUrl (selected : Field 16) (url : Text) (s : RtspState) : RtspState :=
  if url = [] then rtspSetDefaultTarget selected s
  else
    let s := { s with targetUrl := url.take 255, connectHost := selected.text }
    let authority := authorityOf url
    if authority = [] ∨ 96 ≤ authority.length then s
    else if authority.head? = some '[' then rtspUpdateHostHeader (setBracketed authority s)
    else
      match atLastColon authority with
      | some (host, port) => setHost selected host (takePort port s)
      | none => setHost selected authority s

/-- The variables when the program starts. -/
def startState : RtspState where
  clock := 0
  rtspEncrypted := false
  lastRespEncrypted := false
  encTxSeq := 0
  cseq := 1
  sessionId := []
  targetUrl := []
  connectHost := "192.168.1.100".toList
  hostHeader := "192.168.1.100".toList
  rtspPort := sunshineRtspPortPrimary
  localBindIp := []
  audioStreamId := "streamid=audio/0/0".toList
  videoStreamId := "streamid=video/0/0".toList
  controlStreamId := "streamid=control/13/0".toList
  sdp := []
  videoClientPort := 0
  audioRtspOk := false
  encrypted := []

/-! ## A session URL as hosts write it -/

/-- A URL in its parts. -/
structure SessionUrl where
  scheme : Text
  host : Text
  port : Option ℕ
  path : Text
  scheme_pos : scheme ≠ []
  scheme_short : scheme.length < 16
  scheme_plain : ':' ∉ scheme
  host_pos : host ≠ []
  host_short : host.length ≤ 63
  host_plain : ':' ∉ host ∧ '/' ∉ host ∧ host.head? ≠ some '['
  port_valid : ∀ p ∈ port, 0 < p ∧ p ≤ 65535
  path_slash : path = [] ∨ path.head? = some '/'

namespace SessionUrl

variable (u : SessionUrl)

/-- The port as it stands in the URL. -/
def portText : Text := (u.port.map fun p => ':' :: decimal p).getD []

/-- The URL. -/
def text : Text := u.scheme ++ "://".toList ++ (u.host ++ u.portText ++ u.path)

end SessionUrl

variable {selected : Field 16} {authority back : Text} {s : RtspState}

theorem strstr_of_not_mem {front : Text} (h : ':' ∉ front) (rest : Text) :
    strstr "://".toList (front ++ "://".toList ++ rest) = some ("://".toList ++ rest) := by
  induction front with
  | nil =>
      have hfront : "://".toList.isPrefixOf (':' :: '/' :: '/' :: rest) = true := rfl
      change strstr "://".toList (':' :: '/' :: '/' :: rest) = _
      rw [strstr, if_pos hfront]
      rfl
  | cons c front ih =>
      rw [List.mem_cons, not_or] at h
      have hfront : ¬"://".toList.isPrefixOf (c :: (front ++ "://".toList ++ rest)) = true := by
        change ¬(':' == c && _) = true
        simp [h.1]
      rw [List.cons_append, List.cons_append, strstr, if_neg hfront, ih h.2]

namespace SessionUrl

variable (u : SessionUrl)

theorem slash_not_mem_portText : '/' ∉ u.portText := by
  rw [portText]
  cases u.port with
  | none => exact List.not_mem_nil
  | some p =>
      intro hmem
      obtain hmem | hmem := List.mem_cons.mp hmem
      · exact absurd hmem (by decide)
      · exact absurd (isDigit_of_mem_decimal hmem) (by decide)

theorem after_text : after "://".toList u.text = some (u.host ++ u.portText ++ u.path) := by
  rw [after, text, strstr_of_not_mem u.scheme_plain]
  rfl

theorem before_text : before "://".toList u.text = u.scheme := by
  rw [before, text, strstr_of_not_mem u.scheme_plain]
  have hlength : (u.scheme ++ "://".toList ++ (u.host ++ u.portText ++ u.path)).length -
      ("://".toList ++ (u.host ++ u.portText ++ u.path)).length = u.scheme.length := by
    simp only [List.length_append]
    omega
  change List.take _ _ = _
  rw [hlength, List.append_assoc, List.take_left]

theorem authorityOf_text : authorityOf u.text = u.host ++ u.portText := by
  have hplain : ∀ c ∈ u.host ++ u.portText, decide (c ≠ '/') = true := by
    intro c hc
    rw [decide_eq_true_eq]
    rintro rfl
    obtain hc | hc := List.mem_append.mp hc
    · exact u.host_plain.2.1 hc
    · exact u.slash_not_mem_portText hc
  rw [authorityOf, after_text, Option.getD_some, List.takeWhile_append_of_pos hplain]
  obtain hpath | hpath := u.path_slash
  · rw [hpath, List.takeWhile_nil, List.append_nil]
  · cases hrest : u.path with
    | nil => rw [List.takeWhile_nil, List.append_nil]
    | cons c rest =>
        rw [hrest, List.head?_cons, Option.some.injEq] at hpath
        rw [hpath, List.takeWhile_cons_of_neg (by decide), List.append_nil]

theorem strstr_path :
    (strstr "/".toList (u.host ++ u.portText ++ u.path)).getD [] = u.path := by
  have hskip : ∀ front : Text, '/' ∉ front →
      strstr "/".toList (front ++ u.path) = strstr "/".toList u.path := by
    intro front hfront
    induction front with
    | nil => rfl
    | cons c front ih =>
        rw [List.mem_cons, not_or] at hfront
        have hne : ¬"/".toList.isPrefixOf (c :: (front ++ u.path)) = true := by
          change ¬('/' == c && _) = true
          simp [hfront.1]
        rw [List.cons_append, strstr, if_neg hne, ih hfront.2]
  rw [hskip]
  · obtain hpath | hpath := u.path_slash
    · rw [hpath]
      rfl
    · cases hrest : u.path with
      | nil => rfl
      | cons c rest =>
          rw [hrest, List.head?_cons, Option.some.injEq] at hpath
          rw [hpath]
          rfl
  · rw [List.mem_append, not_or]
    exact ⟨u.host_plain.2.1, u.slash_not_mem_portText⟩

end SessionUrl

theorem atLastColon_of_not_mem (h : ':' ∉ authority) : atLastColon authority = none := by
  induction authority with
  | nil => rfl
  | cons c cs ih =>
      rw [List.mem_cons, not_or] at h
      rw [atLastColon, ih h.2]
      exact if_neg (Ne.symm h.1)

theorem atLastColon_split (hback : ':' ∉ back) (front : Text) :
    atLastColon (front ++ ':' :: back) = some (front, back) := by
  induction front with
  | nil =>
      rw [List.nil_append, atLastColon, atLastColon_of_not_mem hback]
      exact if_pos rfl
  | cons c front ih => rw [List.cons_append, atLastColon, ih]

theorem takePort_decimal {p : ℕ} (hpos : 0 < p) (hle : p ≤ 65535) (s : RtspState) :
    takePort (decimal p) s = { s with rtspPort := p } := by
  rw [takePort, atoi_decimal]
  exact if_pos ⟨Int.natCast_pos.mpr hpos, by omega⟩

theorem rewrite_eq (u : SessionUrl) (htarget : s.targetUrl = u.text) (hhost : s.connectHost ≠ [])
    {p : ℕ} (hp : 0 < p) :
    rtspRewriteTargetAuthority s p =
      { s with
        targetUrl := snprintf 256 (u.scheme ++ "://".toList ++
          (s.connectHost ++ ":".toList ++ decimal p) ++ u.path.take 159)
        hostHeader := "0.0.0.0".toList } := by
  have hscheme : ¬(u.scheme = [] ∨ u.scheme.length ≥ 16) := by
    rw [not_or]
    exact ⟨u.scheme_pos, Nat.not_le_of_lt u.scheme_short⟩
  rw [rtspRewriteTargetAuthority, if_neg (not_or.mpr ⟨hhost, Nat.ne_of_gt hp⟩), htarget]
  simp only [u.after_text, u.before_text, u.strstr_path, if_neg hscheme]

/-- The target of the host and the port that a URL names. -/
theorem setHost_eq (u : SessionUrl) (htarget : s.targetUrl = u.text) (hport : 0 < s.rtspPort) :
    setHost selected u.host s =
      if rtspShouldForceSelectedHost selected.text u.host then
        { s with
          connectHost := selected.text
          targetUrl := snprintf 256 (u.scheme ++ "://".toList ++
            (selected.text ++ ":".toList ++ decimal s.rtspPort) ++ u.path.take 159)
          hostHeader := "0.0.0.0".toList }
      else { s with connectHost := u.host, hostHeader := "0.0.0.0".toList } := by
  rw [setHost, if_neg u.host_pos]
  split
  · rename_i hforce
    have hne : selected.text ≠ [] := by
      intro hnil
      rw [rtspShouldForceSelectedHost, hnil, Bool.and_eq_true] at hforce
      exact absurd hforce.1 (by decide)
    exact rewrite_eq (s := { s with connectHost := selected.text }) u htarget hne hport
  · rw [List.take_of_length_le u.host_short]
    rfl

/-- The session URL of a host is followed, unless it leads from a public address to one that
cannot be reached from outside; then the host is kept, and the port and the path are those of the
URL. -/
theorem session_url_followed (selected : Field 16) (u : SessionUrl) (hlength : u.text.length ≤ 255)
    (s : RtspState) (hport : 0 < s.rtspPort) :
    rtspSetTargetFromSessionUrl selected u.text s =
      let port := u.port.getD s.rtspPort
      if rtspShouldForceSelectedHost selected.text u.host then
        { s with
          connectHost := selected.text
          rtspPort := port
          targetUrl := snprintf 256 (u.scheme ++ "://".toList ++
            (selected.text ++ ":".toList ++ decimal port) ++ u.path.take 159)
          hostHeader := "0.0.0.0".toList }
      else
        { s with
          connectHost := u.host
          rtspPort := port
          targetUrl := u.text
          hostHeader := "0.0.0.0".toList } := by
  have hne : u.text ≠ [] := by
    intro hnil
    rw [SessionUrl.text, List.append_eq_nil_iff, List.append_eq_nil_iff] at hnil
    exact u.scheme_pos hnil.1.1
  have hhead : ¬(u.host ++ u.portText).head? = some '[' := by
    cases hhost : u.host with
    | nil => exact absurd hhost u.host_pos
    | cons c cs =>
        have hplain := u.host_plain.2.2
        rw [hhost] at hplain
        exact hplain
  have htext : u.text.take 255 = u.text := List.take_of_length_le hlength
  have hlong : ¬(u.host ++ u.portText = [] ∨ 96 ≤ (u.host ++ u.portText).length) := by
    rw [not_or, List.append_eq_nil_iff, not_and_or]
    refine ⟨Or.inl u.host_pos, ?_⟩
    have hshort := u.host_short
    rw [List.length_append, SessionUrl.portText]
    cases hport : u.port with
    | none =>
        change ¬96 ≤ u.host.length + 0
        omega
    | some p =>
        have hle : (decimal p).length ≤ 5 :=
          length_decimal_le (by decide) (Nat.lt_of_le_of_lt (u.port_valid p hport).2 (by decide))
        change ¬96 ≤ u.host.length + ((decimal p).length + 1)
        omega
  rw [rtspSetTargetFromSessionUrl, if_neg hne]
  simp only [u.authorityOf_text, if_neg hlong, if_neg hhead, htext]
  cases hsome : u.port with
  | none =>
      have hnone : u.portText = [] := by rw [SessionUrl.portText, hsome]; rfl
      rw [hnone, List.append_nil, atLastColon_of_not_mem u.host_plain.1]
      exact setHost_eq u rfl hport
  | some p =>
      obtain ⟨hpos, hle⟩ := u.port_valid p hsome
      have hcolon : u.portText = ':' :: decimal p := by rw [SessionUrl.portText, hsome]; rfl
      have hdigits : ':' ∉ decimal p := fun hc => absurd (isDigit_of_mem_decimal hc) (by decide)
      rw [hcolon, atLastColon_split hdigits]
      dsimp only
      rw [takePort_decimal hpos hle]
      exact setHost_eq u rfl hpos

/-- A host on the network at home, with its port. -/
def homeUrl : SessionUrl where
  scheme := "rtsp".toList
  host := "10.0.0.5".toList
  port := some 48010
  path := []
  scheme_pos := by decide
  scheme_short := by decide
  scheme_plain := by decide
  host_pos := by decide
  host_short := by decide
  host_plain := by decide
  port_valid := by decide
  path_slash := Or.inl rfl

theorem session_url_followed_home :
    (rtspSetTargetFromSessionUrl (.strncpy 16 "93.184.216.34".toList) homeUrl.text
      startState).targetUrl = "rtsp://93.184.216.34:48010".toList := by
  have hlength : homeUrl.text.length ≤ 255 := by decide +kernel
  rw [session_url_followed _ homeUrl hlength startState (by decide)]
  decide +kernel

end MoonlightPsp.Launch

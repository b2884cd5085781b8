import Mathlib.Data.List.Infix
import Mathlib.Data.List.TakeWhile
import MoonlightPsp.Rtsp.Nonces

/-!
# The line of the session id

`rtsp_parse_session_id` looks for a semicolon in the whole rest of the response.  The id
comes from its own line exactly where no later line holds what ends it.
-/

namespace MoonlightPsp.Rtsp

variable {needle text rest line front : Text}

/-! ## Text in front of an occurrence -/

theorem before_nil (needle : Text) : before needle [] = [] := by
  rw [before]
  split
  · rfl
  · exact List.take_nil

theorem before_cons (needle : Text) (c : Char) (cs : Text) :
    before needle (c :: cs) =
      if needle.isPrefixOf (c :: cs) then [] else c :: before needle cs := by
  by_cases hfront : needle.isPrefixOf (c :: cs) = true
  · rw [before, strstr, if_pos hfront, if_pos hfront]
    simp only [Nat.sub_self, List.take_zero]
  · rw [before, strstr, if_neg hfront, if_neg hfront, before]
    cases hfound : strstr needle cs with
    | none => rfl
    | some rest =>
        have hlen := (strstr_spec hfound).2.length_le
        simp only [List.length_cons]
        rw [Nat.succ_sub hlen, List.take_succ_cons]

theorem before_append_strstr (h : strstr needle text = some rest) :
    before needle text ++ rest = text := by
  obtain ⟨skipped, rfl⟩ := (strstr_spec h).2
  rw [before, h]
  simp only [List.length_append, Nat.add_sub_cancel, List.take_left]

/-- The text in front of a semicolon. -/
theorem before_semicolon (text : Text) :
    before ";".toList text = text.takeWhile (· ≠ ';') := by
  induction text with
  | nil => rfl
  | cons c cs ih =>
      rw [before_cons]
      by_cases hc : c = ';'
      · rw [hc, List.takeWhile_cons_of_neg (by decide)]
        rfl
      · rw [if_neg, List.takeWhile_cons_of_pos (by simpa using hc), ih]
        intro hfront
        exact hc (List.cons_prefix_cons.mp (List.isPrefixOf_iff_prefix.mp hfront)).1.symm

theorem contains_semicolon : contains ";".toList text = true ↔ ';' ∈ text := by
  induction text with
  | nil => decide
  | cons c cs ih =>
      rw [contains, strstr]
      by_cases hc : c = ';'
      · rw [hc]
        exact ⟨fun _ => List.mem_cons_self, fun _ => rfl⟩
      · rw [if_neg, ← contains, ih, List.mem_cons, or_iff_right (Ne.symm hc)]
        intro hfront
        exact hc (List.cons_prefix_cons.mp (List.isPrefixOf_iff_prefix.mp hfront)).1.symm

/-- The end of a line is searched behind a text that holds none of it. -/
theorem before_lineEnd_append (h : '\r' ∉ front) (rest : Text) :
    before "\r\n".toList (front ++ rest) = front ++ before "\r\n".toList rest := by
  induction front with
  | nil => rfl
  | cons c cs ih =>
      rw [List.mem_cons, not_or] at h
      rw [List.cons_append, before_cons, if_neg, ih h.2, List.cons_append]
      intro hfront
      exact h.1 (List.cons_prefix_cons.mp (List.isPrefixOf_iff_prefix.mp hfront)).1

theorem before_lineEnd_of_front (h : "\r\n".toList <+: rest) :
    before "\r\n".toList rest = [] := by
  cases rest with
  | nil => rfl
  | cons c cs => rw [before_cons, if_pos (List.isPrefixOf_iff_prefix.mpr h)]

/-! ## The session id -/

/-- What follows `Session:` and its spaces. -/
def sessionLine (rest : Text) : Text := rest.dropWhile (· == ' ')

/-- The value of a session line: its text up to a semicolon or the end of the line. -/
def sessionValue (rest : Text) : Text :=
  (before "\r\n".toList (sessionLine rest)).takeWhile (· ≠ ';')

/-- The session id is empty or the value of its line, and has no line ends. -/
structure OwnLine (response id : Text) : Prop where
  value : id = [] ∨ ∃ rest, after "Session:".toList response = some rest ∧
    id = sessionValue rest
  noLineEnd : '\r' ∉ id ∧ '\n' ∉ id

/-- The characters that end a value. -/
def endsValue (c : Char) : Bool := c == ';' || c == '\r' || c == '\n'

/-- The first of these characters is a semicolon, or a line end that no semicolon
follows anywhere, or there is none. -/
def EndsInLine (line : Text) : Prop :=
  let stop := line.dropWhile fun c => !endsValue c
  stop = [] ∨ stop.head? = some ';' ∨ ("\r\n".toList <+: stop ∧ ';' ∉ stop)

/-- The text up to the first semicolon, or, where there is none, up to the first line
end. -/
def upToEnd (line : Text) : Text :=
  if ';' ∈ line then before ";".toList line else before "\r\n".toList line

/-- The responses whose session id is right. -/
def SessionInLine (response : Text) : Prop :=
  ∀ rest, after "Session:".toList response = some rest →
    EndsInLine (sessionLine rest) ∨ 64 ≤ (upToEnd (sessionLine rest)).length

theorem rtspParseSessionId_eq {response : Text}
    (h : after "Session:".toList response = some rest) :
    rtspParseSessionId response =
      if 64 ≤ (upToEnd (sessionLine rest)).length then []
      else upToEnd (sessionLine rest) := by
  rw [rtspParseSessionId, h]
  simp only [contains_semicolon]
  rfl

/-- A text splits at the first character that ends a value. -/
theorem split_value (line : Text) :
    ∃ value stop, line = value ++ stop ∧ (∀ c ∈ value, endsValue c = false) ∧
      stop = line.dropWhile (fun c => !endsValue c) := by
  refine ⟨line.takeWhile fun c => !endsValue c, _, List.takeWhile_append_dropWhile.symm,
    ?_, rfl⟩
  intro c hc
  simpa using List.mem_takeWhile_imp hc

theorem notMem_of_endsValue (h : ∀ c ∈ front, endsValue c = false) :
    ';' ∉ front ∧ '\r' ∉ front ∧ '\n' ∉ front := by
  refine ⟨fun hmem => ?_, fun hmem => ?_, fun hmem => ?_⟩
  · exact absurd (h _ hmem) (by decide)
  · exact absurd (h _ hmem) (by decide)
  · exact absurd (h _ hmem) (by decide)

theorem endsValue_of_notMem (h : ';' ∉ front ∧ '\r' ∉ front ∧ '\n' ∉ front) :
    ∀ c ∈ front, endsValue c = false := by
  intro c hc
  by_contra hends
  simp only [endsValue, Bool.not_eq_false, Bool.or_eq_true, beq_iff_eq] at hends
  obtain (rfl | rfl) | rfl := hends
  · exact h.1 hc
  · exact h.2.1 hc
  · exact h.2.2 hc

/-- A text without such characters in front is passed over. -/
theorem dropWhile_value (h : ∀ c ∈ front, endsValue c = false) (rest : Text) :
    (front ++ rest).dropWhile (fun c => !endsValue c) =
      rest.dropWhile fun c => !endsValue c := by
  apply List.dropWhile_append_of_pos
  intro c hc
  rw [h c hc]
  rfl

theorem takeWhile_semicolon (h : ';' ∉ front) (rest : Text) :
    (front ++ rest).takeWhile (· ≠ ';') = front ++ rest.takeWhile (· ≠ ';') := by
  apply List.takeWhile_append_of_pos
  intro c hc
  rw [decide_eq_true_eq]
  rintro rfl
  exact h hc

theorem takeWhile_eq_self (h : ';' ∉ front) : front.takeWhile (· ≠ ';') = front := by
  have hall := takeWhile_semicolon h []
  rwa [List.append_nil, List.takeWhile_nil, List.append_nil] at hall

/-- Where a semicolon follows, the value is right when it comes before every line end. -/
theorem upToEnd_semicolon (hmem : ';' ∈ line) :
    EndsInLine line ↔ '\r' ∉ upToEnd line ∧ '\n' ∉ upToEnd line := by
  rw [upToEnd, if_pos hmem, before_semicolon]
  constructor
  · intro hends
    obtain ⟨value, stop, rfl, hvalue, hstop⟩ := split_value line
    obtain ⟨hsemicolon, hcr, hlf⟩ := notMem_of_endsValue hvalue
    rw [EndsInLine, ← hstop] at hends
    obtain rfl | hhead | ⟨_, hno⟩ := hends
    · rw [List.append_nil] at hmem
      exact absurd hmem hsemicolon
    · obtain ⟨rest, rfl⟩ := List.head?_eq_some_iff.mp hhead
      rw [takeWhile_semicolon hsemicolon, List.takeWhile_cons_of_neg (by decide),
        List.append_nil]
      exact ⟨hcr, hlf⟩
    · obtain hmem | hmem := List.mem_append.mp hmem
      · exact absurd hmem hsemicolon
      · exact absurd hmem hno
  · rintro ⟨hcr, hlf⟩
    have hsplit : line.takeWhile (· ≠ ';') ++ line.dropWhile (· ≠ ';') = line :=
      List.takeWhile_append_dropWhile
    have hsemicolon : ';' ∉ line.takeWhile (· ≠ ';') := by
      intro hin
      simpa using List.mem_takeWhile_imp hin
    have hvalue := endsValue_of_notMem ⟨hsemicolon, hcr, hlf⟩
    have hrest : ∃ rest, line.dropWhile (· ≠ ';') = ';' :: rest := by
      cases hdrop : line.dropWhile (· ≠ ';') with
      | nil =>
          rw [hdrop, List.append_nil] at hsplit
          exact absurd (Eq.mp (congrArg (';' ∈ ·) hsplit.symm) hmem) hsemicolon
      | cons c rest =>
          have hc := List.head?_dropWhile_not (· ≠ ';') line
          rw [hdrop] at hc
          simp only [List.head?_cons, decide_not, Bool.not_eq_false', decide_eq_true_eq] at hc
          exact ⟨rest, by rw [hc]⟩
    obtain ⟨rest, hrest⟩ := hrest
    have hstop : line.dropWhile (fun c => !endsValue c) = ';' :: rest := by
      rw [← hsplit, dropWhile_value hvalue, hrest]
      rfl
    rw [EndsInLine, hstop]
    exact .inr (.inl rfl)

/-- Where no semicolon follows, a line end must not be a single carriage return or line
feed. -/
theorem upToEnd_lineEnd (hmem : ';' ∉ line) :
    EndsInLine line ↔ '\r' ∉ upToEnd line ∧ '\n' ∉ upToEnd line := by
  rw [upToEnd, if_neg hmem]
  constructor
  · intro hends
    obtain ⟨value, stop, rfl, hvalue, hstop⟩ := split_value line
    obtain ⟨hsemicolon, hcr, hlf⟩ := notMem_of_endsValue hvalue
    rw [EndsInLine, ← hstop] at hends
    rw [before_lineEnd_append hcr]
    obtain rfl | hhead | ⟨hfront, _⟩ := hends
    · rw [before_nil, List.append_nil]
      exact ⟨hcr, hlf⟩
    · obtain ⟨rest, rfl⟩ := List.head?_eq_some_iff.mp hhead
      exact absurd (List.mem_append_right value List.mem_cons_self) hmem
    · rw [before_lineEnd_of_front hfront, List.append_nil]
      exact ⟨hcr, hlf⟩
  · rintro ⟨hcr, hlf⟩
    cases hfound : strstr "\r\n".toList line with
    | none =>
        have hwhole : before "\r\n".toList line = line := by
          rw [before, hfound]
        rw [hwhole] at hcr hlf
        have hvalue := endsValue_of_notMem ⟨hmem, hcr, hlf⟩
        have hstop := dropWhile_value hvalue []
        rw [List.append_nil, List.dropWhile_nil] at hstop
        exact .inl hstop
    | some rest =>
        have hsplit := before_append_strstr hfound
        obtain ⟨hfront, hsuffix⟩ := strstr_spec hfound
        have hvalue := endsValue_of_notMem
          ⟨fun hin => hmem (hsplit ▸ List.mem_append_left rest hin), hcr, hlf⟩
        obtain ⟨more, rfl⟩ := hfront
        have hstop := dropWhile_value hvalue ("\r\n".toList ++ more)
        rw [hsplit] at hstop
        refine .inr (.inr ⟨?_, ?_⟩)
        · rw [hstop]
          exact ⟨more, rfl⟩
        · intro hin
          exact hmem ((List.dropWhile_suffix _).subset hin)

/-- A value that ends in its line is the value of its line. -/
theorem sessionValue_eq (hends : EndsInLine (sessionLine rest)) :
    upToEnd (sessionLine rest) = sessionValue rest := by
  rw [sessionValue, upToEnd]
  by_cases hmem : ';' ∈ sessionLine rest
  · rw [if_pos hmem, before_semicolon]
    obtain ⟨value, stop, heq, hvalue, hstop⟩ := split_value (sessionLine rest)
    obtain ⟨hsemicolon, hcr, _⟩ := notMem_of_endsValue hvalue
    rw [EndsInLine, ← hstop] at hends
    rw [heq] at hmem ⊢
    obtain rfl | hhead | ⟨_, hno⟩ := hends
    · rw [List.append_nil] at hmem
      exact absurd hmem hsemicolon
    · obtain ⟨more, rfl⟩ := List.head?_eq_some_iff.mp hhead
      have hother : "\r\n".toList.isPrefixOf (';' :: more) = false := rfl
      rw [before_lineEnd_append hcr, takeWhile_semicolon hsemicolon,
        takeWhile_semicolon hsemicolon, before_cons, hother, if_neg Bool.false_ne_true,
        List.takeWhile_cons_of_neg (by decide), List.takeWhile_cons_of_neg (by decide)]
    · obtain hmem | hmem := List.mem_append.mp hmem
      · exact absurd hmem hsemicolon
      · exact absurd hmem hno
  · rw [if_neg hmem, takeWhile_eq_self]
    intro hin
    rw [before] at hin
    split at hin
    · exact hmem hin
    · exact hmem (List.mem_of_mem_take hin)

/-- The session id is right exactly where its value ends in its line or is not
taken. -/
theorem sessionId_ownLine_iff (response : Text) :
    OwnLine response (rtspParseSessionId response) ↔ SessionInLine response := by
  cases hfield : after "Session:".toList response with
  | none =>
      have hempty : rtspParseSessionId response = [] := by
        rw [rtspParseSessionId, hfield]
      rw [hempty, SessionInLine, hfield]
      exact ⟨fun _ => nofun, fun _ => ⟨.inl rfl, nofun, nofun⟩⟩
  | some rest =>
      have hiff : EndsInLine (sessionLine rest) ↔
          '\r' ∉ upToEnd (sessionLine rest) ∧ '\n' ∉ upToEnd (sessionLine rest) := by
        by_cases hmem : ';' ∈ sessionLine rest
        · exact upToEnd_semicolon hmem
        · exact upToEnd_lineEnd hmem
      rw [rtspParseSessionId_eq hfield, SessionInLine, hfield]
      by_cases hlong : 64 ≤ (upToEnd (sessionLine rest)).length
      · rw [if_pos hlong]
        refine ⟨fun _ others hothers => ?_, fun _ => ⟨.inl rfl, nofun, nofun⟩⟩
        obtain rfl := Option.some.inj hothers
        exact .inr hlong
      · rw [if_neg hlong]
        constructor
        · intro hown others hothers
          obtain rfl := Option.some.inj hothers
          exact .inl (hiff.mpr hown.noLineEnd)
        · intro hends
          have hin := (hends rest rfl).resolve_right hlong
          exact ⟨.inr ⟨rest, hfield, sessionValue_eq hin⟩, hiff.mp hin⟩

end MoonlightPsp.Rtsp

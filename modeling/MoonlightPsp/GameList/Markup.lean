import MoonlightPsp.GameList.InsideDocument

/-!
# Documents as texts and tags

A document is a list of pieces, texts without a bracket and tags.  The search for a
tag in the rendered document is the search for that piece.
-/

namespace MoonlightPsp.GameList

open Rtsp

/-- A piece of a document. -/
inductive Token where
  | text (content : Text)
  | tag (name : Text)
  deriving DecidableEq

theorem text_ne_tag (content name : Text) : Token.text content ≠ Token.tag name :=
  Token.noConfusion

theorem tag_ne_text (name content : Text) : Token.tag name ≠ Token.text content :=
  Token.noConfusion

/-- The characters of a piece. -/
def Token.render : Token → Text
  | text content => content
  | tag name => '<' :: (name ++ ['>'])

/-- The characters of a document. -/
def render (tokens : List Token) : Text := tokens.flatMap Token.render

/-- Brackets stand around the names of tags only, and there is no terminator. -/
def Token.Valid : Token → Prop
  | text content => '<' ∉ content ∧ nul ∉ content
  | tag name => '<' ∉ name ∧ '>' ∉ name ∧ nul ∉ name

/-- The document from the first tag of a name on. -/
def findTag (name : Text) : List Token → Option (List Token)
  | [] => none
  | token :: tokens => if token = .tag name then some (token :: tokens) else findTag name tokens

@[simp] theorem render_nil : render [] = [] := rfl

@[simp] theorem render_cons (token : Token) (tokens : List Token) :
    render (token :: tokens) = token.render ++ render tokens := rfl

@[simp] theorem render_append (front back : List Token) :
    render (front ++ back) = render front ++ render back := List.flatMap_append

variable {name : Text} {tokens front back found : List Token}

theorem nul_notMem_render (h : ∀ token ∈ tokens, token.Valid) : nul ∉ render tokens := by
  rw [render, List.mem_flatMap]
  rintro ⟨token, htoken, hmem⟩
  have hvalid := h token htoken
  cases token with
  | text content => exact hvalid.2 hmem
  | tag name =>
      have hopen : ¬nul = '<' := by decide
      have hclose : ¬nul = '>' := by decide
      simp only [Token.render, List.mem_cons, List.mem_append, List.not_mem_nil, or_false] at hmem
      obtain hmem | hmem | hmem := hmem
      · exact hopen hmem
      · exact hvalid.2.2 hmem
      · exact hclose hmem

/-! ## Searching for a tag -/

/-- Where its first character does not occur, a needle is not found. -/
theorem strstr_skip {c : Char} {needle content : Text} (h : c ∉ content) (rest : Text) :
    strstr (c :: needle) (content ++ rest) = strstr (c :: needle) rest := by
  induction content with
  | nil => rfl
  | cons b content ih =>
      rw [List.mem_cons, not_or] at h
      rw [List.cons_append, strstr, List.isPrefixOf_cons_cons, beq_eq_false_iff_ne.mpr h.1,
        Bool.false_and, if_neg Bool.false_ne_true, ih h.2]

/-- Two names that end at the same bracket are the same. -/
theorem name_isPrefixOf {other rest : Text} (hname : '>' ∉ name) (hother : '>' ∉ other) :
    (name ++ ['>']).isPrefixOf (other ++ '>' :: rest) = true ↔ name = other := by
  induction name generalizing other with
  | nil =>
      cases other with
      | nil => simp
      | cons b other =>
          rw [List.mem_cons, not_or] at hother
          simp [hother.1]
  | cons c name ih =>
      rw [List.mem_cons, not_or] at hname
      cases other with
      | nil =>
          have hc : ¬c = '>' := fun hc => hname.1 hc.symm
          simp [hc]
      | cons b other =>
          rw [List.mem_cons, not_or] at hother
          rw [List.cons_append, List.cons_append, List.isPrefixOf_cons_cons,
            Bool.and_eq_true, ih hname.2 hother.2, beq_iff_eq, List.cons.injEq]

/-- A tag is found where it stands in the document. -/
theorem strstr_tag (hname : '<' ∉ name ∧ '>' ∉ name)
    (hvalid : ∀ token ∈ tokens, token.Valid) :
    strstr (Token.tag name).render (render tokens) = (findTag name tokens).map render := by
  induction tokens with
  | nil => rfl
  | cons token tokens ih =>
      rw [List.forall_mem_cons] at hvalid
      have hrest := ih hvalid.2
      rw [render_cons, findTag]
      rw [Token.render] at hrest ⊢
      cases token with
      | text content =>
          rw [Token.render, strstr_skip hvalid.1.1, hrest, if_neg (text_ne_tag _ _)]
      | tag other =>
          have hhere : ('<' :: (name ++ ['>'])).isPrefixOf
              ((Token.tag other).render ++ render tokens) = true ↔ name = other := by
            rw [Token.render, List.cons_append, List.isPrefixOf_cons_cons, beq_self_eq_true,
              Bool.true_and, List.append_assoc, List.singleton_append]
            exact name_isPrefixOf hname.2 hvalid.1.2.1
          by_cases heq : name = other
          · subst other
            rw [if_pos rfl, Option.map_some, render_cons]
            have hprefix := hhere.mpr rfl
            rw [Token.render, List.cons_append] at hprefix ⊢
            rw [strstr, if_pos hprefix]
          · have hno : ¬Token.tag other = Token.tag name := fun htag =>
              heq (Token.tag.inj htag).symm
            have hprefix : ¬_ := fun hp => heq (hhere.mp hp)
            have hskip : '<' ∉ other ++ ['>'] := by
              rw [List.mem_append, not_or]
              exact ⟨hvalid.1.1, by decide⟩
            rw [if_neg hno, ← hrest]
            rw [Token.render, List.cons_append] at hprefix ⊢
            rw [strstr, if_neg hprefix, strstr_skip hskip]

theorem findTag_append (hfront : .tag name ∉ front) :
    findTag name (front ++ back) = findTag name back := by
  induction front with
  | nil => rfl
  | cons token front ih =>
      rw [List.mem_cons, not_or] at hfront
      rw [List.cons_append, findTag, if_neg fun heq => hfront.1 heq.symm, ih hfront.2]

theorem findTag_eq_none : findTag name tokens = none ↔ .tag name ∉ tokens := by
  induction tokens with
  | nil => simp [findTag]
  | cons token tokens ih =>
      rw [findTag, List.mem_cons, not_or]
      by_cases heq : token = .tag name
      · simp [heq]
      · rw [if_neg heq, ih]
        exact ⟨fun h => ⟨fun hsym => heq hsym.symm, h⟩, fun h => h.2⟩

theorem findTag_suffix (h : findTag name tokens = some found) :
    found <:+ tokens ∧ ∃ rest, found = .tag name :: rest := by
  induction tokens with
  | nil => exact nomatch h
  | cons token tokens ih =>
      rw [findTag] at h
      split at h
      · rename_i htoken
        obtain rfl := Option.some.inj h
        exact ⟨List.suffix_rfl, tokens, by rw [htoken]⟩
      · obtain ⟨hsuffix, hrest⟩ := ih h
        exact ⟨hsuffix.trans (List.suffix_cons token tokens), hrest⟩

end MoonlightPsp.GameList

import MoonlightPsp.Config.IniText
import MoonlightPsp.GameList.Markup

/-!
# Entries of an application list

An entry is a list of fields in any order.  The parser copies it, cut to its entry
buffer, and finds the id and the title wherever they stand among the fields.
-/

namespace MoonlightPsp.GameList

open Rtsp

/-- `<name>content</name>` and the text in front of it. -/
structure EntryField where
  gap : Text
  name : Text
  content : Text

def EntryField.tokens (f : EntryField) : List Token :=
  [.text f.gap, .tag f.name, .text f.content, .tag ('/' :: f.name)]

/-- An entry under one of the four spellings of its tag, and the text in front of
it. -/
structure AppEntry where
  lead : Text
  spelling : Fin spellings.length
  fields : List EntryField
  gap : Text

/-- The content of the first field of a name. -/
def lookup (name : Text) (fields : List EntryField) : Option Text :=
  (fields.find? fun f => f.name = name).map EntryField.content

namespace AppEntry

/-- The tag of the entry. -/
def name (e : AppEntry) : Text := spellings.get e.spelling

def tokens (e : AppEntry) : List Token :=
  .tag e.name :: (e.fields.flatMap EntryField.tokens ++
    [.text e.gap, .tag ('/' :: e.name)])

/-- The number in the `ID` field. -/
def id (e : AppEntry) : ℤ := atoi ((lookup "ID".toList e.fields).getD [])

/-- The text of the `AppTitle` field, else of the `Title` field, without the blanks in
front and cut to the title's buffer. -/
def title (e : AppEntry) : Text :=
  match (lookup "AppTitle".toList e.fields).or (lookup "Title".toList e.fields) with
  | some content => (content.dropWhile isSpace).take 127
  | none => gameTitle e.id none

end AppEntry

/-- The fields that the parser reads. -/
def readNames : List Text := ["ID".toList, "AppTitle".toList, "Title".toList]

/-- The tags that stand around entries. -/
def reservedNames : List Text :=
  spellings ++ ["applist".toList, "games".toList, "root".toList]

/-- A text without brackets. -/
def Plain (content : Text) : Prop := '<' ∉ content ∧ nul ∉ content

structure EntryField.Valid (f : EntryField) : Prop where
  gap : Plain f.gap
  content : Plain f.content
  name : Plain f.name ∧ '>' ∉ f.name
  opening : f.name.head? ≠ some '/'
  notReserved : f.name ∉ reservedNames

/-- A well-formed entry: its id is a 32-bit number, and the fields that the parser
reads stand within the first 4095 characters. -/
structure AppEntry.WellFormed (e : AppEntry) : Prop where
  lead : Plain e.lead
  fields : ∀ f ∈ e.fields, f.Valid
  gap : Plain e.gap
  hasId : ∃ n : ℤ, -2147483648 ≤ n ∧ n ≤ 2147483647 ∧
    lookup "ID".toList e.fields = some (Config.signed n)
  nearTop : ∃ front back, e.fields = front ++ back ∧
    (∀ f ∈ back, f.name ∉ readNames) ∧
    (render (.tag e.name :: front.flatMap EntryField.tokens)).length ≤ 4095

/-! ## The content of a field -/

variable {tag content more : Text} {front back : List Token}

theorem strstr_none_of_append {needle text : Text}
    (h : strstr needle (text ++ more) = none) : strstr needle text = none := by
  cases hfound : strstr needle text with
  | none => rfl
  | some rest =>
      rw [strstr_append hfound] at h
      exact nomatch h

/-- Blanks are skipped up to the next bracket. -/
theorem dropWhile_space (content rest : Text) :
    (content ++ '<' :: rest).dropWhile isSpace = content.dropWhile isSpace ++ '<' :: rest := by
  induction content with
  | nil => rfl
  | cons c content ih =>
      by_cases hc : isSpace c = true
      · rw [List.cons_append, List.dropWhile_cons_of_pos hc, List.dropWhile_cons_of_pos hc, ih]
      · rw [List.cons_append, List.dropWhile_cons_of_neg hc, List.dropWhile_cons_of_neg hc,
          List.cons_append]

/-- The first field of a name is read, whatever follows it. -/
theorem contentOf_field (htag : '<' ∉ tag ∧ '>' ∉ tag) (hfront : .tag tag ∉ front)
    (hvalid : ∀ token ∈ front ++ .tag tag :: .text content :: .tag ('/' :: tag) :: back,
      token.Valid)
    (hopen : openTag tag = (Token.tag tag).render)
    (hclose : closeTag tag = (Token.tag ('/' :: tag)).render) (bufferSize : ℕ)
    (more : Text) :
    contentOf tag bufferSize
        (render (front ++ .tag tag :: .text content :: .tag ('/' :: tag) :: back) ++ more) =
      some ((content.dropWhile isSpace).take (bufferSize - 1)) := by
  have hslash : '<' ∉ '/' :: tag ∧ '>' ∉ '/' :: tag := by
    simp [htag.1, htag.2]
  have hstart : strstr (openTag tag)
      (render (front ++ .tag tag :: .text content :: .tag ('/' :: tag) :: back) ++ more) =
      some (render (.tag tag :: .text content :: .tag ('/' :: tag) :: back) ++ more) := by
    apply strstr_append
    rw [hopen, strstr_tag htag hvalid, findTag_append hfront, findTag, if_pos rfl]
    rfl
  -- what follows the closing tag
  have hskipped : ((render (.tag tag :: .text content :: .tag ('/' :: tag) :: back) ++
        more).drop (openTag tag).length).dropWhile isSpace =
      render (.text (content.dropWhile isSpace) :: .tag ('/' :: tag) :: back) ++ more := by
    rw [hopen, render_cons, List.append_assoc, List.drop_left]
    simp only [render_cons, Token.render, List.cons_append, List.append_assoc]
    rw [dropWhile_space]
  have hrest : ∀ token ∈ Token.text (content.dropWhile isSpace) :: .tag ('/' :: tag) :: back,
      token.Valid := by
    simp only [List.forall_mem_append, List.forall_mem_cons] at hvalid
    obtain ⟨_, _, hcontent, hend, hback⟩ := hvalid
    simp only [List.forall_mem_cons]
    refine ⟨⟨fun hmem => hcontent.1 ?_, fun hmem => hcontent.2 ?_⟩, hend, hback⟩
    · exact (List.dropWhile_suffix _).subset hmem
    · exact (List.dropWhile_suffix _).subset hmem
  have hstop : strstr (closeTag tag)
      (render (.text (content.dropWhile isSpace) :: .tag ('/' :: tag) :: back) ++ more) =
      some (render (.tag ('/' :: tag) :: back) ++ more) := by
    apply strstr_append
    rw [hclose, strstr_tag hslash hrest, findTag, if_neg (text_ne_tag _ _), findTag, if_pos rfl]
    rfl
  rw [contentOf, hstart, Option.bind_some]
  simp only
  rw [hskipped, hstop, Option.map_some, copyBetween, render_cons, Token.render,
    List.append_assoc, List.length_append, Nat.add_sub_cancel]
  congr 1
  rw [Nat.min_comm, ← List.take_take, List.take_left]

/-! ## The fields of an entry -/

variable {e : AppEntry} {f : EntryField} {name : Text}

theorem EntryField.Valid.tokens (h : f.Valid) : ∀ token ∈ f.tokens, token.Valid := by
  have hslash : '<' ∉ '/' :: f.name ∧ '>' ∉ '/' :: f.name ∧ nul ∉ '/' :: f.name := by
    have hnul : ¬nul = '/' := by decide
    simp [h.name.1.1, h.name.2, h.name.1.2, hnul]
  simp only [EntryField.tokens, List.forall_mem_cons]
  exact ⟨h.gap, ⟨h.name.1.1, h.name.2, h.name.1.2⟩, h.content, hslash, nofun⟩

theorem spellings_plain : ∀ name ∈ spellings,
    ('<' ∉ name ∧ '>' ∉ name ∧ nul ∉ name) ∧
      '<' ∉ '/' :: name ∧ '>' ∉ '/' :: name ∧ nul ∉ '/' :: name := by
  decide

theorem AppEntry.name_mem (e : AppEntry) : e.name ∈ spellings :=
  List.get_mem spellings e.spelling

theorem AppEntry.WellFormed.tokens (h : e.WellFormed) : ∀ token ∈ e.tokens, token.Valid := by
  simp only [AppEntry.tokens, List.forall_mem_cons, List.forall_mem_append]
  obtain ⟨hopen, hclose⟩ := spellings_plain e.name e.name_mem
  refine ⟨hopen, ?_, h.gap, hclose, nofun⟩
  intro token htoken
  obtain ⟨f, hf, htoken⟩ := List.mem_flatMap.mp htoken
  exact (h.fields f hf).tokens token htoken

/-- The tags of fields that are not called so. -/
theorem tag_notMem_fields {fields : List EntryField}
    (hname : name.head? ≠ some '/') (h : ∀ f ∈ fields, f.name ≠ name) :
    .tag name ∉ fields.flatMap EntryField.tokens := by
  intro hmem
  obtain ⟨f, hf, hmem⟩ := List.mem_flatMap.mp hmem
  simp only [EntryField.tokens, List.mem_cons, List.not_mem_nil, or_false] at hmem
  obtain hmem | hmem | hmem | hmem := hmem
  · exact absurd hmem (tag_ne_text _ _)
  · exact h f hf (Token.tag.inj hmem).symm
  · exact absurd hmem (tag_ne_text _ _)
  · rw [Token.tag.inj hmem] at hname
    exact hname rfl

theorem lookup_append_of_notMem {front back : List EntryField}
    (h : ∀ f ∈ back, f.name ≠ name) : lookup name (front ++ back) = lookup name front := by
  have hback : back.find? (fun f => f.name = name) = none := by
    rw [List.find?_eq_none]
    intro f hf
    simpa using h f hf
  rw [lookup, List.find?_append, hback, Option.or_none, lookup]

/-- The names that the parser reads, as it writes their tags. -/
theorem readNames_spec : ∀ name ∈ readNames,
    ('<' ∉ name ∧ '>' ∉ name) ∧ name.head? ≠ some '/' ∧
      (∀ s ∈ spellings, s ≠ name ∧ '/' :: s ≠ name) ∧
      openTag name = (Token.tag name).render ∧
      closeTag name = (Token.tag ('/' :: name)).render := by
  decide

/-- The parser reads the content of the first field of the name. -/
theorem contentOf_entry (h : e.WellFormed) (hname : name ∈ readNames) :
    contentOf name 512 ((render e.tokens).take 4095) =
      (lookup name e.fields).map fun content => (content.dropWhile isSpace).take 511 := by
  obtain ⟨hchars, hslash, hspelling, hopen, hclose⟩ := readNames_spec name hname
  obtain ⟨hspellingOpen, hspellingClose⟩ := hspelling e.name e.name_mem
  obtain ⟨front, back, hfields, hback, hlen⟩ := h.nearTop
  have hnotBack : ∀ f ∈ back, f.name ≠ name := by
    intro f hf heq
    exact hback f hf (heq ▸ hname)
  -- the copy holds all of `front` and some of what follows
  let top : List Token := .tag e.name :: front.flatMap EntryField.tokens
  let bottom : List Token := back.flatMap EntryField.tokens ++
    [.text e.gap, .tag ('/' :: e.name)]
  have htokens : e.tokens = top ++ bottom := by
    simp only [AppEntry.tokens, hfields, top, bottom, List.flatMap_append, List.cons_append,
      List.append_assoc]
  have hcopy : (render e.tokens).take 4095 =
      render top ++ (render bottom).take (4095 - (render top).length) := by
    rw [htokens, render_append, List.take_append, List.take_of_length_le hlen]
  have hvalidTop : ∀ token ∈ top, token.Valid := by
    intro token htoken
    exact h.tokens token (htokens ▸ List.mem_append_left bottom htoken)
  rw [hfields, lookup_append_of_notMem hnotBack, hcopy]
  cases hfind : front.find? (fun f => f.name = name) with
  | none =>
      have hnotFront : ∀ f ∈ front, f.name ≠ name := by
        intro f hf
        simpa using List.find?_eq_none.mp hfind f hf
      have hnone : strstr (openTag name) (render e.tokens) = none := by
        rw [hopen, strstr_tag hchars h.tokens, Option.map_eq_none_iff, findTag_eq_none,
          AppEntry.tokens]
        simp only [List.mem_cons, List.mem_append, List.not_mem_nil, or_false, not_or]
        refine ⟨fun heq => hspellingOpen (Token.tag.inj heq).symm, ?_, tag_ne_text _ _,
          fun heq => hspellingClose (Token.tag.inj heq).symm⟩
        apply tag_notMem_fields hslash
        intro f hf
        rw [hfields, List.mem_append] at hf
        exact hf.elim (hnotFront f) (hnotBack f)
      have hnoneCopy : strstr (openTag name) (render top ++
          (render bottom).take (4095 - (render top).length)) = none := by
        rw [← hcopy]
        rw [← List.take_append_drop 4095 (render e.tokens)] at hnone
        exact strstr_none_of_append hnone
      rw [contentOf, hnoneCopy, lookup, hfind]
      rfl
  | some f =>
      obtain ⟨hf, before, behind, hsplit, hbefore⟩ := List.find?_eq_some_iff_append.mp hfind
      obtain rfl : f.name = name := by simpa using hf
      have htop : top = (.tag e.name :: (before.flatMap EntryField.tokens ++ [.text f.gap])) ++
          .tag f.name :: .text f.content :: .tag ('/' :: f.name) ::
            behind.flatMap EntryField.tokens := by
        simp only [top, hsplit, List.flatMap_append, List.flatMap_cons, EntryField.tokens,
          List.cons_append, List.append_assoc, List.nil_append]
      have hfirst : .tag f.name ∉
          Token.tag e.name :: (before.flatMap EntryField.tokens ++ [.text f.gap]) := by
        simp only [List.mem_cons, List.mem_append, List.not_mem_nil, or_false, not_or]
        refine ⟨fun heq => hspellingOpen (Token.tag.inj heq).symm, ?_, tag_ne_text _ _⟩
        apply tag_notMem_fields hslash
        intro g hg
        simpa using hbefore g hg
      rw [htop] at hvalidTop ⊢
      rw [contentOf_field hchars hfirst hvalidTop hopen hclose, lookup, hfind]
      rfl

/-- No blank stands in front of a number. -/
theorem dropWhile_signed (n : ℤ) :
    (Config.signed n).dropWhile isSpace = Config.signed n := by
  cases hn : Config.signed n with
  | nil => rfl
  | cons c rest =>
      have hspace : isSpace c = false := by
        obtain hdigit | rfl := Config.mem_signed (hn ▸ List.mem_cons_self)
        · exact (isSpace_of_isDigit hdigit).1
        · rfl
      exact List.dropWhile_cons_of_neg (by simp [hspace])

/-- The entry becomes a game with its own id and title. -/
theorem parseGameEntry_entry (h : e.WellFormed) :
    ∃ boxArtUrl, parseGameEntry ((render e.tokens).take 4095 ++ [nul]) =
      some (some ⟨e.id, e.title, boxArtUrl⟩) := by
  have hnul : nul ∉ (render e.tokens).take 4095 := fun hmem =>
    nul_notMem_render h.tokens (List.mem_of_mem_take hmem)
  obtain ⟨fallback, boxArtUrl, hparse⟩ := parseGameEntry_cstr [] hnul
  obtain ⟨n, hlow, hhigh, hid⟩ := h.hasId
  have hidContent : contentOf "ID".toList 512 ((render e.tokens).take 4095) =
      some (Config.signed n) := by
    have hlen := Config.length_signed_le hlow hhigh
    rw [contentOf_entry h (by decide), hid, Option.map_some, dropWhile_signed,
      List.take_of_length_le (by omega)]
  have hidValue : e.id = n := by
    rw [AppEntry.id, hid, Option.getD_some, Config.atoi_signed]
  have htitle : gameTitle n (titleContent ((render e.tokens).take 4095)) = e.title := by
    rw [titleContent, contentOf_entry h (by decide), contentOf_entry h (by decide),
      ← Option.map_or, AppEntry.title, hidValue]
    cases (lookup "AppTitle".toList e.fields).or (lookup "Title".toList e.fields) with
    | none => rfl
    | some content => exact List.take_take
  refine ⟨boxArtUrl, ?_⟩
  rw [cstr] at hparse
  rw [hparse, hidContent, Option.some_or, Option.map_some, Config.atoi_signed, htitle,
    hidValue]

end MoonlightPsp.GameList

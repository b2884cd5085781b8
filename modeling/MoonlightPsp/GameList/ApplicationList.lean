import Mathlib.Data.List.Nodup
import MoonlightPsp.GameList.Entry

/-!
# Application lists

What the parser makes of a well-formed list: it takes the entries in their order, but
for those in front of an entry whose tag it looks for earlier.
-/

namespace MoonlightPsp.GameList

open Rtsp

/-- A list of entries between what stands in front of and behind them. -/
structure AppList where
  prolog : List Token
  entries : List AppEntry
  epilog : List Token

/-- The pieces of entries and the texts in front of them. -/
def entryTokens (es : List AppEntry) : List Token :=
  es.flatMap fun e => .text e.lead :: e.tokens

def AppList.tokens (d : AppList) : List Token :=
  d.prolog ++ (entryTokens d.entries ++ d.epilog)

/-- The document. -/
def AppList.document (d : AppList) : Text := render d.tokens

/-- The tags of the root element. -/
def rootNames : List Text := ["applist".toList, "games".toList, "root".toList]

/-- A well-formed list: well-formed entries, no further entry tags, the root element
opened in front of the entries, if at all, and closed behind them, if at all. -/
structure AppList.WellFormed (d : AppList) : Prop where
  prolog : ∀ token ∈ d.prolog, token.Valid
  entries : ∀ e ∈ d.entries, e.WellFormed
  epilog : ∀ token ∈ d.epilog, token.Valid
  prologEntries : ∀ name ∈ spellings, .tag name ∉ d.prolog
  prologRoot : ∀ name ∈ rootNames, .tag ('/' :: name) ∉ d.prolog
  epilogEntries : ∀ name ∈ spellings, .tag name ∉ d.epilog ∧ .tag ('/' :: name) ∉ d.epilog
  epilogRoot : ∀ name ∈ rootNames, .tag name ∉ d.epilog

/-- The entries that the parser comes to: not those in front of an entry whose
spelling is tried before theirs. -/
def visited : List AppEntry → List AppEntry
  | [] => []
  | e :: es =>
      if es.any fun later => later.spelling < e.spelling then visited es else e :: visited es

/-- What a game shows of its entry. -/
def GameInfo.shown (game : GameInfo) : ℤ × Text := (game.id, game.title)

def AppEntry.shown (e : AppEntry) : ℤ × Text := (e.id, e.title)

/-! ## Tags among entries -/

variable {e : AppEntry} {es : List AppEntry} {name : Text} {front back tokens : List Token}

theorem entryTokens_cons (e : AppEntry) (es : List AppEntry) :
    entryTokens (e :: es) = .text e.lead :: (e.tokens ++ entryTokens es) := rfl

theorem entryTokens_valid (h : ∀ e ∈ es, e.WellFormed) :
    ∀ token ∈ entryTokens es, token.Valid := by
  intro token htoken
  obtain ⟨e, he, htoken⟩ := List.mem_flatMap.mp htoken
  obtain rfl | htoken := List.mem_cons.mp htoken
  · exact (h e he).lead
  · exact (h e he).tokens token htoken

theorem tag_mem_tokens (h : .tag name ∈ e.tokens) :
    name = e.name ∨ name = '/' :: e.name ∨
      ∃ f ∈ e.fields, name = f.name ∨ name = '/' :: f.name := by
  simp only [AppEntry.tokens, List.mem_cons, List.mem_append, List.mem_flatMap,
    EntryField.tokens, List.not_mem_nil, or_false] at h
  obtain h | ⟨f, hf, h | h | h | h⟩ | h | h := h
  · exact .inl (Token.tag.inj h)
  · exact absurd h (tag_ne_text _ _)
  · exact .inr (.inr ⟨f, hf, .inl (Token.tag.inj h)⟩)
  · exact absurd h (tag_ne_text _ _)
  · exact .inr (.inr ⟨f, hf, .inr (Token.tag.inj h)⟩)
  · exact absurd h (tag_ne_text _ _)
  · exact .inr (.inl (Token.tag.inj h))

theorem reservedNames_head : ∀ name ∈ reservedNames, name.head? ≠ some '/' := by
  decide

theorem AppEntry.name_reserved (e : AppEntry) : e.name ∈ reservedNames :=
  List.mem_append_left _ e.name_mem

/-- The only reserved tag that opens within an entry is its own. -/
theorem eq_name_of_open (h : e.WellFormed) (hreserved : name ∈ reservedNames)
    (hmem : .tag name ∈ e.tokens) : name = e.name := by
  obtain heq | rfl | ⟨f, hf, rfl | rfl⟩ := tag_mem_tokens hmem
  · exact heq
  · exact absurd rfl (reservedNames_head _ hreserved)
  · exact absurd hreserved (h.fields f hf).notReserved
  · exact absurd rfl (reservedNames_head _ hreserved)

/-- The only reserved tag that closes within an entry is its own. -/
theorem eq_name_of_close (h : e.WellFormed) (hreserved : name ∈ reservedNames)
    (hmem : .tag ('/' :: name) ∈ e.tokens) : name = e.name := by
  obtain heq | heq | ⟨f, hf, heq | heq⟩ := tag_mem_tokens hmem
  · exact absurd (heq ▸ rfl : e.name.head? = some '/')
      (reservedNames_head _ e.name_reserved)
  · exact (List.cons.inj heq).2
  · exact absurd (heq ▸ rfl : f.name.head? = some '/') (h.fields f hf).opening
  · exact absurd ((List.cons.inj heq).2 ▸ hreserved) (h.fields f hf).notReserved

/-- No field closes with a reserved tag. -/
theorem closing_notMem_fields (h : e.WellFormed) (hreserved : name ∈ reservedNames) :
    .tag ('/' :: name) ∉ e.fields.flatMap EntryField.tokens := by
  intro hmem
  obtain ⟨f, hf, hmem⟩ := List.mem_flatMap.mp hmem
  simp only [EntryField.tokens, List.mem_cons, List.not_mem_nil, or_false] at hmem
  obtain hmem | hmem | hmem | hmem := hmem
  · exact absurd hmem (tag_ne_text _ _)
  · exact (h.fields f hf).opening (Token.tag.inj hmem ▸ rfl)
  · exact absurd hmem (tag_ne_text _ _)
  · exact (h.fields f hf).notReserved ((List.cons.inj (Token.tag.inj hmem)).2 ▸ hreserved)

theorem mem_entryTokens (h : .tag name ∈ entryTokens es) :
    ∃ e ∈ es, .tag name ∈ e.tokens := by
  obtain ⟨e, he, hmem⟩ := List.mem_flatMap.mp h
  obtain hmem | hmem := List.mem_cons.mp hmem
  · exact nomatch hmem
  · exact ⟨e, he, hmem⟩

/-- The name of a spelling tells its number. -/
theorem spellings_get_inj {i j : Fin spellings.length} (h : spellings.get i = spellings.get j) : i = j := by
  have hnodup : spellings.Nodup := by decide
  exact List.nodup_iff_injective_get.mp hnodup h

/-! ## Searches for entries -/

theorem entryTag_open (name : Text) :
    entryTag "<".toList name = (Token.tag name).render := rfl

theorem entryTag_close (name : Text) :
    entryTag "</".toList name = (Token.tag ('/' :: name)).render := rfl

variable {inside : Text → Bool} {text other start : Text} {before more : List Text}

/-- The names that are not found are passed over. -/
theorem startOf_skip
    (h : ∀ name ∈ before, strstr (entryTag "<".toList name) text = none) :
    startOf inside text (before ++ more) = startOf inside text more := by
  induction before with
  | nil => rfl
  | cons name before ih =>
      rw [List.forall_mem_cons] at h
      rw [List.cons_append, startOf, h.1, ih h.2]

theorem startOf_cons (h : strstr (entryTag "<".toList name) text = some start)
    (hinside : inside start = true) : startOf inside text (name :: more) = some start := by
  rw [startOf, h]
  simp only [hinside, if_true]

/-- Texts in which the names tried first are found alike give the same start, when
one of these names is found. -/
theorem startOf_congr
    (h : ∀ name ∈ before, strstr (entryTag "<".toList name) text =
      strstr (entryTag "<".toList name) other)
    (hfound : ∃ name ∈ before, ∃ start,
      strstr (entryTag "<".toList name) other = some start ∧ inside start = true) :
    startOf inside text (before ++ more) = startOf inside other (before ++ more) := by
  induction before with
  | nil =>
      obtain ⟨name, hname, _⟩ := hfound
      exact absurd hname List.not_mem_nil
  | cons name before ih =>
      rw [List.forall_mem_cons] at h
      rw [List.cons_append, startOf, startOf, h.1]
      obtain ⟨found, hmem, start, hstart, hinside⟩ := hfound
      obtain rfl | hmem := List.mem_cons.mp hmem
      · rw [hstart]
        simp only [hinside, if_true]
      · rw [ih h.2 ⟨found, hmem, start, hstart, hinside⟩]

theorem endOf_skip
    (h : ∀ name ∈ before, strstr (entryTag "</".toList name) text = none) :
    endOf text (before ++ more) = endOf text more := by
  induction before with
  | nil => rfl
  | cons name before ih =>
      rw [List.forall_mem_cons] at h
      rw [List.cons_append, endOf, h.1, ih h.2]

/-! ## The next entry of a list -/

theorem findTag_append_left {found : List Token} (h : findTag name front = some found) :
    findTag name (front ++ back) = some (found ++ back) := by
  induction front with
  | nil => exact nomatch h
  | cons token front ih =>
      rw [findTag] at h
      rw [List.cons_append, findTag]
      split at h
      · rename_i htoken
        obtain rfl := Option.some.inj h
        rw [if_pos htoken]
        rfl
      · rename_i htoken
        rw [if_neg htoken, ih h]

theorem findTag_of_mem (h : .tag name ∈ front) :
    ∃ rest, findTag name front = some (.tag name :: rest) := by
  cases hfind : findTag name front with
  | none => exact absurd h (findTag_eq_none.mp hfind)
  | some found =>
      obtain ⟨_, rest, rfl⟩ := findTag_suffix hfind
      exact ⟨rest, rfl⟩

/-- The spellings that are tried before that of an entry. -/
def earlier (e : AppEntry) : List Text := spellings.take e.spelling

/-- Those that are tried after it. -/
def later (e : AppEntry) : List Text := spellings.drop (e.spelling + 1)

theorem spellings_split (e : AppEntry) : spellings = earlier e ++ e.name :: later e := by
  rw [earlier, later, AppEntry.name, List.get_eq_getElem, List.getElem_cons_drop,
    List.take_append_drop]

theorem mem_earlier :
    name ∈ earlier e ↔ ∃ i : Fin spellings.length, i < e.spelling ∧ spellings.get i = name := by
  rw [earlier, List.mem_take_iff_getElem]
  constructor
  · rintro ⟨i, hi, rfl⟩
    exact ⟨⟨i, by omega⟩, Fin.lt_def.mpr (by simp only; omega), rfl⟩
  · rintro ⟨i, hi, rfl⟩
    have hlt := Fin.lt_def.mp hi
    exact ⟨i.val, by omega, rfl⟩

/-- What stands behind an entry. -/
structure Tail (es : List AppEntry) (epilog : List Token) : Prop where
  entries : ∀ e ∈ es, e.WellFormed
  valid : ∀ token ∈ epilog, token.Valid
  noTags : ∀ name ∈ spellings, .tag name ∉ epilog ∧ .tag ('/' :: name) ∉ epilog

namespace Tail

variable {epilog : List Token}

theorem tokens_valid (h : Tail es epilog) : ∀ token ∈ entryTokens es ++ epilog, token.Valid := by
  rw [List.forall_mem_append]
  exact ⟨entryTokens_valid h.entries, h.valid⟩

/-- An opening tag behind an entry is that of a later entry. -/
theorem open_mem (h : Tail es epilog) (hname : name ∈ spellings)
    (hmem : .tag name ∈ entryTokens es ++ epilog) : ∃ e ∈ es, e.name = name := by
  obtain hmem | hmem := List.mem_append.mp hmem
  · obtain ⟨e, he, hmem⟩ := mem_entryTokens hmem
    exact ⟨e, he, (eq_name_of_open (h.entries e he) (List.mem_append_left _ hname) hmem).symm⟩
  · exact absurd hmem (h.noTags name hname).1

theorem close_mem (h : Tail es epilog) (hname : name ∈ spellings)
    (hmem : .tag ('/' :: name) ∈ entryTokens es ++ epilog) : ∃ e ∈ es, e.name = name := by
  obtain hmem | hmem := List.mem_append.mp hmem
  · obtain ⟨e, he, hmem⟩ := mem_entryTokens hmem
    exact ⟨e, he, (eq_name_of_close (h.entries e he) (List.mem_append_left _ hname) hmem).symm⟩
  · exact absurd hmem (h.noTags name hname).2

end Tail

/-- What stands in front of the next entry. -/
structure Lead (front : List Token) : Prop where
  valid : ∀ token ∈ front, token.Valid
  noTags : ∀ name ∈ spellings, .tag name ∉ front

variable {epilog : List Token}

/-- What starts at a tag goes further than what stands behind the entries. -/
theorem length_lt_render {found rest ending : List Token} (h : found = .tag name :: rest)
    (hend : ending <:+ epilog) :
    (render ending).length < (render (found ++ epilog)).length := by
  obtain ⟨skipped, rfl⟩ := hend
  rw [h, render_append, render_append, render_cons, Token.render]
  simp only [List.length_append, List.length_cons]
  omega

/-- An entry with a later one that is looked for first is passed over. -/
theorem startOf_passed {ending : List Token} (hend : ending <:+ epilog)
    (hinside : ∀ t, (render ending).length < t.length → inside t = true)
    (hfront : Lead front) (hentry : e.WellFormed) (htail : Tail es epilog)
    (hlater : ∃ x ∈ es, x.spelling < e.spelling) :
    startOf inside (render (front ++ (entryTokens (e :: es) ++ epilog))) spellings =
      startOf inside (render (entryTokens es ++ epilog)) spellings := by
  have hnames := spellings_plain
  have hearlier : ∀ name ∈ earlier e, name ∈ spellings := fun name hname =>
    List.mem_of_mem_take hname
  have htokens : ∀ token ∈ front ++ (entryTokens (e :: es) ++ epilog), token.Valid := by
    rw [entryTokens_cons]
    simp only [List.forall_mem_append, List.cons_append, List.forall_mem_cons]
    exact ⟨hfront.valid, hentry.lead, ⟨hentry.tokens, entryTokens_valid htail.entries⟩,
      htail.valid⟩
  rw [spellings_split e]
  apply startOf_congr
  · intro name hname
    obtain ⟨⟨hopen, hclose, _⟩, _⟩ := hnames name (hearlier name hname)
    have hother : name ≠ e.name := by
      obtain ⟨i, hi, rfl⟩ := mem_earlier.mp hname
      intro heq
      exact absurd (spellings_get_inj heq) (Fin.ne_of_lt hi)
    have hentryTag : .tag name ∉ e.tokens := fun hmem =>
      hother (eq_name_of_open hentry (List.mem_append_left _ (hearlier name hname)) hmem)
    rw [entryTag_open, strstr_tag ⟨hopen, hclose⟩ htokens,
      strstr_tag ⟨hopen, hclose⟩ htail.tokens_valid, findTag_append
        (hfront.noTags name (hearlier name hname)), entryTokens_cons, List.cons_append, findTag,
      if_neg (text_ne_tag _ _), List.append_assoc, findTag_append hentryTag]
  · obtain ⟨x, hx, hlt⟩ := hlater
    have hname : x.name ∈ earlier e := mem_earlier.mpr ⟨x.spelling, hlt, rfl⟩
    have hmem : .tag x.name ∈ entryTokens es :=
      List.mem_flatMap.mpr ⟨x, hx, List.mem_cons_of_mem _ List.mem_cons_self⟩
    obtain ⟨rest, hfind⟩ := findTag_of_mem hmem
    obtain ⟨⟨hopen, hclose, _⟩, _⟩ := hnames x.name x.name_mem
    refine ⟨x.name, hname, render (.tag x.name :: rest ++ epilog), ?_, ?_⟩
    · rw [entryTag_open, strstr_tag ⟨hopen, hclose⟩ htail.tokens_valid,
        findTag_append_left hfind]
      rfl
    · exact hinside _ (length_lt_render rfl hend)

theorem earlier_spec (hname : name ∈ earlier e) :
    name ∈ spellings ∧ name ∈ reservedNames ∧ name ≠ e.name := by
  have hspelling : name ∈ spellings := List.mem_of_mem_take hname
  refine ⟨hspelling, List.mem_append_left _ hspelling, ?_⟩
  obtain ⟨i, hi, rfl⟩ := mem_earlier.mp hname
  intro heq
  exact absurd (spellings_get_inj heq) (Fin.ne_of_lt hi)

/-- Behind an entry that is not passed over no tag is tried earlier. -/
theorem earlier_notMem (htail : Tail es epilog)
    (hlater : ¬∃ x ∈ es, x.spelling < e.spelling) (hname : name ∈ earlier e) :
    .tag name ∉ entryTokens es ++ epilog ∧ .tag ('/' :: name) ∉ entryTokens es ++ epilog := by
  obtain ⟨i, hi, rfl⟩ := mem_earlier.mp hname
  have hno {x : AppEntry} (hx : x ∈ es) (heq : x.name = spellings.get i) : False := by
    refine hlater ⟨x, hx, ?_⟩
    rw [spellings_get_inj heq]
    exact hi
  constructor
  · intro hmem
    obtain ⟨x, hx, heq⟩ := htail.open_mem (List.get_mem spellings i) hmem
    exact hno hx heq
  · intro hmem
    obtain ⟨x, hx, heq⟩ := htail.close_mem (List.get_mem spellings i) hmem
    exact hno hx heq

/-- An entry starts at its tag and ends behind its closing tag. -/
theorem startOf_entry {ending : List Token} (hend : ending <:+ epilog)
    (hinside : ∀ t, (render ending).length < t.length → inside t = true)
    (hfront : Lead front) (hentry : e.WellFormed) (htail : Tail es epilog)
    (hlater : ¬∃ x ∈ es, x.spelling < e.spelling) :
    startOf inside (render (front ++ (entryTokens (e :: es) ++ epilog))) spellings =
      some (render (e.tokens ++ (entryTokens es ++ epilog))) := by
  have htokens : ∀ token ∈ front ++ (entryTokens (e :: es) ++ epilog), token.Valid := by
    rw [entryTokens_cons]
    simp only [List.forall_mem_append, List.cons_append, List.forall_mem_cons]
    exact ⟨hfront.valid, hentry.lead, ⟨hentry.tokens, entryTokens_valid htail.entries⟩,
      htail.valid⟩
  rw [spellings_split e, startOf_skip]
  · obtain ⟨⟨hopen, hclose, _⟩, _⟩ := spellings_plain e.name e.name_mem
    apply startOf_cons
    · rw [entryTag_open, strstr_tag ⟨hopen, hclose⟩ htokens,
        findTag_append (hfront.noTags _ e.name_mem), entryTokens_cons, List.cons_append,
        findTag, if_neg (text_ne_tag _ _), List.append_assoc, AppEntry.tokens, List.cons_append, findTag,
        if_pos rfl]
      rfl
    · apply hinside
      have hhead : e.tokens ++ entryTokens es = .tag e.name :: (e.fields.flatMap
          EntryField.tokens ++ [.text e.gap, .tag ('/' :: e.name)] ++ entryTokens es) := rfl
      rw [← List.append_assoc]
      exact length_lt_render hhead hend
  · intro name hname
    obtain ⟨hspelling, hreserved, hother⟩ := earlier_spec hname
    obtain ⟨⟨hopen, hclose, _⟩, _⟩ := spellings_plain name hspelling
    rw [entryTag_open, strstr_tag ⟨hopen, hclose⟩ htokens, Option.map_eq_none_iff,
      findTag_eq_none, entryTokens_cons]
    simp only [List.mem_append, List.cons_append, List.mem_cons, not_or]
    have hbehind := (earlier_notMem htail hlater hname).1
    rw [List.mem_append, not_or] at hbehind
    exact ⟨hfront.noTags name hspelling, tag_ne_text _ _,
      ⟨fun hmem => hother (eq_name_of_open hentry hreserved hmem), hbehind.1⟩, hbehind.2⟩

theorem endOf_entry (hentry : e.WellFormed) (htail : Tail es epilog)
    (hlater : ¬∃ x ∈ es, x.spelling < e.spelling) :
    endOf (render (e.tokens ++ (entryTokens es ++ epilog))) spellings =
      some (render (.tag ('/' :: e.name) :: (entryTokens es ++ epilog)),
        e.name.length + 3) := by
  have htokens : ∀ token ∈ e.tokens ++ (entryTokens es ++ epilog), token.Valid := by
    rw [List.forall_mem_append]
    exact ⟨hentry.tokens, htail.tokens_valid⟩
  rw [spellings_split e, endOf_skip]
  · obtain ⟨_, hopen, hclose, _⟩ := spellings_plain e.name e.name_mem
    have hfields : .tag ('/' :: e.name) ∉
        Token.tag e.name :: (e.fields.flatMap EntryField.tokens ++ [.text e.gap]) := by
      simp only [List.mem_cons, List.mem_append, List.not_mem_nil, or_false, not_or]
      refine ⟨fun heq => ?_, closing_notMem_fields hentry e.name_reserved, nofun⟩
      exact reservedNames_head _ e.name_reserved (Token.tag.inj heq ▸ rfl)
    have hsplit : e.tokens ++ (entryTokens es ++ epilog) =
        (Token.tag e.name :: (e.fields.flatMap EntryField.tokens ++ [.text e.gap])) ++
          .tag ('/' :: e.name) :: (entryTokens es ++ epilog) := by
      simp only [AppEntry.tokens, List.cons_append, List.append_assoc, List.nil_append]
    rw [hsplit] at htokens ⊢
    rw [endOf, entryTag_close, strstr_tag ⟨hopen, hclose⟩ htokens, findTag_append hfields,
      findTag, if_pos rfl]
    rfl
  · intro name hname
    obtain ⟨hspelling, hreserved, hother⟩ := earlier_spec hname
    obtain ⟨_, hopen, hclose, _⟩ := spellings_plain name hspelling
    rw [entryTag_close, strstr_tag ⟨hopen, hclose⟩ htokens, Option.map_eq_none_iff,
      findTag_eq_none, List.mem_append, not_or]
    exact ⟨fun hmem => hother (eq_name_of_close hentry hreserved hmem),
      (earlier_notMem htail hlater hname).2⟩

/-- The parser takes the entry, cut to its buffer, and goes on behind it. -/
theorem nextOf_entry {ending : List Token} (hend : ending <:+ epilog)
    (hinside : ∀ t, (render ending).length < t.length → inside t = true)
    (hfront : Lead front) (hentry : e.WellFormed) (htail : Tail es epilog)
    (hlater : ¬∃ x ∈ es, x.spelling < e.spelling) :
    nextOf inside (render (front ++ (entryTokens (e :: es) ++ epilog))) =
      some ((render e.tokens).take 4095, render (entryTokens es ++ epilog)) := by
  have hstop : inside (render (.tag ('/' :: e.name) :: (entryTokens es ++ epilog))) = true := by
    apply hinside
    have hcons : Token.tag ('/' :: e.name) :: (entryTokens es ++ epilog) =
        (.tag ('/' :: e.name) :: entryTokens es) ++ epilog := rfl
    rw [hcons]
    exact length_lt_render rfl hend
  have hlen : (Token.tag ('/' :: e.name)).render.length = e.name.length + 3 := by
    simp only [Token.render, List.length_cons, List.length_append, List.length_nil]
  have hclosing : (Token.tag ('/' :: e.name)).render.length ≤ (render e.tokens).length := by
    simp only [AppEntry.tokens, render_cons, render_append, render_nil, List.length_append]
    omega
  rw [nextOf, startOf_entry hend hinside hfront hentry htail hlater, Option.bind_some,
    endOf_entry hentry htail hlater, Option.bind_some]
  simp only [hstop, if_true]
  have hcount : (render (e.tokens ++ (entryTokens es ++ epilog))).length -
      (render (.tag ('/' :: e.name) :: (entryTokens es ++ epilog))).length +
        (e.name.length + 3) = (render e.tokens).length := by
    rw [render_append, render_cons, List.length_append, List.length_append, hlen]
    rw [hlen] at hclosing
    omega
  rw [hcount, render_append, render_cons, ← hlen, List.drop_left]
  congr 2
  rw [Nat.min_comm, ← List.take_take, List.take_left]

/-! ## The loop over a list -/

/-- Positions with the same next entry are as good as each other. -/
theorem parseEntries_congr {stop : ℕ} {pos there : Pointer} {games : List GameInfo}
    (hpos : stop < pos.length) (hthere : stop < there.length)
    (hnext : nextEntry stop pos = nextEntry stop there) :
    parseEntries stop pos games = parseEntries stop there games := by
  by_cases hgames : games.length < 64
  · rw [parseEntries, if_pos ⟨hpos, hgames⟩, parseEntries, if_pos ⟨hthere, hgames⟩, hnext]
  · rw [parseEntries_stop fun h => hgames h.2, parseEntries_stop fun h => hgames h.2]

theorem document_valid (hfront : Lead front) (htail : Tail es epilog) :
    ∀ token ∈ front ++ (entryTokens es ++ epilog), token.Valid := by
  rw [List.forall_mem_append]
  exact ⟨hfront.valid, htail.tokens_valid⟩

/-- Every entry stands in front of the end. -/
theorem length_lt_entries {ending : List Token} (hend : ending <:+ epilog) (hne : es ≠ []) :
    (render ending).length < (render (front ++ (entryTokens es ++ epilog))).length := by
  cases es with
  | nil => exact absurd rfl hne
  | cons e es =>
      have hhead : e.tokens ++ entryTokens es = .tag e.name :: (e.fields.flatMap
          EntryField.tokens ++ [.text e.gap, .tag ('/' :: e.name)] ++ entryTokens es) := rfl
      have hlt := length_lt_render hhead hend
      rw [render_append] at hlt
      rw [entryTokens_cons]
      simp only [render_append, render_cons, List.length_append, List.cons_append] at hlt ⊢
      omega

/-- Without entries nothing is found. -/
theorem nextOf_none (hfront : Lead front) (htail : Tail [] epilog) :
    nextOf inside (render (front ++ (entryTokens [] ++ epilog))) = none := by
  have hstart : startOf inside (render (front ++ (entryTokens [] ++ epilog)))
      (spellings ++ []) = startOf inside (render (front ++ (entryTokens [] ++ epilog))) [] := by
    apply startOf_skip
    intro name hname
    obtain ⟨⟨hopen, hclose, _⟩, _⟩ := spellings_plain name hname
    rw [entryTag_open, strstr_tag ⟨hopen, hclose⟩ (document_valid hfront htail),
      Option.map_eq_none_iff, findTag_eq_none, List.mem_append, not_or]
    exact ⟨hfront.noTags name hname, (htail.noTags name hname).1⟩
  rw [List.append_nil] at hstart
  rw [nextOf, hstart]
  rfl

/-- The loop takes the entries that it comes to, up to 64 games. -/
theorem parseEntries_list {ending : List Token} (hend : ending <:+ epilog)
    (htail : Tail es epilog) (hfront : Lead front) {games : List GameInfo}
    (hgames : games.length ≤ 64) :
    ∃ added, parseEntries ((render ending).length + 1)
        (cstr [] (render (front ++ (entryTokens es ++ epilog)))) games =
          some (games ++ added) ∧
      added.map GameInfo.shown =
        ((visited es).take (64 - games.length)).map AppEntry.shown := by
  have hinside : ∀ t : Text, (render ending).length < t.length →
      decide ((render ending).length + 1 < (cstr [] t).length) = true := by
    intro t ht
    rw [length_cstr, decide_eq_true_eq]
    simp only [List.length_nil]
    omega
  induction es generalizing front games with
  | nil =>
      have hnext := nextEntry_cstr [] ((render ending).length + 1)
        (nul_notMem_render (document_valid hfront htail))
      rw [nextOf_none hfront htail] at hnext
      refine ⟨[], ?_, ?_⟩
      · rw [parseEntries_none hnext, List.append_nil]
      · rw [visited, List.take_nil]
        rfl
  | cons e es ih =>
      have hentry : e.WellFormed := htail.entries e List.mem_cons_self
      have hrest : Tail es epilog :=
        ⟨fun x hx => htail.entries x (List.mem_cons_of_mem e hx), htail.valid, htail.noTags⟩
      have hnone : Lead [] := ⟨nofun, fun _ _ => List.not_mem_nil⟩
      have hnext := nextEntry_cstr [] ((render ending).length + 1)
        (nul_notMem_render (document_valid hfront htail))
      have hpos : (render ending).length + 1 <
          (cstr [] (render (front ++ (entryTokens (e :: es) ++ epilog)))).length :=
        of_decide_eq_true (hinside _ (length_lt_entries hend (List.cons_ne_nil e es)))
      by_cases hlater : ∃ x ∈ es, x.spelling < e.spelling
      · -- the search passes the entry over
        have hmore : es ≠ [] := by
          rintro rfl
          obtain ⟨x, hx, _⟩ := hlater
          exact absurd hx List.not_mem_nil
        have hlt : (render ending).length <
            (render ([] ++ (entryTokens es ++ epilog))).length := length_lt_entries hend hmore
        have hthere : (render ending).length + 1 <
            (cstr [] (render (entryTokens es ++ epilog))).length :=
          of_decide_eq_true (hinside _ hlt)
        have hsame : nextEntry ((render ending).length + 1)
            (cstr [] (render (front ++ (entryTokens (e :: es) ++ epilog)))) =
            nextEntry ((render ending).length + 1)
              (cstr [] (render (entryTokens es ++ epilog))) := by
          rw [hnext, nextEntry_cstr [] _ (nul_notMem_render hrest.tokens_valid), nextOf,
            startOf_passed hend hinside hfront hentry hrest hlater, nextOf]
        have hvisited : visited (e :: es) = visited es := by
          rw [visited, if_pos]
          simpa using hlater
        rw [parseEntries_congr hpos hthere hsame, hvisited]
        exact ih hrest hnone hgames
      · have hvisited : visited (e :: es) = e :: visited es := by
          rw [visited, if_neg]
          simpa using hlater
        by_cases hfull : games.length < 64
        · rw [nextOf_entry hend hinside hfront hentry hrest hlater] at hnext
          obtain ⟨boxArtUrl, hgame⟩ := parseGameEntry_entry hentry
          rw [parseEntries_next ⟨hpos, hfull⟩ hnext hgame]
          have hmore : (games ++ [(⟨e.id, e.title, boxArtUrl⟩ : GameInfo)]).length ≤ 64 := by
            rw [List.length_append, List.length_singleton]
            omega
          obtain ⟨added, hloop, hadded⟩ := ih hrest hnone hmore
          refine ⟨⟨e.id, e.title, boxArtUrl⟩ :: added, ?_, ?_⟩
          · rw [Option.toList_some]
            rw [List.nil_append] at hloop
            rw [hloop, List.append_assoc]
            rfl
          · obtain ⟨left, hleft⟩ : ∃ left, 64 - games.length = left + 1 :=
              ⟨64 - games.length - 1, by omega⟩
            rw [List.length_append, List.length_singleton, Nat.sub_add_eq, hleft,
              Nat.add_sub_cancel] at hadded
            rw [hvisited, hleft, List.take_succ_cons, List.map_cons, List.map_cons, hadded]
            rfl
        · refine ⟨[], ?_, ?_⟩
          · rw [parseEntries_stop fun h => hfull h.2, List.append_nil]
          · rw [Nat.sub_eq_zero_of_le (by omega), List.take_zero]
            rfl

/-! ## The document -/

theorem firstTag_cases {P : Text → Prop} {first second third found : Text}
    (h : ∀ needle ∈ [first, second, third], ∀ s, strstr needle text = some s → P s)
    (hfound : firstTag text first second third = some found) : P found := by
  rw [firstTag, Option.or_eq_some_iff, Option.or_eq_some_iff] at hfound
  obtain hfound | ⟨_, hfound | ⟨_, hfound⟩⟩ := hfound
  · exact h first (by simp) found hfound
  · exact h second (by simp) found hfound
  · exact h third (by simp) found hfound

theorem rootNames_spec : ∀ name ∈ rootNames,
    name ∈ reservedNames ∧ name ∉ spellings ∧ ('<' ∉ name ∧ '>' ∉ name) ∧
      '<' ∉ '/' :: name ∧ '>' ∉ '/' :: name := by
  decide

variable {d : AppList}

theorem AppList.WellFormed.tail (h : d.WellFormed) : Tail d.entries d.epilog :=
  ⟨h.entries, h.epilog, h.epilogEntries⟩

theorem AppList.WellFormed.lead (h : d.WellFormed) : Lead d.prolog :=
  ⟨h.prolog, h.prologEntries⟩

/-- The loop starts in front of the entries. -/
theorem root_position (h : d.WellFormed) :
    ∃ front, Lead front ∧
      (firstTag d.document "<applist>".toList "<games>".toList "<root>".toList).getD
        d.document = render (front ++ (entryTokens d.entries ++ d.epilog)) := by
  cases hroot : firstTag d.document "<applist>".toList "<games>".toList "<root>".toList with
  | none => exact ⟨d.prolog, h.lead, rfl⟩
  | some root =>
      refine firstTag_cases (P := fun root => ∃ front, Lead front ∧
        (some root).getD d.document = render (front ++ (entryTokens d.entries ++ d.epilog)))
        ?_ hroot
      have hneedles : ["<applist>".toList, "<games>".toList, "<root>".toList] =
          rootNames.map fun name => (Token.tag name).render := rfl
      rw [hneedles]
      intro needle hneedle found hfound
      obtain ⟨name, hname, rfl⟩ := List.mem_map.mp hneedle
      obtain ⟨hreserved, hspelling, hchars, _⟩ := rootNames_spec name hname
      have hbehind : .tag name ∉ entryTokens d.entries ++ d.epilog := by
        rw [List.mem_append, not_or]
        refine ⟨?_, h.epilogRoot name hname⟩
        intro hmem
        obtain ⟨e, he, hmem⟩ := mem_entryTokens hmem
        exact hspelling (eq_name_of_open (h.entries e he) hreserved hmem ▸ e.name_mem)
      rw [AppList.document, AppList.tokens,
        strstr_tag hchars (document_valid h.lead h.tail), Option.map_eq_some_iff] at hfound
      obtain ⟨tokens, hfind, rfl⟩ := hfound
      have hprolog : .tag name ∈ d.prolog := by
        by_contra hno
        rw [findTag_append hno, findTag_eq_none.mpr hbehind] at hfind
        exact nomatch hfind
      obtain ⟨rest, hrest⟩ := findTag_of_mem hprolog
      rw [findTag_append_left hrest] at hfind
      obtain rfl := Option.some.inj hfind
      have hsuffix := (findTag_suffix hrest).1
      exact ⟨.tag name :: rest,
        ⟨fun token htoken => h.prolog token (hsuffix.subset htoken),
          fun name hname hmem => h.prologEntries name hname (hsuffix.subset hmem)⟩, rfl⟩

/-- The loop stops behind the entries. -/
theorem root_end (h : d.WellFormed) :
    ∃ ending, ending <:+ d.epilog ∧
      (((firstTag d.document "</applist>".toList "</games>".toList "</root>".toList).map
        (cstr [])).getD ((cstr [] d.document).drop d.document.length)).length =
          (render ending).length + 1 := by
  cases hroot :
      firstTag d.document "</applist>".toList "</games>".toList "</root>".toList with
  | none =>
      refine ⟨[], List.nil_suffix, ?_⟩
      rw [Option.map_none, Option.getD_none, cstr, List.drop_left]
      rfl
  | some root =>
      refine firstTag_cases (P := fun root => ∃ ending, ending <:+ d.epilog ∧
        (((some root).map (cstr [])).getD
          ((cstr [] d.document).drop d.document.length)).length =
            (render ending).length + 1) ?_ hroot
      have hneedles : ["</applist>".toList, "</games>".toList, "</root>".toList] =
          rootNames.map fun name => (Token.tag ('/' :: name)).render := rfl
      rw [hneedles]
      intro needle hneedle found hfound
      obtain ⟨name, hname, rfl⟩ := List.mem_map.mp hneedle
      obtain ⟨hreserved, hspelling, _, hchars⟩ := rootNames_spec name hname
      have hfront : .tag ('/' :: name) ∉ d.prolog ++ entryTokens d.entries := by
        rw [List.mem_append, not_or]
        refine ⟨h.prologRoot name hname, ?_⟩
        intro hmem
        obtain ⟨e, he, hmem⟩ := mem_entryTokens hmem
        exact hspelling (eq_name_of_close (h.entries e he) hreserved hmem ▸ e.name_mem)
      rw [AppList.document, AppList.tokens,
        strstr_tag hchars (document_valid h.lead h.tail), Option.map_eq_some_iff,
        ← List.append_assoc, findTag_append hfront] at hfound
      obtain ⟨tokens, hfind, rfl⟩ := hfound
      refine ⟨tokens, (findTag_suffix hfind).1, ?_⟩
      rw [Option.map_some, Option.getD_some, length_cstr]
      rfl

/-- What the parser makes of a well-formed list. -/
theorem gameListParseXml_list (h : d.WellFormed) :
    ∃ games, gameListParseXml (d.document ++ [nul]) d.document.length = some games ∧
      games.map GameInfo.shown = ((visited d.entries).take 64).map AppEntry.shown := by
  obtain ⟨front, hfront, hroot⟩ := root_position h
  obtain ⟨ending, hending, hstop⟩ := root_end h
  have hnul : nul ∉ d.document := nul_notMem_render (document_valid h.lead h.tail)
  have hnone : ([] : List GameInfo).length ≤ 64 := Nat.zero_le 64
  obtain ⟨games, hloop, hgames⟩ := parseEntries_list hending h.tail hfront hnone
  refine ⟨games, ?_, hgames⟩
  have hparse := gameListParseXml_cstr [] hnul d.document.length
  rw [hroot, hstop, hloop] at hparse
  exact hparse

/-! ## Lists in order -/

/-- None of the first `k` entries stands in front of an entry whose spelling is tried
before its own. -/
def InOrder (k : ℕ) (es : List AppEntry) : Prop :=
  ∀ before e after, es = before ++ e :: after → before.length < k →
    ∀ x ∈ after, ¬x.spelling < e.spelling

/-- The parser returns the first 64 entries in their order, each with its own id and
title. -/
def Listed (d : AppList) : Prop :=
  ∃ games, gameListParseXml (d.document ++ [nul]) d.document.length = some games ∧
    games.map GameInfo.shown = (d.entries.take 64).map AppEntry.shown

theorem inOrder_cons {k : ℕ} :
    InOrder (k + 1) (e :: es) ↔ (∀ x ∈ es, ¬x.spelling < e.spelling) ∧ InOrder k es := by
  constructor
  · intro h
    refine ⟨h [] e es rfl (Nat.zero_lt_succ k), ?_⟩
    intro before x after hsplit hlen
    exact h (e :: before) x after (congrArg (e :: ·) hsplit) (Nat.succ_lt_succ hlen)
  · rintro ⟨hfirst, hrest⟩ before x after hsplit hlen
    cases before with
    | nil =>
        obtain ⟨rfl, rfl⟩ := List.cons.inj hsplit
        exact hfirst
    | cons b before =>
        have htail := (List.cons.inj hsplit).2
        exact hrest before x after htail (Nat.lt_of_succ_lt_succ hlen)

theorem visited_take {k : ℕ} (h : InOrder k es) : (visited es).take k = es.take k := by
  induction es generalizing k with
  | nil => rfl
  | cons e es ih =>
      cases k with
      | zero => rw [List.take_zero, List.take_zero]
      | succ k =>
          obtain ⟨hfirst, hrest⟩ := inOrder_cons.mp h
          rw [visited, if_neg, List.take_succ_cons, List.take_succ_cons, ih hrest]
          simpa using hfirst

theorem visited_sublist (es : List AppEntry) : (visited es).Sublist es := by
  induction es with
  | nil => exact List.Sublist.refl []
  | cons e es ih =>
      rw [visited]
      split
      · exact ih.cons e
      · exact ih.cons_cons e

/-- Entries that differ tell when one of them is missing. -/
theorem inOrder_of_visited {k : ℕ} (hnodup : (es.map AppEntry.shown).Nodup)
    (h : ((visited es).take k).map AppEntry.shown = (es.take k).map AppEntry.shown) :
    InOrder k es := by
  induction es generalizing k with
  | nil =>
      intro before e after hsplit
      exact absurd hsplit.symm (by simp)
  | cons e es ih =>
      cases k with
      | zero =>
          intro before x after _ hlen
          exact absurd hlen (Nat.not_lt_zero _)
      | succ k =>
          rw [List.map_cons, List.nodup_cons] at hnodup
          rw [visited] at h
          split at h
          · -- the entry is missing, and no later one shows the same
            cases hfirst : visited es with
            | nil =>
                rw [hfirst] at h
                exact absurd h (by simp)
            | cons x rest =>
                rw [hfirst, List.take_succ_cons, List.take_succ_cons, List.map_cons,
                  List.map_cons] at h
                have hmem : x ∈ es := (visited_sublist es).subset (hfirst ▸ List.mem_cons_self)
                have hshown := List.mem_map_of_mem (f := AppEntry.shown) hmem
                rw [(List.cons.inj h).1] at hshown
                exact absurd hshown hnodup.1
          · rename_i hkept
            rw [List.take_succ_cons, List.take_succ_cons, List.map_cons, List.map_cons] at h
            rw [inOrder_cons]
            exact ⟨by simpa using hkept, ih hnodup.2 (List.cons.inj h).2⟩

theorem listed_iff (h : d.WellFormed) :
    Listed d ↔ ((visited d.entries).take 64).map AppEntry.shown =
      (d.entries.take 64).map AppEntry.shown := by
  obtain ⟨games, hparse, hgames⟩ := gameListParseXml_list h
  rw [Listed, ← hgames]
  constructor
  · rintro ⟨others, hothers, hshown⟩
    obtain rfl := Option.some.inj (hparse.symm.trans hothers)
    exact hshown
  · intro hshown
    exact ⟨games, hparse, hshown⟩

/-- The parser comes to an end on every document and reads nothing outside it; and of
a well-formed list it returns the first 64 entries in their order whenever none of
them stands in front of an entry whose spelling is tried before its own.  When all
entries differ in id or title this is needed, too. -/
theorem gameListParseXml_inOrder (bytes : List Char) (xmlSize : ℕ) (d : AppList) :
    (∃ games,
      gameListParseXml (bytes ++ [nul]) xmlSize = some games ∧ games.length ≤ 64) ∧
    (d.WellFormed →
      (InOrder 64 d.entries → Listed d) ∧
      ((d.entries.map AppEntry.shown).Nodup → (Listed d ↔ InOrder 64 d.entries)) ∧
      (Listed d ↔ ((visited d.entries).take 64).map AppEntry.shown =
        (d.entries.take 64).map AppEntry.shown)) := by
  refine ⟨gameListParseXml_inside bytes xmlSize, ?_⟩
  intro h
  have hiff := listed_iff h
  have hsuffices : InOrder 64 d.entries → Listed d := fun horder =>
    hiff.mpr (congrArg _ (visited_take horder))
  refine ⟨hsuffices, ?_, hiff⟩
  intro hnodup
  exact ⟨fun hlisted => inOrder_of_visited hnodup (hiff.mp hlisted), hsuffices⟩

/-- An entry with a title and an id and nothing else. -/
def plainEntry (spelling : Fin spellings.length) (title : Text) (id : ℤ) : AppEntry :=
  ⟨[], spelling, [⟨[], "AppTitle".toList, title⟩, ⟨[], "ID".toList, Config.signed id⟩], []⟩

/-- A list of entries and nothing else. -/
def plainList (entries : List AppEntry) : AppList := ⟨[], entries, []⟩

theorem plainList_wellFormed (h : ∀ e ∈ es, e.WellFormed) : (plainList es).WellFormed :=
  ⟨nofun, h, nofun, fun _ _ => nofun, fun _ _ => nofun, fun _ _ => ⟨nofun, nofun⟩,
    fun _ _ => nofun⟩

instance : DecidablePred Plain := fun content =>
  inferInstanceAs (Decidable ('<' ∉ content ∧ nul ∉ content))

theorem readNames_valid : ∀ name ∈ readNames, (Plain name ∧ '>' ∉ name) ∧
    name.head? ≠ some '/' ∧ name ∉ reservedNames := by
  decide

theorem readField_valid {content : Text} (hname : name ∈ readNames) (h : Plain content) :
    (EntryField.mk [] name content).Valid := by
  obtain ⟨hplain, hopening, hreserved⟩ := readNames_valid name hname
  exact ⟨⟨nofun, nofun⟩, h, hplain, hopening, hreserved⟩

theorem plainEntry_wellFormed {spelling : Fin spellings.length} {title : Text} {id : ℤ}
    (htitle : Plain title) (hid : Plain (Config.signed id))
    (hrange : -2147483648 ≤ id ∧ id ≤ 2147483647)
    (hlen : (render (plainEntry spelling title id).tokens).length ≤ 4095) :
    (plainEntry spelling title id).WellFormed where
  lead := ⟨nofun, nofun⟩
  fields := by
    intro f hf
    rw [plainEntry] at hf
    simp only [List.mem_cons, List.not_mem_nil, or_false] at hf
    obtain rfl | rfl := hf
    · exact readField_valid (by decide) htitle
    · exact readField_valid (by decide) hid
  gap := ⟨nofun, nofun⟩
  hasId := ⟨id, hrange.1, hrange.2, rfl⟩
  nearTop := by
    refine ⟨_, [], (List.append_nil _).symm, nofun, le_trans ?_ hlen⟩
    rw [AppEntry.tokens, render_cons, render_cons, render_append]
    simp only [List.length_append]
    omega

/-- `<App><AppTitle>A</AppTitle><ID>1</ID></App>`. -/
def appA : AppEntry := plainEntry ⟨2, by decide⟩ "A".toList 1

/-- `<Game><AppTitle>B</AppTitle><ID>2</ID></Game>`. -/
def gameB : AppEntry := plainEntry ⟨0, by decide⟩ "B".toList 2

theorem appA_wellFormed : appA.WellFormed :=
  plainEntry_wellFormed (by decide) (by decide) (by decide) (by decide)

theorem gameB_wellFormed : gameB.WellFormed :=
  plainEntry_wellFormed (by decide) (by decide) (by decide) (by decide)

/-- A game in front of an application: both are listed. -/
theorem gameListParseXml_inOrder_two :
    (plainList [gameB, appA]).WellFormed ∧ InOrder 64 [gameB, appA] ∧
      Listed (plainList [gameB, appA]) := by
  have hvalid : (plainList [gameB, appA]).WellFormed := by
    apply plainList_wellFormed
    simp only [List.forall_mem_cons]
    exact ⟨gameB_wellFormed, appA_wellFormed, nofun⟩
  have horder : InOrder 64 [gameB, appA] := by
    rw [inOrder_cons, inOrder_cons]
    refine ⟨by decide, by decide, ?_⟩
    intro before e after hsplit
    exact absurd hsplit.symm (by simp)
  exact ⟨hvalid, horder, ((gameListParseXml_inOrder [] 0 _).2 hvalid).1 horder⟩

/-- An application in front of a game: only the game is listed. -/
theorem gameListParseXml_appFirst :
    (plainList [appA, gameB]).WellFormed ∧ ¬Listed (plainList [appA, gameB]) := by
  have hvalid : (plainList [appA, gameB]).WellFormed := by
    apply plainList_wellFormed
    simp only [List.forall_mem_cons]
    exact ⟨appA_wellFormed, gameB_wellFormed, nofun⟩
  refine ⟨hvalid, ?_⟩
  rw [listed_iff hvalid]
  have hvisited : visited (plainList [appA, gameB]).entries = [gameB] := rfl
  have hentries : (plainList [appA, gameB]).entries = [appA, gameB] := rfl
  rw [hvisited, hentries]
  intro heq
  exact absurd (congrArg List.length heq) (by decide)

end MoonlightPsp.GameList

import MoonlightPsp.GameList.Parser

/-!
# Reads inside the document

On memory that holds a terminated text every search is a search of the text, so
the parser reads nothing behind the terminator, whatever the document holds.
-/

namespace MoonlightPsp.GameList

open Rtsp CheckedMemory

/-- Memory that holds a text, its terminator and whatever follows. -/
def cstr (junk : List Char) (text : Text) : Pointer := text ++ nul :: junk

variable {needle text entry : Text} {junk : List Char} {stop : ℕ}

/-- The text of an extraction, as the source computes it. -/
def contentOf (tag : Text) (bufferSize : ℕ) (xml : Text) : Option Text :=
  (strstr (openTag tag) xml).bind fun start =>
    let start := (start.drop (openTag tag).length).dropWhile isSpace
    (strstr (closeTag tag) start).map fun stop => copyBetween bufferSize start stop

/-- A needle without a terminator is compared inside the text. -/
theorem startsWith_cstr (junk : List Char) (hneedle : nul ∉ needle) (text : Text) :
    startsWith needle (cstr junk text) = some (needle.isPrefixOf text) := by
  induction needle generalizing text with
  | nil => rfl
  | cons c needle ih =>
      rw [List.mem_cons, not_or] at hneedle
      cases text with
      | nil =>
          have hc : ¬nul = c := hneedle.1
          rw [cstr, List.nil_append, startsWith, if_neg hc]
          rfl
      | cons b text =>
          rw [cstr, List.cons_append, startsWith]
          by_cases hb : b = c
          · rw [if_pos hb]
            subst b
            have hrest := ih hneedle.2 text
            rw [cstr] at hrest
            rw [hrest, List.isPrefixOf_cons_cons, beq_self_eq_true, Bool.true_and]
          · rw [if_neg hb, List.isPrefixOf_cons_cons,
              beq_eq_false_iff_ne.mpr fun hcb => hb hcb.symm, Bool.false_and]

/-- A search of the memory is a search of the text. -/
theorem findSubstring_cstr (junk : List Char) (hne : needle ≠ []) (hneedle : nul ∉ needle)
    (htext : nul ∉ text) :
    findSubstring needle (cstr junk text) =
      some ((strstr needle text).map (cstr junk)) := by
  induction text with
  | nil =>
      rw [strstr, if_neg hne, cstr, List.nil_append, findSubstring, if_pos rfl]
      rfl
  | cons b text ih =>
      rw [List.mem_cons, not_or] at htext
      have hb : ¬b = nul := fun hb => htext.1 hb.symm
      have hhere := startsWith_cstr junk hneedle (b :: text)
      rw [cstr, List.cons_append] at hhere
      rw [cstr, List.cons_append, findSubstring, if_neg hb, hhere, Option.bind_some, strstr]
      split
      · rfl
      · exact ih htext.2

theorem nul_notMem_of_suffix {rest : Text} (h : rest <:+ text) (htext : nul ∉ text) :
    nul ∉ rest := fun hmem => htext (h.subset hmem)

theorem skipWhitespace_cstr (htext : nul ∉ text) :
    skipWhitespace (cstr junk text) = some (cstr junk (text.dropWhile isSpace)) := by
  induction text with
  | nil =>
      rw [cstr, List.nil_append, skipWhitespace, if_neg (fun h => h.1 rfl)]
      rfl
  | cons b text ih =>
      rw [List.mem_cons, not_or] at htext
      have hb : b ≠ nul := fun hb => htext.1 hb.symm
      rw [cstr, List.cons_append, skipWhitespace]
      by_cases hspace : isSpace b = true
      · rw [if_pos ⟨hb, hspace⟩, List.dropWhile_cons_of_pos hspace]
        exact ih htext.2
      · rw [if_neg (fun h => hspace h.2), List.dropWhile_cons_of_neg hspace]
        rfl

theorem strchr_cstr (junk : List Char) (c : Char) (hc : c ≠ nul) (htext : nul ∉ text) :
    ∃ found : Option Text, strchr c (cstr junk text) = some (found.map (cstr junk)) ∧
      ∀ rest ∈ found, rest <:+ text := by
  induction text with
  | nil =>
      refine ⟨none, ?_, ?_⟩
      · rw [cstr, List.nil_append, strchr, if_neg hc.symm, if_pos rfl]
        rfl
      · intro rest hrest
        exact nomatch hrest
  | cons b text ih =>
      rw [List.mem_cons, not_or] at htext
      have hb : ¬b = nul := fun hb => htext.1 hb.symm
      rw [cstr, List.cons_append, strchr]
      by_cases hbc : b = c
      · refine ⟨some (b :: text), if_pos hbc, ?_⟩
        intro rest hrest
        obtain rfl := Option.some.inj hrest
        exact List.suffix_rfl
      · obtain ⟨found, hfound, hsuffix⟩ := ih htext.2
        refine ⟨found, ?_, ?_⟩
        · rw [if_neg hbc, if_neg hb]
          exact hfound
        · intro rest hrest
          exact (hsuffix rest hrest).trans (List.suffix_cons b text)

/-! ## Entries -/

theorem length_cstr (junk : List Char) (text : Text) :
    (cstr junk text).length = text.length + (junk.length + 1) := by
  rw [cstr, List.length_append, List.length_cons]

theorem drop_cstr {n : ℕ} (h : n ≤ text.length) :
    (cstr junk text).drop n = cstr junk (text.drop n) := by
  rw [cstr, List.drop_append_of_le_length h]
  rfl

theorem copyBetween_cstr (bufferSize : ℕ) (start stop : Text) :
    copyBetween bufferSize (cstr junk start) (cstr junk stop) =
      copyBetween bufferSize start stop := by
  have hlen : (cstr junk start).length - (cstr junk stop).length =
      start.length - stop.length := by
    rw [length_cstr, length_cstr]
    omega
  rw [copyBetween, copyBetween, hlen, cstr, List.take_append_of_le_length (by omega)]

/-- A tag that can be searched for. -/
def Searchable (tag : Text) : Prop :=
  nul ∉ openTag tag ∧ nul ∉ closeTag tag ∧ openTag tag ≠ [] ∧ closeTag tag ≠ []

instance (tag : Text) : Decidable (Searchable tag) := inferInstanceAs (Decidable (_ ∧ _))

theorem extractXmlContent_cstr {tag : Text} (htag : Searchable tag) (bufferSize : ℕ)
    (htext : nul ∉ text) :
    extractXmlContent tag bufferSize (cstr junk text) =
      some (contentOf tag bufferSize text) := by
  rw [extractXmlContent, findSubstring_cstr junk htag.2.2.1 htag.1 htext, contentOf]
  cases hopen : strstr (openTag tag) text with
  | none => rfl
  | some start =>
      obtain ⟨hfront, hsuffix⟩ := strstr_spec hopen
      have hstart : nul ∉ start.drop (openTag tag).length :=
        nul_notMem_of_suffix ((List.drop_suffix _ start).trans hsuffix) htext
      have hskipped : nul ∉ (start.drop (openTag tag).length).dropWhile isSpace :=
        nul_notMem_of_suffix (List.dropWhile_suffix _) hstart
      simp only [Option.map_some, Option.bind_some]
      rw [drop_cstr hfront.length_le, skipWhitespace_cstr hstart, Option.bind_some,
        findSubstring_cstr junk htag.2.2.2 htag.2.1 hskipped]
      simp only [Option.map_some, Option.map_map]
      congr 2
      funext stop
      exact copyBetween_cstr bufferSize _ stop

theorem extractXmlAttribute_cstr (junk : List Char) (htext : nul ∉ text) :
    ∃ found, extractXmlAttribute "id".toList 512 (cstr junk text) = some found := by
  have hne : snprintf 64 ("id".toList ++ "=\"".toList) ≠ [] := by decide
  have hnul : nul ∉ snprintf 64 ("id".toList ++ "=\"".toList) := by decide
  simp only [extractXmlAttribute]
  rw [findSubstring_cstr junk hne hnul htext]
  cases hopen : strstr (snprintf 64 ("id".toList ++ "=\"".toList)) text with
  | none => exact ⟨none, rfl⟩
  | some start =>
      obtain ⟨hfront, hsuffix⟩ := strstr_spec hopen
      have hstart := nul_notMem_of_suffix
        ((List.drop_suffix (snprintf 64 ("id".toList ++ "=\"".toList)).length start).trans
          hsuffix) htext
      obtain ⟨found, hfound, _⟩ := strchr_cstr junk '"' (by decide)
        (nul_notMem_of_suffix (List.dropWhile_suffix isSpace) hstart)
      simp only [Option.map_some, Option.bind_some]
      rw [drop_cstr hfront.length_le, skipWhitespace_cstr hstart, Option.bind_some, hfound]
      exact ⟨_, rfl⟩

theorem orElse_some {α : Type} (first second : Option α) :
    orElse (some first) (some second) = some (first.or second) := by
  cases first with
  | none => rfl
  | some x => rfl

/-- The title of an entry: `AppTitle`, else `Title`. -/
def titleContent (entry : Text) : Option Text :=
  (contentOf "AppTitle".toList 512 entry).or (contentOf "Title".toList 512 entry)

/-- What an entry becomes: the id comes from its tag, else from an attribute. -/
theorem parseGameEntry_cstr (junk : List Char) (hentry : nul ∉ entry) :
    ∃ fallback boxArtUrl, parseGameEntry (cstr junk entry) =
      some (((contentOf "ID".toList 512 entry).or fallback).map fun buffer =>
        ⟨atoi buffer, gameTitle (atoi buffer) (titleContent entry), boxArtUrl⟩) := by
  obtain ⟨fallback, hfallback⟩ := extractXmlAttribute_cstr junk hentry
  have hcontent {tag : Text} (htag : Searchable tag) :
      extractXmlContent tag 512 (cstr junk entry) = some (contentOf tag 512 entry) :=
    extractXmlContent_cstr htag 512 hentry
  refine ⟨fallback, (((contentOf "BoxArtUrl".toList 512 entry).or
    ((contentOf "BoxArtURL".toList 512 entry).or
      (contentOf "boxart".toList 512 entry))).getD []).take 511, ?_⟩
  rw [parseGameEntry, hfallback, hcontent (by decide), hcontent (by decide),
    hcontent (by decide), hcontent (by decide), hcontent (by decide), hcontent (by decide)]
  simp only [orElse_some, Option.bind_some]
  cases (contentOf "ID".toList 512 entry).or fallback with
  | none => rfl
  | some buffer => rfl

/-- `<name>` and `</name>` of an entry. -/
def entryTag (slash name : Text) : Text := slash ++ name ++ ">".toList

/-- The start that `entryStart` finds in a text, among those that are `inside`. -/
def startOf (inside : Text → Bool) (text : Text) : List Text → Option Text
  | [] => none
  | name :: names =>
      match strstr (entryTag "<".toList name) text with
      | none => startOf inside text names
      | some start => if inside start then some start else startOf inside text names

/-- The end that `entryEnd` finds in a text. -/
def endOf (start : Text) : List Text → Option (Text × ℕ)
  | [] => none
  | name :: names =>
      match strstr (entryTag "</".toList name) start with
      | none => endOf start names
      | some stop => some (stop, name.length + 3)

/-- The next entry of a text with `stop` bytes of memory at and behind its end. -/
def nextOf (inside : Text → Bool) (text : Text) : Option (Text × Text) :=
  (startOf inside text spellings).bind fun start =>
    (endOf start spellings).bind fun (entryStop, closeTagLen) =>
      if inside entryStop then
        some (start.take (min (start.length - entryStop.length + closeTagLen) 4095),
          entryStop.drop closeTagLen)
      else none

theorem entryStart_cstr (htext : nul ∉ text) {names : List Text}
    (hnames : ∀ name ∈ names, nul ∉ entryTag "<".toList name) :
    entryStart stop (cstr junk text) names =
      some ((startOf (fun t => stop < (cstr junk t).length) text names).map (cstr junk)) := by
  induction names with
  | nil => rfl
  | cons name names ih =>
      have hne : entryTag "<".toList name ≠ [] := List.cons_ne_nil _ _
      have hfind := findSubstring_cstr junk hne
        (hnames name List.mem_cons_self) htext
      have hrest := ih fun other hother => hnames other (List.mem_cons_of_mem name hother)
      rw [entryTag] at hfind
      rw [entryStart, hfind, startOf, entryTag]
      cases hfound : strstr ("<".toList ++ name ++ ">".toList) text with
      | none => exact hrest
      | some start =>
          simp only [Option.map_some, Option.bind_some, decide_eq_true_eq]
          split
          · rfl
          · exact hrest

theorem entryEnd_cstr {start : Text} (hstart : nul ∉ start) {names : List Text}
    (hnames : ∀ name ∈ names, nul ∉ entryTag "</".toList name) :
    entryEnd (cstr junk start) names =
      some ((endOf start names).map fun (stop, n) => (cstr junk stop, n)) := by
  induction names with
  | nil => rfl
  | cons name names ih =>
      have hne : entryTag "</".toList name ≠ [] := List.cons_ne_nil _ _
      have hfind := findSubstring_cstr junk hne
        (hnames name List.mem_cons_self) hstart
      have hrest := ih fun other hother => hnames other (List.mem_cons_of_mem name hother)
      rw [entryTag] at hfind
      rw [entryEnd, hfind, endOf, entryTag]
      cases hfound : strstr ("</".toList ++ name ++ ">".toList) start with
      | none => exact hrest
      | some found => rfl

theorem startOf_suffix {inside : Text → Bool} {start : Text} {names : List Text}
    (h : startOf inside text names = some start) : start <:+ text := by
  induction names with
  | nil => exact nomatch h
  | cons name names ih =>
      rw [startOf] at h
      split at h
      · exact ih h
      · rename_i first hfirst
        split at h
        · obtain rfl := Option.some.inj h
          exact (strstr_spec hfirst).2
        · exact ih h

theorem endOf_spec {start last : Text} {closeTagLen : ℕ} {names : List Text}
    (h : endOf start names = some (last, closeTagLen)) :
    last <:+ start ∧ closeTagLen ≤ last.length := by
  induction names with
  | nil => exact nomatch h
  | cons name names ih =>
      rw [endOf] at h
      split at h
      · exact ih h
      · rename_i first hfirst
        obtain ⟨rfl, rfl⟩ := Prod.mk.inj (Option.some.inj h)
        obtain ⟨hfront, hsuffix⟩ := strstr_spec hfirst
        have hlen : (entryTag "</".toList name).length = name.length + 3 := by
          simp [entryTag]
        exact ⟨hsuffix, hlen ▸ hfront.length_le⟩

/-- The next entry of the memory is that of the text. -/
theorem nextEntry_cstr (junk : List Char) (stop : ℕ) (htext : nul ∉ text) :
    nextEntry stop (cstr junk text) =
      some ((nextOf (fun t => stop < (cstr junk t).length) text).map fun (entry, rest) =>
        (entry, cstr junk rest)) := by
  rw [nextEntry, entryStart_cstr htext (by decide), Option.bind_some, nextOf]
  cases hstart : startOf (fun t => stop < (cstr junk t).length) text spellings with
  | none => rfl
  | some start =>
      have hsuffix := startOf_suffix hstart
      simp only [Option.map_some, Option.bind_some]
      rw [entryEnd_cstr (nul_notMem_of_suffix hsuffix htext) (by decide)]
      cases hend : endOf start spellings with
      | none => rfl
      | some last =>
          obtain ⟨last, closeTagLen⟩ := last
          obtain ⟨hlast, hlen⟩ := endOf_spec hend
          have hle := hlast.length_le
          simp only [Option.map_some, Option.bind_some, decide_eq_true_eq]
          by_cases hinside : stop < (cstr junk last).length
          · rw [if_neg (by omega), if_pos hinside]
            have hcount : (if (cstr junk start).length - (cstr junk last).length +
                  closeTagLen ≥ 4096 then 4095
                else (cstr junk start).length - (cstr junk last).length + closeTagLen) =
                min (start.length - last.length + closeTagLen) 4095 := by
              rw [length_cstr, length_cstr]
              split <;> omega
            rw [hcount, slice_eq (by rw [length_cstr]; omega), Option.map_some,
              Option.map_some, drop_cstr hlen, List.drop_zero, cstr,
              List.take_append_of_le_length (by omega)]
          · rw [if_pos (by omega), if_neg hinside]
            rfl

/-! ## The loop -/

theorem nextOf_suffix {inside : Text → Bool} {rest : Text}
    (h : nextOf inside text = some (entry, rest)) :
    rest <:+ text ∧ ∀ c ∈ entry, c ∈ text := by
  rw [nextOf, Option.bind_eq_some_iff] at h
  obtain ⟨start, hstart, h⟩ := h
  rw [Option.bind_eq_some_iff] at h
  obtain ⟨⟨last, closeTagLen⟩, hend, h⟩ := h
  simp only at h
  split at h
  · obtain ⟨rfl, rfl⟩ := Prod.mk.inj (Option.some.inj h)
    have hsuffix := startOf_suffix hstart
    have hlast := (endOf_spec hend).1
    refine ⟨(List.drop_suffix _ last).trans (hlast.trans hsuffix), ?_⟩
    intro c hc
    exact hsuffix.subset (List.mem_of_mem_take hc)
  · exact nomatch h

variable {pos rest : Pointer} {games : List GameInfo}

theorem parseEntries_stop (hcont : ¬(stop < pos.length ∧ games.length < 64)) :
    parseEntries stop pos games = some games := by
  rw [parseEntries, if_neg hcont]

theorem parseEntries_none (hnext : nextEntry stop pos = some none) :
    parseEntries stop pos games = some games := by
  rw [parseEntries]
  split
  · split
    · rename_i h
      exact absurd (hnext.symm.trans h) (by simp)
    · rfl
    · rename_i h
      exact absurd (hnext.symm.trans h) (by simp)
  · rfl

theorem parseEntries_next (hcont : stop < pos.length ∧ games.length < 64)
    (hnext : nextEntry stop pos = some (some (entry, rest))) {game : Option GameInfo}
    (hgame : parseGameEntry (entry ++ [nul]) = some game) :
    parseEntries stop pos games = parseEntries stop rest (games ++ game.toList) := by
  rw [parseEntries, if_pos hcont]
  split
  · rename_i h
    exact absurd (hnext.symm.trans h) (by simp)
  · rename_i h
    exact absurd (hnext.symm.trans h) (by simp)
  · rename_i h
    obtain ⟨rfl, rfl⟩ := Prod.mk.inj (Option.some.inj (Option.some.inj (hnext.symm.trans h)))
    rw [hgame, Option.bind_some]
    cases game with
    | none => rw [Option.toList_none, List.append_nil]
    | some game => rfl

/-- The loop reads inside the text and keeps at most 64 games. -/
theorem parseEntries_cstr (htext : nul ∉ text) (hgames : games.length ≤ 64) :
    ∃ result, parseEntries stop (cstr junk text) games = some result ∧
      result.length ≤ 64 := by
  induction hn : text.length using Nat.strongRecOn generalizing text games with
  | ind n ih =>
      by_cases hcont : stop < (cstr junk text).length ∧ games.length < 64
      · have hnext := nextEntry_cstr junk stop htext
        cases hfound : nextOf (fun t => stop < (cstr junk t).length) text with
        | none =>
            rw [hfound] at hnext
            exact ⟨games, parseEntries_none hnext, hgames⟩
        | some next =>
            obtain ⟨entry, rest⟩ := next
            rw [hfound] at hnext
            obtain ⟨hrest, hentry⟩ := nextOf_suffix hfound
            have hshort := nextEntry_shorter hnext
            rw [length_cstr, length_cstr] at hshort
            obtain ⟨game, hgame⟩ : ∃ game, parseGameEntry (entry ++ [nul]) = some game := by
              obtain ⟨_, _, hgame⟩ := parseGameEntry_cstr []
                fun hmem => htext (hentry nul hmem)
              exact ⟨_, hgame⟩
            rw [parseEntries_next hcont hnext hgame]
            refine ih rest.length (by omega) (nul_notMem_of_suffix hrest htext) ?_ rfl
            rw [List.length_append]
            have hone : game.toList.length ≤ 1 := by
              cases game <;> simp
            omega
      · exact ⟨games, parseEntries_stop hcont, hgames⟩

/-- Every list of bytes and its terminator hold a text. -/
theorem eq_cstr (bytes : List Char) :
    ∃ text junk, nul ∉ text ∧ bytes ++ [nul] = cstr junk text := by
  induction bytes with
  | nil => exact ⟨[], [], List.not_mem_nil, rfl⟩
  | cons b bytes ih =>
      obtain ⟨text, junk, htext, heq⟩ := ih
      by_cases hb : b = nul
      · exact ⟨[], bytes ++ [nul], List.not_mem_nil, by rw [hb]; rfl⟩
      · refine ⟨b :: text, junk, ?_, congrArg (b :: ·) heq⟩
        rw [List.mem_cons, not_or]
        exact ⟨fun hnul => hb hnul.symm, htext⟩

/-- The first of three tags that occurs. -/
def firstTag (text first second third : Text) : Option Text :=
  (strstr first text).or ((strstr second text).or (strstr third text))

theorem firstTag_suffix {first second third found : Text}
    (h : firstTag text first second third = some found) : found <:+ text := by
  rw [firstTag, Option.or_eq_some_iff, Option.or_eq_some_iff] at h
  obtain h | ⟨_, h | ⟨_, h⟩⟩ := h
  · exact (strstr_spec h).2
  · exact (strstr_spec h).2
  · exact (strstr_spec h).2

/-- The document's loop starts at the root tag and stops at its end. -/
theorem gameListParseXml_cstr (junk : List Char) (htext : nul ∉ text) (xmlSize : ℕ) :
    gameListParseXml (cstr junk text) xmlSize =
      parseEntries
        (((firstTag text "</applist>".toList "</games>".toList "</root>".toList).map
          (cstr junk)).getD ((cstr junk text).drop xmlSize)).length
        (cstr junk
          ((firstTag text "<applist>".toList "<games>".toList "<root>".toList).getD text))
        [] := by
  have hfind {needle : Text} (hneedle : needle ≠ [] ∧ nul ∉ needle) :
      findSubstring needle (cstr junk text) = some ((strstr needle text).map (cstr junk)) :=
    findSubstring_cstr junk hneedle.1 hneedle.2 htext
  rw [gameListParseXml, hfind (by decide), hfind (by decide), hfind (by decide),
    hfind (by decide), hfind (by decide), hfind (by decide)]
  simp only [orElse_some, Option.bind_some, ← Option.map_or, firstTag, Option.getD_map]

/-- Whatever bytes the document has, the parser comes to an end, reads nothing
behind the terminator and keeps at most 64 games. -/
theorem gameListParseXml_inside (bytes : List Char) (xmlSize : ℕ) :
    ∃ games, gameListParseXml (bytes ++ [nul]) xmlSize = some games ∧
      games.length ≤ 64 := by
  obtain ⟨text, junk, htext, heq⟩ := eq_cstr bytes
  rw [heq, gameListParseXml_cstr junk htext]
  apply parseEntries_cstr
  · cases hroot : firstTag text "<applist>".toList "<games>".toList "<root>".toList with
    | none => exact htext
    | some root => exact nul_notMem_of_suffix (firstTag_suffix hroot) htext
  · exact Nat.zero_le 64

end MoonlightPsp.GameList

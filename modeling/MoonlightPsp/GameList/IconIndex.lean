import MoonlightPsp.GameList.IconCache

/-!
# Reading the index back

An index that was written in full is read back to the entries that it was made from.  Where
the write was cut, the entries that are read are among them, but the day of the last one may
have lost some of its digits, and is earlier then.
-/

namespace MoonlightPsp.GameList

open Rtsp Config
open MoonlightPsp.Upnp (scanUnsigned)

/-! ## Numbers -/

variable {digits tail : Text} {n : ℕ}

/-- The digits are parted from what starts with none. -/
theorem digits_part (hdigits : ∀ c ∈ digits, c.isDigit = true)
    (htail : tail.takeWhile Char.isDigit = []) :
    (digits ++ tail).takeWhile Char.isDigit = digits ∧
      (digits ++ tail).dropWhile Char.isDigit = tail ∧
        leadingNumber (digits ++ tail) = leadingNumber digits := by
  have htake : (digits ++ tail).takeWhile Char.isDigit = digits := by
    rw [List.takeWhile_append_of_pos hdigits, htail, List.append_nil]
  refine ⟨htake, ?_, ?_⟩
  · have hsplit := @List.takeWhile_append_dropWhile _ Char.isDigit (digits ++ tail)
    rw [htake] at hsplit
    exact List.append_cancel_left hsplit
  · rw [leadingNumber, leadingNumber, htake, List.takeWhile_eq_self_iff.mpr hdigits]

/-- A number ends in front of what is no digit. -/
theorem scanInt_digits (hdigits : ∀ c ∈ digits, c.isDigit = true) (hne : digits ≠ [])
    (htail : tail.takeWhile Char.isDigit = []) :
    scanInt (digits ++ tail) = some ((leadingNumber digits : ℤ), tail) := by
  obtain ⟨htake, hdrop, hvalue⟩ := digits_part hdigits htail
  cases digits with
  | nil => exact absurd rfl hne
  | cons d ds =>
      obtain ⟨hspace, hminus, hplus⟩ := isSpace_of_isDigit (hdigits d List.mem_cons_self)
      rw [List.cons_append] at htake hdrop hvalue ⊢
      rw [scanInt, List.dropWhile_cons_of_neg (by simp [hspace])]
      split
      · rename_i heq
        exact absurd (List.cons.inj heq).1 hminus
      · rename_i heq
        exact absurd (List.cons.inj heq).1 hplus
      · simp only [htake, hdrop, hvalue, if_neg (List.cons_ne_nil d ds), Int.one_mul]

theorem scanInt_minus (hdigits : ∀ c ∈ digits, c.isDigit = true) (hne : digits ≠ [])
    (htail : tail.takeWhile Char.isDigit = []) :
    scanInt ('-' :: (digits ++ tail)) = some (-(leadingNumber digits : ℤ), tail) := by
  obtain ⟨htake, hdrop, hvalue⟩ := digits_part hdigits htail
  rw [scanInt, List.dropWhile_cons_of_neg (by decide)]
  simp only [htake, hdrop, hvalue, if_neg hne, Int.neg_one_mul]

/-- `sscanf` reads what `%d` wrote. -/
theorem scanInt_signed (v : ℤ) (htail : tail.takeWhile Char.isDigit = []) :
    scanInt (signed v ++ tail) = some (v, tail) := by
  cases v with
  | ofNat m =>
      rw [signed, scanInt_digits (fun c hc => isDigit_of_mem_decimal hc) (decimal_ne_nil m) htail,
        leadingNumber_decimal]
      rfl
  | negSucc m =>
      rw [signed, List.cons_append, scanInt_minus (fun c hc => isDigit_of_mem_decimal hc)
        (decimal_ne_nil (m + 1)) htail, leadingNumber_decimal, Int.negSucc_eq]
      rfl

theorem scanUnsigned_decimal {m : ℕ} (hm : m < 4294967296)
    (htail : tail.takeWhile Char.isDigit = []) :
    scanUnsigned (decimal m ++ tail) = some (m, tail) := by
  have hscan : scanInt (decimal m ++ tail) = some ((m : ℤ), tail) := scanInt_signed m htail
  have hsigned : ¬(m : ℤ) < 0 := by omega
  have hfits : ¬4294967295 < m := by omega
  simp only [scanUnsigned, hscan, Option.map_some, Int.natAbs_natCast, if_neg hsigned, if_neg hfits]

/-- Behind the digits of a cut number nothing is left. -/
theorem scanInt_cut (v : ℤ) (n : ℕ) {found : ℤ} {rest : Text}
    (h : scanInt ((signed v).take n) = some (found, rest)) : rest = [] := by
  have hall : ∀ m k : ℕ, ∀ c ∈ (decimal m).take k, c.isDigit = true := by
    intro m k c hc
    exact isDigit_of_mem_decimal (List.mem_of_mem_take hc)
  cases v with
  | ofNat m =>
      rw [signed] at h
      by_cases hne : (decimal m).take n = []
      · rw [hne] at h
        exact absurd h.symm (Option.some_ne_none _)
      · have hscan := @scanInt_digits _ [] (hall m n) hne rfl
        rw [List.append_nil, h] at hscan
        exact (Prod.mk.inj (Option.some.inj hscan)).2
  | negSucc m =>
      rw [signed] at h
      cases n with
      | zero => exact absurd h.symm (Option.some_ne_none _)
      | succ n =>
          rw [List.take_succ_cons] at h
          by_cases hne : (decimal (m + 1)).take n = []
          · rw [hne] at h
            exact absurd h.symm (Option.some_ne_none _)
          · have hscan := @scanInt_minus _ [] (hall (m + 1) n) hne rfl
            rw [List.append_nil, h] at hscan
            exact (Prod.mk.inj (Option.some.inj hscan)).2

theorem scanUnsigned_cut (m n : ℕ) {found : ℕ} {rest : Text}
    (h : scanUnsigned ((decimal m).take n) = some (found, rest)) : rest = [] := by
  rw [scanUnsigned, Option.map_eq_some_iff] at h
  obtain ⟨⟨v, behind⟩, hscan, hfound⟩ := h
  have hrest : behind = [] := scanInt_cut (.ofNat m) n hscan
  rw [← (Prod.mk.inj hfound).2, hrest]

/-- A cut number is no greater. -/
theorem leadingNumber_take_le (hdigits : ∀ c ∈ digits, c.isDigit = true) (n : ℕ) :
    leadingNumber (digits.take n) ≤ leadingNumber digits := by
  have hgrow : ∀ (cs : Text) (a : ℕ),
      a ≤ cs.foldl (fun value digit => 10 * value + (digit.toNat - 48)) a := by
    intro cs
    induction cs with
    | nil => exact fun a => Nat.le_refl a
    | cons c cs ih =>
        intro a
        refine Nat.le_trans ?_ (ih (10 * a + (c.toNat - 48)))
        omega
  have hfront : ∀ c ∈ digits.take n, c.isDigit = true := fun c hc =>
    hdigits c (List.mem_of_mem_take hc)
  rw [leadingNumber, leadingNumber, List.takeWhile_eq_self_iff.mpr hfront,
    List.takeWhile_eq_self_iff.mpr hdigits]
  conv_rhs => rw [← List.take_append_drop n digits, List.foldl_append]
  exact hgrow _ _

theorem scanUnsigned_cut_le {m n found : ℕ} {rest : Text} (hm : m < 4294967296)
    (h : scanUnsigned ((decimal m).take n) = some (found, rest)) : found ≤ m := by
  have hdigits : ∀ c ∈ decimal m, c.isDigit = true := fun c hc => isDigit_of_mem_decimal hc
  have hle := leadingNumber_take_le hdigits n
  rw [leadingNumber_decimal] at hle
  by_cases hne : (decimal m).take n = []
  · rw [hne] at h
    exact absurd h.symm (Option.some_ne_none _)
  · have hscan := @scanInt_digits _ [] (fun c hc => hdigits c (List.mem_of_mem_take hc)) hne rfl
    have hfits : ¬4294967295 < leadingNumber ((decimal m).take n) := by omega
    have hsigned : ¬(leadingNumber ((decimal m).take n) : ℤ) < 0 := by omega
    rw [List.append_nil] at hscan
    simp only [scanUnsigned, hscan, Option.map_some, Int.natAbs_natCast, if_neg hsigned,
      if_neg hfits] at h
    exact (Prod.mk.inj (Option.some.inj h)).1 ▸ hle

/-! ## Lines -/

variable {e : CacheEntry} {es : List CacheEntry} {rest : Text}

/-- The fields of a line. -/
theorem parseEntry_fields (id : ℤ) {hash day : ℕ} (hhash : hash < 4294967296)
    (hday : day < 4294967296) (htail : tail.takeWhile Char.isDigit = []) :
    parseEntry (signed id ++ ',' :: (decimal hash ++ ',' :: (decimal day ++ tail))) =
      some ⟨Int32.ofIntClamp id, UInt32.ofNat hash, UInt32.ofNat day⟩ := by
  have hcomma : ∀ text : Text, (',' :: text).takeWhile Char.isDigit = [] := fun _ => rfl
  simp only [parseEntry, scanInt_signed id (hcomma _), Option.bind_some, scanComma,
    scanUnsigned_decimal hhash (hcomma _), scanUnsigned_decimal hday htail, Option.map_some]

/-- A line without its end. -/
def fieldsText (e : CacheEntry) : Text :=
  signed e.appId.toInt ++ ',' :: (decimal e.urlHash.toNat ++ ',' :: decimal e.fetchDay.toNat)

theorem line_append (e : CacheEntry) (rest : Text) :
    e.line ++ rest = fieldsText e ++ '\n' :: rest := by
  simp [CacheEntry.line, fieldsText]

theorem mem_fieldsText {c : Char} (h : c ∈ fieldsText e) :
    c.isDigit = true ∨ c = '-' ∨ c = ',' := by
  rw [fieldsText] at h
  obtain h | h := List.mem_append.mp h
  · obtain h | h := mem_signed h
    · exact Or.inl h
    · exact Or.inr (Or.inl h)
  obtain rfl | h := List.mem_cons.mp h
  · exact Or.inr (Or.inr rfl)
  obtain h | h := List.mem_append.mp h
  · exact Or.inl (isDigit_of_mem_decimal h)
  obtain rfl | h := List.mem_cons.mp h
  · exact Or.inr (Or.inr rfl)
  · exact Or.inl (isDigit_of_mem_decimal h)

theorem ne_of_mem_fieldsText {c : Char} (h : c ∈ fieldsText e) : c ≠ '\n' ∧ c ≠ nul := by
  constructor
  · rintro rfl
    exact absurd (mem_fieldsText h) (by decide)
  · rintro rfl
    exact absurd (mem_fieldsText h) (by decide)

/-- A line is read back. -/
theorem parseEntry_line (e : CacheEntry) (rest : Text) : parseEntry (e.line ++ rest) = some e := by
  have hline : e.line ++ rest = signed e.appId.toInt ++ ',' :: (decimal e.urlHash.toNat ++
      ',' :: (decimal e.fetchDay.toNat ++ ('\n' :: rest))) := by
    simp [CacheEntry.line]
  rw [hline, parseEntry_fields _ (UInt32.toNat_lt _) (UInt32.toNat_lt _) rfl,
    Int32.ofIntClamp_toInt, UInt32.ofNat_toNat, UInt32.ofNat_toNat]

theorem behindLine_line (e : CacheEntry) (rest : Text) :
    behindLine (e.line ++ rest) = some rest := by
  have hskip : ∀ c ∈ fieldsText e, (c != '\n') = true := by
    intro c hc
    simpa using (ne_of_mem_fieldsText hc).1
  rw [line_append, behindLine, List.dropWhile_append_of_pos hskip]
  rfl

theorem behindLine_cut (e : CacheEntry) (n : ℕ) : behindLine ((fieldsText e).take n) = none := by
  have hskip : ∀ c ∈ (fieldsText e).take n, (c != '\n') = true := by
    intro c hc
    simpa using (ne_of_mem_fieldsText (List.mem_of_mem_take hc)).1
  rw [behindLine, List.dropWhile_eq_nil_iff.mpr hskip]
  rfl

/-- A field that is cut, or cut behind its comma. -/
theorem take_field (front back : Text) (n : ℕ) :
    (front ++ ',' :: back).take n = front.take n ∨
      ∃ k, (front ++ ',' :: back).take n = front ++ ',' :: back.take k := by
  obtain hle | hlt := le_or_gt n front.length
  · exact Or.inl (List.take_append_of_le_length hle)
  · obtain ⟨k, rfl⟩ := Nat.exists_eq_add_of_lt hlt
    refine Or.inr ⟨k, ?_⟩
    rw [Nat.add_assoc, List.take_length_add_append, List.take_succ_cons]

/-- A cut line gives no entry, or one with an earlier day. -/
theorem parseEntry_cut {f : CacheEntry} {n : ℕ} (h : parseEntry ((fieldsText e).take n) = some f) :
    f.appId = e.appId ∧ f.urlHash = e.urlHash ∧ f.fetchDay.toNat ≤ e.fetchDay.toNat := by
  have hcomma : ∀ text : Text, (',' :: text).takeWhile Char.isDigit = [] := fun _ => rfl
  have hhash : e.urlHash.toNat < 4294967296 := UInt32.toNat_lt _
  have hday : e.fetchDay.toNat < 4294967296 := UInt32.toNat_lt _
  rw [fieldsText] at h
  obtain hcut | ⟨k, hcut⟩ := take_field (signed e.appId.toInt)
    (decimal e.urlHash.toNat ++ ',' :: decimal e.fetchDay.toNat) n
  · rw [hcut, parseEntry] at h
    obtain ⟨⟨id, rest⟩, hscan, h⟩ := Option.bind_eq_some_iff.mp h
    obtain rfl := scanInt_cut _ _ hscan
    exact absurd h.symm (Option.some_ne_none f)
  rw [hcut] at h
  obtain hcut | ⟨k, hcut⟩ := take_field (decimal e.urlHash.toNat) (decimal e.fetchDay.toNat) k
  · rw [hcut] at h
    simp only [parseEntry, scanInt_signed _ (hcomma _), Option.bind_some, scanComma] at h
    obtain ⟨⟨hash, rest⟩, hscan, h⟩ := Option.bind_eq_some_iff.mp h
    obtain rfl := scanUnsigned_cut _ _ hscan
    exact absurd h.symm (Option.some_ne_none f)
  · rw [hcut] at h
    simp only [parseEntry, scanInt_signed _ (hcomma _), Option.bind_some, scanComma,
      scanUnsigned_decimal hhash (hcomma _)] at h
    obtain ⟨⟨day, rest⟩, hscan, rfl⟩ := Option.map_eq_some_iff.mp h
    have hle := scanUnsigned_cut_le hday hscan
    refine ⟨Int32.ofIntClamp_toInt _, UInt32.ofNat_toNat, ?_⟩
    exact Nat.le_trans (Nat.mod_le _ _) hle

/-! ## The index -/

theorem parseIndex_nil (room : ℕ) : parseIndex room [] = [] := by
  rw [parseIndex, if_pos (Or.inl rfl)]

/-- A line of the index. -/
theorem parseIndex_line (e : CacheEntry) (rest : Text) (room : ℕ) :
    parseIndex (room + 1) (e.line ++ rest) = e :: parseIndex room rest := by
  have hne : ¬(e.line ++ rest = [] ∨ room + 1 = 0) := by
    rw [line_append]
    simp
  rw [parseIndex, if_neg hne, parseEntry_line]
  simp only [Option.toList_some, List.singleton_append, List.length_singleton, Nat.add_sub_cancel]
  split
  · rename_i hnone
    rw [behindLine_line] at hnone
    exact absurd hnone (Option.some_ne_none rest)
  · rename_i behind hsome
    rw [behindLine_line] at hsome
    rw [Option.some.inj hsome]

/-- No more entries are read than there is room for. -/
theorem length_parseIndex_le (room : ℕ) (text : Text) : (parseIndex room text).length ≤ room := by
  induction hlength : text.length using Nat.strong_induction_on generalizing room text with
  | _ k ih =>
    subst hlength
    rw [parseIndex]
    split
    · exact Nat.zero_le room
    · rename_i hroom
      rw [List.length_append]
      have hfound : (parseEntry text).toList.length ≤ 1 := by
        cases parseEntry text with
        | none => exact Nat.zero_le 1
        | some e => exact Nat.le_refl 1
      split
      · rw [List.length_nil]
        omega
      · rename_i rest hrest
        have htail := ih _ (behindLine_shorter hrest) (room - (parseEntry text).toList.length) rest
          rfl
        omega

/-- The lines of some entries. -/
def linesText (es : List CacheEntry) : Text := (es.map CacheEntry.line).flatten

theorem linesText_cons : linesText (e :: es) = e.line ++ linesText es := rfl

theorem parseIndex_linesText {room : ℕ} (h : es.length ≤ room) :
    parseIndex room (linesText es) = es := by
  induction es generalizing room with
  | nil => exact parseIndex_nil room
  | cons e es ih =>
      rw [List.length_cons] at h
      obtain ⟨k, rfl⟩ := Nat.exists_eq_succ_of_ne_zero (Nat.ne_of_gt (Nat.zero_lt_of_lt h))
      rw [linesText_cons, parseIndex_line, ih (Nat.le_of_succ_le_succ h)]

/-- What is read of cut lines. -/
theorem parseIndex_cut {f : CacheEntry} {room n : ℕ}
    (h : f ∈ parseIndex room ((linesText es).take n)) :
    ∃ e ∈ es, f.appId = e.appId ∧ f.urlHash = e.urlHash ∧ f.fetchDay.toNat ≤ e.fetchDay.toNat := by
  induction es generalizing room n with
  | nil =>
      rw [linesText, List.map_nil, List.flatten_nil, List.take_nil, parseIndex_nil] at h
      exact absurd h List.not_mem_nil
  | cons e es ih =>
      cases room with
      | zero =>
          rw [parseIndex, if_pos (Or.inr rfl)] at h
          exact absurd h List.not_mem_nil
      | succ room =>
          rw [linesText_cons] at h
          obtain hcut | hwhole := le_or_gt n (fieldsText e).length
          · rw [line_append, List.take_append_of_le_length hcut, parseIndex] at h
            split at h
            · exact absurd h List.not_mem_nil
            · rw [List.mem_append] at h
              obtain h | h := h
              · exact ⟨e, List.mem_cons_self, parseEntry_cut (Option.mem_toList.mp h)⟩
              · split at h
                · exact absurd h List.not_mem_nil
                · rename_i rest hrest
                  rw [behindLine_cut] at hrest
                  exact absurd hrest.symm (Option.some_ne_none rest)
          · obtain ⟨k, rfl⟩ := Nat.exists_eq_add_of_lt hwhole
            rw [line_append, Nat.add_assoc, List.take_length_add_append, List.take_succ_cons,
              ← line_append, parseIndex_line] at h
            obtain rfl | h := List.mem_cons.mp h
            · exact ⟨f, List.mem_cons_self, rfl, rfl, Nat.le_refl _⟩
            · obtain ⟨e', he', hle⟩ := ih h
              exact ⟨e', List.mem_cons_of_mem e he', hle⟩

theorem length_line_le (e : CacheEntry) : e.line.length ≤ 34 := by
  have hid : (signed e.appId.toInt).length ≤ 11 :=
    length_signed_le (Int32.le_toInt e.appId) (by have := Int32.toInt_lt e.appId; omega)
  have hhash : (decimal e.urlHash.toNat).length ≤ 10 := by
    have hlt := e.urlHash.toNat_lt
    exact length_decimal_le (by decide) (by omega)
  have hday : (decimal e.fetchDay.toNat).length ≤ 10 := by
    have hlt := e.fetchDay.toNat_lt
    exact length_decimal_le (by decide) (by omega)
  simp only [CacheEntry.line, List.length_append, List.length_cons, List.length_nil]
  omega

theorem length_linesText_le (es : List CacheEntry) : (linesText es).length ≤ 34 * es.length := by
  induction es with
  | nil => exact Nat.le_refl 0
  | cons e es ih =>
      have hline := length_line_le e
      rw [linesText_cons, List.length_append, List.length_cons]
      omega

/-- The buffer of `save_index` is never full. -/
theorem renderIndex_eq {pos : ℕ} (h : pos + 34 * es.length ≤ 4056) :
    renderIndex pos es = linesText es := by
  induction es generalizing pos with
  | nil => rfl
  | cons e es ih =>
      have hline := length_line_le e
      rw [List.length_cons] at h
      rw [renderIndex, if_pos (by omega), ih (by omega), linesText_cons]

theorem nul_not_mem_linesText : nul ∉ linesText es := by
  intro h
  obtain ⟨text, htext, hmem⟩ := List.mem_flatten.mp h
  obtain ⟨e, _, rfl⟩ := List.mem_map.mp htext
  have hline := line_append e []
  rw [List.append_nil] at hline
  rw [hline] at hmem
  obtain hmem | hmem := List.mem_append.mp hmem
  · exact (ne_of_mem_fieldsText hmem).2 rfl
  · exact absurd (List.mem_singleton.mp hmem) (by decide)

/-- The buffer of `load_index` holds all that was written. -/
theorem readIndex_take (h : es.length ≤ maxCacheEntries) (n : ℕ) :
    readIndex ((renderIndex 0 es).take n) = parseIndex maxCacheEntries ((linesText es).take n) := by
  have hcount : es.length ≤ 64 := h
  have hlength := length_linesText_le es
  have hfits : ((linesText es).take n).length ≤ 4095 := by
    have hle := List.length_take_le n (linesText es)
    rw [List.length_take]
    omega
  have hplain : ∀ c ∈ (linesText es).take n, (c != nul) = true := by
    intro c hc
    have hmem := List.mem_of_mem_take hc
    have hne : c ≠ nul := fun hnul => nul_not_mem_linesText (hnul ▸ hmem)
    simpa using hne
  rw [readIndex, renderIndex_eq (by omega), List.take_of_length_le hfits,
    List.takeWhile_eq_self_iff.mpr hplain]

/-- An index that was written in full is read back. -/
theorem readIndex_renderIndex (h : es.length ≤ maxCacheEntries) :
    readIndex (renderIndex 0 es) = es := by
  have hread := readIndex_take h (renderIndex 0 es).length
  have hcount : es.length ≤ 64 := h
  rw [List.take_length, renderIndex_eq (by omega), List.take_length] at hread
  rw [renderIndex_eq (by omega), hread, parseIndex_linesText h]

/-- Of an index that was cut, each entry that is read is one of those written, and no younger. -/
theorem mem_readIndex_cut (h : es.length ≤ maxCacheEntries) {n : ℕ} {f : CacheEntry}
    (hf : f ∈ readIndex ((renderIndex 0 es).take n)) :
    ∃ e ∈ es, f.appId = e.appId ∧ f.urlHash = e.urlHash ∧ f.fetchDay.toNat ≤ e.fetchDay.toNat := by
  rw [readIndex_take h] at hf
  exact parseIndex_cut hf

theorem length_readIndex_le (text : Text) : (readIndex text).length ≤ maxCacheEntries :=
  length_parseIndex_le _ _

end MoonlightPsp.GameList

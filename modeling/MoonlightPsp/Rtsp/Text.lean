import Mathlib.Data.Nat.Notation
import Mathlib.Data.Int.Notation
import Mathlib.Tactic.Common

/-!
# Texts

A C string is the list of its characters.  The functions here are those of the
C library that requests are written and responses read with.
-/

namespace MoonlightPsp.Rtsp

/-- A C string, without its terminator. -/
abbrev Text := List Char

/-- `strstr`: the text from the first occurrence of `needle` on. -/
def strstr (needle : Text) : Text → Option Text
  | [] => if needle = [] then some [] else none
  | c :: cs =>
      if needle.isPrefixOf (c :: cs) then some (c :: cs) else strstr needle cs

/-- Whether `needle` occurs. -/
def contains (needle text : Text) : Bool := (strstr needle text).isSome

/-- The text after the first occurrence of `needle`. -/
def after (needle text : Text) : Option Text :=
  (strstr needle text).map fun rest => rest.drop needle.length

/-- The text before the first occurrence of `needle`, or all of it. -/
def before (needle text : Text) : Text :=
  match strstr needle text with
  | none => text
  | some rest => text.take (text.length - rest.length)

/-- `snprintf` into a buffer of `size` bytes. -/
def snprintf (size : ℕ) (text : Text) : Text := text.take (size - 1)

/-- `%d` of a number that is not negative. -/
def decimal (n : ℕ) : Text := (Nat.repr n).toList

/-- The value of the decimal digits at the start. -/
def leadingNumber (text : Text) : ℕ :=
  (text.takeWhile Char.isDigit).foldl
    (fun value digit => 10 * value + (digit.toNat - 48)) 0

/-- `isspace`. -/
def isSpace (c : Char) : Bool :=
  c == ' ' || decide (9 ≤ c.toNat ∧ c.toNat ≤ 13)

/-- `atoi`. -/
def atoi (text : Text) : ℤ :=
  match text.dropWhile isSpace with
  | '-' :: rest => -(leadingNumber rest : ℤ)
  | '+' :: rest => leadingNumber rest
  | rest => leadingNumber rest

/-- One `%d` of `sscanf`: the value and the rest, if there is a digit. -/
def scanInt (text : Text) : Option (ℤ × Text) :=
  let digitsOf (sign : ℤ) (rest : Text) : Option (ℤ × Text) :=
    if (rest.takeWhile Char.isDigit) = [] then none
    else some (sign * (leadingNumber rest : ℤ), rest.dropWhile Char.isDigit)
  match text.dropWhile isSpace with
  | '-' :: rest => digitsOf (-1) rest
  | '+' :: rest => digitsOf 1 rest
  | rest => digitsOf 1 rest

/-! ## First occurrences -/

variable {needle text rest digits : Text}

theorem strstr_spec (h : strstr needle text = some rest) :
    needle <+: rest ∧ rest <:+ text := by
  induction text with
  | nil =>
      rw [strstr] at h
      split at h
      · rename_i hnil
        obtain rfl := Option.some.inj h
        rw [hnil]
        exact ⟨List.prefix_rfl, List.suffix_rfl⟩
      · exact nomatch h
  | cons c cs ih =>
      rw [strstr] at h
      split at h
      · rename_i hfront
        obtain rfl := Option.some.inj h
        exact ⟨List.isPrefixOf_iff_prefix.mp hfront, List.suffix_rfl⟩
      · obtain ⟨hfront, hsuffix⟩ := ih h
        exact ⟨hfront, hsuffix.trans (List.suffix_cons c cs)⟩

/-- What comes behind a text does not change its first occurrence. -/
theorem strstr_append (h : strstr needle text = some rest) (more : Text) :
    strstr needle (text ++ more) = some (rest ++ more) := by
  induction text with
  | nil =>
      rw [strstr] at h
      split at h
      · rename_i hnil
        obtain rfl := Option.some.inj h
        rw [hnil]
        cases more with
        | nil => rfl
        | cons c cs => rfl
      · exact nomatch h
  | cons c cs ih =>
      rw [strstr] at h
      rw [List.cons_append, strstr]
      split at h
      · rename_i hfront
        obtain rfl := Option.some.inj h
        have hlong : needle <+: c :: (cs ++ more) :=
          (List.isPrefixOf_iff_prefix.mp hfront).trans (List.prefix_append _ more)
        rw [if_pos (List.isPrefixOf_iff_prefix.mpr hlong)]
        rfl
      · rename_i hfront
        obtain ⟨hneedle, hsuffix⟩ := strstr_spec h
        have hlen : needle.length ≤ (c :: cs).length :=
          Nat.le_succ_of_le (Nat.le_trans hneedle.length_le hsuffix.length_le)
        have hshort : ¬needle.isPrefixOf (c :: (cs ++ more)) = true := by
          intro hlong
          refine hfront (List.isPrefixOf_iff_prefix.mpr ?_)
          exact List.prefix_of_prefix_length_le
            (List.isPrefixOf_iff_prefix.mp hlong)
            (List.prefix_append (c :: cs) more) hlen
        rw [if_neg hshort, ih h]

/-- A text that ends with its first occurrence has none before its end. -/
theorem strstr_take (h : strstr needle text = some needle) {k : ℕ}
    (hk : k < text.length) : strstr needle (text.take k) = none := by
  cases hfirst : strstr needle (text.take k) with
  | none => rfl
  | some first =>
      have hwhole := strstr_append hfirst (text.drop k)
      rw [List.take_append_drop, h, Option.some.injEq] at hwhole
      have hlen := congrArg List.length hwhole
      have hle := (strstr_spec hfirst).1.length_le
      rw [List.length_append, List.length_drop] at hlen
      omega

theorem after_append (h : after needle text = some rest) (more : Text) :
    after needle (text ++ more) = some (rest ++ more) := by
  rw [after, Option.map_eq_some_iff] at h
  obtain ⟨first, hfirst, rfl⟩ := h
  rw [after, strstr_append hfirst, Option.map_some,
    List.drop_append_of_le_length (strstr_spec hfirst).1.length_le]

theorem isSpace_of_isDigit {c : Char} (h : c.isDigit = true) :
    isSpace c = false ∧ c ≠ '-' ∧ c ≠ '+' := by
  simp only [Char.isDigit, Bool.and_eq_true, decide_eq_true_eq] at h
  have hge : 48 ≤ c.toNat := UInt32.le_iff_toNat_le.mp h.1
  refine ⟨?_, ?_, ?_⟩
  · have hblank : c ≠ ' ' := by
      rintro rfl
      exact absurd hge (by decide)
    have hcontrol : ¬(9 ≤ c.toNat ∧ c.toNat ≤ 13) := by omega
    simp [isSpace, hblank, hcontrol]
  · rintro rfl
    exact absurd hge (by decide)
  · rintro rfl
    exact absurd hge (by decide)

theorem leadingNumber_append (hdigits : ∀ c ∈ digits, c.isDigit = true) :
    leadingNumber (digits ++ ("\r\n".toList ++ rest)) = leadingNumber digits := by
  have hall : digits.takeWhile Char.isDigit = digits := by
    have h : (digits ++ []).takeWhile Char.isDigit = digits ++ [].takeWhile Char.isDigit :=
      List.takeWhile_append_of_pos hdigits
    rwa [List.append_nil, List.takeWhile_nil, List.append_nil] at h
  have hline : ("\r\n".toList ++ rest).takeWhile Char.isDigit = [] := rfl
  rw [leadingNumber, leadingNumber, List.takeWhile_append_of_pos hdigits, hline,
    List.append_nil, hall]

/-- The spaces in front of a number. -/
theorem dropSpaces_append {spaces : Text} (hspaces : ∀ c ∈ spaces, c = ' ')
    (hne : digits ≠ []) (hdigits : ∀ c ∈ digits, c.isDigit = true) (rest : Text) :
    (spaces ++ (digits ++ rest)).dropWhile (· == ' ') = digits ++ rest := by
  rw [List.dropWhile_append_of_pos fun c hc => by simpa using hspaces c hc]
  cases digits with
  | nil => exact absurd rfl hne
  | cons d ds =>
      have hdigit : d ≠ ' ' := by
        rintro rfl
        exact absurd (hdigits ' ' List.mem_cons_self) (by decide)
      rw [List.cons_append, List.dropWhile_cons_of_neg (by simpa using hdigit)]

/-- The number in front of a line end. -/
theorem atoi_digits (hne : digits ≠ []) (hdigits : ∀ c ∈ digits, c.isDigit = true) :
    atoi (digits ++ ("\r\n".toList ++ rest)) = leadingNumber digits := by
  have hleading : leadingNumber (digits ++ ("\r\n".toList ++ rest)) =
      leadingNumber digits := leadingNumber_append hdigits
  rw [← hleading]
  cases digits with
  | nil => exact absurd rfl hne
  | cons d ds =>
      obtain ⟨hspace, hminus, hplus⟩ :=
        isSpace_of_isDigit (hdigits d List.mem_cons_self)
      rw [atoi, List.cons_append, List.dropWhile_cons_of_neg (by simp [hspace])]
      split
      · rename_i heq
        exact absurd (List.cons.inj heq).1 hminus
      · rename_i heq
        exact absurd (List.cons.inj heq).1 hplus
      · rfl

end MoonlightPsp.Rtsp

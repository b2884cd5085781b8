import Mathlib.Data.List.DropRight
import MoonlightPsp.Config.PairedHosts

/-!
# The text of a configuration file

`config.c` reads the file line by line and takes what follows the first equals
sign of a line, trimmed, for the value.
-/

namespace MoonlightPsp.Config

open Rtsp

/-- What `trimWhitespace` cuts off. -/
def isBlank (c : Char) : Bool := c == ' ' || c == '\t' || c == '\r' || c == '\n'

/-- `trimWhitespace`. -/
def trimWhitespace (str : Text) : Text := (str.dropWhile isBlank).rdropWhile isBlank

/-- The text behind the first `=`. -/
def afterEquals (line : Text) : Option Text := (line.dropWhile (· != '=')).tail?

/-- `parseIntValue`. -/
def parseIntValue (line : Text) : Option ℤ :=
  (afterEquals line).map fun value => atoi (trimWhitespace value)

/-- `parseStringValue` into a field of `maxLen` bytes. -/
def parseStringValue (maxLen : ℕ) [NeZero maxLen] (line : Text) : Option (Field maxLen) :=
  (afterEquals line).map fun value => Field.strncpy maxLen (trimWhitespace value)

/-- `%d`. -/
def signed : ℤ → Text
  | .ofNat n => decimal n
  | .negSucc n => '-' :: decimal (n + 1)

/-- A line of the buffer, of at most 255 characters, and what is left behind it
and its line end. -/
def nextLine (buffer : Text) : Text × Text :=
  let line := (buffer.takeWhile (· != '\n')).take 255
  let rest := buffer.drop line.length
  (line, if rest.head? = some '\n' then rest.tail else rest)

theorem nextLine_shorter {buffer : Text} (h : buffer ≠ []) :
    (nextLine buffer).2.length < buffer.length := by
  cases buffer with
  | nil => exact absurd rfl h
  | cons c buffer =>
      by_cases hc : c = '\n'
      · subst c
        simp [nextLine]
      · have hpos : 0 < (((c :: buffer).takeWhile (· != '\n')).take 255).length := by
          simp [hc]
        have hlen : (c :: buffer).length = buffer.length + 1 := List.length_cons
        simp only [nextLine]
        split
        · rw [List.length_tail, List.length_drop]
          omega
        · rw [List.length_drop]
          omega

/-- The lines that the loop of `loadConfig` goes through. -/
def fileLines (buffer : Text) : List Text :=
  if _h : buffer = [] then []
  else (nextLine buffer).1 :: fileLines (nextLine buffer).2
termination_by buffer.length
decreasing_by exact nextLine_shorter _h

/-- A text without a line break and with no blank at either end. -/
structure Plain (text : Text) : Prop where
  oneLine : '\n' ∉ text
  noLeading : ∀ c ∈ text.head?, isBlank c = false
  noTrailing : ∀ c ∈ text.getLast?, isBlank c = false

theorem all_not_blank {found : Option Char} :
    found.all (fun c => !isBlank c) = true ↔ ∀ c ∈ found, isBlank c = false := by
  cases found with
  | none => simp
  | some c => simp

theorem plain_iff {text : Text} :
    Plain text ↔ '\n' ∉ text ∧ text.head?.all (fun c => !isBlank c) = true ∧
      text.getLast?.all (fun c => !isBlank c) = true := by
  rw [all_not_blank, all_not_blank]
  exact ⟨fun h => ⟨h.oneLine, h.noLeading, h.noTrailing⟩, fun h => ⟨h.1, h.2.1, h.2.2⟩⟩

instance (text : Text) : Decidable (Plain text) := decidable_of_iff' _ plain_iff

/-! ## Reading back -/

variable {key value text line : Text}

theorem afterEquals_append (hkey : '=' ∉ key) (value : Text) :
    afterEquals (key ++ '=' :: value) = some value := by
  have hskip : ∀ c ∈ key, (c != '=') = true := by
    intro c hc
    have hne : c ≠ '=' := by
      rintro rfl
      exact hkey hc
    simpa using hne
  rw [afterEquals, List.dropWhile_append_of_pos hskip]
  rfl

theorem trimWhitespace_of_ends (hhead : ∀ c ∈ text.head?, isBlank c = false)
    (hlast : ∀ c ∈ text.getLast?, isBlank c = false) : trimWhitespace text = text := by
  have hfront : text.dropWhile isBlank = text := by
    cases text with
    | nil => rfl
    | cons c text =>
        exact List.dropWhile_cons_of_neg (by simp [hhead c rfl])
  rw [trimWhitespace, hfront, List.rdropWhile_eq_self_iff]
  intro hne
  have hblank := hlast (text.getLast hne) (List.getLast?_eq_getLast_of_ne_nil hne)
  simp [hblank]

theorem Plain.trim (h : Plain text) : trimWhitespace text = text :=
  trimWhitespace_of_ends h.noLeading h.noTrailing

theorem rdropWhile_append (p : Char → Bool) (front back : Text) :
    (front ++ back).rdropWhile p =
      if (back.rdropWhile p).isEmpty then front.rdropWhile p
      else front ++ back.rdropWhile p := by
  simp only [List.rdropWhile, List.reverse_append, List.dropWhile_append,
    List.isEmpty_reverse]
  split
  · rfl
  · rw [List.reverse_append, List.reverse_reverse]

/-- Both ends can be trimmed in either order. -/
theorem dropWhile_rdropWhile (p : Char → Bool) (text : Text) :
    (text.rdropWhile p).dropWhile p = (text.dropWhile p).rdropWhile p := by
  induction text with
  | nil => rfl
  | cons c text ih =>
      have hcons := rdropWhile_append p [c] text
      rw [List.singleton_append] at hcons
      by_cases hc : p c = true
      · rw [List.dropWhile_cons_of_pos hc, ← ih, hcons]
        split
        · rename_i hempty
          rw [List.isEmpty_iff.mp hempty, List.rdropWhile_singleton, if_pos hc]
        · rw [List.singleton_append, List.dropWhile_cons_of_pos hc]
      · rw [List.dropWhile_cons_of_neg hc, hcons]
        split
        · rw [List.rdropWhile_singleton, if_neg hc, List.dropWhile_cons_of_neg hc]
        · rw [List.singleton_append, List.dropWhile_cons_of_neg hc]

/-- A line in front of its line end is read whole. -/
theorem fileLines_append (hline : '\n' ∉ line) (hlen : line.length ≤ 255) (rest : Text) :
    fileLines (line ++ '\n' :: rest) = line :: fileLines rest := by
  have htake : (line ++ '\n' :: rest).takeWhile (· != '\n') = line := by
    have hskip : ∀ c ∈ line, (c != '\n') = true := by
      intro c hc
      have hne : c ≠ '\n' := by
        rintro rfl
        exact hline hc
      simpa using hne
    rw [List.takeWhile_append_of_pos hskip]
    simp
  have hnext : nextLine (line ++ '\n' :: rest) = (line, rest) := by
    simp [nextLine, htake, List.take_of_length_le hlen]
  rw [fileLines, dif_neg (by simp), hnext]

/-! ## Numbers -/

theorem isDigit_of_mem_decimal {n : ℕ} {c : Char} (h : c ∈ decimal n) :
    c.isDigit = true := by
  rw [decimal, Nat.toList_repr] at h
  exact Nat.isDigit_of_mem_toDigits (by omega) (by omega) h

theorem leadingNumber_decimal (n : ℕ) : leadingNumber (decimal n) = n := by
  have hall : (decimal n).takeWhile Char.isDigit = decimal n :=
    List.takeWhile_eq_self_iff.mpr fun c hc => isDigit_of_mem_decimal hc
  rw [leadingNumber, hall, decimal, Nat.toList_repr]
  exact Nat.ofDigitChars_ten_toDigits

theorem decimal_ne_nil (n : ℕ) : decimal n ≠ [] := by
  rw [decimal, Nat.toList_repr]
  exact Nat.toDigits_ne_nil

theorem signed_ne_nil (n : ℤ) : signed n ≠ [] := by
  cases n with
  | ofNat n => exact decimal_ne_nil n
  | negSucc n => exact List.cons_ne_nil _ _

theorem mem_signed {n : ℤ} {c : Char} (h : c ∈ signed n) : c.isDigit = true ∨ c = '-' := by
  cases n with
  | ofNat n => exact Or.inl (isDigit_of_mem_decimal h)
  | negSucc n =>
      obtain rfl | hc := List.mem_cons.mp h
      · exact Or.inr rfl
      · exact Or.inl (isDigit_of_mem_decimal hc)

/-- A character of a number is neither a blank nor a line end. -/
theorem not_blank_of_mem_signed {n : ℤ} {c : Char} (h : c ∈ signed n) :
    isBlank c = false := by
  obtain hdigit | rfl := mem_signed h
  · have hspace := (isSpace_of_isDigit hdigit).1
    simp only [isSpace, Bool.or_eq_false_iff, decide_eq_false_iff_not] at hspace
    simp only [isBlank, Bool.or_eq_false_iff]
    refine ⟨⟨⟨hspace.1, ?_⟩, ?_⟩, ?_⟩
    · simpa using fun hc : c = '\t' => hspace.2 (by rw [hc]; decide)
    · simpa using fun hc : c = '\r' => hspace.2 (by rw [hc]; decide)
    · simpa using fun hc : c = '\n' => hspace.2 (by rw [hc]; decide)
  · rfl

theorem length_decimal_le {n k : ℕ} (hk : 0 < k) (h : n < 10 ^ k) :
    (decimal n).length ≤ k := by
  rw [decimal, Nat.toList_repr]
  exact (Nat.length_toDigits_le_iff (by omega) hk).mpr h

/-- A 32-bit number takes at most eleven characters. -/
theorem length_signed_le {n : ℤ} (hlow : -2147483648 ≤ n) (hhigh : n ≤ 2147483647) :
    (signed n).length ≤ 11 := by
  cases n with
  | ofNat n =>
      have hlen : (decimal n).length ≤ 10 :=
        length_decimal_le (by omega) (by have := Int.ofNat_eq_natCast n; omega)
      exact Nat.le_succ_of_le hlen
  | negSucc n =>
      have hlen : (decimal (n + 1)).length ≤ 10 :=
        length_decimal_le (by omega) (by omega)
      exact Nat.succ_le_succ hlen

theorem atoi_decimal (n : ℕ) : atoi (decimal n) = n := by
  cases hdigits : decimal n with
  | nil => exact absurd hdigits (decimal_ne_nil n)
  | cons d ds =>
      obtain ⟨hspace, hminus, hplus⟩ := isSpace_of_isDigit
        (isDigit_of_mem_decimal (hdigits ▸ List.mem_cons_self : d ∈ decimal n))
      rw [atoi, List.dropWhile_cons_of_neg (by simp [hspace])]
      split
      · rename_i heq
        exact absurd (List.cons.inj heq).1 hminus
      · rename_i heq
        exact absurd (List.cons.inj heq).1 hplus
      · rw [← hdigits, leadingNumber_decimal]

/-- `atoi` reads what `%d` wrote. -/
theorem atoi_signed (n : ℤ) : atoi (signed n) = n := by
  cases n with
  | ofNat n => exact atoi_decimal n
  | negSucc n =>
      have hneg : atoi (signed (.negSucc n)) = -(leadingNumber (decimal (n + 1)) : ℤ) := rfl
      rw [hneg, leadingNumber_decimal, Int.negSucc_eq]
      rfl

theorem trimWhitespace_signed (n : ℤ) : trimWhitespace (signed n) = signed n := by
  apply trimWhitespace_of_ends
  · intro c hc
    exact not_blank_of_mem_signed (List.mem_of_mem_head? hc)
  · intro c hc
    exact not_blank_of_mem_signed (List.mem_of_mem_getLast? hc)

end MoonlightPsp.Config

import Mathlib.Data.Nat.Notation
import Mathlib.Data.List.Basic
import Mathlib.Tactic.Common

/-!
# Emulation prevention

In a unit of an Annex B stream two zero bytes are not followed by a byte up to
three, unless that is a three put in to separate them from one.  `escape` puts
these bytes in, and `unescape` takes them out of a unit that is legal.
-/

namespace EmulationPrevention

/-- The number of zero bytes at the end, after one more byte. -/
def zerosAfter (zeros : ℕ) (x : UInt8) : ℕ := if x = 0 then zeros + 1 else 0

/-- Bytes with threes put in, behind a number of zero bytes. -/
def escapeFrom : ℕ → List UInt8 → List UInt8
  | _, [] => []
  | zeros, x :: xs =>
      if zeros = 2 ∧ x ≤ 3 then 3 :: x :: escapeFrom (zerosAfter 0 x) xs
      else x :: escapeFrom (zerosAfter zeros x) xs

/-- Bytes with threes put in. -/
def escape (xs : List UInt8) : List UInt8 := escapeFrom 0 xs

/-- The bytes of a legal unit without the threes, behind a number of zero
bytes. -/
def unescapeFrom : ℕ → List UInt8 → Option (List UInt8)
  | _, [] => some []
  | zeros, x :: xs =>
      if zeros = 2 ∧ x = 3 then
        if (xs.head?.any (· ≤ 3)) then unescapeFrom 0 xs else none
      else if zeros = 2 ∧ x < 3 then none
      else (unescapeFrom (zerosAfter zeros x) xs).map (x :: ·)

/-- The bytes of a legal unit without the threes. -/
def unescape (xs : List UInt8) : Option (List UInt8) := unescapeFrom 0 xs

/-- A start code or another run of zeros in the unit, or a three that separates
nothing. -/
inductive IllegalEscape (xs : List UInt8) : Prop
  | run (front back : List UInt8) (x : UInt8) (h : x < 3)
      (hxs : xs = front ++ 0 :: 0 :: x :: back)
  | before (front back : List UInt8) (x : UInt8) (h : 3 < x)
      (hxs : xs = front ++ 0 :: 0 :: 3 :: x :: back)
  | atEnd (front : List UInt8) (hxs : xs = front ++ [0, 0, 3])

variable {zeros : ℕ} {x : UInt8} {xs ys : List UInt8}

theorem zerosAfter_le (h : zeros ≤ 2) (hx : zeros = 2 → x ≠ 0) :
    zerosAfter zeros x ≤ 2 := by
  unfold zerosAfter
  split
  · rename_i hzero
    have hne : zeros ≠ 2 := fun heq => hx heq hzero
    omega
  · omega

/-- What was put in is taken out. -/
theorem unescapeFrom_escapeFrom (xs : List UInt8) (h : zeros ≤ 2) :
    unescapeFrom zeros (escapeFrom zeros xs) = some xs := by
  induction xs generalizing zeros with
  | nil => rfl
  | cons x xs ih =>
      rw [escapeFrom]
      split
      · rename_i hput
        have hzeros : zerosAfter 0 x ≤ 2 := zerosAfter_le (by omega) (by omega)
        have hlegal : ((x :: escapeFrom (zerosAfter 0 x) xs).head?.any
            (· ≤ 3)) = true := by simp [hput.2]
        rw [unescapeFrom, if_pos ⟨hput.1, rfl⟩, if_pos hlegal, unescapeFrom,
          if_neg (by simp), if_neg (by simp), ih hzeros]
        rfl
      · rename_i hkeep
        have hthree : ¬ (zeros = 2 ∧ x = 3) := by
          rintro ⟨hz, rfl⟩
          exact hkeep ⟨hz, by decide⟩
        have hsmall : ¬ (zeros = 2 ∧ x < 3) := by
          rintro ⟨hz, hx⟩
          exact hkeep ⟨hz, UInt8.le_of_lt hx⟩
        have hzeros : zerosAfter zeros x ≤ 2 :=
          zerosAfter_le h fun hz hx => hkeep ⟨hz, by rw [hx]; decide⟩
        rw [unescapeFrom, if_neg hthree, if_neg hsmall, ih hzeros]
        rfl

theorem unescape_escape (xs : List UInt8) : unescape (escape xs) = some xs :=
  unescapeFrom_escapeFrom xs (by omega)

/-- A legal unit has its threes exactly where they are put in. -/
theorem escapeFrom_unescapeFrom (h : unescapeFrom zeros xs = some ys) (hzeros : zeros ≤ 2) :
    escapeFrom zeros ys = xs := by
  induction xs generalizing zeros ys with
  | nil =>
      cases h
      rfl
  | cons x xs ih =>
      rw [unescapeFrom] at h
      split at h
      · rename_i hthree
        split at h
        · rename_i hnext
          have hback := ih h (by omega)
          -- The next byte is there, and nothing separates it but this three.
          cases ys with
          | nil =>
              rw [← hback] at hnext
              cases hnext
          | cons y ys =>
              rw [escapeFrom, if_neg (by omega)] at hback
              rw [← hback] at hnext
              have hle : y ≤ 3 := of_decide_eq_true hnext
              rw [escapeFrom, if_pos ⟨hthree.1, hle⟩, hback, hthree.2]
        · cases h
      · rename_i hthree
        split at h
        · cases h
        · rename_i hsmall
          obtain ⟨ys, hys, rfl⟩ := Option.map_eq_some_iff.mp h
          have hkeep : ¬ (zeros = 2 ∧ x ≤ 3) := by
            rintro ⟨hz, hx⟩
            rcases UInt8.lt_or_eq_of_le hx with hlt | heq
            · exact hsmall ⟨hz, hlt⟩
            · exact hthree ⟨hz, heq⟩
          have hafter : zerosAfter zeros x ≤ 2 := by
            apply zerosAfter_le hzeros
            rintro hz rfl
            exact hkeep ⟨hz, by decide⟩
          rw [escapeFrom, if_neg hkeep, ih hys hafter]

theorem escape_of_unescape (h : unescape xs = some ys) : escape ys = xs :=
  escapeFrom_unescapeFrom h (by omega)

theorem length_le_of_unescapeFrom (h : unescapeFrom zeros xs = some ys) :
    ys.length ≤ xs.length := by
  induction xs generalizing zeros ys with
  | nil =>
      cases h
      simp
  | cons x xs ih =>
      rw [unescapeFrom] at h
      split at h
      · split at h
        · have := ih h
          rw [List.length_cons]
          omega
        · cases h
      · split at h
        · cases h
        · obtain ⟨zs, hzs, rfl⟩ := Option.map_eq_some_iff.mp h
          have := ih hzs
          rw [List.length_cons, List.length_cons]
          omega

/-- Without the threes a unit is not longer. -/
theorem length_le_of_unescape (h : unescape xs = some ys) :
    ys.length ≤ xs.length := length_le_of_unescapeFrom h

/-- The last byte of a unit is not taken out. -/
theorem getLast?_of_unescapeFrom (h : unescapeFrom zeros xs = some ys) (hne : xs ≠ []) :
    ys.getLast? = xs.getLast? := by
  induction xs generalizing zeros ys with
  | nil => exact absurd rfl hne
  | cons x xs ih =>
      rw [unescapeFrom] at h
      split at h
      · split at h
        · rename_i hnext
          have hxs : xs ≠ [] := by
            rintro rfl
            simp at hnext
          rw [ih h hxs, List.getLast?_cons_of_ne_nil hxs]
        · cases h
      · split at h
        · cases h
        · obtain ⟨zs, hzs, rfl⟩ := Option.map_eq_some_iff.mp h
          by_cases hxs : xs = []
          · subst hxs
            cases hzs
            rfl
          · have hlast := ih hzs hxs
            have hzs' : zs ≠ [] := by
              rintro rfl
              rw [List.getLast?_nil, eq_comm, List.getLast?_eq_none_iff] at hlast
              exact hxs hlast
            rw [List.getLast?_cons_of_ne_nil hzs', List.getLast?_cons_of_ne_nil hxs, hlast]

/-- What makes a unit illegal makes it illegal behind other bytes. -/
theorem unescapeFrom_append_none (hys : ∀ zeros ≤ 2, unescapeFrom zeros ys = none)
    (xs : List UInt8) (h : zeros ≤ 2) :
    unescapeFrom zeros (xs ++ ys) = none := by
  induction xs generalizing zeros with
  | nil => exact hys zeros h
  | cons x xs ih =>
      rw [List.cons_append, unescapeFrom]
      split
      · rw [ih (by omega), ite_self]
      · rename_i hthree
        split
        · rfl
        · rename_i hsmall
          have hzeros : zerosAfter zeros x ≤ 2 :=
            zerosAfter_le h fun hz hx => hsmall ⟨hz, by rw [hx]; decide⟩
          rw [ih hzeros]
          rfl

/-- Only a legal unit is unescaped. -/
theorem unescape_of_illegalEscape (h : IllegalEscape xs) : unescape xs = none := by
  have hthree : ¬ (3 : UInt8) < 3 := by decide
  cases h with
  | run front back x hx hxs =>
      subst hxs
      refine unescapeFrom_append_none (fun zeros hzeros => ?_) front (by omega)
      have hne : x ≠ 3 := by
        rintro rfl
        exact hthree hx
      obtain rfl | rfl | rfl : zeros = 0 ∨ zeros = 1 ∨ zeros = 2 := by omega
      all_goals simp [unescapeFrom, zerosAfter, hx, hne]
  | before front back x hx hxs =>
      subst hxs
      refine unescapeFrom_append_none (fun zeros hzeros => ?_) front (by omega)
      have hlegal : ¬ x ≤ 3 := UInt8.not_le.mpr hx
      obtain rfl | rfl | rfl : zeros = 0 ∨ zeros = 1 ∨ zeros = 2 := by omega
      all_goals simp [unescapeFrom, zerosAfter, hlegal]
  | atEnd front hxs =>
      subst hxs
      refine unescapeFrom_append_none (fun zeros hzeros => ?_) front (by omega)
      obtain rfl | rfl | rfl : zeros = 0 ∨ zeros = 1 ∨ zeros = 2 := by omega
      all_goals simp [unescapeFrom, zerosAfter]

/-- What was put in leaves no start code and no longer run of zeros. -/
theorem not_illegalEscape_escape (xs : List UInt8) : ¬ IllegalEscape (escape xs) := by
  intro h
  have hnone := unescape_of_illegalEscape h
  rw [unescape_escape] at hnone
  cases hnone

/-- With the threes a unit is at most twice as long. -/
theorem length_escapeFrom_le (zeros : ℕ) (xs : List UInt8) :
    (escapeFrom zeros xs).length ≤ 2 * xs.length := by
  induction xs generalizing zeros with
  | nil => exact Nat.le_refl 0
  | cons x xs ih =>
      rw [escapeFrom]
      split
      · have := ih (zerosAfter 0 x)
        simp only [List.length_cons]
        omega
      · have := ih (zerosAfter zeros x)
        simp only [List.length_cons]
        omega

/-- Bytes without zeros need no threes. -/
theorem escapeFrom_of_nonzero (hxs : 0 ∉ xs) (hzeros : zeros < 2) :
    escapeFrom zeros xs = xs := by
  induction xs generalizing zeros with
  | nil => rfl
  | cons x xs ih =>
      rw [List.mem_cons, not_or] at hxs
      have hafter : zerosAfter zeros x = 0 := if_neg (Ne.symm hxs.1)
      rw [escapeFrom, if_neg (by omega), hafter, ih hxs.2 (by omega)]

end EmulationPrevention

import Mathlib.Algebra.Group.Nat.Defs
import Mathlib.Tactic.Common

/-!
# Checked words

Unsigned 32-bit arithmetic comes in two kinds: a result that does not fit is reduced, or
there is no result at all.  A computation is written once, with the kind as an argument;
when it has a result of the second kind it has the same one of the first.
-/

namespace CheckedWord

/-- The low 32 bits. -/
def wrapped (n : ℕ) : Option ℕ := some (n % 2 ^ 32)

/-- The number, if it is one of 32 bits. -/
def checked (n : ℕ) : Option ℕ := if n < 2 ^ 32 then some n else none

/-- A quotient; there is none by zero. -/
def quotient (a b : ℕ) : Option ℕ := if b = 0 then none else some (a / b)

/-- `part * scale / whole`. -/
def ratio (word : ℕ → Option ℕ) (part scale whole : ℕ) : Option ℕ :=
  (word (part * scale)).bind fun n => quotient n whole

variable {n m part scale whole r : ℕ}

theorem checked_eq_some : checked n = some m ↔ n < 2 ^ 32 ∧ m = n := by
  rw [checked]
  split
  · rename_i h
    rw [Option.some.injEq, and_iff_right h, eq_comm]
  · rename_i h
    exact iff_of_false (fun hnone => nomatch hnone) fun hn => h hn.1

theorem checked_of_lt (hn : n < 2 ^ 32) : checked n = some n := by
  rw [checked, if_pos hn]

theorem ratio_checked (hpos : 0 < whole) :
    ratio checked part scale whole = some r ↔
      part * scale < 2 ^ 32 ∧ r = part * scale / whole := by
  rw [ratio, Option.bind_eq_some_iff]
  constructor
  · rintro ⟨n, hn, hr⟩
    obtain ⟨hlt, rfl⟩ := checked_eq_some.mp hn
    rw [quotient, if_neg (Nat.ne_of_gt hpos), Option.some.injEq] at hr
    exact ⟨hlt, hr.symm⟩
  · rintro ⟨hlt, rfl⟩
    refine ⟨_, checked_eq_some.mpr ⟨hlt, rfl⟩, ?_⟩
    rw [quotient, if_neg (Nat.ne_of_gt hpos)]

theorem ratio_wrapped (hpos : 0 < whole) :
    ratio wrapped part scale whole = some (part * scale % 2 ^ 32 / whole) := by
  rw [ratio, wrapped, Option.bind_some, quotient, if_neg (Nat.ne_of_gt hpos)]

/-- What fits is not reduced. -/
theorem wrapped_of_checked (h : checked n = some m) : wrapped n = some m := by
  obtain ⟨hlt, rfl⟩ := checked_eq_some.mp h
  rw [wrapped, Nat.mod_eq_of_lt hlt]

theorem ratio_wrapped_of_checked (hpos : 0 < whole)
    (h : ratio checked part scale whole = some r) :
    ratio wrapped part scale whole = some r := by
  obtain ⟨hlt, rfl⟩ := (ratio_checked hpos).mp h
  rw [ratio_wrapped hpos, Nat.mod_eq_of_lt hlt]

/-- A part has a share of no more than the scale. -/
theorem share_le (h : part ≤ whole) : part * scale / whole ≤ scale := by
  apply Nat.div_le_of_le_mul
  exact Nat.mul_le_mul_right scale h

end CheckedWord

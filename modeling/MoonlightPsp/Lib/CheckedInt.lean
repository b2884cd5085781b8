import Mathlib.Algebra.Group.Int.Defs
import Mathlib.Data.Nat.Notation
import Mathlib.Tactic.Common

/-!
# Checked integers

A sum, a difference or a product of signed 32-bit numbers must not overflow.  A
computation that lets one overflow gives `none`, so that one with a result has computed
with the numbers themselves.  The rules say what a computation yields from what its parts
yield.
-/

namespace CheckedInt

variable {α β : Type} {P Q : α → Prop} {R : β → Prop}

/-- The number, if it is one of 32 bits. -/
def int (n : ℤ) : Option ℤ := if -2 ^ 31 ≤ n ∧ n < 2 ^ 31 then some n else none

theorem int_of_bounds {n : ℤ} (hlo : -2 ^ 31 ≤ n) (hhi : n < 2 ^ 31) : int n = some n := by
  rw [int, if_pos ⟨hlo, hhi⟩]

/-- The computation has a result, and the result satisfies `P`. -/
def Yields (x : Option α) (P : α → Prop) : Prop := ∃ a, x = some a ∧ P a

theorem int_eq_some {n m : ℤ} : int n = some m ↔ (-2 ^ 31 ≤ n ∧ n < 2 ^ 31) ∧ n = m := by
  rw [int]
  split
  · rename_i h
    rw [Option.some.injEq, and_iff_right h]
  · rename_i h
    exact iff_of_false (fun hnone => nomatch hnone) fun hn => h hn.1

theorem yields_some {a : α} (h : P a) : Yields (some a) P := ⟨a, rfl, h⟩

theorem Yields.mono {x : Option α} (h : Yields x P) (hPQ : ∀ a, P a → Q a) : Yields x Q := by
  obtain ⟨a, hx, ha⟩ := h
  exact ⟨a, hx, hPQ a ha⟩

theorem Yields.bind {x : Option α} {f : α → Option β} (h : Yields x P)
    (hf : ∀ a, P a → Yields (f a) R) : Yields (x >>= f) R := by
  obtain ⟨a, rfl, ha⟩ := h
  exact hf a ha

theorem Yields.bind_eq {x : Option α} {f : α → Option β} {a : α} (hx : x = some a)
    (hf : Yields (f a) R) : Yields (x >>= f) R := by
  rw [hx]
  exact hf

theorem Yields.of_eq {x : Option α} {a : α} (h : Yields x P) (hx : x = some a) : P a := by
  obtain ⟨b, hb, hP⟩ := h
  cases hx.symm.trans hb
  exact hP

/-- The rule for an operation. -/
theorem yields_int {n : ℤ} {f : ℤ → Option β} (hlo : -2 ^ 31 ≤ n) (hhi : n < 2 ^ 31)
    (hf : Yields (f n) R) : Yields (int n >>= f) R := by
  rw [int, if_pos ⟨hlo, hhi⟩]
  exact hf

/-- The rule for a loop over numbers. -/
theorem yields_foldlM {f : α → ℕ → Option α} {I : ℕ → α → Prop} {n : ℕ} {a : α}
    (ha : I 0 a) (hstep : ∀ i < n, ∀ b, I i b → Yields (f b i) (I (i + 1))) :
    Yields ((List.range n).foldlM f a) (I n) := by
  induction n with
  | zero => exact yields_some ha
  | succ n ih =>
      rw [List.range_succ, List.foldlM_append]
      refine Yields.bind (ih fun i hi => hstep i (by omega)) fun b hb => ?_
      exact (hstep n (by omega) b hb).bind fun c hc => yields_some hc

/-- What every step keeps holds after a run that does not overflow. -/
theorem invariant_of_foldlM {ι : Type} {f : α → ι → Option α} {l : List ι} {a b : α}
    (hstep : ∀ a i b, P a → f a i = some b → P b) (ha : P a) (h : l.foldlM f a = some b) :
    P b := by
  induction l generalizing a with
  | nil =>
      cases h
      exact ha
  | cons i l ih =>
      rw [List.foldlM_cons] at h
      obtain ⟨c, hc, hrest⟩ := Option.bind_eq_some_iff.mp h
      exact ih (hstep a i c ha hc) hrest

/-- Division by a positive number, as C has it, keeps symmetric bounds. -/
theorem tdiv_bounds {a c : ℤ} {k : ℕ} (hk : 0 < k) (hlo : -(c * k) ≤ a) (hhi : a ≤ c * k) :
    -c ≤ a.tdiv k ∧ a.tdiv k ≤ c := by
  have habs : a.natAbs ≤ c.natAbs * k := by
    have hmul := Int.natAbs_mul c k
    rw [Int.natAbs_natCast] at hmul
    omega
  have hdiv : (a.tdiv k).natAbs ≤ c.natAbs := by
    rw [Int.natAbs_tdiv, Int.natAbs_natCast]
    exact Nat.div_le_of_le_mul (by rwa [Nat.mul_comm])
  have hc : 0 ≤ c := by
    by_contra hneg
    have : c * k < 0 := Int.mul_neg_of_neg_of_pos (by omega) (by omega)
    omega
  omega

end CheckedInt

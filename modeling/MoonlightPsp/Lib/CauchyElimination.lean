import Mathlib.Algebra.BigOperators.Intervals
import Mathlib.Algebra.BigOperators.Ring.Finset
import Mathlib.Algebra.Field.Basic
import Mathlib.Tactic.FieldSimp
import Mathlib.Tactic.LinearCombination
import Mathlib.Tactic.Ring

/-!
# Elimination without pivoting on Cauchy matrices

A Cauchy matrix has the entries `1 / (x i + y j)`.  Eliminating its columns one
after the other, always with the diagonal entry as pivot, leaves after `k`
columns a matrix whose remaining entries have a closed form: the Cauchy entry
times one rational factor for every eliminated column.  For pairwise distinct
nodes none of these factors vanishes, so no pivot is ever zero and no row
exchange is needed.

For a matrix of any other kind the nonzero pivots are a condition on what is left
after each column.

The last part is the linear-algebra side of the same elimination.  A system
`A e = b` is kept by scaling a row and by adding a multiple of one row to
another, and a unit upper triangular system is solved by back substitution.
-/

namespace CauchyElimination

open Finset

variable {F : Type*} [Field F]

/-! ## The Schur complements in closed form -/

/-- The factors that eliminating the first `k` columns leaves on the entry at
`(i, j)`, one for each column. -/
def factors (x y : ℕ → F) (k i j : ℕ) : F :=
  ∏ t ∈ range k, (x i - x t) * (y j - y t) * ((x i + y t) * (x t + y j))⁻¹

theorem factors_succ (x y : ℕ → F) (k i j : ℕ) :
    factors x y (k + 1) i j =
      factors x y k i j *
        ((x i - x k) * (y j - y k) * ((x i + y k) * (x k + y j))⁻¹) := by
  rw [factors, factors, prod_range_succ]

/-- The factors in front of two opposite corners of a rectangle multiply to
those in front of the other two. -/
theorem factors_cross (x y : ℕ → F) (k i j p q : ℕ) :
    factors x y k i q * factors x y k p j =
      factors x y k p q * factors x y k i j := by
  simp only [factors]
  rw [← prod_mul_distrib, ← prod_mul_distrib]
  refine prod_congr rfl fun t _ => ?_
  simp only [mul_inv]
  ring

/-- The entry at `(i, j)` after the first `k` columns of the Cauchy matrix of
the nodes `x` and `y` have been eliminated. -/
def schur (x y : ℕ → F) (k i j : ℕ) : F :=
  (x i + y j)⁻¹ * factors x y k i j

@[simp] theorem schur_zero (x y : ℕ → F) (i j : ℕ) :
    schur x y 0 i j = (x i + y j)⁻¹ := by
  simp [schur, factors]

/-- Nodes of a `W × W` Cauchy matrix: distinct rows, distinct columns, and no
vanishing denominator. -/
structure Nodes (x y : ℕ → F) (W : ℕ) : Prop where
  row_ne : ∀ i < W, ∀ j < W, i ≠ j → x i ≠ x j
  col_ne : ∀ i < W, ∀ j < W, i ≠ j → y i ≠ y j
  sum_ne : ∀ i < W, ∀ j < W, x i + y j ≠ 0

/-- No entry of a Schur complement outside the eliminated part vanishes. -/
theorem schur_ne_zero {x y : ℕ → F} {W k i j : ℕ} (h : Nodes x y W)
    (hki : k ≤ i) (hkj : k ≤ j) (hi : i < W) (hj : j < W) :
    schur x y k i j ≠ 0 := by
  refine mul_ne_zero (inv_ne_zero (h.sum_ne i hi j hj)) ?_
  refine prod_ne_zero_iff.mpr fun t ht => ?_
  have htk : t < k := mem_range.mp ht
  have hx : x i - x t ≠ 0 :=
    sub_ne_zero.mpr (h.row_ne i hi t (by omega) (by omega))
  have hy : y j - y t ≠ 0 :=
    sub_ne_zero.mpr (h.col_ne j hj t (by omega) (by omega))
  have hsum₁ : x i + y t ≠ 0 := h.sum_ne i hi t (by omega)
  have hsum₂ : x t + y j ≠ 0 := h.sum_ne t (by omega) j hj
  exact mul_ne_zero (mul_ne_zero hx hy)
    (inv_ne_zero (mul_ne_zero hsum₁ hsum₂))

/-- The product of the entries at `(i, k)` and `(k, j)` in terms of the pivot
and the entry at `(i, j)`: the factors of earlier columns cancel. -/
theorem schur_cross {x y : ℕ → F} {W k i j : ℕ} (h : Nodes x y W)
    (hk : k < W) (hi : i < W) (hj : j < W) :
    schur x y k i k * schur x y k k j *
        ((x i + y k) * (x k + y j)) =
      schur x y k k k * schur x y k i j *
        ((x k + y k) * (x i + y j)) := by
  have hik : x i + y k ≠ 0 := h.sum_ne i hi k hk
  have hkj : x k + y j ≠ 0 := h.sum_ne k hk j hj
  have hkk : x k + y k ≠ 0 := h.sum_ne k hk k hk
  have hij : x i + y j ≠ 0 := h.sum_ne i hi j hj
  simp only [schur]
  field_simp
  exact factors_cross x y k i j k k

/-- One elimination step: subtracting from row `i` the multiple of row `k` that
clears column `k` turns the `k`-th Schur complement into the next one. -/
theorem schur_step {x y : ℕ → F} {W k i j : ℕ} (h : Nodes x y W)
    (hk : k < W) (hi : i < W) (hj : j < W) :
    schur x y k i j -
        schur x y k i k * ((schur x y k k k)⁻¹ * schur x y k k j) =
      schur x y (k + 1) i j := by
  have hpivot : schur x y k k k ≠ 0 :=
    schur_ne_zero h le_rfl le_rfl hk hk
  have hik : x i + y k ≠ 0 := h.sum_ne i hi k hk
  have hkj : x k + y j ≠ 0 := h.sum_ne k hk j hj
  have hcross := schur_cross h hk hi hj
  have hsucc : schur x y (k + 1) i j =
      schur x y k i j *
        ((x i - x k) * (y j - y k) * ((x i + y k) * (x k + y j))⁻¹) := by
    simp only [schur, factors_succ, mul_assoc]
  rw [hsucc]
  field_simp
  linear_combination (-1 : F) * hcross

/-! ## Any matrix -/

/-- The entry at `(i, j)` after the first `k` columns have been eliminated, each
with its diagonal entry as pivot. -/
def afterColumns (A : ℕ → ℕ → F) : ℕ → ℕ → ℕ → F
  | 0, i, j => A i j
  | k + 1, i, j =>
      afterColumns A k i j -
        afterColumns A k i k *
          ((afterColumns A k k k)⁻¹ * afterColumns A k k j)

/-- No pivot of the first `W` columns vanishes. -/
def Pivots (A : ℕ → ℕ → F) (W : ℕ) : Prop :=
  ∀ k < W, afterColumns A k k k ≠ 0

theorem afterColumns_cauchy {x y : ℕ → F} {A : ℕ → ℕ → F} {W : ℕ}
    (h : Nodes x y W) (hA : ∀ i < W, ∀ j < W, A i j = (x i + y j)⁻¹) {k : ℕ}
    (hk : k ≤ W) :
    ∀ i < W, ∀ j < W, afterColumns A k i j = schur x y k i j := by
  induction k with
  | zero =>
      intro i hi j hj
      rw [afterColumns, hA i hi j hj, schur_zero]
  | succ k ih =>
      intro i hi j hj
      have hkW : k < W := hk
      have ih := ih (Nat.le_of_lt hk)
      rw [afterColumns, ih i hi j hj, ih i hi k hkW, ih k hkW k hkW,
        ih k hkW j hj]
      exact schur_step h hkW hi hj

/-- A Cauchy matrix has no vanishing pivot. -/
theorem Nodes.pivots {x y : ℕ → F} {A : ℕ → ℕ → F} {W : ℕ}
    (h : Nodes x y W) (hA : ∀ i < W, ∀ j < W, A i j = (x i + y j)⁻¹) :
    Pivots A W := by
  intro k hk
  rw [afterColumns_cauchy h hA (Nat.le_of_lt hk) k hk k hk]
  exact schur_ne_zero h le_rfl le_rfl hk hk

/-! ## Systems of linear equations under row operations -/

/-- The first `W` equations of `A e = b`. -/
def Holds (W : ℕ) (A : ℕ → ℕ → F) (e b : ℕ → F) : Prop :=
  ∀ i < W, ∑ j ∈ range W, A i j * e j = b i

/-- Scaling row `r` and its right-hand side keeps every equation. -/
theorem Holds.scale {W : ℕ} {A A' : ℕ → ℕ → F} {e b b' : ℕ → F} {r : ℕ}
    {u : F} (h : Holds W A e b)
    (hrow : ∀ j < W, A' r j = u * A r j) (hrhs : b' r = u * b r)
    (hkeep : ∀ i < W, i ≠ r → (∀ j < W, A' i j = A i j) ∧ b' i = b i) :
    Holds W A' e b' := by
  intro i hi
  by_cases hir : i = r
  · subst i
    rw [hrhs, ← h r hi, mul_sum]
    refine sum_congr rfl fun j hj => ?_
    rw [hrow j (mem_range.mp hj), mul_assoc]
  · obtain ⟨hA, hb⟩ := hkeep i hi hir
    rw [hb, ← h i hi]
    refine sum_congr rfl fun j hj => ?_
    rw [hA j (mem_range.mp hj)]

/-- Adding to each row `i` a multiple `u i` of row `r`, on both sides, keeps
every equation.  Row `r` itself must be kept, so `u r = 0`. -/
theorem Holds.addRows {W : ℕ} {A A' : ℕ → ℕ → F} {e b b' : ℕ → F} {r : ℕ}
    {u : ℕ → F} (h : Holds W A e b) (hr : r < W)
    (hrow : ∀ i < W, ∀ j < W, A' i j = A i j + u i * A r j)
    (hrhs : ∀ i < W, b' i = b i + u i * b r) :
    Holds W A' e b' := by
  intro i hi
  rw [hrhs i hi, ← h i hi, ← h r hr, mul_sum, ← sum_add_distrib]
  refine sum_congr rfl fun j hj => ?_
  rw [hrow i hi j (mem_range.mp hj)]
  ring

/-- A unit upper triangular `W × W` matrix. -/
def UnitUpper (W : ℕ) (A : ℕ → ℕ → F) : Prop :=
  (∀ i < W, A i i = 1) ∧ ∀ i < W, ∀ j < i, A i j = 0

/-- The state of back substitution once the columns from `m` on are done:
the solved rows hold their unknowns, every other row still waits for the
unknowns below `m`. -/
def BackSolved (W : ℕ) (A : ℕ → ℕ → F) (e b : ℕ → F) (m : ℕ) : Prop :=
  (∀ i < W, m ≤ i → b i = e i) ∧
    ∀ i < m, b i = ∑ j ∈ range m, A i j * e j

theorem backSolved_of_holds {W : ℕ} {A : ℕ → ℕ → F} {e b : ℕ → F}
    (h : Holds W A e b) : BackSolved W A e b W :=
  ⟨fun _ hi hWi => absurd hi (by omega), fun i hi => (h i hi).symm⟩

/-- The last unsolved row of a unit upper triangular system holds its unknown. -/
theorem BackSolved.last {W : ℕ} {A : ℕ → ℕ → F} {e b : ℕ → F} {m : ℕ}
    (hA : UnitUpper W A) (hm : m < W) (h : BackSolved W A e b (m + 1)) :
    b m = e m := by
  rw [h.2 m (by omega), sum_range_succ, hA.1 m hm, one_mul]
  have hzero : ∑ j ∈ range m, A m j * e j = 0 :=
    sum_eq_zero fun j hj => by
      rw [hA.2 m hm j (mem_range.mp hj), zero_mul]
  rw [hzero, zero_add]

/-- One step of back substitution. -/
theorem BackSolved.step {W : ℕ} {A : ℕ → ℕ → F} {e b b' : ℕ → F} {m : ℕ}
    (hA : UnitUpper W A) (hm : m < W) (h : BackSolved W A e b (m + 1))
    (hkeep : ∀ i < W, m ≤ i → b' i = b i)
    (hsub : ∀ i < m, b' i = b i - A i m * b m) :
    BackSolved W A e b' m := by
  have hlast : b m = e m := h.last hA hm
  refine ⟨fun i hi hmi => ?_, fun i hi => ?_⟩
  · rw [hkeep i hi hmi]
    by_cases him : i = m
    · subst i
      exact hlast
    · exact h.1 i hi (by omega)
  · rw [hsub i hi, h.2 i (by omega), sum_range_succ, hlast]
    ring

end CauchyElimination

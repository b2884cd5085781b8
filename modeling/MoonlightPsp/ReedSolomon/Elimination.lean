import MoonlightPsp.Lib.CauchyElimination
import MoonlightPsp.ReedSolomon.Codec

/-!
# The in-place elimination solves for the missing shards

`nanorsInvertMat` keeps the work matrix and the right-hand sides in flat
buffers.  This module reads the buffers as a matrix and a vector for one byte
column, shows that every turn of its loops is a row operation on both, and
concludes that the missing shards end up holding the solution of the system.

The work matrix holds what elimination leaves of the submatrix of the missing
shards.  The one hypothesis is that no pivot of that submatrix is zero.
-/

namespace MoonlightPsp.ReedSolomon

open CauchyElimination

/-! ## Reading the buffers -/

/-- The entry `(i, j)` of a matrix with rows of length `W`. -/
def entry (W : ℕ) (wrk : Buf) (i j : ℕ) : Gf := wrk (i * W + j)

/-- The right-hand sides of one byte column. -/
def column (c : ℕ → ℕ) (V0 t : ℕ) (dst : ℕ → Buf) (i : ℕ) : Gf :=
  dst (c (V0 + i)) t

@[simp] theorem addmul_apply (dst src : Buf) (u : Gf) (sz t : ℕ) :
    addmul dst src u sz t = if t < sz then dst t + u * src t else dst t := by
  by_cases hu : u = 0
  · simp [addmul, hu]
  · simp [addmul, hu]

@[simp] theorem mul_apply (dst src : Buf) (u : Gf) (sz t : ℕ) :
    mul dst src u sz t = if t < sz then u * src t else dst t := by
  by_cases hu : u = 0
  · simp [mul, hu]
  · simp [mul, hu]

/-- Rows do not overlap: an offset within the first rows lies before row `r`. -/
theorem flat_lt {W i j r : ℕ} (hj : j < W) (hir : i < r) :
    i * W + j < r * W := by
  calc i * W + j < i * W + W := by omega
    _ = (i + 1) * W := by ring
    _ ≤ r * W := Nat.mul_le_mul_right W hir

/-- Adding a multiple of row `x` to row `row` of the flat matrix. -/
theorem entry_store_addmul {W : ℕ} (wrk : Buf) (row x : ℕ) (u : Gf)
    {i j : ℕ} (hj : j < W) :
    entry W (wrk.store (row * W)
        (addmul (wrk.ptr (row * W)) (wrk.ptr (x * W)) u W)) i j =
      if i = row then entry W wrk i j + u * entry W wrk x j
      else entry W wrk i j := by
  rcases lt_trichotomy i row with hlt | rfl | hgt
  · have hflat := flat_lt (W := W) hj hlt
    simp [entry, Buf.store, hflat, hlt.ne]
  · simp [entry, Buf.store, Buf.ptr, hj]
  · have hflat := flat_lt (W := W) (j := 0) (by omega) hgt
    have hfar : ¬ i * W + j - row * W < W := by
      have hstep : (row + 1) * W ≤ i * W := Nat.mul_le_mul_right W hgt
      rw [Nat.add_mul, one_mul] at hstep
      omega
    have hback : row * W + (i * W + j - row * W) = i * W + j := by omega
    have hnot : ¬ i * W + j < row * W := by omega
    simp [entry, Buf.store, Buf.ptr, hnot, hfar, hback, hgt.ne']

/-- Scaling `W` bytes of the flat matrix from the diagonal of row `x` on. -/
theorem entry_store_mul {W : ℕ} (wrk : Buf) {x : ℕ} (hx : x < W) (u : Gf)
    {i j : ℕ} (hj : j < W) :
    entry W (wrk.store (x * W + x)
        (mul (wrk.ptr (x * W + x)) (wrk.ptr (x * W + x)) u W)) i j =
      if (i = x ∧ x ≤ j) ∨ (i = x + 1 ∧ j < x) then u * entry W wrk i j
      else entry W wrk i j := by
  have hnext : (x + 1) * W = x * W + W := by ring
  rcases lt_trichotomy i x with hlt | rfl | hgt
  · have hflat := flat_lt (W := W) hj hlt
    have hbefore : i * W + j < x * W + x := by omega
    have hcond : ¬ ((i = x ∧ x ≤ j) ∨ (i = x + 1 ∧ j < x)) := by omega
    simp only [entry, Buf.store, if_pos hbefore, if_neg hcond]
  · by_cases hij : i ≤ j
    · have hafter : ¬ i * W + j < i * W + i := by omega
      have hnear : i * W + j - (i * W + i) < W := by omega
      have hback : i * W + i + (i * W + j - (i * W + i)) = i * W + j := by
        omega
      simp [entry, Buf.store, Buf.ptr, hafter, hnear, hback, hij]
    · have hbefore : i * W + j < i * W + i := by omega
      simp [entry, Buf.store, hbefore, hij]
  · have hrow : (x + 1) * W ≤ i * W := Nat.mul_le_mul_right W hgt
    have hafter : ¬ i * W + j < x * W + x := by omega
    have hback : x * W + x + (i * W + j - (x * W + x)) = i * W + j := by
      omega
    have hnear :
        (i * W + j - (x * W + x) < W) ↔ (i = x + 1 ∧ j < x) := by
      constructor
      · intro h
        have hle : i ≤ x + 1 := by
          by_contra hbig
          have : (x + 2) * W ≤ i * W := Nat.mul_le_mul_right W (by omega)
          have htwo : (x + 2) * W = x * W + W + W := by ring
          omega
        have heq : i = x + 1 := by omega
        subst i
        omega
      · rintro ⟨rfl, hjx⟩
        omega
    have hcond : ((i = x ∧ x ≤ j) ∨ (i = x + 1 ∧ j < x)) ↔
        (i = x + 1 ∧ j < x) := by omega
    simp only [entry, Buf.store, if_neg hafter, mul_apply, Buf.ptr, hback,
      hnear, hcond]

/-! ## The forward loop -/

section Forward

variable {V0 W T : ℕ} {c : ℕ → ℕ}

/-- What `clearBelow` has done once the rows below `m` are handled. -/
structure ClearedUpTo (V0 W T : ℕ) (c : ℕ → ℕ) (x : ℕ) (s₀ : InvertState)
    (m : ℕ) (s : InvertState) : Prop where
  failed : s.failed = s₀.failed
  entry_eq : ∀ i j, j < W → entry W s.wrk i j =
    if x < i ∧ i < m then
      entry W s₀.wrk i j + entry W s₀.wrk i x * entry W s₀.wrk x j
    else entry W s₀.wrk i j
  column_eq : ∀ i < W, ∀ t < T, column c V0 t s.dst i =
    if x < i ∧ i < m then
      column c V0 t s₀.dst i + entry W s₀.wrk i x * column c V0 t s₀.dst x
    else column c V0 t s₀.dst i

theorem clearBelow_spec (hinj : ∀ i < W, ∀ j < W, c (V0 + i) = c (V0 + j) →
    i = j) {x : ℕ} (hx : x < W) (s₀ : InvertState) :
    ClearedUpTo V0 W T c x s₀ W (clearBelow V0 W T c x s₀) := by
  refine Loops.fold_invariant (ClearedUpTo V0 W T c x s₀) ?_ ?_
  · exact ⟨rfl, fun i j _ => by simp, fun i _ t _ => by simp⟩
  · intro row hrow s hs
    by_cases hxrow : x < row
    · have hu : s.wrk (row * W + x) = entry W s₀.wrk row x := by
        have := hs.entry_eq row x hx
        simpa [entry] using this
      have hsrc : ∀ j < W, entry W s.wrk x j = entry W s₀.wrk x j := by
        intro j hj
        simpa using hs.entry_eq x j hj
      refine ⟨by simpa [hxrow] using hs.failed, fun i j hj => ?_,
        fun i hi t ht => ?_⟩
      · simp only [if_pos hxrow, hu]
        rw [entry_store_addmul _ _ _ _ hj, hsrc j hj, hs.entry_eq i j hj]
        by_cases hir : i = row
        · subst i
          simp [hxrow]
        · have hiff : (x < i ∧ i < row + 1) ↔ (x < i ∧ i < row) := by omega
          simp only [if_neg hir, hiff]
      · simp only [if_pos hxrow, hu, column]
        by_cases hir : i = row
        · subst i
          have hself := hs.column_eq row hrow t ht
          have hpivot := hs.column_eq x hx t ht
          simp only [column, lt_irrefl, and_false, false_and,
            if_false] at hself hpivot
          simp [ht, hself, hpivot, hxrow]
        · have hne : c (V0 + i) ≠ c (V0 + row) := fun h =>
            hir (hinj i hi row hrow h)
          have hkeep := hs.column_eq i hi t ht
          have hiff : (x < i ∧ i < row + 1) ↔ (x < i ∧ i < row) := by omega
          rw [Function.update_of_ne hne]
          simpa only [column, hiff] using hkeep
    · refine ⟨by simpa [hxrow] using hs.failed, fun i j hj => ?_,
        fun i hi t ht => ?_⟩
      · have hiff : (x < i ∧ i < row + 1) ↔ (x < i ∧ i < row) := by omega
        simpa only [if_neg hxrow, hiff] using hs.entry_eq i j hj
      · have hiff : (x < i ∧ i < row + 1) ↔ (x < i ∧ i < row) := by omega
        simpa only [if_neg hxrow, hiff] using hs.column_eq i hi t ht

/-- The work matrix after `k` columns: the rows above are unit upper triangular,
the rest is what is left of `A`, with zeros in the cleared columns. -/
structure Eliminated (A : ℕ → ℕ → Gf) (W k : ℕ) (wrk : Buf) : Prop where
  below : ∀ i < W, ∀ j < W, k ≤ i →
    entry W wrk i j = if j < k then 0 else afterColumns A k i j
  diagonal : ∀ i < W, i < k → entry W wrk i i = 1
  left : ∀ i < W, i < k → ∀ j < i, entry W wrk i j = 0

/-- What scaling row `k` by `u` did. -/
structure Scaled (V0 W T : ℕ) (c : ℕ → ℕ) (k : ℕ) (u : Gf)
    (s₀ s : InvertState) : Prop where
  failed : s.failed = s₀.failed
  entry_eq : ∀ i < W, ∀ j < W, entry W s.wrk i j =
    if i = k then u * entry W s₀.wrk i j else entry W s₀.wrk i j
  column_eq : ∀ i < W, ∀ t < T, column c V0 t s.dst i =
    if i = k then u * column c V0 t s₀.dst i else column c V0 t s₀.dst i

section Turn

variable {A : ℕ → ℕ → Gf} {k : ℕ} (hk : k < W) {s₀ s : InvertState}
  (helim : Eliminated A W k s₀.wrk)
  (hinj : ∀ i < W, ∀ j < W, c (V0 + i) = c (V0 + j) → i = j)

include hk helim

theorem Eliminated.pivot_eq : s₀.wrk (k * W + k) = afterColumns A k k k := by
  have hentry := helim.below k hk k hk le_rfl
  rw [if_neg (lt_irrefl k)] at hentry
  exact hentry

include hinj

/-- With a nonzero pivot a turn scales its row and clears the column below it.
The scaling runs into the next row, but there it meets zeros only. -/
theorem eliminateColumn_eq (hfail : s₀.failed = false)
    (hpivot : afterColumns A k k k ≠ 0) :
    ∃ s, Scaled V0 W T c k (afterColumns A k k k)⁻¹ s₀ s ∧
      eliminateColumn V0 W T c k s₀ = clearBelow V0 W T c k s := by
  have heq := helim.pivot_eq hk
  set u : Gf := (afterColumns A k k k)⁻¹ with hu
  refine ⟨{ s₀ with
    wrk := s₀.wrk.store (k * W + k)
      (mul (s₀.wrk.ptr (k * W + k)) (s₀.wrk.ptr (k * W + k)) u W)
    dst := Function.update s₀.dst (c (V0 + k))
      (mul (s₀.dst (c (V0 + k))) (s₀.dst (c (V0 + k))) u T) },
    ⟨rfl, fun i hi j hj => ?_, fun i hi t ht => ?_⟩, ?_⟩
  · rw [entry_store_mul _ hk _ hj]
    by_cases hik : i = k
    · subst i
      by_cases hkj : k ≤ j
      · simp [hkj]
      · have hzero : entry W s₀.wrk k j = 0 := by
          simpa [Nat.lt_of_not_le hkj] using helim.below k hk j hj le_rfl
        simp [hkj, hzero]
    · by_cases hnext : i = k + 1 ∧ j < k
      · have hzero : entry W s₀.wrk i j = 0 := by
          simpa [hnext.2] using helim.below i hi j hj (by omega)
        simp [hik, hzero]
      · have hcond : ¬ ((i = k ∧ k ≤ j) ∨ (i = k + 1 ∧ j < k)) := by omega
        simp only [if_neg hcond, if_neg hik]
  · by_cases hik : i = k
    · subst i
      simp [column, ht]
    · have hcne : c (V0 + i) ≠ c (V0 + k) := fun h =>
        hik (hinj i hi k hk h)
      simp [column, hik, Function.update_of_ne hcne]
  · simp [eliminateColumn, hfail, hpivot, heq, hu]

/-- The turn advances the elimination by one column. -/
theorem Scaled.eliminated (hscaled : Scaled V0 W T c k
      (afterColumns A k k k)⁻¹ s₀ s)
    (hpivot : afterColumns A k k k ≠ 0) :
    Eliminated A W (k + 1) (clearBelow V0 W T c k s).wrk := by
  have hclear := clearBelow_spec (T := T) hinj hk s
  set u : Gf := (afterColumns A k k k)⁻¹ with hu
  have hrow : ∀ j < W, entry W s.wrk k j =
      u * (if j < k then 0 else afterColumns A k k j) := by
    intro j hj
    rw [hscaled.entry_eq k hk j hj, if_pos rfl, helim.below k hk j hj le_rfl]
  refine ⟨?_, ?_, ?_⟩
  · intro i hi j hj hki
    have hik : i ≠ k := by omega
    rw [hclear.entry_eq i j hj, if_pos ⟨by omega, hi⟩, hrow j hj,
      hscaled.entry_eq i hi j hj, hscaled.entry_eq i hi k hk, if_neg hik,
      if_neg hik, helim.below i hi j hj (by omega),
      helim.below i hi k hk (by omega)]
    rcases lt_trichotomy j k with hjk | rfl | hjk
    · simp [hjk, Nat.lt_succ_of_lt hjk]
    · have hcancel : u * afterColumns A j j j = 1 := by
        rw [hu, inv_mul_cancel₀ hpivot]
      simp [hcancel, Gf.add_self]
    · have hstep : afterColumns A k i j -
          afterColumns A k i k *
            ((afterColumns A k k k)⁻¹ * afterColumns A k k j) =
          afterColumns A (k + 1) i j := rfl
      rw [Gf.sub_eq_add, ← hu] at hstep
      have h₁ : ¬ j < k := by omega
      have h₂ : ¬ j < k + 1 := by omega
      simpa [h₁, h₂] using hstep
  · intro i hi hik
    rw [hclear.entry_eq i i hi]
    have hnot : ¬ (k < i ∧ i < W) := by omega
    rw [if_neg hnot]
    by_cases heq : i = k
    · subst i
      rw [hrow k hk, if_neg (lt_irrefl k), hu, inv_mul_cancel₀ hpivot]
    · rw [hscaled.entry_eq i hi i hi, if_neg heq]
      exact helim.diagonal i hi (by omega)
  · intro i hi hik j hji
    have hj : j < W := by omega
    rw [hclear.entry_eq i j hj]
    have hnot : ¬ (k < i ∧ i < W) := by omega
    rw [if_neg hnot]
    by_cases heq : i = k
    · subst i
      rw [hrow j hj, if_pos hji, mul_zero]
    · rw [hscaled.entry_eq i hi j hj, if_neg heq]
      exact helim.left i hi (by omega) j hji

omit helim

/-- The turn keeps the equations of every byte column. -/
theorem Scaled.holds {u : Gf} (hscaled : Scaled V0 W T c k u s₀ s) {t : ℕ}
    (ht : t < T) {e : ℕ → Gf}
    (hholds : Holds W (entry W s₀.wrk) e (column c V0 t s₀.dst)) :
    Holds W (entry W (clearBelow V0 W T c k s).wrk) e
      (column c V0 t (clearBelow V0 W T c k s).dst) := by
  have hclear := clearBelow_spec (T := T) hinj hk s
  have hnormal : Holds W (entry W s.wrk) e (column c V0 t s.dst) := by
    refine hholds.scale (r := k) (u := u) (fun j hj => ?_) ?_
      (fun i hi hik => ⟨fun j hj => ?_, ?_⟩)
    · rw [hscaled.entry_eq k hk j hj, if_pos rfl]
    · rw [hscaled.column_eq k hk t ht, if_pos rfl]
    · rw [hscaled.entry_eq i hi j hj, if_neg hik]
    · rw [hscaled.column_eq i hi t ht, if_neg hik]
  refine hnormal.addRows hk
    (u := fun i => if k < i ∧ i < W then entry W s.wrk i k else 0)
    (fun i hi j hj => ?_) (fun i hi => ?_)
  · rw [hclear.entry_eq i j hj]
    split_ifs <;> simp
  · rw [hclear.column_eq i hi t ht]
    split_ifs <;> simp

end Turn

/-- One turn of the forward loop finds a nonzero pivot, advances the elimination
by one column and keeps the equations of every byte column. -/
theorem eliminateColumn_spec {A : ℕ → ℕ → Gf} (hpivots : Pivots A W)
    (hinj : ∀ i < W, ∀ j < W, c (V0 + i) = c (V0 + j) → i = j)
    {k : ℕ} (hk : k < W) {s : InvertState} (hfail : s.failed = false)
    (helim : Eliminated A W k s.wrk) :
    (eliminateColumn V0 W T c k s).failed = false ∧
    Eliminated A W (k + 1) (eliminateColumn V0 W T c k s).wrk ∧
    ∀ t < T, ∀ e, Holds W (entry W s.wrk) e (column c V0 t s.dst) →
      Holds W (entry W (eliminateColumn V0 W T c k s).wrk) e
        (column c V0 t (eliminateColumn V0 W T c k s).dst) := by
  obtain ⟨s₁, hscaled, hturn⟩ :=
    eliminateColumn_eq (T := T) hk helim hinj hfail (hpivots k hk)
  have hclear := clearBelow_spec (T := T) hinj hk s₁
  rw [hturn]
  refine ⟨?_, hscaled.eliminated hk helim hinj (hpivots k hk),
    fun t ht e hholds => hscaled.holds hk hinj ht hholds⟩
  rw [hclear.failed, hscaled.failed]
  exact hfail

end Forward

/-! ## The backward loop -/

section Backward

variable {V0 W T : ℕ} {c : ℕ → ℕ}

/-- One turn of the backward loop subtracts the solved row from those above. -/
theorem column_substituteBack
    (hinj : ∀ i < W, ∀ j < W, c (V0 + i) = c (V0 + j) → i = j)
    (wrk : Buf) {x : ℕ} (hx : x < W) (dst : ℕ → Buf) {i t : ℕ} (hi : i < W)
    (ht : t < T) :
    column c V0 t (substituteBack wrk V0 W T c x dst) i =
      if i < x then
        column c V0 t dst i + entry W wrk i x * column c V0 t dst x
      else column c V0 t dst i := by
  have hloop : ∀ i < W,
      column c V0 t (substituteBack wrk V0 W T c x dst) i =
        if i < x then
          column c V0 t dst i + entry W wrk i x * column c V0 t dst x
        else column c V0 t dst i := by
    refine Loops.fold_invariant
      (fun m dst' => ∀ i < W, column c V0 t dst' i =
        if i < m then
          column c V0 t dst i + entry W wrk i x * column c V0 t dst x
        else column c V0 t dst i) (fun i _ => by simp) ?_
    intro row hrow dst' h i hi
    have hpivot : dst' (c (V0 + x)) t = column c V0 t dst x := by
      simpa [column, Nat.not_lt.mpr hrow.le] using h x hx
    by_cases hir : i = row
    · subst i
      have hself : dst' (c (V0 + row)) t = column c V0 t dst row := by
        simpa [column] using h row hi
      simp [column, ht, hpivot, hself, entry]
    · have hne : c (V0 + i) ≠ c (V0 + row) := fun heq =>
        hir (hinj i hi row (by omega) heq)
      have hiff : i < row + 1 ↔ i < row := by omega
      have hkeep := h i hi
      simp only [column] at hkeep ⊢
      rw [Function.update_of_ne hne]
      simpa only [hiff] using hkeep
  exact hloop i hi

/-- The backward loop solves a unit upper triangular system. -/
theorem foldRev_substituteBack
    (hinj : ∀ i < W, ∀ j < W, c (V0 + i) = c (V0 + j) → i = j)
    {wrk : Buf} (hupper : UnitUpper W (entry W wrk)) {dst : ℕ → Buf}
    {e : ℕ → Gf} {t : ℕ} (ht : t < T)
    (hholds : Holds W (entry W wrk) e (column c V0 t dst)) :
    ∀ i < W, column c V0 t (Nat.foldRev W
      (fun x _ dst => substituteBack wrk V0 W T c x dst) dst) i = e i := by
  have hsolved : BackSolved W (entry W wrk) e (column c V0 t (Nat.foldRev W
      (fun x _ dst => substituteBack wrk V0 W T c x dst) dst)) 0 := by
    refine Loops.foldRev_invariant
      (fun m dst => BackSolved W (entry W wrk) e (column c V0 t dst) m)
      (backSolved_of_holds hholds) ?_
    intro x hx dst h
    refine h.step hupper hx (fun i hi hxi => ?_) (fun i hi => ?_)
    · rw [column_substituteBack hinj wrk hx dst hi ht, if_neg (by omega)]
    · rw [column_substituteBack hinj wrk hx dst (by omega) ht, if_pos hi,
        Gf.sub_eq_add]
  exact fun i hi => hsolved.1 i hi (Nat.zero_le i)

end Backward

/-! ## Known shards and untouched shards -/

section Known

variable {V0 W T : ℕ} {c : ℕ → ℕ}

/-- Removing the known shards adds their contribution to every right-hand
side. -/
theorem column_removeKnown {K : ℕ} {d : ℕ → ℕ} (hV0 : V0 ≤ K)
    (hinj : ∀ i < K, ∀ j < K, c i = c j → i = j) (src : Buf)
    (dst : ℕ → Buf) {t : ℕ} (ht : t < T) :
    (∀ row < V0, removeKnown src dst V0 K T c d (c row) t = dst (c row) t) ∧
    ∀ i < K - V0, column c V0 t (removeKnown src dst V0 K T c d) i =
      column c V0 t dst i +
        ∑ row ∈ Finset.range V0, src (d i * K + c row) * dst (c row) t := by
  have hloop := Loops.fold_invariant (n := K - V0)
    (f := fun i _ dst => Nat.fold V0 (fun row _ dst =>
      Function.update dst (c (V0 + i)) (addmul (dst (c (V0 + i)))
        (dst (c row)) (src (d i * K + c row)) T)) dst) (s := dst)
    (fun m (dst' : ℕ → Buf) =>
      (∀ row < V0, dst' (c row) t = dst (c row) t) ∧
      ∀ i < K - V0, column c V0 t dst' i =
        if i < m then column c V0 t dst i +
          ∑ row ∈ Finset.range V0, src (d i * K + c row) * dst (c row) t
        else column c V0 t dst i)
    ⟨fun _ _ => rfl, fun i _ => by simp⟩ ?_
  · refine ⟨hloop.1, fun i hi => ?_⟩
    have hi' := hloop.2 i hi
    rw [if_pos hi] at hi'
    exact hi'
  · intro i hi dst₁ h₁
    have hinner := Loops.fold_invariant (n := V0)
      (f := fun row _ dst => Function.update dst (c (V0 + i))
        (addmul (dst (c (V0 + i))) (dst (c row)) (src (d i * K + c row)) T))
      (s := dst₁)
      (fun m (dst' : ℕ → Buf) =>
        (∀ q, q ≠ c (V0 + i) → dst' q t = dst₁ q t) ∧
        dst' (c (V0 + i)) t = dst₁ (c (V0 + i)) t +
          ∑ row ∈ Finset.range m, src (d i * K + c row) * dst (c row) t)
      ⟨fun _ _ => rfl, by simp⟩ ?_
    · refine ⟨fun row hrow => ?_, fun j hj => ?_⟩
      · have hne : c row ≠ c (V0 + i) := fun heq => by
          have := hinj row (by omega) (V0 + i) (by omega) heq
          omega
        rw [hinner.1 _ hne, h₁.1 row hrow]
      · by_cases hji : j = i
        · subst j
          have hbefore := h₁.2 i hi
          rw [if_neg (lt_irrefl i)] at hbefore
          rw [if_pos (Nat.lt_succ_self i), ← hbefore]
          exact hinner.2
        · have hne : c (V0 + j) ≠ c (V0 + i) := fun heq => by
            have := hinj (V0 + j) (by omega) (V0 + i) (by omega) heq
            omega
          have hiff : j < i + 1 ↔ j < i := by omega
          have hbefore := h₁.2 j hj
          simp only [column, hiff] at hbefore ⊢
          rw [hinner.1 _ hne, hbefore]
    · intro row hrow dst₂ h₂
      have hne : c row ≠ c (V0 + i) := fun heq => by
        have := hinj row (by omega) (V0 + i) (by omega) heq
        omega
      refine ⟨fun q hq => ?_, ?_⟩
      · rw [Function.update_of_ne hq]
        exact h₂.1 q hq
      · rw [Function.update_self, addmul_apply, if_pos ht, h₂.2,
          h₂.1 _ hne, h₁.1 row hrow, Finset.sum_range_succ, add_assoc]

/-- `dst'` differs from `dst` at most in the first `T` bytes of the shards that
are being solved for. -/
def Frame (V0 W T : ℕ) (c : ℕ → ℕ) (dst dst' : ℕ → Buf) : Prop :=
  (∀ q, (∀ i < W, q ≠ c (V0 + i)) → dst' q = dst q) ∧
    ∀ q t, T ≤ t → dst' q t = dst q t

theorem Frame.refl (dst : ℕ → Buf) : Frame V0 W T c dst dst :=
  ⟨fun _ _ => rfl, fun _ _ _ => rfl⟩

/-- Overwriting the first `T` bytes of one of the solved shards. -/
theorem Frame.update {dst dst' : ℕ → Buf} (h : Frame V0 W T c dst dst')
    {i : ℕ} (hi : i < W) {b : Buf}
    (hb : ∀ t, T ≤ t → b t = dst' (c (V0 + i)) t) :
    Frame V0 W T c dst (Function.update dst' (c (V0 + i)) b) := by
  refine ⟨fun q hq => ?_, fun q t ht => ?_⟩
  · rw [Function.update_of_ne (hq i hi)]
    exact h.1 q hq
  · by_cases hqi : q = c (V0 + i)
    · subst q
      rw [Function.update_self, hb t ht, h.2 _ t ht]
    · rw [Function.update_of_ne hqi, h.2 q t ht]

theorem addmul_apply_of_le (dst src : Buf) (u : Gf) {sz t : ℕ} (h : sz ≤ t) :
    addmul dst src u sz t = dst t := by
  rw [addmul_apply, if_neg (by omega)]

theorem mul_apply_of_le (dst src : Buf) (u : Gf) {sz t : ℕ} (h : sz ≤ t) :
    mul dst src u sz t = dst t := by
  rw [mul_apply, if_neg (by omega)]

theorem frame_removeKnown {K : ℕ} {d : ℕ → ℕ} (src : Buf) (dst : ℕ → Buf) :
    Frame V0 (K - V0) T c dst (removeKnown src dst V0 K T c d) := by
  refine Loops.fold_invariant (fun _ dst' => Frame V0 (K - V0) T c dst dst')
    (Frame.refl dst) fun i hi dst₁ h₁ => ?_
  exact Loops.fold_invariant (fun _ dst' => Frame V0 (K - V0) T c dst dst')
    h₁ fun row _ dst₂ h₂ =>
      h₂.update hi fun t ht => addmul_apply_of_le _ _ _ ht

theorem frame_eliminateColumn {dst : ℕ → Buf} {x : ℕ} (hx : x < W)
    {s : InvertState} (h : Frame V0 W T c dst s.dst) :
    Frame V0 W T c dst (eliminateColumn V0 W T c x s).dst := by
  unfold eliminateColumn
  split_ifs
  · exact h
  · exact h
  · refine Loops.fold_invariant
      (fun _ (s : InvertState) => Frame V0 W T c dst s.dst)
      (h.update hx fun t ht => mul_apply_of_le _ _ _ ht) fun row hrow s h => ?_
    split_ifs
    · exact h.update hrow fun t ht => addmul_apply_of_le _ _ _ ht
    · exact h

theorem frame_substituteBack {dst dst' : ℕ → Buf} {wrk : Buf} {x : ℕ}
    (hx : x < W) (h : Frame V0 W T c dst dst') :
    Frame V0 W T c dst (substituteBack wrk V0 W T c x dst') :=
  Loops.fold_invariant (fun _ dst' => Frame V0 W T c dst dst') h
    fun row hrow dst₁ h₁ =>
      h₁.update (i := row) (by omega) fun t ht =>
        addmul_apply_of_le _ _ _ ht

end Known

/-! ## The whole elimination -/

/-- `nanorsInvertMat` succeeds where no pivot vanishes.  In every byte column in
which the right-hand sides are the parity of some data, the missing shards end
up holding those data; nothing else changes. -/
theorem nanorsInvertMat_spec {src wrk : Buf} {dst : ℕ → Buf}
    {V0 K T : ℕ} {c d : ℕ → ℕ} (hV0 : V0 ≤ K)
    (hinj : ∀ i < K, ∀ j < K, c i = c j → i = j)
    (hpivots : Pivots (fun i j => src (d i * K + c (V0 + j))) (K - V0)) :
    (nanorsInvertMat src wrk dst V0 K T c d).1 = 0 ∧
    Frame V0 (K - V0) T c dst (nanorsInvertMat src wrk dst V0 K T c d).2 ∧
    ∀ t < T, ∀ e : ℕ → Gf,
      (∀ i < K - V0, column c V0 t dst i =
        (∑ row ∈ Finset.range V0, src (d i * K + c row) * dst (c row) t) +
          ∑ j ∈ Finset.range (K - V0), src (d i * K + c (V0 + j)) * e j) →
      ∀ i < K - V0,
        column c V0 t (nanorsInvertMat src wrk dst V0 K T c d).2 i = e i := by
  set W := K - V0 with hW
  have hinjW : ∀ i < W, ∀ j < W, c (V0 + i) = c (V0 + j) → i = j := by
    intro i hi j hj h
    have := hinj (V0 + i) (by omega) (V0 + j) (by omega) h
    omega
  set s₀ : InvertState :=
    ⟨fillWork src wrk V0 K c d, removeKnown src dst V0 K T c d, false⟩
    with hs₀
  have hfill : ∀ i < W, ∀ j < W,
      entry W s₀.wrk i j = src (d i * K + c (V0 + j)) := by
    intro i hi j hj
    have hflat : i * W + j < W * W := flat_lt hj hi
    have hdiv : (i * W + j) / W = i := by
      rw [mul_comm, Nat.mul_add_div (by omega), Nat.div_eq_of_lt hj, add_zero]
    have hmod : (i * W + j) % W = j := by
      rw [mul_comm, Nat.mul_add_mod, Nat.mod_eq_of_lt hj]
    simp only [entry, hs₀, fillWork, ← hW, if_pos hflat, hdiv, hmod]
  set A : ℕ → ℕ → Gf := fun i j => src (d i * K + c (V0 + j)) with hA
  set final := Nat.fold W (fun x _ s => eliminateColumn V0 W T c x s) s₀
    with hfinal
  have hforward : final.failed = false ∧
      Eliminated A W W final.wrk ∧
      ∀ t < T, ∀ e, Holds W (entry W s₀.wrk) e (column c V0 t s₀.dst) →
        Holds W (entry W final.wrk) e (column c V0 t final.dst) := by
    refine Loops.fold_invariant (fun k (s : InvertState) => s.failed = false ∧
      Eliminated A W k s.wrk ∧
      ∀ t < T, ∀ e, Holds W (entry W s₀.wrk) e (column c V0 t s₀.dst) →
        Holds W (entry W s.wrk) e (column c V0 t s.dst)) ?_ ?_
    · refine ⟨rfl, ⟨fun i hi j hj _ => ?_, fun i _ h => by omega,
        fun i _ h => by omega⟩, fun t _ e h => h⟩
      rw [hfill i hi j hj]
      rfl
    · rintro k hk s ⟨hfail, helim, hkeep⟩
      obtain ⟨hfail', helim', hkeep'⟩ :=
        eliminateColumn_spec (T := T) hpivots hinjW hk hfail helim
      exact ⟨hfail', helim', fun t ht e h => hkeep' t ht e (hkeep t ht e h)⟩
  obtain ⟨hok, helim, hholds⟩ := hforward
  have hupper : UnitUpper W (entry W final.wrk) :=
    ⟨fun i hi => helim.diagonal i hi hi, fun i hi => helim.left i hi hi⟩
  have hresult : nanorsInvertMat src wrk dst V0 K T c d =
      (0, Nat.foldRev W
        (fun x _ dst => substituteBack final.wrk V0 W T c x dst)
        final.dst) := by
    change (if final.failed = true then _ else _) = _
    rw [hok]
    rfl
  rw [hresult]
  refine ⟨rfl, ?_, fun t ht e hsystem i hi => ?_⟩
  · refine Loops.foldRev_invariant (fun _ dst' => Frame V0 W T c dst dst')
      ?_ fun x hx dst' h => frame_substituteBack hx h
    exact Loops.fold_invariant
      (fun _ (s : InvertState) => Frame V0 W T c dst s.dst)
      (frame_removeKnown src dst) fun x hx s h => frame_eliminateColumn hx h
  · refine foldRev_substituteBack hinjW hupper ht (hholds t ht e ?_) i hi
    intro i hi
    have hknown := (column_removeKnown (T := T) (d := d) hV0 hinj src dst
      ht).2 i (by omega)
    have hrow : ∑ j ∈ Finset.range W, entry W s₀.wrk i j * e j =
        ∑ j ∈ Finset.range W, src (d i * K + c (V0 + j)) * e j :=
      Finset.sum_congr rfl fun j hj => by
        rw [hfill i hi j (Finset.mem_range.mp hj)]
    rw [hrow, hs₀, hknown, hsystem i hi, add_assoc, add_comm, add_assoc,
      Gf.add_self, add_zero]

end MoonlightPsp.ReedSolomon

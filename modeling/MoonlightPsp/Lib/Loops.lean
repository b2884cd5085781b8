import Mathlib.Data.Nat.Notation

/-!
# Counting loops and their invariants

`Nat.fold` runs the body of `for (i = 0; i < n; i++)` and `Nat.foldRev` that of
`for (i = n - 1; i >= 0; i--)` on an explicit state.  This module states their
invariant rules, in the form of the usual Hoare rule for a counting loop.
-/

namespace Loops

variable {σ : Type*}

/-- A loop of one turn. -/
theorem fold_one {n : ℕ} (hn : n = 1) (f : (i : ℕ) → i < n → σ → σ) (s : σ) :
    Nat.fold n f s = f 0 (by omega) s := by
  subst n
  rfl

/-- A property of the counter and the state which every turn carries one
further holds after the loop. -/
theorem fold_invariant (P : ℕ → σ → Prop) {n : ℕ}
    {f : (i : ℕ) → i < n → σ → σ} {s : σ} (hinit : P 0 s)
    (hstep : ∀ i (hi : i < n) s, P i s → P (i + 1) (f i hi s)) :
    P n (Nat.fold n f s) := by
  induction n with
  | zero => exact hinit
  | succ n ih =>
      rw [Nat.fold_succ]
      exact hstep n _ _ (ih fun i hi s => hstep i (by omega) s)

/-- The same rule for a loop that counts down. -/
theorem foldRev_invariant (P : ℕ → σ → Prop) {n : ℕ}
    {f : (i : ℕ) → i < n → σ → σ} {s : σ} (hinit : P n s)
    (hstep : ∀ i (hi : i < n) s, P (i + 1) s → P i (f i hi s)) :
    P 0 (Nat.foldRev n f s) := by
  induction n generalizing s with
  | zero => exact hinit
  | succ n ih =>
      rw [Nat.foldRev_succ]
      exact ih (hstep n _ s hinit) fun i hi s => hstep i (by omega) s

end Loops

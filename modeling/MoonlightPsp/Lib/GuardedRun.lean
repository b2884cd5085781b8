import Mathlib.Data.Nat.Notation

/-!
# Runs under a condition

A run of a deterministic machine over a list of inputs.  A condition on a state and an
input is met by a run when every step meets it in the state that it starts from.
-/

namespace GuardedRun

variable {σ ι : Type*} (step : σ → ι → σ) (ok : σ → ι → Prop)

/-- The state that a run ends in. -/
def run (s : σ) (inputs : List ι) : σ := inputs.foldl step s

/-- Every step of the run meets the condition. -/
def Meets : σ → List ι → Prop
  | _, [] => True
  | s, i :: inputs => ok s i ∧ Meets (step s i) inputs

/-- Every state that the run goes through has the property. -/
def Throughout (P : σ → Prop) (s : σ) (inputs : List ι) : Prop :=
  ∀ done, done <+: inputs → P (run step s done)

variable {step ok} {s : σ} {i : ι} {inputs more : List ι} {P Q : σ → Prop}

theorem run_append : run step s (inputs ++ more) = run step (run step s inputs) more :=
  List.foldl_append

theorem run_snoc : run step s (inputs ++ [i]) = step (run step s inputs) i := run_append

theorem meets_append :
    Meets step ok s (inputs ++ more) ↔
      Meets step ok s inputs ∧ Meets step ok (run step s inputs) more := by
  induction inputs generalizing s with
  | nil => exact (and_iff_right trivial).symm
  | cons i inputs ih => exact (and_congr_right fun _ => ih).trans and_assoc.symm

theorem meets_snoc :
    Meets step ok s (inputs ++ [i]) ↔
      Meets step ok s inputs ∧ ok (run step s inputs) i :=
  meets_append.trans (and_congr_right fun _ => and_iff_left trivial)

/-- What every step under the condition keeps, a run under the condition keeps. -/
theorem Meets.invariant (hstart : P s) (hstep : ∀ s i, P s → ok s i → P (step s i))
    (h : Meets step ok s inputs) : P (run step s inputs) := by
  induction inputs generalizing s with
  | nil => exact hstart
  | cons i inputs ih => exact ih (hstep s i hstart h.1) h.2

theorem Throughout.start (h : Throughout step P s inputs) : P s := h [] List.nil_prefix

theorem Throughout.after (h : Throughout step P s (i :: inputs)) :
    Throughout step P (step s i) inputs := by
  intro done hdone
  exact h (i :: done) (List.cons_prefix_cons.mpr ⟨rfl, hdone⟩)

/-- What every step under the condition keeps holds throughout, and what follows
from it. -/
theorem Meets.throughout (hstart : P s) (hstep : ∀ s i, P s → ok s i → P (step s i))
    (himp : ∀ s, P s → Q s) (h : Meets step ok s inputs) : Throughout step Q s inputs := by
  rintro done ⟨rest, rfl⟩
  exact himp _ ((meets_append.mp h).1.invariant hstart hstep)

end GuardedRun

import Mathlib.Data.Nat.Notation

/-!
# Computations with early exits

A function that gives up at the first failure is a computation in `Except`, the
error being the result and the state at that point.  This module states the
rules of the triple with two postconditions, one for either way out.
-/

namespace EarlyExit

universe u v

variable {ε : Type v} {α β : Type u}

/-- The computation either goes through and ends in `P`, or gives up in `Q`. -/
def Ends (Q : ε → Prop) (P : α → Prop) : Except ε α → Prop
  | .ok a => P a
  | .error e => Q e

variable {Q Q' : ε → Prop} {P : α → Prop} {R : β → Prop}

theorem ends_ok {a : α} (h : P a) : Ends Q P (.ok a) := h

theorem ends_error {e : ε} (h : Q e) : Ends Q P (.error e) := h

/-- One computation after the other. -/
theorem Ends.bind {x : Except ε α} {f : α → Except ε β} (hx : Ends Q P x)
    (hf : ∀ a, P a → Ends Q R (f a)) : Ends Q R (x >>= f) := by
  cases x with
  | ok a => exact hf a hx
  | error e => exact hx

theorem Ends.mono {P' : α → Prop} {x : Except ε α} (hx : Ends Q P x)
    (hQ : ∀ e, Q e → Q' e) (hP : ∀ a, P a → P' a) : Ends Q' P' x := by
  cases x with
  | ok a => exact hP a hx
  | error e => exact hQ e hx

/-- A check that gives up if it fails. -/
theorem ends_guard {c : Prop} [Decidable c] {e : ε} {x : Except ε α}
    (herror : c → Q e) (hgo : ¬c → Ends Q P x) :
    Ends Q P (if c then .error e else x) := by
  split
  · exact herror ‹_›
  · exact hgo ‹_›

end EarlyExit

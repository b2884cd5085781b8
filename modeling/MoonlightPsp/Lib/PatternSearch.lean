import Mathlib.Data.List.Infix
import Mathlib.Data.List.Range
import Mathlib.Data.Nat.Notation
import Mathlib.Order.Basic

/-!
# The first place of a pattern

A pattern is looked for in a list that grows at its end.  What was looked at before is not
looked at again, but for the places where the pattern may begin in the old part and end in
the new one.
-/

namespace PatternSearch

variable {α : Type*} {needle buf old more : List α} {i start : ℕ}

/-- The pattern stands at this place. -/
def OccursAt (needle buf : List α) (i : ℕ) : Prop := needle <+: buf.drop i

theorem OccursAt.fits (h : OccursAt needle buf i) (hi : i ≤ buf.length) :
    i + needle.length ≤ buf.length := by
  have hlen := h.length_le
  rw [List.length_drop] at hlen
  omega

/-- The places of a pattern that is not empty lie inside. -/
theorem OccursAt.lt (h : OccursAt needle buf i) (hne : needle ≠ []) : i < buf.length := by
  by_contra hno
  rw [OccursAt, List.drop_eq_nil_of_le (not_lt.mp hno)] at h
  exact hne (List.prefix_nil.mp h)

theorem OccursAt.append (h : OccursAt needle old i) (hi : i ≤ old.length) (more : List α) :
    OccursAt needle (old ++ more) i := by
  rw [OccursAt, List.drop_append_of_le_length hi]
  exact h.trans (List.prefix_append _ _)

/-- A place where the pattern ends in the old part is one of the old part. -/
theorem OccursAt.of_append (h : OccursAt needle (old ++ more) i)
    (hfits : i + needle.length ≤ old.length) : OccursAt needle old i := by
  rw [OccursAt, List.drop_append_of_le_length (by omega)] at h
  exact List.prefix_of_prefix_length_le h (List.prefix_append _ _)
    (by rw [List.length_drop]; omega)

section Search

variable [DecidableEq α]

instance (needle buf : List α) (i : ℕ) : Decidable (OccursAt needle buf i) :=
  inferInstanceAs (Decidable (_ <+: _))

/-- The first place from `start` on. -/
def findFrom (needle buf : List α) (start : ℕ) : Option ℕ :=
  (List.range' start (buf.length + 1 - needle.length - start)).find? fun i =>
    decide (OccursAt needle buf i)

/-- The first place of all. -/
def first (needle buf : List α) : Option ℕ := findFrom needle buf 0

theorem findFrom_eq_some (hne : needle ≠ []) :
    findFrom needle buf start = some i ↔
      start ≤ i ∧ OccursAt needle buf i ∧ ∀ j, start ≤ j → j < i → ¬ OccursAt needle buf j := by
  rw [findFrom, List.find?_range'_eq_some]
  simp only [decide_eq_true_eq, List.mem_range'_1, Bool.not_eq_true', decide_eq_false_iff_not]
  constructor
  · rintro ⟨hocc, ⟨hstart, -⟩, hfirst⟩
    exact ⟨hstart, hocc, hfirst⟩
  · rintro ⟨hstart, hocc, hfirst⟩
    have hfits := hocc.fits (hocc.lt hne).le
    have hpos := List.length_pos_iff.mpr hne
    exact ⟨hocc, ⟨hstart, by omega⟩, hfirst⟩

theorem findFrom_eq_none (hne : needle ≠ []) :
    findFrom needle buf start = none ↔ ∀ i, start ≤ i → ¬ OccursAt needle buf i := by
  rw [findFrom, List.find?_eq_none]
  simp only [List.mem_range'_1, decide_eq_true_eq]
  constructor
  · intro h i hstart hocc
    have hfits := hocc.fits (hocc.lt hne).le
    have hpos := List.length_pos_iff.mpr hne
    exact h i ⟨hstart, by omega⟩ hocc
  · intro h i hi
    exact h i hi.1

theorem first_eq_some (hne : needle ≠ []) :
    first needle buf = some i ↔ OccursAt needle buf i ∧ ∀ j < i, ¬ OccursAt needle buf j := by
  rw [first, findFrom_eq_some hne]
  simp

theorem first_eq_none (hne : needle ≠ []) :
    first needle buf = none ↔ ∀ i, ¬ OccursAt needle buf i := by
  rw [first, findFrom_eq_none hne]
  simp

/-- What comes behind does not change the first place. -/
theorem first_append (hne : needle ≠ []) (h : first needle old = some i) (more : List α) :
    first needle (old ++ more) = some i := by
  rw [first_eq_some hne] at h ⊢
  obtain ⟨hocc, hfirst⟩ := h
  have hi := hocc.lt hne
  have hfits := hocc.fits hi.le
  refine ⟨hocc.append hi.le more, fun j hj hother => ?_⟩
  exact hfirst j hj (hother.of_append (by omega))

/-- Where the old part has no place, the search may begin just before its end. -/
theorem findFrom_append (hne : needle ≠ []) (h : first needle old = none) (more : List α) :
    findFrom needle (old ++ more) (old.length - (needle.length - 1)) =
      first needle (old ++ more) := by
  rw [first_eq_none hne] at h
  have hskip : ∀ j, j < old.length - (needle.length - 1) →
      ¬ OccursAt needle (old ++ more) j := by
    intro j hj hocc
    exact h j (hocc.of_append (by omega))
  cases hfirst : first needle (old ++ more) with
  | none =>
      rw [first_eq_none hne] at hfirst
      exact (findFrom_eq_none hne).mpr fun i _ => hfirst i
  | some i =>
      rw [first_eq_some hne] at hfirst
      refine (findFrom_eq_some hne).mpr ⟨?_, hfirst.1, fun j _ hj => hfirst.2 j hj⟩
      by_contra hno
      exact hskip i (not_le.mp hno) hfirst.1

end Search

end PatternSearch

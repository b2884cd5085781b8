import Mathlib.Data.List.Basic

/-!
# Events of a level

A two-valued level is watched, and each change of it is an event.  The one who
watches has a memory of the last level.  When the memory was right at the start, the
events alternate and the last one is the level.
-/

namespace EdgeEvents

/-- The events alternate, the first one being `first`. -/
def Alternates : Bool → List Bool → Prop
  | _, [] => True
  | first, e :: es => e = first ∧ Alternates (!first) es

/-- The event of one look at the level. -/
def edge (memory level : Bool) : List Bool := if level = memory then [] else [level]

/-- The events since the memory was `start`. -/
structure Recorded (start : Bool) (events : List Bool) (memory : Bool) : Prop where
  alternates : Alternates (!start) events
  memory : memory = events.getLastD start

variable {start memory level : Bool} {events : List Bool}

theorem recorded_nil (start : Bool) : Recorded start [] start :=
  ⟨trivial, rfl⟩

theorem Alternates.snoc (h : Alternates (!start) events)
    (hlevel : level ≠ events.getLastD start) :
    Alternates (!start) (events ++ [level]) := by
  induction events generalizing start with
  | nil => exact ⟨Bool.eq_not_of_ne hlevel, trivial⟩
  | cons e es ih =>
      obtain ⟨rfl, htail⟩ := h
      exact ⟨rfl, ih htail (by rwa [List.getLastD_cons] at hlevel)⟩

/-- One look more. -/
theorem Recorded.edge (h : Recorded start events memory) (level : Bool) :
    Recorded start (events ++ edge memory level) level := by
  rw [EdgeEvents.edge]
  split
  · rename_i hsame
    rw [List.append_nil, hsame]
    exact h
  · rename_i hchange
    refine ⟨h.alternates.snoc ?_, ?_⟩
    · rwa [← h.memory]
    · rw [List.getLastD_concat]

/-- With a memory that was up at the start, the events begin with down, and the last
one is down exactly when the memory is. -/
theorem Recorded.of_up (h : Recorded false events memory) :
    Alternates true events ∧ (events.getLast? = some true ↔ memory = true) := by
  refine ⟨h.alternates, ?_⟩
  rw [h.memory, List.getLastD_eq_getLast?]
  cases events.getLast? with
  | none => exact iff_of_false (fun h => nomatch h) Bool.false_ne_true
  | some level => exact Option.some_inj

/-- With a memory that was down, they begin with up. -/
theorem Recorded.of_down (h : Recorded true events memory) :
    Alternates true events ↔ events = [] := by
  constructor
  · intro halternates
    cases events with
    | nil => rfl
    | cons e es => exact nomatch halternates.1.symm.trans h.alternates.1
  · rintro rfl
    trivial

end EdgeEvents

import Mathlib.Data.List.Induction
import Mathlib.Data.Nat.Notation

/-!
# Logs of events

A log lists what a system has done, oldest first.  A property of a log often
says of each event what must have come before it; it is checked as the log
grows.
-/

namespace EventLog

variable {ε : Type*} {P : List ε → ε → Prop}

/-- Every event of the log stands in this relation to the events before it. -/
def Always (P : List ε → ε → Prop) (log : List ε) : Prop :=
  ∀ before e after, log = before ++ e :: after → P before e

theorem always_nil : Always P [] := by
  intro before e after h
  simp at h

/-- An event of a log with one more event is that event, or stands before it. -/
theorem snoc_eq_append_cons {log before after : List ε} {e last : ε}
    (h : log ++ [last] = before ++ e :: after) :
    (after = [] ∧ log = before ∧ last = e) ∨
      ∃ rest, after = rest ++ [last] ∧ log = before ++ e :: rest := by
  rcases List.eq_nil_or_concat after with rfl | ⟨rest, d, rfl⟩
  · obtain ⟨hlog, hlast⟩ := List.append_inj' h rfl
    exact .inl ⟨rfl, hlog, List.head_eq_of_cons_eq hlast⟩
  · rw [List.concat_eq_append, ← List.cons_append, ← List.append_assoc] at h
    obtain ⟨hlog, hlast⟩ := List.append_inj' h rfl
    obtain rfl := List.head_eq_of_cons_eq hlast
    exact .inr ⟨rest, List.concat_eq_append, hlog⟩

/-- A log with one more event. -/
theorem Always.snoc {log : List ε} {e : ε} (h : Always P log)
    (he : P log e) : Always P (log ++ [e]) := by
  intro before d after hlog
  rcases snoc_eq_append_cons hlog with ⟨rfl, rfl, rfl⟩ | ⟨rest, -, hrest⟩
  · exact he
  · exact h before d rest hrest

theorem Always.of_append {log later : List ε} (h : Always P (log ++ later)) :
    Always P log := by
  intro before e after hlog
  refine h before e (after ++ later) ?_
  rw [hlog, List.append_assoc, List.cons_append]

theorem always_snoc {log : List ε} {e : ε} :
    Always P (log ++ [e]) ↔ Always P log ∧ P log e :=
  ⟨fun h => ⟨h.of_append, h log e [] rfl⟩, fun h => h.1.snoc h.2⟩

/-- A log goes on where the other half is checked as what follows the first. -/
theorem Always.extend {log later : List ε} (h : Always P log)
    (hlater : Always (fun before e => P (log ++ before) e) later) :
    Always P (log ++ later) := by
  induction later using List.reverseRecOn with
  | nil => rwa [List.append_nil]
  | append_singleton later e ih =>
      rw [← List.append_assoc]
      exact (ih hlater.of_append).snoc (hlater later e [] rfl)

/-- Events that stand in the relation to whatever came before may follow. -/
theorem Always.append {log later : List ε} (h : Always P log)
    (hlater : ∀ e ∈ later, ∀ before, P before e) :
    Always P (log ++ later) := by
  apply h.extend
  intro before e after hsplit
  exact hlater e (hsplit ▸ List.mem_append_right _ List.mem_cons_self) (log ++ before)

/-- The last time that an event happened. -/
theorem last_occurrence {log : List ε} {e : ε} (h : e ∈ log) :
    ∃ earlier later, log = earlier ++ e :: later ∧ e ∉ later := by
  obtain ⟨later, earlier, hlog, hlast⟩ := List.eq_append_cons_of_mem (List.mem_reverse.mpr h)
  refine ⟨earlier.reverse, later.reverse, ?_, ?_⟩
  · rw [← List.reverse_reverse log, hlog]
    simp
  · rwa [List.mem_reverse]

end EventLog

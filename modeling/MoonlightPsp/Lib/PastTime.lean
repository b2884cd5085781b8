import MoonlightPsp.Lib.EventLog

/-!
# What is pending in a log

Some events of a log raise a matter and some settle it.  The matter is pending when it
was raised and no event behind that settled it.  A flag that is written at these events
remembers whether it is.  In the same way a variable remembers the latest value that an
event brought, and a counter how often something happened since an event of another kind.
-/

namespace PastTime

open EventLog

variable {ε : Type*} {raises settles : ε → Prop} {log before after : List ε} {e : ε}

/-- The matter was raised, and not settled since. -/
def Pending (raises settles : ε → Prop) (log : List ε) : Prop :=
  ∃ before e after, log = before ++ e :: after ∧ raises e ∧ ∀ d ∈ after, ¬ settles d

theorem not_pending_nil : ¬ Pending raises settles [] := by
  rintro ⟨before, e, after, h, -⟩
  simp at h

/-- One event more; an event that does both leaves the matter pending. -/
theorem pending_snoc :
    Pending raises settles (log ++ [e]) ↔
      raises e ∨ ¬ settles e ∧ Pending raises settles log := by
  constructor
  · rintro ⟨before, d, after, h, hraises, hsettles⟩
    rcases snoc_eq_append_cons h with ⟨rfl, rfl, rfl⟩ | ⟨rest, rfl, rfl⟩
    · exact .inl hraises
    · refine .inr ⟨hsettles e (by simp), before, d, rest, rfl, hraises, ?_⟩
      intro d' hd'
      exact hsettles d' (List.mem_append_left _ hd')
  · rintro (hraises | ⟨he, before, d, after, rfl, hraises, hsettles⟩)
    · exact ⟨log, e, [], rfl, hraises, by simp⟩
    · refine ⟨before, d, after ++ [e], by simp, hraises, ?_⟩
      intro d' hd'
      rcases List.mem_append.mp hd' with hmem | hmem
      · exact hsettles d' hmem
      · rwa [List.mem_singleton.mp hmem]

theorem pending_of_raises (h : raises e) : Pending raises settles (log ++ [e]) :=
  pending_snoc.mpr (.inl h)

/-- An event that does neither changes nothing. -/
theorem pending_of_neutral (hraises : ¬ raises e) (hsettles : ¬ settles e) :
    Pending raises settles (log ++ [e]) ↔ Pending raises settles log := by
  rw [pending_snoc]
  simp [hraises, hsettles]

theorem not_pending_of_settles (hraises : ¬ raises e) (hsettles : settles e) :
    ¬ Pending raises settles (log ++ [e]) := by
  rw [pending_snoc]
  simp [hraises, hsettles]

/-- Events that do not raise it leave a matter that is not pending. -/
theorem not_pending_append (h : ¬ Pending raises settles log)
    (hafter : ∀ e ∈ after, ¬ raises e) : ¬ Pending raises settles (log ++ after) := by
  induction after using List.reverseRecOn with
  | nil => rwa [List.append_nil]
  | append_singleton after e ih =>
      rw [← List.append_assoc, pending_snoc]
      rintro (hraises | ⟨-, hpending⟩)
      · exact hafter e (List.mem_append_right _ (List.mem_singleton_self e)) hraises
      · exact ih (fun d hd => hafter d (List.mem_append_left _ hd)) hpending

/-- Behind an event that raises the matter comes a first one that settles it, if the
matter is not pending at the end. -/
theorem exists_first_settles (h : ¬ Pending raises settles (before ++ e :: after))
    (hraises : raises e) :
    ∃ between d later, after = between ++ d :: later ∧ settles d ∧
      Pending raises settles (before ++ e :: between) := by
  induction after using List.reverseRecOn with
  | nil => exact absurd ⟨before, e, [], rfl, hraises, by simp⟩ h
  | append_singleton after d ih =>
      by_cases hpending : Pending raises settles (before ++ e :: after)
      · refine ⟨after, d, [], rfl, ?_, hpending⟩
        by_contra hsettles
        apply h
        rw [← List.cons_append, ← List.append_assoc]
        exact pending_snoc.mpr (.inr ⟨hsettles, hpending⟩)
      · obtain ⟨between, d', later, rfl, hsettles, hfirst⟩ := ih hpending
        exact ⟨between, d', later ++ [d], by simp, hsettles, hfirst⟩

/-! ## What variables remember -/

section Memory

variable {β : Type*} {f : ε → Option β} {resets counts : ε → Bool}

/-- The value of the latest event that has one. -/
def latest (f : ε → Option β) (log : List ε) : Option β := log.reverse.findSome? f

/-- The number of events that count behind the latest one that resets. -/
def countSince (resets counts : ε → Bool) (log : List ε) : ℕ :=
  (log.reverse.takeWhile fun e => !resets e).countP counts

@[simp] theorem latest_nil : latest f [] = none := rfl

@[simp] theorem latest_snoc : latest f (log ++ [e]) = (f e).or (latest f log) := by
  rw [latest, List.reverse_concat, List.findSome?_cons]
  cases f e with
  | none => rfl
  | some b => rfl

theorem latest_eq_none (h : ∀ e ∈ log, f e = none) : latest f log = none :=
  List.findSome?_eq_none_iff.mpr fun e he => h e (List.mem_reverse.mp he)

theorem latest_append : latest f (before ++ after) = (latest f after).or (latest f before) := by
  rw [latest, List.reverse_append, List.findSome?_append]
  rfl

theorem latest_append_of_some {b : β} (h : latest f after = some b) :
    latest f (before ++ after) = some b := by
  rw [latest_append, h, Option.some_or]

theorem latest_append_of_none (h : latest f after = none) :
    latest f (before ++ after) = latest f before := by
  rw [latest_append, h, Option.none_or]

theorem getD_latest_snoc (d : β) :
    (latest f (log ++ [e])).getD d = (f e).getD ((latest f log).getD d) := by
  rw [latest_snoc]
  cases f e with
  | none => rfl
  | some b => rfl

theorem filterMap_snoc : (log ++ [e]).filterMap f = log.filterMap f ++ (f e).toList := by
  rw [List.filterMap_append, List.filterMap_cons]
  cases f e with
  | none => rfl
  | some b => rfl

theorem countP_snoc : (log ++ [e]).countP counts = log.countP counts + (counts e).toNat := by
  rw [List.countP_append, List.countP_singleton]
  cases counts e with
  | true => rfl
  | false => rfl

@[simp] theorem countSince_nil : countSince resets counts [] = 0 := rfl

@[simp] theorem countSince_snoc :
    countSince resets counts (log ++ [e]) =
      if resets e then 0 else countSince resets counts log + (counts e).toNat := by
  rw [countSince, List.reverse_concat, List.takeWhile_cons]
  cases resets e with
  | true => rfl
  | false =>
      rw [Bool.not_false, if_pos rfl, if_neg Bool.false_ne_true, List.countP_cons]
      cases counts e with
      | true => rfl
      | false => rfl

end Memory

end PastTime

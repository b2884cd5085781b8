import Mathlib.Data.List.Induction
import Mathlib.Tactic.Common

/-!
# The most recently used

A list kept with its most recently used element in front, and cut to a bound,
holds the distinct elements of all uses in the order of their last one.
-/

namespace RecentlyUsed

variable {α : Type*} [BEq α]

/-- One use of `a` on a list of at most `k` elements. -/
def touch (k : ℕ) (a : α) (l : List α) : List α := (a :: l.erase a).take k

/-- The distinct elements of `uses`, the last used first. -/
def recent (uses : List α) : List α := uses.reverse.eraseDups

variable [LawfulBEq α]

theorem nodup_eraseDups (l : List α) : l.eraseDups.Nodup := by
  induction hn : l.length using Nat.strongRecOn generalizing l with
  | ind n ih =>
      cases l with
      | nil => exact List.nodup_nil
      | cons b l =>
          rw [List.eraseDups_cons, List.nodup_cons]
          constructor
          · simp [List.mem_eraseDups]
          · have hshort := List.length_filter_le (fun c => !c == b) l
            rw [List.length_cons] at hn
            exact ih _ (by omega) _ rfl

theorem nodup_recent (uses : List α) : (recent uses).Nodup :=
  nodup_eraseDups uses.reverse

/-- Filtering and dropping repetitions can be done in either order. -/
theorem eraseDups_filter (p : α → Bool) (l : List α) :
    (l.filter p).eraseDups = l.eraseDups.filter p := by
  induction hn : l.length using Nat.strongRecOn generalizing l with
  | ind n ih =>
      cases l with
      | nil => rfl
      | cons b l =>
          have hshort := List.length_filter_le (fun c => !c == b) l
          rw [List.length_cons] at hn
          have hrest := ih _ (by omega) (l.filter fun c => !c == b) rfl
          rw [List.filter_filter] at hrest
          rw [List.eraseDups_cons]
          by_cases hb : p b = true
          · rw [List.filter_cons_of_pos hb, List.filter_cons_of_pos hb,
              List.eraseDups_cons, ← hrest, List.filter_filter]
            simp only [Bool.and_comm]
          · rw [List.filter_cons_of_neg hb, List.filter_cons_of_neg hb, ← hrest]
            -- no element that passes the filter is `b`
            have hne : ∀ c ∈ l, (p c && !c == b) = p c := by
              intro c _
              by_cases hc : c = b
              · subst c
                simp [hb]
              · simp [hc]
            rw [List.filter_congr hne]

/-- A further use moves its element to the front. -/
theorem recent_snoc (uses : List α) (a : α) :
    recent (uses ++ [a]) = a :: (recent uses).erase a := by
  rw [recent, List.reverse_append, List.reverse_singleton, List.singleton_append,
    List.eraseDups_cons, eraseDups_filter]
  exact congrArg (a :: ·) (List.Nodup.erase_eq_filter (nodup_recent uses) a).symm

/-- What lies beyond the bound does not come back. -/
theorem take_erase_take (k : ℕ) (l : List α) (a : α) :
    ((l.take (k + 1)).erase a).take k = (l.erase a).take k := by
  induction l generalizing k with
  | nil => rfl
  | cons b l ih =>
      rw [List.take_succ_cons]
      by_cases hb : b = a
      · subst b
        rw [List.erase_cons_head, List.erase_cons_head, List.take_take, Nat.min_self]
      · rw [List.erase_cons_tail (by simpa using hb),
          List.erase_cons_tail (by simpa using hb)]
        cases k with
        | zero => rfl
        | succ k => rw [List.take_succ_cons, List.take_succ_cons, ih]

theorem touch_take (k : ℕ) (a : α) (l : List α) :
    touch k a (l.take k) = touch k a l := by
  cases k with
  | zero => rfl
  | succ k => rw [touch, touch, List.take_succ_cons, List.take_succ_cons, take_erase_take]

/-- Keeping the list at every use keeps the most recent elements. -/
theorem foldl_touch (k : ℕ) (uses : List α) :
    uses.foldl (fun l a => touch k a l) [] = (recent uses).take k := by
  induction uses using List.reverseRecOn with
  | nil => simp [recent]
  | append_singleton uses a ih =>
      rw [List.foldl_append, List.foldl_cons, List.foldl_nil, ih, touch_take,
        recent_snoc, touch]

end RecentlyUsed

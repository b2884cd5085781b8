import Mathlib.Tactic.Common

/-!
# Walks over the records of a buffer

A walk looks at a position of a buffer, does what the record there asks for, and
goes on behind it, as long as the header of a record fits into the buffer.  A
turn that reads outside of the buffer has no result, and neither has a walk that
does not end.

The records that a walk visits often depend on the buffer alone; properties of
its turns are then properties of a list of positions.
-/

namespace BufferWalk

variable {σ τ : Type*}

/-- The length of a buffer, the size of a header, and what a turn does: the state
behind it, and where to go on unless it ends the walk. -/
structure Walk (σ : Type*) where
  length : ℕ
  header : ℕ
  turn : σ → ℕ → Option (σ × Option ℕ)

/-- The walk from a position, in at most a number of turns. -/
def Walk.run (w : Walk σ) (turns : ℕ) (s : σ) (p : ℕ) : Option σ :=
  if p + w.header ≤ w.length then
    match turns with
    | 0 => none
    | turns + 1 =>
        match w.turn s p with
        | none => none
        | some (s', none) => some s'
        | some (s', some q) => w.run turns s' q
  else some s

/-- A property of every turn: of the state before it, and the position. -/
def Walk.AtEachTurn (w : Walk σ) (P : σ → ℕ → Prop) :
    ℕ → σ → ℕ → Prop
  | 0, _, _ => True
  | turns + 1, s, p =>
      p + w.header ≤ w.length →
        P s p ∧ ∀ s' q, w.turn s p = some (s', some q) →
          w.AtEachTurn P turns s' q

/-- The positions that a walk visits which goes on where `next` says. -/
def positions (length header : ℕ) (next : ℕ → Option ℕ) : ℕ → ℕ → List ℕ
  | 0, _ => []
  | turns + 1, p =>
      if p + header ≤ length then
        p :: match next p with
          | none => []
          | some q => positions length header next turns q
      else []

/-- All turns have a result, go on where `next` says, and go forward. -/
structure Walk.Steady (w : Walk σ) (next : ℕ → Option ℕ) : Prop where
  turn : ∀ s p, p + w.header ≤ w.length →
    ∃ s', w.turn s p = some (s', next p)
  forward : ∀ p q, next p = some q → p < q

variable {w : Walk σ} {next : ℕ → Option ℕ} {n p : ℕ} {s : σ}

/-! ## Steady walks -/

/-- A property that only depends on the position holds at each turn if it holds
at all positions. -/
theorem Walk.Steady.atEachTurn_iff (h : w.Steady next) {P : σ → ℕ → Prop}
    {Q : ℕ → Prop} (hPQ : ∀ s p, p + w.header ≤ w.length → (P s p ↔ Q p)) :
    w.AtEachTurn P n s p ↔
      ∀ i ∈ positions w.length w.header next n p, Q i := by
  induction n generalizing s p with
  | zero => simp [Walk.AtEachTurn, positions]
  | succ n ih =>
      rw [Walk.AtEachTurn, positions]
      split
      · rename_i hin
        obtain ⟨s', hturn⟩ := h.turn s p hin
        rw [List.forall_mem_cons, hturn]
        simp only [hin, true_implies, Option.some.injEq, Prod.mk.injEq,
          hPQ s p hin]
        refine and_congr_right fun _ => ?_
        cases hnext : next p with
        | none => simp
        | some q =>
            constructor
            · intro hrest
              exact ih.mp (hrest s' q ⟨rfl, rfl⟩)
            · rintro hrest s'' q' ⟨rfl, hq⟩
              obtain rfl := Option.some.inj hq
              exact ih.mpr hrest
      · rename_i hout
        simp [hout]

/-- A property that follows from one of the position. -/
theorem Walk.Steady.atEachTurn (h : w.Steady next) {P : σ → ℕ → Prop}
    (hP : ∀ i ∈ positions w.length w.header next n p,
      i + w.header ≤ w.length → ∀ s, P s i) : w.AtEachTurn P n s p := by
  induction n generalizing s p with
  | zero => trivial
  | succ n ih =>
      intro hin
      rw [positions, if_pos hin] at hP
      refine ⟨hP p List.mem_cons_self hin s, fun s' q hturn => ?_⟩
      obtain ⟨t, ht⟩ := h.turn s p hin
      rw [ht, Option.some.injEq, Prod.mk.injEq] at hturn
      obtain ⟨rfl, hnext⟩ := hturn
      rw [hnext] at hP
      exact ih fun i hi => hP i (List.mem_cons_of_mem p hi)

/-- What a walk leaves in a part of its state, if each turn's effect on that part
depends only on the part and the position. -/
theorem Walk.Steady.run_part (h : w.Steady next) (part : σ → τ)
    (effect : τ → ℕ → τ)
    (heffect : ∀ i ∈ positions w.length w.header next n p,
      i + w.header ≤ w.length → ∀ s s' o, w.turn s i = some (s', o) →
        part s' = effect (part s) i)
    (hturns : w.length < n + p) :
    ∃ t, w.run n s p = some t ∧
      part t = (positions w.length w.header next n p).foldl effect
        (part s) := by
  induction n generalizing s p with
  | zero =>
      rw [Walk.run, if_neg (by omega)]
      exact ⟨s, rfl, rfl⟩
  | succ n ih =>
      rw [Walk.run, positions]
      rw [positions] at heffect
      split
      · rename_i hin
        rw [if_pos hin] at heffect
        obtain ⟨s', hturn⟩ := h.turn s p hin
        have hfirst := heffect p List.mem_cons_self hin s s' _ hturn
        simp only [hturn]
        cases hnext : next p with
        | none => exact ⟨s', rfl, hfirst⟩
        | some q =>
            rw [hnext] at heffect
            have hforward := h.forward p q hnext
            obtain ⟨t, hrun, hpart⟩ := ih (s := s') (p := q)
              (fun i hi => heffect i (List.mem_cons_of_mem p hi)) (by omega)
            refine ⟨t, hrun, ?_⟩
            rw [hpart, hfirst]
            rfl
      · exact ⟨s, rfl, rfl⟩

/-- A steady walk ends. -/
theorem Walk.Steady.run_isSome (h : w.Steady next)
    (hturns : w.length < n + p) : ∃ t, w.run n s p = some t := by
  obtain ⟨t, ht, -⟩ := h.run_part (fun _ => ()) (fun _ _ => ())
    (fun _ _ _ _ _ _ _ => rfl) hturns (s := s)
  exact ⟨t, ht⟩

end BufferWalk

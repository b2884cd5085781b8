import MoonlightPsp.Lib.EmulationPrevention

/-!
# Payloads without escapes

The detectors take a three out behind every two zero bytes, whatever follows it.  On a
legal payload they agree with the parameter set checks.
-/

namespace MoonlightPsp.Detector

open EmulationPrevention

/-- The bytes of a payload without the threes of its escapes, whatever follows
them. -/
def rawRbsp : List UInt8 → List UInt8
  | a :: b :: c :: l =>
      if a = 0 ∧ b = 0 ∧ c = 3 then 0 :: 0 :: rawRbsp l else a :: rawRbsp (b :: c :: l)
  | l => l

variable {l : List UInt8}

theorem rawRbsp_escape (l : List UInt8) : rawRbsp (0 :: 0 :: 3 :: l) = 0 :: 0 :: rawRbsp l := by
  rw [rawRbsp, if_pos ⟨rfl, rfl, rfl⟩]

theorem rawRbsp_cons {b : UInt8} (h : ¬ [0, 0, 3] <+: b :: l) :
    rawRbsp (b :: l) = b :: rawRbsp l := by
  match l with
  | [] | [_] => rfl
  | c :: d :: l =>
      rw [rawRbsp, if_neg]
      rintro ⟨rfl, rfl, rfl⟩
      exact h ⟨l, rfl⟩

/-- A byte string is unescaped in two parts, unless an escape ends in the second. -/
theorem rawRbsp_append {back : List UInt8} (h : 3 ∉ back.take 2) (front : List UInt8) :
    rawRbsp (front ++ back) = rawRbsp front ++ rawRbsp back := by
  have hcons : ∀ (b : UInt8) (l : List UInt8), ¬ [0, 0, 3] <+: b :: l →
      rawRbsp (l ++ back) = rawRbsp l ++ rawRbsp back →
      rawRbsp (b :: l ++ back) = rawRbsp (b :: l) ++ rawRbsp back := fun b l hl ih => by
    rw [rawRbsp_cons hl, List.cons_append, rawRbsp_cons, ih, List.cons_append]
    rintro ⟨more, hmore⟩
    match l, back with
    | [], [] | [], [_] | [_], [] => simp at hmore
    | [], _ :: _ :: _ | [_], _ :: _ => simp_all
    | _ :: _ :: l, _ =>
        simp only [List.cons_append, List.nil_append, List.cons.injEq] at hmore
        obtain ⟨rfl, rfl, rfl, -⟩ := hmore
        exact hl ⟨l, rfl⟩
  induction front using rawRbsp.induct with
  | case1 a b c l hescape ih =>
      obtain ⟨rfl, rfl, rfl⟩ := hescape
      simp only [List.cons_append, rawRbsp_escape, ih]
  | case2 a b c l hescape ih =>
      refine hcons a (b :: c :: l) ?_ ih
      rintro ⟨more, hmore⟩
      simp only [List.cons_append, List.cons.injEq] at hmore
      exact hescape ⟨hmore.1.symm, hmore.2.1.symm, hmore.2.2.1.symm⟩
  | case3 l hshort =>
      match l with
      | [] => rfl
      | [b] => exact hcons b [] (by simp) rfl
      | [b, c] => exact hcons b [c] (by simp) (hcons c [] (by simp) rfl)
      | a :: b :: c :: l => exact absurd rfl (hshort a b c l)

theorem rawRbsp_zeros (k : ℕ) : rawRbsp (List.replicate k 0) = List.replicate k 0 := by
  induction k with
  | zero => rfl
  | succ k ih =>
      rw [List.replicate_succ, rawRbsp_cons, ih]
      rw [← List.replicate_succ]
      intro h
      have hmem : (3 : UInt8) ∈ List.replicate (k + 1) 0 := h.subset (by simp)
      simp at hmem

theorem length_rawRbsp_le (l : List UInt8) : (rawRbsp l).length ≤ l.length := by
  induction l using rawRbsp.induct with
  | case1 a b c l hescape ih =>
      obtain ⟨rfl, rfl, rfl⟩ := hescape
      rw [rawRbsp_escape]
      simp only [List.length_cons]
      omega
  | case2 a b c l hescape ih =>
      rw [rawRbsp, if_neg hescape]
      simp only [List.length_cons] at ih ⊢
      omega
  | case3 l hshort => exact Nat.le_of_eq (congrArg List.length (rawRbsp.eq_2 l hshort))

/-- A legal payload is unescaped by both. -/
theorem rawRbsp_of_unescape {rbsp : List UInt8}
    (h : unescape l = some rbsp) : rawRbsp l = rbsp := by
  have hfrom : ∀ {zeros : ℕ} {l rbsp : List UInt8}, zeros ≤ 2 →
      unescapeFrom zeros l = some rbsp →
      rawRbsp (List.replicate zeros 0 ++ l) = List.replicate zeros 0 ++ rbsp := by
    intro zeros l
    induction l generalizing zeros with
    | nil =>
        intro rbsp hzeros h
        cases h
        rw [List.append_nil, rawRbsp_zeros]
    | cons x l ih =>
        intro rbsp hzeros h
        rw [unescapeFrom] at h
        split at h
        · rename_i hthree
          obtain ⟨rfl, rfl⟩ := hthree
          split at h
          · have hrest := ih (by omega) h
            exact (rawRbsp_escape l).trans (congrArg (0 :: 0 :: ·) hrest)
          · cases h
        · rename_i hthree
          split at h
          · cases h
          · rename_i hsmall
            obtain ⟨ys, hys, rfl⟩ := Option.map_eq_some_iff.mp h
            by_cases hx : x = 0
            · subst hx
              have hlt : zeros ≠ 2 := fun hz => hsmall ⟨hz, by decide⟩
              rw [zerosAfter, if_pos rfl] at hys
              have hrest := ih (by omega) hys
              simpa [List.replicate_succ'] using hrest
            · rw [zerosAfter, if_neg hx] at hys
              have hrest := ih (Nat.zero_le 2) hys
              rw [List.replicate_zero, List.nil_append, List.nil_append] at hrest
              have hone : rawRbsp (x :: l) = x :: ys := by
                rw [rawRbsp_cons, hrest]
                rintro ⟨more, hmore⟩
                exact hx (List.cons.inj hmore).1.symm
              have htwo : rawRbsp (0 :: x :: l) = 0 :: x :: ys := by
                rw [rawRbsp_cons, hone]
                rintro ⟨more, hmore⟩
                exact hx (List.cons.inj (List.cons.inj hmore).2).1.symm
              obtain rfl | rfl | rfl : zeros = 0 ∨ zeros = 1 ∨ zeros = 2 := by omega
              · exact hone
              · exact htwo
              · show rawRbsp (0 :: 0 :: x :: l) = _
                rw [rawRbsp_cons, htwo]
                · rfl
                · rintro ⟨more, hmore⟩
                  simp only [List.cons_append, List.cons.injEq] at hmore
                  exact hthree ⟨rfl, hmore.2.2.1.symm⟩
  exact hfrom (Nat.zero_le 2) h

end MoonlightPsp.Detector

import Mathlib.Data.List.Basic
import Mathlib.Data.Nat.ModEq
import Mathlib.Logic.Function.Basic

/-!
# A circular buffer as a window on a log

A circular buffer of `N` slots with a head and a tail index holds a window of
the log of everything that was ever written to it: the slots from tail to head
are the entries of the log from some position on.  The indices are the ends of
the window modulo `N`, and one slot always stays free.
-/

namespace RingWindow

variable {α : Type*}

/-- The number of slots from `tail` to `head`. -/
def queued (N head tail : ℕ) : ℕ := (head + N - tail) % N

/-- The slots from `tail` to `head`, oldest first. -/
def contents (N : ℕ) (slots : ℕ → α) (head tail : ℕ) : List α :=
  (List.range (queued N head tail)).map fun i => slots ((tail + i) % N)

theorem mod_ne_of_lt {N a b : ℕ} (hab : a < b) (hN : b - a < N) :
    a % N ≠ b % N := by
  intro h
  have hdvd : N ∣ b - a := (Nat.modEq_iff_dvd' hab.le).mp h
  have := Nat.le_of_dvd (by omega) hdvd
  omega

/-- Every slot is met in one turn of the ring. -/
theorem exists_mod_eq {N i : ℕ} (t : ℕ) (hi : i < N) :
    ∃ j, t ≤ j ∧ j < t + N ∧ j % N = i := by
  have ht : t % N + N * (t / N) = t := Nat.mod_add_div t N
  have hlt : t % N < N := Nat.mod_lt t (by omega)
  by_cases hle : t % N ≤ i
  · refine ⟨i + N * (t / N), by omega, by omega, ?_⟩
    rw [Nat.add_mul_mod_self_left, Nat.mod_eq_of_lt hi]
  · refine ⟨i + N * (t / N + 1), ?_, ?_, ?_⟩
    · rw [Nat.mul_succ]
      omega
    · rw [Nat.mul_succ]
      omega
    · rw [Nat.add_mul_mod_self_left, Nat.mod_eq_of_lt hi]

/-- Indices that are the ends of a window are as far apart as its ends. -/
theorem queued_mod {N a b : ℕ} (hab : a ≤ b) (hN : b - a < N) :
    queued N (b % N) (a % N) = b - a := by
  obtain ⟨d, rfl⟩ := Nat.exists_eq_add_of_le hab
  have hd : d < N := by omega
  have hmod : a % N < N := Nat.mod_lt _ (by omega)
  have hsum : (a + d) % N = if a % N + d < N then a % N + d
      else a % N + d - N := by
    rw [Nat.add_mod, Nat.mod_eq_of_lt hd]
    split_ifs with hlt
    · exact Nat.mod_eq_of_lt hlt
    · rw [Nat.mod_eq_sub_mod (by omega), Nat.mod_eq_of_lt (by omega)]
  rw [queued, hsum, Nat.add_sub_cancel_left]
  split_ifs with hlt
  · have heq : a % N + d + N - a % N = d + N := by omega
    rw [heq, Nat.add_mod_right, Nat.mod_eq_of_lt hd]
  · have heq : a % N + d - N + N - a % N = d := by omega
    rw [heq, Nat.mod_eq_of_lt hd]

/-- Going back `k` slots from the head of a window. -/
theorem back_mod {N b k : ℕ} (hk : k ≤ b) (hkN : k < N) :
    (b % N + N - k) % N = (b - k) % N := by
  have hmod : b % N < N := Nat.mod_lt _ (by omega)
  have hb : b = b % N + N * (b / N) := (Nat.mod_add_div b N).symm
  by_cases hle : k ≤ b % N
  · have h₁ : b % N + N - k = (b % N - k) + N := by omega
    have h₂ : b - k = (b % N - k) + N * (b / N) := by omega
    rw [h₁, h₂, Nat.add_mod_right, Nat.add_mul_mod_self_left]
  · have hpos : 0 < b / N := by
      rcases Nat.eq_zero_or_pos (b / N) with hzero | hpos
      · rw [hzero] at hb
        omega
      · exact hpos
    obtain ⟨q, hq⟩ := Nat.exists_eq_succ_of_ne_zero hpos.ne'
    rw [hq, Nat.mul_succ] at hb
    have h₂ : b - k = (b % N + N - k) + N * q := by omega
    rw [h₂, Nat.add_mul_mod_self_left]

/-- The window of `log` from position `t` on lies in the slots from `tail` to
`head`. -/
structure Window (N : ℕ) (slots : ℕ → α) (head tail : ℕ) (log : List α)
    (t : ℕ) : Prop where
  head_eq : head = log.length % N
  tail_eq : tail = t % N
  le : t ≤ log.length
  lt : log.length - t < N
  slot : ∀ k, t ≤ k → ∀ x, log[k]? = some x → slots (k % N) = x

namespace Window

variable {N : ℕ} {slots : ℕ → α} {head tail : ℕ} {log : List α} {t : ℕ}

theorem queued_eq (h : Window N slots head tail log t) :
    queued N head tail = log.length - t := by
  rw [h.head_eq, h.tail_eq, queued_mod h.le h.lt]

theorem contents_eq (h : Window N slots head tail log t) :
    contents N slots head tail = log.drop t := by
  refine List.ext_getElem ?_ fun i hi hi' => ?_
  · rw [contents, List.length_map, List.length_range, h.queued_eq,
      List.length_drop]
  · have hlt : t + i < log.length := by
      rw [List.length_drop] at hi'
      omega
    have hslot := h.slot (t + i) (by omega) _ (List.getElem?_eq_getElem hlt)
    simp only [contents, List.getElem_map, List.getElem_range,
      List.getElem_drop]
    rw [h.tail_eq, Nat.mod_add_mod, hslot]

/-- The window is empty exactly when head and tail meet. -/
theorem head_ne_tail_iff (h : Window N slots head tail log t) :
    tail ≠ head ↔ t < log.length := by
  constructor
  · intro hne
    refine lt_of_le_of_ne h.le fun heq => hne ?_
    rw [h.head_eq, h.tail_eq, heq]
  · intro hlt
    rw [h.head_eq, h.tail_eq]
    exact mod_ne_of_lt hlt h.lt

/-- The slot at the tail holds the oldest entry of the window. -/
theorem slot_tail (h : Window N slots head tail log t)
    (hlt : t < log.length) : log[t]? = some (slots tail) := by
  have hget := List.getElem?_eq_getElem hlt
  rw [hget, h.tail_eq, h.slot t le_rfl _ hget]

/-- There is room for one more entry when the slot after the head is not the
tail. -/
theorem room_of_ne (h : Window N slots head tail log t)
    (hne : (head + 1) % N ≠ tail) : log.length + 1 - t < N := by
  by_contra hfull
  have hlt := h.lt
  have hle := h.le
  have hlen : log.length + 1 = t + N := by omega
  refine hne ?_
  rw [h.head_eq, h.tail_eq, Nat.mod_add_mod, hlen, Nat.add_mod_right]

/-- There is none when it is. -/
theorem full_of_eq (h : Window N slots head tail log t) (heq : (head + 1) % N = tail) :
    log.length + 1 - t = N := by
  by_contra hroom
  have hlt := h.lt
  have hle := h.le
  have hne : t % N ≠ (log.length + 1) % N := mod_ne_of_lt (by omega) (by omega)
  rw [h.head_eq, h.tail_eq, Nat.mod_add_mod] at heq
  exact hne heq.symm

/-- Writing the slot at the head, which is free, keeps the window. -/
theorem write_free (h : Window N slots head tail log t) (x : α) :
    Window N (Function.update slots head x) head tail log t := by
  refine ⟨h.head_eq, h.tail_eq, h.le, h.lt, fun k hk y hy => ?_⟩
  have hklt : k < log.length := by
    by_contra hge
    rw [List.getElem?_eq_none (by omega)] at hy
    cases hy
  have hlt := h.lt
  have hne : k % N ≠ head := by
    rw [h.head_eq]
    exact mod_ne_of_lt hklt (by omega)
  rw [Function.update_of_ne hne]
  exact h.slot k hk y hy

/-- Advancing the head over a slot that holds the new entry. -/
theorem push (h : Window N slots head tail log t) {x : α}
    (hroom : log.length + 1 - t < N) (hx : slots head = x) :
    Window N slots ((head + 1) % N) tail (log ++ [x]) t := by
  have hle := h.le
  refine ⟨?_, h.tail_eq, ?_, ?_, fun k hk y hy => ?_⟩
  · rw [List.length_append, List.length_singleton, h.head_eq, Nat.mod_add_mod]
  · rw [List.length_append]
    omega
  · rw [List.length_append, List.length_singleton]
    exact hroom
  · rcases lt_trichotomy k log.length with hlt | rfl | hgt
    · rw [List.getElem?_append_left hlt] at hy
      exact h.slot k hk y hy
    · rw [List.getElem?_concat_length] at hy
      rw [← h.head_eq, hx]
      exact Option.some.inj hy
    · rw [List.getElem?_eq_none (by simp; omega)] at hy
      cases hy

/-- Moving the tail forward to a later position of the window. -/
theorem advance (h : Window N slots head tail log t) {t' : ℕ} (htt' : t ≤ t')
    (ht' : t' ≤ log.length) : Window N slots head (t' % N) log t' := by
  have hlt := h.lt
  exact ⟨h.head_eq, rfl, ht', by omega, fun k hk => h.slot k (by omega)⟩

/-- Moving the head back to an earlier position of the window. -/
theorem retract (h : Window N slots head tail log t) {n : ℕ} (htn : t ≤ n)
    (hn : n ≤ log.length) : Window N slots (n % N) tail (log.take n) t := by
  have hlt := h.lt
  have hlen : (log.take n).length = n := by
    rw [List.length_take]
    omega
  refine ⟨by rw [hlen], h.tail_eq, by omega, by omega, fun k hk x hx => ?_⟩
  rw [List.getElem?_take] at hx
  split at hx
  · exact h.slot k hk x hx
  · cases hx

end Window
end RingWindow

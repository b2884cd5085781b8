import Mathlib.Data.Nat.Notation

/-!
# Checked memory

A buffer is the list of its cells.  A store outside the buffer gives `none`, as
does a read with `m[i]?`, so that a computation with a result is one that stays
inside its buffers.  What a sequence of stores leaves is described by laying the
stored cells over the buffer.
-/

namespace CheckedMemory

variable {α : Type*}

/-- Store one cell. -/
def store (m : List α) (i : ℕ) (x : α) : Option (List α) :=
  if i < m.length then some (m.set i x) else none

/-- Copy cells one by one from another buffer, as `memcpy` does. -/
def copy (src m : List α) (start i : ℕ) : ℕ → Option (List α)
  | 0 => some m
  | n + 1 => do
      let x ← src[start]?
      let m ← store m i x
      copy src m (start + 1) (i + 1) n

/-- Read a number of cells. -/
def slice (m : List α) (i n : ℕ) : Option (List α) :=
  if i + n ≤ m.length then some ((m.drop i).take n) else none

/-- The buffer with `xs` laid over it from position `i` on. -/
def overlay (m : List α) (i : ℕ) (xs : List α) : List α :=
  m.take i ++ xs ++ m.drop (i + xs.length)

variable {m src xs ys : List α} {i start n : ℕ} {x : α}

theorem slice_eq (h : i + n ≤ m.length) :
    slice m i n = some ((m.drop i).take n) := if_pos h

@[simp] theorem overlay_nil : overlay m i [] = m := by
  simp [overlay]

theorem length_overlay (h : i + xs.length ≤ m.length) :
    (overlay m i xs).length = m.length := by
  simp only [overlay, List.length_append, List.length_take, List.length_drop]
  omega

theorem take_overlay (h : i + xs.length ≤ m.length) :
    (overlay m i xs).take (i + xs.length) = m.take i ++ xs := by
  have hlen : (m.take i ++ xs).length = i + xs.length := by
    rw [List.length_append, List.length_take]
    omega
  rw [overlay, List.take_left' hlen]

theorem drop_overlay (h : i + xs.length ≤ m.length) :
    (overlay m i xs).drop (i + xs.length) = m.drop (i + xs.length) := by
  have hlen : (m.take i ++ xs).length = i + xs.length := by
    rw [List.length_append, List.length_take]
    omega
  rw [overlay, List.drop_left' hlen]

/-- Cells laid right behind others. -/
theorem overlay_overlay (h : i + xs.length ≤ m.length) (ys : List α) :
    overlay (overlay m i xs) (i + xs.length) ys = overlay m i (xs ++ ys) := by
  have hdrop : (overlay m i xs).drop (i + xs.length + ys.length) =
      m.drop (i + (xs ++ ys).length) := by
    rw [← List.drop_drop, drop_overlay h, List.drop_drop, List.length_append,
      Nat.add_assoc]
  rw [overlay, take_overlay h, hdrop, overlay]
  simp only [List.append_assoc]

theorem store_eq_overlay (h : i < m.length) :
    store m i x = some (overlay m i [x]) := by
  rw [store, if_pos h, overlay, List.set_eq_take_append_cons_drop, if_pos h]
  simp

/-- One more cell behind those laid over the beginning. -/
theorem store_overlay (m xs : List α) (hxs : xs.length < m.length) (x : α) :
    store (overlay m 0 xs) xs.length x = some (overlay m 0 (xs ++ [x])) := by
  have hfits : 0 + xs.length ≤ m.length := by omega
  have hmore : overlay (overlay m 0 xs) xs.length [x] =
      overlay m 0 (xs ++ [x]) := by
    have h := overlay_overlay hfits [x]
    rwa [Nat.zero_add] at h
  rw [store_eq_overlay (by rw [length_overlay hfits]; exact hxs), hmore]

/-- Inside both buffers, copying lays the copied cells over the buffer. -/
theorem copy_eq_overlay (hsrc : start + n ≤ src.length)
    (hm : i + n ≤ m.length) :
    copy src m start i n = some (overlay m i ((src.drop start).take n)) := by
  induction n generalizing m start i with
  | zero => simp [copy]
  | succ n ih =>
      have hstart : start < src.length := by omega
      have hi : i < m.length := by omega
      have hone : i + [src[start]].length ≤ m.length := hi
      rw [copy, List.getElem?_eq_getElem hstart]
      simp only [Option.bind_eq_bind, Option.bind_some, store_eq_overlay hi]
      rw [ih (by omega) (by rw [length_overlay hone]; omega)]
      rw [show i + 1 = i + [src[start]].length from rfl, overlay_overlay hone,
        List.drop_eq_getElem_cons hstart, List.take_succ_cons]
      rfl

end CheckedMemory

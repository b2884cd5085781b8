import Mathlib.Data.Int.Notation
import Mathlib.Data.Nat.Notation

/-!
# Serial numbers

Counters that wrap around are compared by the sign of their difference.  This
module defines the signed difference of two 32-bit numbers and the facts that
hold while the numbers stay in one half of the range.
-/

namespace SerialNumber

/-- The difference of two 32-bit numbers, read as a signed number. -/
def delta (a b : UInt32) : ℤ :=
  let d := (a - b).toNat
  if d < 0x80000000 then (d : ℤ) else (d : ℤ) - 0x100000000

/-- The earlier of two numbers; the second one if they are equal. -/
def earlier (a b : UInt32) : UInt32 := if delta a b < 0 then a else b

/-- The later of two numbers; the second one if they are equal. -/
def later (a b : UInt32) : UInt32 := if delta a b > 0 then a else b

theorem toNat_sub (a b : UInt32) :
    (a - b).toNat = (0x100000000 - b.toNat + a.toNat) % 0x100000000 :=
  UInt32.toNat_sub a b

/-- How far a number is after a base. -/
def position (base a : UInt32) : ℕ := (a - base).toNat

theorem position_injective {base a b : UInt32}
    (h : position base a = position base b) : a = b := by
  have ha := toNat_sub a base
  have hb := toNat_sub b base
  have hlta := a.toNat_lt
  have hltb := b.toNat_lt
  have hbase := base.toNat_lt
  simp only [position] at h
  rw [← UInt32.toNat_inj]
  omega

@[simp] theorem position_zero (a : UInt32) : position 0 a = a.toNat := by
  simp [position]

/-- Less than `0x80000000` after a common base, the signed difference is the
difference of the positions. -/
theorem delta_eq_position {base a b : UInt32}
    (ha : position base a < 0x80000000) (hb : position base b < 0x80000000) :
    delta a b = (position base a : ℤ) - position base b := by
  have hsub := toNat_sub a b
  have hsa := toNat_sub a base
  have hsb := toNat_sub b base
  have hlta := a.toNat_lt
  have hltb := b.toNat_lt
  have hbase := base.toNat_lt
  simp only [position] at *
  simp only [delta]
  split <;> omega

/-- There the difference of a later number and an earlier one is the difference
of their positions. -/
theorem toNat_sub_eq_position {base a b : UInt32}
    (h : position base b ≤ position base a) :
    (a - b).toNat = position base a - position base b := by
  have hsub := toNat_sub a b
  have hsa := toNat_sub a base
  have hsb := toNat_sub b base
  have hlta := a.toNat_lt
  have hltb := b.toNat_lt
  have hbase := base.toNat_lt
  simp only [position] at *
  omega

/-- Of two clock readings less than half the range apart the earlier one is more
than half the range ahead of the other, as the numbers have it. -/
theorem half_lt_sub_iff {a b : ℕ} (hab : a < b + 0x80000000)
    (hba : b < a + 0x80000000) :
    UInt32.ofNat a - UInt32.ofNat b > 0x80000000 ↔ a < b := by
  have hsub := toNat_sub (UInt32.ofNat a) (UInt32.ofNat b)
  have ha : (UInt32.ofNat a).toNat = a % 0x100000000 := UInt32.toNat_ofNat
  have hb : (UInt32.ofNat b).toNat = b % 0x100000000 := UInt32.toNat_ofNat
  have hhalf : (0x80000000 : UInt32).toNat = 0x80000000 := rfl
  rw [gt_iff_lt, UInt32.lt_iff_toNat_lt, hsub, ha, hb, hhalf]
  omega

/-! ## Windows -/

/-- A range of numbers, by its first and its last one. -/
structure Window where
  first : UInt32
  last : UInt32
  deriving DecidableEq

/-- Extend a window to a range. -/
def Window.widen (w r : Window) : Window :=
  ⟨earlier r.first w.first, later r.last w.last⟩

/-- Both ends are less than `0x80000000` after the base. -/
structure Window.Within (base : UInt32) (w : Window) : Prop where
  first : position base w.first < 0x80000000
  last : position base w.last < 0x80000000

/-- Counted from the base, the range starts and ends inside the window. -/
structure Window.Covers (base : UInt32) (w r : Window) : Prop where
  first : position base w.first ≤ position base r.first
  last : position base r.last ≤ position base w.last

/-- The smallest window that covers all of the ranges. -/
structure Window.IsHull (base : UInt32) (w : Window) (rs : List Window) :
    Prop where
  within : w.Within base
  covers : ∀ r ∈ rs, w.Covers base r
  first : ∃ r ∈ rs, r.first = w.first
  last : ∃ r ∈ rs, r.last = w.last

variable {base : UInt32} {w v r : Window}

theorem position_earlier {a b : UInt32} (ha : position base a < 0x80000000)
    (hb : position base b < 0x80000000) :
    position base (earlier a b) = min (position base a) (position base b) := by
  rw [earlier, delta_eq_position ha hb]
  split <;> omega

theorem position_later {a b : UInt32} (ha : position base a < 0x80000000)
    (hb : position base b < 0x80000000) :
    position base (later a b) = max (position base a) (position base b) := by
  rw [later, delta_eq_position ha hb]
  split <;> omega

theorem earlier_eq_or (a b : UInt32) : earlier a b = a ∨ earlier a b = b := by
  rw [earlier]
  split
  · exact Or.inl rfl
  · exact Or.inr rfl

theorem later_eq_or (a b : UInt32) : later a b = a ∨ later a b = b := by
  rw [later]
  split
  · exact Or.inl rfl
  · exact Or.inr rfl

namespace Window

theorem Covers.refl (base : UInt32) (w : Window) : w.Covers base w :=
  ⟨Nat.le_refl _, Nat.le_refl _⟩

theorem Covers.trans (h : w.Covers base v) (hv : v.Covers base r) :
    w.Covers base r :=
  ⟨Nat.le_trans h.first hv.first, Nat.le_trans hv.last h.last⟩

theorem Within.widen (hw : w.Within base) (hr : r.Within base) :
    (w.widen r).Within base := by
  constructor
  · rcases earlier_eq_or r.first w.first with h | h <;> rw [Window.widen, h]
    · exact hr.first
    · exact hw.first
  · rcases later_eq_or r.last w.last with h | h <;> rw [Window.widen, h]
    · exact hr.last
    · exact hw.last

theorem widen_covers_range (hw : w.Within base) (hr : r.Within base) :
    (w.widen r).Covers base r := by
  constructor
  · rw [widen, position_earlier hr.first hw.first]
    exact Nat.min_le_left _ _
  · rw [widen, position_later hr.last hw.last]
    exact Nat.le_max_left _ _

theorem widen_covers_window (hw : w.Within base) (hr : r.Within base) :
    (w.widen r).Covers base w := by
  constructor
  · rw [widen, position_earlier hr.first hw.first]
    exact Nat.min_le_right _ _
  · rw [widen, position_later hr.last hw.last]
    exact Nat.le_max_right _ _

theorem IsHull.single (hr : r.Within base) : IsHull base r [r] :=
  ⟨hr, by simpa using Covers.refl base r, ⟨r, by simp, rfl⟩, ⟨r, by simp, rfl⟩⟩

theorem IsHull.widen {rs : List Window} (h : IsHull base w rs)
    (hr : r.Within base) : IsHull base (w.widen r) (rs ++ [r]) := by
  refine ⟨h.within.widen hr, ?_, ?_, ?_⟩
  · intro v hv
    rcases List.mem_append.mp hv with hold | hnew
    · exact (widen_covers_window h.within hr).trans (h.covers v hold)
    · rw [List.mem_singleton.mp hnew]
      exact widen_covers_range h.within hr
  · rcases earlier_eq_or r.first w.first with heq | heq
    · exact ⟨r, by simp, heq.symm⟩
    · obtain ⟨v, hv, hfirst⟩ := h.first
      exact ⟨v, by simp [hv], hfirst.trans heq.symm⟩
  · rcases later_eq_or r.last w.last with heq | heq
    · exact ⟨r, by simp, heq.symm⟩
    · obtain ⟨v, hv, hlast⟩ := h.last
      exact ⟨v, by simp [hv], hlast.trans heq.symm⟩

theorem IsHull.snoc {rs : List Window} (h : IsHull base w rs)
    (hr : w.Covers base r) : IsHull base w (rs ++ [r]) := by
  refine ⟨h.within, ?_, ?_, ?_⟩
  · intro v hv
    rcases List.mem_append.mp hv with hold | hnew
    · exact h.covers v hold
    · rwa [List.mem_singleton.mp hnew]
  · obtain ⟨v, hv, hfirst⟩ := h.first
    exact ⟨v, by simp [hv], hfirst⟩
  · obtain ⟨v, hv, hlast⟩ := h.last
    exact ⟨v, by simp [hv], hlast⟩

/-- Another window covers all of the ranges if and only if it covers their
hull. -/
theorem IsHull.forall_covers_iff {rs : List Window} (h : IsHull base w rs) :
    (∀ r ∈ rs, v.Covers base r) ↔ v.Covers base w := by
  constructor
  · intro hv
    obtain ⟨a, ha, hfirst⟩ := h.first
    obtain ⟨b, hb, hlast⟩ := h.last
    exact ⟨hfirst ▸ (hv a ha).first, hlast ▸ (hv b hb).last⟩
  · exact fun hv r hr => hv.trans (h.covers r hr)

end Window

end SerialNumber

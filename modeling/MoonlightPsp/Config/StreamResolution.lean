import MoonlightPsp.Config.LoadSave
import MoonlightPsp.Lib.CheckedInt

/-!
# Normalisation of the stream resolution

A size that was asked for is replaced by one of the 30:17 sizes between 300x170 and 480x272.
The rounding adds to the numbers before it divides them, and the largest ones overflow there.
-/

namespace MoonlightPsp.Config

open CheckedInt

/-! ## With checked additions -/

/-- `scale & 1` rounded up, if that does not overflow. -/
def evenUpChecked (scale : ℤ) : Option ℤ := if scale % 2 = 1 then int (scale + 1) else some scale

/-- `streamResolutionNormalize`, if no step of it overflows. -/
def streamResolutionNormalizeChecked (width height : ℤ) : Option (ℤ × ℤ) := do
  let width := if width > 0 then width else 480
  let height := if height > 0 then height else 272
  let scaleMin := (300 + 29) / 30
  let scaleMax := 480 / 30
  let roundedWidth ← int (width + 15)
  let roundedHeight ← int (height + 8)
  let sum ← int (roundedWidth / 30 + roundedHeight / 17)
  let sum ← int (sum + 1)
  let scale ← evenUpChecked (sum / 2)
  let scale ← evenUpChecked (if scale < scaleMin then scaleMin else scale)
  let scale := if scale > scaleMax then scaleMax - scaleMax % 2 else scale
  let scale := if scale < 2 then 2 else scale
  let width ← int (30 * scale)
  let height ← int (17 * scale)
  if height > 272 then
    let scale := 272 / 17 - 272 / 17 % 2
    let width ← int (30 * scale)
    let height ← int (17 * scale)
    some (width, height)
  else some (width, height)

/-- A size that the stream can have: the bounds are `STREAM_MIN_WIDTH`, `STREAM_MAX_WIDTH`,
`STREAM_MIN_HEIGHT` and `STREAM_MAX_HEIGHT`. -/
structure Normalized (size : ℤ × ℤ) : Prop where
  even_width : size.1 % 2 = 0
  even_height : size.2 % 2 = 0
  width : 300 ≤ size.1 ∧ size.1 ≤ 480
  height : 170 ≤ size.2 ∧ size.2 ≤ 272
  ratio : 17 * size.1 = 30 * size.2

/-- The request is normalised without an overflow, and once is enough. -/
def Settles (width height : ℤ) : Prop :=
  ∃ size, streamResolutionNormalizeChecked width height = some size ∧ Normalized size ∧
    streamResolutionNormalizeChecked size.1 size.2 = some size

variable {width height scale : ℤ} {size : ℤ × ℤ}

/-! ## The scale -/

theorem evenUp_spec (scale : ℤ) :
    evenUp scale % 2 = 0 ∧ scale ≤ evenUp scale ∧ evenUp scale ≤ scale + 1 := by
  rw [evenUp]
  split
  · omega
  · omega

theorem evenUpChecked_eq (hlo : 0 ≤ scale) (hhi : scale < 2147483647) :
    evenUpChecked scale = some (evenUp scale) := by
  rw [evenUpChecked, evenUp]
  split
  · exact int_of_bounds (by omega) (by omega)
  · rfl

/-- The scales of the sizes. -/
def IsScale (scale : ℤ) : Prop := scale % 2 = 0 ∧ 10 ≤ scale ∧ scale ≤ 16

/-- The last step of the scale, once it is even and no less than the least one. -/
def atMostMax (scale : ℤ) : ℤ :=
  let scale := if scale > 480 / 30 then 480 / 30 - 480 / 30 % 2 else scale
  if scale < 2 then 2 else scale

theorem isScale_atMostMax (heven : scale % 2 = 0) (hmin : 10 ≤ scale) :
    IsScale (atMostMax scale) := by
  simp only [IsScale, atMostMax]
  split
  · rw [if_neg (by omega)]
    omega
  · rw [if_neg (by omega)]
    omega

theorem atMostMax_of_isScale (h : IsScale scale) : atMostMax scale = scale := by
  obtain ⟨-, hlo, hhi⟩ := h
  simp only [atMostMax]
  rw [if_neg (by omega), if_neg (by omega)]

/-- The scale that a positive size asks for. -/
def scaleOf (width height : ℤ) : ℤ := evenUp (((width + 15) / 30 + (height + 8) / 17 + 1) / 2)

/-- The scale in the bounds. -/
def clampedScale (scale : ℤ) : ℤ :=
  atMostMax (evenUp (if scale < (300 + 29) / 30 then (300 + 29) / 30 else scale))

theorem isScale_clampedScale (scale : ℤ) : IsScale (clampedScale scale) := by
  apply isScale_atMostMax
  · exact (evenUp_spec _).1
  · refine Int.le_trans ?_ (evenUp_spec _).2.1
    split
    · decide
    · rename_i hlt
      exact Int.not_lt.mp hlt

/-- The size of a scale. -/
def scaledSize (scale : ℤ) : ℤ × ℤ := (30 * scale, 17 * scale)

/-- A width or a height that is not positive stands for that of the screen. -/
def orElse (size screen : ℤ) : ℤ := if size > 0 then size else screen

/-- Both dimensions come from one scale; the last test of the source never holds. -/
theorem streamResolutionNormalize_eq (width height : ℤ) :
    streamResolutionNormalize width height =
      scaledSize (clampedScale (scaleOf (orElse width 480) (orElse height 272))) := by
  have hscale := isScale_clampedScale (scaleOf (orElse width 480) (orElse height 272))
  have hle : ¬ 17 * clampedScale (scaleOf (orElse width 480) (orElse height 272)) > 272 := by
    have := hscale.2.2
    omega
  exact congrArg scaledSize (if_neg hle)

theorem normalized_scaledSize (h : IsScale scale) : Normalized (scaledSize scale) := by
  obtain ⟨heven, hlo, hhi⟩ := h
  constructor
  · change 30 * scale % 2 = 0
    omega
  · change 17 * scale % 2 = 0
    omega
  · change 300 ≤ 30 * scale ∧ 30 * scale ≤ 480
    omega
  · change 170 ≤ 17 * scale ∧ 17 * scale ≤ 272
    omega
  · change 17 * (30 * scale) = 30 * (17 * scale)
    omega

/-! ## Where the additions overflow -/

/-- With room for the two additions the checked computation is the one without checks. -/
theorem streamResolutionNormalizeChecked_eq (hw : width ≤ 2147483632)
    (hh : height ≤ 2147483639) :
    streamResolutionNormalizeChecked width height =
      some (streamResolutionNormalize width height) := by
  have hw0 : 0 < orElse width 480 ∧ orElse width 480 ≤ 2147483632 := by
    rw [orElse]
    split
    · omega
    · omega
  have hh0 : 0 < orElse height 272 ∧ orElse height 272 ≤ 2147483639 := by
    rw [orElse]
    split
    · omega
    · omega
  have hclamped := isScale_clampedScale (scaleOf (orElse width 480) (orElse height 272))
  have hhi := hclamped.2.2
  have hlo := hclamped.2.1
  rw [streamResolutionNormalize_eq]
  change (do
    let roundedWidth ← int (orElse width 480 + 15)
    let roundedHeight ← int (orElse height 272 + 8)
    let sum ← int (roundedWidth / 30 + roundedHeight / 17)
    let sum ← int (sum + 1)
    let scale ← evenUpChecked (sum / 2)
    let scale ← evenUpChecked (if scale < (300 + 29) / 30 then (300 + 29) / 30 else scale)
    let width ← int (30 * atMostMax scale)
    let height ← int (17 * atMostMax scale)
    if height > 272 then _ else some (width, height)) = _
  have hsum := evenUp_spec
    (((orElse width 480 + 15) / 30 + (orElse height 272 + 8) / 17 + 1) / 2)
  have hmin : evenUpChecked
      (if scaleOf (orElse width 480) (orElse height 272) < (300 + 29) / 30 then (300 + 29) / 30
        else scaleOf (orElse width 480) (orElse height 272)) =
      some (evenUp
        (if scaleOf (orElse width 480) (orElse height 272) < (300 + 29) / 30 then (300 + 29) / 30
          else scaleOf (orElse width 480) (orElse height 272))) := by
    apply evenUpChecked_eq
    · split
      · decide
      · rename_i hlt
        omega
    · split
      · decide
      · rw [scaleOf]
        omega
  rw [int_of_bounds (by omega) (by omega), int_of_bounds (by omega) (by omega)]
  simp only [Option.bind_eq_bind, Option.bind_some]
  rw [int_of_bounds (by omega) (by omega), Option.bind_some,
    int_of_bounds (by omega) (by omega), Option.bind_some,
    evenUpChecked_eq (by omega) (by omega), Option.bind_some, ← scaleOf, hmin, Option.bind_some,
    ← clampedScale, int_of_bounds (by omega) (by omega), Option.bind_some,
    int_of_bounds (by omega) (by omega), Option.bind_some, if_neg (by omega), scaledSize]

/-- A computation with a result has found room for both. -/
theorem le_of_streamResolutionNormalizeChecked
    (h : streamResolutionNormalizeChecked width height = some size) :
    width ≤ 2147483632 ∧ height ≤ 2147483639 := by
  rw [streamResolutionNormalizeChecked] at h
  obtain ⟨roundedWidth, hwidth, h⟩ := Option.bind_eq_some_iff.mp h
  obtain ⟨roundedHeight, hheight, -⟩ := Option.bind_eq_some_iff.mp h
  have hw := (int_eq_some.mp hwidth).1.2
  have hh := (int_eq_some.mp hheight).1.2
  constructor
  · split at hw
    · omega
    · omega
  · split at hh
    · omega
    · omega

/-! ## The result is a fixed point -/

/-- Rounding finds the scale a size was made from. -/
theorem scaleOf_scaledSize (h : IsScale scale) : scaleOf (30 * scale) (17 * scale) = scale := by
  obtain ⟨heven, -, -⟩ := h
  have hhalf : ((30 * scale + 15) / 30 + (17 * scale + 8) / 17 + 1) / 2 = scale := by omega
  rw [scaleOf, hhalf, evenUp, if_neg (by omega)]

theorem clampedScale_of_isScale (h : IsScale scale) : clampedScale scale = scale := by
  have hmin : ¬ scale < (300 + 29) / 30 := Int.not_lt.mpr h.2.1
  have heven : evenUp scale = scale := by
    rw [evenUp, if_neg]
    have := h.1
    omega
  rw [clampedScale, if_neg hmin, heven]
  exact atMostMax_of_isScale h

theorem streamResolutionNormalize_scaledSize (h : IsScale scale) :
    streamResolutionNormalize (30 * scale) (17 * scale) = scaledSize scale := by
  have hpos := h.2.1
  rw [streamResolutionNormalize_eq, orElse, orElse, if_pos (by omega), if_pos (by omega),
    scaleOf_scaledSize h, clampedScale_of_isScale h]

/-- The request is normalised without an overflow to an even 30:17 size in the bounds, which is
its own normalisation, exactly if neither addition overflows. -/
theorem settles_iff (width height : ℤ) :
    Settles width height ↔ width ≤ 2147483632 ∧ height ≤ 2147483639 := by
  constructor
  · rintro ⟨size, hsize, -, -⟩
    exact le_of_streamResolutionNormalizeChecked hsize
  · rintro ⟨hw, hh⟩
    have hscale := isScale_clampedScale (scaleOf (orElse width 480) (orElse height 272))
    have hhi := hscale.2.2
    refine ⟨_, streamResolutionNormalizeChecked_eq hw hh, ?_, ?_⟩
    · rw [streamResolutionNormalize_eq]
      exact normalized_scaledSize hscale
    · rw [streamResolutionNormalize_eq, scaledSize,
        streamResolutionNormalizeChecked_eq (by omega) (by omega),
        streamResolutionNormalize_scaledSize hscale, scaledSize]

/-- The largest width overflows. -/
theorem not_settles_largest : ¬ ∀ width height : ℤ,
    -2147483648 ≤ width ∧ width ≤ 2147483647 → -2147483648 ≤ height ∧ height ≤ 2147483647 →
      Settles width height := by
  intro h
  obtain ⟨size, hsize, -, -⟩ := h 2147483647 272 (by decide) (by decide)
  cases hsize

end MoonlightPsp.Config

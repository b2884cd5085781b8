import MoonlightPsp.Sps.BitReader
import MoonlightPsp.Sps.BitWriter

/-!
# Writing and loading a NAL unit

`write_nal` and `load_rbsp` keep a count of zero bytes each.  The two counts agree at every
byte, so that writing and loading undo each other in both orders.
-/

namespace MoonlightPsp.Sps

open EmulationPrevention

/-- A call of `write_nal` writes the unit at the start of any buffer with room for it, and fails
in any without. -/
def Writes (header : UInt8) (rbsp nal : List UInt8) : Prop :=
  ∀ (dst : List UInt8) (cap : ℕ), cap ≤ dst.length →
    (nal.length ≤ cap → writeNal header rbsp dst cap = pure (written dst nal)) ∧
      (cap < nal.length → ∃ dst', writeNal header rbsp dst cap = throw dst')

/-- The bytes behind the header hold no `00 00 00`, `00 00 01` or `00 00 02`. -/
def NoStartCode (nal : List UInt8) : Prop :=
  ∀ front back : List UInt8, ∀ x : UInt8, nal.tail = front ++ 0 :: 0 :: x :: back → ¬ x < 3

/-- The bytes that a reader was filled with. -/
def Bits.content (b : Bits) : List UInt8 := b.bytes.take (b.bits / 8)

variable {header nalType : UInt8} {rbsp nal : List UInt8} {b : Bits}

theorem content_start (rbsp : List UInt8) :
    (Bits.start rbsp (rbsp.length * 8)).content = rbsp := by
  change rbsp.take (rbsp.length * 8 / 8) = rbsp
  rw [Nat.mul_div_cancel _ (by omega), List.take_length]

/-! ## Writing -/

theorem writes_nalOf (header : UInt8) (rbsp : List UInt8) :
    Writes header rbsp (nalOf header rbsp) := by
  intro dst cap hcap
  constructor
  · intro hfits
    have hpos : cap ≠ 0 := by
      rintro rfl
      exact absurd hfits (Nat.not_succ_le_zero _)
    rw [writeNal, if_neg hpos, writeUnit_of_le hcap hfits]
  · intro hfull
    by_cases hpos : cap = 0
    · exact ⟨dst, by rw [writeNal, if_pos hpos]⟩
    · rw [writeNal, if_neg hpos]
      exact ⟨_, writeUnit_of_lt hcap (Nat.pos_of_ne_zero hpos) hfull⟩

theorem noStartCode_nalOf (header : UInt8) (rbsp : List UInt8) :
    NoStartCode (nalOf header rbsp) := by
  intro front back x htail hx
  apply not_illegalEscape_escape rbsp
  exact IllegalEscape.run front back x hx htail

theorem length_nalOf_le (header : UInt8) (rbsp : List UInt8) :
    (nalOf header rbsp).length ≤ 2 * rbsp.length + 1 := by
  rw [nalOf, List.length_cons]
  exact Nat.succ_le_succ (length_escapeFrom_le 0 rbsp)

/-! ## Loading -/

theorem loadRbsp_nalOf (hrbsp : rbsp ≠ []) (htype : header &&& 0x9f = nalType)
    (hlen : (nalOf header rbsp).length ≤ 1024) :
    loadRbsp (nalOf header rbsp) nalType = some (.start rbsp (rbsp.length * 8)) := by
  have hback : unescape (nalOf header rbsp).tail = some rbsp := unescape_escape rbsp
  have hle := length_le_of_unescape hback
  have hpos := List.length_pos_of_ne_nil hrbsp
  rw [List.length_tail] at hle
  rw [loadRbsp_eq_some]
  exact ⟨⟨by omega, hlen, htype⟩, rbsp, hback, hrbsp, rfl⟩

/-- A unit that was loaded is the one made from its header and what was loaded. -/
theorem nalOf_of_loadRbsp (h : loadRbsp nal nalType = some b) :
    nalOf (nal.headD 0) b.content = nal := by
  obtain ⟨⟨hmin, -, -⟩, out, hout, -, rfl⟩ := loadRbsp_eq_some.mp h
  rw [content_start, nalOf, escape_of_unescape hout]
  cases nal with
  | nil => exact absurd hmin (by decide)
  | cons x xs => rfl

/-! ## Both orders -/

/-- Written and loaded again, raw bytes come back, and the unit between holds no start code. -/
def Survives (header nalType : UInt8) (rbsp : List UInt8) : Prop :=
  ∃ nal, Writes header rbsp nal ∧ nal.length ≤ 2 * rbsp.length + 1 ∧ nal.head? = some header ∧
    NoStartCode nal ∧
    (nal.length ≤ 1024 → ∃ b, loadRbsp nal nalType = some b ∧ b.content = rbsp ∧
      b.bits = 8 * rbsp.length ∧ b.pos = 0 ∧ b.bad = false)

/-- Every raw byte string survives, and loaded bytes are written back as they were. -/
theorem writeNal_loadRbsp (header nalType : UInt8) (rbsp : List UInt8) (hrbsp : rbsp ≠ [])
    (htype : header &&& 0x9f = nalType) :
    Survives header nalType rbsp ∧
      ∀ nal b, loadRbsp nal nalType = some b → Writes (nal.headD 0) b.content nal := by
  constructor
  · refine ⟨nalOf header rbsp, writes_nalOf header rbsp, length_nalOf_le header rbsp, rfl,
      noStartCode_nalOf header rbsp, ?_⟩
    intro hlen
    refine ⟨_, loadRbsp_nalOf hrbsp htype hlen, content_start rbsp, ?_, rfl, rfl⟩
    exact Nat.mul_comm rbsp.length 8
  · intro nal b hload
    have hwrites := writes_nalOf (nal.headD 0) b.content
    rwa [nalOf_of_loadRbsp hload] at hwrites

/-- A parameter set with a run of zeros. -/
theorem writeNal_loadRbsp_zeros : Survives 0x67 0x07 [0x42, 0, 0, 0, 0, 1, 0x80] ∧
    ∀ nal b, loadRbsp nal 0x07 = some b → Writes (nal.headD 0) b.content nal :=
  writeNal_loadRbsp 0x67 0x07 [0x42, 0, 0, 0, 0, 1, 0x80] (by decide) (by decide)

example : writeNal 0x67 [0x42, 0, 0, 0, 0, 1, 0x80] (List.replicate 16 0) 16 =
    pure (written (List.replicate 16 0) [0x67, 0x42, 0, 0, 3, 0, 0, 3, 1, 0x80]) := by
  rfl

end MoonlightPsp.Sps

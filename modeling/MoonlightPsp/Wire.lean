import Mathlib.Data.List.GetD
import Mathlib.Data.Nat.Notation

/-!
# Packets as received

A packet is the list of its bytes.  The helpers read and write the fields of the
RTP header and of the `NV_VIDEO_PACKET` that follows it.
-/

namespace MoonlightPsp

/-- A packet as received. -/
abbrev Packet := List UInt8

/-- The frame index that stands for no frame. -/
def noFrame : UInt32 := 0xFFFFFFFF

/-! ## Reading -/

/-- The byte at an offset, zero beyond the end. -/
def byteAt (p : Packet) (off : ℕ) : UInt8 := p.getD off 0

/-- `read_be16`. -/
def readBe16 (p : Packet) (off : ℕ) : UInt16 :=
  ((byteAt p off).toUInt16 <<< 8) ||| (byteAt p (off + 1)).toUInt16

/-- `read_le32`. -/
def readLe32 (p : Packet) (off : ℕ) : UInt32 :=
  (byteAt p off).toUInt32 ||| ((byteAt p (off + 1)).toUInt32 <<< 8) |||
    ((byteAt p (off + 2)).toUInt32 <<< 16) |||
    ((byteAt p (off + 3)).toUInt32 <<< 24)

/-- The X bit of the RTP header, `RTP_FLAG_EXTENSION`. -/
def hasExtension (p : Packet) : Bool := byteAt p 0 &&& 0x10 ≠ 0

/-- `rtp_nv_offset_from_packet`: where the `NV_VIDEO_PACKET` starts, if the
packet is long enough to hold one. -/
def rtpNvOffsetFromPacket (p : Packet) : Option ℕ :=
  let off := if hasExtension p then 12 + 4 else 12
  if p.length < 12 then none
  else if hasExtension p ∧ p.length < 12 + 4 then none
  else if p.length < off + 16 then none
  else some off

/-! ## Writing -/

/-- `write_le32`. -/
def writeLe32 (p : Packet) (off : ℕ) (v : UInt32) : Packet :=
  (((p.set off v.toUInt8).set (off + 1) (v >>> 8).toUInt8).set (off + 2)
    (v >>> 16).toUInt8).set (off + 3) (v >>> 24).toUInt8

/-- `write_be16`. -/
def writeBe16 (p : Packet) (off : ℕ) (v : UInt16) : Packet :=
  (p.set off (v >>> 8).toUInt8).set (off + 1) v.toUInt8

/-- Copy `n` bytes of `src` to the same place in `dst`. -/
def copyBytes (dst src : Packet) (off n : ℕ) : Packet :=
  Nat.fold n (fun i _ p => p.set (off + i) (byteAt src (off + i))) dst

/-! ## Bytes after a write -/

/-- Two bytes written in big-endian order read back. -/
theorem be16_roundTrip (v : UInt16) :
    (((v >>> 8).toUInt8.toUInt16) <<< 8) ||| v.toUInt8.toUInt16 = v := by
  apply UInt16.eq_of_toBitVec_eq
  simp only [UInt16.toBitVec_or, UInt16.toBitVec_shiftLeft,
    UInt8.toBitVec_toUInt16, UInt16.toBitVec_toUInt8,
    UInt16.toBitVec_shiftRight]
  ext i hi
  by_cases hlow : i < 8
  · simp [hlow, BitVec.getLsbD_eq_getElem hi]
  · have hsub : i - 8 < 8 := by omega
    have hadd : 8 + (i - 8) = i := by omega
    simp [hlow, hsub, hadd, BitVec.getLsbD_eq_getElem hi]

theorem byteAt_set (p : Packet) (i : ℕ) (v : UInt8) (t : ℕ) :
    byteAt (p.set i v) t = if t = i ∧ i < p.length then v else byteAt p t := by
  simp only [byteAt, List.getD_eq_getElem?_getD, List.getElem?_set]
  by_cases ht : i = t
  · subst ht
    by_cases hlt : i < p.length
    · simp [hlt]
    · simp [hlt]
  · simp [ht, Ne.symm ht]

theorem byteAt_set_of_ne {p : Packet} {i t : ℕ} (v : UInt8) (h : t ≠ i) :
    byteAt (p.set i v) t = byteAt p t := by
  rw [byteAt_set, if_neg fun ht => h ht.1]

theorem byteAt_writeLe32 {p : Packet} {off t : ℕ} (v : UInt32)
    (h : t < off ∨ off + 4 ≤ t) : byteAt (writeLe32 p off v) t = byteAt p t := by
  rw [writeLe32, byteAt_set_of_ne _ (by omega), byteAt_set_of_ne _ (by omega),
    byteAt_set_of_ne _ (by omega), byteAt_set_of_ne _ (by omega)]

theorem byteAt_writeBe16 {p : Packet} {off t : ℕ} (v : UInt16)
    (h : t < off ∨ off + 2 ≤ t) : byteAt (writeBe16 p off v) t = byteAt p t := by
  rw [writeBe16, byteAt_set_of_ne _ (by omega), byteAt_set_of_ne _ (by omega)]

theorem readBe16_writeBe16 {p : Packet} {off : ℕ} (v : UInt16)
    (h : off + 1 < p.length) : readBe16 (writeBe16 p off v) off = v := by
  rw [readBe16, writeBe16, byteAt_set_of_ne _ (by omega), byteAt_set, byteAt_set,
    if_pos ⟨rfl, by omega⟩, if_pos ⟨rfl, by simpa using h⟩]
  exact be16_roundTrip v

theorem byteAt_take {p : Packet} {n t : ℕ} (h : t < n) :
    byteAt (p.take n) t = byteAt p t := by
  simp only [byteAt, List.getD_eq_getElem?_getD, List.getElem?_take_of_lt h]

/-- Packets with the same byte 0 have their extension in common. -/
theorem hasExtension_congr {p q : Packet} (h : byteAt p 0 = byteAt q 0) :
    hasExtension p = hasExtension q := by
  rw [hasExtension, hasExtension, h]

theorem readBe16_congr {p q : Packet} {off : ℕ}
    (h : ∀ t, off ≤ t → t < off + 2 → byteAt p t = byteAt q t) :
    readBe16 p off = readBe16 q off := by
  rw [readBe16, readBe16, h off (Nat.le_refl off) (by omega), h (off + 1) (by omega) (by omega)]

theorem readLe32_congr {p q : Packet} {off : ℕ}
    (h : ∀ t, off ≤ t → t < off + 4 → byteAt p t = byteAt q t) :
    readLe32 p off = readLe32 q off := by
  rw [readLe32, readLe32, h off (Nat.le_refl off) (by omega), h (off + 1) (by omega) (by omega),
    h (off + 2) (by omega) (by omega), h (off + 3) (by omega) (by omega)]

/-- Packets of one length that agree on their bytes from an offset on. -/
theorem drop_congr {p q : Packet} {off : ℕ} (hlen : p.length = q.length)
    (h : ∀ t, off ≤ t → byteAt p t = byteAt q t) : p.drop off = q.drop off := by
  refine List.ext_getElem (by simp [hlen]) fun i hi hi' => ?_
  have hbyte := h (off + i) (by omega)
  simp only [List.length_drop] at hi hi'
  rw [byteAt, byteAt, List.getD_eq_getElem _ _ (by omega),
    List.getD_eq_getElem _ _ (by omega)] at hbyte
  simpa using hbyte

end MoonlightPsp

import MoonlightPsp.Sps.StreamFormat

/-!
# The bit reader of the detectors

`nal_read_ue` and `nal_read_bits` of `decoder_thread.c`.  Unlike the readers of the
parameter set checks they fail at once, and a number has at most sixteen zeros in its
code.
-/

namespace MoonlightPsp.Detector

open BitString StickyParser
open Sps (bitAt)

/-! ## The model -/

/-- The arguments `data`, `total_bits` and `bit_pos` of the readers.  The bits lie in
the bytes. -/
structure NalBits where
  bytes : List UInt8
  bits : ℕ
  pos : ℕ
  fits : bits ≤ 8 * bytes.length
  pos_le : pos ≤ bits

/-- A reader at the start of some bits. -/
def NalBits.start (bytes : List UInt8) (bits : ℕ) (fits : bits ≤ 8 * bytes.length) :
    NalBits :=
  ⟨bytes, bits, 0, fits, Nat.zero_le bits⟩

/-- A reader that can return 0. -/
abbrev Reader := StateT NalBits (Except Unit)

/-- The bit at the position, if there is one. -/
def nextBit : Reader ℕ := fun b =>
  if h : b.pos < b.bits then
    .ok (bitAt b.bytes b.pos, { b with pos := b.pos + 1, pos_le := h })
  else .error ()

/-- The first loop of `nal_read_ue`: the number of zero bits up to a one, of which
`left - 1` are still allowed. -/
def zeroRun : ℕ → ℕ → Reader ℕ
  | 0, _ => throw ()
  | left + 1, zeros => do
      let bit ← nextBit
      if bit = 1 then pure zeros else zeroRun left (zeros + 1)

/-- The loops that shift bits into a value. -/
def shiftIn : ℕ → ℕ → Reader ℕ
  | 0, value => pure value
  | n + 1, value => do
      let bit ← nextBit
      shiftIn n ((value <<< 1) ||| bit)

/-- `nal_read_ue`, and `nal_skip_se`, which drops the value. -/
def nalReadUe : Reader ℕ := do
  let zeros ← zeroRun 17 0
  let rest ← shiftIn zeros 0
  pure (2 ^ zeros - 1 + rest)

/-- `nal_read_bits`, and `nal_read_bit` with one bit. -/
def nalReadBits (count : ℕ) : Reader ℕ := fun b =>
  if count > 32 ∨ b.pos + count > b.bits then .error () else shiftIn count 0 b

/-- A reader reads from the bits that are left, and has not failed. -/
instance : Source NalBits Bool where
  rest b := ((toBits b.bytes).take b.bits).drop b.pos
  failed _ := false
  skip n b := { b with pos := min (b.pos + n) b.bits, pos_le := Nat.min_le_right .. }
  rest_skip n b := by
    simp only [List.drop_drop]
    by_cases hn : b.pos + n ≤ b.bits
    · simp only [Nat.min_eq_left hn]
    · have hlen := List.length_take_le b.bits (toBits b.bytes)
      rw [List.drop_eq_nil_of_le (i := b.pos + n) (by omega)]
      exact List.drop_eq_nil_of_le (by omega)
  skip_zero b := by
    simp only [Nat.add_zero, Nat.min_eq_left b.pos_le]
  skip_skip m n b := by
    simp only [NalBits.mk.injEq, true_and]
    omega

/-! ## What is read -/

variable {b : NalBits}

@[simp] theorem length_rest (b : NalBits) : (Source.rest b).length = b.bits - b.pos := by
  have hfits := b.fits
  simp only [Source.rest, List.length_drop, List.length_take, length_toBits]
  omega

@[simp] theorem failed_eq (b : NalBits) : Source.failed b = false := rfl

/-- The bits that are left begin with the bit at the position. -/
theorem rest_cons (h : b.pos < b.bits) :
    Source.rest b = decide (bitAt b.bytes b.pos = 1) ::
      ((toBits b.bytes).take b.bits).drop (b.pos + 1) := by
  have hfits := b.fits
  have hbit := Sps.getElem?_toBits_eq (show b.pos < 8 * b.bytes.length by omega)
  have hlt : b.pos < ((toBits b.bytes).take b.bits).length := by
    rw [List.length_take, length_toBits]
    omega
  have hget : ((toBits b.bytes).take b.bits)[b.pos] =
      decide (bitAt b.bytes b.pos = 1) := by
    rw [List.getElem_take]
    exact (List.getElem?_eq_some_iff.mp hbit).2
  show List.drop _ _ = _
  rw [List.drop_eq_getElem_cons hlt, hget]

theorem parses_nextBit :
    Parses nextBit fun v cs => ∃ flag : Bool, v = flag.toNat ∧ cs = [flag] := by
  intro b v b'
  unfold nextBit
  split
  · rename_i hlt
    have hle := Sps.bitAt_le b.bytes b.pos
    have hskip : Source.skip 1 b = { b with pos := b.pos + 1, pos_le := hlt } := by
      simp only [Source.skip, Nat.min_eq_left hlt]
    have hbit : bitAt b.bytes b.pos = (decide (bitAt b.bytes b.pos = 1)).toNat := by
      by_cases hone : bitAt b.bytes b.pos = 1
      · simp [hone]
      · simp [show bitAt b.bytes b.pos = 0 by omega]
    constructor
    · rintro ⟨hok, -⟩
      cases hok
      exact ⟨rfl, _, ⟨_, hbit, rfl⟩, ⟨_, (rest_cons hlt).symm⟩, hskip.symm⟩
    · rintro ⟨-, -, ⟨flag, rfl, rfl⟩, ⟨more, hmore⟩, rfl⟩
      rw [rest_cons hlt] at hmore
      obtain ⟨rfl, -⟩ := List.cons.inj hmore
      rw [← hbit, List.length_singleton, hskip]
      exact ⟨rfl, rfl⟩
  · rename_i hge
    constructor
    · rintro ⟨hok, -⟩
      cases hok
    · rintro ⟨-, -, ⟨flag, -, rfl⟩, hcs, -⟩
      have hlen := hcs.length_le
      rw [length_rest, List.length_singleton] at hlen
      omega

theorem shiftLeft_or_flag (value : ℕ) (flag : Bool) :
    (value <<< 1) ||| flag.toNat = 2 * value + flag.toNat := by
  have hle := Bool.toNat_le flag
  rw [← Nat.shiftLeft_add_eq_or_of_lt (i := 1) (by omega), Nat.shiftLeft_eq, Nat.mul_comm]

theorem shift_in_flag (value flag n tail : ℕ) :
    (2 * value + flag) * 2 ^ n + tail = value * 2 ^ (n + 1) + (flag * 2 ^ n + tail) := by
  rw [Nat.pow_succ, Nat.add_mul, Nat.mul_comm 2 value, Nat.mul_assoc, Nat.mul_comm 2,
    Nat.add_assoc]

/-- Bits are shifted in behind a value. -/
theorem parses_shiftIn_from (n value : ℕ) :
    Parses (shiftIn n value) fun v cs =>
      cs.length = n ∧ v = value * 2 ^ n + valueOf cs := by
  induction n generalizing value with
  | zero =>
      refine (Parses.pure value).congr fun v cs => ?_
      constructor
      · rintro ⟨rfl, rfl⟩
        exact ⟨rfl, by simp [valueOf]⟩
      · rintro ⟨hlen, rfl⟩
        obtain rfl := List.length_eq_zero_iff.mp hlen
        exact ⟨by simp [valueOf], rfl⟩
  | succ n ih =>
      refine (parses_nextBit.bind fun bit => ih ((value <<< 1) ||| bit)).congr fun v cs => ?_
      constructor
      · rintro ⟨-, -, more, ⟨flag, rfl, rfl⟩, ⟨hlen, rfl⟩, rfl⟩
        refine ⟨by simp [hlen], ?_⟩
        rw [shiftLeft_or_flag, List.singleton_append, valueOf_cons, hlen, shift_in_flag]
      · rintro ⟨hlen, rfl⟩
        cases cs with
        | nil => cases hlen
        | cons flag more =>
            have hmore : more.length = n := Nat.succ.inj hlen
            refine ⟨_, [flag], more, ⟨flag, rfl, rfl⟩, ⟨hmore, ?_⟩, rfl⟩
            rw [shiftLeft_or_flag, valueOf_cons, hmore, shift_in_flag]

theorem parses_shiftIn (n : ℕ) :
    Parses (shiftIn n 0) fun v cs => v < 2 ^ n ∧ cs = bitsOf n v := by
  refine (parses_shiftIn_from n 0).congr fun v cs => ?_
  constructor
  · rintro ⟨rfl, rfl⟩
    rw [Nat.zero_mul, Nat.zero_add]
    exact ⟨valueOf_lt cs, (bitsOf_valueOf cs).symm⟩
  · rintro ⟨hv, rfl⟩
    rw [Nat.zero_mul, Nat.zero_add, valueOf_bitsOf, Nat.mod_eq_of_lt hv]
    exact ⟨length_bitsOf n v, rfl⟩

theorem parses_nalReadBits {n : ℕ} (hn : n ≤ 32) :
    Parses (nalReadBits n) fun v cs => v < 2 ^ n ∧ cs = bitsOf n v := by
  intro b v b'
  unfold nalReadBits
  split
  · rename_i hshort
    have hle := b.pos_le
    constructor
    · rintro ⟨hok, -⟩
      cases hok
    · rintro ⟨-, cs, ⟨-, rfl⟩, hcs, -⟩
      have hlen := hcs.length_le
      rw [length_rest, length_bitsOf] at hlen
      omega
  · exact parses_shiftIn n b v b'

theorem parses_nalReadFlag :
    Parses (nalReadBits 1) fun v cs => ∃ flag : Bool, v = flag.toNat ∧ cs = [flag] := by
  refine (parses_nalReadBits (by decide)).congr fun v cs => ?_
  constructor
  · rintro ⟨hv, rfl⟩
    obtain rfl | rfl : v = 0 ∨ v = 1 := by omega
    · exact ⟨false, rfl, rfl⟩
    · exact ⟨true, rfl, rfl⟩
  · rintro ⟨flag, rfl, rfl⟩
    cases flag
    · exact ⟨by decide, rfl⟩
    · exact ⟨by decide, rfl⟩

theorem parses_zeroRun (left zeros : ℕ) :
    Parses (zeroRun left zeros) fun z cs =>
      ∃ k < left, z = zeros + k ∧ cs = List.replicate k false ++ [true] := by
  induction left generalizing zeros with
  | zero => exact (Parses.throw ()).congr fun _ _ => by simp
  | succ left ih =>
      refine (parses_nextBit.bind fun bit =>
        (Parses.pure zeros).ite (ih (zeros + 1))).congr fun z cs => ?_
      constructor
      · rintro ⟨-, -, bs, ⟨flag, rfl, rfl⟩, hrest, rfl⟩
        cases flag with
        | true =>
            rw [if_pos (by decide)] at hrest
            obtain ⟨rfl, rfl⟩ := hrest
            exact ⟨0, by omega, rfl, rfl⟩
        | false =>
            rw [if_neg (by decide)] at hrest
            obtain ⟨k, hk, rfl, rfl⟩ := hrest
            exact ⟨k + 1, by omega, by omega, rfl⟩
      · rintro ⟨k, hk, rfl, rfl⟩
        cases k with
        | zero => exact ⟨1, [true], [], ⟨true, rfl, rfl⟩, ⟨rfl, rfl⟩, rfl⟩
        | succ k =>
            exact ⟨0, [false], _, ⟨false, rfl, rfl⟩, ⟨k, by omega, by omega, rfl⟩, rfl⟩

/-- Numbers whose codes the detectors read. -/
def IsShortUe (v : ℕ) : Prop := v < 2 ^ 17 - 1

instance (v : ℕ) : Decidable (IsShortUe v) := inferInstanceAs (Decidable (_ < _))

theorem isShortUe_iff (v : ℕ) : IsShortUe v ↔ Nat.log2 (v + 1) < 17 := by
  have hlog : Nat.log2 (v + 1) < 17 ↔ v + 1 < 2 ^ 17 := Nat.log2_lt (by omega)
  rw [IsShortUe]
  omega

theorem parses_nalReadUe :
    Parses nalReadUe fun v cs => IsShortUe v ∧ cs = ueCode v := by
  refine ((parses_zeroRun 17 0).bind fun zeros => (parses_shiftIn zeros).bind fun rest =>
    Parses.pure (2 ^ zeros - 1 + rest)).congr fun v cs => ?_
  constructor
  · rintro ⟨z, -, -, ⟨k, hk, rfl, rfl⟩, ⟨x, -, -, ⟨hx, rfl⟩, ⟨rfl, rfl⟩, rfl⟩, rfl⟩
    rw [Nat.zero_add] at hx ⊢
    have hpow : 2 ^ k ≤ 2 ^ 16 := Nat.pow_le_pow_right (by decide) (by omega)
    refine ⟨?_, ?_⟩
    · unfold IsShortUe
      omega
    · rw [ueCode_of_parts hx]
      simp
  · rintro ⟨hv, rfl⟩
    have hlog := (isShortUe_iff v).mp hv
    have hle := two_pow_log2_le v
    have hpos := Nat.two_pow_pos (Nat.log2 (v + 1))
    refine ⟨Nat.log2 (v + 1), _, _, ⟨Nat.log2 (v + 1), by omega, by omega, rfl⟩,
      ⟨v + 1 - 2 ^ Nat.log2 (v + 1), _, [], ⟨ueRest_lt v, rfl⟩, ⟨by omega, rfl⟩, rfl⟩, ?_⟩
    simp [ueCode]

end MoonlightPsp.Detector

import Mathlib.Data.Nat.Notation
import Mathlib.Logic.Function.Iterate
import Mathlib.Tactic.Common

/-!
# Cyclic redundancy codes

The register of a reflected code is shifted down once for each bit, and the polynomial is
added where a one falls out.  Shifts are linear, and without a kernel where the polynomial
has its highest bit.  So what stands in a burst that fits the register can be read back from
the registers, and two messages that differ in one such burst alone have different codes.
-/

namespace CyclicCode

variable {w : ℕ} (poly : BitVec w)

/-- One shift of the register. -/
def shift (c : BitVec w) : BitVec w :=
  if c.getLsbD 0 then c >>> 1 ^^^ poly else c >>> 1

/-- A byte goes into the register. -/
def step (c : BitVec w) (b : UInt8) : BitVec w :=
  (shift poly)^[8] (c ^^^ b.toBitVec.setWidth w)

/-- The register behind some bytes. -/
def register (c : BitVec w) (bs : List UInt8) : BitVec w := bs.foldl (step poly) c

/-- Bytes side by side, the first one lowest. -/
def word : List UInt8 → BitVec w
  | [] => 0
  | b :: bs => b.toBitVec.setWidth w ^^^ word bs <<< 8

variable {poly} {a b c d : BitVec w} {bs cs : List UInt8} {n : ℕ}

/-! ## Shifts -/

theorem shift_xor : shift poly (a ^^^ b) = shift poly a ^^^ shift poly b := by
  have hcancel : ∀ x y p : BitVec w, x ^^^ p ^^^ (y ^^^ p) = x ^^^ y := by
    intro x y p
    rw [BitVec.xor_assoc, BitVec.xor_comm y p, ← BitVec.xor_assoc p p y, BitVec.xor_self,
      BitVec.zero_xor]
  rw [shift, shift, shift, BitVec.getLsbD_xor, BitVec.ushiftRight_xor_distrib]
  cases a.getLsbD 0 with
  | false =>
      cases b.getLsbD 0 with
      | false => rfl
      | true => exact BitVec.xor_assoc _ _ _
  | true =>
      cases b.getLsbD 0 with
      | false =>
          change a >>> 1 ^^^ b >>> 1 ^^^ poly = a >>> 1 ^^^ poly ^^^ b >>> 1
          rw [BitVec.xor_assoc, BitVec.xor_comm (b >>> 1), ← BitVec.xor_assoc]
      | true => exact (hcancel _ _ _).symm

/-- Only zero is shifted to zero. -/
theorem eq_zero_of_shift (hpoly : poly.msb = true) (h : shift poly c = 0) : c = 0 := by
  rw [shift] at h
  split at h
  · -- The highest bit of the polynomial stays.
    have hmsb := congrArg BitVec.msb h
    rw [BitVec.msb_xor, hpoly, BitVec.msb_ushiftRight] at hmsb
    simp at hmsb
  · rename_i hlow
    rw [Bool.not_eq_true] at hlow
    apply BitVec.eq_of_getLsbD_eq
    intro i _
    cases i with
    | zero => simpa using hlow
    | succ i =>
        have hbit := congrArg (fun x => BitVec.getLsbD x i) h
        simpa [Nat.add_comm] using hbit

theorem shift_injective (hpoly : poly.msb = true) : Function.Injective (shift poly) := by
  intro a b h
  have hsum : shift poly (a ^^^ b) = 0 := by
    rw [shift_xor, h]
    exact BitVec.xor_self
  exact BitVec.xor_eq_zero_iff.mp (eq_zero_of_shift hpoly hsum)

theorem iterate_shift_xor :
    (shift poly)^[n] (a ^^^ b) = (shift poly)^[n] a ^^^ (shift poly)^[n] b := by
  induction n generalizing a b with
  | zero => rfl
  | succ n ih => rw [Function.iterate_succ_apply, shift_xor, ih]; rfl

/-- Zeros that fall out leave the rest as it is. -/
theorem iterate_shift_shiftLeft (h : ∀ i, w ≤ i + n → c.getLsbD i = false) :
    (shift poly)^[n] (c <<< n) = c := by
  induction n generalizing c with
  | zero => exact BitVec.shiftLeft_zero c
  | succ n ih =>
      have hdouble : c <<< (n + 1) = (c <<< 1) <<< n := by
        rw [← BitVec.shiftLeft_add, Nat.add_comm]
      have hnext : ∀ i, w ≤ i + n → (c <<< 1).getLsbD i = false := by
        intro i hi
        rw [BitVec.getLsbD_shiftLeft]
        cases i with
        | zero => simp
        | succ i => simp [h i (by omega)]
      have hlow : (c <<< 1).getLsbD 0 = false := by simp
      rw [hdouble, Function.iterate_succ_apply', ih hnext, shift, hlow, if_neg Bool.false_ne_true]
      apply BitVec.eq_of_getLsbD_eq
      intro i _
      rw [BitVec.getLsbD_ushiftRight, BitVec.getLsbD_shiftLeft]
      by_cases hi : 1 + i < w
      · simp [hi]
      · simp [hi, h i (by omega)]

/-! ## Bursts -/

theorem step_injective (hpoly : poly.msb = true) (x : UInt8) :
    Function.Injective fun c => step poly c x := by
  intro a b h
  have hxor := (shift_injective hpoly).iterate 8 h
  exact (BitVec.xor_left_inj _).mp hxor

theorem register_append : register poly c (bs ++ cs) = register poly (register poly c bs) cs :=
  List.foldl_append

/-- Different registers stay different. -/
theorem register_injective (hpoly : poly.msb = true) (bs : List UInt8) :
    Function.Injective fun c => register poly c bs := by
  induction bs with
  | nil => exact fun _ _ h => h
  | cons x bs ih => exact fun _ _ h => step_injective hpoly x (ih h)

theorem getLsbD_word {i : ℕ} (hi : 8 * bs.length ≤ i) : (word bs : BitVec w).getLsbD i = false := by
  induction bs generalizing i with
  | nil => exact BitVec.getLsbD_zero
  | cons b bs ih =>
      rw [List.length_cons] at hi
      have hhigh : (word bs : BitVec w).getLsbD (i - 8) = false := ih (by omega)
      have hbyte : b.toBitVec.getLsbD i = false := BitVec.getLsbD_of_ge _ _ (by omega)
      rw [word, BitVec.getLsbD_xor, BitVec.getLsbD_setWidth, BitVec.getLsbD_shiftLeft, hhigh, hbyte]
      simp

/-- What fits the register goes in as a whole. -/
theorem register_eq_word (hfits : 8 * bs.length ≤ w) :
    register poly c bs = (shift poly)^[8 * bs.length] (c ^^^ word bs) := by
  induction bs generalizing c with
  | nil => exact (BitVec.xor_zero).symm
  | cons b bs ih =>
      rw [List.length_cons] at hfits
      have hrest : (shift poly)^[8] (word bs <<< 8) = (word bs : BitVec w) :=
        iterate_shift_shiftLeft fun i hi => getLsbD_word (by omega)
      have hcount : 8 * (b :: bs).length = 8 * bs.length + 8 := by
        rw [List.length_cons, Nat.mul_succ]
      have hfirst : register poly c (b :: bs) = register poly (step poly c b) bs := rfl
      rw [hfirst, ih (by omega), step, word, hcount, Function.iterate_add_apply,
        ← BitVec.xor_assoc, @iterate_shift_xor _ _ _ (word bs <<< 8), hrest]

theorem word_injective (hlength : bs.length = cs.length) (hfits : 8 * bs.length ≤ w)
    (h : (word bs : BitVec w) = word cs) : bs = cs := by
  induction bs generalizing cs with
  | nil => exact (List.length_eq_zero_iff.mp hlength.symm).symm
  | cons x bs ih =>
      obtain ⟨y, cs, rfl⟩ := List.exists_cons_of_length_eq_add_one hlength.symm
      rw [List.length_cons, List.length_cons, Nat.add_right_cancel_iff] at hlength
      rw [List.length_cons] at hfits
      rw [word, word] at h
      have hbyte : x = y := by
        apply UInt8.toBitVec_inj.mp
        apply BitVec.eq_of_getLsbD_eq
        intro i hi
        have hbit := congrArg (fun v => BitVec.getLsbD v i) h
        simpa [hi, show i < w by omega] using hbit
      subst hbyte
      have hrest := (BitVec.xor_right_inj _).mp h
      have hshift := congrArg (shift (0 : BitVec w))^[8] hrest
      rw [iterate_shift_shiftLeft fun i hi => getLsbD_word (by omega),
        iterate_shift_shiftLeft fun i hi => getLsbD_word (by omega)] at hshift
      rw [ih hlength (by omega) hshift]

/-- Two messages that differ in a burst that fits the register have different codes. -/
theorem register_burst (hpoly : poly.msb = true) (front back : List UInt8)
    (hlength : bs.length = cs.length) (hfits : 8 * bs.length ≤ w) :
    register poly c (front ++ bs ++ back) = register poly c (front ++ cs ++ back) ↔ bs = cs := by
  refine ⟨fun h => ?_, fun h => by rw [h]⟩
  simp only [register_append] at h
  have hburst := register_injective hpoly back h
  generalize register poly c front = c at hburst
  have hfits' : 8 * cs.length ≤ w := hlength ▸ hfits
  have hsum : c ^^^ word bs = c ^^^ word cs := by
    apply (shift_injective hpoly).iterate (8 * bs.length)
    rw [← register_eq_word hfits, hlength, ← register_eq_word hfits']
    exact hburst
  exact word_injective hlength hfits ((BitVec.xor_right_inj _).mp hsum)

end CyclicCode

import Mathlib.Algebra.Group.Nat.Defs
import Mathlib.Data.Nat.Notation
import Mathlib.Data.List.Basic
import Mathlib.Tactic.Common

/-!
# Bit strings

The bits of bytes, most significant first, with the fixed-width and Exp-Golomb
codes of numbers.  A string of bits is stored in bytes behind a closing one and
zeros up to the byte border.
-/

namespace BitString

/-! ## Fixed width -/

/-- The lowest `n` bits of a number. -/
def bitsOf : ℕ → ℕ → List Bool
  | 0, _ => []
  | n + 1, v => v.testBit n :: bitsOf n v

/-- The number that bits spell. -/
def valueOf (bs : List Bool) : ℕ := bs.foldl (fun v b => 2 * v + b.toNat) 0

@[simp] theorem length_bitsOf (n v : ℕ) : (bitsOf n v).length = n := by
  induction n with
  | zero => rfl
  | succ n ih => rw [bitsOf, List.length_cons, ih]

theorem foldl_value (bs : List Bool) (v : ℕ) :
    bs.foldl (fun v b => 2 * v + b.toNat) v =
      v * 2 ^ bs.length + valueOf bs := by
  induction bs generalizing v with
  | nil => simp [valueOf]
  | cons b bs ih =>
      rw [valueOf, List.foldl_cons, List.foldl_cons, ih, ih (2 * 0 + b.toNat),
        List.length_cons, Nat.pow_succ, Nat.add_mul, Nat.mul_zero, Nat.zero_add,
        Nat.add_assoc, Nat.mul_comm 2 v, Nat.mul_assoc, Nat.mul_comm 2]

theorem valueOf_cons (b : Bool) (bs : List Bool) :
    valueOf (b :: bs) = b.toNat * 2 ^ bs.length + valueOf bs := by
  have h := foldl_value bs (2 * 0 + b.toNat)
  rw [Nat.mul_zero, Nat.zero_add] at h
  rw [valueOf, List.foldl_cons, Nat.mul_zero, Nat.zero_add, h]

theorem valueOf_lt (bs : List Bool) : valueOf bs < 2 ^ bs.length := by
  induction bs with
  | nil => simp [valueOf]
  | cons b bs ih =>
      have hb : b.toNat ≤ 1 := Bool.toNat_le b
      have hmul : b.toNat * 2 ^ bs.length ≤ 1 * 2 ^ bs.length :=
        Nat.mul_le_mul_right _ hb
      rw [valueOf_cons, List.length_cons, Nat.pow_succ]
      omega

theorem bitsOf_mod (n v : ℕ) {m : ℕ} (h : n ≤ m) :
    bitsOf n (v % 2 ^ m) = bitsOf n v := by
  induction n with
  | zero => rfl
  | succ n ih =>
      rw [bitsOf, bitsOf, ih (by omega), Nat.testBit_mod_two_pow]
      simp [show n < m by omega]

@[simp] theorem valueOf_bitsOf (n v : ℕ) : valueOf (bitsOf n v) = v % 2 ^ n := by
  induction n with
  | zero => simp [bitsOf, valueOf, Nat.mod_one]
  | succ n ih =>
      rw [bitsOf, valueOf_cons, length_bitsOf, ih, Nat.toNat_testBit,
        Nat.mod_pow_succ, Nat.mul_comm, Nat.add_comm]

theorem bitsOf_valueOf (bs : List Bool) : bitsOf bs.length (valueOf bs) = bs := by
  induction bs with
  | nil => rfl
  | cons b bs ih =>
      have hlow : valueOf (b :: bs) % 2 ^ bs.length = valueOf bs := by
        rw [valueOf_cons, Nat.mul_comm, Nat.mul_add_mod,
          Nat.mod_eq_of_lt (valueOf_lt bs)]
      have htop : (valueOf (b :: bs)).testBit bs.length = b := by
        rw [valueOf_cons, Nat.mul_comm,
          Nat.testBit_two_pow_mul_add _ (valueOf_lt bs)]
        cases b <;> simp
      rw [List.length_cons, bitsOf, htop, ← bitsOf_mod _ _ (Nat.le_refl _), hlow, ih]

/-- Bits of one width spell different numbers. -/
theorem bitsOf_inj {n v w : ℕ} (hv : v < 2 ^ n) (hw : w < 2 ^ n)
    (h : bitsOf n v = bitsOf n w) : v = w := by
  have hvalue := congrArg valueOf h
  rwa [valueOf_bitsOf, valueOf_bitsOf, Nat.mod_eq_of_lt hv,
    Nat.mod_eq_of_lt hw] at hvalue

/-- The bits of a number in two parts. -/
theorem bitsOf_add (m n v : ℕ) : bitsOf (m + n) v = bitsOf m (v >>> n) ++ bitsOf n v := by
  induction m with
  | zero => rw [Nat.zero_add, bitsOf, List.nil_append]
  | succ m ih =>
      rw [Nat.add_right_comm, bitsOf, bitsOf, ih, Nat.testBit_shiftRight, Nat.add_comm n m]
      rfl

/-! ## Runs of zeros -/

/-- Zeros up to a one determine their number. -/
theorem zeros_one_inj {m n : ℕ} {as bs : List Bool}
    (h : List.replicate m false ++ true :: as =
      List.replicate n false ++ true :: bs) : m = n ∧ as = bs := by
  induction m generalizing n with
  | zero =>
      cases n with
      | zero => simpa using h
      | succ n => simp [List.replicate_succ] at h
  | succ m ih =>
      cases n with
      | zero => simp [List.replicate_succ] at h
      | succ n =>
          simp only [List.replicate_succ, List.cons_append, List.cons.injEq,
            true_and] at h
          have ⟨hmn, hbits⟩ := ih h
          exact ⟨by rw [hmn], hbits⟩

/-! ## Exp-Golomb codes -/

/-- The code of a number: zeros, a one, and as many bits as there are zeros. -/
def ueCode (v : ℕ) : List Bool :=
  List.replicate (Nat.log2 (v + 1)) false ++
    true :: bitsOf (Nat.log2 (v + 1)) (v + 1 - 2 ^ Nat.log2 (v + 1))

theorem length_ueCode (v : ℕ) :
    (ueCode v).length = 2 * Nat.log2 (v + 1) + 1 := by
  simp [ueCode]
  omega

theorem two_pow_log2_le (v : ℕ) : 2 ^ Nat.log2 (v + 1) ≤ v + 1 :=
  Nat.log2_self_le (by omega)

theorem lt_two_pow_log2 (v : ℕ) : v + 1 < 2 ^ (Nat.log2 (v + 1) + 1) :=
  Nat.lt_log2_self

/-- The rest of a code fits into its bits. -/
theorem ueRest_lt (v : ℕ) :
    v + 1 - 2 ^ Nat.log2 (v + 1) < 2 ^ Nat.log2 (v + 1) := by
  have hlt := lt_two_pow_log2 v
  have hle := two_pow_log2_le v
  rw [Nat.pow_succ] at hlt
  omega

/-- A code spelled by its parts. -/
theorem ueCode_of_parts {z x : ℕ} (hx : x < 2 ^ z) :
    ueCode (2 ^ z - 1 + x) = List.replicate z false ++ true :: bitsOf z x := by
  have hpos : 0 < 2 ^ z := Nat.two_pow_pos z
  have hv : 2 ^ z - 1 + x + 1 = 2 ^ z + x := by omega
  have hlog : Nat.log2 (2 ^ z + x) = z := by
    rw [Nat.log2_eq_iff (by omega), Nat.pow_succ]
    omega
  rw [ueCode, hv, hlog, Nat.add_sub_cancel_left]

/-- No code is the beginning of another one. -/
theorem ueCode_append_inj {v w : ℕ} {as bs : List Bool}
    (h : ueCode v ++ as = ueCode w ++ bs) : v = w ∧ as = bs := by
  simp only [ueCode, List.append_assoc, List.cons_append] at h
  obtain ⟨hlog, hrest⟩ := zeros_one_inj h
  rw [hlog] at hrest
  obtain ⟨hbits, htail⟩ := List.append_inj hrest (by simp)
  have hv := ueRest_lt v
  rw [hlog] at hv
  have heq := bitsOf_inj hv (ueRest_lt w) hbits
  have hle := two_pow_log2_le v
  have hle' := two_pow_log2_le w
  rw [hlog] at hle
  exact ⟨by omega, htail⟩

/-! ## Bytes -/

/-- The bits of a byte. -/
def byteBits (x : UInt8) : List Bool := bitsOf 8 x.toNat

/-- The bits of bytes. -/
def toBits (xs : List UInt8) : List Bool := xs.flatMap byteBits

theorem byteBits_ofNat (v : ℕ) : byteBits (UInt8.ofNat v) = bitsOf 8 v := by
  rw [byteBits, UInt8.toNat_ofNat']
  exact bitsOf_mod 8 v (Nat.le_refl 8)

@[simp] theorem length_byteBits (x : UInt8) : (byteBits x).length = 8 :=
  length_bitsOf ..

@[simp] theorem toBits_nil : toBits [] = [] := rfl

@[simp] theorem toBits_cons (x : UInt8) (xs : List UInt8) :
    toBits (x :: xs) = byteBits x ++ toBits xs := rfl

@[simp] theorem toBits_append (xs ys : List UInt8) :
    toBits (xs ++ ys) = toBits xs ++ toBits ys := List.flatMap_append

@[simp] theorem length_toBits (xs : List UInt8) :
    (toBits xs).length = 8 * xs.length := by
  induction xs with
  | nil => rfl
  | cons x xs ih =>
      rw [toBits_cons, List.length_append, length_byteBits, ih, List.length_cons]
      omega

theorem toBits_replicate_zero (n : ℕ) :
    toBits (List.replicate n 0) = List.replicate (8 * n) false := by
  induction n with
  | zero => rfl
  | succ n ih =>
      rw [List.replicate_succ, toBits_cons, ih, Nat.mul_succ, Nat.add_comm,
        List.replicate_add]
      rfl

theorem toBits_take (xs : List UInt8) (n : ℕ) :
    toBits (xs.take n) = (toBits xs).take (8 * n) := by
  induction xs generalizing n with
  | nil => simp
  | cons x xs ih =>
      cases n with
      | zero => simp
      | succ n =>
          rw [List.take_succ_cons, toBits_cons, toBits_cons, ih, Nat.mul_succ,
            Nat.add_comm, ← length_byteBits x, List.take_length_add_append]

theorem toBits_drop (xs : List UInt8) (n : ℕ) :
    toBits (xs.drop n) = (toBits xs).drop (8 * n) := by
  induction xs generalizing n with
  | nil => simp
  | cons x xs ih =>
      cases n with
      | zero => simp
      | succ n =>
          rw [List.drop_succ_cons, toBits_cons, ih, Nat.mul_succ, Nat.add_comm,
            ← length_byteBits x, List.drop_length_add_append]

/-- Bytes with the same bits are the same. -/
theorem toBits_inj {xs ys : List UInt8} (h : toBits xs = toBits ys) : xs = ys := by
  induction xs generalizing ys with
  | nil =>
      have hlen := congrArg List.length h
      rw [length_toBits, length_toBits, List.length_nil] at hlen
      exact (List.length_eq_zero_iff.mp (by omega)).symm
  | cons x xs ih =>
      cases ys with
      | nil =>
          have hlen := congrArg List.length h
          rw [length_toBits, length_toBits, List.length_nil, List.length_cons] at hlen
          omega
      | cons y ys =>
          obtain ⟨hbyte, hrest⟩ := List.append_inj h (by simp)
          have hxy := bitsOf_inj x.toNat_lt y.toNat_lt hbyte
          rw [UInt8.toNat_inj.mp hxy, ih hrest]

theorem getElem?_bitsOf {n i : ℕ} (v : ℕ) (h : i < n) :
    (bitsOf n v)[i]? = some (v.testBit (n - 1 - i)) := by
  induction n generalizing i with
  | zero => omega
  | succ n ih =>
      cases i with
      | zero => simp [bitsOf]
      | succ i =>
          rw [bitsOf, List.getElem?_cons_succ, ih (by omega),
            show n + 1 - 1 - (i + 1) = n - 1 - i by omega]

/-- Where a bit of a byte string lies. -/
theorem getElem?_toBits (xs : List UInt8) (p : ℕ) :
    (toBits xs)[p]? =
      xs[p / 8]?.map fun x => x.toNat.testBit (7 - p % 8) := by
  induction xs generalizing p with
  | nil => simp
  | cons x xs ih =>
      rw [toBits_cons]
      by_cases hp : p < 8
      · rw [List.getElem?_append_left (by simpa using hp), byteBits,
          getElem?_bitsOf _ hp, Nat.div_eq_of_lt hp, Nat.mod_eq_of_lt hp]
        rfl
      · rw [List.getElem?_append_right (by simpa using hp), length_byteBits, ih,
          show p / 8 = (p - 8) / 8 + 1 by omega,
          show (p - 8) % 8 = p % 8 by omega, List.getElem?_cons_succ]

/-- The byte with one bit set, counted from the top. -/
theorem testBit_or_mask (x : UInt8) {i j : ℕ} (hi : i < 8) (hj : j < 8) :
    (x ||| UInt8.ofNat (0x80 >>> i)).toNat.testBit (7 - j) =
      (x.toNat.testBit (7 - j) || decide (i = j)) := by
  have hmask : (UInt8.ofNat (0x80 >>> i)).toNat = 2 ^ (7 - i) := by
    rw [UInt8.toNat_ofNat', Nat.shiftRight_eq_div_pow]
    have hall : ∀ i < 8, 128 / 2 ^ i % 256 = 2 ^ (7 - i) := by decide
    exact hall i hi
  rw [UInt8.toNat_or, Nat.testBit_or, hmask, Nat.testBit_two_pow]
  congr 1
  simp only [decide_eq_decide]
  omega

/-- Setting a bit inside a byte string. -/
theorem toBits_setBit {xs : List UInt8} {p : ℕ} (h : p < 8 * xs.length) :
    toBits (xs.modify (p / 8) (· ||| UInt8.ofNat (0x80 >>> (p % 8)))) =
      (toBits xs).set p true := by
  apply List.ext_getElem?
  intro i
  rw [getElem?_toBits, List.getElem?_modify, List.getElem?_set, getElem?_toBits]
  have hmod : i % 8 < 8 := Nat.mod_lt i (by decide)
  by_cases hbyte : p / 8 = i / 8
  · have hlt : i / 8 < xs.length := by omega
    rw [List.getElem?_eq_getElem hlt]
    simp only [Option.map_eq_map, Option.map_some, if_pos hbyte,
      testBit_or_mask _ (Nat.mod_lt p (by decide)) hmod]
    by_cases hip : p = i
    · subst i
      simp [h]
    · have hne : p % 8 ≠ i % 8 := by omega
      simp [hip, hne]
  · have hip : p ≠ i := fun heq => hbyte (by rw [heq])
    rw [if_neg hip]
    simp [hbyte]

/-! ## Closed strings -/

/-- Bits closed with a one and some zeros. -/
def IsPayload (stored payload : List Bool) : Prop :=
  ∃ k, stored = payload ++ true :: List.replicate k false

/-- Bytes that store a string closed with less than a byte of zeros. -/
def Closes (xs : List UInt8) (payload : List Bool) : Prop :=
  ∃ k < 8, toBits xs = payload ++ true :: List.replicate k false

theorem Closes.isPayload {xs : List UInt8} {p : List Bool} (h : Closes xs p) :
    IsPayload (toBits xs) p := by
  obtain ⟨k, -, hk⟩ := h
  exact ⟨k, hk⟩

/-- Less than a byte of zeros closes a string if the last byte is not zero. -/
theorem IsPayload.closes {xs : List UInt8} {p : List Bool} (h : IsPayload (toBits xs) p)
    (hlast : xs.getLast? ≠ some 0) : Closes xs p := by
  obtain ⟨k, hk⟩ := h
  refine ⟨k, ?_, hk⟩
  by_contra hge
  rcases List.eq_nil_or_concat xs with rfl | ⟨front, b, rfl⟩
  · simp at hk
  · rw [List.concat_eq_append, List.getLast?_append] at hlast
    rw [List.concat_eq_append, toBits_append] at hk
    have hsplit : List.replicate k false =
        List.replicate (k - 8) false ++ List.replicate 8 false := by
      rw [← List.replicate_add]
      congr 1
      omega
    rw [hsplit, ← List.cons_append, ← List.append_assoc] at hk
    have hzero := (List.append_inj' hk (by simp)).2
    have hb : [b] = [0] := toBits_inj (hzero.trans (toBits_replicate_zero 1).symm)
    rw [List.singleton_inj] at hb
    simp [hb] at hlast

/-- A string is closed in one way. -/
theorem Closes.unique {xs ys : List UInt8} {p : List Bool} (hx : Closes xs p)
    (hy : Closes ys p) : xs = ys := by
  obtain ⟨k, hk, hxs⟩ := hx
  obtain ⟨l, hl, hys⟩ := hy
  have hlenx := congrArg List.length hxs
  have hleny := congrArg List.length hys
  simp only [length_toBits, List.length_append, List.length_cons,
    List.length_replicate] at hlenx hleny
  have hkl : k = l := by omega
  rw [← hkl] at hys
  exact toBits_inj (hxs.trans hys.symm)

/-- The bytes that a string of bits fills. -/
def pack : ℕ → List Bool → List UInt8
  | 0, _ => []
  | n + 1, bs => UInt8.ofNat (valueOf (bs.take 8)) :: pack n (bs.drop 8)

theorem toBits_pack {n : ℕ} {bs : List Bool} (h : bs.length = 8 * n) :
    toBits (pack n bs) = bs := by
  induction n generalizing bs with
  | zero => exact (List.length_eq_zero_iff.mp h).symm
  | succ n ih =>
      have hlen : (bs.take 8).length = 8 := by
        rw [List.length_take]
        omega
      have hlt := valueOf_lt (bs.take 8)
      have hbits := bitsOf_valueOf (bs.take 8)
      rw [hlen] at hlt hbits
      rw [pack, toBits_cons, byteBits, UInt8.toNat_ofNat_of_lt' hlt, hbits,
        ih (by rw [List.length_drop]; omega), List.take_append_drop]

/-- The bytes that store a string. -/
def closing (p : List Bool) : List UInt8 :=
  pack (p.length / 8 + 1) (p ++ true :: List.replicate (7 - p.length % 8) false)

theorem closes_closing (p : List Bool) : Closes (closing p) p := by
  refine ⟨7 - p.length % 8, by omega, toBits_pack ?_⟩
  rw [List.length_append, List.length_cons, List.length_replicate]
  omega

/-- The closing one is the last one, so what is stored determines the string. -/
theorem IsPayload.unique {stored p q : List Bool} (hp : IsPayload stored p)
    (hq : IsPayload stored q) : p = q := by
  obtain ⟨k, rfl⟩ := hp
  obtain ⟨l, hl⟩ := hq
  have hrev := congrArg List.reverse hl
  simp only [List.reverse_append, List.reverse_cons, List.reverse_replicate,
    List.append_assoc, List.singleton_append] at hrev
  exact List.reverse_injective (zeros_one_inj hrev).2

/-- What reaches into the closing has taken the closing one and zeros. -/
theorem prefix_closed {word payload : List Bool} {next : Bool} {zeros : ℕ}
    (h : word ++ [next] <+: payload ++ true :: List.replicate zeros false)
    (hlt : payload.length < word.length) :
    ∃ taken < zeros, word = payload ++ true :: List.replicate taken false := by
  obtain ⟨taken, hlen⟩ := Nat.exists_eq_add_of_lt hlt
  have hfit := h.length_le
  simp only [List.length_append, List.length_cons, List.length_nil,
    List.length_replicate] at hfit
  have hword := List.prefix_iff_eq_take.mp ((List.prefix_append word [next]).trans h)
  refine ⟨taken, by omega, ?_⟩
  rw [hlen, Nat.add_assoc, List.take_length_add_append, List.take_succ_cons,
    List.take_replicate, Nat.min_eq_left (by omega)] at hword
  exact hword

end BitString

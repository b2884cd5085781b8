import Mathlib.Data.Nat.Prime.Basic
import MoonlightPsp.Lib.BitString

/-!
# SHA-256

The digest of FIPS 180-4, on strings of bits: the message is padded to a number of blocks of
512 bits, and the hash value is compressed with one block after the other.
-/

namespace SecureHash

open BitString

/-- A word of 32 bits. -/
abbrev Word := BitVec 32

/-! ## Functions and constants -/

/-- `Ch`. -/
def ch (x y z : Word) : Word := (x &&& y) ^^^ (~~~x &&& z)

/-- `Maj`. -/
def maj (x y z : Word) : Word := (x &&& y) ^^^ (x &&& z) ^^^ (y &&& z)

/-- `Σ₀`. -/
def bigSigma0 (x : Word) : Word := x.rotateRight 2 ^^^ x.rotateRight 13 ^^^ x.rotateRight 22

/-- `Σ₁`. -/
def bigSigma1 (x : Word) : Word := x.rotateRight 6 ^^^ x.rotateRight 11 ^^^ x.rotateRight 25

/-- `σ₀`. -/
def smallSigma0 (x : Word) : Word := x.rotateRight 7 ^^^ x.rotateRight 18 ^^^ (x >>> 3)

/-- `σ₁`. -/
def smallSigma1 (x : Word) : Word := x.rotateRight 17 ^^^ x.rotateRight 19 ^^^ (x >>> 10)

/-- The first sixty-four prime numbers. -/
def primes : List ℕ := [
  2, 3, 5, 7, 11, 13, 17, 19, 23, 29, 31, 37, 41, 43, 47, 53,
  59, 61, 67, 71, 73, 79, 83, 89, 97, 101, 103, 107, 109, 113, 127, 131,
  137, 139, 149, 151, 157, 163, 167, 173, 179, 181, 191, 193, 197, 199, 211, 223,
  227, 229, 233, 239, 241, 251, 257, 263, 269, 271, 277, 281, 283, 293, 307, 311]

/-- No number from 2 to 17 divides `n` properly. -/
def noSmallDivisor (n : ℕ) : Bool :=
  decide (2 ≤ n) && (List.range' 2 16).all fun d => !(decide (d < n) && decide (n % d = 0))

theorem prime_iff_noSmallDivisor {n : ℕ} (hn : n < 18 * 18) :
    n.Prime ↔ noSmallDivisor n = true := by
  rw [noSmallDivisor, Bool.and_eq_true, decide_eq_true_eq, List.all_eq_true]
  constructor
  · intro h
    refine ⟨h.two_le, ?_⟩
    intro d hd
    have htwo := (List.mem_range'_1.mp hd).1
    rw [Bool.not_eq_true', Bool.and_eq_false_iff, decide_eq_false_iff_not,
      decide_eq_false_iff_not, ← not_and_or]
    rintro ⟨hlt, hmod⟩
    rcases h.eq_one_or_self_of_dvd d (Nat.dvd_of_mod_eq_zero hmod) with hone | hself
    · omega
    · omega
  · rintro ⟨htwo, hnone⟩
    by_contra h
    have hsq : n.minFac ^ 2 ≤ n := Nat.minFac_sq_le_self (by omega) h
    have hle : n.minFac < 18 := by
      by_contra hge
      have hmul : 18 * 18 ≤ n.minFac * n.minFac := Nat.mul_le_mul (by omega) (by omega)
      rw [Nat.pow_two] at hsq
      omega
    have hmin := (Nat.minFac_prime (show n ≠ 1 by omega)).two_le
    have hlt : n.minFac < n := by
      have hmul : n.minFac * 2 ≤ n.minFac * n.minFac := Nat.mul_le_mul_left _ hmin
      rw [Nat.pow_two] at hsq
      omega
    have hfound := hnone n.minFac (List.mem_range'_1.mpr ⟨hmin, by omega⟩)
    rw [decide_eq_true hlt, decide_eq_true (Nat.mod_eq_zero_of_dvd n.minFac_dvd)] at hfound
    cases hfound

/-- The list holds every prime number up to its last one. -/
theorem mem_primes_iff {n : ℕ} (hn : n < 312) : n ∈ primes ↔ n.Prime := by
  have hfilter : primes = (List.range 312).filter noSmallDivisor := by decide +kernel
  rw [hfilter, List.mem_filter, List.mem_range, and_iff_right hn,
    prime_iff_noSmallDivisor (by omega)]

/-- The word holds the first 32 bits of the fractional part of the root of that degree. -/
def IsFraction (degree p : ℕ) (x : Word) : Prop :=
  ∃ whole, (whole * 2 ^ 32 + x.toNat) ^ degree ≤ p * (2 ^ 32) ^ degree ∧
    p * (2 ^ 32) ^ degree < (whole * 2 ^ 32 + x.toNat + 1) ^ degree

/-- A test for this, with the whole part found among small numbers. -/
def fractionTest (degree : ℕ) (px : ℕ × Word) : Bool :=
  (List.range 18).any fun whole =>
    decide ((whole * 2 ^ 32 + px.2.toNat) ^ degree ≤ px.1 * (2 ^ 32) ^ degree) &&
      decide (px.1 * (2 ^ 32) ^ degree < (whole * 2 ^ 32 + px.2.toNat + 1) ^ degree)

theorem isFraction_of_test {degree p : ℕ} {x : Word} (h : fractionTest degree (p, x) = true) :
    IsFraction degree p x := by
  obtain ⟨whole, -, htest⟩ := List.any_eq_true.mp h
  rw [Bool.and_eq_true, decide_eq_true_eq, decide_eq_true_eq] at htest
  exact ⟨whole, htest⟩

/-- `K`: the constants of the rounds. -/
def roundConstants : List Word := [
  0x428a2f98, 0x71374491, 0xb5c0fbcf, 0xe9b5dba5, 0x3956c25b, 0x59f111f1, 0x923f82a4, 0xab1c5ed5,
  0xd807aa98, 0x12835b01, 0x243185be, 0x550c7dc3, 0x72be5d74, 0x80deb1fe, 0x9bdc06a7, 0xc19bf174,
  0xe49b69c1, 0xefbe4786, 0x0fc19dc6, 0x240ca1cc, 0x2de92c6f, 0x4a7484aa, 0x5cb0a9dc, 0x76f988da,
  0x983e5152, 0xa831c66d, 0xb00327c8, 0xbf597fc7, 0xc6e00bf3, 0xd5a79147, 0x06ca6351, 0x14292967,
  0x27b70a85, 0x2e1b2138, 0x4d2c6dfc, 0x53380d13, 0x650a7354, 0x766a0abb, 0x81c2c92e, 0x92722c85,
  0xa2bfe8a1, 0xa81a664b, 0xc24b8b70, 0xc76c51a3, 0xd192e819, 0xd6990624, 0xf40e3585, 0x106aa070,
  0x19a4c116, 0x1e376c08, 0x2748774c, 0x34b0bcb5, 0x391c0cb3, 0x4ed8aa4a, 0x5b9cca4f, 0x682e6ff3,
  0x748f82ee, 0x78a5636f, 0x84c87814, 0x8cc70208, 0x90befffa, 0xa4506ceb, 0xbef9a3f7, 0xc67178f2]

/-- They come from the cube roots of the primes. -/
theorem roundConstants_fractions :
    ∀ px ∈ primes.zip roundConstants, IsFraction 3 px.1 px.2 := by
  have h : (primes.zip roundConstants).all (fractionTest 3) = true := by decide +kernel
  intro px hpx
  exact isFraction_of_test (List.all_eq_true.mp h px hpx)

/-- The variables of the computation, and the words of a hash value. -/
structure Variables where
  a : Word
  b : Word
  c : Word
  d : Word
  e : Word
  f : Word
  g : Word
  h : Word

/-- The words of a hash value in order. -/
def Variables.words (v : Variables) : List Word := [v.a, v.b, v.c, v.d, v.e, v.f, v.g, v.h]

/-- `H⁽⁰⁾`. -/
def initialHash : Variables :=
  ⟨0x6a09e667, 0xbb67ae85, 0x3c6ef372, 0xa54ff53a, 0x510e527f, 0x9b05688c, 0x1f83d9ab, 0x5be0cd19⟩

/-- It comes from the square roots of the first eight primes. -/
theorem initialHash_fractions :
    ∀ px ∈ primes.zip initialHash.words, IsFraction 2 px.1 px.2 := by
  have h : (primes.zip initialHash.words).all (fractionTest 2) = true := by decide +kernel
  intro px hpx
  exact isFraction_of_test (List.all_eq_true.mp h px hpx)

/-! ## Padding -/

/-- The number of zeros behind the one that closes a message of `l` bits. -/
def zeros (l : ℕ) : ℕ := (959 - l % 512) % 512

/-- It is the least one that leaves 64 bits of a block. -/
theorem zeros_spec (l : ℕ) :
    (l + 1 + zeros l) % 512 = 448 ∧ ∀ k, (l + 1 + k) % 512 = 448 → zeros l ≤ k := by
  have hzeros : zeros l = (959 - l % 512) % 512 := rfl
  constructor
  · omega
  · intro k hk
    omega

/-- The message, a one, zeros and the number of its bits in a block's last 64. -/
def pad (m : List Bool) : List Bool :=
  m ++ true :: List.replicate (zeros m.length) false ++ bitsOf 64 m.length

/-- A padded message is whole blocks. -/
theorem length_pad (m : List Bool) : (pad m).length = 512 * ((pad m).length / 512) := by
  have hspec := (zeros_spec m.length).1
  have hlen : (pad m).length = m.length + 1 + zeros m.length + 64 := by
    rw [pad, List.length_append, List.length_append, List.length_cons, List.length_replicate,
      length_bitsOf]
    omega
  omega

/-- The first blocks of a message. -/
def blocks : ℕ → List Bool → List (List Bool)
  | 0, _ => []
  | n + 1, m => m.take 512 :: blocks n (m.drop 512)

/-! ## The digest -/

/-- Word `t` of a block. -/
def blockWord (block : List Bool) (t : ℕ) : Word :=
  BitVec.ofNat 32 (valueOf ((block.drop (32 * t)).take 32))

/-- The message schedule `W`. -/
def schedule (block : List Bool) (t : ℕ) : Word :=
  if t < 16 then blockWord block t
  else
    smallSigma1 (schedule block (t - 2)) + schedule block (t - 7) +
      smallSigma0 (schedule block (t - 15)) + schedule block (t - 16)

/-- One step with the variables. -/
def step (w : ℕ → Word) (v : Variables) (t : ℕ) : Variables :=
  let t1 := v.h + bigSigma1 v.e + ch v.e v.f v.g + roundConstants.getD t 0 + w t
  let t2 := bigSigma0 v.a + maj v.a v.b v.c
  ⟨t1 + t2, v.a, v.b, v.c, v.d + t1, v.e, v.f, v.g⟩

/-- The next hash value. -/
def compress (hash : Variables) (block : List Bool) : Variables :=
  let v := (List.range 64).foldl (step (schedule block)) hash
  ⟨v.a + hash.a, v.b + hash.b, v.c + hash.c, v.d + hash.d, v.e + hash.e, v.f + hash.f,
    v.g + hash.g, v.h + hash.h⟩

/-- The digest of a message. -/
def sha256 (m : List Bool) : List Bool :=
  let hash := (blocks ((pad m).length / 512) (pad m)).foldl compress initialHash
  hash.words.flatMap fun x => bitsOf 32 x.toNat

end SecureHash

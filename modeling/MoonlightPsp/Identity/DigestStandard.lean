import Mathlib.Data.List.GetD
import MoonlightPsp.Identity.Digest
import MoonlightPsp.Lib.SecureHash

/-!
# The digest is SHA-256

`sha256_hash` works on bytes and never builds the padded message: it pads the last block or
two on its own stack.  Bit by bit it gives the digest of the standard.
-/

namespace MoonlightPsp.Identity

open BitString SecureHash

variable {block data : List UInt8} {r s : Registers} {x : UInt32} {n t : ℕ}

/-! ## Words -/

/-- A rotation of the source by less than a word. -/
theorem toBitVec_shaRor (x n : UInt32) (hpos : 0 < n.toNat) (hlt : n.toNat < 32) :
    (shaRor x n).toBitVec = x.toBitVec.rotateRight n.toNat := by
  have hright : (n.toBitVec % 32).toNat = n.toNat := by
    change n.toNat % 32 = n.toNat
    exact Nat.mod_eq_of_lt hlt
  have hleft : ((32 - n).toBitVec % 32).toNat = 32 - n.toNat := by
    change (32 - n).toNat % 32 = 32 - n.toNat
    rw [UInt32.toNat_sub_of_le _ _ (UInt32.le_iff_toNat_le.mpr (Nat.le_of_lt hlt))]
    change (32 - n.toNat) % 32 = 32 - n.toNat
    exact Nat.mod_eq_of_lt (by omega)
  rw [shaRor, BitVec.rotateRight_def, Nat.mod_eq_of_lt hlt, UInt32.toBitVec_or,
    UInt32.toBitVec_shiftRight, UInt32.toBitVec_shiftLeft, BitVec.ushiftRight_eq',
    BitVec.shiftLeft_eq', hright, hleft]

theorem toBitVec_shaEp0 (x : UInt32) : (shaEp0 x).toBitVec = bigSigma0 x.toBitVec := by
  rw [shaEp0, UInt32.toBitVec_xor, UInt32.toBitVec_xor, toBitVec_shaRor _ _ (by decide) (by decide),
    toBitVec_shaRor _ _ (by decide) (by decide), toBitVec_shaRor _ _ (by decide) (by decide)]
  rfl

theorem toBitVec_shaEp1 (x : UInt32) : (shaEp1 x).toBitVec = bigSigma1 x.toBitVec := by
  rw [shaEp1, UInt32.toBitVec_xor, UInt32.toBitVec_xor, toBitVec_shaRor _ _ (by decide) (by decide),
    toBitVec_shaRor _ _ (by decide) (by decide), toBitVec_shaRor _ _ (by decide) (by decide)]
  rfl

theorem toBitVec_shaSig0 (x : UInt32) : (shaSig0 x).toBitVec = smallSigma0 x.toBitVec := by
  rw [shaSig0, UInt32.toBitVec_xor, UInt32.toBitVec_xor,
    toBitVec_shaRor _ _ (by decide) (by decide), toBitVec_shaRor _ _ (by decide) (by decide)]
  rfl

theorem toBitVec_shaSig1 (x : UInt32) : (shaSig1 x).toBitVec = smallSigma1 x.toBitVec := by
  rw [shaSig1, UInt32.toBitVec_xor, UInt32.toBitVec_xor,
    toBitVec_shaRor _ _ (by decide) (by decide), toBitVec_shaRor _ _ (by decide) (by decide)]
  rfl

theorem toBits_wordBytes (x : UInt32) : toBits (wordBytes x) = bitsOf 32 x.toNat := by
  have hbytes : wordBytes x =
      [UInt8.ofNat (x.toNat >>> 24), UInt8.ofNat (x.toNat >>> 16), UInt8.ofNat (x.toNat >>> 8),
        UInt8.ofNat x.toNat] := rfl
  rw [hbytes, toBits_cons, toBits_cons, toBits_cons, toBits_cons, toBits_nil, List.append_nil,
    byteBits_ofNat, byteBits_ofNat, byteBits_ofNat, byteBits_ofNat, bitsOf_add 8 24,
    bitsOf_add 8 16, bitsOf_add 8 8]

theorem toNat_shifted (b : UInt8) {k : UInt32} (hk : k.toNat ≤ 24) :
    (b.toUInt32 <<< k).toNat = b.toNat * 2 ^ k.toNat := by
  have hb := b.toNat_lt
  have hpow : 2 ^ k.toNat ≤ 2 ^ 24 := Nat.pow_le_pow_right (by decide) hk
  have hlt : b.toNat * 2 ^ k.toNat < 2 ^ 32 := by
    calc
      b.toNat * 2 ^ k.toNat ≤ 255 * 2 ^ 24 := Nat.mul_le_mul (by omega) hpow
      _ < 2 ^ 32 := by decide
  rw [UInt32.toNat_shiftLeft, Nat.mod_eq_of_lt (Nat.lt_of_le_of_lt hk (by decide)),
    UInt8.toNat_toUInt32, Nat.shiftLeft_eq, Nat.mod_eq_of_lt hlt]

/-- Bytes below the last one that was put in. -/
theorem mul_or (v b k : ℕ) (hb : b < 2 ^ k) : v * 2 ^ k ||| b = v * 2 ^ k + b := by
  rw [← Nat.shiftLeft_eq, Nat.shiftLeft_add_eq_or_of_lt hb]

/-- Four bytes in their places. -/
theorem four_bytes {a b c d : ℕ} (hb : b < 256) (hc : c < 256) (hd : d < 256) :
    a * 2 ^ 24 ||| b * 2 ^ 16 ||| c * 2 ^ 8 ||| d =
      ((a * 2 ^ 8 + b) * 2 ^ 8 + c) * 2 ^ 8 + d := by
  have hab : a * 2 ^ 24 ||| b * 2 ^ 16 = (a * 2 ^ 8 + b) * 2 ^ 16 := by
    rw [mul_or a (b * 2 ^ 16) 24 (by omega)]
    omega
  have habc : (a * 2 ^ 8 + b) * 2 ^ 16 ||| c * 2 ^ 8 = ((a * 2 ^ 8 + b) * 2 ^ 8 + c) * 2 ^ 8 := by
    rw [mul_or _ (c * 2 ^ 8) 16 (by omega)]
    omega
  rw [hab, habc, mul_or _ d 8 hd]

theorem toNat_bigEndian (bytes : List UInt8) (i : ℕ) :
    (bigEndian bytes i).toNat =
      (((bytes.getD i 0).toNat * 2 ^ 8 + (bytes.getD (i + 1) 0).toNat) * 2 ^ 8 +
        (bytes.getD (i + 2) 0).toNat) * 2 ^ 8 + (bytes.getD (i + 3) 0).toNat := by
  rw [bigEndian, UInt32.toNat_or, UInt32.toNat_or, UInt32.toNat_or, toNat_shifted _ (by decide),
    toNat_shifted _ (by decide), toNat_shifted _ (by decide), UInt8.toNat_toUInt32]
  exact four_bytes (UInt8.toNat_lt _) (UInt8.toNat_lt _) (UInt8.toNat_lt _)

/-- The number that a byte and more bytes spell. -/
theorem valueOf_toBits_cons (b : UInt8) (bytes : List UInt8) :
    valueOf (toBits (b :: bytes)) = b.toNat * 2 ^ (8 * bytes.length) + valueOf (toBits bytes) := by
  have hb : valueOf (byteBits b) = b.toNat := by
    rw [byteBits, valueOf_bitsOf, Nat.mod_eq_of_lt b.toNat_lt]
  have happend := foldl_value (toBits bytes) (valueOf (byteBits b))
  rw [length_toBits, hb] at happend
  rw [toBits_cons, valueOf, List.foldl_append, ← valueOf, hb, happend]

theorem take_four {bytes : List UInt8} {i : ℕ} (h : i + 4 ≤ bytes.length) :
    (bytes.drop i).take 4 =
      [bytes.getD i 0, bytes.getD (i + 1) 0, bytes.getD (i + 2) 0, bytes.getD (i + 3) 0] := by
  apply List.ext_getElem
  · rw [List.length_take, List.length_drop]
    simp only [List.length_cons, List.length_nil]
    omega
  · intro j hj hj'
    have hlt : j < 4 := hj'
    rw [List.getElem_take, List.getElem_drop]
    obtain rfl | rfl | rfl | rfl : j = 0 ∨ j = 1 ∨ j = 2 ∨ j = 3 := by omega
    · exact (List.getD_eq_getElem bytes 0 (by omega)).symm
    · exact (List.getD_eq_getElem bytes 0 (by omega)).symm
    · exact (List.getD_eq_getElem bytes 0 (by omega)).symm
    · exact (List.getD_eq_getElem bytes 0 (by omega)).symm

/-- The words of a block are those of its bits. -/
theorem toBitVec_bigEndian (hblock : block.length = 64) (ht : t < 16) :
    (bigEndian block (t * 4)).toBitVec = blockWord (toBits block) t := by
  have hbits : ((toBits block).drop (32 * t)).take 32 =
      toBits ((block.drop (t * 4)).take 4) := by
    rw [toBits_take, toBits_drop, ← Nat.mul_assoc, Nat.mul_right_comm, Nat.mul_comm _ t]
  have hnat : (bigEndian block (t * 4)).toBitVec.toNat = _ := toNat_bigEndian block (t * 4)
  apply BitVec.eq_of_toNat_eq
  rw [hnat, blockWord, hbits, take_four (by omega), valueOf_toBits_cons, valueOf_toBits_cons,
    valueOf_toBits_cons, valueOf_toBits_cons, BitVec.toNat_ofNat]
  have ha := UInt8.toNat_lt (block.getD (t * 4) 0)
  have hb := UInt8.toNat_lt (block.getD (t * 4 + 1) 0)
  have hc := UInt8.toNat_lt (block.getD (t * 4 + 2) 0)
  have hd := UInt8.toNat_lt (block.getD (t * 4 + 3) 0)
  have hnil : valueOf (toBits []) = 0 := rfl
  simp only [List.length_cons, List.length_nil, hnil, Nat.reduceAdd, Nat.reduceMul]
  omega

/-! ## One block -/

/-- The loop of the message schedule after some turns. -/
def scheduleAfter (block : List UInt8) (n : ℕ) : List UInt32 :=
  (List.range' 16 n).foldl
    (fun w i => w ++ [shaSig1 (w.getD (i - 2) 0) + w.getD (i - 7) 0 +
      shaSig0 (w.getD (i - 15) 0) + w.getD (i - 16) 0])
    ((List.range 16).map fun i => bigEndian block (i * 4))

theorem scheduleAfter_succ (block : List UInt8) (n : ℕ) :
    scheduleAfter block (n + 1) =
      scheduleAfter block n ++
        [shaSig1 ((scheduleAfter block n).getD (16 + n - 2) 0) +
          (scheduleAfter block n).getD (16 + n - 7) 0 +
          shaSig0 ((scheduleAfter block n).getD (16 + n - 15) 0) +
          (scheduleAfter block n).getD (16 + n - 16) 0] := by
  rw [scheduleAfter, List.range'_concat, List.foldl_append, Nat.one_mul]
  rfl

theorem length_scheduleAfter (block : List UInt8) (n : ℕ) :
    (scheduleAfter block n).length = 16 + n := by
  induction n with
  | zero => rfl
  | succ n ih => rw [scheduleAfter_succ, List.length_append, ih, List.length_singleton, Nat.add_assoc]

/-- Every word that the loop has written is the one of the standard. -/
theorem toBitVec_scheduleAfter (hblock : block.length = 64) (n : ℕ) (ht : t < 16 + n) :
    ((scheduleAfter block n).getD t 0).toBitVec = schedule (toBits block) t := by
  induction n generalizing t with
  | zero =>
      rw [scheduleAfter, List.range'_zero, List.foldl_nil, schedule, if_pos ht,
        ← toBitVec_bigEndian hblock ht, List.getD_eq_getElem _ 0 (by simpa using ht),
        List.getElem_map, List.getElem_range]
  | succ n ih =>
      have hlen := length_scheduleAfter block n
      rw [scheduleAfter_succ]
      by_cases hold : t < 16 + n
      · rw [List.getD_append _ _ _ _ (by omega)]
        exact ih hold
      · obtain rfl : t = 16 + n := by omega
        rw [List.getD_append_right _ _ _ _ (by omega), hlen, Nat.sub_self, schedule,
          if_neg (by omega), ← ih (by omega), ← ih (by omega), ← ih (by omega), ← ih (by omega),
          ← toBitVec_shaSig0, ← toBitVec_shaSig1]
        rfl

/-- The registers as words of the standard. -/
def Registers.variables (r : Registers) : Variables :=
  ⟨r.a.toBitVec, r.b.toBitVec, r.c.toBitVec, r.d.toBitVec, r.e.toBitVec, r.f.toBitVec,
    r.g.toBitVec, r.h.toBitVec⟩

theorem toBitVec_sha256K (t : ℕ) :
    (sha256K.getD t 0).toBitVec = roundConstants.getD t 0 := by
  have hmap : sha256K.map UInt32.toBitVec = roundConstants := rfl
  rw [← hmap]
  exact (List.getD_map ..).symm

theorem variables_shaRound {w : List UInt32} {v : ℕ → Word}
    (hw : (w.getD t 0).toBitVec = v t) (r : Registers) :
    (shaRound w r t).variables = step v r.variables t := by
  have ht1 : (r.h + shaEp1 r.e + shaCh r.e r.f r.g + sha256K.getD t 0 + w.getD t 0).toBitVec =
      r.h.toBitVec + bigSigma1 r.e.toBitVec +
        ch r.e.toBitVec r.f.toBitVec r.g.toBitVec + roundConstants.getD t 0 + v t := by
    rw [← hw, ← toBitVec_sha256K, ← toBitVec_shaEp1]
    rfl
  have ht2 : (shaEp0 r.a + shaMaj r.a r.b r.c).toBitVec =
      bigSigma0 r.a.toBitVec + maj r.a.toBitVec r.b.toBitVec r.c.toBitVec := by
    rw [← toBitVec_shaEp0]
    rfl
  simp only [shaRound, step, Registers.variables, UInt32.toBitVec_add, ht1, ht2]

theorem variables_foldl_shaRound {w : List UInt32} {v : ℕ → Word}
    (hw : ∀ t < n, (w.getD t 0).toBitVec = v t) (r : Registers) :
    ((List.range n).foldl (shaRound w) r).variables = (List.range n).foldl (step v) r.variables := by
  induction n with
  | zero => rfl
  | succ n ih =>
      have hbefore : ∀ t < n, (w.getD t 0).toBitVec = v t := by
        intro t ht
        exact hw t (Nat.lt_succ_of_lt ht)
      rw [List.range_succ, List.foldl_append, List.foldl_append, ← ih hbefore]
      exact variables_shaRound (hw n (Nat.lt_succ_self n)) _

/-- One block changes the registers as the standard says. -/
theorem variables_sha256Transform (hblock : block.length = 64) (s : Registers) :
    (sha256Transform s block).variables = compress s.variables (toBits block) := by
  have hw : ∀ t < 64, ((messageSchedule block).getD t 0).toBitVec =
      schedule (toBits block) t := by
    intro t ht
    exact toBitVec_scheduleAfter hblock 48 ht
  have hrounds := variables_foldl_shaRound hw s
  rw [compress, ← hrounds, sha256Transform]
  simp only [Registers.variables, UInt32.toBitVec_add, BitVec.add_comm]

/-! ## The blocks of a message -/

/-- The registers after the first blocks of some bytes. -/
def transformBlocks (s : Registers) : ℕ → List UInt8 → Registers
  | 0, _ => s
  | n + 1, bytes => transformBlocks (sha256Transform s (bytes.take 64)) n (bytes.drop 64)

theorem variables_transformBlocks {bytes : List UInt8} (hlen : 64 * n ≤ bytes.length)
    (s : Registers) :
    (transformBlocks s n bytes).variables =
      (blocks n (toBits bytes)).foldl compress s.variables := by
  induction n generalizing bytes s with
  | zero => rfl
  | succ n ih =>
      have htake : (bytes.take 64).length = 64 := by
        rw [List.length_take]
        omega
      have hdrop : 64 * n ≤ (bytes.drop 64).length := by
        rw [List.length_drop]
        omega
      rw [transformBlocks, ih hdrop, variables_sha256Transform htake, toBits_take, toBits_drop]
      rfl

theorem transformBlocks_add (s : Registers) (m n : ℕ) (bytes : List UInt8) :
    transformBlocks s (m + n) bytes =
      transformBlocks (transformBlocks s m bytes) n (bytes.drop (64 * m)) := by
  induction m generalizing s bytes with
  | zero =>
      rw [Nat.zero_add]
      rfl
  | succ m ih =>
      rw [Nat.add_right_comm, transformBlocks, ih, transformBlocks, List.drop_drop, Nat.mul_succ,
        Nat.add_comm 64]

/-- What lies behind the blocks does not matter. -/
theorem transformBlocks_append {bytes : List UInt8} (hlen : 64 * n ≤ bytes.length)
    (s : Registers) (more : List UInt8) :
    transformBlocks s n (bytes ++ more) = transformBlocks s n bytes := by
  induction n generalizing bytes s with
  | zero => rfl
  | succ n ih =>
      rw [transformBlocks, transformBlocks, List.take_append_of_le_length (by omega),
        List.drop_append_of_le_length (by omega), ih (by rw [List.length_drop]; omega)]

/-- The loop over the full blocks. -/
theorem sha256Blocks_eq (s : Registers) (data : List UInt8) :
    sha256Blocks s data =
      (transformBlocks s (data.length / 64) data, data.drop (64 * (data.length / 64))) := by
  induction s, data using sha256Blocks.induct with
  | case1 s data hfull ih =>
      have hn : data.length / 64 = (data.drop 64).length / 64 + 1 := by
        rw [List.length_drop]
        omega
      rw [sha256Blocks, if_pos hfull, ih, hn, transformBlocks, Nat.mul_succ, Nat.add_comm _ 64,
        List.drop_drop]
  | case2 s data hless =>
      have hn : data.length / 64 = 0 := by omega
      rw [sha256Blocks, if_neg hless, hn]
      rfl

/-! ## Padding -/

/-- The eight bytes of the length. -/
def lengthBytes (bitlen : UInt64) : List UInt8 :=
  ([56, 48, 40, 32, 24, 16, 8, 0] : List UInt64).map fun shift => (bitlen >>> shift).toUInt8

theorem toBits_lengthBytes (bitlen : UInt64) : toBits (lengthBytes bitlen) = bitsOf 64 bitlen.toNat := by
  have hbytes : lengthBytes bitlen =
      [UInt8.ofNat (bitlen.toNat >>> 56), UInt8.ofNat (bitlen.toNat >>> 48),
        UInt8.ofNat (bitlen.toNat >>> 40), UInt8.ofNat (bitlen.toNat >>> 32),
        UInt8.ofNat (bitlen.toNat >>> 24), UInt8.ofNat (bitlen.toNat >>> 16),
        UInt8.ofNat (bitlen.toNat >>> 8), UInt8.ofNat (bitlen.toNat >>> 0)] := rfl
  rw [hbytes]
  simp only [toBits_cons, toBits_nil, List.append_nil, byteBits_ofNat, Nat.shiftRight_zero]
  rw [bitsOf_add 8 56, bitsOf_add 8 48, bitsOf_add 8 40, bitsOf_add 8 32, bitsOf_add 8 24,
    bitsOf_add 8 16, bitsOf_add 8 8]

/-- The zero bytes between the closing one and the length. -/
def zeroBytes (length : ℕ) : ℕ := (119 - length % 64) % 64

/-- The padded message, in bytes. -/
def padBytes (data : List UInt8) : List UInt8 :=
  data ++ (0x80 :: List.replicate (zeroBytes data.length) 0 ++
    lengthBytes (UInt64.ofNat data.length * 8))

theorem toBits_padBytes (hlen : data.length < 2 ^ 61) : toBits (padBytes data) = pad (toBits data) := by
  have hbits : (UInt64.ofNat data.length * 8).toNat = (toBits data).length := by
    rw [length_toBits, UInt64.toNat_mul, UInt64.toNat_ofNat']
    change data.length % 2 ^ 64 * 8 % 2 ^ 64 = 8 * data.length
    omega
  have hzeros : SecureHash.zeros (toBits data).length = 7 + 8 * zeroBytes data.length := by
    rw [length_toBits, SecureHash.zeros, zeroBytes]
    omega
  have hclose : toBits (0x80 :: List.replicate (zeroBytes data.length) 0) =
      true :: List.replicate (7 + 8 * zeroBytes data.length) false := by
    rw [toBits_cons, toBits_replicate_zero, List.replicate_add]
    rfl
  rw [padBytes, toBits_append, toBits_append, toBits_lengthBytes, hbits, hclose, pad, hzeros,
    List.append_assoc]

/-- The start of the registers. -/
def startRegisters : Registers :=
  ⟨0x6a09e667, 0xbb67ae85, 0x3c6ef372, 0xa54ff53a, 0x510e527f, 0x9b05688c, 0x1f83d9ab, 0x5be0cd19⟩

/-- The bytes of the registers in order. -/
def Registers.bytes (s : Registers) : List UInt8 :=
  [s.a, s.b, s.c, s.d, s.e, s.f, s.g, s.h].flatMap wordBytes

/-- The last bytes and the closing one, filled up to a block. -/
def lastBlock (rest : List UInt8) : List UInt8 :=
  rest ++ 0x80 :: List.replicate (63 - rest.length) 0

theorem length_lastBlock {rest : List UInt8} (hrest : rest.length < 64) :
    (lastBlock rest).length = 64 := by
  rw [lastBlock, List.length_append, List.length_cons, List.length_replicate]
  omega

/-- There is no room for the length in the last block. -/
theorem ending_two {rest : List UInt8} (hfull : 56 ≤ rest.length) (hrest : rest.length < 64)
    (length : List UInt8) :
    rest ++ (0x80 :: List.replicate (zeroBytes rest.length) 0 ++ length) =
      lastBlock rest ++ ((List.replicate 64 0).take 56 ++ length) := by
  have hzeros : zeroBytes rest.length = 63 - rest.length + 56 := by
    rw [zeroBytes]
    omega
  rw [hzeros, List.replicate_add, lastBlock, List.take_replicate, Nat.min_eq_left (by decide)]
  simp only [List.append_assoc, List.cons_append]

/-- There is. -/
theorem ending_one {rest : List UInt8} (hroom : rest.length < 56) (length : List UInt8) :
    rest ++ (0x80 :: List.replicate (zeroBytes rest.length) 0 ++ length) =
      (lastBlock rest).take 56 ++ length := by
  have hzeros : zeroBytes rest.length = 55 - rest.length := by
    rw [zeroBytes]
    omega
  have hsplit : 63 - rest.length = (55 - rest.length) + 8 := by omega
  have hlen : (rest ++ 0x80 :: List.replicate (55 - rest.length) (0 : UInt8)).length = 56 := by
    rw [List.length_append, List.length_cons, List.length_replicate]
    omega
  have htake : (lastBlock rest).take 56 = rest ++ 0x80 :: List.replicate (55 - rest.length) 0 := by
    rw [lastBlock, hsplit, List.replicate_add, ← List.cons_append, ← List.append_assoc,
      List.take_left' hlen]
  rw [hzeros, htake]
  simp only [List.append_assoc, List.cons_append]

/-- Behind its full blocks the padded message has the rest of the data and the padding. -/
theorem drop_padBytes (data : List UInt8) :
    (padBytes data).drop (64 * (data.length / 64)) =
      data.drop (64 * (data.length / 64)) ++
        (0x80 :: List.replicate (zeroBytes (data.drop (64 * (data.length / 64))).length) 0 ++
          lengthBytes (UInt64.ofNat data.length * 8)) := by
  have hzeros : zeroBytes (data.drop (64 * (data.length / 64))).length =
      zeroBytes data.length := by
    rw [zeroBytes, zeroBytes, List.length_drop]
    omega
  rw [padBytes, List.drop_append_of_le_length (by omega), hzeros]

/-- What is done with the rest of the data. -/
def finish (s : Registers) (rest length : List UInt8) : Registers :=
  if 56 ≤ rest.length then
    sha256Transform (sha256Transform s (lastBlock rest)) ((List.replicate 64 0).take 56 ++ length)
  else sha256Transform s ((lastBlock rest).take 56 ++ length)

theorem sha256Hash_finish (data : List UInt8) :
    sha256Hash data =
      (finish (sha256Blocks startRegisters data).1 (sha256Blocks startRegisters data).2
        (lengthBytes (UInt64.ofNat data.length * 8))).bytes := by
  generalize hblocks : sha256Blocks startRegisters data = b
  have hbegin : sha256Blocks ⟨0x6a09e667, 0xbb67ae85, 0x3c6ef372, 0xa54ff53a, 0x510e527f,
    0x9b05688c, 0x1f83d9ab, 0x5be0cd19⟩ data = b := hblocks
  obtain ⟨s, rest⟩ := b
  simp only [sha256Hash, hbegin, finish]
  split
  · rfl
  · rfl

/-- The rest takes the blocks that the padded message has left, one or two of them. -/
theorem finish_eq (s : Registers) {rest length : List UInt8} (hrest : rest.length < 64)
    (hlength : length.length = 8) :
    finish s rest length =
      transformBlocks s (if 56 ≤ rest.length then 2 else 1)
        (rest ++ (0x80 :: List.replicate (zeroBytes rest.length) 0 ++ length)) := by
  have hblock := length_lastBlock hrest
  rw [finish]
  split
  · rename_i hfull
    have hlast : ((List.replicate 64 (0 : UInt8)).take 56 ++ length).length ≤ 64 := by
      rw [List.length_append, hlength, List.length_take, List.length_replicate]
      decide
    rw [ending_two hfull hrest, transformBlocks, transformBlocks, transformBlocks,
      List.take_left' hblock, List.drop_left' hblock, List.take_of_length_le hlast]
  · rename_i hroom
    have hlast : ((lastBlock rest).take 56 ++ length).length ≤ 64 := by
      rw [List.length_append, hlength, List.length_take, hblock]
      decide
    rw [ending_one (Nat.lt_of_not_le hroom), transformBlocks, transformBlocks,
      List.take_of_length_le hlast]

/-- The number of blocks of the padded message. -/
theorem blocks_padBytes (data : List UInt8) :
    (padBytes data).length = 64 * (data.length / 64 + if 56 ≤ data.length % 64 then 2 else 1) := by
  have hlen : (padBytes data).length = data.length + 9 + zeroBytes data.length := by
    simp only [padBytes, lengthBytes, List.length_append, List.length_cons, List.length_replicate,
      List.length_map, List.length_nil]
    omega
  have hzeros : zeroBytes data.length = (119 - data.length % 64) % 64 := rfl
  split
  · omega
  · omega

/-- The hash goes through the padded message block by block. -/
theorem sha256Hash_eq (data : List UInt8) :
    sha256Hash data =
      (transformBlocks startRegisters ((padBytes data).length / 64) (padBytes data)).bytes := by
  have hrest : (data.drop (64 * (data.length / 64))).length = data.length % 64 := by
    rw [List.length_drop]
    omega
  have hlt : data.length % 64 < 64 := Nat.mod_lt _ (by decide)
  have hfront : transformBlocks startRegisters (data.length / 64) (padBytes data) =
      transformBlocks startRegisters (data.length / 64) data :=
    transformBlocks_append (by omega) _ _
  rw [sha256Hash_finish, sha256Blocks_eq, finish_eq _ (hrest.trans_lt hlt) rfl, ← drop_padBytes,
    hrest, blocks_padBytes, Nat.mul_div_cancel_left _ (by decide), transformBlocks_add, hfront]

theorem toBits_bytes (s : Registers) :
    toBits s.bytes = s.variables.words.flatMap fun x => bitsOf 32 x.toNat := by
  simp only [Registers.bytes, Variables.words, Registers.variables, List.flatMap_cons,
    List.flatMap_nil, toBits_append, toBits_wordBytes]
  rfl

/-- The digest of the source is that of the standard, for every message whose length in bits
has 64 bits. -/
theorem toBits_sha256Hash (data : List UInt8) (hlen : data.length < 2 ^ 61) :
    toBits (sha256Hash data) = sha256 (toBits data) := by
  have hpad := toBits_padBytes hlen
  have hblocks : (padBytes data).length = 64 * ((padBytes data).length / 64) := by
    rw [blocks_padBytes, Nat.mul_div_cancel_left _ (by decide)]
  have hn : (pad (toBits data)).length / 512 = (padBytes data).length / 64 := by
    rw [← hpad, length_toBits]
    omega
  rw [sha256Hash_eq, toBits_bytes, variables_transformBlocks (Nat.le_of_eq hblocks.symm), hpad,
    ← hn]
  rfl

theorem toBits_sha256Hash_abc :
    toBits (sha256Hash [0x61, 0x62, 0x63]) = sha256 (toBits [0x61, 0x62, 0x63]) :=
  toBits_sha256Hash [0x61, 0x62, 0x63] (by decide)

-- The example message of one block.
example : sha256Hash [0x61, 0x62, 0x63] =
    [0xba, 0x78, 0x16, 0xbf, 0x8f, 0x01, 0xcf, 0xea, 0x41, 0x41, 0x40, 0xde, 0x5d, 0xae, 0x22, 0x23,
      0xb0, 0x03, 0x61, 0xa3, 0x96, 0x17, 0x7a, 0x9c, 0xb4, 0x10, 0xff, 0x61, 0xf2, 0x00, 0x15, 0xad] := by
  rw [sha256Hash_eq]
  decide +kernel

end MoonlightPsp.Identity

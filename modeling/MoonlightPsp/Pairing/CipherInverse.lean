import Mathlib.Data.List.GetD
import MoonlightPsp.Pairing.Decoding

/-!
# Decryption inverts encryption

Each operation of a round of `aes_encrypt_block` has its inverse in the other function, which
takes the rounds in the reverse order.  The mix of a column is inverted by three more mixes:
the source writes two of them as one correction.
-/

namespace MoonlightPsp.Pairing

open CheckedMemory

variable {s rk block bytes : List UInt8}

/-! ## The tables -/

/-- A table as one number, which is looked up faster. -/
def packed : List UInt8 → ℕ
  | [] => 0
  | b :: table => b.toNat + 256 * packed table

theorem toNat_getD_packed (table : List UInt8) (i : ℕ) :
    (table.getD i 0).toNat = (packed table >>> (8 * i)) % 256 := by
  induction table generalizing i with
  | nil => simp [packed]
  | cons b table ih =>
      have hb : b.toNat < 256 := b.toNat_lt
      cases i with
      | zero =>
          rw [List.getD_cons_zero, packed, Nat.mul_zero, Nat.shiftRight_zero]
          omega
      | succ i =>
          have hrest : packed (b :: table) >>> 8 = packed table := by
            rw [packed, Nat.shiftRight_eq_div_pow]
            omega
          rw [List.getD_cons_succ, ih, Nat.mul_succ, Nat.add_comm, Nat.shiftRight_add, hrest]

/-- The two tables, at every index. -/
theorem sboxes_inverse :
    (List.range 256).all (fun n =>
      packed aesInvSbox >>> (8 * (packed aesSbox >>> (8 * n) % 256)) % 256 == n) = true := by
  decide +kernel

theorem invSubByte_subByte (x : UInt8) : invSubByte (subByte x) = x := by
  have hmem : x.toNat ∈ List.range 256 := List.mem_range.mpr x.toNat_lt
  have h := eq_of_beq (List.all_eq_true.mp sboxes_inverse x.toNat hmem)
  apply UInt8.toNat_inj.mp
  rwa [invSubByte, subByte, at8, at8, toNat_getD_packed, toNat_getD_packed]

/-! ## Mixing a column -/

theorem highBit (x : UInt8) : (x >>> 7) &&& 1 = 0 ∨ (x >>> 7) &&& 1 = 1 := by
  have h : (List.range 256).all (fun n =>
      decide ((UInt8.ofNat n >>> 7) &&& 1 = 0 ∨ (UInt8.ofNat n >>> 7) &&& 1 = 1)) = true := by
    decide +kernel
  have hmem : x.toNat ∈ List.range 256 := List.mem_range.mpr x.toNat_lt
  have hx := of_decide_eq_true (List.all_eq_true.mp h x.toNat hmem)
  rwa [UInt8.ofNat_toNat] at hx

theorem and_xor_one (a b : UInt8) : (a ^^^ b) &&& 1 = (a &&& 1) ^^^ (b &&& 1) := by
  apply UInt8.toBitVec_inj.mp
  ext i hi
  simp [Bool.and_xor_distrib_right]

/-- Multiplication by two is linear. -/
theorem xtime_xor (a b : UInt8) : xtime (a ^^^ b) = xtime a ^^^ xtime b := by
  have hmul : ((a >>> 7 &&& (1 : UInt8)) ^^^ (b >>> 7 &&& (1 : UInt8))) * (0x1b : UInt8) =
      ((a >>> 7 &&& (1 : UInt8)) * (0x1b : UInt8)) ^^^
        ((b >>> 7 &&& (1 : UInt8)) * (0x1b : UInt8)) := by
    rcases highBit a with ha | ha
    · rcases highBit b with hb | hb
      · rw [ha, hb]
        rfl
      · rw [ha, hb]
        rfl
    · rcases highBit b with hb | hb
      · rw [ha, hb]
        rfl
      · rw [ha, hb]
        rfl
  rw [xtime, UInt8.shiftLeft_xor, UInt8.shiftRight_xor, and_xor_one, hmul, xtime, xtime]
  ac_rfl

theorem xor_left_comm (a b c : UInt8) : a ^^^ (b ^^^ c) = b ^^^ (a ^^^ c) := by
  rw [← UInt8.xor_assoc, UInt8.xor_comm a b, UInt8.xor_assoc]

theorem xor_cancel_left (a b : UInt8) : a ^^^ (a ^^^ b) = b := by
  rw [← UInt8.xor_assoc, UInt8.xor_self, UInt8.zero_xor]

theorem xor_cancel_right (a b : UInt8) : a ^^^ b ^^^ b = a := by
  rw [UInt8.xor_assoc, UInt8.xor_self, UInt8.xor_zero]

/-- One byte of a mixed column, from it and the next one. -/
def mixByte (a b h : UInt8) : UInt8 := a ^^^ xtime (a ^^^ b) ^^^ h

/-- In the sum of two neighbours the byte between them drops out. -/
theorem mixByte_xor (a b c h : UInt8) :
    mixByte a b h ^^^ mixByte b c h = a ^^^ b ^^^ xtime (a ^^^ c) := by
  simp only [mixByte, xtime_xor, UInt8.xor_assoc, UInt8.xor_comm, xor_left_comm, xor_cancel_left]

/-- A mix after a mix doubles twice. -/
theorem mixByte_mixByte (a b c h : UInt8) :
    mixByte (mixByte a b h) (mixByte b c h) h = a ^^^ xtime (xtime (a ^^^ c)) := by
  rw [mixByte, mixByte_xor, xtime_xor (a ^^^ b), mixByte]
  simp only [UInt8.xor_assoc, UInt8.xor_comm, xor_left_comm, xor_cancel_left]

/-- A mix does not change the sum of a column. -/
theorem mixByte_sum (a b c d h : UInt8) :
    mixByte a b h ^^^ mixByte b c h ^^^ mixByte c d h ^^^ mixByte d a h =
      a ^^^ b ^^^ c ^^^ d := by
  rw [UInt8.xor_assoc, mixByte_xor, mixByte_xor, UInt8.xor_comm a c]
  simp only [UInt8.xor_assoc, UInt8.xor_comm, xor_left_comm, UInt8.xor_self, UInt8.xor_zero]

/-- Four bytes of a column. -/
structure Column where
  b0 : UInt8
  b1 : UInt8
  b2 : UInt8
  b3 : UInt8

namespace Column

/-- The sum of the bytes. -/
def sum (c : Column) : UInt8 := c.b0 ^^^ c.b1 ^^^ c.b2 ^^^ c.b3

/-- The mix. -/
def mix (c : Column) : Column :=
  ⟨mixByte c.b0 c.b1 c.sum, mixByte c.b1 c.b2 c.sum, mixByte c.b2 c.b3 c.sum,
    mixByte c.b3 c.b0 c.sum⟩

/-- The correction before the mix of `aes_decrypt_block`. -/
def correct (c : Column) : Column :=
  let u := xtime (xtime (c.b0 ^^^ c.b2))
  let v := xtime (xtime (c.b1 ^^^ c.b3))
  ⟨c.b0 ^^^ u, c.b1 ^^^ v, c.b2 ^^^ u, c.b3 ^^^ v⟩

/-- The four bytes as a list. -/
def toList (c : Column) : List UInt8 := [c.b0, c.b1, c.b2, c.b3]

/-- Two mixes are one correction. -/
theorem mix_mix (c : Column) : c.mix.mix = c.correct := by
  have hsum : c.mix.sum = c.sum := mixByte_sum c.b0 c.b1 c.b2 c.b3 c.sum
  rw [mix, hsum]
  simp only [mix, correct, mixByte_mixByte]
  rw [UInt8.xor_comm c.b2 c.b0, UInt8.xor_comm c.b3 c.b1]

/-- The correction inverts itself. -/
theorem correct_correct (c : Column) : c.correct.correct = c := by
  have hxor : ∀ a b u : UInt8, a ^^^ u ^^^ (b ^^^ u) = a ^^^ b := by
    intro a b u
    rw [UInt8.xor_comm b u, ← UInt8.xor_assoc, xor_cancel_right]
  simp only [correct, hxor, xor_cancel_right]

/-- A correction and a mix undo a mix. -/
theorem mix_correct_mix (c : Column) : c.mix.correct.mix = c := by
  calc
    c.mix.correct.mix = c.mix.mix.mix.mix := by rw [← mix_mix c.mix]
    _ = c.correct.correct := by rw [mix_mix c.mix.mix, mix_mix c]
    _ = c := correct_correct c

end Column

/-! ## The steps of a round -/

/-- The sixteen bytes of a state. -/
def stateOf (s : List UInt8) : List UInt8 := (List.range 16).map (at8 s)

theorem stateOf_eq (hs : s.length = 16) : stateOf s = s := by
  apply List.ext_getElem
  · rw [stateOf, List.length_map, List.length_range, hs]
  · intro i _ hi
    simp only [stateOf, List.getElem_map, List.getElem_range, at8]
    exact List.getD_eq_getElem _ 0 hi

theorem at8_map_range (f : ℕ → UInt8) {i : ℕ} (hi : i < 16) :
    at8 ((List.range 16).map f) i = f i := by
  have hlen : i < ((List.range 16).map f).length := by
    rwa [List.length_map, List.length_range]
  rw [at8, List.getD_eq_getElem _ 0 hlen, List.getElem_map, List.getElem_range]

/-- A round key that is added twice drops out. -/
theorem addRoundKey_addRoundKey (rk : List UInt8) (r : ℕ) (hs : s.length = 16) :
    addRoundKey rk r (addRoundKey rk r s) = s := by
  rw [← stateOf_eq hs]
  refine List.map_congr_left ?_
  intro i hi
  rw [addRoundKey, at8_map_range _ (List.mem_range.mp hi), xor_cancel_right, stateOf,
    at8_map_range _ (List.mem_range.mp hi)]

theorem invShiftRows_shiftRows (hs : s.length = 16) : invShiftRows (shiftRows s) = s := by
  calc
    invShiftRows (shiftRows s) = stateOf s := rfl
    _ = s := stateOf_eq hs

/-- The bytes of the state go where they came from, and through both tables. -/
theorem invSub_invShift (hs : s.length = 16) :
    (invShiftRows (shiftRows (s.map subByte))).map invSubByte = s := by
  have hlen : (s.map subByte).length = 16 := by rw [List.length_map, hs]
  rw [invShiftRows_shiftRows hlen, List.map_map]
  calc
    s.map (invSubByte ∘ subByte) = s.map id := by
      refine List.map_congr_left ?_
      intro x _
      exact invSubByte_subByte x
    _ = s := List.map_id s

/-- The column of a state that starts at an index. -/
def columnAt (s : List UInt8) (i : ℕ) : Column :=
  ⟨at8 s i, at8 s (i + 1), at8 s (i + 2), at8 s (i + 3)⟩

/-- `MixColumns` of `aes_encrypt_block`. -/
def mixColumns (s : List UInt8) : List UInt8 := [0, 4, 8, 12].flatMap (mixColumn s)

theorem invMixColumn_eq (s : List UInt8) (i : ℕ) :
    invMixColumn s i = (columnAt s i).correct.mix.toList := rfl

theorem columnAt_mixColumns {i : ℕ} (hi : i ∈ [0, 4, 8, 12]) :
    columnAt (mixColumns s) i = (columnAt s i).mix := by
  rw [List.mem_cons, List.mem_cons, List.mem_cons, List.mem_singleton] at hi
  obtain rfl | rfl | rfl | rfl := hi
  · rfl
  · rfl
  · rfl
  · rfl

/-- The inverse mix of the columns. -/
theorem invMix_mixColumns (hs : s.length = 16) :
    [0, 4, 8, 12].flatMap (invMixColumn (mixColumns s)) = s := by
  have hcolumn : ∀ i ∈ [0, 4, 8, 12], invMixColumn (mixColumns s) i = (columnAt s i).toList := by
    intro i hi
    rw [invMixColumn_eq, columnAt_mixColumns hi, Column.mix_correct_mix]
  calc
    [0, 4, 8, 12].flatMap (invMixColumn (mixColumns s)) =
        [0, 4, 8, 12].flatMap fun i => (columnAt s i).toList := by
      rw [List.flatMap_def, List.flatMap_def, List.map_congr_left hcolumn]
    _ = stateOf s := rfl
    _ = s := stateOf_eq hs

/-! ## The rounds -/

/-- The state before the mix of a round. -/
def substituted (s : List UInt8) : List UInt8 := shiftRows (s.map subByte)

theorem length_substituted (s : List UInt8) : (substituted s).length = 16 := rfl

theorem length_addRoundKey (rk : List UInt8) (r : ℕ) (s : List UInt8) :
    (addRoundKey rk r s).length = 16 := by
  rw [addRoundKey, List.length_map, List.length_range]

/-- The state after some rounds of `aes_encrypt_block`. -/
def encryptState (rk block : List UInt8) (r : ℕ) : List UInt8 :=
  (List.range' 1 r).foldl (encryptRound rk) (addRoundKey rk 0 block)

theorem encryptState_succ (rk block : List UInt8) (r : ℕ) :
    encryptState rk block (r + 1) = encryptRound rk (encryptState rk block r) (r + 1) := by
  rw [encryptState, List.range'_concat, List.foldl_append, Nat.one_mul, Nat.add_comm 1 r]
  rfl

theorem length_encryptState (rk block : List UInt8) (r : ℕ) :
    (encryptState rk block r).length = 16 := by
  cases r with
  | zero => exact length_addRoundKey rk 0 block
  | succ r =>
      rw [encryptState_succ]
      exact length_addRoundKey rk _ _

/-- A round of `aes_decrypt_block` undoes the mix and the key of one round and the
substitution of the next. -/
theorem decryptRound_succ (rk block : List UInt8) {r : ℕ} (hr : r + 1 < 10) :
    decryptRound rk (substituted (encryptState rk block (r + 1))) (r + 1) =
      substituted (encryptState rk block r) := by
  rw [decryptRound, substituted, invSub_invShift (length_encryptState rk block (r + 1)),
    if_pos (Nat.succ_pos r), encryptState_succ, encryptRound, if_pos hr]
  change [0, 4, 8, 12].flatMap (invMixColumn (addRoundKey rk (r + 1) (addRoundKey rk (r + 1)
    (mixColumns (substituted (encryptState rk block r)))))) = _
  rw [addRoundKey_addRoundKey rk (r + 1) rfl]
  exact invMix_mixColumns (length_substituted _)

theorem decryptRound_zero (rk : List UInt8) (hblock : block.length = 16) :
    decryptRound rk (substituted (encryptState rk block 0)) 0 = block := by
  rw [decryptRound, substituted, invSub_invShift (length_encryptState rk block 0),
    if_neg (Nat.lt_irrefl 0)]
  exact addRoundKey_addRoundKey rk 0 hblock

/-- The rounds from a number down to 0. -/
theorem decryptRounds (rk : List UInt8) (hblock : block.length = 16) {r : ℕ} (hr : r < 10) :
    (List.range (r + 1)).reverse.foldl (decryptRound rk)
      (substituted (encryptState rk block r)) = block := by
  induction r with
  | zero => exact decryptRound_zero rk hblock
  | succ r ih =>
      rw [List.range_succ, List.reverse_append, List.reverse_singleton, List.singleton_append,
        List.foldl_cons, decryptRound_succ rk block hr]
      exact ih (by omega)

theorem aesDecryptBlock_aesEncryptBlock (rk : List UInt8) (hblock : block.length = 16) :
    aesDecryptBlock rk (aesEncryptBlock rk block) = block := by
  have hencrypt : aesEncryptBlock rk block = encryptState rk block 10 :=
    stateOf_eq (length_encryptState rk block 10)
  have hlast : addRoundKey rk 10 (encryptState rk block 10) =
      substituted (encryptState rk block 9) := by
    rw [encryptState_succ]
    exact addRoundKey_addRoundKey rk 10 (length_substituted _)
  rw [hencrypt, aesDecryptBlock, hlast]
  have hrounds := decryptRounds rk hblock (show 9 < 10 by decide)
  have hlist : (List.range (9 + 1)).reverse = [9, 8, 7, 6, 5, 4, 3, 2, 1, 0] := by decide
  rw [hlist] at hrounds
  rw [hrounds]
  exact stateOf_eq hblock

/-! ## The blocks -/

theorem length_cryptBlocks {crypt : List UInt8 → List UInt8}
    (hcrypt : ∀ block, (crypt block).length = 16) (n : ℕ) (bytes : List UInt8) :
    (cryptBlocks crypt n bytes).length = 16 * n := by
  induction n generalizing bytes with
  | zero => rfl
  | succ n ih =>
      rw [cryptBlocks, List.length_append, hcrypt, ih]
      omega

theorem length_aesEncryptBlock (rk block : List UInt8) :
    (aesEncryptBlock rk block).length = 16 := by
  rw [aesEncryptBlock, List.length_map, List.length_range]

theorem decryptBlocks_encryptBlocks (rk : List UInt8) {n : ℕ} (hlen : bytes.length = 16 * n) :
    decryptBlocks rk n (cryptBlocks (aesEncryptBlock rk) n bytes) = bytes := by
  induction n generalizing bytes with
  | zero => exact (List.length_eq_zero_iff.mp hlen).symm
  | succ n ih =>
      have htake : (bytes.take 16).length = 16 := by
        rw [List.length_take]
        omega
      have hdrop : (bytes.drop 16).length = 16 * n := by
        rw [List.length_drop]
        omega
      rw [cryptBlocks, decryptBlocks, List.take_left' (length_aesEncryptBlock _ _),
        List.drop_left' (length_aesEncryptBlock _ _), ih hdrop,
        aesDecryptBlock_aesEncryptBlock rk htake, List.take_append_drop]

theorem aes128EcbEncrypt_eq (key : List UInt8) {cells ciphertext : List (Option UInt8)} {n : ℕ}
    (hplain : 16 * n ≤ bytes.length) (hcipher : 16 * n ≤ ciphertext.length) :
    aes128EcbEncrypt (bytes.map some ++ cells) (16 * n) key ciphertext =
      some (overlay ciphertext 0
        ((cryptBlocks (aesEncryptBlock (aesKeyExpansion key)) n bytes).map some)) := by
  have hloop : CryptLoop (aesEncryptBlock (aesKeyExpansion key)) (bytes.map some ++ cells)
      (ecbEncryptLoop (aesKeyExpansion key) (bytes.map some ++ cells)) := by
    intro len i output
    rw [ecbEncryptLoop]
    rfl
  exact hloop.eq (length_aesEncryptBlock _) hplain hcipher

/-- Whole blocks that are encrypted into one buffer and decrypted from it into another come
back, whatever the buffers held. -/
theorem aes128EcbDecrypt_aes128EcbEncrypt (key bytes : List UInt8)
    (ciphertext plaintext : List (Option UInt8)) (hlen : 16 ∣ bytes.length)
    (hcipher : bytes.length ≤ ciphertext.length) (hplain : bytes.length ≤ plaintext.length) :
    ∃ encrypted decrypted,
      aes128EcbEncrypt (bytes.map some) bytes.length key ciphertext = some encrypted ∧
        aes128EcbDecrypt encrypted bytes.length key plaintext = some decrypted ∧
        decrypted.take bytes.length = bytes.map some := by
  obtain ⟨n, hn⟩ := hlen
  have hblocks := length_cryptBlocks (length_aesEncryptBlock (aesKeyExpansion key)) n bytes
  have hencrypt : aes128EcbEncrypt (bytes.map some ++ []) (16 * n) key ciphertext = _ :=
    aes128EcbEncrypt_eq key (by omega) (by omega)
  have hfront : overlay ciphertext 0
        ((cryptBlocks (aesEncryptBlock (aesKeyExpansion key)) n bytes).map some) =
      (cryptBlocks (aesEncryptBlock (aesKeyExpansion key)) n bytes).map some ++
        ciphertext.drop (16 * n) := by
    rw [overlay, List.take_zero, List.nil_append, Nat.zero_add, List.length_map, hblocks]
  have hdecrypt := @aes128EcbDecrypt_eq
    (cryptBlocks (aesEncryptBlock (aesKeyExpansion key)) n bytes) (ciphertext.drop (16 * n))
    plaintext key n (by omega) (by omega)
  rw [List.append_nil, hfront] at hencrypt
  rw [decryptBlocks_encryptBlocks _ hn] at hdecrypt
  rw [hn]
  refine ⟨_, _, hencrypt, hdecrypt, ?_⟩
  have hfits : 0 + (bytes.map some).length ≤ plaintext.length := by
    rw [List.length_map]
    omega
  have htake := take_overlay hfits
  rw [Nat.zero_add, List.length_map, List.take_zero, List.nil_append, hn] at htake
  exact htake

/-- Two blocks, into a buffer that was not written yet. -/
theorem aes128EcbDecrypt_aes128EcbEncrypt_two :
    ∃ encrypted decrypted,
      aes128EcbEncrypt ((List.replicate 32 (7 : UInt8)).map some) 32
          (List.replicate 16 1) (List.replicate 48 none) = some encrypted ∧
        aes128EcbDecrypt encrypted 32 (List.replicate 16 1) (List.replicate 32 none) =
          some decrypted ∧
        decrypted.take 32 = (List.replicate 32 (7 : UInt8)).map some :=
  aes128EcbDecrypt_aes128EcbEncrypt (List.replicate 16 1) (List.replicate 32 7)
    (List.replicate 48 none) (List.replicate 32 none) (by decide) (by decide) (by decide)

end MoonlightPsp.Pairing

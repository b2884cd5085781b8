import MoonlightPsp.Pairing.Model

/-!
# The challenge in its buffers

What the extraction, the decoder and the cipher write into their buffers.  The decoder
writes a byte for a single digit at the end, too.
-/

namespace MoonlightPsp.Pairing

open Rtsp CheckedMemory

variable {text seen rest value tag buf : Text} {junk out : List (Option Char)}

/-! ## Extraction -/

/-- The text between two tags, if it fits into a buffer. -/
def tagValue (tag : Text) (outSize : ℕ) (buf : Text) : Option Text :=
  (after (snprintf 64 ("<".toList ++ tag ++ ">".toList)) buf).bind fun s =>
    (strstr (snprintf 64 ("</".toList ++ tag ++ ">".toList)) s).bind fun e =>
      let len := s.length - e.length
      if outSize ≤ len then none else some (s.take len)

/-- A buffer that starts with a C string. -/
def holding (out : List (Option Char)) (text : Text) : List (Option Char) :=
  overlay out 0 ((text ++ [nul]).map some)

theorem holding_eq (out : List (Option Char)) (text : Text) :
    holding out text = (text ++ [nul]).map some ++ out.drop (text.length + 1) := by
  rw [holding, overlay, List.take_zero, List.nil_append, Nat.zero_add, List.length_map,
    List.length_append, List.length_singleton]

theorem length_holding (h : text.length < out.length) :
    (holding out text).length = out.length := by
  rw [holding, length_overlay]
  rw [List.length_map, List.length_append, List.length_singleton]
  omega

theorem xmlGetValueSafe_eq {outSize : ℕ} (hsize : out.length = outSize) :
    xmlGetValueSafe buf tag out outSize =
      match tagValue tag outSize buf with
      | none => some (-1, out)
      | some value => some (value.length, holding out value) := by
  rw [xmlGetValueSafe, tagValue]
  cases after (snprintf 64 ("<".toList ++ tag ++ ">".toList)) buf with
  | none => rfl
  | some s =>
      simp only [Option.bind_some]
      cases strstr (snprintf 64 ("</".toList ++ tag ++ ">".toList)) s with
      | none => rfl
      | some e =>
          simp only [Option.bind_some]
          by_cases hlong : outSize ≤ s.length - e.length
          · rw [if_pos hlong, if_pos hlong]
          · rw [if_neg hlong, if_neg hlong]
            have hlen : (s.take (s.length - e.length)).length = s.length - e.length := by
              rw [List.length_take]
              omega
            have hsrc : 0 + (s.length - e.length) ≤ (s.map some).length := by
              rw [List.length_map]
              omega
            have hcopied : ((s.map some).drop 0).take (s.length - e.length) =
                (s.take (s.length - e.length)).map some := by
              rw [List.drop_zero, List.map_take]
            rw [copy_eq_overlay hsrc (by omega), hcopied]
            simp only [Option.bind_eq_bind, Option.bind_some]
            have hstore := store_overlay out ((s.take (s.length - e.length)).map some)
              (by rw [List.length_map, hlen]; omega) (some nul)
            rw [List.length_map, hlen] at hstore
            rw [hstore, hlen, holding, List.map_append]
            rfl

theorem tagValue_spec {outSize : ℕ} (h : tagValue tag outSize buf = some value) :
    value.length < outSize ∧ ∀ c ∈ value, c ∈ buf := by
  simp only [tagValue, after, Option.bind_eq_some_iff, Option.map_eq_some_iff] at h
  obtain ⟨s, ⟨found, hfound, rfl⟩, e, _, hvalue⟩ := h
  split at hvalue
  · exact absurd hvalue.symm (Option.some_ne_none _)
  · rename_i hfits
    obtain rfl := Option.some.inj hvalue
    constructor
    · rw [List.length_take]
      omega
    · intro c hc
      exact (strstr_spec hfound).2.subset (List.mem_of_mem_drop (List.mem_of_mem_take hc))

theorem readString_append (h : nul ∉ text) (junk : List (Option Char)) :
    readString ((text ++ [nul]).map some ++ junk) = some text := by
  induction text with
  | nil => rfl
  | cons c text ih =>
      rw [List.mem_cons, not_or] at h
      rw [List.cons_append, List.map_cons, List.cons_append, readString,
        if_neg (Ne.symm h.1), ih h.2]
      rfl

theorem readString_holding (h : nul ∉ text) (out : List (Option Char)) :
    readString (holding out text) = some text := by
  rw [holding_eq, readString_append h]

/-! ## The decoder -/

/-- The bytes of a text of digits; a single digit at the end goes with the
terminator. -/
def hexBytes : Text → List UInt8
  | [] => []
  | [c] => [hexByte c nul]
  | hi :: lo :: rest => hexByte hi lo :: hexBytes rest

theorem length_hexBytes (text : Text) : (hexBytes text).length = (text.length + 1) / 2 := by
  induction text using hexBytes.induct with
  | case1 => rfl
  | case2 c => exact (by decide : 1 = (1 + 1) / 2)
  | case3 hi lo rest ih =>
      rw [hexBytes, List.length_cons, ih]
      simp only [List.length_cons]
      omega

/-- The characters of a string in a buffer, the terminator among them. -/
theorem getElem?_string (text rest : Text) (junk : List (Option Char)) (c : Char)
    (h : text.length = n) :
    (((text ++ c :: rest).map some ++ junk)[n]?).join = some c := by
  subst h
  rw [List.getElem?_append_left (by simp), List.getElem?_map, List.getElem?_append_right
    (Nat.le_refl _), Nat.sub_self]
  rfl

variable {bytes done : List UInt8} {cells ciphertext plaintext : List (Option UInt8)}

/-- One turn of the decoder. -/
theorem hexLoop_turn {input : List (Option Char)} {hexLen i : ℕ} {hi lo : Char}
    (hi' : (input[i]?).join = some hi) (hlo : (input[i + 1]?).join = some lo)
    (h : i < hexLen) :
    hexLoop input hexLen i cells =
      (store cells (i / 2) (some (hexByte hi lo))).bind (hexLoop input hexLen (i + 2)) := by
  rw [hexLoop, if_pos h]
  simp only [Option.bind_eq_bind, hi', hlo, Option.bind_some]

/-- One more byte behind those that were written, if there is room. -/
theorem store_byte (hdone : done.length ≤ cells.length) (byte : UInt8) :
    store (overlay cells 0 (done.map some)) done.length (some byte) =
      if done.length < cells.length then
        some (overlay cells 0 ((done ++ [byte]).map some))
      else none := by
  by_cases hfits : done.length < cells.length
  · have h := store_overlay cells (done.map some) (by rwa [List.length_map]) (some byte)
    rw [List.length_map] at h
    rw [if_pos hfits, h, List.map_append]
    rfl
  · rw [if_neg hfits, store, if_neg]
    rw [length_overlay (by rw [List.length_map]; omega)]
    exact hfits

/-- From a pair on, the decoder writes the bytes of the remaining digits behind those it
has written, as long as they fit. -/
theorem hexLoop_eq (hseen : seen.length = 2 * done.length)
    (hdone : done.length ≤ cells.length) :
    hexLoop ((seen ++ rest ++ [nul]).map some ++ junk) (seen.length + rest.length)
        seen.length (overlay cells 0 (done.map some)) =
      if done.length + (hexBytes rest).length ≤ cells.length then
        some (overlay cells 0 ((done ++ hexBytes rest).map some))
      else none := by
  induction rest using hexBytes.induct generalizing seen done with
  | case1 =>
      rw [hexLoop, if_neg (by simp), if_pos (by simpa [hexBytes] using hdone), hexBytes,
        List.append_nil]
  | case2 c =>
      have hfirst : (((seen ++ [c] ++ [nul]).map some ++ junk)[seen.length]?).join =
          some c := by
        rw [List.append_assoc]
        exact getElem?_string seen [nul] junk c rfl
      have hsecond : (((seen ++ [c] ++ [nul]).map some ++ junk)[seen.length + 1]?).join =
          some nul :=
        getElem?_string (seen ++ [c]) [] junk nul (by simp)
      have hindex : seen.length / 2 = done.length := by omega
      have hone : [hexByte c nul].length = 1 := rfl
      rw [hexLoop_turn hfirst hsecond (by simp), hindex, store_byte hdone, hexBytes, hone]
      by_cases hfits : done.length < cells.length
      · rw [if_pos hfits, if_pos (Nat.succ_le_of_lt hfits), Option.bind_some, hexLoop,
          if_neg (by simp)]
      · rw [if_neg hfits, if_neg fun h => hfits (Nat.lt_of_succ_le h)]
        rfl
  | case3 hi lo rest ih =>
      have hfirst : (((seen ++ hi :: lo :: rest ++ [nul]).map some ++
          junk)[seen.length]?).join = some hi := by
        rw [List.append_assoc]
        exact getElem?_string seen (lo :: rest ++ [nul]) junk hi rfl
      have hmove : seen ++ hi :: lo :: rest = seen ++ [hi, lo] ++ rest := by
        rw [List.append_assoc]
        rfl
      have hsecond : (((seen ++ hi :: lo :: rest ++ [nul]).map some ++
          junk)[seen.length + 1]?).join = some lo := by
        have hsplit : seen ++ hi :: lo :: rest ++ [nul] =
            (seen ++ [hi]) ++ lo :: (rest ++ [nul]) := by
          simp only [List.append_assoc, List.cons_append, List.nil_append]
        rw [hsplit]
        exact getElem?_string (seen ++ [hi]) (rest ++ [nul]) junk lo (by simp)
      have hindex : seen.length / 2 = done.length := by omega
      rw [hexLoop_turn hfirst hsecond (by simp), hindex, store_byte hdone, hexBytes]
      by_cases hfits : done.length < cells.length
      · have hlen : (seen ++ [hi, lo]).length = 2 * (done ++ [hexByte hi lo]).length := by
          simp only [List.length_append, List.length_cons, List.length_nil]
          omega
        have hroom : (done ++ [hexByte hi lo]).length ≤ cells.length := by
          rw [List.length_append, List.length_singleton]
          omega
        have hrest := ih hlen hroom
        rw [if_pos hfits, Option.bind_some, hmove]
        have hnext : (seen ++ [hi, lo]).length = seen.length + 2 := by simp
        have htotal : seen.length + (hi :: lo :: rest).length =
            (seen ++ [hi, lo]).length + rest.length := by
          simp only [List.length_append, List.length_cons, List.length_nil]
          omega
        rw [htotal, ← hnext, hrest, List.append_assoc, List.singleton_append]
        simp only [List.length_append, List.length_cons, List.length_nil]
        congr 1
        rw [eq_iff_iff]
        omega
      · rw [if_neg hfits, if_neg]
        · rfl
        · rw [List.length_cons]
          omega

/-- What the decoder leaves of a string. -/
theorem hexToBytesLite_eq (text : Text) (junk : List (Option Char))
    (cells : List (Option UInt8)) :
    hexToBytesLite ((text ++ [nul]).map some ++ junk) cells text.length =
      if (hexBytes text).length ≤ cells.length then
        some (overlay cells 0 ((hexBytes text).map some))
      else none := by
  have hseen : ([] : Text).length = 2 * ([] : List UInt8).length := rfl
  have hdone : ([] : List UInt8).length ≤ cells.length := Nat.zero_le _
  have h : hexLoop ((([] : Text) ++ text ++ [nul]).map some ++ junk)
      (([] : Text).length + text.length) ([] : Text).length
      (overlay cells 0 (([] : List UInt8).map some)) = _ :=
    hexLoop_eq hseen hdone
  simpa [hexToBytesLite] using h

/-! ## The cipher -/

theorem length_aesDecryptBlock (rk block : List UInt8) :
    (aesDecryptBlock rk block).length = 16 := by
  simp only [aesDecryptBlock, List.length_map, List.length_range]

theorem length_decryptBlocks (rk : List UInt8) (n : ℕ) (bytes : List UInt8) :
    (decryptBlocks rk n bytes).length = 16 * n := by
  induction n generalizing bytes with
  | zero => rfl
  | succ n ih =>
      rw [decryptBlocks, List.length_append, length_aesDecryptBlock, ih]
      omega

/-- Written bytes can be read. -/
theorem readBytes_written (bytes : List UInt8) (cells : List (Option UInt8)) {i n : ℕ}
    (h : i + n ≤ bytes.length) :
    readBytes (bytes.map some ++ cells) i n = some ((bytes.drop i).take n) := by
  have hfits : i + n ≤ (bytes.map some ++ cells).length := by
    rw [List.length_append, List.length_map]
    omega
  have hpart : ((bytes.map some ++ cells).drop i).take n =
      ((bytes.drop i).take n).map some := by
    rw [List.drop_append_of_le_length (by rw [List.length_map]; omega),
      List.take_append_of_le_length (by rw [List.length_drop, List.length_map]; omega),
      ← List.map_drop, ← List.map_take]
  rw [readBytes, slice_eq hfits, Option.bind_some, hpart]
  generalize (bytes.drop i).take n = part
  induction part with
  | nil => rfl
  | cons b part ih => rw [List.map_cons, List.mapM_cons, ih]; rfl

/-- One more block behind those that were written. -/
theorem copy_block {block : List UInt8} {start : ℕ} (hblock : block.length = 16)
    (hstart : start = done.length) (hfits : start + 16 ≤ plaintext.length) :
    copy (block.map some) (overlay plaintext 0 (done.map some)) 0 start 16 =
      some (overlay plaintext 0 ((done ++ block).map some)) := by
  have hlaid : 0 + (done.map some).length ≤ plaintext.length := by
    rw [List.length_map]
    omega
  have hlen : (block.map some).length = 16 := by
    rw [List.length_map, hblock]
  have hsrc : 0 + 16 ≤ (block.map some).length := by omega
  have hall : ((block.map some).drop 0).take 16 = block.map some := by
    rw [List.drop_zero, List.take_of_length_le (Nat.le_of_eq hlen)]
  have hbehind := overlay_overlay hlaid (block.map some)
  rw [Nat.zero_add, List.length_map, ← hstart, ← List.map_append] at hbehind
  rw [copy_eq_overlay hsrc (by rw [length_overlay hlaid]; exact hfits), hall, hbehind]

/-- The blocks of a text, each through a block cipher. -/
def cryptBlocks (crypt : List UInt8 → List UInt8) : ℕ → List UInt8 → List UInt8
  | 0, _ => []
  | n + 1, bytes => crypt (bytes.take 16) ++ cryptBlocks crypt n (bytes.drop 16)

theorem decryptBlocks_eq (rk : List UInt8) (n : ℕ) (bytes : List UInt8) :
    decryptBlocks rk n bytes = cryptBlocks (aesDecryptBlock rk) n bytes := by
  induction n generalizing bytes with
  | zero => rfl
  | succ n ih => rw [decryptBlocks, cryptBlocks, ih]

/-- A loop that puts the blocks of an input buffer through a block cipher. -/
def CryptLoop (crypt : List UInt8 → List UInt8) (input : List (Option UInt8))
    (loop : ℕ → ℕ → List (Option UInt8) → Option (List (Option UInt8))) : Prop :=
  ∀ len i output, loop len i output =
    if i < len then
      (readBytes input i 16).bind fun block =>
        (copy ((crypt block).map some) output 0 i 16).bind fun output => loop len (i + 16) output
    else some output

/-- From a block on, a loop over the blocks writes those it makes behind those it has
written. -/
theorem CryptLoop.eq_from {crypt : List UInt8 → List UInt8}
    {loop : ℕ → ℕ → List (Option UInt8) → Option (List (Option UInt8))}
    (hloop : CryptLoop crypt (bytes.map some ++ cells) loop)
    (hcrypt : ∀ block, (crypt block).length = 16) (n : ℕ) {start : ℕ} (hstart : start = done.length)
    (hcipher : start + 16 * n ≤ bytes.length) (hplain : start + 16 * n ≤ plaintext.length) :
    loop (start + 16 * n) start (overlay plaintext 0 (done.map some)) =
      some (overlay plaintext 0
        ((done ++ cryptBlocks crypt n (bytes.drop start)).map some)) := by
  induction n generalizing start done with
  | zero =>
      rw [hloop, if_neg (by omega), cryptBlocks, List.append_nil]
  | succ n ih =>
      have hblock := hcrypt ((bytes.drop start).take 16)
      rw [hloop, if_pos (by omega), readBytes_written _ _ (by omega), Option.bind_some,
        copy_block hblock hstart (by omega), Option.bind_some]
      have hnext : start + 16 = (done ++ crypt ((bytes.drop start).take 16)).length := by
        rw [List.length_append, hblock, hstart]
      have htotal : start + 16 * (n + 1) = start + 16 + 16 * n := by omega
      rw [htotal, ih hnext (by omega) (by omega), cryptBlocks, List.append_assoc,
        List.drop_drop]

theorem CryptLoop.eq {crypt : List UInt8 → List UInt8}
    {loop : ℕ → ℕ → List (Option UInt8) → Option (List (Option UInt8))}
    (hloop : CryptLoop crypt (bytes.map some ++ cells) loop)
    (hcrypt : ∀ block, (crypt block).length = 16) {n : ℕ} (hcipher : 16 * n ≤ bytes.length)
    (hplain : 16 * n ≤ plaintext.length) :
    loop (16 * n) 0 plaintext =
      some (overlay plaintext 0 ((cryptBlocks crypt n bytes).map some)) := by
  have hstart : 0 = ([] : List UInt8).length := rfl
  have h : loop (0 + 16 * n) 0 (overlay plaintext 0 (([] : List UInt8).map some)) = _ :=
    hloop.eq_from hcrypt n hstart (by omega) (by omega)
  simpa using h

/-- What the cipher leaves of written bytes. -/
theorem aes128EcbDecrypt_eq (key : List UInt8) {n : ℕ} (hcipher : 16 * n ≤ bytes.length)
    (hplain : 16 * n ≤ plaintext.length) :
    aes128EcbDecrypt (bytes.map some ++ cells) (16 * n) key plaintext =
      some (overlay plaintext 0
        ((decryptBlocks (aesKeyExpansion key) n bytes).map some)) := by
  have hloop : CryptLoop (aesDecryptBlock (aesKeyExpansion key)) (bytes.map some ++ cells)
      (ecbLoop (aesKeyExpansion key) (bytes.map some ++ cells)) := by
    intro len i output
    rw [ecbLoop]
    rfl
  rw [decryptBlocks_eq]
  exact hloop.eq (length_aesDecryptBlock _) hcipher hplain

end MoonlightPsp.Pairing

import MoonlightPsp.Control.ReceiveBounds

/-!
# Encrypted messages are read back

The host lays out an encrypted message as `build_encrypted_control_msg` does, with
its own vector.  `decode_control_message` reads it back, and otherwise takes
nothing whose lengths are wrong.  Here it has the scratch buffer of its caller,
and a store outside of the buffer has no result.
-/

namespace MoonlightPsp.Control

open CheckedMemory

/-! ## The model -/

/-- What `mbedtls_gcm_auth_decrypt` does with `n` bytes: whether the tag is right,
and the bytes it leaves in its output. -/
structure Decrypted (n : ℕ) where
  right : Bool
  output : List UInt8
  output_length : output.length = n

/-- The tag is wrong, and the output is cleared. -/
def Decrypted.wrong (n : ℕ) : Decrypted n where
  right := false
  output := List.replicate n 0
  output_length := List.length_replicate

/-- `mbedtls_gcm_auth_decrypt` with the key of the session. -/
abbrev GcmAuthDecrypt :=
  (iv tag ciphertext : List UInt8) → Decrypted ciphertext.length

/-- The encrypted form in `decode_control_message`, and the scratch buffer after
it. -/
def decodeEncryptedIn (authDecrypt : GcmAuthDecrypt) (gcmTaken : Bool)
    (data scratch : List UInt8) : Option (Option ControlMessage × List UInt8) := do
  if scratch.length = 0 ∨ data.length < 24 then some (none, scratch)
  else
    let encLen ← getLe16 data 2
    if encLen < 24 ∨ encLen.toNat + 4 > data.length then some (none, scratch)
    else
      let seq ← getLe32 data 4
      let tag ← slice data 8 16
      let ciphertextLen := encLen.toNat - 20
      if ciphertextLen = 0 ∨ ciphertextLen > scratch.length then
        some (none, scratch)
      else if !gcmTaken then some (none, scratch)
      else
        let ciphertext ← slice data 24 ciphertextLen
        let decrypted := authDecrypt (hostIv seq) tag ciphertext
        let scratch ← copy decrypted.output scratch 0 0 ciphertextLen
        if !decrypted.right ∨ ciphertextLen < 4 then some (none, scratch)
        else
          let msgType ← getLe16 scratch 0
          let payloadLen ← getLe16 scratch 2
          if payloadLen.toNat > ciphertextLen - 4 then some (none, scratch)
          else
            let payload ← slice scratch 4 payloadLen.toNat
            some (some ⟨msgType, payload⟩, scratch)

/-- `decode_control_message` with its scratch buffer. -/
def decodeControlMessageIn (authDecrypt : GcmAuthDecrypt) (gcmTaken : Bool)
    (data scratch : List UInt8) : Option (Option ControlMessage × List UInt8) := do
  if data.length < 4 then some (none, scratch)
  else
    let marker ← getLe16 data 0
    if marker = 0x0001 then decodeEncryptedIn authDecrypt gcmTaken data scratch
    else
      let payload ← slice data 2 (data.length - 2)
      some (some ⟨marker, payload⟩, scratch)

/-! ## What is laid out -/

/-- A message of the host. -/
def hostBlob (gcm : Gcm) (seq : UInt32) (msgType : UInt16)
    (payload : List UInt8) : Option (List UInt8) :=
  encryptedBlob (fun _ plaintext => gcm (hostIv seq) plaintext) seq msgType payload

/-- With the same key and vector, decryption gives back what was encrypted. -/
def Inverts (authDecrypt : GcmAuthDecrypt) (gcm : Gcm) : Prop :=
  ∀ (iv plaintext : List UInt8) (out : Sealed plaintext.length),
    gcm iv plaintext = some out →
      (authDecrypt iv out.tag out.ciphertext).right = true ∧
        (authDecrypt iv out.tag out.ciphertext).output = plaintext

/-- The lengths that an encrypted message declares: that of its encrypted part
fits into the data, and that of the payload into the plaintext, which is in the
scratch buffer. -/
structure LengthsFit (data scratch : List UInt8) (encLen payloadLen : UInt16) :
    Prop where
  declared : getLe16 data 2 = some encLen
  declaredPayload : getLe16 scratch 2 = some payloadLen
  header_le : 24 ≤ encLen.toNat
  fits : encLen.toNat + 4 ≤ data.length
  payload_fits : payloadLen.toNat + 4 ≤ encLen.toNat - 20

/-! ## Bounds -/

theorem copy_to_start {src m : List UInt8} {n : ℕ} (hsrc : n ≤ src.length)
    (hm : n ≤ m.length) :
    ∃ m', copy src m 0 0 n = some m' ∧ m' = src.take n ++ m.drop n ∧
      m'.length = m.length := by
  have hcopy : copy src m 0 0 n = some (overlay m 0 ((src.drop 0).take n)) :=
    copy_eq_overlay (by omega) (by omega)
  have hlen : (src.take n).length = n := List.length_take_of_le hsrc
  rw [List.drop_zero] at hcopy
  refine ⟨_, hcopy, ?_, length_overlay (by omega)⟩
  rw [overlay, hlen, List.take_zero, List.nil_append, Nat.zero_add]

/-- A call leaves the buffer its size, and gives a message only if the lengths
fit. -/
def Bounded (data scratch : List UInt8)
    (r : Option (Option ControlMessage × List UInt8)) : Prop :=
  ∃ m scratch', r = some (m, scratch') ∧ scratch'.length = scratch.length ∧
    (m.isSome → ∃ encLen payloadLen, LengthsFit data scratch' encLen payloadLen)

theorem bounded_none {data scratch scratch' : List UInt8}
    (hlen : scratch'.length = scratch.length) :
    Bounded data scratch (some (none, scratch')) :=
  ⟨none, scratch', rfl, hlen, fun h => nomatch h⟩

theorem decodeEncryptedIn_bounded (authDecrypt : GcmAuthDecrypt) (gcmTaken : Bool)
    (data scratch : List UInt8) :
    Bounded data scratch (decodeEncryptedIn authDecrypt gcmTaken data scratch) := by
  rw [decodeEncryptedIn]
  split
  · exact bounded_none rfl
  · rename_i hheader
    obtain ⟨encLen, hencLen⟩ := getLe16_isSome (d := data) (i := 2) (by omega)
    rw [bind_eq_of_eq hencLen]
    split
    · exact bounded_none rfl
    · rename_i hwhole
      rw [not_or, UInt16.not_lt, not_lt] at hwhole
      have hmin : 24 ≤ encLen.toNat := UInt16.le_iff_toNat_le.mp hwhole.1
      obtain ⟨seq, hseq⟩ := getLe32_isSome (d := data) (i := 4) (by omega)
      rw [bind_eq_of_eq hseq, bind_eq_of_eq (slice_eq (by omega))]
      dsimp only
      split
      · exact bounded_none rfl
      · rename_i hroom
        split
        · exact bounded_none rfl
        · rw [bind_eq_of_eq (slice_eq (by omega))]
          have hlength : ((data.drop 24).take (encLen.toNat - 20)).length =
              encLen.toNat - 20 := by
            rw [List.length_take, List.length_drop]
            omega
          obtain ⟨scratch', hcopy, -, hsame⟩ := @copy_to_start
            (authDecrypt (hostIv seq) ((data.drop 8).take 16)
              ((data.drop 24).take (encLen.toNat - 20))).output scratch
            (encLen.toNat - 20) (by rw [Decrypted.output_length]; omega) (by omega)
          rw [bind_eq_of_eq hcopy]
          split
          · exact bounded_none hsame
          · obtain ⟨msgType, hmsgType⟩ := getLe16_isSome (d := scratch')
              (i := 0) (by omega)
            obtain ⟨payloadLen, hpayloadLen⟩ := getLe16_isSome (d := scratch')
              (i := 2) (by omega)
            rw [bind_eq_of_eq hmsgType, bind_eq_of_eq hpayloadLen]
            split
            · exact bounded_none hsame
            · rw [bind_eq_of_eq (slice_eq (by omega))]
              exact ⟨_, scratch', rfl, hsame, fun _ => ⟨encLen, payloadLen,
                hencLen, hpayloadLen, hmin, by omega, by omega⟩⟩

/-! ## Numbers -/

theorem le16_roundTrip (v : UInt16) :
    v.toUInt8.toUInt16 ||| (v >>> 8).toUInt8.toUInt16 <<< 8 = v := by
  apply UInt16.eq_of_toBitVec_eq
  simp only [UInt16.toBitVec_or, UInt16.toBitVec_shiftLeft,
    UInt8.toBitVec_toUInt16, UInt16.toBitVec_toUInt8,
    UInt16.toBitVec_shiftRight]
  ext i hi
  rcases Nat.lt_or_ge i 8 with h8 | h8
  · simp [h8, BitVec.getLsbD_eq_getElem hi]
  · simp [show ¬ i < 8 by omega, show i - 8 < 8 by omega,
      show 8 + (i - 8) = i by omega, BitVec.getLsbD_eq_getElem hi]

/-- A number is read where it was put. -/
theorem getLe16_putLe16 (front rest : List UInt8) (v : UInt16) :
    getLe16 (front ++ (putLe16 v ++ rest)) front.length = some v := by
  have hlow : (front ++ (putLe16 v ++ rest))[front.length]? = some v.toUInt8 := by
    rw [List.getElem?_append_right (Nat.le_refl _), Nat.sub_self]
    rfl
  have hhigh : (front ++ (putLe16 v ++ rest))[front.length + 1]? =
      some (v >>> 8).toUInt8 := by
    rw [List.getElem?_append_right (Nat.le_add_right _ 1),
      Nat.add_sub_cancel_left]
    rfl
  rw [getLe16, bind_eq_of_eq hlow, bind_eq_of_eq hhigh, le16_roundTrip]

/-- A number of 32 bits is put as its two halves. -/
theorem putLe32_eq (v : UInt32) :
    putLe32 v = putLe16 v.toUInt16 ++ putLe16 (v >>> 16).toUInt16 := by
  have hbyte (w : UInt32) : (w.toUInt16 >>> 8).toUInt8 = (w >>> 8).toUInt8 := by
    apply UInt8.toNat_inj.mp
    simp only [UInt16.toNat_toUInt8, UInt16.toNat_shiftRight, UInt32.toNat_toUInt16,
      UInt32.toNat_toUInt8, UInt32.toNat_shiftRight, Nat.shiftRight_eq_div_pow]
    simp
    omega
  have hshift : v >>> 16 >>> 8 = v >>> 24 := by
    apply UInt32.toNat_inj.mp
    simp only [UInt32.toNat_shiftRight, Nat.shiftRight_eq_div_pow]
    simp [Nat.div_div_eq_div_mul]
  have hlow (w : UInt32) : w.toUInt16.toUInt8 = w.toUInt8 := by simp
  rw [putLe16, putLe16, hbyte, hbyte, hshift, hlow, hlow]
  rfl

theorem halves_or (v : UInt32) :
    v.toUInt16.toUInt32 ||| (v >>> 16).toUInt16.toUInt32 <<< 16 = v := by
  apply UInt32.toNat_inj.mp
  have hlt := v.toNat_lt
  have hhigh : ((v >>> 16).toUInt16.toUInt32 <<< 16).toNat =
      (v.toNat / 65536) <<< 16 := by
    have hhalf : v.toNat / 65536 < 65536 := by omega
    simp only [UInt32.toNat_shiftLeft, UInt16.toNat_toUInt32,
      UInt32.toNat_toUInt16, UInt32.toNat_shiftRight, Nat.shiftRight_eq_div_pow]
    simp only [Nat.shiftLeft_eq, UInt32.toNat_ofNat, Nat.reduceMod, Nat.reducePow]
    omega
  rw [UInt32.toNat_or, hhigh, UInt16.toNat_toUInt32, UInt32.toNat_toUInt16,
    Nat.or_comm, ← Nat.shiftLeft_add_eq_or_of_lt (Nat.mod_lt _ (by decide)),
    Nat.shiftLeft_eq]
  omega

theorem getLe32_putLe32 (front rest : List UInt8) (v : UInt32) :
    getLe32 (front ++ (putLe32 v ++ rest)) front.length = some v := by
  have hlow := getLe16_putLe16 front (putLe16 (v >>> 16).toUInt16 ++ rest)
    v.toUInt16
  have hhigh := getLe16_putLe16 (front ++ putLe16 v.toUInt16) rest
    (v >>> 16).toUInt16
  rw [List.length_append, List.append_assoc] at hhigh
  change getLe16 _ (front.length + 2) = _ at hhigh
  rw [putLe32_eq, List.append_assoc, getLe32, bind_eq_of_eq hlow]
  rw [bind_eq_of_eq hhigh, halves_or]

theorem slice_append (front xs rest : List UInt8) :
    slice (front ++ (xs ++ rest)) front.length xs.length = some xs := by
  rw [slice_eq (by simp only [List.length_append]; omega), List.drop_left,
    List.take_left]

/-! ## The round trip -/

theorem controlPlaintext_length (msgType : UInt16) (payload : List UInt8) :
    (controlPlaintext msgType payload).length = payload.length + 4 := by
  simp only [controlPlaintext, putLe16, List.length_append, List.length_cons,
    List.length_nil]
  omega

/-- The fields of a message of the host, where they lie. -/
structure Laid (blob : List UInt8) (seq : UInt32) (tag ciphertext : List UInt8) :
    Prop where
  marker : getLe16 blob 0 = some 0x0001
  encLen : getLe16 blob 2 = some (UInt16.ofNat (20 + ciphertext.length))
  seq_eq : getLe32 blob 4 = some seq
  tag_eq : slice blob 8 16 = some tag
  ciphertext_eq : slice blob 24 ciphertext.length = some ciphertext
  length : blob.length = 24 + ciphertext.length

theorem laid_of_hostBlob {gcm : Gcm} {seq : UInt32} {msgType : UInt16}
    {payload blob : List UInt8}
    (hblob : hostBlob gcm seq msgType payload = some blob) :
    ∃ out : Sealed (controlPlaintext msgType payload).length,
      gcm (hostIv seq) (controlPlaintext msgType payload) = some out ∧
        Laid blob seq out.tag out.ciphertext := by
  rw [hostBlob, encryptedBlob] at hblob
  cases hout : gcm (hostIv seq) (controlPlaintext msgType payload) with
  | none =>
      simp only [hout] at hblob
      exact nomatch hblob
  | some out =>
      simp only [hout, Option.some.injEq] at hblob
      subst hblob
      have htag := out.tag_length
      have hlen := out.ciphertext_length
      refine ⟨out, rfl, getLe16_putLe16 [] _ 0x0001, ?_, ?_, ?_, ?_, ?_⟩
      · rw [hlen]
        exact getLe16_putLe16 [0x01, 0x00] _ _
      · exact getLe32_putLe32 (putLe16 0x0001 ++ putLe16 _) _ seq
      · have hslice := slice_append (putLe16 0x0001 ++ (putLe16
          (UInt16.ofNat (4 + 16 + (controlPlaintext msgType payload).length)) ++
            putLe32 seq)) out.tag out.ciphertext
        rwa [htag] at hslice
      · have hslice := slice_append (putLe16 0x0001 ++ (putLe16
          (UInt16.ofNat (4 + 16 + (controlPlaintext msgType payload).length)) ++
            (putLe32 seq ++ out.tag))) out.ciphertext []
        simp only [List.append_assoc, List.append_nil] at hslice
        rw [show (putLe16 0x0001 ++ (putLe16 (UInt16.ofNat (4 + 16 +
          (controlPlaintext msgType payload).length)) ++
            (putLe32 seq ++ out.tag))).length = 24 by
          simp [putLe16, putLe32, htag]] at hslice
        exact hslice
      · simp only [putLe16, putLe32, List.length_append, List.length_cons,
          List.length_nil, htag]
        omega

/-- What was put into a plaintext is read where it was copied. -/
theorem read_plaintext (msgType : UInt16) (payload rest : List UInt8) :
    getLe16 (controlPlaintext msgType payload ++ rest) 0 = some msgType ∧
      getLe16 (controlPlaintext msgType payload ++ rest) 2 =
        some (UInt16.ofNat payload.length) ∧
      slice (controlPlaintext msgType payload ++ rest) 4 payload.length =
        some payload := by
  simp only [controlPlaintext, List.append_assoc]
  refine ⟨getLe16_putLe16 [] _ msgType, getLe16_putLe16 (putLe16 msgType) _ _, ?_⟩
  have hslice := slice_append (putLe16 msgType ++
    putLe16 (UInt16.ofNat payload.length)) payload rest
  rwa [List.append_assoc] at hslice

theorem decodeControlMessageIn_hostBlob {gcm : Gcm} {authDecrypt : GcmAuthDecrypt}
    (hinverts : Inverts authDecrypt gcm) {seq : UInt32} {msgType : UInt16}
    {payload blob scratch : List UInt8} (hpayload : payload.length ≤ payloadMax)
    (hblob : hostBlob gcm seq msgType payload = some blob)
    (hroom : payload.length + 4 ≤ scratch.length) :
    ∃ scratch', decodeControlMessageIn authDecrypt true blob scratch =
      some (some ⟨msgType, payload⟩, scratch') := by
  obtain ⟨out, hout, hlaid⟩ := laid_of_hostBlob hblob
  obtain ⟨hright, houtput⟩ := hinverts _ _ out hout
  have hplain := controlPlaintext_length msgType payload
  have hcipher : out.ciphertext.length = payload.length + 4 :=
    out.ciphertext_length.trans hplain
  have hmax : payloadMax = 92 := rfl
  have hlength := hlaid.length
  have hencLen : (UInt16.ofNat (20 + out.ciphertext.length)).toNat =
      20 + out.ciphertext.length := UInt16.toNat_ofNat_of_lt' (by
    show _ < 65536
    omega)
  obtain ⟨scratch', hcopy, hscratch, -⟩ := @copy_to_start
    (authDecrypt (hostIv seq) out.tag out.ciphertext).output scratch
    out.ciphertext.length (by rw [Decrypted.output_length]) (by omega)
  obtain ⟨hmsgType, hpayloadLen, hslice⟩ := read_plaintext msgType payload
    (scratch.drop out.ciphertext.length)
  rw [houtput, List.take_of_length_le (by omega)] at hscratch
  rw [← hscratch] at hmsgType hpayloadLen hslice
  have hpayloadNat : (UInt16.ofNat payload.length).toNat = payload.length :=
    UInt16.toNat_ofNat_of_lt' (by
      show _ < 65536
      omega)
  refine ⟨scratch', ?_⟩
  rw [decodeControlMessageIn, if_neg (by omega), bind_eq_of_eq hlaid.marker,
    if_pos rfl, decodeEncryptedIn, if_neg (by omega), bind_eq_of_eq hlaid.encLen,
    if_neg ?_, bind_eq_of_eq hlaid.seq_eq, bind_eq_of_eq hlaid.tag_eq]
  · dsimp only
    rw [hencLen, Nat.add_sub_cancel_left, if_neg (by omega), if_neg (by decide),
      bind_eq_of_eq hlaid.ciphertext_eq, bind_eq_of_eq hcopy, if_neg ?_,
      bind_eq_of_eq hmsgType, bind_eq_of_eq hpayloadLen, hpayloadNat,
      if_neg (by omega), bind_eq_of_eq hslice]
    simp only [hright, Bool.not_true, Bool.false_eq_true, false_or]
    omega
  · rw [not_or, UInt16.not_lt, UInt16.le_iff_toNat_le, hencLen]
    exact ⟨show 24 ≤ _ by omega, by omega⟩

/-! ## Every call -/

theorem decodeControlMessageIn_bounded (authDecrypt : GcmAuthDecrypt)
    (gcmTaken : Bool) (data scratch : List UInt8) :
    ∃ m scratch', decodeControlMessageIn authDecrypt gcmTaken data scratch =
        some (m, scratch') ∧ scratch'.length = scratch.length ∧
      (getLe16 data 0 = some 0x0001 → m.isSome → ∃ encLen payloadLen,
        LengthsFit data scratch' encLen payloadLen) := by
  rw [decodeControlMessageIn]
  split
  · exact ⟨none, scratch, rfl, rfl, fun _ h => nomatch h⟩
  · rename_i hlen
    obtain ⟨marker, hmarker⟩ := getLe16_isSome (d := data) (i := 0) (by omega)
    rw [bind_eq_of_eq hmarker]
    split
    · obtain ⟨m, scratch', hm, hsame, hfit⟩ :=
        decodeEncryptedIn_bounded authDecrypt gcmTaken data scratch
      exact ⟨m, scratch', hm, hsame, fun _ => hfit⟩
    · rename_i hplain
      rw [bind_eq_of_eq (slice_eq (by omega))]
      refine ⟨_, scratch, rfl, rfl, fun hone => ?_⟩
      exact absurd (Option.some.inj (hmarker.symm.trans hone)) hplain

/-- What decryption gives without the scratch buffer. -/
def GcmAuthDecrypt.opened (authDecrypt : GcmAuthDecrypt) : AuthDecrypt :=
  fun iv tag ciphertext =>
    if (authDecrypt iv tag ciphertext).right then
      some ⟨_, (authDecrypt iv tag ciphertext).output_length⟩
    else none

theorem getLe16_append {xs : List UInt8} {i : ℕ} (h : i + 2 ≤ xs.length)
    (rest : List UInt8) : getLe16 (xs ++ rest) i = getLe16 xs i := by
  rw [getLe16, getLe16, List.getElem?_append_left (by omega),
    List.getElem?_append_left (by omega)]

theorem slice_append_left {xs : List UInt8} {i n : ℕ} (h : i + n ≤ xs.length)
    (rest : List UInt8) : slice (xs ++ rest) i n = slice xs i n := by
  rw [slice_eq h, slice_eq (by rw [List.length_append]; omega),
    List.drop_append_of_le_length (by omega),
    List.take_append_of_le_length (by rw [List.length_drop]; omega)]

theorem decodeEncryptedIn_fst (authDecrypt : GcmAuthDecrypt)
    (gcmTaken : Bool) (data : List UInt8) {scratch : List UInt8}
    (hscratch : scratch.length = scratchSize) :
    (decodeEncryptedIn authDecrypt gcmTaken data scratch).map Prod.fst =
      decodeEncrypted authDecrypt.opened gcmTaken data := by
  have hsize : scratchSize = 256 := rfl
  rw [decodeEncryptedIn, decodeEncrypted]
  by_cases hheader : data.length < 24
  · rw [if_pos (.inr hheader), if_pos hheader]
    rfl
  obtain ⟨encLen, hencLen⟩ := getLe16_isSome (d := data) (i := 2) (by omega)
  rw [if_neg (by omega), if_neg hheader, bind_eq_of_eq hencLen,
    bind_eq_of_eq hencLen]
  by_cases hwhole : encLen < 24 ∨ encLen.toNat + 4 > data.length
  · rw [if_pos hwhole, if_pos hwhole]
    rfl
  obtain ⟨seq, hseq⟩ := getLe32_isSome (d := data) (i := 4) (by omega)
  rw [if_neg hwhole, if_neg hwhole, bind_eq_of_eq hseq, bind_eq_of_eq hseq,
    bind_eq_of_eq (slice_eq (by omega)), bind_eq_of_eq (slice_eq (by omega))]
  dsimp only
  rw [hscratch]
  by_cases hroom : encLen.toNat - 20 = 0 ∨ encLen.toNat - 20 > scratchSize
  · rw [if_pos hroom, if_pos hroom]
    rfl
  rw [if_neg hroom, if_neg hroom]
  cases gcmTaken with
  | false => rfl
  | true =>
      rw [if_neg (by decide), if_neg (by decide),
        bind_eq_of_eq (slice_eq (by omega)), bind_eq_of_eq (slice_eq (by omega))]
      have hlength : ((data.drop 24).take (encLen.toNat - 20)).length =
          encLen.toNat - 20 := by
        rw [List.length_take, List.length_drop]
        omega
      have houtput := (authDecrypt (hostIv seq) ((data.drop 8).take 16)
        ((data.drop 24).take (encLen.toNat - 20))).output_length.trans hlength
      obtain ⟨scratch', hcopy, hscratch', -⟩ := @copy_to_start
        (authDecrypt (hostIv seq) ((data.drop 8).take 16)
          ((data.drop 24).take (encLen.toNat - 20))).output scratch
        (encLen.toNat - 20) (by omega) (by omega)
      rw [List.take_of_length_le (by omega)] at hscratch'
      rw [bind_eq_of_eq hcopy, GcmAuthDecrypt.opened]
      by_cases hright : (authDecrypt (hostIv seq) ((data.drop 8).take 16)
          ((data.drop 24).take (encLen.toNat - 20))).right = true
      · rw [if_pos hright]
        dsimp only
        by_cases hfew : encLen.toNat - 20 < 4
        · rw [if_pos (.inr hfew), if_pos hfew]
          rfl
        · rw [if_neg (by simp only [hright]; simpa using hfew), if_neg hfew,
            hscratch', getLe16_append (by omega), getLe16_append (by omega)]
          obtain ⟨msgType, hmsgType⟩ := getLe16_isSome (i := 0)
            (show 0 + 2 ≤ (authDecrypt (hostIv seq) ((data.drop 8).take 16)
              ((data.drop 24).take (encLen.toNat - 20))).output.length by omega)
          obtain ⟨payloadLen, hpayloadLen⟩ := getLe16_isSome (i := 2)
            (show 2 + 2 ≤ (authDecrypt (hostIv seq) ((data.drop 8).take 16)
              ((data.drop 24).take (encLen.toNat - 20))).output.length by omega)
          rw [bind_eq_of_eq hmsgType, bind_eq_of_eq hmsgType,
            bind_eq_of_eq hpayloadLen, bind_eq_of_eq hpayloadLen]
          by_cases hpayload : payloadLen.toNat > encLen.toNat - 20 - 4
          · rw [if_pos hpayload, if_pos hpayload]
            rfl
          · rw [if_neg hpayload, if_neg hpayload, slice_append_left (by omega)]
            rw [bind_eq_of_eq (slice_eq (by omega)),
              bind_eq_of_eq (slice_eq (by omega))]
            rfl
      · rw [if_neg hright, if_pos (.inl (by simpa using hright))]
        rfl

/-- With the buffer of the receive thread, this is `decodeControlMessage`. -/
theorem decodeControlMessageIn_fst (authDecrypt : GcmAuthDecrypt)
    (gcmTaken : Bool) (data : List UInt8) {scratch : List UInt8}
    (hscratch : scratch.length = scratchSize) :
    (decodeControlMessageIn authDecrypt gcmTaken data scratch).map Prod.fst =
      decodeControlMessage authDecrypt.opened gcmTaken data := by
  rw [decodeControlMessageIn, decodeControlMessage]
  by_cases hshort : data.length < 4
  · rw [if_pos hshort, if_pos hshort]
    rfl
  · obtain ⟨marker, hmarker⟩ := getLe16_isSome (d := data) (i := 0) (by omega)
    rw [if_neg hshort, if_neg hshort, bind_eq_of_eq hmarker,
      bind_eq_of_eq hmarker]
    by_cases hone : marker = 0x0001
    · rw [if_pos hone, if_pos hone]
      exact decodeEncryptedIn_fst authDecrypt gcmTaken data hscratch
    · rw [if_neg hone, if_neg hone, bind_eq_of_eq (slice_eq (by omega)),
        bind_eq_of_eq (slice_eq (by omega))]
      rfl

/-- What the host encrypts is read back, and no call leaves its buffers or takes
a message whose lengths do not fit. -/
theorem decodeControlMessageIn_correct :
    (∀ (gcm : Gcm) (authDecrypt : GcmAuthDecrypt), Inverts authDecrypt gcm →
      ∀ (seq : UInt32) (msgType : UInt16) (payload blob scratch : List UInt8),
        payload.length ≤ payloadMax →
        hostBlob gcm seq msgType payload = some blob →
        payload.length + 4 ≤ scratch.length →
          ∃ scratch', decodeControlMessageIn authDecrypt true blob scratch =
            some (some ⟨msgType, payload⟩, scratch')) ∧
    ∀ (authDecrypt : GcmAuthDecrypt) (gcmTaken : Bool)
      (data scratch : List UInt8),
      ∃ m scratch', decodeControlMessageIn authDecrypt gcmTaken data scratch =
          some (m, scratch') ∧ scratch'.length = scratch.length ∧
        (getLe16 data 0 = some 0x0001 → m.isSome → ∃ encLen payloadLen,
          LengthsFit data scratch' encLen payloadLen) :=
  ⟨fun _ _ hinverts _ _ _ _ _ hpayload hblob hroom =>
    decodeControlMessageIn_hostBlob hinverts hpayload hblob hroom,
    decodeControlMessageIn_bounded⟩

/-! ## AES-GCM on one message -/

/-- A termination with two bytes of payload. -/
def sampleMessage : ControlMessage := ⟨0x0100, [5, 7]⟩

/-- AES-128-GCM with a key of zeros, but only for `sampleMessage` under the number
zero. -/
def sampleGcm : Gcm := fun iv plaintext =>
  if h : iv = hostIv 0 ∧ plaintext = [0, 1, 2, 0, 5, 7] then
    some {
      tag := [75, 17, 20, 239, 180, 73, 88, 235, 236, 48, 66, 125, 57, 73, 126, 52]
      ciphertext := [110, 222, 28, 131, 22, 227]
      tag_length := rfl
      ciphertext_length := by
        rw [h.2]
        rfl }
  else none

/-- Its decryption. -/
def sampleDecrypt : GcmAuthDecrypt := fun iv tag ciphertext =>
  if h : iv = hostIv 0 ∧ tag = [75, 17, 20, 239, 180, 73, 88, 235, 236, 48, 66, 125,
      57, 73, 126, 52] ∧ ciphertext = [110, 222, 28, 131, 22, 227] then
    ⟨true, [0, 1, 2, 0, 5, 7], by rw [h.2.2]; rfl⟩
  else .wrong ciphertext.length

theorem sampleDecrypt_inverts : Inverts sampleDecrypt sampleGcm := by
  intro iv plaintext out hout
  rw [sampleGcm] at hout
  split at hout
  · rename_i h
    obtain ⟨rfl, rfl⟩ := h
    obtain rfl := Option.some.inj hout
    exact ⟨rfl, rfl⟩
  · exact nomatch hout

/-- The encrypted form of `sampleMessage`. -/
def sampleBlob : List UInt8 :=
  [1, 0, 26, 0, 0, 0, 0, 0, 75, 17, 20, 239, 180, 73, 88, 235, 236, 48, 66, 125, 57,
    73, 126, 52, 110, 222, 28, 131, 22, 227]

theorem decodeControlMessageIn_correct_sampleBlob :
    ∃ scratch', decodeControlMessageIn sampleDecrypt true sampleBlob
      (List.replicate 256 0) = some (some sampleMessage, scratch') :=
  decodeControlMessageIn_correct.1 sampleGcm sampleDecrypt sampleDecrypt_inverts 0
    0x0100 [5, 7] sampleBlob (List.replicate 256 0) (by decide) rfl
    (by rw [List.length_replicate]; decide)

end MoonlightPsp.Control

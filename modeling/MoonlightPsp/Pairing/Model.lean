import MoonlightPsp.Pairing.Cipher
import MoonlightPsp.Rtsp.Text

/-!
# The pairing thread

`pairing_thread_func` with the buffers that the answers of the server are taken apart in.
A computation that leaves a buffer, or reads a cell that was not written, has no result.
-/

namespace MoonlightPsp.Pairing

open Rtsp CheckedMemory

/-! ## Buffers -/

/-- The terminator. -/
def nul : Char := Char.ofNat 0

/-- A C string in a buffer. -/
def readString : List (Option Char) → Option Text
  | [] => none
  | none :: _ => none
  | some c :: cells => if c = nul then some [] else (readString cells).map (c :: ·)

/-- A number of bytes of a buffer. -/
def readBytes (m : List (Option UInt8)) (i n : ℕ) : Option (List UInt8) :=
  (slice m i n).bind fun cells => cells.mapM id

/-- `xml_get_value_safe`: the number of bytes copied and the buffer after it. -/
def xmlGetValueSafe (buf tag : Text) (out : List (Option Char)) (outSize : ℕ) :
    Option (ℤ × List (Option Char)) :=
  let opening := snprintf 64 ("<".toList ++ tag ++ ">".toList)
  let closing := snprintf 64 ("</".toList ++ tag ++ ">".toList)
  match after opening buf with
  | none => some (-1, out)
  | some s =>
      match strstr closing s with
      | none => some (-1, out)
      | some e =>
          let len := s.length - e.length
          if outSize ≤ len then some (-1, out)
          else do
            let out ← copy (s.map some) out 0 0 len
            let out ← store out len (some nul)
            return (len, out)

/-- The value of a character that is taken for a hexadecimal digit. -/
def hexDigit (c : Char) : UInt8 :=
  let value := UInt8.ofNat c.toNat
  if '0' ≤ c ∧ c ≤ '9' then value - 48
  else if 'a' ≤ c ∧ c ≤ 'f' then value - 97 + 10
  else value - 65 + 10

/-- The byte of two digits. -/
def hexByte (hi lo : Char) : UInt8 := (hexDigit hi <<< 4) ||| hexDigit lo

/-- The loop of `hex_to_bytes_lite`. -/
def hexLoop (input : List (Option Char)) (hexLen i : ℕ) (out : List (Option UInt8)) :
    Option (List (Option UInt8)) :=
  if i < hexLen then do
    let hi ← (input[i]?).join
    let lo ← (input[i + 1]?).join
    let out ← store out (i / 2) (some (hexByte hi lo))
    hexLoop input hexLen (i + 2) out
  else some out
termination_by hexLen - i

/-- `hex_to_bytes_lite`. -/
def hexToBytesLite (input : List (Option Char)) (out : List (Option UInt8)) (hexLen : ℕ) :
    Option (List (Option UInt8)) :=
  hexLoop input hexLen 0 out

/-- The loop of `aes128_ecb_decrypt`. -/
def ecbLoop (rk : List UInt8) (ciphertext : List (Option UInt8)) (len i : ℕ)
    (plaintext : List (Option UInt8)) : Option (List (Option UInt8)) :=
  if i < len then do
    let block ← readBytes ciphertext i 16
    let plaintext ← copy ((aesDecryptBlock rk block).map some) plaintext 0 i 16
    ecbLoop rk ciphertext len (i + 16) plaintext
  else some plaintext
termination_by len - i

/-- `aes128_ecb_decrypt`. -/
def aes128EcbDecrypt (ciphertext : List (Option UInt8)) (len : ℕ) (key : List UInt8)
    (plaintext : List (Option UInt8)) : Option (List (Option UInt8)) :=
  ecbLoop (aesKeyExpansion key) ciphertext len 0 plaintext

/-- The loop of `aes128_ecb_encrypt`. -/
def ecbEncryptLoop (rk : List UInt8) (plaintext : List (Option UInt8)) (len i : ℕ)
    (ciphertext : List (Option UInt8)) : Option (List (Option UInt8)) :=
  if i < len then do
    let block ← readBytes plaintext i 16
    let ciphertext ← copy ((aesEncryptBlock rk block).map some) ciphertext 0 i 16
    ecbEncryptLoop rk plaintext len (i + 16) ciphertext
  else some ciphertext
termination_by len - i

/-- `aes128_ecb_encrypt`. -/
def aes128EcbEncrypt (plaintext : List (Option UInt8)) (len : ℕ) (key : List UInt8)
    (ciphertext : List (Option UInt8)) : Option (List (Option UInt8)) :=
  ecbEncryptLoop (aesKeyExpansion key) plaintext len 0 ciphertext

/-! ## The thread -/

/-- What a server answers: a C string that fits into the response buffer. -/
structure Response where
  text : Text
  terminated : nul ∉ text
  fits : text.length ≤ 4095

/-- What the thread meets on its way. -/
structure PairEnv where
  /-- Whether there are a UUID and a certificate of the client. -/
  identity : Bool
  /-- The first 16 bytes of the hash of the salt and the PIN. -/
  aesKey : List UInt8
  /-- Whether `fill_random_bytes` succeeds for the salt, the challenge and the secret. -/
  random : ℕ → Bool
  /-- `ta->cancel`, read before each of the steps 1 to 5. -/
  cancel : ℕ → Bool
  /-- What `http_pair_get` gets for the two requests of step 1 and those of the steps
  2 to 4, and what `https_launch_get` gets. -/
  http : ℕ → Option Response
  /-- `get_active_client_cert_sig`. -/
  certSig : Bool
  /-- `do_rsa_sign`. -/
  rsaSign : Bool

/-- The buffers of the thread, and the bytes of `cr_dec` that it uses. -/
structure Buffers where
  pairedVal : List (Option Char)
  crHex : List (Option Char)
  crEnc : List (Option UInt8)
  crDec : List (Option UInt8)
  serverChallenge : Option (List UInt8)

/-- The buffers at the start: only `paired_val` has an initializer. -/
def Buffers.start : Buffers where
  pairedVal := List.replicate 8 (some nul)
  crHex := List.replicate 256 none
  crEnc := List.replicate 64 none
  crDec := List.replicate 64 none
  serverChallenge := none

/-- How the thread ends: with the value it gives `ta->result`, if any, and the
buffers. -/
abbrev Outcome := Option ℤ × Buffers

/-- Whether an answer says that the client is paired, as every step checks it. -/
def paired (resp : Response) (b : Buffers) : Option (Bool × Buffers) := do
  let (ret, pairedVal) ← xmlGetValueSafe resp.text "paired".toList b.pairedVal 8
  let b := { b with pairedVal := pairedVal }
  if ret < 0 then return (false, b)
  else
    let value ← readString pairedVal
    return (value == "1".toList, b)

/-- The authenticated request at the end, whose answer does not count. -/
def pairChallenge (env : PairEnv) (b : Buffers) : Option Outcome :=
  if env.cancel 5 then some (some 0, b)
  else
    match env.http 5 with
    | none => some (some 0, b)
    | some resp => do
        let (_, pairedVal) ← xmlGetValueSafe resp.text "paired".toList b.pairedVal 8
        return (some 0, { b with pairedVal := pairedVal })

/-- Step 4. -/
def clientPairingSecret (env : PairEnv) (b : Buffers) : Option Outcome :=
  if env.cancel 4 then some (none, b)
  else if !env.rsaSign then some (some (-8), b)
  else
    match env.http 4 with
    | none => some (some (-9), b)
    | some resp => do
        let (ok, b) ← paired resp b
        if ok then pairChallenge env b else some (some (-10), b)

/-- The request of step 3 and its answer. -/
def serverChallengeResp (env : PairEnv) (b : Buffers) : Option Outcome :=
  match env.http 3 with
  | none => some (some (-6), b)
  | some resp => do
      let (ok, b) ← paired resp b
      if ok then clientPairingSecret env b else some (some (-7), b)

/-- Step 3: the challenge of the server is decrypted. -/
def decryptChallenge (env : PairEnv) (b : Buffers) : Option Outcome :=
  if env.cancel 3 then some (none, b)
  else if !env.random 2 then some (some (-5), b)
  else do
    let text ← readString b.crHex
    let binLen := text.length / 2
    if binLen < 48 ∨ 64 < binLen ∨ binLen % 16 ≠ 0 then some (some (-5), b)
    else
      let crEnc ← hexToBytesLite b.crHex b.crEnc text.length
      let crDec ← aes128EcbDecrypt crEnc binLen env.aesKey b.crDec
      let b := { b with
        crEnc := crEnc
        crDec := crDec }
      if !env.certSig then some (some (-5), b)
      else
        let used ← readBytes crDec 32 16
        serverChallengeResp env { b with serverChallenge := some used }

/-- Step 2. -/
def clientChallenge (env : PairEnv) (b : Buffers) : Option Outcome :=
  if env.cancel 2 then some (none, b)
  else if !env.random 1 then some (some (-3), b)
  else
    match env.http 2 with
    | none => some (some (-3), b)
    | some resp => do
        let (ret, crHex) ← xmlGetValueSafe resp.text "challengeresponse".toList b.crHex 256
        let b := { b with crHex := crHex }
        if ret < 0 then some (some (-4), b)
        else
          let (ok, b) ← paired resp b
          if ok then decryptChallenge env b else some (some (-4), b)

/-- `pairing_thread_func`; step 1 is tried twice. -/
def pairingThreadFunc (env : PairEnv) : Option Outcome :=
  let b := Buffers.start
  if !env.identity then some (some (-1), b)
  else if !env.random 0 then some (some (-1), b)
  else if env.cancel 1 then some (none, b)
  else
    match (env.http 0).or (env.http 1) with
    | none => some (some (-1), b)
    | some resp => do
        let (ok, b) ← paired resp b
        if ok then clientChallenge env b else some (some (-2), b)

end MoonlightPsp.Pairing

import Mathlib.Data.Nat.Notation
import Mathlib.Tactic.Common
import MoonlightPsp.Rtsp.Text

/-!
# Identifiers from a digest

SHA-256 in its own small implementation, and the texts that are made from it: the unique
id of the client and the UUID that belongs to an id.
-/

namespace MoonlightPsp.Identity

open Rtsp

/-! ## The digest -/

/-- `sha256_k`. -/
def sha256K : List UInt32 := [
  0x428a2f98, 0x71374491, 0xb5c0fbcf, 0xe9b5dba5, 0x3956c25b, 0x59f111f1, 0x923f82a4, 0xab1c5ed5,
  0xd807aa98, 0x12835b01, 0x243185be, 0x550c7dc3, 0x72be5d74, 0x80deb1fe, 0x9bdc06a7, 0xc19bf174,
  0xe49b69c1, 0xefbe4786, 0x0fc19dc6, 0x240ca1cc, 0x2de92c6f, 0x4a7484aa, 0x5cb0a9dc, 0x76f988da,
  0x983e5152, 0xa831c66d, 0xb00327c8, 0xbf597fc7, 0xc6e00bf3, 0xd5a79147, 0x06ca6351, 0x14292967,
  0x27b70a85, 0x2e1b2138, 0x4d2c6dfc, 0x53380d13, 0x650a7354, 0x766a0abb, 0x81c2c92e, 0x92722c85,
  0xa2bfe8a1, 0xa81a664b, 0xc24b8b70, 0xc76c51a3, 0xd192e819, 0xd6990624, 0xf40e3585, 0x106aa070,
  0x19a4c116, 0x1e376c08, 0x2748774c, 0x34b0bcb5, 0x391c0cb3, 0x4ed8aa4a, 0x5b9cca4f, 0x682e6ff3,
  0x748f82ee, 0x78a5636f, 0x84c87814, 0x8cc70208, 0x90befffa, 0xa4506ceb, 0xbef9a3f7, 0xc67178f2]

/-- `SHA_ROR`. -/
def shaRor (x n : UInt32) : UInt32 := (x >>> n) ||| (x <<< (32 - n))

/-- `SHA_CH`. -/
def shaCh (x y z : UInt32) : UInt32 := (x &&& y) ^^^ (~~~x &&& z)

/-- `SHA_MAJ`. -/
def shaMaj (x y z : UInt32) : UInt32 := (x &&& y) ^^^ (x &&& z) ^^^ (y &&& z)

/-- `SHA_EP0`. -/
def shaEp0 (x : UInt32) : UInt32 := shaRor x 2 ^^^ shaRor x 13 ^^^ shaRor x 22

/-- `SHA_EP1`. -/
def shaEp1 (x : UInt32) : UInt32 := shaRor x 6 ^^^ shaRor x 11 ^^^ shaRor x 25

/-- `SHA_SIG0`. -/
def shaSig0 (x : UInt32) : UInt32 := shaRor x 7 ^^^ shaRor x 18 ^^^ (x >>> 3)

/-- `SHA_SIG1`. -/
def shaSig1 (x : UInt32) : UInt32 := shaRor x 17 ^^^ shaRor x 19 ^^^ (x >>> 10)

/-- The word of four bytes, the most significant one first. -/
def bigEndian (bytes : List UInt8) (i : ℕ) : UInt32 :=
  ((bytes.getD i 0).toUInt32 <<< 24) ||| ((bytes.getD (i + 1) 0).toUInt32 <<< 16) |||
    ((bytes.getD (i + 2) 0).toUInt32 <<< 8) ||| (bytes.getD (i + 3) 0).toUInt32

/-- The message schedule of a block. -/
def messageSchedule (block : List UInt8) : List UInt32 :=
  (List.range' 16 48).foldl
    (fun w i => w ++ [shaSig1 (w.getD (i - 2) 0) + w.getD (i - 7) 0 +
      shaSig0 (w.getD (i - 15) 0) + w.getD (i - 16) 0])
    ((List.range 16).map fun i => bigEndian block (i * 4))

/-- The registers of `sha256_transform`. -/
structure Registers where
  a : UInt32
  b : UInt32
  c : UInt32
  d : UInt32
  e : UInt32
  f : UInt32
  g : UInt32
  h : UInt32

/-- One round. -/
def shaRound (w : List UInt32) (r : Registers) (i : ℕ) : Registers :=
  let t1 := r.h + shaEp1 r.e + shaCh r.e r.f r.g + sha256K.getD i 0 + w.getD i 0
  let t2 := shaEp0 r.a + shaMaj r.a r.b r.c
  ⟨t1 + t2, r.a, r.b, r.c, r.d + t1, r.e, r.f, r.g⟩

/-- `sha256_transform`. -/
def sha256Transform (s : Registers) (block : List UInt8) : Registers :=
  let r := (List.range 64).foldl (shaRound (messageSchedule block)) s
  ⟨s.a + r.a, s.b + r.b, s.c + r.c, s.d + r.d, s.e + r.e, s.f + r.f, s.g + r.g, s.h + r.h⟩

/-- The full blocks of a message, and what is left of it. -/
def sha256Blocks (s : Registers) (data : List UInt8) : Registers × List UInt8 :=
  if 64 ≤ data.length then sha256Blocks (sha256Transform s (data.take 64)) (data.drop 64)
  else (s, data)
termination_by data.length
decreasing_by
  rw [List.length_drop]
  omega

/-- The bytes of a word, the most significant one first. -/
def wordBytes (x : UInt32) : List UInt8 :=
  [(x >>> 24).toUInt8, (x >>> 16).toUInt8, (x >>> 8).toUInt8, x.toUInt8]

/-- `sha256_hash`. -/
def sha256Hash (data : List UInt8) : List UInt8 :=
  let start : Registers :=
    ⟨0x6a09e667, 0xbb67ae85, 0x3c6ef372, 0xa54ff53a, 0x510e527f, 0x9b05688c, 0x1f83d9ab,
      0x5be0cd19⟩
  let bitlen := UInt64.ofNat data.length * 8
  let (s, rest) := sha256Blocks start data
  let block := rest ++ 0x80 :: List.replicate (63 - rest.length) 0
  let (s, block) :=
    if 56 ≤ rest.length then (sha256Transform s block, List.replicate 64 0) else (s, block)
  let length := ([56, 48, 40, 32, 24, 16, 8, 0] : List UInt64).map fun shift =>
    (bitlen >>> shift).toUInt8
  let s := sha256Transform s (block.take 56 ++ length)
  [s.a, s.b, s.c, s.d, s.e, s.f, s.g, s.h].flatMap wordBytes

/-! ## Texts -/

def hexUpper : Text := "0123456789ABCDEF".toList

def hexLower : Text := "0123456789abcdef".toList

/-- The two digits of a byte. -/
def byteDigits (digits : Text) (b : UInt8) : Text :=
  [digits.getD ((b >>> 4) &&& 0x0F).toNat '0', digits.getD (b &&& 0x0F).toNat '0']

/-- `bytes_to_hex_lite`, of a text. -/
def bytesToHexLite (text : Text) : Text :=
  text.flatMap fun c => byteDigits hexLower (UInt8.ofNat c.toNat)

/-- `generate_uid`, from the device address and the clocks. -/
def generateUid (seed : List UInt8) : Text :=
  ((sha256Hash seed).take 8).flatMap (byteDigits hexUpper)

/-- `generate_uuid`. -/
def generateUuid (uid : Text) : Text :=
  let uuid := (sha256Hash (uid.map fun c => UInt8.ofNat c.toNat)).take 16
  let uuid := uuid.set 6 ((uuid.getD 6 0 &&& 0x0F) ||| 0x50)
  let uuid := uuid.set 8 ((uuid.getD 8 0 &&& 0x3F) ||| 0x80)
  let group := fun start count =>
    ((uuid.drop start).take count).flatMap (byteDigits hexUpper)
  snprintf 37 (group 0 4 ++ '-' :: group 4 2 ++ '-' :: group 6 2 ++ '-' :: group 8 2 ++
    '-' :: group 10 6)

end MoonlightPsp.Identity

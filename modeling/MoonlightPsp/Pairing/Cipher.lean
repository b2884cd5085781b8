import Mathlib.Data.Nat.Notation
import Mathlib.Tactic.Common
import MoonlightPsp.Lib.CheckedMemory

/-!
# The block cipher

AES-128 as the pairing encrypts and decrypts with it, in its own small implementation:
the key schedule, one block, and the blocks of a buffer one after the other.  A buffer is
checked memory, and a cell that was not written yet cannot be read.
-/

namespace MoonlightPsp.Pairing

open CheckedMemory

/-! ## One block -/

/-- `aes_sbox`. -/
def aesSbox : List UInt8 := [
  0x63, 0x7c, 0x77, 0x7b, 0xf2, 0x6b, 0x6f, 0xc5, 0x30, 0x01, 0x67, 0x2b, 0xfe, 0xd7, 0xab, 0x76,
  0xca, 0x82, 0xc9, 0x7d, 0xfa, 0x59, 0x47, 0xf0, 0xad, 0xd4, 0xa2, 0xaf, 0x9c, 0xa4, 0x72, 0xc0,
  0xb7, 0xfd, 0x93, 0x26, 0x36, 0x3f, 0xf7, 0xcc, 0x34, 0xa5, 0xe5, 0xf1, 0x71, 0xd8, 0x31, 0x15,
  0x04, 0xc7, 0x23, 0xc3, 0x18, 0x96, 0x05, 0x9a, 0x07, 0x12, 0x80, 0xe2, 0xeb, 0x27, 0xb2, 0x75,
  0x09, 0x83, 0x2c, 0x1a, 0x1b, 0x6e, 0x5a, 0xa0, 0x52, 0x3b, 0xd6, 0xb3, 0x29, 0xe3, 0x2f, 0x84,
  0x53, 0xd1, 0x00, 0xed, 0x20, 0xfc, 0xb1, 0x5b, 0x6a, 0xcb, 0xbe, 0x39, 0x4a, 0x4c, 0x58, 0xcf,
  0xd0, 0xef, 0xaa, 0xfb, 0x43, 0x4d, 0x33, 0x85, 0x45, 0xf9, 0x02, 0x7f, 0x50, 0x3c, 0x9f, 0xa8,
  0x51, 0xa3, 0x40, 0x8f, 0x92, 0x9d, 0x38, 0xf5, 0xbc, 0xb6, 0xda, 0x21, 0x10, 0xff, 0xf3, 0xd2,
  0xcd, 0x0c, 0x13, 0xec, 0x5f, 0x97, 0x44, 0x17, 0xc4, 0xa7, 0x7e, 0x3d, 0x64, 0x5d, 0x19, 0x73,
  0x60, 0x81, 0x4f, 0xdc, 0x22, 0x2a, 0x90, 0x88, 0x46, 0xee, 0xb8, 0x14, 0xde, 0x5e, 0x0b, 0xdb,
  0xe0, 0x32, 0x3a, 0x0a, 0x49, 0x06, 0x24, 0x5c, 0xc2, 0xd3, 0xac, 0x62, 0x91, 0x95, 0xe4, 0x79,
  0xe7, 0xc8, 0x37, 0x6d, 0x8d, 0xd5, 0x4e, 0xa9, 0x6c, 0x56, 0xf4, 0xea, 0x65, 0x7a, 0xae, 0x08,
  0xba, 0x78, 0x25, 0x2e, 0x1c, 0xa6, 0xb4, 0xc6, 0xe8, 0xdd, 0x74, 0x1f, 0x4b, 0xbd, 0x8b, 0x8a,
  0x70, 0x3e, 0xb5, 0x66, 0x48, 0x03, 0xf6, 0x0e, 0x61, 0x35, 0x57, 0xb9, 0x86, 0xc1, 0x1d, 0x9e,
  0xe1, 0xf8, 0x98, 0x11, 0x69, 0xd9, 0x8e, 0x94, 0x9b, 0x1e, 0x87, 0xe9, 0xce, 0x55, 0x28, 0xdf,
  0x8c, 0xa1, 0x89, 0x0d, 0xbf, 0xe6, 0x42, 0x68, 0x41, 0x99, 0x2d, 0x0f, 0xb0, 0x54, 0xbb, 0x16]

/-- `aes_inv_sbox`. -/
def aesInvSbox : List UInt8 := [
  0x52, 0x09, 0x6a, 0xd5, 0x30, 0x36, 0xa5, 0x38, 0xbf, 0x40, 0xa3, 0x9e, 0x81, 0xf3, 0xd7, 0xfb,
  0x7c, 0xe3, 0x39, 0x82, 0x9b, 0x2f, 0xff, 0x87, 0x34, 0x8e, 0x43, 0x44, 0xc4, 0xde, 0xe9, 0xcb,
  0x54, 0x7b, 0x94, 0x32, 0xa6, 0xc2, 0x23, 0x3d, 0xee, 0x4c, 0x95, 0x0b, 0x42, 0xfa, 0xc3, 0x4e,
  0x08, 0x2e, 0xa1, 0x66, 0x28, 0xd9, 0x24, 0xb2, 0x76, 0x5b, 0xa2, 0x49, 0x6d, 0x8b, 0xd1, 0x25,
  0x72, 0xf8, 0xf6, 0x64, 0x86, 0x68, 0x98, 0x16, 0xd4, 0xa4, 0x5c, 0xcc, 0x5d, 0x65, 0xb6, 0x92,
  0x6c, 0x70, 0x48, 0x50, 0xfd, 0xed, 0xb9, 0xda, 0x5e, 0x15, 0x46, 0x57, 0xa7, 0x8d, 0x9d, 0x84,
  0x90, 0xd8, 0xab, 0x00, 0x8c, 0xbc, 0xd3, 0x0a, 0xf7, 0xe4, 0x58, 0x05, 0xb8, 0xb3, 0x45, 0x06,
  0xd0, 0x2c, 0x1e, 0x8f, 0xca, 0x3f, 0x0f, 0x02, 0xc1, 0xaf, 0xbd, 0x03, 0x01, 0x13, 0x8a, 0x6b,
  0x3a, 0x91, 0x11, 0x41, 0x4f, 0x67, 0xdc, 0xea, 0x97, 0xf2, 0xcf, 0xce, 0xf0, 0xb4, 0xe6, 0x73,
  0x96, 0xac, 0x74, 0x22, 0xe7, 0xad, 0x35, 0x85, 0xe2, 0xf9, 0x37, 0xe8, 0x1c, 0x75, 0xdf, 0x6e,
  0x47, 0xf1, 0x1a, 0x71, 0x1d, 0x29, 0xc5, 0x89, 0x6f, 0xb7, 0x62, 0x0e, 0xaa, 0x18, 0xbe, 0x1b,
  0xfc, 0x56, 0x3e, 0x4b, 0xc6, 0xd2, 0x79, 0x20, 0x9a, 0xdb, 0xc0, 0xfe, 0x78, 0xcd, 0x5a, 0xf4,
  0x1f, 0xdd, 0xa8, 0x33, 0x88, 0x07, 0xc7, 0x31, 0xb1, 0x12, 0x10, 0x59, 0x27, 0x80, 0xec, 0x5f,
  0x60, 0x51, 0x7f, 0xa9, 0x19, 0xb5, 0x4a, 0x0d, 0x2d, 0xe5, 0x7a, 0x9f, 0x93, 0xc9, 0x9c, 0xef,
  0xa0, 0xe0, 0x3b, 0x4d, 0xae, 0x2a, 0xf5, 0xb0, 0xc8, 0xeb, 0xbb, 0x3c, 0x83, 0x53, 0x99, 0x61,
  0x17, 0x2b, 0x04, 0x7e, 0xba, 0x77, 0xd6, 0x26, 0xe1, 0x69, 0x14, 0x63, 0x55, 0x21, 0x0c, 0x7d]

/-- `aes_rcon`. -/
def aesRcon : List UInt8 :=
  [0x00, 0x01, 0x02, 0x04, 0x08, 0x10, 0x20, 0x40, 0x80, 0x1b, 0x36]

/-- The byte at an index of a table, a block or the key schedule. -/
def at8 (bytes : List UInt8) (i : ℕ) : UInt8 := bytes.getD i 0

def subByte (x : UInt8) : UInt8 := at8 aesSbox x.toNat

def invSubByte (x : UInt8) : UInt8 := at8 aesInvSbox x.toNat

/-- One round of the loop of `aes_key_expansion`: the four bytes of word `i`. -/
def expandWord (rk : List UInt8) (i : ℕ) : List UInt8 :=
  let tmp := (List.range 4).map fun j => at8 rk ((i - 1) * 4 + j)
  let tmp :=
    if i % 4 = 0 then
      [subByte (at8 tmp 1) ^^^ at8 aesRcon (i / 4), subByte (at8 tmp 2),
        subByte (at8 tmp 3), subByte (at8 tmp 0)]
    else tmp
  rk ++ (List.range 4).map fun j => at8 rk ((i - 4) * 4 + j) ^^^ at8 tmp j

/-- `aes_key_expansion`. -/
def aesKeyExpansion (key : List UInt8) : List UInt8 :=
  (List.range' 4 40).foldl expandWord key

/-- `xtime`. -/
def xtime (x : UInt8) : UInt8 := (x <<< 1) ^^^ (((x >>> 7) &&& 1) * 0x1b)

def addRoundKey (rk : List UInt8) (r : ℕ) (s : List UInt8) : List UInt8 :=
  (List.range 16).map fun i => at8 s i ^^^ at8 rk (r * 16 + i)

/-! ### Encryption -/

def shiftRows (s : List UInt8) : List UInt8 :=
  [0, 5, 10, 15, 4, 9, 14, 3, 8, 13, 2, 7, 12, 1, 6, 11].map (at8 s)

/-- One column of the mix. -/
def mixColumn (s : List UInt8) (i : ℕ) : List UInt8 :=
  let a0 := at8 s i
  let a1 := at8 s (i + 1)
  let a2 := at8 s (i + 2)
  let a3 := at8 s (i + 3)
  let h := a0 ^^^ a1 ^^^ a2 ^^^ a3
  [a0 ^^^ xtime (a0 ^^^ a1) ^^^ h, a1 ^^^ xtime (a1 ^^^ a2) ^^^ h,
    a2 ^^^ xtime (a2 ^^^ a3) ^^^ h, a3 ^^^ xtime (a3 ^^^ a0) ^^^ h]

/-- One round of `aes_encrypt_block`. -/
def encryptRound (rk s : List UInt8) (r : ℕ) : List UInt8 :=
  let s := shiftRows (s.map subByte)
  let s := if r < 10 then [0, 4, 8, 12].flatMap (mixColumn s) else s
  addRoundKey rk r s

/-- `aes_encrypt_block`, with `memcpy (out, s, 16)` at the end. -/
def aesEncryptBlock (rk block : List UInt8) : List UInt8 :=
  let s := (List.range' 1 10).foldl (encryptRound rk) (addRoundKey rk 0 block)
  (List.range 16).map (at8 s)

/-! ### Decryption -/

def invShiftRows (s : List UInt8) : List UInt8 :=
  [0, 13, 10, 7, 4, 1, 14, 11, 8, 5, 2, 15, 12, 9, 6, 3].map (at8 s)

/-- One column of the inverse mix: a correction, then the forward mix. -/
def invMixColumn (s : List UInt8) (i : ℕ) : List UInt8 :=
  let u := xtime (xtime (at8 s i ^^^ at8 s (i + 2)))
  let v := xtime (xtime (at8 s (i + 1) ^^^ at8 s (i + 3)))
  let b0 := at8 s i ^^^ u
  let b1 := at8 s (i + 1) ^^^ v
  let b2 := at8 s (i + 2) ^^^ u
  let b3 := at8 s (i + 3) ^^^ v
  let h := b0 ^^^ b1 ^^^ b2 ^^^ b3
  [b0 ^^^ xtime (b0 ^^^ b1) ^^^ h, b1 ^^^ xtime (b1 ^^^ b2) ^^^ h,
    b2 ^^^ xtime (b2 ^^^ b3) ^^^ h, b3 ^^^ xtime (b3 ^^^ b0) ^^^ h]

/-- One round of `aes_decrypt_block`. -/
def decryptRound (rk s : List UInt8) (r : ℕ) : List UInt8 :=
  let s := addRoundKey rk r ((invShiftRows s).map invSubByte)
  if 0 < r then [0, 4, 8, 12].flatMap (invMixColumn s) else s

/-- `aes_decrypt_block`, with `memcpy (out, s, 16)` at the end. -/
def aesDecryptBlock (rk block : List UInt8) : List UInt8 :=
  let s := [9, 8, 7, 6, 5, 4, 3, 2, 1, 0].foldl (decryptRound rk) (addRoundKey rk 10 block)
  (List.range 16).map (at8 s)

/-- The blocks of a text, decrypted one by one. -/
def decryptBlocks (rk : List UInt8) : ℕ → List UInt8 → List UInt8
  | 0, _ => []
  | n + 1, bytes => aesDecryptBlock rk (bytes.take 16) ++ decryptBlocks rk n (bytes.drop 16)

end MoonlightPsp.Pairing

import MoonlightPsp.Lib.CheckedMemory
import Mathlib.Data.Int.Notation
import Mathlib.Tactic.Common

/-!
# From Annex B to AVCC

`avc_packetizer.c`: one access unit in Annex B form is split at its start codes;
the slices are written behind their lengths, and the parameter sets are pointed
at.  Reads and writes outside the buffers give `none`.
-/

namespace MoonlightPsp.Avc

open CheckedMemory

/-! ## The model -/

/-- Where a parameter set lies: in the input, or in a cache of the caller. -/
inductive Pointer where
  | null
  | input (offset : ℕ)
  | spsCache
  | ppsCache
  deriving DecidableEq

/-- `AvcPacketizedAu`. -/
structure PacketizedAu where
  sps : Pointer
  pps : Pointer
  spsSize : ℕ
  ppsSize : ℕ
  avccSize : ℕ
  hasIdr : Bool
  hasPredictive : Bool
  deriving DecidableEq

/-- All bytes zero. -/
def PacketizedAu.zero : PacketizedAu := ⟨.null, .null, 0, 0, 0, false, false⟩

/-- `start_code`: the length of the start code at a position. -/
def startCode (src : List UInt8) (pos : ℕ) : Option ℕ :=
  if pos ≥ src.length ∨ src.length - pos < 3 then some 0
  else do
    let b₀ ← src[pos]?
    if b₀ ≠ 0 then some 0
    else do
      let b₁ ← src[pos + 1]?
      if b₁ ≠ 0 then some 0
      else do
        let b₂ ← src[pos + 2]?
        if b₂ = 1 then some 3
        else if src.length - pos ≥ 4 ∧ b₂ = 0 then do
          let b₃ ← src[pos + 3]?
          if b₃ = 1 then some 4 else some 0
        else some 0

/-- What the loops have produced: the output buffer, how much of it is used, and
the access unit so far. -/
structure Progress where
  dst : List UInt8
  used : ℕ
  result : PacketizedAu
  seen : Bool

/-- The first loop: zero bytes up to a start code.  The position where it ends,
or the code that the function returns. -/
def skipLeading (src : List UInt8) : ℕ → ℕ → Option (ℕ ⊕ ℤ)
  | 0, _ => none
  | fuel + 1, p =>
      if p < src.length then do
        let k ← startCode src p
        if k ≠ 0 then some (.inl p)
        else do
          let b ← src[p]?
          if b ≠ 0 then some (.inr (-2)) else skipLeading src fuel (p + 1)
      else some (.inl p)

/-- The loop that looks for the next start code. -/
def findEnd (src : List UInt8) : ℕ → ℕ → Option ℕ
  | 0, _ => none
  | fuel + 1, e =>
      if e < src.length then do
        let k ← startCode src e
        if k ≠ 0 then some e else findEnd src fuel (e + 1)
      else some e

/-- The loop that takes off trailing zero bytes. -/
def trimZeros (src : List UInt8) (start : ℕ) : ℕ → Option ℕ
  | 0 => some 0
  | e + 1 =>
      if e + 1 > start then do
        let b ← src[e]?
        if b = 0 then trimZeros src start e else some (e + 1)
      else some (e + 1)

/-- The bytes of a length, the most significant first. -/
def be32 (len : ℕ) : List UInt8 :=
  [UInt8.ofNat (len >>> 24), UInt8.ofNat (len >>> 16), UInt8.ofNat (len >>> 8),
    UInt8.ofNat len]

/-- Write a slice behind its length. -/
def writeSlice (src : List UInt8) (s : Progress) (start len : ℕ) :
    Option Progress := do
  let dst ← store s.dst s.used (UInt8.ofNat (len >>> 24))
  let dst ← store dst (s.used + 1) (UInt8.ofNat (len >>> 16))
  let dst ← store dst (s.used + 2) (UInt8.ofNat (len >>> 8))
  let dst ← store dst (s.used + 3) (UInt8.ofNat len)
  let dst ← copy src dst start (s.used + 4) len
  return { s with dst, used := s.used + 4 + len }

/-- Point at a sequence parameter set. -/
def noteSps (s : Progress) (start len : ℕ) : Progress :=
  { s with
    result := { s.result with sps := .input start, spsSize := len }
    seen := true }

/-- Point at a picture parameter set. -/
def notePps (s : Progress) (start len : ℕ) : Progress :=
  { s with
    result := { s.result with pps := .input start, ppsSize := len }
    seen := true }

/-- Note the type of a slice that is written. -/
def noteSlice (s : Progress) (type : UInt8) : Progress :=
  { s with
    result := { s.result with
      hasIdr := s.result.hasIdr || type = 5
      hasPredictive := s.result.hasPredictive || type = 1 }
    seen := true }

/-- What a unit of a type adds, with the code that the function returns then,
zero if it goes on. -/
def addTyped (src : List UInt8) (cap : ℕ) (s : Progress) (start len : ℕ)
    (type : UInt8) : Option (ℤ × Progress) :=
  if type = 7 then some (0, noteSps s start len)
  else if type = 8 then some (0, notePps s start len)
  else if type = 1 ∨ type = 5 then
    if len > 0xffffffff ∨ s.used > cap ∨ cap - s.used < 4 ∨
        len > cap - s.used - 4 then
      some (-4, s)
    else do
      let s ← writeSlice src s start len
      some (0, noteSlice s type)
  else if type ≠ 6 ∧ type ≠ 9 ∧ type ≠ 10 ∧ type ≠ 11 ∧ type ≠ 12 then
    some (-5, s)
  else some (0, { s with seen := true })

/-- What a unit adds. -/
def addUnit (src : List UInt8) (cap : ℕ) (s : Progress) (start len : ℕ) :
    Option (ℤ × Progress) :=
  if len = 0 then some (-3, s)
  else do
    let head ← src[start]?
    if head &&& 0x80 ≠ 0 then some (-3, s)
    else addTyped src cap s start len (head &&& 31)

/-- The loop over the units. -/
def splitUnits (src : List UInt8) (cap : ℕ) :
    ℕ → ℕ → Progress → Option (ℤ × Progress)
  | 0, _, _ => none
  | fuel + 1, p, s =>
      if p < src.length then do
        let k ← startCode src p
        if k = 0 then some (-2, s)
        else do
          let next ← findEnd src (src.length + 1) (p + k)
          let last ← trimZeros src (p + k) next
          let (code, s) ← addUnit src cap s (p + k) (last - (p + k))
          if code ≠ 0 then some (code, s) else splitUnits src cap fuel next s
      else some (0, s)

/-- What the function returns, and what it leaves in the output buffer and in
`*au`. -/
structure Packetized where
  code : ℤ
  dst : List UInt8
  au : PacketizedAu
  deriving DecidableEq

/-- What is returned after the loop over the units. -/
def finish (code : ℤ) (s : Progress) : Packetized :=
  if code ≠ 0 then ⟨code, s.dst, .zero⟩
  else if !s.seen ∨ (s.result.hasIdr ∧ s.result.hasPredictive) then
    ⟨-6, s.dst, .zero⟩
  else ⟨0, s.dst, { s.result with avccSize := s.used }⟩

/-- `avc_packetize` with no null pointer among its arguments. -/
def packetizeUnits (src dst : List UInt8) (au : PacketizedAu) :
    Option Packetized :=
  if src.length = 0 then some ⟨-1, dst, au⟩
  else do
    match ← skipLeading src (src.length + 1) 0 with
    | .inr code => some ⟨code, dst, .zero⟩
    | .inl p =>
        let (code, s) ← splitUnits src dst.length (src.length + 1) p
          ⟨dst, 0, .zero, false⟩
        some (finish code s)

/-- The arguments of `avc_packetize`; a null pointer is `none`. -/
structure PacketizeArgs where
  src : Option (List UInt8)
  dst : Option (List UInt8)
  au : Option PacketizedAu

/-- `avc_packetize`: the code it returns, and what the pointers that are not
null point at afterwards. -/
def avcPacketize (args : PacketizeArgs) :
    Option (ℤ × Option (List UInt8) × Option PacketizedAu) :=
  match args with
  | ⟨some src, some dst, some au⟩ => do
      let result ← packetizeUnits src dst au
      return (result.code, some result.dst, some result.au)
  | ⟨_, dst, au⟩ => some (-1, dst, au)

end MoonlightPsp.Avc

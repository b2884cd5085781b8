import MoonlightPsp.ReedSolomon.Gf
import MoonlightPsp.Lib.Loops
import Mathlib.Logic.Function.Basic

/-!
# The Reed-Solomon codec

The functions of `rs.c` that the stream uses: configuring the one static
context, encoding, and reconstructing erased data shards by elimination in
place.  A buffer is addressed by offset; a block of shards is a family of
buffers, and only the first `blockSize` bytes of a shard are ever touched.
-/

namespace MoonlightPsp

/-- A buffer of bytes, addressed by offset. -/
abbrev Buf := ℕ → Gf

namespace Buf

/-- The buffer that starts `off` bytes into `b`. -/
def ptr (b : Buf) (off : ℕ) : Buf := fun t => b (off + t)

/-- Write the buffer `p` back at offset `off`. -/
def store (b : Buf) (off : ℕ) (p : Buf) : Buf :=
  fun a => if a < off then b a else p (a - off)

/-- `memcpy` of `n` bytes. -/
def memcpy (dst src : Buf) (n : ℕ) : Buf :=
  fun t => if t < n then src t else dst t

end Buf

namespace ReedSolomon

/-- `DATA_SHARDS_MAX`. -/
def dataShardsMax : ℕ := 128

/-- `addmul`: add `c` times the source to the destination. -/
def addmul (dst src : Buf) (c : Gf) (sz : ℕ) : Buf :=
  if c ≠ 0 then fun t => if t < sz then dst t + c * src t else dst t
  else dst

/-- `mul`: overwrite the destination by `c` times the source. -/
def mul (dst src : Buf) (c : Gf) (sz : ℕ) : Buf :=
  if c ≠ 0 then fun t => if t < sz then c * src t else dst t
  else fun t => if t < sz then 0 else dst t

/-- `s_rs_ctx` together with `s_rs_parity_buf`.  The pointers `m` and `parity`
only ever are null or point to the static buffers. -/
structure RsContext where
  dataShards : ℕ
  parityShards : ℕ
  shards : ℕ
  m : Bool
  parity : Bool
  parityBuf : Buf

/-- The static context before its first use. -/
def RsContext.cleared : RsContext := ⟨0, 0, 0, false, false, fun _ => 0⟩

/-- A byte as field element, from its number. -/
def gfOfNat (n : ℕ) : Gf := ⟨UInt8.ofNat n⟩

/-- The matrix `reed_solomon_new` writes into the cleared parity buffer: entry
`(j, i)` is `inverse[(parity_shards + i) ^ j]`. -/
def cauchyParity (dataShards parityShards : ℕ) : Buf := fun a =>
  if a < parityShards * dataShards then
    (gfOfNat ((parityShards + a % dataShards) ^^^ (a / dataShards)))⁻¹
  else 0

/-- `reed_solomon_new`: whether it returned a context, and the static context
afterwards. -/
def reedSolomonNew (rs : RsContext) (dataShards parityShards : ℕ) :
    Bool × RsContext :=
  let shards := dataShards + parityShards
  if shards > dataShardsMax ∨ dataShards = 0 ∨ parityShards = 0 then
    (false, ⟨dataShards, parityShards, shards, false, false, rs.parityBuf⟩)
  else
    (true, ⟨dataShards, parityShards, shards, true, true,
      cauchyParity dataShards parityShards⟩)

/-- `reed_solomon_release`. -/
def reedSolomonRelease (rs : RsContext) : RsContext :=
  { rs with m := false, parity := false }

/-! ## Encoding -/

/-- `code_some_shards`. -/
def codeSomeShards (matrixRows : Buf) (inputs outputs : ℕ → Buf)
    (dataShards outputCount byteCount : ℕ) : ℕ → Buf :=
  Nat.fold dataShards (fun c _ outputs =>
    Nat.fold outputCount (fun iRow _ outputs =>
      let u := matrixRows (iRow * dataShards + c)
      Function.update outputs iRow
        (if c = 0 then mul (outputs iRow) (inputs c) u byteCount
        else addmul (outputs iRow) (inputs c) u byteCount)) outputs) outputs

/-- `reed_solomon_encode`: the data blocks come first, all parity blocks after
them. -/
def reedSolomonEncode (rs : RsContext) (shards : ℕ → Buf)
    (nrShards blockSize : ℕ) : ℕ → Buf :=
  let ds := rs.dataShards
  let ps := rs.parityShards
  let n := nrShards / rs.shards
  Nat.fold n (fun g _ shards =>
    let coded := codeSomeShards rs.parityBuf
      (fun i => shards (g * ds + i)) (fun j => shards (n * ds + g * ps + j))
      ds ps blockSize
    fun i =>
      if n * ds + g * ps ≤ i ∧ i < n * ds + g * ps + ps then
        coded (i - (n * ds + g * ps))
      else shards i) shards

/-! ## Elimination in place -/

/-- The state of `nanors_invert_mat`: the work matrix, the shards, and whether a
zero pivot ended the elimination. -/
structure InvertState where
  wrk : Buf
  dst : ℕ → Buf
  failed : Bool

/-- The first loop: the columns of the missing shards, in the rows of the parity
shards taken. -/
def fillWork (src wrk : Buf) (V0 K : ℕ) (c d : ℕ → ℕ) : Buf := fun a =>
  let W := K - V0
  if a < W * W then src (d (a / W) * K + c (V0 + a % W)) else wrk a

/-- The second loop: remove the contribution of the present data shards from the
right-hand sides. -/
def removeKnown (src : Buf) (dst : ℕ → Buf) (V0 K T : ℕ) (c d : ℕ → ℕ) :
    ℕ → Buf :=
  Nat.fold (K - V0) (fun i _ dst =>
    Nat.fold V0 (fun row _ dst =>
      let u := src (d i * K + c row)
      Function.update dst (c (V0 + i))
        (addmul (dst (c (V0 + i))) (dst (c row)) u T)) dst) dst

/-- Clear column `x` below the pivot, one row after the other. -/
def clearBelow (V0 W T : ℕ) (c : ℕ → ℕ) (x : ℕ) (s : InvertState) :
    InvertState :=
  Nat.fold W (fun row _ s =>
    if x < row then
      let u := s.wrk (row * W + x)
      { s with
        wrk := s.wrk.store (row * W)
          (addmul (s.wrk.ptr (row * W)) (s.wrk.ptr (x * W)) u W)
        dst := Function.update s.dst (c (V0 + row))
          (addmul (s.dst (c (V0 + row))) (s.dst (c (V0 + x))) u T) }
    else s) s

/-- One turn of the forward loop: normalise row `x`, then clear column `x`
below it.  The row is scaled over `W` bytes from its diagonal on, which also
touches the start of the next row. -/
def eliminateColumn (V0 W T : ℕ) (c : ℕ → ℕ) (x : ℕ) (s : InvertState) :
    InvertState :=
  if s.failed then s
  else if s.wrk (x * W + x) = 0 then { s with failed := true }
  else
    let u := (s.wrk (x * W + x))⁻¹
    clearBelow V0 W T c x
      { s with
        wrk := s.wrk.store (x * W + x)
          (mul (s.wrk.ptr (x * W + x)) (s.wrk.ptr (x * W + x)) u W)
        dst := Function.update s.dst (c (V0 + x))
          (mul (s.dst (c (V0 + x))) (s.dst (c (V0 + x))) u T) }

/-- One turn of the backward loop: remove the solved shard `x` from the rows
above it. -/
def substituteBack (wrk : Buf) (V0 W T : ℕ) (c : ℕ → ℕ) (x : ℕ)
    (dst : ℕ → Buf) : ℕ → Buf :=
  Nat.fold x (fun row _ dst =>
    let u := wrk (row * W + x)
    Function.update dst (c (V0 + row))
      (addmul (dst (c (V0 + row))) (dst (c (V0 + x))) u T)) dst

/-- `nanors_invert_mat`. -/
def nanorsInvertMat (src wrk : Buf) (dst : ℕ → Buf) (V0 K T : ℕ)
    (c d : ℕ → ℕ) : Int × (ℕ → Buf) :=
  let W := K - V0
  let s := Nat.fold W (fun x _ s => eliminateColumn V0 W T c x s)
    ⟨fillWork src wrk V0 K c d, removeKnown src dst V0 K T c d, false⟩
  if s.failed then (-1, s.dst)
  else (0, Nat.foldRev W (fun x _ dst => substituteBack s.wrk V0 W T c x dst)
    s.dst)

/-! ## Decoding -/

/-- The next unmarked shard from `j` on, below `limit`. -/
def nextUnmarked (marks : ℕ → Bool) (limit j : ℕ) : Option ℕ :=
  (List.range' j (limit - j)).find? fun k => !marks k

/-- Collect `n` unmarked shards from `j` on, below `limit`; the flag tells
whether that many were found. -/
def collectUnmarked (marks : ℕ → Bool) (limit : ℕ) : ℕ → ℕ → List ℕ × Bool
  | 0, _ => ([], true)
  | n + 1, j =>
      match nextUnmarked marks limit j with
      | none => ([], false)
      | some k =>
          let (rest, ok) := collectUnmarked marks limit n (k + 1)
          (k :: rest, ok)

/-- `nanors_decode_shards`.  The static work matrix is filled before it is read,
so it is taken as cleared. -/
def nanorsDecodeShards (rs : RsContext) (data : ℕ → Buf) (marks : ℕ → Bool)
    (nrShards blockSize : ℕ) : Int × (ℕ → Buf) :=
  let ds := rs.dataShards
  let erasures := (List.range ds).filter marks
  let gaps := erasures.length
  if nrShards < rs.shards then (-1, data)
  else if gaps = 0 then (0, data)
  else
    let (kept, keptOk) := collectUnmarked marks ds (ds - gaps) 0
    if !keptOk then (-1, data)
    else
      let colperm := kept ++ erasures
      let (rows, rowsOk) := collectUnmarked marks nrShards gaps ds
      let data := (erasures.zip rows).foldl (fun data (e, j) =>
        Function.update data e ((data e).memcpy (data j) blockSize)) data
      if !rowsOk then (-1, data)
      else
        nanorsInvertMat rs.parityBuf (fun _ => 0) data (ds - gaps) ds blockSize
          (fun i => colperm.getD i 0) (fun i => rows.getD i 0 - ds)

/-- `reed_solomon_decode`: `fecBlocks` pairs each parity shard taken with its
number. -/
def reedSolomonDecode (rs : RsContext) (dataBlocks : ℕ → Buf) (blockSize : ℕ)
    (fecBlocks : List (ℕ × Buf)) (erasedBlocks : List ℕ) :
    Int × (ℕ → Buf) :=
  let total := rs.shards
  let ds := rs.dataShards
  if total > dataShardsMax then (-1, dataBlocks)
  else
    let subShards : ℕ → Buf := fecBlocks.foldl (fun sub (no, blk) =>
      if no < rs.parityShards then Function.update sub (ds + no) blk else sub)
      (fun i => if i < ds then dataBlocks i else fun _ => 0)
    let marks : ℕ → Bool := (erasedBlocks.zip fecBlocks).foldl
      (fun marks (e, no, _) =>
        let marks := if e < ds then Function.update marks e true else marks
        if no < rs.parityShards then Function.update marks (ds + no) false
        else marks)
      (fun i => decide (ds ≤ i))
    let (ret, sub) := nanorsDecodeShards rs subShards marks total blockSize
    (ret, fun i => if i < ds then sub i else dataBlocks i)

/-- `reed_solomon_reconstruct`: the return value and the shards. -/
def reedSolomonReconstruct (rs : RsContext) (shards : ℕ → Buf)
    (marks : ℕ → Bool) (nrShards blockSize : ℕ) : Int × (ℕ → Buf) :=
  let ds := rs.dataShards
  let ps := rs.parityShards
  let n := nrShards / rs.shards
  Nat.fold n (fun g _ (err, shards) =>
    let dataBase := g * ds
    let fecBase := n * ds + g * ps
    let erasedBlocks := (List.range ds).filter fun i => marks (dataBase + i)
    let dn := erasedBlocks.length
    let fecBlocks :=
      ((List.range ps).filter fun i => !marks (fecBase + i)).take dn
    if dn = 0 then (err, shards)
    else if dn = fecBlocks.length then
      let (ret, data) := reedSolomonDecode rs (fun i => shards (dataBase + i))
        blockSize (fecBlocks.map fun i => (i, shards (fecBase + i)))
        erasedBlocks
      (if ret ≠ 0 then ret else err, fun i =>
        if dataBase ≤ i ∧ i < dataBase + ds then data (i - dataBase)
        else shards i)
    else (-1, shards)) (0, shards)

end ReedSolomon
end MoonlightPsp

import Mathlib.Tactic.IntervalCases
import MoonlightPsp.Audio.FecSlots

/-!
# What the cache recovers is what was sent

The sender numbers its packets from some number on and wraps the numbers at 2^16
on the wire.  While they span less than half of that range the number of a block
on the wire stands for one block only, so every shard kept in a block belongs to
the same four payloads and their two parity shards.

Four of these six shards determine the payloads, since no pivot of the audio
matrix vanishes.  A block that was given four of them is therefore completed
whenever a packet of it is asked for.
-/

namespace MoonlightPsp.Audio

open ReedSolomon

/-! ## The sender -/

/-- The payloads by number, not wrapped, and the first number of those that are
on their way.  The payloads of a block have one size. -/
structure Sender where
  payload : ℕ → Packet
  first : ℕ
  length_eq : ∀ n, (payload n).length = (payload (4 * (n / 4))).length

namespace Sender

variable (d : Sender)

/-- The packet is on its way. -/
def Sent (n : ℕ) : Prop := d.first ≤ n ∧ n < d.first + 2 ^ 15

/-- A packet of the block is on its way. -/
def Spans (k : ℕ) : Prop := ∃ n, d.Sent n ∧ n / 4 = k

/-- The size of the payloads of a block. -/
def size (k : ℕ) : ℕ := (d.payload (4 * k)).length

/-- A parity shard of a block, computed with the audio matrix. -/
def parity (k row : ℕ) : Packet :=
  (List.range (d.size k)).map fun t =>
    (∑ i ∈ Finset.range audioDataShards,
      audioEntry row i * bytesFrom (d.payload (4 * k + i)) 0 t).byte

/-- The six shards of a block. -/
def shard (k s : ℕ) : Buf :=
  if s < audioDataShards then bytesFrom (d.payload (4 * k + s)) 0
  else bytesFrom (d.parity k (s - audioDataShards)) 0

variable {d}

/-- On the wire the number of a block stands for one block. -/
theorem Spans.unique {k l : ℕ} (hk : d.Spans k) (hl : d.Spans l)
    (h : UInt16.ofNat (4 * k) = UInt16.ofNat (4 * l)) : k = l := by
  obtain ⟨n, ⟨hn, hn'⟩, rfl⟩ := hk
  obtain ⟨m, ⟨hm, hm'⟩, rfl⟩ := hl
  have hnat := congrArg UInt16.toNat h
  rw [UInt16.toNat_ofNat', UInt16.toNat_ofNat'] at hnat
  omega

theorem shard_data {k s : ℕ} (hs : s < audioDataShards) :
    d.shard k s = bytesFrom (d.payload (4 * k + s)) 0 :=
  if_pos hs

theorem shard_parity (k row : ℕ) {t : ℕ} (ht : t < d.size k) :
    d.shard k (audioDataShards + row) t =
      ∑ i ∈ Finset.range audioDataShards, audioEntry row i * d.shard k i t := by
  have hnot : ¬ audioDataShards + row < audioDataShards := by omega
  have hsum : bytesFrom (d.parity k row) 0 t =
      ∑ i ∈ Finset.range audioDataShards,
        audioEntry row i * bytesFrom (d.payload (4 * k + i)) 0 t := by
    have hlt : t < (d.parity k row).length := by
      rw [parity, List.length_map, List.length_range]
      exact ht
    rw [bytesFrom, Nat.zero_add, byteAt, List.getD_eq_getElem _ _ hlt]
    simp [parity]
  rw [shard, if_neg hnot, Nat.add_sub_cancel_left, hsum]
  refine Finset.sum_congr rfl fun i hi => ?_
  rw [shard_data (Finset.mem_range.mp hi)]

end Sender

/-! ## Packets of the sender -/

theorem toNat_audioFecBaseSeq (seq : UInt16) :
    (audioFecBaseSeq seq).toNat = 4 * (seq.toNat / 4) := by
  have hmask : ~~~(UInt16.ofNat (audioDataShards - 1)) = (65532 : UInt16) := by
    decide
  have hshift : seq &&& (65532 : UInt16) =
      (seq >>> (2 : UInt16)) <<< (2 : UInt16) := by
    apply UInt16.toBitVec_inj.mp
    simp only [UInt16.toBitVec_and, UInt16.toBitVec_shiftLeft,
      UInt16.toBitVec_shiftRight]
    ext i hi
    simp
    interval_cases i <;> simp
  have hlt := seq.toNat_lt
  rw [audioFecBaseSeq, hmask, hshift, UInt16.toNat_shiftLeft,
    UInt16.toNat_shiftRight]
  have htwo : (2 : UInt16).toNat % 16 = 2 := rfl
  rw [htwo, Nat.shiftLeft_eq, Nat.shiftRight_eq_div_pow]
  omega

/-- A data packet of the sender, on its way. -/
def Sender.SendsData (d : Sender) (hdr : RtpHeader) (payload : Packet) : Prop :=
  ∃ n, d.Sent n ∧ hdr.seq = UInt16.ofNat n ∧ payload = d.payload n

/-- A parity packet of a block that is on its way: behind the header, which has
the number of the shard and that of the block, the bytes. -/
def Sender.SendsParity (d : Sender) (payload : Packet) : Prop :=
  ∃ k row, d.Spans k ∧ row < audioParityShards ∧
    byteAt payload 0 = UInt8.ofNat row ∧
    readBe16 payload 2 = UInt16.ofNat (4 * k) ∧
    payload.drop audioFecHeaderSize = d.parity k row

/-- The shard is one of the six of a block that is on its way. -/
structure Sender.Issues (d : Sender) (k : ℕ) (x : FecShard) : Prop where
  spans : d.Spans k
  baseSeq : x.baseSeq = UInt16.ofNat (4 * k)
  blockSize : x.blockSize = d.size k
  shard_lt : x.shard < audioTotalShards
  src : ∀ t < d.size k, x.src t = d.shard k x.shard t

variable {d : Sender}

theorem audioFecBaseSeq_ofNat (n : ℕ) :
    audioFecBaseSeq (UInt16.ofNat n) = UInt16.ofNat (4 * (n / 4)) := by
  rw [← UInt16.toNat_inj, toNat_audioFecBaseSeq, UInt16.toNat_ofNat',
    UInt16.toNat_ofNat']
  omega

/-- The place of a packet in its block. -/
theorem toNat_sub_audioFecBaseSeq (seq : UInt16) :
    (seq - audioFecBaseSeq seq).toNat = seq.toNat % 4 := by
  have hlt := seq.toNat_lt
  rw [UInt16.toNat_sub, toNat_audioFecBaseSeq]
  omega

theorem dataShard_eq_some {packetDurationMs : ℤ} {hdr : RtpHeader}
    {payload : Packet} {x : FecShard}
    (hx : dataShard packetDurationMs hdr payload = some x) :
    x.baseSeq = audioFecBaseSeq hdr.seq ∧ x.blockSize = payload.length ∧
      x.shard = (hdr.seq - audioFecBaseSeq hdr.seq).toNat ∧
      x.src = bytesFrom payload 0 := by
  simp only [dataShard] at hx
  split_ifs at hx
  all_goals
    cases hx
    exact ⟨rfl, rfl, rfl, rfl⟩

theorem Sender.SendsData.issues {hdr : RtpHeader} {payload : Packet}
    (h : d.SendsData hdr payload) {packetDurationMs : ℤ} {x : FecShard}
    (hx : dataShard packetDurationMs hdr payload = some x) :
    ∃ k, d.Issues k x := by
  obtain ⟨n, hn, hseq, rfl⟩ := h
  have hpos : (hdr.seq - audioFecBaseSeq hdr.seq).toNat = n % 4 := by
    rw [toNat_sub_audioFecBaseSeq, hseq, UInt16.toNat_ofNat']
    omega
  have hlt : n % 4 < audioDataShards := Nat.mod_lt _ (by decide)
  obtain ⟨hbase, hsize, hshard, hsrc⟩ := dataShard_eq_some hx
  rw [hpos] at hshard
  have hnumber : 4 * (n / 4) + n % 4 = n := Nat.div_add_mod n 4
  refine ⟨n / 4, ⟨n, hn, rfl⟩, ?_, hsize.trans (d.length_eq n), ?_, ?_⟩
  · rw [hbase, hseq, audioFecBaseSeq_ofNat]
  · rw [hshard]
    exact Nat.lt_of_lt_of_le hlt (by decide)
  · intro t _
    rw [hsrc, hshard, Sender.shard_data hlt, hnumber]

theorem bytesFrom_drop (p : Packet) (off : ℕ) :
    bytesFrom (p.drop off) 0 = bytesFrom p off := by
  funext t
  simp [bytesFrom, byteAt, List.getD_eq_getElem?_getD]

theorem Sender.SendsParity.issues {payload : Packet}
    (h : d.SendsParity payload) {x : FecShard}
    (hx : parityShard payload = some x) : ∃ k, d.Issues k x := by
  obtain ⟨k, row, hk, hrow, hshard, hbase, hbytes⟩ := h
  have hrow2 : row < 2 := hrow
  have hnumber : (byteAt payload 0).toNat = row := by
    rw [hshard, UInt8.toNat_ofNat']
    omega
  unfold parityShard at hx
  simp only [hnumber] at hx
  split_ifs at hx
  cases hx
  have hsize : payload.length - audioFecHeaderSize = d.size k := by
    have hlen := congrArg List.length hbytes
    rw [List.length_drop, Sender.parity, List.length_map,
      List.length_range] at hlen
    exact hlen
  refine ⟨k, hk, hbase, hsize, Nat.add_lt_add_left hrow _, fun t _ => ?_⟩
  have hnot : ¬ audioDataShards + row < audioDataShards := by omega
  rw [Sender.shard, if_neg hnot, Nat.add_sub_cancel_left, ← hbytes,
    bytesFrom_drop]

/-! ## Completing a block -/

/-- The shards are those of a code word of the audio matrix. -/
def CodeWord (size : ℕ) (word : ℕ → Buf) : Prop :=
  ∀ row < audioParityShards, ∀ t < size, word (audioDataShards + row) t =
    ∑ i ∈ Finset.range audioDataShards, audioEntry row i * word i t

/-- Whatever is not marked as missing is from the code word. -/
def Agrees (b : AudioRtpFecBlock) (word : ℕ → Buf) : Prop :=
  ∀ s < audioTotalShards, b.marks s = false →
    ∀ t < b.blockSize, b.shards s t = word s t

/-- A block after `audio_rtp_fec_complete`, which returned `ret`. -/
structure Completed (b : AudioRtpFecBlock) (word : ℕ → Buf) (ret : ℤ)
    (after : AudioRtpFecBlock) : Prop where
  valid : after.valid = b.valid
  blockSize : after.blockSize = b.blockSize
  marks : ∀ s, b.marks s = false → after.marks s = false
  agrees : Agrees after word
  enough : audioDataShards ≤ b.available →
    ret = 0 ∧ ∀ s < audioDataShards, after.marks s = false

theorem available_eq (b : AudioRtpFecBlock) :
    b.available = (presentData b.marks audioDataShards).length +
      (presentParity b.marks audioDataShards audioParityShards).length := by
  have hrange : List.range audioTotalShards = List.range audioDataShards ++
      (List.range audioParityShards).map (audioDataShards + ·) := by
    decide
  rw [AudioRtpFecBlock.available, hrange, List.filter_append,
    List.length_append, List.filter_map, List.length_map]
  rfl

theorem shards_update (b : AudioRtpFecBlock) (r : Reconstruction) {s : ℕ}
    (hs : s < audioTotalShards) : (b.update r).shards s = r.shards s := by
  have hs6 : s < audioDataShards + audioParityShards := hs
  rcases Nat.lt_or_ge s audioDataShards with hdata | hparity
  · simp [AudioRtpFecBlock.shards, AudioRtpFecBlock.update, hdata]
  · have hnot : ¬ s < audioDataShards := Nat.not_lt.mpr hparity
    have hrow : s - audioDataShards < audioParityShards := by omega
    have hback : audioDataShards + (s - audioDataShards) = s := by omega
    simp [AudioRtpFecBlock.shards, AudioRtpFecBlock.update, hnot, hrow, hback]

/-- The reconstruction of a block with enough shards. -/
theorem reconstruct_spec {b : AudioRtpFecBlock} {word : ℕ → Buf}
    (hword : CodeWord b.blockSize word) (hagrees : Agrees b word)
    (henough : audioDataShards ≤ b.available) :
    Completed b word 0 (b.update (reconstruct audioContext b.shards b.marks
      audioTotalShards b.blockSize)) ∧
    (reconstruct audioContext b.shards b.marks audioTotalShards
      b.blockSize).ret = 0 := by
  have hspec := reedSolomonReconstruct_spec audioContext_decodes b.shards
    b.marks b.blockSize
  have hcount : (missingData b.marks audioDataShards).length ≤
      (presentParity b.marks audioDataShards audioParityShards).length := by
    have hall := length_present_add_missing b.marks audioDataShards
    rw [available_eq] at henough
    omega
  rw [if_pos hcount] at hspec
  obtain ⟨shards', hresult, hrec⟩ := hspec
  have heq : reconstruct audioContext b.shards b.marks audioTotalShards
      b.blockSize = ⟨matrixInForce audioContext, 0, shards'⟩ := by
    have hresult' : reedSolomonReconstruct audioContext b.shards b.marks
        audioTotalShards b.blockSize = (0, shards') := hresult
    simp only [reconstruct, hresult']
  rw [heq]
  refine ⟨⟨rfl, rfl, fun s hs => ?_, fun s hs hmark t ht => ?_,
    fun _ => ⟨rfl, fun s hs => ?_⟩⟩, rfl⟩
  · simp [AudioRtpFecBlock.update, hs]
  · rw [shards_update b _ hs]
    rcases Nat.lt_or_ge s audioDataShards with hdata | hparity
    · refine hrec.column t ht (fun i => word i t) (fun i hi hi' => ?_)
        (fun row hrow hrow' => ?_) s hdata
      · exact hagrees i (Nat.lt_of_lt_of_le hi (by decide)) hi' t ht
      · rw [hagrees _ (Nat.add_lt_add_left hrow _) hrow' t ht,
          hword row hrow t ht]
        refine Finset.sum_congr rfl fun i hi => ?_
        rw [audioContext_parityBuf hrow (Finset.mem_range.mp hi)]
    · have hnot : ¬ s < audioDataShards := Nat.not_lt.mpr hparity
      have hold : b.marks s = false := by
        simpa [AudioRtpFecBlock.update, hnot] using hmark
      have hkept : shards' s = b.shards s := hrec.frame s fun h => hnot h.1
      exact (congrFun hkept t).trans (hagrees s hs hold t ht)
  · simp [AudioRtpFecBlock.update, hs]

/-- `audio_rtp_fec_complete` keeps the code word and succeeds with four shards. -/
theorem audioRtpFecComplete_spec {rs : SharedRs} {touched : Bool}
    (hrs : Tracked rs touched) {b : AudioRtpFecBlock} (hvalid : b.valid = true)
    {word : ℕ → Buf} (hword : CodeWord b.blockSize word)
    (hagrees : Agrees b word) :
    (∃ touched', Tracked (audioRtpFecComplete rs b).1 touched') ∧
    Completed b word (audioRtpFecComplete rs b).2.2.1
      (audioRtpFecComplete rs b).2.2.2 := by
  simp only [audioRtpFecComplete, hvalid, Bool.not_true, Bool.false_eq_true,
    if_false, audioReconstruct_eq hrs]
  by_cases hnone : b.missingData = 0
  · have hmarks : ∀ s < audioDataShards, b.marks s = false := by
      intro s hs
      refine Bool.eq_false_iff.mpr fun hmark => ?_
      have hempty : missingData b.marks audioDataShards = [] :=
        List.length_eq_zero_iff.mp hnone
      have hmem := mem_missingData.mpr ⟨hs, hmark⟩
      rw [hempty] at hmem
      cases hmem
    rw [if_pos hnone]
    exact ⟨⟨touched, hrs⟩, rfl, rfl, fun s hs => hs, hagrees,
      fun _ => ⟨rfl, hmarks⟩⟩
  · rw [if_neg hnone]
    by_cases hfew : b.available < audioDataShards
    · rw [if_pos hfew]
      exact ⟨⟨touched, hrs⟩, rfl, rfl, fun s hs => hs, hagrees,
        fun henough => absurd hfew (Nat.not_lt.mpr henough)⟩
    · obtain ⟨hcompleted, hret⟩ :=
        reconstruct_spec hword hagrees (Nat.not_lt.mp hfew)
      rw [if_neg hfew]
      simp only [hret, ne_eq, not_true_eq_false, if_false]
      exact ⟨⟨true, hrs.audio⟩, hcompleted⟩

end MoonlightPsp.Audio

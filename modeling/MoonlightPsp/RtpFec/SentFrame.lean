import MoonlightPsp.RtpFec.Recovery

/-!
# The FEC layer: a frame as it is sent

The host cuts a frame into data packets of one size and adds parity packets.  A
packet that is rebuilt from the others has the bytes of the original one, apart
from those that each packet fills in for itself.
-/

namespace MoonlightPsp.RtpFec

open ReedSolomon

/-! ## The frame -/

/-- A frame in one block: the data packets, and the parity packets behind them.
`packetSize` is the size of a data packet from its `NV_VIDEO_PACKET` on. -/
structure SentFrame where
  frameIndex : UInt32
  firstSeq : UInt16
  firstSpi : UInt32
  dataPkts : ℕ
  fecPct : ℕ
  extension : Bool
  packetSize : ℕ
  packets : ℕ → Packet

namespace SentFrame

/-- The number of parity packets. -/
def parityPkts (F : SentFrame) : ℕ := (F.dataPkts * F.fecPct + 99) / 100

def totalPkts (F : SentFrame) : ℕ := F.dataPkts + F.parityPkts

/-- Where the `NV_VIDEO_PACKET` starts. -/
def nvOffset (F : SentFrame) : ℕ := if F.extension then 12 + 4 else 12

/-- The size of the shards that are encoded. -/
def symbolSize (F : SentFrame) : ℕ := F.packetSize + maxRtpHeaderSize

/-- What the header of a packet says. -/
def header (F : SentFrame) (i : ℕ) : FecHeader where
  seq := F.firstSeq + UInt16.ofNat i
  frameIndex := F.frameIndex
  dataPkts := F.dataPkts
  fecIndex := i
  parityPkts := F.parityPkts
  totalPkts := F.totalPkts
  fecBlockNum := 0
  multiFecTotal := 1

/-- The flags of a data packet: picture data in all of them, SOF in the first
one, EOF in the last one. -/
def flags (F : SentFrame) (i : ℕ) : UInt8 :=
  0x01 ||| (if i = 0 then 0x04 else 0) |||
    (if i + 1 = F.dataPkts then 0x02 else 0)

/-- The stream packet index of a data packet. -/
def spi (F : SentFrame) (i : ℕ) : UInt32 :=
  (F.firstSpi + UInt32.ofNat i) &&& 0x00FFFFFF

/-- The bytes that every packet fills in for itself: the RTP header, and
`frameIndex`, `multiFecFlags`, `multiFecBlocks` and `fecInfo`. -/
def IsOwn (F : SentFrame) (t : ℕ) : Prop :=
  t < F.nvOffset ∨ (F.nvOffset + 4 ≤ t ∧ t < F.nvOffset + 8) ∨
    (F.nvOffset + 10 ≤ t ∧ t < F.nvOffset + 16)

/-- The shards that are encoded: the data packets, padded with zeros. -/
def shards (F : SentFrame) : ℕ → Buf := fun i =>
  if i < F.dataPkts then bufOfPacket (F.packets i) else fun _ => 0

/-- The packets are those of one frame, as the host makes them. -/
structure WellFormed (F : SentFrame) : Prop where
  data_pos : 0 < F.dataPkts
  extension : ∀ i < F.totalPkts, hasExtension (F.packets i) = F.extension
  header : ∀ i < F.totalPkts, parseFecHeader (F.packets i) = some (F.header i)
  length_data : ∀ i < F.dataPkts,
    (F.packets i).length = F.nvOffset + F.packetSize
  length_parity : ∀ i < F.totalPkts, F.dataPkts ≤ i →
    (F.packets i).length = F.symbolSize
  flags : ∀ i < F.dataPkts, byteAt (F.packets i) (F.nvOffset + 8) = F.flags i
  spi : ∀ i < F.dataPkts, fecNvStreamPacketIndex (F.packets i, F.nvOffset) = F.spi i
  parity : ∀ r < F.parityPkts, ∀ t < F.symbolSize, ¬F.IsOwn t →
    bufOfPacket (F.packets (F.dataPkts + r)) t =
      reedSolomonEncode (reedSolomonNew .cleared F.dataPkts F.parityPkts).2
        F.shards F.totalPkts F.symbolSize (F.dataPkts + r) t

/-- Reassembly finds in the packet what packet `i` had: sequence number, stream
packet index, flags and payload. -/
structure Delivers (F : SentFrame) (i : ℕ) (p : Packet) : Prop where
  seq : readBe16 p 2 = readBe16 (F.packets i) 2
  nv : rtpNvOffsetFromPacket p = some F.nvOffset
  spi : fecNvStreamPacketIndex (p, F.nvOffset) =
    fecNvStreamPacketIndex (F.packets i, F.nvOffset)
  flags : byteAt p (F.nvOffset + 8) = byteAt (F.packets i) (F.nvOffset + 8)
  payload : p.drop (F.nvOffset + 16) = (F.packets i).drop (F.nvOffset + 16)

/-! ## A packet that stands for another -/

/-- The packet has the length and the sequence number of packet `i`, and all
bytes but those that a packet fills in for itself. -/
structure Carries (F : SentFrame) (i : ℕ) (p : Packet) : Prop where
  length : p.length = F.nvOffset + F.packetSize
  extension : hasExtension p = F.extension
  seq : readBe16 p 2 = F.firstSeq + UInt16.ofNat i
  bytes : ∀ t, ¬F.IsOwn t → byteAt p t = byteAt (F.packets i) t

variable {F : SentFrame} {i : ℕ} {p : Packet}

theorem nvOffset_cases (F : SentFrame) : F.nvOffset = 12 ∨ F.nvOffset = 16 := by
  rw [nvOffset]
  split
  · exact .inr rfl
  · exact .inl rfl

theorem nvOffset_of_length (hext : hasExtension p = F.extension)
    (hlen : F.nvOffset + 16 ≤ p.length) :
    rtpNvOffsetFromPacket p = some F.nvOffset := by
  have hcases := F.nvOffset_cases
  have hoff : (if hasExtension p then 12 + 4 else 12) = F.nvOffset := by
    rw [hext, nvOffset]
  rw [rtpNvOffsetFromPacket]
  simp only [hoff]
  rw [if_neg (by omega), if_neg, if_neg (by omega)]
  rintro ⟨hyes, hshort⟩
  rw [if_pos hyes] at hoff
  omega

theorem seq_of_parse {h : FecHeader} (hp : parseFecHeader p = some h) :
    readBe16 p 2 = h.seq := by
  simp only [parseFecHeader] at hp
  split at hp
  · cases hp
  · obtain rfl := Option.some.inj hp
    rfl

theorem WellFormed.carries (hF : F.WellFormed) (hi : i < F.dataPkts) :
    F.Carries i (F.packets i) where
  length := hF.length_data i hi
  extension := hF.extension i (Nat.lt_add_right _ hi)
  seq := seq_of_parse (hF.header i (Nat.lt_add_right _ hi))
  bytes := fun _ _ => rfl

/-- The NV header is found where the frame has it. -/
theorem Carries.nv (hp : F.Carries i p) (hsize : 16 ≤ F.packetSize) :
    rtpNvOffsetFromPacket p = some F.nvOffset := by
  apply nvOffset_of_length hp.extension
  rw [hp.length]
  omega

theorem Carries.spi (hp : F.Carries i p) (hF : F.WellFormed) (hi : i < F.dataPkts) :
    fecNvStreamPacketIndex (p, F.nvOffset) = F.spi i := by
  have hread : readLe32 p F.nvOffset = readLe32 (F.packets i) F.nvOffset := by
    apply readLe32_congr
    intro t hle hlt
    apply hp.bytes
    simp only [IsOwn]
    omega
  rw [← hF.spi i hi]
  simp only [fecNvStreamPacketIndex, hread]

theorem Carries.flags (hp : F.Carries i p) (hF : F.WellFormed) (hi : i < F.dataPkts) :
    byteAt p (F.nvOffset + 8) = F.flags i := by
  rw [← hF.flags i hi]
  apply hp.bytes
  simp only [IsOwn]
  omega

theorem Carries.delivers (hp : F.Carries i p) (hF : F.WellFormed)
    (hi : i < F.dataPkts) (hsize : 16 ≤ F.packetSize) : F.Delivers i p := by
  have hsame := hF.carries hi
  refine ⟨hp.seq.trans hsame.seq.symm, hp.nv hsize, ?_, ?_, ?_⟩
  · rw [hp.spi hF hi, hsame.spi hF hi]
  · rw [hp.flags hF hi, hsame.flags hF hi]
  · apply drop_congr (hp.length.trans hsame.length.symm)
    intro t hle
    apply hp.bytes
    simp only [IsOwn]
    omega

/-- The frame index is one of a packet's own bytes. -/
theorem Carries.patchFrameId (hp : F.Carries i p) (hsize : 16 ≤ F.packetSize)
    (frame : UInt32) : F.Carries i (RtpFec.patchFrameId p frame) := by
  have hcases := F.nvOffset_cases
  have hlen := hp.length
  rw [RtpFec.patchFrameId, hp.nv hsize]
  simp only
  rw [if_pos (by omega)]
  refine ⟨by simp [writeLe32, hlen], ?_, ?_, ?_⟩
  · rw [← hp.extension]
    exact hasExtension_congr (byteAt_writeLe32 _ (by omega))
  · rw [← hp.seq]
    apply readBe16_congr
    intro t hle hlt
    exact byteAt_writeLe32 _ (by omega)
  · intro t ht
    rw [← hp.bytes t ht]
    simp only [IsOwn] at ht
    exact byteAt_writeLe32 _ (by omega)

end SentFrame

/-! ## A rebuilt packet -/

theorem byteAt_copyBytes {dst : Packet} (src : Packet) {off n t : ℕ}
    (h : t < off ∨ off + n ≤ t) :
    byteAt (copyBytes dst src off n) t = byteAt dst t := by
  refine Loops.fold_invariant (fun _ (p : Packet) => byteAt p t = byteAt dst t) rfl
    fun i hi p hp => ?_
  rw [byteAt_set_of_ne _ (by omega), hp]

theorem byteAt_packetOfBuf {buf : Buf} {size t : ℕ} (h : t < size) :
    byteAt (packetOfBuf buf size) t = (buf t).byte := by
  simp [byteAt, packetOfBuf, h]

theorem byteAt_of_length_le {p : Packet} {t : ℕ} (h : p.length ≤ t) : byteAt p t = 0 :=
  List.getD_eq_default p 0 h

/-- The RTP header of a rebuilt packet: that of another one, with its own marker
bit and sequence number. -/
theorem rtpHeader_spec (ref dst : Packet) (hlen : 12 ≤ dst.length) (b : UInt8)
    (seq : UInt16) :
    let q := copyBytes (writeBe16 ((dst.set 0 (byteAt ref 0)).set 1 b) 2 seq) ref 4 8
    q.length = dst.length ∧ hasExtension q = hasExtension ref ∧ readBe16 q 2 = seq ∧
      ∀ t, 12 ≤ t → byteAt q t = byteAt dst t := by
  intro q
  have hq : ∀ t, t < 4 ∨ 12 ≤ t →
      byteAt q t = byteAt (writeBe16 ((dst.set 0 (byteAt ref 0)).set 1 b) 2 seq) t :=
    fun t ht => byteAt_copyBytes ref (by omega)
  refine ⟨?_, ?_, ?_, ?_⟩
  · exact Loops.fold_invariant (fun _ (p : Packet) => p.length = dst.length)
      (by simp [writeBe16]) fun i _ p hp => by rw [List.length_set, hp]
  · apply hasExtension_congr
    rw [hq 0 (by omega), byteAt_writeBe16 _ (by omega), byteAt_set_of_ne _ (by omega),
      byteAt_set, if_pos ⟨rfl, by omega⟩]
  · have hsame : readBe16 q 2 =
        readBe16 (writeBe16 ((dst.set 0 (byteAt ref 0)).set 1 b) 2 seq) 2 := by
      apply readBe16_congr
      intro t hle hlt
      exact hq t (by omega)
    rw [hsame]
    apply readBe16_writeBe16
    simp only [List.length_set]
    omega
  · intro t ht
    rw [hq t (.inr ht), byteAt_writeBe16 _ (by omega), byteAt_set_of_ne _ (by omega),
      byteAt_set_of_ne _ (by omega)]

/-- The NV header of a rebuilt packet. -/
theorem nvHeader_spec {F : SentFrame} (q : Packet) (frame : UInt32) (blocks : UInt8) :
    let p := (writeLe32 q (F.nvOffset + 4) frame).set (F.nvOffset + 11) blocks
    p.length = q.length ∧ hasExtension p = hasExtension q ∧ readBe16 p 2 = readBe16 q 2 ∧
      ∀ t, ¬F.IsOwn t → byteAt p t = byteAt q t := by
  intro p
  have hcases := F.nvOffset_cases
  have hp : ∀ t, t < F.nvOffset + 4 ∨ F.nvOffset + 8 ≤ t ∧ t ≠ F.nvOffset + 11 →
      byteAt p t = byteAt q t := by
    intro t ht
    rw [byteAt_set_of_ne _ (by omega), byteAt_writeLe32 _ (by omega)]
  refine ⟨by simp [p, writeLe32], ?_, ?_, ?_⟩
  · apply hasExtension_congr
    exact hp 0 (by omega)
  · apply readBe16_congr
    intro t hle hlt
    exact hp t (by omega)
  · intro t ht
    simp only [SentFrame.IsOwn] at ht
    exact hp t (by omega)

/-- The patch writes bytes only that a packet fills in for itself. -/
theorem fecPatchRecoveredPacketHeader_spec {F : SentFrame} {s : Fec} {slot : ℕ}
    {ref : Packet} (dst : Packet) (hslot : slot < fecMaxPackets)
    (hlen : F.nvOffset + 16 ≤ dst.length) (href : headerReference s slot = some ref)
    (hext : hasExtension ref = F.extension) :
    let p := fecPatchRecoveredPacketHeader s slot 0 0 dst
    p.length = dst.length ∧ hasExtension p = F.extension ∧
      readBe16 p 2 = s.lowestSeq + UInt16.ofNat slot ∧
      ∀ t, ¬F.IsOwn t → byteAt p t = byteAt dst t := by
  have hcases := F.nvOffset_cases
  obtain ⟨hlenq, hextq, hseqq, hbytesq⟩ := rtpHeader_spec ref dst
    (by omega) ((byteAt (dst.set 0 (byteAt ref 0)) 1 &&& 0x80) ||| (byteAt ref 1 &&& 0x7F))
    (s.lowestSeq + UInt16.ofNat slot)
  have hnv := SentFrame.nvOffset_of_length (hextq.trans hext) (by rw [hlenq]; exact hlen)
  have hguard : ¬(slot ≥ fecMaxPackets ∨ dst.length < 12) := by omega
  rw [fecPatchRecoveredPacketHeader, if_neg hguard, href]
  simp only [hnv]
  obtain ⟨hlenp, hextp, hseqp, hbytesp⟩ := nvHeader_spec (F := F)
    (copyBytes (writeBe16 ((dst.set 0 (byteAt ref 0)).set 1
      ((byteAt (dst.set 0 (byteAt ref 0)) 1 &&& 0x80) ||| (byteAt ref 1 &&& 0x7F))) 2
        (s.lowestSeq + UInt16.ofNat slot)) ref 4 8)
    s.currentFrame (((UInt8.ofNat 0 &&& 0x03) <<< 2 ||| (UInt8.ofNat 0 &&& 0x03)) <<< 4)
  refine ⟨hlenp.trans hlenq, (hextp.trans hextq).trans hext, hseqp.trans hseqq, ?_⟩
  intro t ht
  rw [hbytesp t ht]
  apply hbytesq
  simp only [SentFrame.IsOwn] at ht
  omega

/-! ## The sizes -/

theorem fecConfiguredPacketSize_bounds (c : FecConfig) :
    512 ≤ fecConfiguredPacketSize c ∧ fecConfiguredPacketSize c ≤ 1392 := by
  rw [fecConfiguredPacketSize]
  omega

theorem fecRecoverySymbolSize_eq (c : FecConfig) :
    fecRecoverySymbolSize c = fecConfiguredPacketSize c + maxRtpHeaderSize := by
  have hbounds := fecConfiguredPacketSize_bounds c
  simp only [fecRecoverySymbolSize, maxRtpHeaderSize, maxPktSize]
  omega

theorem fecRecoveredDataLen_eq {F : SentFrame} (c : FecConfig) {p : Packet}
    (hext : hasExtension p = F.extension) :
    fecRecoveredDataLen c p (fecRecoverySymbolSize c) =
      F.nvOffset + fecConfiguredPacketSize c := by
  have hbounds := fecConfiguredPacketSize_bounds c
  have hcases := F.nvOffset_cases
  have hoff : (if hasExtension p then 12 + 4 else 12) = F.nvOffset := by
    rw [hext, SentFrame.nvOffset]
  simp only [fecRecoveredDataLen, fecRecoverySymbolSize_eq, hoff, maxRtpHeaderSize,
    maxPktSize]
  omega

/-- What a shard holds outside of the own bytes makes the rebuilt packet one that
stands for the lost one. -/
theorem carries_rebuilt {F : SentFrame} (hF : F.WellFormed) {c : FecConfig}
    (hsize : F.packetSize = fecConfiguredPacketSize c) {i : ℕ} (hi : i < F.dataPkts)
    {s : Fec} (hslot : i < fecMaxPackets) (hseq : s.lowestSeq = F.firstSeq) {ref : Packet}
    (href : headerReference s i = some ref) (hext : hasExtension ref = F.extension)
    {rebuilt : Buf} (hrebuilt : ∀ t < F.symbolSize, ¬F.IsOwn t →
      rebuilt t = bufOfPacket (F.packets i) t) :
    let p := fecPatchRecoveredPacketHeader s i 0 0
      (packetOfBuf rebuilt (fecRecoverySymbolSize c))
    F.Carries i (p.take (fecRecoveredDataLen c p (fecRecoverySymbolSize c))) := by
  intro p
  have hbounds := fecConfiguredPacketSize_bounds c
  have hcases := F.nvOffset_cases
  have hsymbol : fecRecoverySymbolSize c = F.symbolSize := by
    rw [fecRecoverySymbolSize_eq, SentFrame.symbolSize, hsize]
  have hroom : F.symbolSize = F.packetSize + 16 := rfl
  have hbuf : (packetOfBuf rebuilt (fecRecoverySymbolSize c)).length = F.symbolSize := by
    simp [packetOfBuf, hsymbol]
  obtain ⟨hlen, hextp, hseqp, hbytes⟩ := fecPatchRecoveredPacketHeader_spec (F := F)
    (packetOfBuf rebuilt (fecRecoverySymbolSize c)) hslot
    (by rw [hbuf]; omega) href hext
  rw [fecRecoveredDataLen_eq c hextp, ← hsize]
  have htake : ∀ t < F.nvOffset + F.packetSize,
      byteAt (p.take (F.nvOffset + F.packetSize)) t = byteAt p t :=
    fun t ht => byteAt_take ht
  refine ⟨?_, ?_, ?_, ?_⟩
  · rw [List.length_take, hlen, hbuf]
    omega
  · rw [← hextp]
    apply hasExtension_congr
    exact htake 0 (by omega)
  · rw [← hseq, ← hseqp]
    apply readBe16_congr
    intro t hle hlt
    exact htake t (by omega)
  · intro t ht
    by_cases hin : t < F.nvOffset + F.packetSize
    · rw [htake t hin, hbytes t ht, byteAt_packetOfBuf (by omega),
        hrebuilt t (by omega) ht, bufOfPacket]
    · rw [byteAt_of_length_le (by rw [List.length_take]; omega),
        byteAt_of_length_le (by rw [hF.length_data i hi]; omega)]

end MoonlightPsp.RtpFec

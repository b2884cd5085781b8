import MoonlightPsp.Wire
import MoonlightPsp.Lib.SerialNumber
import Mathlib.Algebra.Order.Group.Int
import Mathlib.Data.List.Infix
import Mathlib.Data.Nat.Bitwise

/-!
# The statistics of the receiver reports

For every packet from the video socket the sequence number is extended to 32 bits, and
the jitter of the arrivals is averaged in units of the RTP clock.
-/

namespace MoonlightPsp.Net

open SerialNumber

/-! ## Model -/

/-- The 32 bits at an offset, big endian. -/
def readBe32 (p : Packet) (off : ℕ) : UInt32 :=
  ((byteAt p off).toUInt32 <<< 24) ||| ((byteAt p (off + 1)).toUInt32 <<< 16) |||
    ((byteAt p (off + 2)).toUInt32 <<< 8) ||| (byteAt p (off + 3)).toUInt32

/-- `rtcp_us_to_rtp90k`. -/
def rtcpUsToRtp90k (deltaUs : UInt32) : UInt32 :=
  ((deltaUs.toUInt64 * 90000 + 500000) / 1000000).toUInt32

/-- `rtcp_extend_seq`. -/
def rtcpExtendSeq (seq : UInt16) (referenceExtSeq : UInt32) : UInt32 :=
  let candidate := (referenceExtSeq &&& 0xFFFF0000) ||| seq.toUInt32
  if candidate + 0x8000 < referenceExtSeq then candidate + 0x10000
  else if candidate > referenceExtSeq + 0x8000 ∧ candidate ≥ 0x10000 then
    candidate - 0x10000
  else candidate

/-- One step of the jitter estimate. -/
def updateJitter (jitter : UInt32) (diff : ℤ) : UInt32 :=
  let diff := if diff < 0 then -diff else diff
  let adjust := diff - jitter.toNat
  if adjust ≥ 0 then jitter + UInt32.ofNat ((adjust + 8) / 16).toNat
  else
    let decay := UInt32.ofNat ((-adjust + 8) / 16).toNat
    if decay > jitter then 0 else jitter - decay

/-- The statics of the receiver report. -/
structure RtcpStats where
  pktsReceived : UInt32
  baseExtSeq : UInt32
  highestExtSeq : UInt32
  jitterRtp : UInt32
  lastArrivalUs : UInt32
  lastRtpTimestamp : UInt32
  ssrc : UInt32
  lastExtSeq : UInt32
  haveLastSeq : Bool

/-- The statics at the start of a stream. -/
def RtcpStats.initial : RtcpStats where
  pktsReceived := 0
  baseExtSeq := 0
  highestExtSeq := 0
  jitterRtp := 0
  lastArrivalUs := 0
  lastRtpTimestamp := 0
  ssrc := 0
  lastExtSeq := 0
  haveLastSeq := false

namespace RtcpStats

/-- The sequence number is extended and recorded. -/
def recordSeq (s : RtcpStats) (rtpSeq : UInt16) : RtcpStats :=
  let extSeq :=
    if s.haveLastSeq then rtcpExtendSeq rtpSeq s.highestExtSeq else rtpSeq.toUInt32
  let s :=
    if !s.haveLastSeq then { s with baseExtSeq := extSeq, highestExtSeq := extSeq }
    else if extSeq > s.highestExtSeq then { s with highestExtSeq := extSeq }
    else s
  { s with lastExtSeq := extSeq, haveLastSeq := true }

/-- The arrival is compared with the one before. -/
def recordArrival (s : RtcpStats) (recvNowUs rtpTimestamp : UInt32) : RtcpStats :=
  let jitterRtp :=
    if s.lastArrivalUs ≠ 0 then
      let arrivalDeltaRtp := rtcpUsToRtp90k (recvNowUs - s.lastArrivalUs)
      let rtpDelta := rtpTimestamp - s.lastRtpTimestamp
      updateJitter s.jitterRtp ((arrivalDeltaRtp.toNat : ℤ) - rtpDelta.toNat)
    else s.jitterRtp
  { s with jitterRtp, lastArrivalUs := recvNowUs, lastRtpTimestamp := rtpTimestamp }

/-- The statistics after a packet. -/
def receive (s : RtcpStats) (recvNowUs : UInt32) (packet : Packet) : RtcpStats :=
  let s := { s with pktsReceived := s.pktsReceived + 1 }
  if packet.length ≥ 12 then
    ({ s with ssrc := readBe32 packet 8 }.recordSeq (readBe16 packet 2)).recordArrival
      recvNowUs (readBe32 packet 4)
  else s

end RtcpStats

/-- A packet, and when it comes. -/
structure Arrival where
  nowUs : UInt32
  packet : Packet

def RtcpStats.run (s : RtcpStats) (arrivals : List Arrival) : RtcpStats :=
  arrivals.foldl (fun s a => s.receive a.nowUs a.packet) s

/-! ## Extending a sequence number -/

theorem toNat_high (x : UInt32) : (x &&& 0xFFFF0000).toNat = x.toNat / 65536 * 65536 := by
  have hmask : (0xFFFF0000 : UInt32).toNat = (2 ^ 16 - 1) <<< 16 := rfl
  have hshift : x.toNat / 65536 * 65536 = (x.toNat >>> 16) <<< 16 := by
    rw [Nat.shiftRight_eq_div_pow, Nat.shiftLeft_eq]
  rw [UInt32.toNat_and, hmask, hshift]
  apply Nat.eq_of_testBit_eq
  intro i
  have hlt := x.toNat_lt
  rw [Nat.testBit_and, Nat.testBit_shiftLeft, Nat.testBit_shiftLeft,
    Nat.testBit_two_pow_sub_one, Nat.testBit_shiftRight]
  by_cases hhigh : 16 ≤ i
  · by_cases hword : i < 32
    · have hin : i - 16 < 16 := by omega
      have hback : 16 + (i - 16) = i := by omega
      simp [hhigh, hin, hback]
    · have hbit : x.toNat.testBit i = false := by
        apply Nat.testBit_lt_two_pow
        calc x.toNat < 2 ^ 32 := hlt
          _ ≤ 2 ^ i := Nat.pow_le_pow_right (by decide) (by omega)
      have hback : 16 + (i - 16) = i := by omega
      simp [hback, hbit]
  · simp [hhigh]

theorem toNat_candidate (seq : UInt16) (reference : UInt32) :
    ((reference &&& 0xFFFF0000) ||| seq.toUInt32).toNat =
      reference.toNat / 65536 * 65536 + seq.toNat := by
  have hlow : seq.toNat < 2 ^ 16 := seq.toNat_lt
  have hshift : reference.toNat / 65536 * 65536 = (reference.toNat / 65536) <<< 16 := by
    rw [Nat.shiftLeft_eq]
  rw [UInt32.toNat_or, toNat_high, UInt16.toNat_toUInt32, hshift,
    Nat.shiftLeft_add_eq_or_of_lt hlow]

/-- The extension, on numbers. -/
theorem toNat_rtcpExtendSeq (seq : UInt16) (reference : UInt32) :
    (rtcpExtendSeq seq reference).toNat =
      let r := reference.toNat
      let c := r / 65536 * 65536 + seq.toNat
      if (c + 32768) % 4294967296 < r then (c + 65536) % 4294967296
      else if (r + 32768) % 4294967296 < c ∧ 65536 ≤ c then c - 65536
      else c := by
  have hcandidate := toNat_candidate seq reference
  simp only [rtcpExtendSeq]
  generalize (reference &&& 0xFFFF0000) ||| seq.toUInt32 = candidate at hcandidate ⊢
  rw [← hcandidate]
  have hplus : (candidate + 0x8000).toNat = (candidate.toNat + 32768) % 4294967296 :=
    UInt32.toNat_add _ _
  have hnext : (candidate + 0x10000).toNat = (candidate.toNat + 65536) % 4294967296 :=
    UInt32.toNat_add _ _
  have hreference : (reference + 0x8000).toNat = (reference.toNat + 32768) % 4294967296 :=
    UInt32.toNat_add _ _
  have hcycle : (0x10000 : UInt32).toNat = 65536 := rfl
  simp only [UInt32.lt_iff_toNat_lt, UInt32.le_iff_toNat_le, gt_iff_lt, ge_iff_le, hplus,
    hreference, hcycle]
  split
  · exact hnext
  split
  · rename_i hbehind
    have hle : (0x10000 : UInt32) ≤ candidate := UInt32.le_iff_toNat_le.mpr hbehind.2
    rw [UInt32.toNat_sub_of_le _ _ hle, hcycle]
  · rfl

/-- The index `e` comes out right when the highest one so far is `top`. -/
structure Extendable (top e : ℤ) : Prop where
  nonneg : 0 ≤ e
  lt : e < 2 ^ 32
  same : e / 65536 = top / 65536 → e < 2 ^ 32 - 2 ^ 15 ∧ top < 2 ^ 32 - 2 ^ 15
  before : e / 65536 < top / 65536 → top < 2 ^ 32 - 2 ^ 16

/-- A sequence number is extended right just as long as nothing leaves the 32 bits. -/
theorem rtcpExtendSeq_eq_iff {q : UInt16} {r : UInt32} {e : ℤ}
    (hseq : (q.toNat : ℤ) = e % 65536) (hlo : (r.toNat : ℤ) - e < 2 ^ 15)
    (hhi : e - r.toNat < 2 ^ 15) :
    ((rtcpExtendSeq q r).toNat : ℤ) = e ↔ Extendable r.toNat e := by
  have hr := r.toNat_lt
  rw [toNat_rtcpExtendSeq]
  generalize r.toNat = top at *
  generalize q.toNat = low at *
  simp only
  constructor
  · intro h
    split at h
    · refine ⟨by omega, by omega, fun _ => by omega, fun _ => by omega⟩
    split at h
    · refine ⟨by omega, by omega, fun _ => by omega, fun _ => by omega⟩
    · refine ⟨by omega, by omega, fun _ => by omega, fun _ => by omega⟩
  · rintro ⟨hnonneg, hlt, hsame, hbefore⟩
    split
    · omega
    split
    · omega
    · omega

/-! ## A run of packets -/

/-- A packet of the stream, and its place there. -/
structure Placed where
  index : ℕ
  nowUs : UInt32
  packet : Packet
  length : 12 ≤ packet.length
  seq : readBe16 packet 2 = UInt16.ofNat index

/-- The statistics after a packet and some more. -/
def statsAfter (first : Placed) (rest : List Placed) : RtcpStats :=
  (first :: rest).foldl (fun s p => s.receive p.nowUs p.packet) .initial

/-- The highest index among them. -/
def highestIndex (first : Placed) (rest : List Placed) : ℕ :=
  rest.foldl (fun top p => max top p.index) first.index

/-- What the extended numbers leave out: the cycles before the first packet. -/
def Placed.start (first : Placed) : ℤ := (first.index / 65536 * 65536 : ℕ)

/-- The number of a packet is its index, and the highest number that of the highest
index. -/
def Recovered (first : Placed) (before : List Placed) (p : Placed) : Prop :=
  let s := statsAfter first (before ++ [p])
  (s.lastExtSeq.toNat : ℤ) = p.index - first.start ∧
    (s.highestExtSeq.toNat : ℤ) = highestIndex first (before ++ [p]) - first.start

theorem highestIndex_concat (first : Placed) (before : List Placed) (p : Placed) :
    highestIndex first (before ++ [p]) = max (highestIndex first before) p.index := by
  rw [highestIndex, List.foldl_append]
  rfl

namespace RtcpStats

variable {s : RtcpStats} {q : UInt16}

theorem recordSeq_first (h : s.haveLastSeq = false) :
    (s.recordSeq q).lastExtSeq = q.toUInt32 ∧
      (s.recordSeq q).highestExtSeq = q.toUInt32 := by
  simp [recordSeq, h]

theorem recordSeq_next (h : s.haveLastSeq = true) :
    (s.recordSeq q).lastExtSeq = rtcpExtendSeq q s.highestExtSeq ∧
      (s.recordSeq q).highestExtSeq =
        if rtcpExtendSeq q s.highestExtSeq > s.highestExtSeq then
          rtcpExtendSeq q s.highestExtSeq
        else s.highestExtSeq := by
  by_cases hmore : rtcpExtendSeq q s.highestExtSeq > s.highestExtSeq
  · simp [recordSeq, h, hmore]
  · simp [recordSeq, h, hmore]

theorem recordSeq_arrivals (s : RtcpStats) (q : UInt16) :
    (s.recordSeq q).jitterRtp = s.jitterRtp ∧
      (s.recordSeq q).lastArrivalUs = s.lastArrivalUs ∧
      (s.recordSeq q).lastRtpTimestamp = s.lastRtpTimestamp := by
  by_cases h : s.haveLastSeq = true
  · by_cases hmore : rtcpExtendSeq q s.highestExtSeq > s.highestExtSeq
    · simp [recordSeq, h, hmore]
    · simp [recordSeq, h, hmore]
  · simp [recordSeq, h]

/-- A packet with a header is recorded; its arrival leaves the sequence numbers alone. -/
theorem receive_of_le {packet : Packet} (hlength : 12 ≤ packet.length) (s : RtcpStats)
    (recvNowUs : UInt32) :
    ∃ u : RtcpStats, u.haveLastSeq = s.haveLastSeq ∧ u.highestExtSeq = s.highestExtSeq ∧
      u.jitterRtp = s.jitterRtp ∧ u.lastArrivalUs = s.lastArrivalUs ∧
      u.lastRtpTimestamp = s.lastRtpTimestamp ∧
      s.receive recvNowUs packet =
        (u.recordSeq (readBe16 packet 2)).recordArrival recvNowUs (readBe32 packet 4) := by
  refine ⟨{ s with pktsReceived := s.pktsReceived + 1, ssrc := readBe32 packet 8 },
    rfl, rfl, rfl, rfl, rfl, ?_⟩
  rw [receive, if_pos hlength]

end RtcpStats

theorem toNat_ofNat_index (n : ℕ) : (UInt16.ofNat n).toNat = n % 65536 :=
  UInt16.toNat_ofNat'

theorem statsAfter_concat (first : Placed) (before : List Placed) (p : Placed) :
    statsAfter first (before ++ [p]) =
      (statsAfter first before).receive p.nowUs p.packet := by
  rw [statsAfter, ← List.cons_append, List.foldl_append]
  rfl

theorem statsAfter_haveLastSeq (first : Placed) (before : List Placed) :
    (statsAfter first before).haveLastSeq = true := by
  have hreceive : ∀ (p : Placed) (s : RtcpStats),
      (s.receive p.nowUs p.packet).haveLastSeq = true := by
    intro p s
    obtain ⟨u, -, -, -, -, -, hu⟩ := RtcpStats.receive_of_le p.length s p.nowUs
    rw [hu]
    rfl
  induction before using List.reverseRecOn with
  | nil => exact hreceive first .initial
  | append_singleton before p ih =>
      rw [statsAfter_concat]
      exact hreceive p _

theorem highest_nil (first : Placed) :
    ((statsAfter first []).highestExtSeq.toNat : ℤ) =
      highestIndex first [] - first.start := by
  obtain ⟨u, hlast, -, -, -, -, hu⟩ :=
    RtcpStats.receive_of_le first.length .initial first.nowUs
  have hhighest : (statsAfter first []).highestExtSeq =
      (UInt16.ofNat first.index).toUInt32 := by
    show (RtcpStats.initial.receive first.nowUs first.packet).highestExtSeq = _
    rw [hu, ← first.seq]
    exact (RtcpStats.recordSeq_first hlast).2
  rw [hhighest, UInt16.toNat_toUInt32, toNat_ofNat_index, Placed.start, highestIndex,
    List.foldl_nil]
  omega

variable {first : Placed} {before : List Placed} {p : Placed}

/-- One packet more. -/
theorem recovered_iff
    (hhighest : ((statsAfter first before).highestExtSeq.toNat : ℤ) =
      highestIndex first before - first.start)
    (hnear : ((p.index : ℤ) - highestIndex first before).natAbs < 2 ^ 15) :
    Recovered first before p ↔
      Extendable (highestIndex first before - first.start) (p.index - first.start) := by
  obtain ⟨u, hlast, htop, -, -, -, hu⟩ :=
    RtcpStats.receive_of_le p.length (statsAfter first before) p.nowUs
  obtain ⟨hext, hmax⟩ :=
    RtcpStats.recordSeq_next (q := UInt16.ofNat p.index)
      (hlast.trans (statsAfter_haveLastSeq first before))
  rw [htop] at hext hmax
  generalize (statsAfter first before).highestExtSeq = reference at *
  have hseq : ((UInt16.ofNat p.index).toNat : ℤ) = ((p.index : ℤ) - first.start) % 65536 := by
    rw [toNat_ofNat_index, Placed.start]
    omega
  have hiff := rtcpExtendSeq_eq_iff (r := reference) hseq (by omega) (by omega)
  rw [hhighest] at hiff
  have hrecovered : Recovered first before p ↔
      ((u.recordSeq (UInt16.ofNat p.index)).lastExtSeq.toNat : ℤ) = p.index - first.start ∧
        ((u.recordSeq (UInt16.ofNat p.index)).highestExtSeq.toNat : ℤ) =
          (max (highestIndex first before) p.index : ℕ) - first.start := by
    rw [Recovered, statsAfter_concat, highestIndex_concat, hu, p.seq]
    rfl
  rw [hrecovered, hext, hmax, ← hiff]
  constructor
  · intro h
    exact h.1
  · intro h
    refine ⟨h, ?_⟩
    split
    · rename_i hmore
      have hlt := UInt32.lt_iff_toNat_lt.mp hmore
      omega
    · rename_i hmore
      have hle := UInt32.le_iff_toNat_le.mp (UInt32.not_lt.mp hmore)
      omega

/-- While the numbers come out right the highest one does. -/
theorem highest_of_recovered
    (h : ∀ front p, front ++ [p] <+: before → Recovered first front p) :
    ((statsAfter first before).highestExtSeq.toNat : ℤ) =
      highestIndex first before - first.start := by
  rcases List.eq_nil_or_concat before with rfl | ⟨front, p, rfl⟩
  · exact highest_nil first
  · rw [List.concat_eq_append] at h ⊢
    exact (h front p List.prefix_rfl).2

/-- In a stream where every packet is less than half a cycle away from the highest one so
far, the numbers come out right as long as all of them can be extended. -/
theorem rtcpExtendSeq_run {first : Placed} {rest : List Placed}
    (hnear : ∀ before p, before ++ [p] <+: rest →
      ((p.index : ℤ) - highestIndex first before).natAbs < 2 ^ 15) :
    (∀ before p, before ++ [p] <+: rest → Recovered first before p) ↔
      ∀ before p, before ++ [p] <+: rest →
        Extendable (highestIndex first before - first.start) (p.index - first.start) := by
  constructor
  · intro h before p hp
    have hfront : before <+: rest := (List.prefix_append before [p]).trans hp
    have hhighest := highest_of_recovered fun front q hq => h front q (hq.trans hfront)
    exact (recovered_iff hhighest (hnear before p hp)).mp (h before p hp)
  · intro h before
    -- the packets before are right by induction, and with them the highest number
    induction before using List.reverseRecOn with
    | nil =>
        intro p hp
        exact (recovered_iff (highest_nil first) (hnear [] p hp)).mpr (h [] p hp)
    | append_singleton before q ih =>
        intro p hp
        have hfront : before ++ [q] <+: rest := (List.prefix_append _ [p]).trans hp
        exact (recovered_iff (ih q hfront).2 (hnear _ p hp)).mpr (h _ p hp)

/-! ## Sample streams -/

/-- A packet that is only a header. -/
def headerPacket (nowUs : UInt32) (index : ℕ) (timestamp : UInt32) : Placed where
  index
  nowUs
  packet := writeBe16 [0x80, 0x60, 0, 0, (timestamp >>> 24).toUInt8,
    (timestamp >>> 16).toUInt8, (timestamp >>> 8).toUInt8, timestamp.toUInt8, 0, 0, 0, 0] 2
    (UInt16.ofNat index)
  length := le_refl 12
  seq := readBe16_writeBe16 _ (Nat.le_of_ble_eq_true rfl)

/-- A law of all packets of a list, with those before, packet by packet. -/
theorem forall_prefix_cons {α : Type} {P : List α → α → Prop} {a : α} {l : List α}
    (ha : P [] a) (hl : ∀ before p, before ++ [p] <+: l → P (a :: before) p) :
    ∀ before p, before ++ [p] <+: a :: l → P before p := by
  intro before p hp
  cases before with
  | nil =>
      obtain rfl := (List.cons_prefix_cons.mp hp).1
      exact ha
  | cons b before =>
      obtain ⟨rfl, hrest⟩ := List.cons_prefix_cons.mp hp
      exact hl before p hrest

theorem forall_prefix_nil {α : Type} {P : List α → α → Prop} :
    ∀ before p, before ++ [p] <+: ([] : List α) → P before p := by
  intro before p hp
  have hnil := List.prefix_nil.mp hp
  simp at hnil

/-- A packet is late by one when the next cycle has begun. -/
theorem rtcpExtendSeq_reordered :
    let first := headerPacket 0 65534 0
    let rest := [headerPacket 0 65537 0, headerPacket 0 65536 0, headerPacket 0 65535 0]
    ∀ before p, before ++ [p] <+: rest → Recovered first before p := by
  intro first rest
  have hnear : ∀ before p, before ++ [p] <+: rest →
      ((p.index : ℤ) - highestIndex first before).natAbs < 2 ^ 15 :=
    forall_prefix_cons (by decide) <| forall_prefix_cons (by decide) <|
      forall_prefix_cons (by decide) forall_prefix_nil
  refine (rtcpExtendSeq_run hnear).mpr ?_
  refine forall_prefix_cons ⟨by decide, by decide, by decide, by decide⟩ <|
    forall_prefix_cons ⟨by decide, by decide, by decide, by decide⟩ <|
    forall_prefix_cons ⟨by decide, by decide, by decide, by decide⟩ forall_prefix_nil

/-- The stream begins with a packet that has overtaken the last one of the cycle before:
the late one passes for one that is far ahead. -/
theorem rtcpExtendSeq_overtaken :
    let first := headerPacket 0 65536 0
    let late := headerPacket 0 65535 0
    ((late.index : ℤ) - highestIndex first []).natAbs < 2 ^ 15 ∧
      ¬Recovered first [] late ∧
      (statsAfter first [late]).highestExtSeq = 65535 := by
  refine ⟨by decide, ?_, by decide⟩
  intro h
  have hlast := h.1
  revert hlast
  decide

end MoonlightPsp.Net
